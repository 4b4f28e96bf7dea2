import Crakoon.Protocol

/-!
# Sequences

A sequence keeps its items in reverse: every `arakoon_sequence_add_*` call prepends one. The request
is therefore built back to front, by a second loop over the same chain, in a block whose size a
first loop has added up. The writer below keeps the index as an integer, so that an index that moves
below zero is seen, and every store it makes, so that overlapping or missing stores are.
-/

namespace Crakoon

/-- `ArakoonSequenceItem`; the strings are the item's own copies. -/
inductive SequenceItem where
  | set (key value : Bytes)
  | delete (key : Bytes)
  | assert (key : Bytes) (value : Option Bytes)
  | assertExists (key : Bytes)
  deriving DecidableEq

/-- `ArakoonSequence`: the chain from `sequence->item` on. -/
structure Sequence where
  items : List SequenceItem
  deriving DecidableEq

def sequenceNew : Sequence := ⟨[]⟩

def sequenceAddSet (sequence : Sequence) (key value : Bytes) : Sequence :=
  ⟨.set key value :: sequence.items⟩

def sequenceAddDelete (sequence : Sequence) (key : Bytes) : Sequence :=
  ⟨.delete key :: sequence.items⟩

/-- `none`: `COPY_STRING_OPTION` aborts on a null pointer with a size other than `0`. -/
def sequenceAddAssert (sequence : Sequence) (key : Bytes) (value : StringOption) : Option Sequence :=
  match value with
  | .null size => if size ≠ 0 then none else some ⟨.assert key none :: sequence.items⟩
  | .data value => some ⟨.assert key (some value) :: sequence.items⟩

def sequenceAddAssertExists (sequence : Sequence) (key : Bytes) : Sequence :=
  ⟨.assertExists key :: sequence.items⟩

/-- One `arakoon_sequence_add_*` call. -/
inductive SequenceAdd where
  | set (key value : Bytes)
  | delete (key : Bytes)
  | assert (key : Bytes) (value : StringOption)
  | assertExists (key : Bytes)
  deriving DecidableEq

def SequenceAdd.run (sequence : Sequence) : SequenceAdd → Option Sequence
  | .set key value => some (sequenceAddSet sequence key value)
  | .delete key => some (sequenceAddDelete sequence key)
  | .assert key value => sequenceAddAssert sequence key value
  | .assertExists key => some (sequenceAddAssertExists sequence key)

/-- The item a call asks for. -/
def SequenceAdd.item : SequenceAdd → SequenceItem
  | .set key value => .set key value
  | .delete key => .delete key
  | .assert key value => .assert key value.value
  | .assertExists key => .assertExists key

/-- A null value comes with size `0`. -/
def SequenceAdd.Admissible : SequenceAdd → Prop
  | .assert _ (.null size) => size = 0
  | _ => True

/-- A sequence built from scratch. -/
def sequenceBuild (adds : List SequenceAdd) : Option Sequence := adds.foldlM SequenceAdd.run sequenceNew

/-- What the first loop adds for one item. -/
def sequenceItemLen : SequenceItem → Nat
  | .set key value => uint32Len + stringLen key.length + stringLen value.length
  | .delete key => uint32Len + stringLen key.length
  | .assert key value =>
      uint32Len + stringLen key.length + (boolLen + value.elim 0 fun v => stringLen v.length)
  | .assertExists key => uint32Len + stringLen key.length

/-- The header: command, total string size, outer sequence and number of items. -/
def sequenceHeaderLen : Nat := commandLen + uint32Len + uint32Len + uint32Len

def sequenceLen (items : List SequenceItem) : Nat :=
  items.foldl (fun len item => sizeT (len + sequenceItemLen item)) sequenceHeaderLen

/-- The index `i` and the stores made so far into the command block, the latest first. -/
structure BackWriter where
  i : Int
  stores : List (Int × Bytes)

namespace BackWriter

/-- `i -= l; memcpy(&command[i], s, l);` -/
def store (w : BackWriter) (s : Bytes) : BackWriter := ⟨w.i - s.length, (w.i - s.length, s) :: w.stores⟩

/-- `WRITE_UINT32` -/
def writeUInt32 (w : BackWriter) (n : Nat) : BackWriter := w.store (le32 n)

/-- `WRITE_STRING` -/
def writeString (w : BackWriter) (s : Bytes) : BackWriter := (w.store s).writeUInt32 s.length

/-- `WRITE_STRING_OPTION` -/
def writeStringOption (w : BackWriter) : Option Bytes → BackWriter
  | none => w.store [boolFalse]
  | some s => (w.writeString s).store [boolTrue]

/-- The body of the second loop, the last field of the item first. -/
def writeItem (w : BackWriter) : SequenceItem → BackWriter
  | .set key value => ((w.writeString value).writeString key).writeUInt32 1
  | .delete key => (w.writeString key).writeUInt32 2
  | .assert key value => ((w.writeStringOption value).writeString key).writeUInt32 8
  | .assertExists key => (w.writeString key).writeUInt32 15

end BackWriter

/-- The second loop, with its `uint32_t` item count. -/
def sequenceWriteItems (items : List SequenceItem) (w : BackWriter) : Nat × BackWriter :=
  items.foldl (fun (count, w) item => ((count + 1) % 2 ^ 32, w.writeItem item)) (0, w)

/-- The command block of a sequence: its size and the stores that fill it, the latest first. -/
structure SequenceBlock where
  len : Nat
  stores : List (Int × Bytes)

/-- The request part of `_arakoon_sequence_impl`. `none`: one of its two checks of the index fails
and the process aborts. -/
def sequenceImpl (code : UInt8) (sequence : Sequence) : Option SequenceBlock :=
  let len := sequenceLen sequence.items
  let (count, w) := sequenceWriteItems sequence.items ⟨len, []⟩
  if w.i ≠ (sequenceHeaderLen : Int) then
    none
  else
    let w := w.writeUInt32 count
    let w := w.writeUInt32 5
    let w := w.writeUInt32 (sizeT (len + 2 ^ 64 - uint32Len - commandLen))
    if w.i ≠ (commandLen : Int) then
      none
    else
      some ⟨len, (0, writeCommand code 0x00) :: w.stores⟩

/-- The stores that reach a byte of the block. -/
def storesAt (stores : List (Int × Bytes)) (k : Int) : List (Int × Bytes) :=
  stores.filter fun s => decide (s.1 ≤ k ∧ k < s.1 + s.2.length)

/-- A byte of the block after the stores: the latest one counts, and where none reaches the byte is
what `malloc` left there. -/
def byteAt (fresh : Nat → UInt8) (stores : List (Int × Bytes)) (k : Nat) : UInt8 :=
  match storesAt stores k with
  | [] => fresh k
  | (position, s) :: _ => s.getD (k - position).toNat 0

/-- The bytes `_arakoon_sequence_impl` sends. -/
def SequenceBlock.bytes (block : SequenceBlock) (fresh : Nat → UInt8) : Bytes :=
  (List.range block.len).map (byteAt fresh block.stores)

end Crakoon
