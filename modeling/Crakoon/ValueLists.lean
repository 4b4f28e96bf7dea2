import Crakoon.Chains
import Crakoon.Client

/-!
# The lists as chains of items

`arakoon-value-list.c` and `arakoon-key-value-list.c` as they work on memory: a list is a header that points at its
first item, an item points at the next one, and an iterator points at the item it comes to. The cells of the items are
kept beside the session, by the number of the block that an item lives in. The macros that decode lists, and the loop
of `arakoon_multi_get` over its keys, are given on these lists too.
-/

namespace Crakoon

open Programs Chains

/-- A session and the items that are linked in its memory. -/
structure Linked (ι : Type) where
  session : Session
  cells : Cells Nat ι

abbrev LinkedM (ι : Type) := Program (Linked ι)

section Cells

variable {ι α : Type}

def onSession (m : SessionM α) : LinkedM ι α := fun t =>
  (m.run t.session).map fun out => (out.1, { t with session := out.2 })

/-- `none`: there is no item at the address. -/
def cellAt (p : Nat) : LinkedM ι (Cell Nat ι) := fun t => (t.cells p).map fun cell => (cell, t)

def putCell (p : Nat) (cell : Cell Nat ι) : LinkedM ι Unit := fun t =>
  some ((), { t with cells := t.cells.put p cell })

/-- `p->next = q;` -/
def linkCell (p q : Nat) : LinkedM ι Unit := fun t => some ((), { t with cells := t.cells.link p q })

end Cells

structure ArakoonValueList where
  id : Nat
  size : Nat
  first : Option Nat
  last : Option Nat
  deriving DecidableEq

structure ArakoonKeyValueList where
  id : Nat
  size : Nat
  first : Option Nat
  deriving DecidableEq

section Lists

variable (alloc : Nat → Bool)

def arakoonValueListNew : LinkedM Data (Option ArakoonValueList) := do
  match ← onSession (memNew alloc) with
  | none => pure none
  | some id => pure (some ⟨id, 0, none, none⟩)

def arakoonValueListPrepend (list : ArakoonValueList) (value : Data) : LinkedM Data (ArakoonValueList × ArakoonRc) := do
  match ← onSession (memNew alloc) with
  | none => pure (list, enomem)
  | some item => do
      match ← onSession (copyValue alloc value) with
      | none => do
          onSession (memFree (.block item))
          pure (list, enomem)
      | some copy => do
          putCell item ⟨list.first, copy⟩
          pure (⟨list.id, sizeT (list.size + 1), some item, some (list.last.getD item)⟩, ArakoonReturnCode.success.rc)

def arakoonValueListAppend (list : ArakoonValueList) (value : Data) : LinkedM Data (ArakoonValueList × ArakoonRc) := do
  match ← onSession (memNew alloc) with
  | none => pure (list, enomem)
  | some item => do
      match ← onSession (copyValue alloc value) with
      | none => do
          onSession (memFree (.block item))
          pure (list, enomem)
      | some copy => do
          putCell item ⟨none, copy⟩
          match list.last with
          | some last => linkCell last item
          | none => pure ()
          pure (⟨list.id, sizeT (list.size + 1), some (list.first.getD item), some item⟩, ArakoonReturnCode.success.rc)

/-- A null pointer is refused, whatever its size. -/
def arakoonValueListAdd (list : ArakoonValueList) (value : Data) : LinkedM Data (ArakoonValueList × ArakoonRc) :=
  if value.ptr = .null then pure (list, einval) else arakoonValueListAppend alloc list value

def arakoonValueListSize (list : ArakoonValueList) : Nat := list.size

def arakoonKeyValueListNew : LinkedM (Data × Data) (Option ArakoonKeyValueList) := do
  match ← onSession (memNew alloc) with
  | none => pure none
  | some id => pure (some ⟨id, 0, none⟩)

def arakoonKeyValueListPrepend (list : ArakoonKeyValueList) (key value : Data) :
    LinkedM (Data × Data) (ArakoonKeyValueList × ArakoonRc) := do
  match ← onSession (memNew alloc) with
  | none => pure (list, enomem)
  | some item => do
      match ← onSession (copyValue alloc key) with
      | none => do
          onSession (memFree (.block item))
          pure (list, enomem)
      | some keyCopy => do
          match ← onSession (copyValue alloc value) with
          | none => do
              onSession (memFree keyCopy.ptr)
              onSession (memFree (.block item))
              pure (list, enomem)
          | some valueCopy => do
              putCell item ⟨list.first, (keyCopy, valueCopy)⟩
              pure (⟨list.id, sizeT (list.size + 1), some item⟩, ArakoonReturnCode.success.rc)

def arakoonKeyValueListSize (list : ArakoonKeyValueList) : Nat := list.size

end Lists

/-- `ArakoonValueListIter` and `ArakoonKeyValueListIter`: the block it lives in and the item it comes to. -/
structure ListIter where
  id : Nat
  current : Option Nat
  deriving DecidableEq

section Iterators

variable {ι β : Type} (alloc : Nat → Bool)

def listCreateIter (first : Option Nat) : LinkedM ι (Option ListIter) := do
  match ← onSession (memNew alloc) with
  | none => pure none
  | some id => pure (some ⟨id, first⟩)

/-- Past the last item an iterator yields `nothing`. -/
def listIterNext (nothing : ι) (iter : ListIter) : LinkedM ι (ListIter × ι) := do
  match iter.current with
  | none => pure (iter, nothing)
  | some p => do
      let cell ← cellAt p
      pure (⟨iter.id, cell.next⟩, cell.item)

def listIterReset (first : Option Nat) (iter : ListIter) : ListIter := ⟨iter.id, first⟩

/-- A `for` loop over an iterator, which stops at an item that is not `shown`. The body goes on to the next item or
leaves the loop; `none`: the loop does not come to its end within so many rounds. -/
def forListIter (nothing : ι) (shown : ι → Bool) (body : ι → β → LinkedM ι (ForInStep β)) :
    Nat → ListIter → β → LinkedM ι β
  | 0, _, _ => fun _ => none
  | rounds + 1, iter, b => do
      let (iter, item) ← listIterNext nothing iter
      if shown item then do
        match ← body item b with
        | .yield b => forListIter nothing shown body rounds iter b
        | .done b => pure b
      else pure b

def listIterFree (iter : ListIter) : LinkedM ι Unit := onSession (memFree (.block iter.id))

def arakoonValueListCreateIter (list : ArakoonValueList) : LinkedM Data (Option ListIter) :=
  listCreateIter alloc list.first

def arakoonValueListIterNext (iter : ListIter) : LinkedM Data (ListIter × Data) := listIterNext .null iter

/-- The list is the one that the iterator keeps a pointer to. -/
def arakoonValueListIterReset (list : ArakoonValueList) (iter : ListIter) : ListIter := listIterReset list.first iter

/-- `FOR_ARAKOON_VALUE_ITER` -/
def forArakoonValueIter (body : Data → β → LinkedM Data (ForInStep β)) : Nat → ListIter → β → LinkedM Data β :=
  forListIter .null (fun value => value.ptr ≠ .null) body

def arakoonKeyValueListCreateIter (list : ArakoonKeyValueList) : LinkedM (Data × Data) (Option ListIter) :=
  listCreateIter alloc list.first

def arakoonKeyValueListIterNext (iter : ListIter) : LinkedM (Data × Data) (ListIter × (Data × Data)) :=
  listIterNext (.null, .null) iter

def arakoonKeyValueListIterReset (list : ArakoonKeyValueList) (iter : ListIter) : ListIter :=
  listIterReset list.first iter

/-- `FOR_ARAKOON_KEY_VALUE_ITER` -/
def forArakoonKeyValueIter (body : Data × Data → β → LinkedM (Data × Data) (ForInStep β)) :
    Nat → ListIter → β → LinkedM (Data × Data) β :=
  forListIter (.null, .null) (fun p => p.1.ptr ≠ .null ∧ p.2.ptr ≠ .null) body

end Iterators

section Decoding

variable (alloc : Nat → Bool)

/-- The loop of `ARAKOON_PROTOCOL_READ_STRING_LIST`. -/
def readStringsInto : Nat → ArakoonValueList → ArakoonRc → LinkedM Data (ArakoonValueList × ArakoonRc)
  | 0, a, rc => pure (a, rc)
  | cnt + 1, a, rc => do
      let (s, rc) ← onSession (readString alloc .null rc)
      if rc ≠ 0 then pure (a, rc)
      else do
        let (a, rc) ← arakoonValueListPrepend alloc a s
        onSession (memMaybeFree s)
        if rc ≠ 0 then pure (a, rc) else readStringsInto cnt a rc

/-- `ARAKOON_PROTOCOL_READ_STRING_LIST` -/
def readStringListInto (a : ArakoonValueList) : LinkedM Data (ArakoonValueList × ArakoonRc) := do
  let (cnt, rc) ← onSession (readUInt32 0)
  if rc = 0 then readStringsInto alloc cnt a rc else pure (a, rc)

/-- The loop of `ARAKOON_PROTOCOL_READ_STRING_STRING_LIST`. -/
def readStringPairsInto :
    Nat → ArakoonKeyValueList → ArakoonRc → LinkedM (Data × Data) (ArakoonKeyValueList × ArakoonRc)
  | 0, a, rc => pure (a, rc)
  | cnt + 1, a, rc => do
      let (s0, rc) ← onSession (readString alloc .null rc)
      if rc ≠ 0 then pure (a, rc)
      else do
        let (s1, rc) ← onSession (readString alloc .null rc)
        if rc ≠ 0 then do
          onSession (memMaybeFree s0)
          pure (a, rc)
        else do
          let (a, rc) ← arakoonKeyValueListPrepend alloc a s0 s1
          onSession (memMaybeFree s0)
          onSession (memMaybeFree s1)
          if rc ≠ 0 then pure (a, rc) else readStringPairsInto cnt a rc

/-- `ARAKOON_PROTOCOL_READ_STRING_STRING_LIST` -/
def readStringStringListInto (a : ArakoonKeyValueList) : LinkedM (Data × Data) (ArakoonKeyValueList × ArakoonRc) := do
  let (cnt, rc) ← onSession (readUInt32 0)
  if rc = 0 then readStringPairsInto alloc cnt a rc else pure (a, rc)

end Decoding

section MultiGet

variable (alloc : Nat → Bool)

/-- The count is the size that the list keeps. -/
def multiGetHeader (options : Option ClientCallOptions) (keys : ArakoonValueList) : Command where
  len := sizeT (commandLen + boolLen + uint32Len)
  written := writeCommand 0x11 0x00 ++ writeBool (readOptions options).allowDirty ++
    writeUInt32 (arakoonValueListSize keys)

/-- The body of the loop over the keys. It leaves the loop, and the operation, where a write fails. -/
def multiGetKey (value : Data) (_ : ArakoonRc) : LinkedM Data (ForInStep ArakoonRc) := do
  let rc ← onSession (writeBytes (writeUInt32 value.size))
  if rc ≠ 0 then pure (.done rc)
  else do
    let rc ← onSession (writeBytes (value.value.getD []))
    if rc ≠ 0 then pure (.done rc) else pure (.yield rc)

/-- What `arakoon_multi_get` does up to the end of its loop over the keys, for at most so many rounds. -/
def streamMultiGet (options : Option ClientCallOptions) (keys : ArakoonValueList) (rounds : Nat) :
    LinkedM Data ArakoonRc := do
  let rc ← onSession (sendCommand alloc (multiGetHeader options keys))
  if rc ≠ 0 then pure rc
  else do
    match ← arakoonValueListCreateIter alloc keys with
    | none => pure rc
    | some iter => do
        let rc ← forArakoonValueIter multiGetKey rounds iter rc
        if rc ≠ 0 then pure rc
        else do
          listIterFree iter
          pure rc

end MultiGet

end Crakoon
