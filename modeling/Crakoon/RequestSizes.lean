import Crakoon.ReplyFraming

/-!
# Sizes and limits in requests

Sizes are 64-bit in the arguments of an operation and 32-bit in its request. A request is described by its parts, in
which every 32-bit field stands with the number it is to hold (`Operation.parts`); `Carries` says that the bytes which
are sent have these parts and that every field does hold its number. They do if and only if the numbers fit their fields
(`sizes_survive_encoding`): no operation checks that they do.
-/

namespace Crakoon

open Programs

/-- A part of a request: bytes as they are, a 32-bit field that is to hold the number of bytes or items that follow it,
or the limit on the elements of a result. -/
inductive Part where
  | raw (bs : Bytes)
  | size (n : Nat)
  | limit (maxElements : Int)
  deriving DecidableEq

namespace Part

def length : Part → Nat
  | .raw bs => bs.length
  | .size _ => uint32Len
  | .limit _ => int32Len

/-- What the macros write for the part. -/
def bytes : Part → Bytes
  | .raw bs => bs
  | .size n => writeUInt32 n
  | .limit maxElements => writeInt32 maxElements

/-- The number fits its field. Of a negative limit only the sign counts. -/
def Fits : Part → Prop
  | .raw _ => True
  | .size n => n < 2 ^ 32
  | .limit maxElements => 0 ≤ maxElements ∧ maxElements < 2 ^ 31 ∨ maxElements < 0 ∧ 2 ^ 31 ≤ maxElements % 2 ^ 32

end Part

/-- The limit that is sent is the one that was asked for; any negative one means that there is none. -/
def LimitKept (maxElements sent : Int) : Prop :=
  (sent < 0 ↔ maxElements < 0) ∧ (0 ≤ maxElements → sent = maxElements)

/-- The bytes are these parts one after the other, and each field holds what it is to hold. -/
def Carries : List Part → Bytes → Prop
  | [], bs => bs = []
  | .raw r :: parts, bs => ∃ rest, bs = r ++ rest ∧ Carries parts rest
  | .size n :: parts, bs =>
      ∃ word rest, bs = word ++ rest ∧ word.length = uint32Len ∧ ofLe32 word = n ∧ Carries parts rest
  | .limit maxElements :: parts, bs =>
      ∃ word rest, bs = word ++ rest ∧ word.length = int32Len ∧ LimitKept maxElements (int32 (ofLe32 word)) ∧
        Carries parts rest

theorem Part.bytes_length (p : Part) : p.bytes.length = p.length := by cases p <;> rfl

theorem flatMap_bytes_length (parts : List Part) :
    (parts.flatMap Part.bytes).length = (parts.map Part.length).sum := by
  simp only [List.length_flatMap, Part.bytes_length]

/-- A field cannot hold a number of more than 32 bits. -/
theorem Carries.size_lt {parts : List Part} {bs : Bytes} (h : Carries parts bs) {n : Nat} (hn : .size n ∈ parts) :
    n < 2 ^ 32 := by
  induction parts generalizing bs with
  | nil => cases hn
  | cons p parts ih =>
      rcases List.mem_cons.mp hn with rfl | htail
      · obtain ⟨word, rest, -, -, rfl, -⟩ := h
        exact ofLe32_lt word
      · cases p with
        | raw r =>
            obtain ⟨rest, -, hrest⟩ := h
            exact ih hrest htail
        | size m =>
            obtain ⟨word, rest, -, -, -, hrest⟩ := h
            exact ih hrest htail
        | limit m =>
            obtain ⟨word, rest, -, -, -, hrest⟩ := h
            exact ih hrest htail

/-- The word of a limit, read back as a signed number. -/
theorem int32_ofLe32_writeInt32 (m : Int) : int32 (ofLe32 (writeInt32 m)) = int32 m := by
  have hnonneg : 0 ≤ m % 2 ^ 32 := Int.emod_nonneg _ (by decide)
  have hlt : m % 2 ^ 32 < 2 ^ 32 := Int.emod_lt_of_pos m (by decide)
  have hword : ofLe32 (writeInt32 m) = (m % 2 ^ 32).toNat := ofLe32_le32_of_lt (by omega)
  rw [hword, Int.toNat_of_nonneg hnonneg]
  exact Int.emod_bmod m (2 ^ 32)

theorem limitKept_iff (m : Int) : LimitKept m (int32 m) ↔ (Part.limit m).Fits := by
  have hcast : ((2 ^ 32 : Nat) : Int) = 4294967296 := rfl
  unfold LimitKept Part.Fits int32 Int.bmod
  rw [hcast]
  dsimp only
  split_ifs <;> omega

/-- What the macros write carries the parts if and only if all numbers fit. -/
theorem carries_bytes_iff (parts : List Part) : Carries parts (parts.flatMap Part.bytes) ↔ ∀ p ∈ parts, p.Fits := by
  induction parts with
  | nil => simp [Carries]
  | cons p parts ih =>
      rw [List.forall_mem_cons, ← ih, List.flatMap_cons]
      cases p with
      | raw r =>
          constructor
          · intro h
            obtain ⟨rest, heq, hrest⟩ := h
            obtain rfl := List.append_cancel_left heq
            exact ⟨trivial, hrest⟩
          · exact fun h => ⟨_, rfl, h.2⟩
      | size n =>
          constructor
          · intro h
            obtain ⟨word, rest, heq, hlength, hword, hrest⟩ := h
            obtain ⟨rfl, rfl⟩ := List.append_inj heq hlength.symm
            refine ⟨?_, hrest⟩
            rw [← hword]
            exact ofLe32_lt _
          · intro h
            exact ⟨writeUInt32 n, _, rfl, rfl, ofLe32_le32_of_lt h.1, h.2⟩
      | limit m =>
          constructor
          · intro h
            obtain ⟨word, rest, heq, hlength, hkept, hrest⟩ := h
            obtain ⟨rfl, rfl⟩ := List.append_inj heq hlength.symm
            rw [Part.bytes, int32_ofLe32_writeInt32, limitKept_iff] at hkept
            exact ⟨hkept, hrest⟩
          · intro h
            refine ⟨writeInt32 m, _, rfl, rfl, ?_, h.2⟩
            rw [int32_ofLe32_writeInt32, limitKept_iff]
            exact h.1

/-- A string behind its length. -/
def stringParts (s : Bytes) : List Part := [.size s.length, .raw s]

def stringOptionParts : StringOption → List Part
  | .null _ => [.raw [boolFalse]]
  | .data value => .raw [boolTrue] :: stringParts value

/-- The flag of the call options. -/
def dirtyPart (options : Option ClientCallOptions) : Part := .raw (writeBool (readOptions options).allowDirty)

def rangeParts (options : Option ClientCallOptions) (bounds : RangeBounds) : List Part :=
  dirtyPart options :: (stringOptionParts bounds.beginKey ++ (.raw (writeBool bounds.beginKeyIncluded) ::
    (stringOptionParts bounds.endKey ++ [.raw (writeBool bounds.endKeyIncluded), .limit bounds.maxElements])))

def sequenceItemParts : SequenceItem → List Part
  | .set key value => .raw (le32 1) :: (stringParts key ++ stringParts value)
  | .delete key => .raw (le32 2) :: stringParts key
  | .assert key none => .raw (le32 8) :: (stringParts key ++ [.raw [boolFalse]])
  | .assert key (some value) => .raw (le32 8) :: (stringParts key ++ .raw [boolTrue] :: stringParts value)
  | .assertExists key => .raw (le32 15) :: stringParts key

/-- The outer sequence, the number of items, and the items in the order in which they were added. -/
def sequenceBodyParts (sequence : Sequence) : List Part :=
  .raw (le32 5) :: .size sequence.items.length :: sequence.items.reverse.flatMap sequenceItemParts

/-- The body behind its size. -/
def sequenceParts (sequence : Sequence) : List Part :=
  .size ((sequenceBodyParts sequence).map Part.length).sum :: sequenceBodyParts sequence

namespace Operation

/-- What follows the command in the block that the operation allocates. -/
def arguments : Operation → List Part
  | .hello clientId clusterId => stringParts clientId.bytes ++ stringParts clusterId.bytes
  | .expectProgressPossible => []
  | .exists options key => dirtyPart options :: stringParts key
  | .get options key => dirtyPart options :: stringParts key
  | .set key value => stringParts key ++ stringParts value
  | .multiGet options keys => [dirtyPart options, .size keys.length]
  | .delete key => stringParts key
  | .range options bounds => rangeParts options bounds
  | .rangeEntries options bounds => rangeParts options bounds
  | .revRangeEntries options bounds => rangeParts options bounds
  | .keyPrefix options beginKey maxElements => dirtyPart options :: (stringParts beginKey ++ [.limit maxElements])
  | .testAndSet key oldValue newValue => stringParts key ++ (stringOptionParts oldValue ++ stringOptionParts newValue)
  | .sequence items => sequenceParts items
  | .syncedSequence items => sequenceParts items
  | .assert options key value => dirtyPart options :: (stringParts key ++ stringOptionParts value)
  | .assertExists options key => dirtyPart options :: stringParts key
  | .deletePrefix start => stringParts start
  | .version => []
  | .userFunction name arg => stringParts name.bytes ++ stringOptionParts arg

/-- The parts of the block. -/
def blockParts (op : Operation) : List Part := .raw (writeCommand op.code 0x00) :: op.arguments

/-- The parts of the whole request: the block, and of `multi_get` the keys behind it. -/
def parts (op : Operation) : List Part := op.blockParts ++ op.keys.flatMap stringParts

/-- The size of the block, as the operation computes it. -/
def len : Operation → Nat
  | .hello clientId clusterId => (helloCommand clientId clusterId).len
  | .expectProgressPossible => expectProgressPossibleCommand.len
  | .exists options key => (existsCommand options key).len
  | .get options key => (getCommand options key).len
  | .set key value => (setCommand key value).len
  | .multiGet options keys => (multiGetCommand options keys).len
  | .delete key => (deleteCommand key).len
  | .range options bounds => (rangeCommand options bounds).len
  | .rangeEntries options bounds => (rangeEntriesCommand options bounds).len
  | .revRangeEntries options bounds => (revRangeEntriesCommand options bounds).len
  | .keyPrefix options beginKey maxElements => (keyPrefixCommand options beginKey maxElements).len
  | .testAndSet key oldValue newValue => (testAndSetCommand key oldValue newValue).len
  | .sequence items => sequenceLen items.items
  | .syncedSequence items => sequenceLen items.items
  | .assert options key value => (assertCommand options key value).len
  | .assertExists options key => (assertExistsCommand options key).len
  | .deletePrefix start => (deletePrefixCommand start).len
  | .version => versionCommand.len
  | .userFunction name arg => (userFunctionCommand name arg).len

/-- Sizes and limits survive: the block has the size of its parts, and the request carries them. -/
structure Exact (op : Operation) : Prop where
  len : op.len = (op.blockParts.map Part.length).sum
  carries : ∃ frame, op.frame = some frame ∧ Carries op.parts frame

/-- The size of the block is a `size_t`, and every number fits its field. -/
structure Fits (op : Operation) : Prop where
  total : (op.blockParts.map Part.length).sum < 2 ^ 64
  fields : ∀ p ∈ op.parts, p.Fits

end Operation

/-! ### What the operations write -/

theorem stringParts_bytes (s : Bytes) : (stringParts s).flatMap Part.bytes = writeString s := by
  simp [stringParts, Part.bytes, writeString]

theorem stringOptionParts_bytes (s : StringOption) : (stringOptionParts s).flatMap Part.bytes = writeStringOption s := by
  cases s with
  | null size => rfl
  | data value =>
      simp [stringOptionParts, Part.bytes, writeStringOption, stringParts_bytes, writeBool, boolTrue, boolFalse]

theorem sequenceItemParts_bytes (item : SequenceItem) :
    (sequenceItemParts item).flatMap Part.bytes = sequenceItemBytes item := by
  cases item with
  | assert key value =>
      cases value <;> simp [sequenceItemParts, sequenceItemBytes, Part.bytes, stringParts_bytes]
  | _ => simp [sequenceItemParts, sequenceItemBytes, Part.bytes, stringParts_bytes]

/-- The block of an operation is a command with these parts, or that of a sequence. -/
theorem Operation.block_cases (op : Operation) :
    (∃ c : Command, op.block = c.assembled ∧ op.len = c.len ∧ c.len = sizeT c.written.length ∧
      c.written = op.blockParts.flatMap Part.bytes) ∨
    ∃ code items, op.block = (sequenceImpl code items).map (fun block => block.bytes fun _ => 0) ∧
      op.len = sequenceLen items.items ∧ op.blockParts = .raw (writeCommand code 0x00) :: sequenceParts items ∧
      op.keys = [] := by
  cases op with
  | sequence items => exact .inr ⟨0x10, items, rfl, rfl, rfl, rfl⟩
  | syncedSequence items => exact .inr ⟨0x24, items, rfl, rfl, rfl, rfl⟩
  | _ =>
      refine .inl ⟨_, rfl, rfl, ?_, ?_⟩
      · simp [helloCommand, expectProgressPossibleCommand, existsCommand, getCommand, assertExistsCommand, keyReadCommand,
          setCommand, multiGetCommand, deleteCommand, deletePrefixCommand, stringCommand, rangeCommand,
          rangeEntriesCommand, revRangeEntriesCommand, rangeBoundsCommand, keyPrefixCommand, testAndSetCommand, assertCommand, versionCommand,
          userFunctionCommand, int32Len, uint32Len, Nat.add_assoc]
      · simp [helloCommand, expectProgressPossibleCommand, existsCommand, getCommand, assertExistsCommand, keyReadCommand,
          setCommand, multiGetCommand, deleteCommand, deletePrefixCommand, stringCommand, rangeCommand,
          rangeEntriesCommand, revRangeEntriesCommand, rangeBoundsCommand, keyPrefixCommand, testAndSetCommand, assertCommand, versionCommand,
          userFunctionCommand, blockParts, arguments, code, rangeParts, dirtyPart, Part.bytes, stringParts_bytes,
          stringOptionParts_bytes]

theorem sequenceBodyParts_bytes (sequence : Sequence) : (sequenceBodyParts sequence).flatMap Part.bytes =
    le32 5 ++ (le32 sequence.items.length ++ sequence.items.reverse.flatMap sequenceItemBytes) := by
  simp only [sequenceBodyParts, List.flatMap_cons, Part.bytes, List.flatMap_assoc, sequenceItemParts_bytes, writeUInt32]

/-- What the field of the total size is to hold: the size of the request less the command and the field. -/
theorem sequenceBodyParts_length (sequence : Sequence) : ((sequenceBodyParts sequence).map Part.length).sum =
    sequenceTotal sequence.items - uint32Len - commandLen := by
  rw [← flatMap_bytes_length, sequenceBodyParts_bytes, ← sequenceTotal_reverse, sequenceTotal]
  simp only [List.length_append, le32_length, length_flatMap_itemBytes, sequenceHeaderLen, commandLen, uint32Len]
  omega

theorem sequenceParts_length (code : UInt8) (sequence : Sequence) :
    ((Part.raw (writeCommand code 0x00) :: sequenceParts sequence).map Part.length).sum =
      sequenceTotal sequence.items := by
  have hheader : sequenceHeaderLen ≤ sequenceTotal sequence.items := Nat.le_add_right _ _
  simp only [sequenceParts, List.map_cons, List.sum_cons, Part.length, sequenceBodyParts_length, writeCommand_length]
  simp only [sequenceHeaderLen, commandLen, uint32Len] at hheader ⊢
  omega

theorem sequenceLen_lt (items : List SequenceItem) : sequenceLen items < 2 ^ 64 := by
  suffices hloop : ∀ (items : List SequenceItem) (len : Nat), len < 2 ^ 64 →
      items.foldl (fun len item => sizeT (len + sequenceItemLen item)) len < 2 ^ 64 from
    hloop items sequenceHeaderLen (by decide)
  intro items
  induction items with
  | nil => exact fun len hlen => hlen
  | cons item items ih => exact fun len _ => ih _ (Nat.mod_lt _ (by decide))

/-- A sequence whose numbers fit is sent as its parts. -/
theorem sequenceImpl_parts (code : UInt8) {sequence : Sequence} (htotal : sequenceTotal sequence.items < 2 ^ 64)
    (hcount : sequence.items.length < 2 ^ 32) :
    (sequenceImpl code sequence).map (fun block => block.bytes fun _ => 0) =
      some ((Part.raw (writeCommand code 0x00) :: sequenceParts sequence).flatMap Part.bytes) := by
  have htotal' : sequenceTotal sequence.items.reverse < 2 ^ 64 := by rwa [sequenceTotal_reverse]
  have hcount' : sequence.items.reverse.length < 2 ^ 32 := by rwa [List.length_reverse]
  obtain ⟨block, himpl, -, hlaid, hbytes⟩ := sequenceImpl_spec code htotal' hcount'
  rw [List.reverse_reverse] at himpl
  rw [himpl, Option.map_some, bytes_of_laid _ hlaid, hbytes, sequenceBytes, sequenceTotal_reverse, List.length_reverse,
    List.flatMap_cons, sequenceParts, List.flatMap_cons, sequenceBodyParts_bytes, sequenceBodyParts_length]
  rfl

namespace Operation

theorem len_lt (op : Operation) : op.len < 2 ^ 64 := by
  rcases op.block_cases with ⟨c, -, hlen, hsize, -⟩ | ⟨code, items, -, hlen, -, -⟩
  · rw [hlen, hsize]
    exact Nat.mod_lt _ (by decide)
  · rw [hlen]
    exact sequenceLen_lt _

/-- The size that is computed is the true one, if this is a `size_t`. -/
theorem len_eq {op : Operation} (htotal : (op.blockParts.map Part.length).sum < 2 ^ 64) :
    op.len = (op.blockParts.map Part.length).sum := by
  rcases op.block_cases with ⟨c, -, hlen, hsize, hwritten⟩ | ⟨code, items, -, hlen, hparts, -⟩
  · rw [hlen, hsize, hwritten, flatMap_bytes_length, sizeT_of_lt htotal]
  · rw [hparts, sequenceParts_length] at htotal ⊢
    rw [hlen, sequenceLen_eq htotal]

/-- The request that is sent, if the size of its block is a `size_t` and its numbers of items fit. -/
theorem frame_eq {op : Operation} (htotal : (op.blockParts.map Part.length).sum < 2 ^ 64)
    (hsizes : ∀ n, .size n ∈ op.parts → n < 2 ^ 32) : op.frame = some (op.parts.flatMap Part.bytes) := by
  have hkeys : (op.keys.flatMap stringParts).flatMap Part.bytes = op.keys.flatMap keyBytes := by
    rw [List.flatMap_assoc]
    exact List.flatMap_congr fun key _ => stringParts_bytes key
  have hblock : op.block = some (op.blockParts.flatMap Part.bytes) := by
    rcases op.block_cases with ⟨c, hblock, -, hsize, hwritten⟩ | ⟨code, items, hblock, -, hparts, -⟩
    · have hlength : c.written.length = c.len := by
        rw [hsize, hwritten, flatMap_bytes_length, sizeT_of_lt htotal]
      rw [hblock, Command.assembled_of_length hlength, hwritten]
    · have hcount : Part.size items.items.length ∈ op.parts := by
        rw [parts, hparts]
        simp [sequenceParts, sequenceBodyParts]
      rw [hparts, sequenceParts_length] at htotal
      rw [hblock, hparts, sequenceImpl_parts code htotal (hsizes _ hcount)]
  rw [frame, hblock, Option.map_some, parts, List.flatMap_append, hkeys]

/-- Sizes and limits survive if and only if they fit. -/
theorem exact_iff (op : Operation) : op.Exact ↔ op.Fits := by
  constructor
  · intro h
    obtain ⟨frame, hframe, hcarries⟩ := h.carries
    have htotal : (op.blockParts.map Part.length).sum < 2 ^ 64 := h.len ▸ op.len_lt
    have heq := frame_eq htotal fun n hn => hcarries.size_lt hn
    obtain rfl := Option.some.inj (heq.symm.trans hframe)
    exact ⟨htotal, (carries_bytes_iff _).mp hcarries⟩
  · intro h
    refine ⟨len_eq h.total, _, frame_eq h.total fun n hn => h.fields _ hn, ?_⟩
    exact (carries_bytes_iff _).mpr h.fields

end Operation

section Calls

variable {alloc : Nat → Bool}

/-- The operation fails before a byte of its request is sent: there is no connected master, no memory for the block, or
the first write fails at once. -/
inductive World.Silent (alloc : Nat → Bool) (op : Operation) (w : World) : Prop where
  | notConnected (hget : w.cluster.getMaster = none)
  | noMemory {k : NodeId} (hget : w.cluster.getMaster = some k) (hnone : alloc w.reset.heap.calls = false)
  | stopped {k : NodeId} {c : Conn} {bs : Bytes} {failure : Failure} (hget : w.cluster.getMaster = some k)
      (hconn : (w.cluster.node k).conn = some c) (hblock : op.block = some bs)
      (hstopped : c.peer.writes c.writes = .stopped 0 failure)

/-- The call returns an error before it has sent a byte, or sizes and limits survive in what it sends. -/
def World.Survives (alloc : Nat → Bool) (op : Operation) (result : op.kind.Out) (w : World) : Prop :=
  (w.Silent alloc op ∧ ∃ out w', (Operation.run alloc op result).run w = some (out, w') ∧ out.1 ≠ 0) ∨ op.Exact

theorem yields_withMaster {α : Type} {missing : α} {body : SessionM (ArakoonRc × α)} {w : World}
    {Q : ArakoonRc × α → World → Prop}
    (hnone : w.cluster.getMaster = none → Q (ArakoonReturnCode.clientNotConnected.rc, missing) w.reset)
    (hsome : ∀ k, w.cluster.getMaster = some k →
      Yields body (w.reset.session k) fun out s' => Q out (w.reset.update k s')) :
    Yields (withMaster missing body) w Q := by
  cases hget : w.cluster.getMaster with
  | none => exact ⟨_, _, withMaster_none hget, hnone hget⟩
  | some k =>
      obtain ⟨out, s', hbody, hQ⟩ := hsome k hget
      refine ⟨out, w.reset.update k s', ?_, hQ⟩
      rw [withMaster_some hget]
      change Option.map _ (body.run (w.reset.session k)) = _
      rw [hbody]
      rfl

/-- A block for which there is no memory is not sent. -/
theorem yields_sendBlock_enomem (write : Bytes → SessionM ArakoonRc) (block : Option Bytes) {s : Session}
    (hnone : alloc s.heap.calls = false) : Yields (sendBlock alloc write block) s fun rc _ => rc ≠ 0 := by
  refine ⟨enomem, { s with heap := (s.heap.malloc alloc).2 }, ?_, enomem_ne_zero⟩
  rw [sendBlock, bind_run, memNew_refused hnone]
  rfl

/-- A write that fails makes the sending of its block fail. -/
theorem yields_sendBlock_fails {write : Bytes → SessionM ArakoonRc} {bs : Bytes} {s : Session} {c : Conn}
    (hwrite : ∀ s, s.conn = some c → Yields (write bs) s fun rc _ => rc ≠ 0) (hc : s.conn = some c) :
    Yields (sendBlock alloc write (some bs)) s fun rc _ => rc ≠ 0 := by
  cases halloc : alloc s.heap.calls with
  | false => exact yields_sendBlock_enomem write _ halloc
  | true =>
      refine Yields.bind (P := fun id s₁ => id = some s.heap.next ∧ s₁.conn = some c)
        ⟨_, _, memNew_granted halloc, rfl, hc⟩ ?_
      intro _ s₁ hdone
      obtain ⟨rfl, hconn⟩ := hdone
      have hblock : assertAllWritten (some bs) = pure bs := rfl
      dsimp only
      rw [hblock, pure_bind]
      exact (hwrite s₁ hconn).bind fun rc s₂ hrc => ⟨rc, _, rfl, hrc⟩

/-- A write that is stopped fails. -/
theorem Dispatch.stopped {s s' : Session} {c : Conn} {bs : Bytes} {unchecked : Bool} {rc : ArakoonRc} {moved : Nat}
    {failure : Failure} (h : Dispatch s c bs 1 unchecked rc s')
    (hstopped : c.peer.writes c.writes = .stopped moved failure) : rc ≠ 0 := by
  intro hrc
  obtain ⟨c', -, wrote, -⟩ := h.sent hrc
  have hcomplete := wrote.complete 0 Nat.one_pos
  rw [Nat.add_zero, hstopped] at hcomplete
  cases hcomplete

/-- An operation does not send its request when it fails to send the block of it. -/
theorem yields_send_fails {op : Operation} {s : Session}
    (hblock : ∀ write unchecked, (∀ bs s c, s.conn = some c → Yields (write bs) s (Dispatch s c bs 1 unchecked)) →
      Yields (sendBlock alloc write op.block) s fun rc _ => rc ≠ 0) :
    Yields (Operation.send alloc op) s fun rc _ => rc ≠ 0 := by
  have hone : Yields (sendBlock alloc (if op.writesUnchecked then clusterNodeWriteBytes else writeBytes) op.block) s
      fun rc _ => rc ≠ 0 := by
    cases op.writesUnchecked with
    | true => exact hblock _ true fun bs s c => yields_clusterNodeWriteBytes bs
    | false => exact hblock _ false fun bs s c => yields_writeBytes bs
  cases op with
  | multiGet options keys =>
      refine (hblock _ false fun bs s c => yields_writeBytes bs).bind fun rc s₁ hrc => ?_
      rw [if_pos hrc]
      exact Yields.pure hrc
  | _ => exact hone

/-- A call that sends nothing returns an error. -/
theorem World.Silent.fails {op : Operation} {w : World} (h : w.Silent alloc op) (result : op.kind.Out) :
    Yields (Operation.run alloc op result) w fun out _ => out.1 ≠ 0 := by
  rw [Operation.run_eq]
  have hmissing : ArakoonReturnCode.clientNotConnected.rc ≠ 0 := by decide
  refine yields_withMaster (fun _ => hmissing) fun k hget => ?_
  have hsend : Yields (Operation.send alloc op) (w.reset.session k) fun rc _ => rc ≠ 0 := by
    refine yields_send_fails fun write unchecked hwrite => ?_
    cases h with
    | notConnected hnone =>
        rw [hget] at hnone
        cases hnone
    | noMemory _ hnone => exact yields_sendBlock_enomem write _ hnone
    | @stopped j c bs failure hget' hconn hblock hstopped =>
        obtain rfl := Option.some.inj (hget.symm.trans hget')
        rw [hblock]
        exact yields_sendBlock_fails (fun s hc => (hwrite bs s c hc).mono fun _ _ h => h.stopped hstopped) hconn
  refine hsend.bind fun rc s₁ hrc => ?_
  rw [if_pos hrc]
  exact Yields.pure hrc

/-- In what a call sends, the size that is computed is the true one, every 32-bit field holds the number of bytes or
items that follow it, and the limit keeps its meaning, if and only if the sizes and the limit fit; else the call sends
nothing. -/
theorem sizes_survive_encoding (op : Operation) (result : op.kind.Out) (w : World) :
    w.Survives alloc op result ↔ w.Silent alloc op ∨ op.Fits := by
  rw [World.Survives, Operation.exact_iff]
  refine or_congr_left ⟨fun h => h.1, fun h => ⟨h, ?_⟩⟩
  exact h.fails result

end Calls

/-- A range of at most `2 ^ 31` elements is asked for as one without a limit. -/
theorem limit_narrowed :
    let op := Operation.range none ⟨.null 0, boolFalse, .null 0, boolFalse, 2 ^ 31⟩
    ¬(World.connected sampleName (.answering [])).Survives (fun _ => true) op none ∧
      ∃ frame, op.frame = some frame ∧ int32 (ofLe32 (frame.drop 9)) = -2 ^ 31 := by
  intro op
  refine ⟨fun hsurvives => ?_, _, rfl, by decide⟩
  rcases hsurvives with ⟨hsilent, -⟩ | hexact
  · cases hsilent with
    | notConnected hget => cases hget
    | noMemory _ hnone => cases hnone
    | @stopped k c bs failure _ hconn _ hstopped =>
        obtain rfl := World.connected_conn hconn
        cases hstopped
  · have hfits := ((Operation.exact_iff op).mp hexact).fields (.limit (2 ^ 31)) (by decide)
    rcases hfits with ⟨-, hlt⟩ | ⟨hneg, -⟩
    · exact absurd hlt (by decide)
    · exact absurd hneg (by decide)

end Crakoon
