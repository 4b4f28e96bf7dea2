import Crakoon.Sequence
import Mathlib.Algebra.Order.BigOperators.Group.List
import Mathlib.Algebra.Order.Group.Nat
import Mathlib.Algebra.Ring.Nat
import Mathlib.Data.List.GetD

/-!
# The sequence request decodes to the items added

The stores of the back-to-front writer lie end to end: each one stops where the one made before it
starts. `Laid` says so, and a block whose stores are laid from `0` to its length has every byte
stored once and holds the stored strings in the order of their positions. What the writer leaves
behind one item is that item's own encoding, so the whole block is the header followed by the items
in the reverse of the order of the chain, which is the order they were added in.
-/

namespace Crakoon

open Reading

/-- One item: its type code, its key, and its value or optional value. -/
def readSequenceItem : Reader Unit UInt8 SequenceItem := do
  let type ← u32 ()
  if type = 1 then do
    let key ← lengthPrefixed ()
    let value ← lengthPrefixed ()
    pure (.set key value)
  else if type = 2 then do
    let key ← lengthPrefixed ()
    pure (.delete key)
  else if type = 8 then do
    let key ← lengthPrefixed ()
    let present ← token ()
    if present = boolFalse then
      pure (.assert key none)
    else do
      let value ← lengthPrefixed ()
      pure (.assert key (some value))
  else if type = 15 then do
    let key ← lengthPrefixed ()
    pure (.assertExists key)
  else
    fail ()

/-- A sequence request as it is found on the wire. -/
structure SequenceFrame where
  code : UInt8
  total : Nat
  count : Nat
  items : List SequenceItem
  deriving DecidableEq

/-- What follows the command: the total size, the outer sequence, the item count and the items. -/
def readSequenceBody (code : UInt8) : Reader Unit UInt8 SequenceFrame := do
  let total ← u32 ()
  let outer ← u32 ()
  let count ← u32 ()
  if outer = 5 then do
    let items ← times readSequenceItem count
    pure ⟨code, total, count, items⟩
  else
    fail ()

/-- The command, then the body. -/
def readSequence : Reader Unit UInt8 SequenceFrame := do
  let command ← take () commandLen
  match command with
  | [code, 0x00, 0xff, 0xb1] => readSequenceBody code
  | _ => fail ()

/-- The stores cover the bytes from `a` to `b`, the first from `a` on and each from the end of the
one before it. -/
def Laid : Int → List (Int × Bytes) → Int → Prop
  | a, [], b => a = b
  | a, (position, s) :: stores, b => position = a ∧ Laid (a + s.length) stores b

/-- The stored strings, in order. -/
def storedBytes (stores : List (Int × Bytes)) : Bytes := stores.flatMap Prod.snd

theorem Laid.length {a b : Int} {stores : List (Int × Bytes)} (h : Laid a stores b) :
    b = a + (storedBytes stores).length := by
  induction stores generalizing a with
  | nil => simpa [storedBytes] using h.symm
  | cons s stores ih =>
      have htail := ih h.2
      simp only [storedBytes, List.flatMap_cons, List.length_append] at htail ⊢
      omega

theorem Laid.bounds {a b : Int} {stores : List (Int × Bytes)} (h : Laid a stores b) :
    ∀ s ∈ stores, a ≤ s.1 ∧ s.1 + s.2.length ≤ b := by
  induction stores generalizing a with
  | nil => simp
  | cons s stores ih =>
      obtain ⟨hposition, htail⟩ := h
      have hend := htail.length
      intro t ht
      rcases List.mem_cons.mp ht with rfl | ht
      · omega
      · have := ih htail t ht
        omega

theorem Laid.storesAt_of_lt {a b k : Int} {stores : List (Int × Bytes)} (h : Laid a stores b) (hk : k < a) :
    storesAt stores k = [] := by
  apply List.filter_eq_nil_iff.mpr
  intro s hs
  have := h.bounds s hs
  simp only [decide_eq_true_eq]
  omega

/-- A byte in the covered range is reached by one store, which holds the byte of the stored strings
at that distance from the start. -/
theorem Laid.storesAt_eq {a b k : Int} {stores : List (Int × Bytes)} (h : Laid a stores b)
    (ha : a ≤ k) (hb : k < b) :
    ∃ s, storesAt stores k = [s] ∧
      s.2.getD (k - s.1).toNat 0 = (storedBytes stores).getD (k - a).toNat 0 := by
  induction stores generalizing a with
  | nil =>
      have : a = b := h
      omega
  | cons s stores ih =>
      obtain ⟨hposition, htail⟩ := h
      by_cases hk : k < a + s.2.length
      · refine ⟨s, ?_, ?_⟩
        · have hmine : (s.1 ≤ k ∧ k < s.1 + s.2.length) := by omega
          have hrest := htail.storesAt_of_lt hk
          simp only [storesAt] at hrest ⊢
          rw [List.filter_cons_of_pos (by simpa using hmine), hrest]
        · have hin : (k - a).toNat < s.2.length := by omega
          rw [hposition, storedBytes, List.flatMap_cons, List.getD_append _ _ _ _ hin]
      · obtain ⟨t, hat, hbyte⟩ := ih htail (by omega)
        refine ⟨t, ?_, ?_⟩
        · have hmine : ¬(s.1 ≤ k ∧ k < s.1 + s.2.length) := by omega
          simp only [storesAt] at hat ⊢
          rw [List.filter_cons_of_neg (by simpa using hmine), hat]
        · have hout : s.2.length ≤ (k - a).toNat := by omega
          have hindex : (k - a).toNat - s.2.length = (k - (a + s.2.length)).toNat := by omega
          rw [hbyte, storedBytes, storedBytes, List.flatMap_cons, List.getD_append_right _ _ _ _ hout, hindex]

theorem bytes_of_laid {block : SequenceBlock} (fresh : Nat → UInt8) (h : Laid 0 block.stores block.len) :
    block.bytes fresh = storedBytes block.stores := by
  have hlen := h.length
  apply List.ext_getElem
  · simp only [SequenceBlock.bytes, List.length_map, List.length_range]
    omega
  · intro k hk hk'
    obtain ⟨s, hat, hbyte⟩ := h.storesAt_eq (k := k) (by omega) (by omega)
    simp only [SequenceBlock.bytes, List.getElem_map, List.getElem_range, byteAt, hat]
    rw [hbyte, Int.sub_zero, Int.toNat_natCast, List.getD_eq_getElem _ _ hk']

/-- The encoding of one item, front to back. -/
def sequenceItemBytes : SequenceItem → Bytes
  | .set key value => le32 1 ++ (writeString key ++ writeString value)
  | .delete key => le32 2 ++ writeString key
  | .assert key none => le32 8 ++ (writeString key ++ [boolFalse])
  | .assert key (some value) => le32 8 ++ (writeString key ++ ([boolTrue] ++ writeString value))
  | .assertExists key => le32 15 ++ writeString key

theorem sequenceItemBytes_length (item : SequenceItem) :
    (sequenceItemBytes item).length = sequenceItemLen item := by
  cases item with
  | assert key value =>
      cases value <;> simp [sequenceItemBytes, sequenceItemLen, uint32Len, boolLen] <;> omega
  | _ => simp [sequenceItemBytes, sequenceItemLen, uint32Len, Nat.add_assoc]

namespace BackWriter

variable {w : BackWriter} {len : Int}

/-- The stores reach from the index to the end of the block. -/
def Covers (w : BackWriter) (len : Int) : Prop := Laid w.i w.stores len

theorem Covers.store (h : w.Covers len) (s : Bytes) : (w.store s).Covers len :=
  ⟨rfl, by simpa [BackWriter.store, Covers] using h⟩

theorem store_bytes (w : BackWriter) (s : Bytes) : storedBytes (w.store s).stores = s ++ storedBytes w.stores := rfl

theorem Covers.writeString (h : w.Covers len) (s : Bytes) : (w.writeString s).Covers len := (h.store s).store _

theorem writeString_bytes (w : BackWriter) (s : Bytes) :
    storedBytes (w.writeString s).stores = Crakoon.writeString s ++ storedBytes w.stores := by
  simp only [writeString, writeUInt32, store_bytes, Crakoon.writeString, Crakoon.writeUInt32, List.append_assoc]

theorem Covers.writeItem (h : w.Covers len) (item : SequenceItem) : (w.writeItem item).Covers len := by
  cases item with
  | set key value => exact ((h.writeString value).writeString key).store _
  | delete key => exact (h.writeString key).store _
  | assert key value =>
      cases value with
      | none => exact ((h.store _).writeString key).store _
      | some value => exact (((h.writeString value).store _).writeString key).store _
  | assertExists key => exact (h.writeString key).store _

theorem writeItem_bytes (w : BackWriter) (item : SequenceItem) :
    storedBytes (w.writeItem item).stores = sequenceItemBytes item ++ storedBytes w.stores := by
  cases item with
  | assert key value =>
      cases value <;>
        simp only [writeItem, writeStringOption, writeUInt32, store_bytes, writeString_bytes,
          sequenceItemBytes, List.append_assoc]
  | _ => simp only [writeItem, writeUInt32, store_bytes, writeString_bytes, sequenceItemBytes, List.append_assoc]

end BackWriter

theorem sequenceWriteItems_spec (items : List SequenceItem) (count : Nat) (w : BackWriter) {len : Int}
    (h : w.Covers len) (hcount : count + items.length < 2 ^ 32) :
    let out := items.foldl (fun (count, w) item => ((count + 1) % 2 ^ 32, w.writeItem item)) (count, w)
    out.1 = count + items.length ∧ out.2.Covers len ∧
      storedBytes out.2.stores = items.reverse.flatMap sequenceItemBytes ++ storedBytes w.stores := by
  induction items generalizing count w with
  | nil => exact ⟨rfl, h, rfl⟩
  | cons item items ih =>
      simp only [List.length_cons] at hcount
      have hstep : (count + 1) % 2 ^ 32 = count + 1 := Nat.mod_eq_of_lt (by omega)
      simp only [List.foldl_cons, hstep]
      obtain ⟨hcounted, hcovers, hbytes⟩ := ih (count + 1) _ (h.writeItem item) (by omega)
      refine ⟨by rw [hcounted, List.length_cons]; omega, hcovers, ?_⟩
      rw [hbytes, BackWriter.writeItem_bytes, List.reverse_cons, List.flatMap_append, List.append_assoc,
        List.flatMap_singleton]

/-- The second loop keeps the stores end to end, whatever it counts. -/
theorem sequenceWriteItems_covers (items : List SequenceItem) (count : Nat) {w : BackWriter} {len : Int}
    (h : w.Covers len) :
    (items.foldl (fun (count, w) item => ((count + 1) % 2 ^ 32, BackWriter.writeItem w item)) (count, w)).2.Covers
      len := by
  induction items generalizing count w with
  | nil => exact h
  | cons item items ih => exact ih _ (h.writeItem item)

/-! ### The requests of a sequence -/

/-- The length of a sequence request, as an exact sum. -/
def sequenceTotal (items : List SequenceItem) : Nat := sequenceHeaderLen + (items.map sequenceItemLen).sum

theorem sequenceLen_eq {items : List SequenceItem} (h : sequenceTotal items < 2 ^ 64) :
    sequenceLen items = sequenceTotal items := by
  suffices hloop : ∀ (items : List SequenceItem) (len : Nat), len + (items.map sequenceItemLen).sum < 2 ^ 64 →
      items.foldl (fun len item => sizeT (len + sequenceItemLen item)) len =
        len + (items.map sequenceItemLen).sum from
    hloop items sequenceHeaderLen h
  intro items
  induction items with
  | nil => intro len _; rfl
  | cons item items ih =>
      intro len hlen
      simp only [List.map_cons, List.sum_cons] at hlen
      rw [List.foldl_cons, sizeT_of_lt (by omega), ih _ (by omega), List.map_cons, List.sum_cons, Nat.add_assoc]

theorem length_flatMap_itemBytes (items : List SequenceItem) :
    (items.flatMap sequenceItemBytes).length = (items.map sequenceItemLen).sum := by
  simp only [List.length_flatMap, sequenceItemBytes_length]

theorem length_le_sum_itemLen (items : List SequenceItem) : items.length ≤ (items.map sequenceItemLen).sum := by
  induction items with
  | nil => simp
  | cons item items ih =>
      have hpos : 1 ≤ sequenceItemLen item := by
        cases item <;> simp only [sequenceItemLen, uint32Len] <;> omega
      simp only [List.length_cons, List.map_cons, List.sum_cons]
      omega

/-- Every item is counted in the total. -/
theorem length_le_sequenceTotal (items : List SequenceItem) : sequenceHeaderLen + items.length ≤ sequenceTotal items :=
  Nat.add_le_add_left (length_le_sum_itemLen items) _

theorem sequenceBuild_items {adds : List SequenceAdd} (h : ∀ add ∈ adds, add.Admissible) :
    sequenceBuild adds = some ⟨(adds.map SequenceAdd.item).reverse⟩ := by
  suffices hrun : ∀ (adds : List SequenceAdd) (sequence : Sequence), (∀ add ∈ adds, add.Admissible) →
      adds.foldlM SequenceAdd.run sequence = some ⟨(adds.map SequenceAdd.item).reverse ++ sequence.items⟩ by
    rw [sequenceBuild, hrun adds _ h, sequenceNew, List.append_nil]
  intro adds
  induction adds with
  | nil => intro sequence _; rfl
  | cons add adds ih =>
      intro sequence h
      have hadd : add.run sequence = some ⟨add.item :: sequence.items⟩ := by
        cases add with
        | assert key value =>
            cases value with
            | null size =>
                have hsize : size = 0 := h _ List.mem_cons_self
                simp [SequenceAdd.run, sequenceAddAssert, SequenceAdd.item, StringOption.value, hsize]
            | data value => rfl
        | _ => rfl
      rw [List.foldlM_cons, hadd]
      change adds.foldlM SequenceAdd.run _ = _
      rw [ih _ fun x hx => h x (List.mem_cons_of_mem _ hx)]
      simp

/-- The bytes of a sequence request, front to back. -/
def sequenceBytes (code : UInt8) (items : List SequenceItem) : Bytes :=
  writeCommand code 0x00 ++ (le32 (sequenceTotal items - uint32Len - commandLen) ++
    (le32 5 ++ (le32 items.length ++ items.flatMap sequenceItemBytes)))

theorem sequenceTotal_reverse (items : List SequenceItem) : sequenceTotal items.reverse = sequenceTotal items := by
  rw [sequenceTotal, sequenceTotal, List.map_reverse, List.sum_reverse]

/-- Both checks of the index pass, and the stores fill the block end to end with the request. -/
theorem sequenceImpl_spec (code : UInt8) {items : List SequenceItem} (h : sequenceTotal items < 2 ^ 64)
    (hitems : items.length < 2 ^ 32) :
    ∃ block, sequenceImpl code ⟨items.reverse⟩ = some block ∧ block.len = sequenceTotal items ∧
      Laid 0 block.stores block.len ∧ storedBytes block.stores = sequenceBytes code items := by
  have hlen : sequenceLen items.reverse = sequenceTotal items := by
    rw [sequenceLen_eq (by rwa [sequenceTotal_reverse]), sequenceTotal_reverse]
  have hcount : 0 + items.reverse.length < 2 ^ 32 := by
    rw [List.length_reverse, Nat.zero_add]
    exact hitems
  have hempty : BackWriter.Covers ⟨(sequenceTotal items : Int), []⟩ (sequenceTotal items : Int) := rfl
  obtain ⟨hcounted, hcovers, hbytes⟩ := sequenceWriteItems_spec items.reverse 0
    ⟨(sequenceTotal items : Int), []⟩ hempty hcount
  generalize hout : items.reverse.foldl
    (fun (x : Nat × BackWriter) item => ((x.1 + 1) % 2 ^ 32, x.2.writeItem item))
    (0, ⟨(sequenceTotal items : Int), []⟩) = out at hcounted hcovers hbytes
  obtain ⟨count, w⟩ := out
  simp only [List.length_reverse, Nat.zero_add, List.reverse_reverse] at hcounted hbytes
  have hi : w.i = (sequenceHeaderLen : Int) := by
    have hend := hcovers.length
    rw [hbytes] at hend
    simp only [List.length_append, length_flatMap_itemBytes, storedBytes, List.flatMap_nil, List.length_nil,
      sequenceTotal] at hend
    push_cast at hend
    omega
  have hsize : sizeT (sequenceTotal items + 2 ^ 64 - uint32Len - commandLen) =
      sequenceTotal items - uint32Len - commandLen := by
    have hheader : sequenceHeaderLen ≤ sequenceTotal items := Nat.le_add_right _ _
    simp only [sizeT, sequenceHeaderLen, uint32Len, commandLen] at hheader ⊢
    omega
  have hthree := ((hcovers.store (le32 count)).store (le32 5)).store
    (le32 (sequenceTotal items - uint32Len - commandLen))
  refine ⟨⟨sequenceTotal items, (0, writeCommand code 0x00) ::
    (((w.writeUInt32 count).writeUInt32 5).writeUInt32
      (sequenceTotal items - uint32Len - commandLen)).stores⟩, ?_, rfl, ?_, ?_⟩
  · simp only [sequenceImpl, sequenceWriteItems, hlen, hout, hsize]
    rw [if_neg (by simpa using hi), if_neg]
    simp [BackWriter.writeUInt32, BackWriter.store, hi, sequenceHeaderLen, uint32Len, commandLen]
  · refine ⟨rfl, ?_⟩
    have hfour : (((w.writeUInt32 count).writeUInt32 5).writeUInt32
        (sequenceTotal items - uint32Len - commandLen)).i = 0 + ((writeCommand code 0x00).length : Int) := by
      simp [BackWriter.writeUInt32, BackWriter.store, hi, sequenceHeaderLen, uint32Len, commandLen]
    exact hfour ▸ hthree
  · simp only [storedBytes, List.flatMap_cons, BackWriter.writeUInt32, BackWriter.store] at hbytes ⊢
    rw [hbytes, hcounted, sequenceBytes, List.flatMap_nil, List.append_nil]

/-- A block that passes both checks is filled, and starts with its command. -/
theorem sequenceImpl_bytes {code : UInt8} {sequence : Sequence} {block : SequenceBlock}
    (h : sequenceImpl code sequence = some block) (fresh : Nat → UInt8) :
    ∃ rest, block.bytes fresh = writeCommand code 0x00 ++ rest := by
  have hempty : BackWriter.Covers ⟨(sequenceLen sequence.items : Int), []⟩ (sequenceLen sequence.items : Int) := rfl
  have hcovers := sequenceWriteItems_covers sequence.items 0 hempty
  generalize hout : sequence.items.foldl
    (fun (x : Nat × BackWriter) item => ((x.1 + 1) % 2 ^ 32, x.2.writeItem item))
    (0, ⟨(sequenceLen sequence.items : Int), []⟩) = out at hcovers
  obtain ⟨count, w⟩ := out
  simp only [sequenceImpl, sequenceWriteItems, hout] at h
  split_ifs at h with hitems hheader
  obtain rfl := Option.some.inj h
  have hlaid : Laid 0 ((0, writeCommand code 0x00) :: (((w.writeUInt32 count).writeUInt32 5).writeUInt32
      (sizeT (sequenceLen sequence.items + 2 ^ 64 - uint32Len - commandLen))).stores) (sequenceLen sequence.items) := by
    refine ⟨rfl, ?_⟩
    have hend := ((hcovers.store (le32 count)).store (le32 5)).store
      (le32 (sizeT (sequenceLen sequence.items + 2 ^ 64 - uint32Len - commandLen)))
    have hstart := not_ne_iff.mp hheader
    have hzero : (0 : Int) + ((writeCommand code 0x00).length : Int) = (commandLen : Int) := by
      rw [writeCommand_length, Int.zero_add]
    rw [hzero, ← hstart]
    exact hend
  rw [bytes_of_laid fresh hlaid]
  exact ⟨_, rfl⟩

theorem parses_sequenceItem {item : SequenceItem} (h : sequenceItemLen item < 2 ^ 32) :
    Parses readSequenceItem (sequenceItemBytes item) item := by
  cases item with
  | set key value =>
      simp only [sequenceItemLen, stringLen] at h
      exact (parses_u32 () (by decide)).bind
        ((parses_lengthPrefixed () (by omega)).bind ((parses_lengthPrefixed () (by omega)).map _))
  | delete key =>
      simp only [sequenceItemLen, stringLen] at h
      exact (parses_u32 () (by decide)).bind ((parses_lengthPrefixed () (by omega)).map _)
  | assert key value =>
      cases value with
      | none =>
          simp only [sequenceItemLen, stringLen] at h
          exact (parses_u32 () (by decide)).bind
            ((parses_lengthPrefixed () (by omega)).bind ((Parses.token () boolFalse).bind (Parses.pure _)))
      | some value =>
          simp only [sequenceItemLen, stringLen, Option.elim] at h
          exact (parses_u32 () (by decide)).bind ((parses_lengthPrefixed () (by omega)).bind
            ((Parses.token () boolTrue).bind ((parses_lengthPrefixed () (by omega)).map _)))
  | assertExists key =>
      simp only [sequenceItemLen, stringLen] at h
      exact (parses_u32 () (by decide)).bind ((parses_lengthPrefixed () (by omega)).map _)

theorem sequenceItemLen_le_total {items : List SequenceItem} {item : SequenceItem} (h : item ∈ items) :
    sequenceItemLen item ≤ sequenceTotal items :=
  (List.le_sum_of_mem (List.mem_map_of_mem h)).trans (Nat.le_add_left _ _)

theorem parses_sequenceBody (code : UInt8) {items : List SequenceItem} (h : sequenceTotal items < 2 ^ 32) :
    Parses (readSequenceBody code)
      (le32 (sequenceTotal items - uint32Len - commandLen) ++
        (le32 5 ++ (le32 items.length ++ items.flatMap sequenceItemBytes)))
      ⟨code, sequenceTotal items - uint32Len - commandLen, items.length, items⟩ := by
  have hcount : items.length < 2 ^ 32 := by
    have := length_le_sequenceTotal items
    omega
  have hitems : Parses (times readSequenceItem items.length) (items.flatMap sequenceItemBytes) items :=
    Parses.times fun item hitem => parses_sequenceItem (by have := sequenceItemLen_le_total hitem; omega)
  exact (parses_u32 () (by omega)).bind ((parses_u32 () (by decide)).bind
    ((parses_u32 () hcount).bind (hitems.map _)))

theorem parses_sequence (code : UInt8) {items : List SequenceItem} (h : sequenceTotal items < 2 ^ 32) :
    Parses readSequence (sequenceBytes code items)
      ⟨code, sequenceTotal items - uint32Len - commandLen, items.length, items⟩ :=
  (Parses.take () (writeCommand_length code 0x00)).bind (parses_sequenceBody code h)

/-- A sequence of admissible calls whose request is shorter than `2 ^ 32` bytes is sent as a block
that the back-to-front writer fills without moving its index below zero, storing each byte once, and
that decodes, whatever follows it, to the items in the order they were added. -/
theorem sequence_round_trip (code : UInt8) (adds : List SequenceAdd) (hadds : ∀ add ∈ adds, add.Admissible)
    (hlen : sequenceTotal (adds.map SequenceAdd.item) < 2 ^ 32) :
    ∃ sequence block, sequenceBuild adds = some sequence ∧ sequenceImpl code sequence = some block ∧
      (∀ s ∈ block.stores, 0 ≤ s.1 ∧ s.1 + s.2.length ≤ block.len) ∧
      (∀ k : Nat, k < block.len → (storesAt block.stores k).length = 1) ∧
      ∀ fresh rest, readSequence.run (block.bytes fresh ++ rest) =
        .ok (⟨code, block.len - commandLen - uint32Len, adds.length, adds.map SequenceAdd.item⟩, rest) := by
  have hcount := length_le_sequenceTotal (adds.map SequenceAdd.item)
  have htotal : sequenceTotal (adds.map SequenceAdd.item) < 2 ^ 64 := by omega
  have hitems : (adds.map SequenceAdd.item).length < 2 ^ 32 := by omega
  obtain ⟨block, himpl, hblock, hlaid, hbytes⟩ := sequenceImpl_spec code htotal hitems
  refine ⟨_, block, sequenceBuild_items hadds, himpl, hlaid.bounds, ?_, ?_⟩
  · intro k hk
    obtain ⟨s, hat, -⟩ := hlaid.storesAt_eq (k := k) (by omega) (by omega)
    rw [hat, List.length_singleton]
  · intro fresh rest
    rw [bytes_of_laid fresh hlaid, hbytes, parses_sequence code hlen rest, List.length_map, hblock,
      Nat.sub_right_comm]

/-- A run through every kind of item, with an empty value and an assertion of `None`. -/
theorem sequence_round_trip_every_item :
    ∃ sequence block, sequenceBuild
        [.set [102, 111, 111] [], .delete [1], .assert [7] (.null 0), .assert [7] (.data [9]), .assertExists []] =
          some sequence ∧ sequenceImpl 0x10 sequence = some block ∧
      (∀ s ∈ block.stores, 0 ≤ s.1 ∧ s.1 + s.2.length ≤ block.len) ∧
      (∀ k : Nat, k < block.len → (storesAt block.stores k).length = 1) ∧
      ∀ fresh rest, readSequence.run (block.bytes fresh ++ rest) =
        .ok (⟨0x10, block.len - commandLen - uint32Len, 5,
          [.set [102, 111, 111] [], .delete [1], .assert [7] none, .assert [7] (some [9]), .assertExists []]⟩,
          rest) :=
  sequence_round_trip 0x10
    [.set [102, 111, 111] [], .delete [1], .assert [7] (.null 0), .assert [7] (.data [9]), .assertExists []]
    (by simp [SequenceAdd.Admissible]) (by decide)

end Crakoon
