import Crakoon.Decode
import Crakoon.Operation

/-!
# Decoding results

`Decodes` is what a decoder owes to the kind of reply it is for: the result variables hold the payload of a
reply that arrives, and no list and no block is left behind by one that does not. Every operation has the
decoder of its kind (`decodes_operation`).
-/

namespace Crakoon

open Programs Reading

/-- A text as it is handed out. -/
def terminated (text : Bytes) : Bytes := text ++ [0]

/-- The result variables hold the payload. A list holds it from its end to its beginning. -/
def ReplyKind.Decoded : (kind : ReplyKind) → kind.Payload → kind.Out → Prop
  | .nothing, _, _ => True
  | .bool, b, out => out = boolOf b
  | .string, s, out => Data.value out = some s
  | .text, s, out => Data.value out = some (terminated s)
  | .stringOption, o, out => Data.value out = o
  | .uint32, n, out => out = n
  | .version, v, out => VersionInfo.major out = v.major ∧ VersionInfo.minor out = v.minor ∧
      VersionInfo.patch out = v.patch ∧ (VersionInfo.info out).value = some (terminated v.info)
  | .list, ss, out => ∃ list, out = some list ∧ ValueList.contents list = (List.map some ss).reverse
  | .pairs, ps, out => ∃ list, out = some list ∧ KeyValueList.contents list = (List.map pairContents ps).reverse

/-- No list is handed out. -/
def ReplyKind.Cleared : (kind : ReplyKind) → kind.Out → Prop
  | .list, out => out = none
  | .pairs, out => out = none
  | _, _ => True

/-- The decoder reads the payloads of its kind, and clears up behind it when the stream runs out. -/
def Decodes (kind : ReplyKind) (m : SessionM (ArakoonRc × kind.Out)) : Prop :=
  ∀ s, Follows m (readPayload kind) s
    (fun p out s' => out.1 = 0 ∧ kind.Decoded p out.2 ∧ s'.lastError = s.lastError)
    (fun out s' => out.1 ≠ 0 ∧ kind.Cleared out.2 ∧ s.Gains s' 0)

theorem decodes_nothing : Decodes .nothing decodeNothing :=
  fun _ => Follows.pure (a := ()) ⟨rfl, trivial, rfl⟩

theorem decodes_bool : Decodes .bool decodeBool := by
  intro s
  have hreader : readPayload .bool = wireBool >>= pure := (bind_pure _).symm
  rw [hreader]
  refine (follows_readBool s).bind ?_ ?_
  · intro b _ s₁ hdone
    obtain ⟨rfl, hgains⟩ := hdone
    exact Follows.pure ⟨rfl, rfl, hgains.lastError⟩
  · intro out s₁ hnone hcut
    obtain ⟨hrc, hgains⟩ := hcut
    exact Yields.pure ⟨hnone, hrc, trivial, hgains⟩

theorem decodes_uint32 (result : Nat) : Decodes .uint32 (decodeUInt32 result) := by
  intro s
  have hreader : readPayload .uint32 = u32 () >>= pure := (bind_pure _).symm
  rw [hreader]
  refine (follows_readUInt32 result s).bind ?_ ?_
  · intro n _ s₁ hdone
    obtain ⟨rfl, -, hgains⟩ := hdone
    exact Follows.pure ⟨rfl, rfl, hgains.lastError⟩
  · intro out s₁ hnone hcut
    obtain ⟨n, rc⟩ := out
    obtain ⟨-, hrc, hgains⟩ := hcut
    dsimp only at hrc ⊢
    rw [if_pos hrc]
    exact Yields.pure ⟨hnone, hrc, trivial, hgains⟩

section Results

variable {alloc : Nat → Bool} (halloc : ∀ n, alloc n = true)
include halloc

theorem decodes_string (result : Data) : Decodes .string (decodeString alloc result) := by
  intro s
  have hreader : readPayload .string = wireString >>= pure := (bind_pure _).symm
  rw [hreader]
  refine (follows_readString halloc result 0 s).bind ?_ ?_
  · intro bytes out s₁ hdone
    obtain ⟨d, rc⟩ := out
    obtain ⟨hvalue, -, hrc, hgains⟩ := hdone
    obtain rfl : rc = 0 := hrc rfl
    exact Follows.pure ⟨rfl, hvalue, hgains.lastError⟩
  · intro out s₁ hnone hcut
    obtain ⟨d, rc⟩ := out
    obtain ⟨hrc, hgains⟩ := hcut
    dsimp only at hrc ⊢
    rw [if_pos hrc]
    exact Yields.pure ⟨hnone, hrc, trivial, hgains⟩

theorem decodes_stringOption (result : Data) : Decodes .stringOption (decodeStringOption alloc result) := by
  intro s
  have hreader : readPayload .stringOption = wireStringOption >>= pure := (bind_pure _).symm
  rw [hreader]
  refine (follows_readStringOption halloc result s).bind ?_ ?_
  · intro o out s₁ hdone
    obtain ⟨d, rc⟩ := out
    obtain ⟨hvalue, hrc, hgains⟩ := hdone
    dsimp only at hvalue hrc ⊢
    rw [if_neg (not_ne_iff.mpr hrc)]
    exact Follows.pure ⟨hrc, hvalue, hgains.lastError⟩
  · intro out s₁ hnone hcut
    obtain ⟨d, rc⟩ := out
    obtain ⟨hrc, hgains⟩ := hcut
    dsimp only at hrc ⊢
    rw [if_pos hrc]
    exact Yields.pure ⟨hnone, hrc, trivial, hgains⟩

/-- `arakoon_user_function` keeps what the macro leaves. -/
theorem decodes_userFunction : Decodes .stringOption (do
    let (result, rc) ← readStringOption alloc .null 0
    pure (rc, result)) := by
  intro s
  have hreader : readPayload .stringOption = wireStringOption >>= pure := (bind_pure _).symm
  rw [hreader]
  refine (follows_readStringOption halloc .null s).bind ?_ ?_
  · intro o out s₁ hdone
    obtain ⟨hvalue, hrc, hgains⟩ := hdone
    exact Follows.pure ⟨hrc, hvalue, hgains.lastError⟩
  · intro out s₁ hnone hcut
    obtain ⟨hrc, hgains⟩ := hcut
    exact Yields.pure ⟨hnone, hrc, trivial, hgains⟩

/-- A string gets its terminator in a block of its own. -/
theorem yields_utilsMakeString {d : Data} {bytes : Bytes} (hd : d.value = some bytes) (s : Session) :
    Yields (utilsMakeString alloc d) s fun out s' => s'.conn = s.conn ∧
      s'.lastError = s.lastError ∧ ∃ id, out = .block id (terminated bytes) := by
  have hrealloc : (memRealloc alloc d.ptr).run s =
      some (some s.heap.next, { s with heap := (s.heap.realloc alloc d.ptr).2 }) := by
    simp [memRealloc, StateT.run, Heap.realloc, halloc]
  refine Yields.bind (P := fun out s' => s'.conn = s.conn ∧ s'.lastError = s.lastError ∧ ∃ id, out = some id)
    ⟨_, _, hrealloc, rfl, rfl, _, rfl⟩ ?_
  intro _ s₁ hdone
  obtain ⟨hconn, hlast, id, rfl⟩ := hdone
  rw [hd]
  exact Yields.pure ⟨hconn, hlast, id, rfl⟩

theorem decodes_text : Decodes .text (decodeText alloc) := by
  intro s
  have hreader : readPayload .text = wireString >>= pure := (bind_pure _).symm
  rw [hreader]
  refine (follows_readString halloc .null 0 s).bind ?_ ?_
  · intro bytes out s₁ hdone
    obtain ⟨d, rc⟩ := out
    obtain ⟨hvalue, -, hrc, hgains⟩ := hdone
    obtain rfl : rc = 0 := hrc rfl
    dsimp only
    rw [if_neg (not_ne_iff.mpr rfl)]
    apply Follows.after (yields_utilsMakeString halloc hvalue s₁)
    intro _ s₂ hdone
    obtain ⟨hlast, id, rfl⟩ := hdone
    exact Follows.pure ⟨rfl, rfl, hlast.trans hgains.lastError⟩
  · intro out s₁ hnone hcut
    obtain ⟨d, rc⟩ := out
    obtain ⟨hrc, hgains⟩ := hcut
    dsimp only at hrc ⊢
    rw [if_pos hrc]
    exact Yields.pure ⟨hnone, hrc, trivial, hgains⟩

theorem decodes_version (result : VersionInfo) : Decodes .version (decodeVersion alloc result) := by
  intro s
  refine (follows_readInt32 result.major s).bind ?_ ?_
  · intro major _ s₁ hdone
    obtain ⟨rfl, hgains₁⟩ := hdone
    dsimp only
    rw [if_neg (not_ne_iff.mpr rfl)]
    refine (follows_readInt32 result.minor s₁).bind ?_ ?_
    · intro minor _ s₂ hdone
      obtain ⟨rfl, hgains₂⟩ := hdone
      dsimp only
      rw [if_neg (not_ne_iff.mpr rfl)]
      refine (follows_readInt32 result.patch s₂).bind ?_ ?_
      · intro patch _ s₃ hdone
        obtain ⟨rfl, hgains₃⟩ := hdone
        dsimp only
        rw [if_neg (not_ne_iff.mpr rfl)]
        have hgains := (hgains₁.trans hgains₂).trans hgains₃
        refine (follows_readString halloc .null 0 s₃).bind ?_ ?_
        · intro info out s₄ hdone
          obtain ⟨d, rc⟩ := out
          obtain ⟨hvalue, -, hrc, hgains₄⟩ := hdone
          obtain rfl : rc = 0 := hrc rfl
          dsimp only
          rw [if_neg (not_ne_iff.mpr rfl)]
          apply Follows.after (yields_utilsMakeString halloc hvalue s₄)
          intro _ s₅ hdone
          obtain ⟨hlast, id, rfl⟩ := hdone
          exact Follows.pure ⟨rfl, ⟨rfl, rfl, rfl, rfl⟩, hlast.trans (hgains₄.lastError.trans hgains.lastError)⟩
        · intro out s₄ hnone hcut
          obtain ⟨d, rc⟩ := out
          obtain ⟨hrc, hgains₄⟩ := hcut
          dsimp only at hrc ⊢
          rw [if_pos hrc]
          exact Yields.pure ⟨hnone, hrc, trivial, (hgains.trans hgains₄).congr (by abel)⟩
      · intro out s₃ hnone hcut
        obtain ⟨patch, rc⟩ := out
        obtain ⟨-, hrc, hgains₃⟩ := hcut
        dsimp only at hrc ⊢
        rw [if_pos hrc]
        exact Yields.pure ⟨hnone, hrc, trivial, ((hgains₁.trans hgains₂).trans hgains₃).congr (by abel)⟩
    · intro out s₂ hnone hcut
      obtain ⟨minor, rc⟩ := out
      obtain ⟨-, hrc, hgains₂⟩ := hcut
      dsimp only at hrc ⊢
      rw [if_pos hrc]
      exact Yields.pure ⟨hnone, hrc, trivial, (hgains₁.trans hgains₂).congr (by abel)⟩
  · intro out s₁ hnone hcut
    obtain ⟨major, rc⟩ := out
    obtain ⟨-, hrc, hgains₁⟩ := hcut
    dsimp only at hrc ⊢
    rw [if_pos hrc]
    exact Yields.pure ⟨hnone, hrc, trivial, hgains₁⟩

theorem decodes_list : Decodes .list (decodeList alloc) := by
  intro s
  have hreader : readPayload .list = wireList wireString >>= pure := (bind_pure _).symm
  have hnew : valueListNew alloc = memNew alloc >>= fun id => pure (id.map fun id => ⟨id, []⟩) := by
    rw [valueListNew]
    congr
    funext id
    cases id <;> rfl
  rw [hreader, decodeList, hnew, bind_assoc]
  apply Follows.after (yields_memNew halloc s)
  intro _ s₁ hdone
  obtain ⟨id, rfl, hgains₁⟩ := hdone
  rw [pure_bind]
  have htight : (⟨id, []⟩ : ValueList).Tight := fun _ h => by cases h
  have hempty : (⟨id, []⟩ : ValueList).net = Ptr.one (.block id) := by simp [ValueList.net]
  refine (follows_readStringList halloc htight s₁).bind ?_ ?_
  · intro ss out s₂ hdone
    obtain ⟨list, rc⟩ := out
    obtain ⟨hrc, hcontents, -, hgains₂⟩ := hdone
    dsimp only at hrc hcontents hgains₂ ⊢
    rw [if_neg (not_ne_iff.mpr hrc)]
    refine Follows.pure ⟨hrc, ⟨list, rfl, ?_⟩, hgains₂.lastError.trans hgains₁.lastError⟩
    rw [hcontents, ValueList.contents, List.map_nil, List.append_nil, List.map_reverse]
  · intro out s₂ hnone hcut
    obtain ⟨list, rc⟩ := out
    obtain ⟨hrc, hlist, hgains₂⟩ := hcut
    dsimp only at hrc hlist hgains₂ ⊢
    rw [if_pos hrc]
    refine (yields_valueListFree hlist s₂).bind fun _ s₃ h₃ => Yields.pure ⟨h₃.1.trans hnone, hrc, rfl, ?_⟩
    apply ((hgains₁.trans hgains₂).trans h₃.2).congr
    rw [hempty]
    abel

theorem decodes_pairs : Decodes .pairs (decodePairs alloc) := by
  intro s
  have hreader : readPayload .pairs = wireList wirePair >>= pure := (bind_pure _).symm
  have hnew : keyValueListNew alloc = memNew alloc >>= fun id => pure (id.map fun id => ⟨id, []⟩) := by
    rw [keyValueListNew]
    congr
    funext id
    cases id <;> rfl
  rw [hreader, decodePairs, hnew, bind_assoc]
  apply Follows.after (yields_memNew halloc s)
  intro _ s₁ hdone
  obtain ⟨id, rfl, hgains₁⟩ := hdone
  rw [pure_bind]
  have htight : (⟨id, []⟩ : KeyValueList).Tight := fun _ h => by cases h
  have hempty : (⟨id, []⟩ : KeyValueList).net = Ptr.one (.block id) := by simp [KeyValueList.net]
  refine (follows_readStringStringList halloc htight s₁).bind ?_ ?_
  · intro ps out s₂ hdone
    obtain ⟨list, rc⟩ := out
    obtain ⟨hrc, hcontents, -, hgains₂⟩ := hdone
    dsimp only at hrc hcontents hgains₂ ⊢
    rw [if_neg (not_ne_iff.mpr hrc)]
    refine Follows.pure ⟨hrc, ⟨list, rfl, ?_⟩, hgains₂.lastError.trans hgains₁.lastError⟩
    rw [hcontents, KeyValueList.contents, List.map_nil, List.append_nil, List.map_reverse]
  · intro out s₂ hnone hcut
    obtain ⟨list, rc⟩ := out
    obtain ⟨hrc, hlist, hgains₂⟩ := hcut
    dsimp only at hrc hlist hgains₂ ⊢
    rw [if_pos hrc]
    refine (yields_keyValueListFree hlist s₂).bind fun _ s₃ h₃ => Yields.pure ⟨h₃.1.trans hnone, hrc, rfl, ?_⟩
    apply ((hgains₁.trans hgains₂).trans h₃.2).congr
    rw [hempty]
    abel

/-- Every operation has the decoder of its kind. -/
theorem decodes_operation (op : Operation) (result : op.kind.Out) :
    Decodes op.kind (Operation.decode alloc op result) := by
  cases op with
  | hello clientId clusterId => exact decodes_text halloc
  | expectProgressPossible => exact decodes_bool
  | «exists» options key => exact decodes_bool
  | get options key => exact decodes_string halloc result
  | multiGet options keys => exact decodes_list halloc
  | range options bounds => exact decodes_list halloc
  | keyPrefix options beginKey maxElements => exact decodes_list halloc
  | rangeEntries options bounds => exact decodes_pairs halloc
  | revRangeEntries options bounds => exact decodes_pairs halloc
  | testAndSet key oldValue newValue => exact decodes_stringOption halloc result
  | deletePrefix start => exact decodes_uint32 result
  | version => exact decodes_version halloc result
  | userFunction name arg => exact decodes_userFunction halloc
  | set key value => exact decodes_nothing
  | delete key => exact decodes_nothing
  | sequence items => exact decodes_nothing
  | syncedSequence items => exact decodes_nothing
  | assert options key value => exact decodes_nothing
  | assertExists options key => exact decodes_nothing

end Results

end Crakoon
