import Crakoon.Protocol

/-!
# The fields of the wire format

The reference readers of the fields that requests and replies are made of, and the words they read.
-/

namespace Crakoon

open Reading

/-- A string whose length fits its 32-bit field. -/
def Short (s : Bytes) : Prop := s.length < 2 ^ 32

instance (s : Bytes) : Decidable (Short s) := inferInstanceAs (Decidable (_ < _))

def StringOption.Short (s : StringOption) : Prop := ∀ value, s = .data value → Crakoon.Short value

/-- A number that an `int32_t` holds. -/
def FitsInt32 (n : Int) : Prop := -2 ^ 31 ≤ n ∧ n < 2 ^ 31

instance (n : Int) : Decidable (FitsInt32 n) := inferInstanceAs (Decidable (_ ∧ _))

/-- The truth value of a byte: anything but `0` is true. -/
def ArakoonBool.truth (b : ArakoonBool) : Bool := b ≠ boolFalse

def wireString : Reader Unit UInt8 Bytes := lengthPrefixed ()

def wireBool : Reader Unit UInt8 Bool := do
  let b ← token ()
  pure (ArakoonBool.truth b)

def wireInt32 : Reader Unit UInt8 Int := do
  let n ← u32 ()
  pure (int32 n)

def wireStringOption : Reader Unit UInt8 (Option Bytes) := do
  let present ← wireBool
  if present then do
    let s ← wireString
    pure (some s)
  else
    pure none

def StringField (s bs : Bytes) : Prop := Short s ∧ bs = writeString s

def BoolField (b : Bool) (bs : Bytes) : Prop := ∃ mark, bs = [mark] ∧ b = ArakoonBool.truth mark

def Int32Field (n : Int) (bs : Bytes) : Prop := FitsInt32 n ∧ bs = writeInt32 n

def StringOptionField : Option Bytes → Bytes → Prop
  | none, bs => bs = [boolFalse]
  | some s, bs => ∃ mark word, mark ≠ boolFalse ∧ StringField s word ∧ bs = mark :: word

theorem reads_wireString : Reads wireString StringField := reads_lengthPrefixed ()

theorem reads_wireBool : Reads wireBool BoolField := (Reads.token ()).map ArakoonBool.truth

theorem int32_of_fits {n : Int} (h : FitsInt32 n) : int32 ((n % 2 ^ 32).toNat : Int) = n := by
  obtain ⟨hlow, hhigh⟩ := h
  have hnonneg : 0 ≤ n % 2 ^ 32 := Int.emod_nonneg _ (by decide)
  rw [Int.toNat_of_nonneg hnonneg, int32]
  have hmod := Int.emod_bmod (x := n) (n := 2 ^ 32)
  simp only [Int.bmod] at *
  omega

theorem fits_int32 (n : Int) : FitsInt32 (int32 n) := by
  have hcast : ((2 ^ 32 : Nat) : Int) = 4294967296 := rfl
  unfold FitsInt32 int32 Int.bmod
  rw [hcast]
  dsimp only
  split_ifs <;> omega

theorem writeInt32_int32 {n : Nat} (h : n < 2 ^ 32) : writeInt32 (int32 n) = le32 n := by
  have hcast : ((2 ^ 32 : Nat) : Int) = 4294967296 := rfl
  have hmod : (int32 n % 2 ^ 32).toNat = n := by
    unfold int32 Int.bmod
    rw [hcast]
    dsimp only
    split_ifs <;> omega
  rw [writeInt32, hmod]

theorem reads_wireInt32 : Reads wireInt32 Int32Field := by
  apply ((reads_u32 ()).map fun n : Nat => int32 n).congr
  intro n bs
  constructor
  · intro h
    obtain ⟨m, ⟨hm, hbs⟩, hn⟩ := h
    rw [hn, hbs]
    exact ⟨fits_int32 m, (writeInt32_int32 hm).symm⟩
  · intro h
    obtain ⟨hn, rfl⟩ := h
    have hlt : (n % 2 ^ 32).toNat < 2 ^ 32 := by
      have := Int.emod_lt_of_pos n (b := 2 ^ 32) (by decide)
      omega
    refine ⟨(n % 2 ^ 32).toNat, ⟨hlt, rfl⟩, ?_⟩
    rw [int32_of_fits hn]

theorem truth_eq_true {mark : ArakoonBool} : ArakoonBool.truth mark = true ↔ mark ≠ boolFalse := by
  simp [ArakoonBool.truth]

theorem truth_eq_false {mark : ArakoonBool} : ArakoonBool.truth mark = false ↔ mark = boolFalse := by
  simp [ArakoonBool.truth]

theorem reads_wireStringOption : Reads wireStringOption StringOptionField := by
  refine (reads_wireBool.bind fun present => Reads.ite (reads_wireString.map some) (Reads.pure none)).congr
    fun o bs => ?_
  constructor
  · intro hdone
    obtain ⟨_, _, word, ⟨mark, rfl, rfl⟩, hrest, rfl⟩ := hdone
    by_cases hmark : mark = boolFalse
    · rw [if_neg (by simp [truth_eq_false.mpr hmark])] at hrest
      obtain ⟨rfl, rfl⟩ := hrest
      rw [hmark]
      rfl
    · rw [if_pos (truth_eq_true.mpr hmark)] at hrest
      obtain ⟨s, hs, rfl⟩ := hrest
      exact ⟨mark, word, hmark, hs, rfl⟩
  · intro h
    cases o with
    | none =>
        have hbs : bs = [boolFalse] := h
        exact ⟨false, [boolFalse], [], ⟨boolFalse, rfl, rfl⟩, by simp, hbs⟩
    | some s =>
        obtain ⟨mark, word, hmark, hs, rfl⟩ := h
        refine ⟨true, [mark], word, ⟨mark, rfl, (truth_eq_true.mpr hmark).symm⟩, ?_, rfl⟩
        rw [if_pos rfl]
        exact ⟨s, hs, rfl⟩

theorem parses_string {s : Bytes} (h : Short s) : Parses wireString (writeString s) s :=
  reads_wireString.parses ⟨h, rfl⟩

theorem parses_bool (b : ArakoonBool) : Parses wireBool (writeBool b) (ArakoonBool.truth b) := by
  refine reads_wireBool.parses ⟨_, rfl, ?_⟩
  by_cases h : b = boolFalse
  · rw [if_pos h, h]
  · rw [if_neg h, truth_eq_true.mpr h, truth_eq_true.mpr (show boolTrue ≠ boolFalse by decide)]

theorem parses_int32 {n : Int} (h : FitsInt32 n) : Parses wireInt32 (writeInt32 n) n :=
  reads_wireInt32.parses ⟨h, rfl⟩

theorem parses_stringOption {s : StringOption} (h : s.Short) :
    Parses wireStringOption (writeStringOption s) s.value := by
  cases s with
  | null size => exact reads_wireStringOption.parses (show StringOptionField none [boolFalse] from rfl)
  | data value =>
      have hfield : StringOptionField (some value) (boolTrue :: writeString value) :=
        ⟨boolTrue, _, by decide, ⟨h value rfl, rfl⟩, rfl⟩
      exact reads_wireStringOption.parses hfield

end Crakoon
