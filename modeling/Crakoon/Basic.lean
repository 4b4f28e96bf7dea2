import Crakoon.Reader
import Mathlib.Algebra.Group.Int.Defs
import Mathlib.Algebra.Group.Nat.Defs
import Mathlib.Data.List.TakeWhile

/-!
# Bytes, return codes and machine integers

The library is modelled for a little-endian host with 32-bit `int` and 64-bit `long`, `size_t` and
`ssize_t`. Lengths and sizes are natural numbers; the conversions below stand where the code narrows
them. A `char *` that the code measures with `strlen` is a `CString`.
-/

namespace Crakoon

open Reading

abbrev Bytes := List UInt8

/-- `arakoon_rc`: `0` on success, an `ArakoonReturnCode` if positive, a negated errno if negative. -/
abbrev ArakoonRc := Int

inductive ArakoonReturnCode where
  | success | noMagic | tooManyDeadNodes | noHello | notMaster | notFound | wrongCluster
  | assertionFailed | readOnly | nurseryRangeError | unknownFailure
  | clientNetworkError | clientUnknownNode | clientMasterNotFound | clientNotConnected
  | clientTimeout | clientNurseryInvalidRouting | clientNurseryInvalidConfig
  deriving DecidableEq, Repr

def ArakoonReturnCode.rc : ArakoonReturnCode → ArakoonRc
  | .success => 0
  | .noMagic => 1
  | .tooManyDeadNodes => 2
  | .noHello => 3
  | .notMaster => 4
  | .notFound => 5
  | .wrongCluster => 6
  | .assertionFailed => 7
  | .readOnly => 8
  | .nurseryRangeError => 9
  | .unknownFailure => 0xff
  | .clientNetworkError => 0x0100
  | .clientUnknownNode => 0x0200
  | .clientMasterNotFound => 0x0300
  | .clientNotConnected => 0x0400
  | .clientTimeout => 0x0500
  | .clientNurseryInvalidRouting => 0x0600
  | .clientNurseryInvalidConfig => 0x0700

instance : Coe ArakoonReturnCode ArakoonRc := ⟨ArakoonReturnCode.rc⟩

/-- `-ENOMEM` -/
def enomem : ArakoonRc := -12

/-- `-EINVAL`, what a function returns that is given a null pointer. -/
def einval : ArakoonRc := -22

/-- A return code other than success. -/
abbrev Failure := {rc : ArakoonRc // rc ≠ 0}

theorem enomem_ne_zero : enomem ≠ 0 := by decide

theorem clientNetworkError_ne_zero : ArakoonReturnCode.clientNetworkError.rc ≠ 0 := by decide

/-- `arakoon_bool`, a `char` that is only ever compared with `ARAKOON_BOOL_FALSE`. -/
abbrev ArakoonBool := UInt8

def boolFalse : ArakoonBool := 0
def boolTrue : ArakoonBool := 1

/-- The value of a `size_t` expression. -/
def sizeT (n : Nat) : Nat := n % 2 ^ 64

/-- The value of an `int` or `int32_t` that an integer is assigned to. -/
def int32 (n : Int) : Int := Int.bmod n (2 ^ 32)

/-- A NUL-terminated string, without its terminator. -/
structure CString where
  bytes : Bytes
  noNul : 0 ∉ bytes
  deriving DecidableEq

/-- What `strlen` and `strcmp` see of a block of bytes that a terminator follows. -/
def CString.ofBytes (data : Bytes) : CString where
  bytes := data.takeWhile (· ≠ 0)
  noNul := fun h => by simpa using List.mem_takeWhile_imp h

theorem CString.ofBytes_bytes {data : Bytes} (h : 0 ∉ data) : (CString.ofBytes data).bytes = data := by
  apply List.takeWhile_eq_self_iff.mpr
  intro b hb
  have hne : b ≠ 0 := fun hzero => h (hzero ▸ hb)
  simp [hne]

/-- The four bytes a `uint32_t` store leaves in memory. -/
def le32 (n : Nat) : Bytes :=
  [UInt8.ofNat n, UInt8.ofNat (n / 2 ^ 8), UInt8.ofNat (n / 2 ^ 16), UInt8.ofNat (n / 2 ^ 24)]

/-- The `uint32_t` that four bytes of memory hold. -/
def ofLe32 : Bytes → Nat
  | [b₀, b₁, b₂, b₃] => b₀.toNat + 2 ^ 8 * b₁.toNat + 2 ^ 16 * b₂.toNat + 2 ^ 24 * b₃.toNat
  | _ => 0

@[simp] theorem le32_length (n : Nat) : (le32 n).length = 4 := rfl

theorem ofLe32_le32 (n : Nat) : ofLe32 (le32 n) = n % 2 ^ 32 := by
  simp only [le32, ofLe32, UInt8.toNat_ofNat']
  omega

theorem ofLe32_le32_of_lt {n : Nat} (h : n < 2 ^ 32) : ofLe32 (le32 n) = n := by
  rw [ofLe32_le32, Nat.mod_eq_of_lt h]

theorem ofLe32_lt (bs : Bytes) : ofLe32 bs < 2 ^ 32 := by
  unfold ofLe32
  split
  · rename_i b₀ b₁ b₂ b₃
    have := b₀.toNat_lt
    have := b₁.toNat_lt
    have := b₂.toNat_lt
    have := b₃.toNat_lt
    omega
  · decide

theorem le32_ofLe32 {bs : Bytes} (h : bs.length = 4) : le32 (ofLe32 bs) = bs := by
  obtain ⟨b₀, b₁, b₂, b₃, rfl⟩ : ∃ b₀ b₁ b₂ b₃, bs = [b₀, b₁, b₂, b₃] := by
    match bs, h with
    | [b₀, b₁, b₂, b₃], _ => exact ⟨b₀, b₁, b₂, b₃, rfl⟩
  have := b₀.toNat_lt
  have := b₁.toNat_lt
  have := b₂.toNat_lt
  have := b₃.toNat_lt
  simp only [le32, ofLe32, List.cons.injEq, and_true, ← UInt8.toNat_inj, UInt8.toNat_ofNat']
  refine ⟨?_, ?_, ?_, ?_⟩ <;> omega

variable {ε : Type}

/-- A 32-bit word. -/
def u32 (e : ε) : Reader ε UInt8 Nat := do
  let bs ← take e 4
  pure (ofLe32 bs)

/-- A string behind its 32-bit length. -/
def lengthPrefixed (e : ε) : Reader ε UInt8 Bytes := do
  let n ← u32 e
  take e n

theorem parses_u32 (e : ε) {n : Nat} (h : n < 2 ^ 32) : Parses (u32 e) (le32 n) n := by
  have hparse := (Parses.take e (le32_length n)).map ofLe32
  rwa [ofLe32_le32_of_lt h] at hparse

theorem reads_u32 (e : ε) : Reads (u32 e) fun n bs => n < 2 ^ 32 ∧ bs = le32 n := by
  apply ((Reads.take e 4).map ofLe32).congr
  intro n bs
  constructor
  · intro h
    obtain ⟨a, ⟨rfl, hlen⟩, rfl⟩ := h
    exact ⟨ofLe32_lt _, (le32_ofLe32 hlen).symm⟩
  · intro h
    obtain ⟨hn, rfl⟩ := h
    exact ⟨le32 n, ⟨rfl, rfl⟩, (ofLe32_le32_of_lt hn).symm⟩

theorem parses_lengthPrefixed (e : ε) {s : Bytes} (h : s.length < 2 ^ 32) :
    Parses (lengthPrefixed e) (le32 s.length ++ s) s :=
  (parses_u32 e h).bind (Parses.take e rfl)

theorem reads_lengthPrefixed (e : ε) :
    Reads (lengthPrefixed e) fun s bs => s.length < 2 ^ 32 ∧ bs = le32 s.length ++ s := by
  apply ((reads_u32 e).bind fun n => Reads.take e n).congr
  intro s bs
  constructor
  · intro h
    obtain ⟨n, cs, ds, ⟨hn, rfl⟩, ⟨rfl, rfl⟩, rfl⟩ := h
    exact ⟨hn, rfl⟩
  · intro h
    obtain ⟨hs, rfl⟩ := h
    exact ⟨s.length, _, s, ⟨hs, rfl⟩, ⟨rfl, rfl⟩, rfl⟩

end Crakoon
