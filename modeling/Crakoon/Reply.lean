import Crakoon.Wire

/-!
# The reply format

What a server answers: a 32-bit code, and behind it the error string when the code is not zero and the
payload of the operation when it is. `Reply.Word` is the language of the well-formed replies of each
kind and `readReply` its reference reader.
-/

namespace Crakoon

open Reading

/-- What an operation expects behind the code `0`. -/
inductive ReplyKind where
  | nothing
  | bool
  | string
  | text
  | stringOption
  | uint32
  | version
  | list
  | pairs
  deriving DecidableEq, Repr

/-- The three version numbers and the text behind them. -/
structure VersionReply where
  major : Int
  minor : Int
  patch : Int
  info : Bytes
  deriving DecidableEq

def ReplyKind.Payload : ReplyKind → Type
  | .nothing => Unit
  | .bool => Bool
  | .string => Bytes
  | .text => Bytes
  | .stringOption => Option Bytes
  | .uint32 => Nat
  | .version => VersionReply
  | .list => List Bytes
  | .pairs => List (Bytes × Bytes)

inductive Reply (kind : ReplyKind) where
  | error (code : Nat) (message : Bytes)
  | payload (p : kind.Payload)

def UInt32Field (n : Nat) (bs : Bytes) : Prop := n < 2 ^ 32 ∧ bs = le32 n

/-- A counted list: the number of its elements and their words in order. -/
def ListField {α : Type} (R : α → Bytes → Prop) (as : List α) (bs : Bytes) : Prop :=
  as.length < 2 ^ 32 ∧ ∃ words, Reads.Many R as words ∧ bs = le32 as.length ++ words

def PairField (p : Bytes × Bytes) (bs : Bytes) : Prop :=
  ∃ ks vs, StringField p.1 ks ∧ StringField p.2 vs ∧ bs = ks ++ vs

def VersionField (v : VersionReply) (bs : Bytes) : Prop :=
  ∃ ma mi pa info, Int32Field v.major ma ∧ Int32Field v.minor mi ∧ Int32Field v.patch pa ∧
    StringField v.info info ∧ bs = ma ++ (mi ++ (pa ++ info))

def ReplyKind.Word : (kind : ReplyKind) → kind.Payload → Bytes → Prop
  | .nothing, _, bs => bs = []
  | .bool, b, bs => BoolField b bs
  | .string, s, bs => StringField s bs
  | .text, s, bs => StringField s bs
  | .stringOption, s, bs => StringOptionField s bs
  | .uint32, n, bs => UInt32Field n bs
  | .version, v, bs => VersionField v bs
  | .list, ss, bs => ListField StringField ss bs
  | .pairs, ps, bs => ListField PairField ps bs

/-- The bytes of a well-formed reply. -/
def Reply.Word {kind : ReplyKind} : Reply kind → Bytes → Prop
  | .error code message, bs => code ≠ 0 ∧ code < 2 ^ 32 ∧ ∃ word, StringField message word ∧ bs = le32 code ++ word
  | .payload p, bs => ∃ word, kind.Word p word ∧ bs = le32 0 ++ word

def wirePair : Reader Unit UInt8 (Bytes × Bytes) := do
  let key ← wireString
  let value ← wireString
  pure (key, value)

def wireVersion : Reader Unit UInt8 VersionReply := do
  let major ← wireInt32
  let minor ← wireInt32
  let patch ← wireInt32
  let info ← wireString
  pure ⟨major, minor, patch, info⟩

def wireList {α : Type} (p : Reader Unit UInt8 α) : Reader Unit UInt8 (List α) := do
  let count ← u32 ()
  times p count

def readPayload : (kind : ReplyKind) → Reader Unit UInt8 kind.Payload
  | .nothing => (pure () : Reader Unit UInt8 Unit)
  | .bool => wireBool
  | .string => wireString
  | .text => wireString
  | .stringOption => wireStringOption
  | .uint32 => u32 ()
  | .version => wireVersion
  | .list => wireList wireString
  | .pairs => wireList wirePair

def readReply (kind : ReplyKind) : Reader Unit UInt8 (Reply kind) := do
  let code ← u32 ()
  if code ≠ 0 then do
    let message ← wireString
    pure (.error code message)
  else do
    let p ← readPayload kind
    pure (.payload p)

theorem reads_wirePair : Reads wirePair PairField := by
  apply (reads_wireString.bind fun key => reads_wireString.map _).congr
  intro p bs
  constructor
  · intro h
    obtain ⟨key, ks, vs, hkey, ⟨value, hvalue, rfl⟩, rfl⟩ := h
    exact ⟨ks, vs, hkey, hvalue, rfl⟩
  · intro h
    obtain ⟨ks, vs, hkey, hvalue, rfl⟩ := h
    exact ⟨p.1, ks, vs, hkey, ⟨p.2, hvalue, rfl⟩, rfl⟩

theorem reads_wireVersion : Reads wireVersion VersionField := by
  refine (reads_wireInt32.bind fun major => reads_wireInt32.bind fun minor => reads_wireInt32.bind fun patch =>
    reads_wireString.map _).congr fun v bs => ?_
  constructor
  · intro h
    obtain ⟨major, ma, _, hma, ⟨minor, mi, _, hmi, ⟨patch, pa, info, hpa, ⟨text, htext, rfl⟩, rfl⟩, rfl⟩, rfl⟩ := h
    exact ⟨ma, mi, pa, info, hma, hmi, hpa, htext, rfl⟩
  · intro h
    obtain ⟨ma, mi, pa, info, hma, hmi, hpa, htext, rfl⟩ := h
    exact ⟨v.major, ma, _, hma, ⟨v.minor, mi, _, hmi, ⟨v.patch, pa, info, hpa, ⟨v.info, htext, rfl⟩, rfl⟩, rfl⟩, rfl⟩

theorem reads_wireList {α : Type} {p : Reader Unit UInt8 α} {R : α → Bytes → Prop} (h : Reads p R) :
    Reads (wireList p) (ListField R) := by
  apply ((reads_u32 ()).bind fun count => Reads.times h count).congr
  intro as bs
  constructor
  · intro hdone
    obtain ⟨count, _, words, ⟨hcount, rfl⟩, ⟨rfl, hmany⟩, rfl⟩ := hdone
    exact ⟨hcount, words, hmany, rfl⟩
  · intro hdone
    obtain ⟨hcount, words, hmany, rfl⟩ := hdone
    exact ⟨as.length, _, words, ⟨hcount, rfl⟩, ⟨rfl, hmany⟩, rfl⟩

theorem reads_payload (kind : ReplyKind) : Reads (readPayload kind) kind.Word := by
  cases kind with
  | nothing => exact (Reads.pure ()).congr fun a bs => ⟨fun h => h.2, fun h => ⟨rfl, h⟩⟩
  | bool => exact reads_wireBool
  | string => exact reads_wireString
  | text => exact reads_wireString
  | stringOption => exact reads_wireStringOption
  | uint32 => exact reads_u32 ()
  | version => exact reads_wireVersion
  | list => exact reads_wireList reads_wireString
  | pairs => exact reads_wireList reads_wirePair

/-- The reference reader takes exactly the well-formed replies. -/
theorem reads_reply (kind : ReplyKind) : Reads (readReply kind) Reply.Word := by
  refine ((reads_u32 ()).bind fun code => Reads.ite (reads_wireString.map _) ((reads_payload kind).map _)).congr
    fun r bs => ?_
  constructor
  · intro hdone
    obtain ⟨code, _, word, ⟨hcode, rfl⟩, hrest, rfl⟩ := hdone
    split_ifs at hrest with hne
    · obtain ⟨message, hmessage, rfl⟩ := hrest
      exact ⟨hne, hcode, word, hmessage, rfl⟩
    · obtain ⟨p, hp, rfl⟩ := hrest
      obtain rfl : code = 0 := not_ne_iff.mp hne
      exact ⟨word, hp, rfl⟩
  · intro h
    cases r with
    | error code message =>
        obtain ⟨hne, hcode, word, hmessage, rfl⟩ := h
        refine ⟨code, _, word, ⟨hcode, rfl⟩, ?_, rfl⟩
        rw [if_pos hne]
        exact ⟨message, hmessage, rfl⟩
    | payload p =>
        obtain ⟨word, hp, rfl⟩ := h
        refine ⟨0, _, word, ⟨by decide, rfl⟩, ?_, rfl⟩
        rw [if_neg (by simp)]
        exact ⟨p, hp, rfl⟩

/-- A reply is not empty: it has a code. -/
theorem Reply.Word.length {kind : ReplyKind} {r : Reply kind} {bs : Bytes} (h : r.Word bs) : 4 ≤ bs.length := by
  cases r with
  | error code message =>
      obtain ⟨-, -, word, -, rfl⟩ := h
      simp
  | payload p =>
      obtain ⟨word, -, rfl⟩ := h
      simp

end Crakoon
