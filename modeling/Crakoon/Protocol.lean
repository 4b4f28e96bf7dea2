import Crakoon.Basic

/-!
# Writing requests

The `ARAKOON_PROTOCOL_*_LEN` and `ARAKOON_PROTOCOL_WRITE_*` macros. A write macro stores at a cursor
into the command buffer and moves it past what it stored, so it is the bytes it appends. An
operation computes the length of its command, allocates that much, fills the block and checks with
`ASSERT_ALL_WRITTEN` that the cursor has reached its end: a `Command` keeps both sides of that
comparison.
-/

namespace Crakoon

def protocolVersion : Int := 1
def commandLen : Nat := 4
def int32Len : Nat := 4
def uint32Len : Nat := 4
def boolLen : Nat := 1

/-- A `void *` and its size as an optional value: a null pointer is `None`, whatever the size. -/
inductive StringOption where
  | null (size : Nat)
  | data (value : Bytes)
  deriving DecidableEq

def StringOption.value : StringOption → Option Bytes
  | .null _ => none
  | .data value => some value

/-- `ARAKOON_PROTOCOL_STRING_LEN` -/
def stringLen (n : Nat) : Nat := uint32Len + n

/-- `ARAKOON_PROTOCOL_STRING_OPTION_LEN` -/
def stringOptionLen : StringOption → Nat
  | .null _ => 1 + 0
  | .data value => 1 + stringLen value.length

/-- `ARAKOON_PROTOCOL_WRITE_COMMAND` -/
def writeCommand (n0 n1 : UInt8) : Bytes := [n0, n1, 0xff, 0xb1]

/-- `ARAKOON_PROTOCOL_WRITE_INT32`: the low 32 bits in two's complement. -/
def writeInt32 (u : Int) : Bytes := le32 (u % 2 ^ 32).toNat

/-- `ARAKOON_PROTOCOL_WRITE_UINT32`: the low 32 bits. -/
def writeUInt32 (u : Nat) : Bytes := le32 u

/-- `ARAKOON_PROTOCOL_WRITE_STRING` -/
def writeString (s : Bytes) : Bytes := writeUInt32 s.length ++ s

/-- `ARAKOON_PROTOCOL_WRITE_BOOL` -/
def writeBool (b : ArakoonBool) : Bytes := [if b = boolFalse then boolFalse else boolTrue]

/-- `ARAKOON_PROTOCOL_WRITE_STRING_OPTION`; a null pointer with a size other than `0` is only logged. -/
def writeStringOption : StringOption → Bytes
  | .null _ => writeBool boolFalse
  | .data value => writeBool boolTrue ++ writeString value

/-- A request that an operation has put together: the size it allocated and the bytes it stored. -/
structure Command where
  len : Nat
  written : Bytes
  deriving DecidableEq

/-- `ASSERT_ALL_WRITTEN`. The bytes to send if the block was filled exactly; otherwise the writes
have left the block or the process aborts. -/
def Command.assembled (c : Command) : Option Bytes := if c.written.length = c.len then some c.written else none

@[simp] theorem writeCommand_length (n0 n1 : UInt8) : (writeCommand n0 n1).length = commandLen := rfl

@[simp] theorem writeInt32_length (u : Int) : (writeInt32 u).length = int32Len := rfl

@[simp] theorem writeUInt32_length (u : Nat) : (writeUInt32 u).length = uint32Len := rfl

@[simp] theorem writeString_length (s : Bytes) : (writeString s).length = stringLen s.length := by
  simp [writeString, stringLen]

@[simp] theorem writeBool_length (b : ArakoonBool) : (writeBool b).length = boolLen := rfl

@[simp] theorem writeStringOption_length (s : StringOption) :
    (writeStringOption s).length = stringOptionLen s := by
  cases s with
  | null size => rfl
  | data value => simp [writeStringOption, stringOptionLen, boolLen]

theorem sizeT_of_lt {n : Nat} (h : n < 2 ^ 64) : sizeT n = n := Nat.mod_eq_of_lt h

theorem Command.assembled_of_length {c : Command} (h : c.written.length = c.len) :
    c.assembled = some c.written := if_pos h

end Crakoon
