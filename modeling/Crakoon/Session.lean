import Crakoon.Connection
import Crakoon.Memory
import Crakoon.Program

/-!
# Reading replies

The macros of `arakoon-protocol.h` that move bytes and decode replies, and `HANDLE_ERROR`. They work
on a `Session`. A macro assigns the variables it is given: here it is a program that takes the value a
variable has before and yields the value it has after, so that a path which does not assign it is one
that yields the old value. The result code comes last.
-/

namespace Crakoon

open Programs

/-- What the macros of an operation work on: the memory, the connection of the node they are given (its
descriptor is negative where there is none) and the error slot of the cluster. -/
structure Session where
  heap : Heap
  conn : Option Conn
  lastError : Data

abbrev SessionM := Program Session

section Memory

variable (alloc : Nat → Bool)

/-- `arakoon_mem_malloc`, `arakoon_mem_new` -/
def memNew : SessionM (Option Nat) := fun s =>
  let out := s.heap.malloc alloc
  some (out.1, { s with heap := out.2 })

/-- `arakoon_mem_realloc` -/
def memRealloc (p : Ptr) : SessionM (Option Nat) := fun s =>
  let out := s.heap.realloc alloc p
  some (out.1, { s with heap := out.2 })

/-- `arakoon_mem_free` -/
def memFree (p : Ptr) : SessionM Unit := fun s => some ((), { s with heap := s.heap.free p })

/-- `arakoon_mem_maybe_free` -/
def memMaybeFree (d : Data) : SessionM Unit := if d.size ≠ 0 then memFree d.ptr else pure ()

/-- `arakoon_utils_make_string` -/
def utilsMakeString (d : Data) : SessionM Data := do
  match ← memRealloc alloc d.ptr with
  | none => do
      memFree d.ptr
      pure .null
  | some id => pure (.block id (d.value.getD [] ++ [0]))

end Memory

/-- `_arakoon_cluster_node_disconnect` -/
def clusterNodeDisconnect : SessionM Unit := fun s => some ((), { s with conn := none })

/-- `_arakoon_cluster_node_write_bytes`: `_arakoon_networking_poll_write` on the descriptor of the node. -/
def clusterNodeWriteBytes (bs : Bytes) : SessionM ArakoonRc := fun s =>
  match s.conn with
  | none => some (ArakoonReturnCode.clientNotConnected.rc, s)
  | some c =>
    let out := networkingPollWrite bs c
    some (out.1, { s with conn := some out.2 })

/-- `WRITE_BYTES` -/
def writeBytes (bs : Bytes) : SessionM ArakoonRc := do
  let r ← clusterNodeWriteBytes bs
  if r ≠ 0 then clusterNodeDisconnect
  pure r

/-- `_arakoon_networking_poll_read` on the descriptor of the node. -/
def clusterNodeReadBytes (n : Nat) : SessionM (ArakoonRc × Bytes) := fun s =>
  match s.conn with
  | none => some ((ArakoonReturnCode.clientNotConnected.rc, []), s)
  | some c =>
    let out := networkingPollRead n c
    some (out.1, { s with conn := some out.2 })

/-- `READ_BYTES`: the code, and the bytes if it is success. -/
def readBytes (n : Nat) : SessionM (ArakoonRc × Bytes) := do
  let out ← clusterNodeReadBytes n
  if out.1 ≠ 0 then clusterNodeDisconnect
  pure out

/-- `ARAKOON_PROTOCOL_READ_UINT32` -/
def readUInt32 (r : Nat) : SessionM (Nat × ArakoonRc) := do
  let (rc, d) ← readBytes 4
  if rc = 0 then pure (ofLe32 d, rc) else pure (r, rc)

/-- `ARAKOON_PROTOCOL_READ_INT32` -/
def readInt32 (r : Int) : SessionM (Int × ArakoonRc) := do
  let (rc, d) ← readBytes 4
  if rc = 0 then pure (int32 (ofLe32 d), rc) else pure (r, rc)

/-- `ARAKOON_PROTOCOL_READ_RC`: the word read is the result code. -/
def readRc : SessionM ArakoonRc := do
  let (d, rc) ← readUInt32 0
  if rc ≠ 0 then pure rc else pure (int32 d)

/-- `ARAKOON_PROTOCOL_READ_BOOL` -/
def readBool : SessionM (ArakoonBool × ArakoonRc) := do
  let (rc, r) ← readBytes 1
  if rc = 0 then pure (if r = [boolFalse] then boolFalse else boolTrue, rc) else pure (boolFalse, rc)

section Strings

variable (alloc : Nat → Bool)

/-- `ARAKOON_PROTOCOL_READ_STRING`. A string of length zero leaves the result code as it is. -/
def readString (a : Data) (rc : ArakoonRc) : SessionM (Data × ArakoonRc) := do
  let (l, rc') ← readUInt32 0
  if rc' ≠ 0 then pure (a, rc')
  else if l = 0 then pure (.zeroLength, rc)
  else do
    match ← memNew alloc with
    | none => pure (a, enomem)
    | some id => do
        let (rc', d) ← readBytes l
        if rc' = 0 then pure (.block id d, rc')
        else do
          memFree (.block id)
          pure (.null, rc')

/-- `ARAKOON_PROTOCOL_READ_STRING_OPTION` -/
def readStringOption (a : Data) (rc : ArakoonRc) : SessionM (Data × ArakoonRc) := do
  let (rc', v) ← readBytes 1
  if rc' ≠ 0 then pure (.null, rc')
  else if v = [0] then pure (.null, rc')
  else readString alloc a rc

/-- `HANDLE_ERROR` -/
def handleError (rc : ArakoonRc) : SessionM Unit := do
  if rc ≠ 0 then
    let (msg, errRc) ← readString alloc .null 0
    if errRc ≠ 0 then pure ()
    else fun s => some ((), { s with lastError := msg })

end Strings

structure ValueListItem where
  id : Nat
  value : Data
  deriving DecidableEq

/-- `ArakoonValueList`, with its items from the first to the last. -/
structure ValueList where
  id : Nat
  items : List ValueListItem
  deriving DecidableEq

structure KeyValueListItem where
  id : Nat
  key : Data
  value : Data
  deriving DecidableEq

/-- `ArakoonKeyValueList`, with its items from the first to the last. -/
structure KeyValueList where
  id : Nat
  items : List KeyValueListItem
  deriving DecidableEq

section Lists

variable (alloc : Nat → Bool)

/-- `arakoon_value_list_new` -/
def valueListNew : SessionM (Option ValueList) := do
  match ← memNew alloc with
  | none => pure none
  | some id => pure (some ⟨id, []⟩)

/-- `_arakoon_key_value_list_new` -/
def keyValueListNew : SessionM (Option KeyValueList) := do
  match ← memNew alloc with
  | none => pure none
  | some id => pure (some ⟨id, []⟩)

/-- The copy that a list makes of a value; no value is what a failing allocation leaves. -/
def copyValue (value : Data) : SessionM (Option Data) :=
  if value.size = 0 then pure (some .zeroLength)
  else do
    match ← memNew alloc with
    | none => pure none
    | some id => pure (some (.block id (value.value.getD [])))

/-- `_arakoon_value_list_prepend` -/
def valueListPrepend (list : ValueList) (value : Data) : SessionM (ValueList × ArakoonRc) := do
  match ← memNew alloc with
  | none => pure (list, enomem)
  | some item => do
      match ← copyValue alloc value with
      | none => do
          memFree (.block item)
          pure (list, enomem)
      | some copy => pure (⟨list.id, ⟨item, copy⟩ :: list.items⟩, ArakoonReturnCode.success.rc)

/-- `_arakoon_key_value_list_prepend` -/
def keyValueListPrepend (list : KeyValueList) (key value : Data) : SessionM (KeyValueList × ArakoonRc) := do
  match ← memNew alloc with
  | none => pure (list, enomem)
  | some item => do
      match ← copyValue alloc key with
      | none => do
          memFree (.block item)
          pure (list, enomem)
      | some keyCopy => do
          match ← copyValue alloc value with
          | none => do
              memFree keyCopy.ptr
              memFree (.block item)
              pure (list, enomem)
          | some valueCopy =>
              pure (⟨list.id, ⟨item, keyCopy, valueCopy⟩ :: list.items⟩, ArakoonReturnCode.success.rc)

/-- The loop of `arakoon_value_list_free`. -/
def valueListItemsFree : List ValueListItem → SessionM Unit
  | [] => pure ()
  | item :: items => do
      memMaybeFree item.value
      memFree (.block item.id)
      valueListItemsFree items

/-- `arakoon_value_list_free` -/
def valueListFree (list : ValueList) : SessionM Unit := do
  valueListItemsFree list.items
  memFree (.block list.id)

/-- The loop of `arakoon_key_value_list_free`. -/
def keyValueListItemsFree : List KeyValueListItem → SessionM Unit
  | [] => pure ()
  | item :: items => do
      memMaybeFree item.key
      memMaybeFree item.value
      memFree (.block item.id)
      keyValueListItemsFree items

/-- `arakoon_key_value_list_free` -/
def keyValueListFree (list : KeyValueList) : SessionM Unit := do
  keyValueListItemsFree list.items
  memFree (.block list.id)

/-- The loop of `ARAKOON_PROTOCOL_READ_STRING_LIST`; the code is the one the last step left. -/
def readStrings : Nat → ValueList → ArakoonRc → SessionM (ValueList × ArakoonRc)
  | 0, a, rc => pure (a, rc)
  | cnt + 1, a, rc => do
      let (s, rc) ← readString alloc .null rc
      if rc ≠ 0 then pure (a, rc)
      else do
        let (a, rc) ← valueListPrepend alloc a s
        memMaybeFree s
        if rc ≠ 0 then pure (a, rc) else readStrings cnt a rc

/-- `ARAKOON_PROTOCOL_READ_STRING_LIST` -/
def readStringList (a : ValueList) : SessionM (ValueList × ArakoonRc) := do
  let (cnt, rc) ← readUInt32 0
  if rc = 0 then readStrings alloc cnt a rc else pure (a, rc)

/-- The loop of `ARAKOON_PROTOCOL_READ_STRING_STRING_LIST`. -/
def readStringPairs : Nat → KeyValueList → ArakoonRc → SessionM (KeyValueList × ArakoonRc)
  | 0, a, rc => pure (a, rc)
  | cnt + 1, a, rc => do
      let (s0, rc) ← readString alloc .null rc
      if rc ≠ 0 then pure (a, rc)
      else do
        let (s1, rc) ← readString alloc .null rc
        if rc ≠ 0 then do
          memMaybeFree s0
          pure (a, rc)
        else do
          let (a, rc) ← keyValueListPrepend alloc a s0 s1
          memMaybeFree s0
          memMaybeFree s1
          if rc ≠ 0 then pure (a, rc) else readStringPairs cnt a rc

/-- `ARAKOON_PROTOCOL_READ_STRING_STRING_LIST` -/
def readStringStringList (a : KeyValueList) : SessionM (KeyValueList × ArakoonRc) := do
  let (cnt, rc) ← readUInt32 0
  if rc = 0 then readStringPairs alloc cnt a rc else pure (a, rc)

end Lists

end Crakoon
