import Crakoon.Cluster
import Crakoon.Request
import Crakoon.Sequence
import Crakoon.Session

/-!
# The client operations

The operations of `arakoon.c` on a cluster. All of them reset the last error, take the master, send a
request, read the code of the reply and handle an error; they differ in their request, in what they
decode and in what they leave in their result on each way out. An operation takes the values its
result variables have before the call and yields the return code with the values they have after it.
Time-outs are among the ways a read or a write on a connection fails.
-/

namespace Crakoon

open Programs

structure World where
  heap : Heap
  /-- How often a connection was asked for. -/
  dials : Nat
  cluster : Cluster

abbrev ClientM := Program World

/-- What the macros see when they are given the node `k`. -/
def World.session (w : World) (k : NodeId) : Session := ⟨w.heap, (w.cluster.node k).conn, w.cluster.lastError⟩

def World.update (w : World) (k : NodeId) (s : Session) : World where
  heap := s.heap
  dials := w.dials
  cluster := { w.cluster.setNode k { w.cluster.node k with conn := s.conn } with lastError := s.lastError }

/-- Runs a program on the session of the node `k`. -/
def onNode {α : Type} (k : NodeId) (m : SessionM α) : ClientM α := fun w =>
  (m.run (w.session k)).map fun out => (out.1, w.update k out.2)

/-- `_arakoon_cluster_reset_last_error` -/
def clusterResetLastError : ClientM Unit := fun w =>
  some ((), { w with
    heap := w.heap.free w.cluster.lastError.ptr
    cluster := { w.cluster with lastError := .null } })

/-- `_arakoon_cluster_get_master` -/
def Cluster.getMaster (cluster : Cluster) : Option NodeId :=
  match cluster.master with
  | none => none
  | some k => if (cluster.node k).conn.isSome then some k else none

section Parts

variable {α : Type} (alloc : Nat → Bool)

/-- `ARAKOON_CLUSTER_GET_MASTER` after the reset of the last error; `notConnected` is what the result
variables hold when there is no master. -/
def withMaster (notConnected : α) (body : SessionM (ArakoonRc × α)) : ClientM (ArakoonRc × α) := do
  clusterResetLastError
  fun w =>
    match w.cluster.getMaster with
    | none => some ((ArakoonReturnCode.clientNotConnected.rc, notConnected), w)
    | some k => (onNode k body).run w

/-- The bytes of a block, or no outcome where the process aborts. -/
def assertAllWritten (block : Option Bytes) : SessionM Bytes := fun s => block.map fun bs => (bs, s)

/-- Allocates the block of a command, fills it, hands it to `write` and frees it. -/
def sendBlock (write : Bytes → SessionM ArakoonRc) (block : Option Bytes) : SessionM ArakoonRc := do
  match ← memNew alloc with
  | none => pure enomem
  | some command => do
      let bs ← assertAllWritten block
      let rc ← write bs
      memFree (.block command)
      pure rc

def sendCommand (c : Command) : SessionM ArakoonRc := sendBlock alloc writeBytes c.assembled

/-- The operation once its request is sent; `failed` is what the result variables hold when the reply is an
error. -/
def clientReply (failed : α) (decode : SessionM (ArakoonRc × α)) : SessionM (ArakoonRc × α) := do
  let rc ← readRc
  handleError alloc rc
  if rc ≠ 0 then pure (rc, failed) else decode

/-- The operation after its master is known; `early` is what the result variables hold when the request is
not sent. -/
def clientOperation (early failed : α) (send : SessionM ArakoonRc) (decode : SessionM (ArakoonRc × α)) :
    SessionM (ArakoonRc × α) := do
  let rc ← send
  if rc ≠ 0 then pure (rc, early) else clientReply alloc failed decode

/-- Nothing but the code is left to read. -/
def decodeNothing : SessionM (ArakoonRc × Unit) := pure (ArakoonReturnCode.success.rc, ())

def decodeBool : SessionM (ArakoonRc × ArakoonBool) := do
  let (result, rc) ← readBool
  pure (rc, result)

def decodeString (result : Data) : SessionM (ArakoonRc × Data) := do
  let (result, rc) ← readString alloc result 0
  if rc ≠ 0 then pure (rc, .null) else pure (rc, result)

def decodeStringOption (result : Data) : SessionM (ArakoonRc × Data) := do
  let (result, rc) ← readStringOption alloc result 0
  if rc ≠ 0 then pure (rc, .null) else pure (rc, result)

def decodeUInt32 (result : Nat) : SessionM (ArakoonRc × Nat) := do
  let (result, rc) ← readUInt32 result
  if rc ≠ 0 then pure (rc, 0) else pure (rc, result)

/-- A string that is handed out with a terminator. -/
def decodeText : SessionM (ArakoonRc × Data) := do
  let (data, rc) ← readString alloc .null 0
  if rc ≠ 0 then pure (rc, .null)
  else do
    let result ← utilsMakeString alloc data
    if result = .null then pure (enomem, .null) else pure (rc, result)

def decodeList : SessionM (ArakoonRc × Option ValueList) := do
  match ← valueListNew alloc with
  | none => pure (enomem, none)
  | some result => do
      let (result, rc) ← readStringList alloc result
      if rc ≠ 0 then do
        valueListFree result
        pure (rc, none)
      else pure (rc, some result)

def decodePairs : SessionM (ArakoonRc × Option KeyValueList) := do
  match ← keyValueListNew alloc with
  | none => pure (enomem, none)
  | some result => do
      let (result, rc) ← readStringStringList alloc result
      if rc ≠ 0 then do
        keyValueListFree result
        pure (rc, none)
      else pure (rc, some result)

structure VersionInfo where
  major : Int
  minor : Int
  patch : Int
  info : Data
  deriving DecidableEq

def decodeVersion (result : VersionInfo) : SessionM (ArakoonRc × VersionInfo) := do
  let result := { result with info := .null }
  let (major, rc) ← readInt32 result.major
  let result := { result with major := major }
  if rc ≠ 0 then pure (rc, result)
  else do
    let (minor, rc) ← readInt32 result.minor
    let result := { result with minor := minor }
    if rc ≠ 0 then pure (rc, result)
    else do
      let (patch, rc) ← readInt32 result.patch
      let result := { result with patch := patch }
      if rc ≠ 0 then pure (rc, result)
      else do
        let (data, rc) ← readString alloc .null rc
        if rc ≠ 0 then pure (rc, result)
        else do
          let info ← utilsMakeString alloc data
          let result := { result with info := info }
          if info = .null then pure (enomem, result) else pure (rc, result)

end Parts

section Operations

variable (alloc : Nat → Bool)

/-- `arakoon_hello` writes with `_arakoon_cluster_node_write_bytes`, as `arakoon_version` does. -/
def arakoonHello (clientId clusterId : CString) (result : Data) : ClientM (ArakoonRc × Data) :=
  withMaster result (clientOperation alloc result result
    (sendBlock alloc clusterNodeWriteBytes (helloCommand clientId clusterId).assembled) (decodeText alloc))

def arakoonExpectProgressPossible (result : ArakoonBool) : ClientM (ArakoonRc × ArakoonBool) :=
  withMaster result (clientOperation alloc result result (sendCommand alloc expectProgressPossibleCommand) decodeBool)

def arakoonExists (options : Option ClientCallOptions) (key : Bytes) (result : ArakoonBool) :
    ClientM (ArakoonRc × ArakoonBool) :=
  withMaster result (clientOperation alloc result result (sendCommand alloc (existsCommand options key)) decodeBool)

def arakoonGet (options : Option ClientCallOptions) (key : Bytes) (result : Data) : ClientM (ArakoonRc × Data) :=
  withMaster result (clientOperation alloc result .null (sendCommand alloc (getCommand options key))
    (decodeString alloc result))

def arakoonSet (key value : Bytes) : ClientM (ArakoonRc × Unit) :=
  withMaster () (clientOperation alloc () () (sendCommand alloc (setCommand key value)) decodeNothing)

/-- The keys that follow the header of a `multi_get` request: for each the low four bytes of its size and the
key, in writes of their own. A write that fails leaves the iterator behind. -/
def multiGetKeys : List Bytes → SessionM ArakoonRc
  | [] => pure ArakoonReturnCode.success.rc
  | value :: keys => do
      let rc ← writeBytes (writeUInt32 value.length)
      if rc ≠ 0 then pure rc
      else do
        let rc ← writeBytes value
        if rc ≠ 0 then pure rc else multiGetKeys keys

/-- The request part of `arakoon_multi_get`. Without an iterator the loop over the keys ends at once. -/
def sendMultiGet (options : Option ClientCallOptions) (keys : List Bytes) : SessionM ArakoonRc := do
  let rc ← sendCommand alloc (multiGetCommand options keys)
  if rc ≠ 0 then pure rc
  else do
    match ← memNew alloc with
    | none => pure rc
    | some iter => do
        let rc ← multiGetKeys keys
        if rc ≠ 0 then pure rc
        else do
          memFree (.block iter)
          pure rc

def arakoonMultiGet (options : Option ClientCallOptions) (keys : List Bytes) (result : Option ValueList) :
    ClientM (ArakoonRc × Option ValueList) :=
  withMaster result (clientOperation alloc none none (sendMultiGet alloc options keys) (decodeList alloc))

def arakoonDelete (key : Bytes) : ClientM (ArakoonRc × Unit) :=
  withMaster () (clientOperation alloc () () (sendCommand alloc (deleteCommand key)) decodeNothing)

def arakoonRange (options : Option ClientCallOptions) (bounds : RangeBounds) (result : Option ValueList) :
    ClientM (ArakoonRc × Option ValueList) :=
  withMaster result (clientOperation alloc result none (sendCommand alloc (rangeCommand options bounds))
    (decodeList alloc))

/-- `_arakoon_range_helper` -/
def arakoonRangeHelper (cmd1 cmd2 : UInt8) (options : Option ClientCallOptions) (bounds : RangeBounds)
    (result : Option KeyValueList) : ClientM (ArakoonRc × Option KeyValueList) :=
  withMaster result (clientOperation alloc result none
    (sendCommand alloc (rangeBoundsCommand cmd1 cmd2 options bounds)) (decodePairs alloc))

def arakoonRangeEntries (options : Option ClientCallOptions) (bounds : RangeBounds) (result : Option KeyValueList) :
    ClientM (ArakoonRc × Option KeyValueList) :=
  arakoonRangeHelper alloc 0x0f 0x00 options bounds result

def arakoonRevRangeEntries (options : Option ClientCallOptions) (bounds : RangeBounds)
    (result : Option KeyValueList) : ClientM (ArakoonRc × Option KeyValueList) :=
  arakoonRangeHelper alloc 0x23 0x00 options bounds result

/-- The block of this request is not checked for being full. -/
def arakoonPrefix (options : Option ClientCallOptions) (beginKey : Bytes) (maxElements : Int)
    (result : Option ValueList) : ClientM (ArakoonRc × Option ValueList) :=
  withMaster result (clientOperation alloc result none
    (sendCommand alloc (keyPrefixCommand options beginKey maxElements)) (decodeList alloc))

def arakoonTestAndSet (key : Bytes) (oldValue newValue : StringOption) (result : Data) :
    ClientM (ArakoonRc × Data) :=
  withMaster result (clientOperation alloc result result (sendCommand alloc (testAndSetCommand key oldValue newValue))
    (decodeStringOption alloc result))

/-- `_arakoon_sequence_impl`. The stores of the writer fill the block, whatever it held before. -/
def arakoonSequenceImpl (code : UInt8) (sequence : Sequence) : ClientM (ArakoonRc × Unit) :=
  withMaster () (clientOperation alloc () ()
    (sendBlock alloc writeBytes ((sequenceImpl code sequence).map fun block => block.bytes fun _ => 0)) decodeNothing)

def arakoonSequence (sequence : Sequence) : ClientM (ArakoonRc × Unit) := arakoonSequenceImpl alloc 0x10 sequence

def arakoonSyncedSequence (sequence : Sequence) : ClientM (ArakoonRc × Unit) :=
  arakoonSequenceImpl alloc 0x24 sequence

def arakoonAssert (options : Option ClientCallOptions) (key : Bytes) (value : StringOption) :
    ClientM (ArakoonRc × Unit) :=
  withMaster () (clientOperation alloc () () (sendCommand alloc (assertCommand options key value)) decodeNothing)

def arakoonAssertExists (options : Option ClientCallOptions) (key : Bytes) : ClientM (ArakoonRc × Unit) :=
  withMaster () (clientOperation alloc () () (sendCommand alloc (assertExistsCommand options key)) decodeNothing)

def arakoonDeletePrefix (start : Bytes) (result : Nat) : ClientM (ArakoonRc × Nat) :=
  withMaster result (clientOperation alloc result result (sendCommand alloc (deletePrefixCommand start))
    (decodeUInt32 result))

def arakoonVersion (result : VersionInfo) : ClientM (ArakoonRc × VersionInfo) :=
  withMaster result (clientOperation alloc result result
    (sendBlock alloc clusterNodeWriteBytes versionCommand.assembled) (decodeVersion alloc result))

/-- The result is cleared before anything else, and kept as the decoder leaves it. -/
def arakoonUserFunction (userFunction : CString) (arg : StringOption) : ClientM (ArakoonRc × Data) :=
  withMaster .null (clientOperation alloc .null .null (sendCommand alloc (userFunctionCommand userFunction arg)) do
    let (result, rc) ← readStringOption alloc .null 0
    pure (rc, result))

end Operations

end Crakoon
