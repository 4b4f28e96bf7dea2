import Crakoon.Client
import Crakoon.Reply
import Crakoon.SequenceRoundTrip

/-!
# The operations as one family

`Operation` lists the operations of `arakoon.c`, less `arakoon_who_master`, with their arguments. Each is
the same steps around a request and a decoder, as `Operation.run_eq` says.
-/

namespace Crakoon

open Programs

/-- The result variables of an operation. -/
def ReplyKind.Out : ReplyKind → Type
  | .nothing => Unit
  | .bool => ArakoonBool
  | .string => Data
  | .text => Data
  | .stringOption => Data
  | .uint32 => Nat
  | .version => VersionInfo
  | .list => Option ValueList
  | .pairs => Option KeyValueList

inductive Operation where
  | hello (clientId clusterId : CString)
  | expectProgressPossible
  | exists (options : Option ClientCallOptions) (key : Bytes)
  | get (options : Option ClientCallOptions) (key : Bytes)
  | set (key value : Bytes)
  | multiGet (options : Option ClientCallOptions) (keys : List Bytes)
  | delete (key : Bytes)
  | range (options : Option ClientCallOptions) (bounds : RangeBounds)
  | rangeEntries (options : Option ClientCallOptions) (bounds : RangeBounds)
  | revRangeEntries (options : Option ClientCallOptions) (bounds : RangeBounds)
  | keyPrefix (options : Option ClientCallOptions) (beginKey : Bytes) (maxElements : Int)
  | testAndSet (key : Bytes) (oldValue newValue : StringOption)
  | sequence (items : Sequence)
  | syncedSequence (items : Sequence)
  | assert (options : Option ClientCallOptions) (key : Bytes) (value : StringOption)
  | assertExists (options : Option ClientCallOptions) (key : Bytes)
  | deletePrefix (start : Bytes)
  | version
  | userFunction (name : CString) (arg : StringOption)

namespace Operation

def kind : Operation → ReplyKind
  | .hello _ _ => .text
  | .expectProgressPossible => .bool
  | .exists _ _ => .bool
  | .get _ _ => .string
  | .set _ _ => .nothing
  | .multiGet _ _ => .list
  | .delete _ => .nothing
  | .range _ _ => .list
  | .rangeEntries _ _ => .pairs
  | .revRangeEntries _ _ => .pairs
  | .keyPrefix _ _ _ => .list
  | .testAndSet _ _ _ => .stringOption
  | .sequence _ => .nothing
  | .syncedSequence _ => .nothing
  | .assert _ _ _ => .nothing
  | .assertExists _ _ => .nothing
  | .deletePrefix _ => .uint32
  | .version => .version
  | .userFunction _ _ => .stringOption

variable (alloc : Nat → Bool)

/-- Calls the operation with what its result variables hold. -/
def run : (op : Operation) → op.kind.Out → ClientM (ArakoonRc × op.kind.Out)
  | .hello clientId clusterId, result => arakoonHello alloc clientId clusterId result
  | .expectProgressPossible, result => arakoonExpectProgressPossible alloc result
  | .exists options key, result => arakoonExists alloc options key result
  | .get options key, result => arakoonGet alloc options key result
  | .set key value, _ => arakoonSet alloc key value
  | .multiGet options keys, result => arakoonMultiGet alloc options keys result
  | .delete key, _ => arakoonDelete alloc key
  | .range options bounds, result => arakoonRange alloc options bounds result
  | .rangeEntries options bounds, result => arakoonRangeEntries alloc options bounds result
  | .revRangeEntries options bounds, result => arakoonRevRangeEntries alloc options bounds result
  | .keyPrefix options beginKey maxElements, result => arakoonPrefix alloc options beginKey maxElements result
  | .testAndSet key oldValue newValue, result => arakoonTestAndSet alloc key oldValue newValue result
  | .sequence items, _ => arakoonSequence alloc items
  | .syncedSequence items, _ => arakoonSyncedSequence alloc items
  | .assert options key value, _ => arakoonAssert alloc options key value
  | .assertExists options key, _ => arakoonAssertExists alloc options key
  | .deletePrefix start, result => arakoonDeletePrefix alloc start result
  | .version, result => arakoonVersion alloc result
  | .userFunction name arg, _ => arakoonUserFunction alloc name arg

/-- The block of the request, if it is put together without an assertion failing; of `multi_get`, the part
before the keys. -/
def block : Operation → Option Bytes
  | .hello clientId clusterId => (helloCommand clientId clusterId).assembled
  | .expectProgressPossible => expectProgressPossibleCommand.assembled
  | .exists options key => (existsCommand options key).assembled
  | .get options key => (getCommand options key).assembled
  | .set key value => (setCommand key value).assembled
  | .multiGet options keys => (multiGetCommand options keys).assembled
  | .delete key => (deleteCommand key).assembled
  | .range options bounds => (rangeCommand options bounds).assembled
  | .rangeEntries options bounds => (rangeEntriesCommand options bounds).assembled
  | .revRangeEntries options bounds => (revRangeEntriesCommand options bounds).assembled
  | .keyPrefix options beginKey maxElements => (keyPrefixCommand options beginKey maxElements).assembled
  | .testAndSet key oldValue newValue => (testAndSetCommand key oldValue newValue).assembled
  | .sequence items => (sequenceImpl 0x10 items).map fun block => block.bytes fun _ => 0
  | .syncedSequence items => (sequenceImpl 0x24 items).map fun block => block.bytes fun _ => 0
  | .assert options key value => (assertCommand options key value).assembled
  | .assertExists options key => (assertExistsCommand options key).assembled
  | .deletePrefix start => (deletePrefixCommand start).assembled
  | .version => versionCommand.assembled
  | .userFunction name arg => (userFunctionCommand name arg).assembled

/-- The keys that follow the block. -/
def keys : Operation → List Bytes
  | .multiGet _ keys => keys
  | _ => []

/-- The bytes of a key in a `multi_get` request. -/
def keyBytes (value : Bytes) : Bytes := writeUInt32 value.length ++ value

/-- The whole request. -/
def frame (op : Operation) : Option Bytes := op.block.map fun bs => bs ++ op.keys.flatMap keyBytes

/-- The byte that the request starts with. -/
def code : Operation → UInt8
  | .hello _ _ => 0x01
  | .expectProgressPossible => 0x12
  | .exists _ _ => 0x07
  | .get _ _ => 0x08
  | .set _ _ => 0x09
  | .multiGet _ _ => 0x11
  | .delete _ => 0x0a
  | .range _ _ => 0x0b
  | .rangeEntries _ _ => 0x0f
  | .revRangeEntries _ _ => 0x23
  | .keyPrefix _ _ _ => 0x0c
  | .testAndSet _ _ _ => 0x0d
  | .sequence _ => 0x10
  | .syncedSequence _ => 0x24
  | .assert _ _ _ => 0x16
  | .assertExists _ _ => 0x29
  | .deletePrefix _ => 0x27
  | .version => 0x28
  | .userFunction _ _ => 0x15

/-- How many writes send the request. -/
def writeCount (op : Operation) : Nat := 1 + 2 * op.keys.length

/-- The operations that write with `_arakoon_cluster_node_write_bytes`, which leaves the connection open
when the write fails. -/
def writesUnchecked : Operation → Bool
  | .hello _ _ => true
  | .version => true
  | _ => false

def send : Operation → SessionM ArakoonRc
  | .multiGet options keys => sendMultiGet alloc options keys
  | op => sendBlock alloc (if op.writesUnchecked then clusterNodeWriteBytes else writeBytes) op.block

/-- The result variables when there is no master. -/
def notConnected : (op : Operation) → op.kind.Out → op.kind.Out
  | .userFunction _ _, _ => Data.null
  | _, result => result

/-- The result variables when the request is not sent. -/
def early : (op : Operation) → op.kind.Out → op.kind.Out
  | .multiGet _ _, _ => (none : Option ValueList)
  | .userFunction _ _, _ => Data.null
  | _, result => result

/-- The result variables when the reply is an error. -/
def failed : (op : Operation) → op.kind.Out → op.kind.Out
  | .get _ _, _ => Data.null
  | .multiGet _ _, _ => (none : Option ValueList)
  | .range _ _, _ => (none : Option ValueList)
  | .keyPrefix _ _ _, _ => (none : Option ValueList)
  | .rangeEntries _ _, _ => (none : Option KeyValueList)
  | .revRangeEntries _ _, _ => (none : Option KeyValueList)
  | .userFunction _ _, _ => Data.null
  | _, result => result

def decode : (op : Operation) → op.kind.Out → SessionM (ArakoonRc × op.kind.Out)
  | .hello _ _, _ => decodeText alloc
  | .expectProgressPossible, _ => decodeBool
  | .exists _ _, _ => decodeBool
  | .get _ _, result => decodeString alloc result
  | .set _ _, _ => decodeNothing
  | .multiGet _ _, _ => decodeList alloc
  | .delete _, _ => decodeNothing
  | .range _ _, _ => decodeList alloc
  | .rangeEntries _ _, _ => decodePairs alloc
  | .revRangeEntries _ _, _ => decodePairs alloc
  | .keyPrefix _ _ _, _ => decodeList alloc
  | .testAndSet _ _ _, result => decodeStringOption alloc result
  | .sequence _, _ => decodeNothing
  | .syncedSequence _, _ => decodeNothing
  | .assert _ _ _, _ => decodeNothing
  | .assertExists _ _, _ => decodeNothing
  | .deletePrefix _, result => decodeUInt32 result
  | .version, result => decodeVersion alloc result
  | .userFunction _ _, _ => do
      let (result, rc) ← readStringOption alloc .null 0
      pure (rc, result)

/-- Every operation is a member of the family. -/
theorem run_eq (op : Operation) (result : op.kind.Out) :
    run alloc op result = withMaster (op.notConnected result)
      (clientOperation alloc (op.early result) (op.failed result) (send alloc op) (decode alloc op result)) := by
  cases op <;> rfl

theorem assembled_begins {c : Command} {n0 : UInt8} {bs : Bytes} (h : c.assembled = some bs)
    (hwritten : ∃ rest, c.written = writeCommand n0 0x00 ++ rest) : ∃ rest, bs = writeCommand n0 0x00 ++ rest := by
  rw [Command.assembled] at h
  split_ifs at h
  obtain rfl := Option.some.inj h
  exact hwritten

theorem sequence_begins {n0 : UInt8} {items : Sequence} {bs : Bytes}
    (h : ((sequenceImpl n0 items).map fun block => block.bytes fun _ => 0) = some bs) :
    ∃ rest, bs = writeCommand n0 0x00 ++ rest := by
  obtain ⟨block, hblock, rfl⟩ := Option.map_eq_some_iff.mp h
  exact sequenceImpl_bytes hblock _

theorem block_begins {op : Operation} {bs : Bytes} (h : op.block = some bs) :
    ∃ rest, bs = writeCommand op.code 0x00 ++ rest := by
  cases op with
  | sequence items => exact sequence_begins h
  | syncedSequence items => exact sequence_begins h
  | expectProgressPossible => exact assembled_begins h ⟨[], (List.append_nil _).symm⟩
  | version => exact assembled_begins h ⟨[], (List.append_nil _).symm⟩
  | _ => exact assembled_begins h ⟨_, rfl⟩

/-- A request starts with its command. -/
theorem frame_begins {op : Operation} {frame : Bytes} (h : op.frame = some frame) :
    ∃ rest, frame = writeCommand op.code 0x00 ++ rest := by
  obtain ⟨bs, hblock, rfl⟩ := Option.map_eq_some_iff.mp h
  obtain ⟨rest, rfl⟩ := block_begins hblock
  exact ⟨rest ++ op.keys.flatMap keyBytes, List.append_assoc _ _ _⟩

end Operation

end Crakoon
