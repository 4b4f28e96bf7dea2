import Crakoon.Sequence

/-!
# The requests of the operations

What each operation computes as the length of its command and what it then stores there, in the
order of the source, and the prologue that introduces a connection. `Operation` lists the client
operations with their arguments; the flag `allow_dirty` is the one the call options hold.
-/

namespace Crakoon

/-- `ArakoonClientCallOptions`, as far as a request depends on it. -/
structure ClientCallOptions where
  allowDirty : ArakoonBool
  deriving DecidableEq

/-- `_arakoon_client_call_options_get_default` -/
def clientCallOptionsDefault : ClientCallOptions := ⟨boolFalse⟩

/-- `READ_OPTIONS`: a null pointer stands for the defaults. -/
def readOptions (options : Option ClientCallOptions) : ClientCallOptions := options.getD clientCallOptionsDefault

/-- The prologue of `_arakoon_cluster_node_connect`. -/
def prologueCommand (name : CString) : Command where
  len := sizeT (commandLen + int32Len + stringLen name.bytes.length)
  written := writeCommand 0 0 ++ writeInt32 protocolVersion ++ writeString name.bytes

def helloCommand (clientId clusterId : CString) : Command where
  len := sizeT (commandLen + stringLen clientId.bytes.length + stringLen clusterId.bytes.length)
  written := writeCommand 0x01 0x00 ++ writeString clientId.bytes ++ writeString clusterId.bytes

def whoMasterCommand : Command where
  len := sizeT commandLen
  written := writeCommand 0x02 0x00

def expectProgressPossibleCommand : Command where
  len := sizeT commandLen
  written := writeCommand 0x12 0x00

/-- The request of a key read: `arakoon_exists`, `arakoon_get` and `arakoon_assert_exists` differ in
their command byte alone. -/
def keyReadCommand (n0 : UInt8) (options : Option ClientCallOptions) (key : Bytes) : Command where
  len := sizeT (commandLen + boolLen + stringLen key.length)
  written := writeCommand n0 0x00 ++ writeBool (readOptions options).allowDirty ++ writeString key

def existsCommand (options : Option ClientCallOptions) (key : Bytes) : Command := keyReadCommand 0x07 options key
def getCommand (options : Option ClientCallOptions) (key : Bytes) : Command := keyReadCommand 0x08 options key
def assertExistsCommand (options : Option ClientCallOptions) (key : Bytes) : Command :=
  keyReadCommand 0x29 options key

def setCommand (key value : Bytes) : Command where
  len := sizeT (commandLen + stringLen key.length + stringLen value.length)
  written := writeCommand 0x09 0x00 ++ writeString key ++ writeString value

/-- A request that holds one string: `arakoon_delete` and `arakoon_delete_prefix`. -/
def stringCommand (n0 : UInt8) (s : Bytes) : Command where
  len := sizeT (commandLen + stringLen s.length)
  written := writeCommand n0 0x00 ++ writeString s

def deleteCommand (key : Bytes) : Command := stringCommand 0x0a key
def deletePrefixCommand (start : Bytes) : Command := stringCommand 0x27 start

/-- The bounds of a range: the begin key, the end key, whether each is included, and the number of
elements asked for. -/
structure RangeBounds where
  beginKey : StringOption
  beginKeyIncluded : ArakoonBool
  endKey : StringOption
  endKeyIncluded : ArakoonBool
  maxElements : Int
  deriving DecidableEq

/-- The request of `arakoon_range` and of `_arakoon_range_helper`. -/
def rangeBoundsCommand (cmd1 cmd2 : UInt8) (options : Option ClientCallOptions) (bounds : RangeBounds) : Command where
  len := sizeT (commandLen + boolLen + stringOptionLen bounds.beginKey + boolLen + stringOptionLen bounds.endKey +
    boolLen + int32Len)
  written := writeCommand cmd1 cmd2 ++ writeBool (readOptions options).allowDirty ++
    writeStringOption bounds.beginKey ++ writeBool bounds.beginKeyIncluded ++
    writeStringOption bounds.endKey ++ writeBool bounds.endKeyIncluded ++ writeInt32 bounds.maxElements

def rangeCommand (options : Option ClientCallOptions) (bounds : RangeBounds) : Command :=
  rangeBoundsCommand 0x0b 0x00 options bounds

def rangeEntriesCommand (options : Option ClientCallOptions) (bounds : RangeBounds) : Command :=
  rangeBoundsCommand 0x0f 0x00 options bounds

def revRangeEntriesCommand (options : Option ClientCallOptions) (bounds : RangeBounds) : Command :=
  rangeBoundsCommand 0x23 0x00 options bounds

/-- The length counts an unsigned word where a signed one is written, and the cursor is not checked. -/
def keyPrefixCommand (options : Option ClientCallOptions) (beginKey : Bytes) (maxElements : Int) : Command where
  len := sizeT (commandLen + boolLen + stringLen beginKey.length + uint32Len)
  written := writeCommand 0x0c 0x00 ++ writeBool (readOptions options).allowDirty ++ writeString beginKey ++
    writeInt32 maxElements

def testAndSetCommand (key : Bytes) (oldValue newValue : StringOption) : Command where
  len := sizeT (commandLen + stringLen key.length + stringOptionLen oldValue + stringOptionLen newValue)
  written := writeCommand 0x0d 0x00 ++ writeString key ++ writeStringOption oldValue ++ writeStringOption newValue

def assertCommand (options : Option ClientCallOptions) (key : Bytes) (value : StringOption) : Command where
  len := sizeT (commandLen + boolLen + stringLen key.length + stringOptionLen value)
  written := writeCommand 0x16 0x00 ++ writeBool (readOptions options).allowDirty ++ writeString key ++
    writeStringOption value

def versionCommand : Command where
  len := sizeT commandLen
  written := writeCommand 0x28 0x00

def userFunctionCommand (userFunction : CString) (arg : StringOption) : Command where
  len := sizeT (commandLen + stringLen userFunction.bytes.length + stringOptionLen arg)
  written := writeCommand 0x15 0x00 ++ writeString userFunction.bytes ++ writeStringOption arg

/-- The part of a `multi_get` request that is put together before the keys are streamed. -/
def multiGetCommand (options : Option ClientCallOptions) (keys : List Bytes) : Command where
  len := sizeT (commandLen + boolLen + uint32Len)
  written := writeCommand 0x11 0x00 ++ writeBool (readOptions options).allowDirty ++ writeUInt32 keys.length

/-- The request of `arakoon_nursery_update_routing`. -/
def nurseryConfigCommand : Command where
  len := sizeT commandLen
  written := writeCommand 0x20 0x00

/-- The operations that put their request together in one block and write it with one call. -/
inductive BufferedOperation where
  | hello (clientId clusterId : CString)
  | whoMaster
  | expectProgressPossible
  | exists (options : Option ClientCallOptions) (key : Bytes)
  | get (options : Option ClientCallOptions) (key : Bytes)
  | set (key value : Bytes)
  | delete (key : Bytes)
  | range (options : Option ClientCallOptions) (bounds : RangeBounds)
  | rangeEntries (options : Option ClientCallOptions) (bounds : RangeBounds)
  | revRangeEntries (options : Option ClientCallOptions) (bounds : RangeBounds)
  | keyPrefix (options : Option ClientCallOptions) (beginKey : Bytes) (maxElements : Int)
  | testAndSet (key : Bytes) (oldValue newValue : StringOption)
  | assert (options : Option ClientCallOptions) (key : Bytes) (value : StringOption)
  | assertExists (options : Option ClientCallOptions) (key : Bytes)
  | deletePrefix (start : Bytes)
  | version
  | userFunction (name : CString) (arg : StringOption)

def BufferedOperation.command : BufferedOperation → Command
  | .hello clientId clusterId => helloCommand clientId clusterId
  | .whoMaster => whoMasterCommand
  | .expectProgressPossible => expectProgressPossibleCommand
  | .exists options key => existsCommand options key
  | .get options key => getCommand options key
  | .set key value => setCommand key value
  | .delete key => deleteCommand key
  | .range options bounds => rangeCommand options bounds
  | .rangeEntries options bounds => rangeEntriesCommand options bounds
  | .revRangeEntries options bounds => revRangeEntriesCommand options bounds
  | .keyPrefix options beginKey maxElements => keyPrefixCommand options beginKey maxElements
  | .testAndSet key oldValue newValue => testAndSetCommand key oldValue newValue
  | .assert options key value => assertCommand options key value
  | .assertExists options key => assertExistsCommand options key
  | .deletePrefix start => deletePrefixCommand start
  | .version => versionCommand
  | .userFunction name arg => userFunctionCommand name arg

end Crakoon
