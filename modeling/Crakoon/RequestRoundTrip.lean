import Crakoon.Request
import Crakoon.SequenceRoundTrip
import Crakoon.Wire

/-!
# The requests decode uniquely

The reference decoder of the request format, over the whole command set, and its round trip with the
commands the operations put together. A request is what a command means: options resolved, null
pointers read as `None` and booleans as truth values.
-/

namespace Crakoon

open Reading

/-- The bounds of a range, as the server reads them. -/
structure RangeRequest where
  beginKey : Option Bytes
  beginKeyIncluded : Bool
  endKey : Option Bytes
  endKeyIncluded : Bool
  maxElements : Int
  deriving DecidableEq

/-- What a client says on a connection. -/
inductive Request where
  | prologue (version : Int) (clusterName : Bytes)
  | hello (clientId clusterId : Bytes)
  | whoMaster
  | expectProgressPossible
  | exists (allowDirty : Bool) (key : Bytes)
  | get (allowDirty : Bool) (key : Bytes)
  | set (key value : Bytes)
  | delete (key : Bytes)
  | range (allowDirty : Bool) (bounds : RangeRequest)
  | rangeEntries (allowDirty : Bool) (bounds : RangeRequest)
  | revRangeEntries (allowDirty : Bool) (bounds : RangeRequest)
  | keyPrefix (allowDirty : Bool) (beginKey : Bytes) (maxElements : Int)
  | testAndSet (key : Bytes) (oldValue newValue : Option Bytes)
  | assert (allowDirty : Bool) (key : Bytes) (value : Option Bytes)
  | assertExists (allowDirty : Bool) (key : Bytes)
  | deletePrefix (start : Bytes)
  | version
  | userFunction (name : Bytes) (arg : Option Bytes)
  | multiGet (allowDirty : Bool) (keys : List Bytes)
  | sequence (frame : SequenceFrame)
  | nurseryConfig
  deriving DecidableEq

def wireRange : Reader Unit UInt8 RangeRequest := do
  let beginKey ← wireStringOption
  let beginKeyIncluded ← wireBool
  let endKey ← wireStringOption
  let endKeyIncluded ← wireBool
  let maxElements ← wireInt32
  pure ⟨beginKey, beginKeyIncluded, endKey, endKeyIncluded, maxElements⟩

/-- A flag and a second argument. -/
def readDirty {α : Type} (rest : Reader Unit UInt8 α) (f : Bool → α → Request) : Reader Unit UInt8 Request := do
  let allowDirty ← wireBool
  let a ← rest
  pure (f allowDirty a)

/-- Two arguments. -/
def readPair {α β : Type} (first : Reader Unit UInt8 α) (second : Reader Unit UInt8 β) (f : α → β → Request) :
    Reader Unit UInt8 Request := do
  let a ← first
  let b ← second
  pure (f a b)

/-- The arguments of the command whose first byte is given. -/
def readArguments : UInt8 → Reader Unit UInt8 Request
  | 0x00 => readPair wireInt32 wireString .prologue
  | 0x01 => readPair wireString wireString .hello
  | 0x02 => pure .whoMaster
  | 0x07 => readDirty wireString .exists
  | 0x08 => readDirty wireString .get
  | 0x09 => readPair wireString wireString .set
  | 0x0a => do
      let key ← wireString
      pure (.delete key)
  | 0x0b => readDirty wireRange .range
  | 0x0c => do
      let allowDirty ← wireBool
      let beginKey ← wireString
      let maxElements ← wireInt32
      pure (.keyPrefix allowDirty beginKey maxElements)
  | 0x0d => do
      let key ← wireString
      readPair wireStringOption wireStringOption (.testAndSet key)
  | 0x0f => readDirty wireRange .rangeEntries
  | 0x10 => do
      let frame ← readSequenceBody 0x10
      pure (.sequence frame)
  | 0x11 => do
      let allowDirty ← wireBool
      let count ← u32 ()
      let keys ← times wireString count
      pure (.multiGet allowDirty keys)
  | 0x12 => pure .expectProgressPossible
  | 0x15 => readPair wireString wireStringOption .userFunction
  | 0x16 => do
      let allowDirty ← wireBool
      readPair wireString wireStringOption (.assert allowDirty)
  | 0x20 => pure .nurseryConfig
  | 0x23 => readDirty wireRange .revRangeEntries
  | 0x24 => do
      let frame ← readSequenceBody 0x24
      pure (.sequence frame)
  | 0x27 => do
      let start ← wireString
      pure (.deletePrefix start)
  | 0x28 => pure .version
  | 0x29 => readDirty wireString .assertExists
  | _ => fail ()

/-- A command, then its arguments. -/
def readRequest : Reader Unit UInt8 Request := do
  let command ← take () commandLen
  match command with
  | [n0, 0x00, 0xff, 0xb1] => readArguments n0
  | _ => fail ()

def dirtyOf (options : Option ClientCallOptions) : Bool := ArakoonBool.truth (readOptions options).allowDirty

def RangeBounds.request (bounds : RangeBounds) : RangeRequest where
  beginKey := bounds.beginKey.value
  beginKeyIncluded := ArakoonBool.truth bounds.beginKeyIncluded
  endKey := bounds.endKey.value
  endKeyIncluded := ArakoonBool.truth bounds.endKeyIncluded
  maxElements := bounds.maxElements

def BufferedOperation.request : BufferedOperation → Request
  | .hello clientId clusterId => .hello clientId.bytes clusterId.bytes
  | .whoMaster => .whoMaster
  | .expectProgressPossible => .expectProgressPossible
  | .exists options key => .exists (dirtyOf options) key
  | .get options key => .get (dirtyOf options) key
  | .set key value => .set key value
  | .delete key => .delete key
  | .range options bounds => .range (dirtyOf options) bounds.request
  | .rangeEntries options bounds => .rangeEntries (dirtyOf options) bounds.request
  | .revRangeEntries options bounds => .revRangeEntries (dirtyOf options) bounds.request
  | .keyPrefix options beginKey maxElements => .keyPrefix (dirtyOf options) beginKey maxElements
  | .testAndSet key oldValue newValue => .testAndSet key oldValue.value newValue.value
  | .assert options key value => .assert (dirtyOf options) key value.value
  | .assertExists options key => .assertExists (dirtyOf options) key
  | .deletePrefix start => .deletePrefix start
  | .version => .version
  | .userFunction name arg => .userFunction name.bytes arg.value

/-- What the library puts on a connection in one piece: the prologue or a request. -/
inductive Message where
  | prologue (clusterName : CString)
  | operation (op : BufferedOperation)

def Message.command : Message → Command
  | .prologue clusterName => prologueCommand clusterName
  | .operation op => op.command

def Message.request : Message → Request
  | .prologue clusterName => .prologue protocolVersion clusterName.bytes
  | .operation op => op.request

def RangeBounds.Fits (bounds : RangeBounds) : Prop :=
  bounds.beginKey.Short ∧ bounds.endKey.Short ∧ FitsInt32 bounds.maxElements

def BufferedOperation.Fits : BufferedOperation → Prop
  | .hello clientId clusterId => Short clientId.bytes ∧ Short clusterId.bytes
  | .whoMaster => True
  | .expectProgressPossible => True
  | .exists _ key => Short key
  | .get _ key => Short key
  | .set key value => Short key ∧ Short value
  | .delete key => Short key
  | .range _ bounds => bounds.Fits
  | .rangeEntries _ bounds => bounds.Fits
  | .revRangeEntries _ bounds => bounds.Fits
  | .keyPrefix _ beginKey maxElements => Short beginKey ∧ FitsInt32 maxElements
  | .testAndSet key oldValue newValue => Short key ∧ oldValue.Short ∧ newValue.Short
  | .assert _ key value => Short key ∧ value.Short
  | .assertExists _ key => Short key
  | .deletePrefix start => Short start
  | .version => True
  | .userFunction name arg => Short name.bytes ∧ arg.Short

def Message.Fits : Message → Prop
  | .prologue clusterName => Short clusterName.bytes
  | .operation op => op.Fits

/-! ### Fields and lengths -/

theorem parses_range {bounds : RangeBounds} (h : bounds.Fits) :
    Parses wireRange (writeStringOption bounds.beginKey ++ (writeBool bounds.beginKeyIncluded ++
      (writeStringOption bounds.endKey ++ (writeBool bounds.endKeyIncluded ++ writeInt32 bounds.maxElements))))
      bounds.request :=
  (parses_stringOption h.1).bind ((parses_bool _).bind ((parses_stringOption h.2.1).bind
    ((parses_bool _).bind ((parses_int32 h.2.2).map _))))

theorem parses_dirty {α : Type} {rest : Reader Unit UInt8 α} {bs : Bytes} {a : α} (f : Bool → α → Request)
    (options : Option ClientCallOptions) (h : Parses rest bs a) :
    Parses (readDirty rest f) (writeBool (readOptions options).allowDirty ++ bs) (f (dirtyOf options) a) :=
  (parses_bool _).bind (h.map _)

theorem parses_pair {α β : Type} {first : Reader Unit UInt8 α} {second : Reader Unit UInt8 β} {bs cs : Bytes}
    {a : α} {b : β} (f : α → β → Request) (hfirst : Parses first bs a) (hsecond : Parses second cs b) :
    Parses (readPair first second f) (bs ++ cs) (f a b) :=
  hfirst.bind (hsecond.map _)

/-- A request is its command followed by its arguments. -/
theorem parses_command (n0 : UInt8) {bs : Bytes} {r : Request} (h : Parses (readArguments n0) bs r) :
    Parses readRequest (writeCommand n0 0x00 ++ bs) r :=
  (Parses.take () (writeCommand_length n0 0x00)).bind h

theorem parses_operation {op : BufferedOperation} (h : op.Fits) :
    Parses readRequest op.command.written op.request := by
  cases op with
  | hello clientId clusterId =>
      rw [BufferedOperation.command, helloCommand, List.append_assoc]
      exact parses_command _ (parses_pair _ (parses_string h.1) (parses_string h.2))
  | whoMaster => exact parses_command 0x02 (Parses.pure _)
  | expectProgressPossible => exact parses_command 0x12 (Parses.pure _)
  | «exists» options key =>
      rw [BufferedOperation.command, existsCommand, keyReadCommand, List.append_assoc]
      exact parses_command _ (parses_dirty _ options (parses_string h))
  | get options key =>
      rw [BufferedOperation.command, getCommand, keyReadCommand, List.append_assoc]
      exact parses_command _ (parses_dirty _ options (parses_string h))
  | set key value =>
      rw [BufferedOperation.command, setCommand, List.append_assoc]
      exact parses_command _ (parses_pair _ (parses_string h.1) (parses_string h.2))
  | delete key => exact parses_command 0x0a ((parses_string h).map _)
  | range options bounds =>
      simp only [BufferedOperation.command, rangeCommand, rangeBoundsCommand, List.append_assoc]
      exact parses_command _ (parses_dirty _ options (parses_range h))
  | rangeEntries options bounds =>
      simp only [BufferedOperation.command, rangeEntriesCommand, rangeBoundsCommand, List.append_assoc]
      exact parses_command _ (parses_dirty _ options (parses_range h))
  | revRangeEntries options bounds =>
      simp only [BufferedOperation.command, revRangeEntriesCommand, rangeBoundsCommand, List.append_assoc]
      exact parses_command _ (parses_dirty _ options (parses_range h))
  | keyPrefix options beginKey maxElements =>
      simp only [BufferedOperation.command, keyPrefixCommand, List.append_assoc]
      exact parses_command _ ((parses_bool _).bind ((parses_string h.1).bind ((parses_int32 h.2).map _)))
  | testAndSet key oldValue newValue =>
      simp only [BufferedOperation.command, testAndSetCommand, List.append_assoc]
      exact parses_command _ ((parses_string h.1).bind
        (parses_pair _ (parses_stringOption h.2.1) (parses_stringOption h.2.2)))
  | assert options key value =>
      simp only [BufferedOperation.command, assertCommand, List.append_assoc]
      exact parses_command _ ((parses_bool _).bind (parses_pair _ (parses_string h.1) (parses_stringOption h.2)))
  | assertExists options key =>
      rw [BufferedOperation.command, assertExistsCommand, keyReadCommand, List.append_assoc]
      exact parses_command _ (parses_dirty _ options (parses_string h))
  | deletePrefix start => exact parses_command 0x27 ((parses_string h).map _)
  | version => exact parses_command 0x28 (Parses.pure _)
  | userFunction name arg =>
      rw [BufferedOperation.command, userFunctionCommand, List.append_assoc]
      exact parses_command _ (parses_pair _ (parses_string h.1) (parses_stringOption h.2))

theorem parses_message {m : Message} (h : m.Fits) : Parses readRequest m.command.written m.request := by
  cases m with
  | prologue clusterName =>
      rw [Message.command, prologueCommand, List.append_assoc]
      exact parses_command _ (parses_pair _ (parses_int32 (by decide : FitsInt32 1)) (parses_string h))
  | operation op => exact parses_operation h

theorem stringOptionLen_lt {s : StringOption} (h : s.Short) : stringOptionLen s < 2 ^ 32 + 5 := by
  cases s with
  | null size => simp [stringOptionLen]
  | data value =>
      have hvalue : value.length < 2 ^ 32 := h value rfl
      simp only [stringOptionLen, stringLen, uint32Len]
      omega

/-- A message computes the number of bytes it stores, up to the wrap-around of `size_t`. -/
theorem len_message (m : Message) : m.command.len = sizeT m.command.written.length := by
  rcases m with clusterName | op
  · simp [Message.command, prologueCommand, Nat.add_assoc]
  · cases op <;>
      simp [Message.command, BufferedOperation.command, helloCommand, whoMasterCommand,
        expectProgressPossibleCommand, existsCommand, getCommand, assertExistsCommand, keyReadCommand, setCommand,
        deleteCommand, deletePrefixCommand, stringCommand, rangeCommand, rangeEntriesCommand,
        revRangeEntriesCommand, rangeBoundsCommand, keyPrefixCommand, testAndSetCommand, assertCommand,
        versionCommand, userFunctionCommand, int32Len, uint32Len, Nat.add_assoc]

theorem rangeBoundsCommand_lt {bounds : RangeBounds} (h : bounds.Fits) (cmd1 cmd2 : UInt8)
    (options : Option ClientCallOptions) :
    (rangeBoundsCommand cmd1 cmd2 options bounds).written.length < 2 ^ 34 := by
  have hbegin := stringOptionLen_lt h.1
  have hend := stringOptionLen_lt h.2.1
  simp [rangeBoundsCommand, commandLen, boolLen, int32Len]
  omega

/-- Arguments that fit their fields make a message whose length fits `size_t`. -/
theorem written_lt_message {m : Message} (h : m.Fits) : m.command.written.length < 2 ^ 64 := by
  have hkey {s : Bytes} (hs : Short s) : stringLen s.length < 2 ^ 32 + 4 := by
    have hs : s.length < 2 ^ 32 := hs
    simp only [stringLen, uint32Len]
    omega
  rcases m with clusterName | op
  · have := hkey h
    simp [Message.command, prologueCommand, commandLen, int32Len]
    omega
  · rw [Message.command]
    cases op with
    | hello clientId clusterId =>
        have := hkey h.1
        have := hkey h.2
        simp [BufferedOperation.command, helloCommand, commandLen]
        omega
    | whoMaster => decide
    | expectProgressPossible => decide
    | «exists» options key | get options key | assertExists options key =>
        have := hkey h
        simp [BufferedOperation.command, existsCommand, getCommand, assertExistsCommand, keyReadCommand, commandLen,
          boolLen]
        omega
    | set key value =>
        have := hkey h.1
        have := hkey h.2
        simp [BufferedOperation.command, setCommand, commandLen]
        omega
    | delete key | deletePrefix key =>
        have := hkey h
        simp [BufferedOperation.command, deleteCommand, deletePrefixCommand, stringCommand, commandLen]
        omega
    | range options bounds | rangeEntries options bounds | revRangeEntries options bounds =>
        exact (rangeBoundsCommand_lt h _ _ options).trans (by decide)
    | keyPrefix options beginKey maxElements =>
        have := hkey h.1
        simp [BufferedOperation.command, keyPrefixCommand, commandLen, boolLen, int32Len]
        omega
    | testAndSet key oldValue newValue =>
        have := hkey h.1
        have := stringOptionLen_lt h.2.1
        have := stringOptionLen_lt h.2.2
        simp [BufferedOperation.command, testAndSetCommand, commandLen]
        omega
    | assert options key value =>
        have := hkey h.1
        have := stringOptionLen_lt h.2
        simp [BufferedOperation.command, assertCommand, commandLen, boolLen]
        omega
    | version => decide
    | userFunction name arg =>
        have := hkey h.1
        have := stringOptionLen_lt h.2
        simp [BufferedOperation.command, userFunctionCommand, commandLen]
        omega

/-- Every message is stored in exactly the block its length computed, so no assertion fails, and it decodes to
its command and arguments whatever follows. No message is a prefix of another one, except of itself. -/
theorem message_round_trip (m : Message) (h : m.Fits) :
    m.command.written.length = m.command.len ∧
    m.command.assembled = some m.command.written ∧
    (∀ rest, readRequest.run (m.command.written ++ rest) = .ok (m.request, rest)) ∧
    ∀ m' : Message, m'.Fits → m.command.written <+: m'.command.written →
      m.request = m'.request ∧ m.command.written = m'.command.written := by
  have hlen : m.command.len = m.command.written.length := by
    rw [len_message, sizeT_of_lt (written_lt_message h)]
  refine ⟨hlen.symm, Command.assembled_of_length hlen.symm, fun rest => parses_message h rest, fun m' h' hfront => ?_⟩
  exact (parses_message h).eq_of_isPrefix (parses_message h') hfront

/-- A range with an open end and an empty begin key. -/
theorem message_round_trip_range :
    let bounds : RangeBounds := ⟨.data [], boolTrue, .null 7, boolFalse, -1⟩
    let m := Message.operation (.range none bounds)
    m.command.written.length = 17 ∧
      readRequest.run (m.command.written ++ [1, 2]) =
        .ok (.range false ⟨some [], true, none, false, -1⟩, [1, 2]) := by
  intro bounds m
  have hfits : m.Fits := by
    refine ⟨fun value h => ?_, fun value h => ?_, by decide⟩
    · obtain rfl : ([] : Bytes) = value := by injection h
      exact Nat.two_pow_pos 32
    · cases h
  obtain ⟨-, -, hread, -⟩ := message_round_trip m hfits
  exact ⟨by decide, hread [1, 2]⟩

end Crakoon
