import Crakoon.MultiGetStream
import Crakoon.Operation

/-!
# The requests of all operations

Every operation whose arguments fit their fields sends one request, which the reference decoder reads off the
front of what a server receives (`parses_frame`). The requests that are put together in one block, the one that is
streamed and those that are written back to front are the same to a server.
-/

namespace Crakoon

open Reading

namespace Operation

/-- The arguments fit their fields. -/
def Admissible : Operation → Prop
  | .hello clientId clusterId => Short clientId.bytes ∧ Short clusterId.bytes
  | .expectProgressPossible => True
  | .exists _ key => Short key
  | .get _ key => Short key
  | .set key value => Short key ∧ Short value
  | .multiGet _ keys => keys.length < 2 ^ 32 ∧ ∀ key ∈ keys, Short key
  | .delete key => Short key
  | .range _ bounds => bounds.Fits
  | .rangeEntries _ bounds => bounds.Fits
  | .revRangeEntries _ bounds => bounds.Fits
  | .keyPrefix _ beginKey maxElements => Short beginKey ∧ FitsInt32 maxElements
  | .testAndSet key oldValue newValue => Short key ∧ oldValue.Short ∧ newValue.Short
  | .sequence seq => sequenceTotal seq.items < 2 ^ 32
  | .syncedSequence seq => sequenceTotal seq.items < 2 ^ 32
  | .assert _ key value => Short key ∧ value.Short
  | .assertExists _ key => Short key
  | .deletePrefix start => Short start
  | .version => True
  | .userFunction name arg => Short name.bytes ∧ arg.Short

/-- A sequence as a server reads it: the items in the order in which they were added. -/
def sequenceFrame (code : UInt8) (seq : Sequence) : SequenceFrame where
  code := code
  total := sequenceTotal seq.items - uint32Len - commandLen
  count := seq.items.length
  items := seq.items.reverse

/-- What the operation asks of a server. -/
def request : Operation → Request
  | .hello clientId clusterId => .hello clientId.bytes clusterId.bytes
  | .expectProgressPossible => .expectProgressPossible
  | .exists options key => .exists (dirtyOf options) key
  | .get options key => .get (dirtyOf options) key
  | .set key value => .set key value
  | .multiGet options keys => .multiGet (dirtyOf options) keys
  | .delete key => .delete key
  | .range options bounds => .range (dirtyOf options) bounds.request
  | .rangeEntries options bounds => .rangeEntries (dirtyOf options) bounds.request
  | .revRangeEntries options bounds => .revRangeEntries (dirtyOf options) bounds.request
  | .keyPrefix options beginKey maxElements => .keyPrefix (dirtyOf options) beginKey maxElements
  | .testAndSet key oldValue newValue => .testAndSet key oldValue.value newValue.value
  | .sequence seq => .sequence (sequenceFrame 0x10 seq)
  | .syncedSequence seq => .sequence (sequenceFrame 0x24 seq)
  | .assert options key value => .assert (dirtyOf options) key value.value
  | .assertExists options key => .assertExists (dirtyOf options) key
  | .deletePrefix start => .deletePrefix start
  | .version => .version
  | .userFunction name arg => .userFunction name.bytes arg.value

theorem parses_buffered {op : Operation} {b : BufferedOperation} (hb : b.Fits)
    (hframe : op.frame = b.command.assembled.map fun bs => bs ++ []) (hrequest : op.request = b.request) :
    ∃ frame, op.frame = some frame ∧ Parses readRequest frame op.request := by
  have hlen : b.command.len = b.command.written.length := by
    have hmessage := len_message (.operation b)
    rw [sizeT_of_lt (written_lt_message (m := .operation b) hb)] at hmessage
    exact hmessage
  refine ⟨b.command.written, ?_, ?_⟩
  · rw [hframe, Command.assembled_of_length hlen.symm, Option.map_some, List.append_nil]
  · rw [hrequest]
    exact parses_operation hb

theorem parses_reversed {op : Operation} {code : UInt8} {seq : Sequence}
    (hfits : sequenceTotal seq.items < 2 ^ 32)
    (hframe : op.frame =
      ((sequenceImpl code seq).map fun block => block.bytes fun _ => 0).map fun bs => bs ++ [])
    (hread : Parses (readArguments code) (le32 (sequenceTotal seq.items - uint32Len - commandLen) ++
      (le32 5 ++ (le32 seq.items.length ++ seq.items.reverse.flatMap sequenceItemBytes))) op.request) :
    ∃ frame, op.frame = some frame ∧ Parses readRequest frame op.request := by
  have hcount := length_le_sequenceTotal seq.items
  have htotal : sequenceTotal seq.items.reverse < 2 ^ 64 := by
    rw [sequenceTotal_reverse]
    omega
  have hitems : seq.items.reverse.length < 2 ^ 32 := by
    rw [List.length_reverse]
    omega
  obtain ⟨block, himpl, -, hlaid, hbytes⟩ := sequenceImpl_spec code htotal hitems
  rw [List.reverse_reverse] at himpl
  refine ⟨sequenceBytes code seq.items.reverse, ?_, ?_⟩
  · rw [hframe, himpl, Option.map_some, bytes_of_laid _ hlaid, hbytes, Option.map_some, List.append_nil]
  · rw [sequenceBytes, sequenceTotal_reverse, List.length_reverse]
    exact parses_command code hread

/-- What follows the command of a sequence, whose items are kept in reverse. -/
theorem parses_reversedBody (code : UInt8) {seq : Sequence} (h : sequenceTotal seq.items < 2 ^ 32) :
    Parses (readSequenceBody code) (le32 (sequenceTotal seq.items - uint32Len - commandLen) ++
      (le32 5 ++ (le32 seq.items.length ++ seq.items.reverse.flatMap sequenceItemBytes)))
      (sequenceFrame code seq) := by
  have htotal : sequenceTotal seq.items.reverse < 2 ^ 32 := by rwa [sequenceTotal_reverse]
  have hbody := parses_sequenceBody code htotal
  rw [sequenceTotal_reverse, List.length_reverse] at hbody
  exact hbody

/-- Arguments that fit make one request, and a server reads it as the operation it is. -/
theorem parses_frame {op : Operation} (h : op.Admissible) :
    ∃ frame, op.frame = some frame ∧ Parses readRequest frame op.request := by
  cases op with
  | hello clientId clusterId => exact parses_buffered (b := .hello clientId clusterId) h rfl rfl
  | expectProgressPossible => exact parses_buffered (b := .expectProgressPossible) trivial rfl rfl
  | «exists» options key => exact parses_buffered (b := .exists options key) h rfl rfl
  | get options key => exact parses_buffered (b := .get options key) h rfl rfl
  | set key value => exact parses_buffered (b := .set key value) h rfl rfl
  | multiGet options keys =>
      have hassembled : (multiGetCommand options keys).assembled = some (multiGetCommand options keys).written :=
        Command.assembled_of_length rfl
      refine ⟨multiGetFrame options keys, ?_, parses_multiGetFrame options h.1 h.2⟩
      rw [frame, block, hassembled]
      rfl
  | delete key => exact parses_buffered (b := .delete key) h rfl rfl
  | range options bounds => exact parses_buffered (b := .range options bounds) h rfl rfl
  | rangeEntries options bounds => exact parses_buffered (b := .rangeEntries options bounds) h rfl rfl
  | revRangeEntries options bounds => exact parses_buffered (b := .revRangeEntries options bounds) h rfl rfl
  | keyPrefix options beginKey maxElements =>
      exact parses_buffered (b := .keyPrefix options beginKey maxElements) h rfl rfl
  | testAndSet key oldValue newValue => exact parses_buffered (b := .testAndSet key oldValue newValue) h rfl rfl
  | sequence seq =>
      exact parses_reversed h rfl ((parses_reversedBody 0x10 h).map Request.sequence)
  | syncedSequence seq =>
      exact parses_reversed h rfl ((parses_reversedBody 0x24 h).map Request.sequence)
  | assert options key value => exact parses_buffered (b := .assert options key value) h rfl rfl
  | assertExists options key => exact parses_buffered (b := .assertExists options key) h rfl rfl
  | deletePrefix start => exact parses_buffered (b := .deletePrefix start) h rfl rfl
  | version => exact parses_buffered (b := .version) trivial rfl rfl
  | userFunction name arg => exact parses_buffered (b := .userFunction name arg) h rfl rfl

end Operation

end Crakoon
