import Crakoon.Commands
import Crakoon.Connect
import Crakoon.Operation

/-!
# What the operations do with a node

The macros and functions of the library touch memory, the connection of a node and the last error through few
functions only: the memory hooks, `_arakoon_cluster_node_write_bytes`, `_arakoon_networking_poll_read`,
`_arakoon_cluster_node_disconnect` and `_arakoon_cluster_set_last_error`. `NodeCommand` lists the calls of these, and
every request and every decoder is shown to be made of them.
-/

namespace Crakoon

open Programs

inductive NodeCommand where
  | malloc
  | realloc (p : Ptr)
  | free (p : Ptr)
  | write (bs : Bytes)
  | read (n : Nat)
  | disconnect
  | setLastError (msg : Data)
  /-- An assertion fails. -/
  | abort

namespace NodeCommand

/-- What the caller gets. -/
def Answer : NodeCommand → Type
  | .malloc => Option Nat
  | .realloc _ => Option Nat
  | .free _ => Unit
  | .write _ => ArakoonRc
  | .read _ => ArakoonRc × Bytes
  | .disconnect => Unit
  | .setLastError _ => Unit
  | .abort => Empty

def perform (alloc : Nat → Bool) : (c : NodeCommand) → SessionM c.Answer
  | .malloc => memNew alloc
  | .realloc p => memRealloc alloc p
  | .free p => memFree p
  | .write bs => clusterNodeWriteBytes bs
  | .read n => clusterNodeReadBytes n
  | .disconnect => clusterNodeDisconnect
  | .setLastError msg => fun s => some ((), { s with lastError := msg })
  | .abort => fun _ => none

/-- No block is resized. -/
def Steady : NodeCommand → Prop
  | .realloc _ => False
  | _ => True

/-- No assertion fails. -/
def Returns : NodeCommand → Prop
  | .abort => False
  | _ => True

end NodeCommand

/-- The program is made of commands of a kind. -/
abbrev Gives {α : Type} (alloc : Nat → Bool) (ok : NodeCommand → Prop) (m : SessionM α) : Prop :=
  Composed (ρ := NodeCommand.Answer) (NodeCommand.perform alloc) ok m

abbrev GivesSteady {α : Type} (alloc : Nat → Bool) (m : SessionM α) : Prop := Gives alloc NodeCommand.Steady m

abbrev GivesAny {α : Type} (alloc : Nat → Bool) (m : SessionM α) : Prop := Gives alloc (fun _ => True) m

section Programs

variable {alloc : Nat → Bool} {α : Type} {m : SessionM α}

theorem Gives.any {ok : NodeCommand → Prop} (h : Gives alloc ok m) : GivesAny alloc m := h.mono fun _ _ => trivial

theorem Gives.command {ok : NodeCommand → Prop} (c : NodeCommand) (hc : ok c) : Gives alloc ok (c.perform alloc) :=
  Composed.command hc

theorem gives_memNew : GivesSteady alloc (memNew alloc) := Gives.command .malloc trivial

theorem gives_memRealloc (p : Ptr) : GivesAny alloc (memRealloc alloc p) := Gives.command (.realloc p) trivial

theorem gives_memFree (p : Ptr) : GivesSteady alloc (memFree p) := Gives.command (.free p) trivial

theorem gives_memMaybeFree (d : Data) : GivesSteady alloc (memMaybeFree d) :=
  .ite (fun _ => gives_memFree d.ptr) fun _ => .pure ()

theorem gives_utilsMakeString (d : Data) : GivesAny alloc (utilsMakeString alloc d) := by
  refine (gives_memRealloc d.ptr).bind fun id => ?_
  cases id with
  | none => exact (gives_memFree d.ptr).any.bind fun _ => .pure _
  | some id => exact .pure _

theorem gives_disconnect : GivesSteady alloc clusterNodeDisconnect := Gives.command .disconnect trivial

theorem gives_clusterNodeWriteBytes (bs : Bytes) : GivesSteady alloc (clusterNodeWriteBytes bs) :=
  Gives.command (.write bs) trivial

theorem gives_writeBytes (bs : Bytes) : GivesSteady alloc (writeBytes bs) := by
  refine (gives_clusterNodeWriteBytes bs).bind fun rc => ?_
  by_cases hrc : rc = 0
  · rw [if_neg (not_ne_iff.mpr hrc)]
    exact .pure rc
  · rw [if_pos hrc]
    exact gives_disconnect.bind fun _ => .pure rc

theorem gives_readBytes (n : Nat) : GivesSteady alloc (readBytes n) := by
  have hread : GivesSteady alloc (clusterNodeReadBytes n) := Gives.command (.read n) trivial
  refine hread.bind fun out => ?_
  by_cases hrc : out.1 = 0
  · rw [if_neg (not_ne_iff.mpr hrc)]
    exact .pure out
  · rw [if_pos hrc]
    exact gives_disconnect.bind fun _ => .pure out

theorem gives_readUInt32 (r : Nat) : GivesSteady alloc (readUInt32 r) :=
  (gives_readBytes 4).bind fun _ => .ite (fun _ => .pure _) fun _ => .pure _

theorem gives_readInt32 (r : Int) : GivesSteady alloc (readInt32 r) :=
  (gives_readBytes 4).bind fun _ => .ite (fun _ => .pure _) fun _ => .pure _

theorem gives_readRc : GivesSteady alloc readRc :=
  (gives_readUInt32 0).bind fun _ => .ite (fun _ => .pure _) fun _ => .pure _

theorem gives_readBool : GivesSteady alloc readBool :=
  (gives_readBytes 1).bind fun _ => .ite (fun _ => .pure _) fun _ => .pure _

theorem gives_readString (a : Data) (rc : ArakoonRc) : GivesSteady alloc (readString alloc a rc) := by
  refine (gives_readUInt32 0).bind fun l => .ite (fun _ => .pure _) fun _ => .ite (fun _ => .pure _) fun _ => ?_
  refine gives_memNew.bind fun id => ?_
  cases id with
  | none => exact .pure _
  | some id =>
      exact (gives_readBytes l.1).bind fun _ =>
        .ite (fun _ => .pure _) fun _ => (gives_memFree _).bind fun _ => .pure _

theorem gives_readStringOption (a : Data) (rc : ArakoonRc) : GivesSteady alloc (readStringOption alloc a rc) :=
  (gives_readBytes 1).bind fun _ =>
    .ite (fun _ => .pure _) fun _ => .ite (fun _ => .pure _) fun _ => gives_readString a rc

theorem gives_handleError (rc : ArakoonRc) : GivesSteady alloc (handleError alloc rc) := by
  refine .ite (fun _ => ?_) fun _ => .pure _
  refine (gives_readString .null 0).bind fun out => .ite (fun _ => .pure _) fun _ => ?_
  exact Gives.command (.setLastError out.1) trivial

theorem gives_copyValue (value : Data) : GivesSteady alloc (copyValue alloc value) := by
  refine .ite (fun _ => .pure _) fun _ => gives_memNew.bind fun id => ?_
  cases id with
  | none => exact .pure _
  | some id => exact .pure _

theorem gives_valueListPrepend (list : ValueList) (value : Data) :
    GivesSteady alloc (valueListPrepend alloc list value) := by
  refine gives_memNew.bind fun item => ?_
  cases item with
  | none => exact .pure _
  | some item =>
      refine (gives_copyValue value).bind fun copy => ?_
      cases copy with
      | none => exact (gives_memFree _).bind fun _ => .pure _
      | some copy => exact .pure _

theorem gives_keyValueListPrepend (list : KeyValueList) (key value : Data) :
    GivesSteady alloc (keyValueListPrepend alloc list key value) := by
  refine gives_memNew.bind fun item => ?_
  cases item with
  | none => exact .pure _
  | some item =>
      refine (gives_copyValue key).bind fun keyCopy => ?_
      cases keyCopy with
      | none => exact (gives_memFree _).bind fun _ => .pure _
      | some keyCopy =>
          refine (gives_copyValue value).bind fun valueCopy => ?_
          cases valueCopy with
          | none => exact (gives_memFree _).bind fun _ => (gives_memFree _).bind fun _ => .pure _
          | some valueCopy => exact .pure _

theorem gives_valueListFree (list : ValueList) : GivesSteady alloc (valueListFree list) := by
  have hitems : ∀ items, GivesSteady alloc (valueListItemsFree items) := by
    intro items
    induction items with
    | nil => exact .pure ()
    | cons item items ih => exact (gives_memMaybeFree item.value).bind fun _ => (gives_memFree _).bind fun _ => ih
  exact (hitems list.items).bind fun _ => gives_memFree _

theorem gives_keyValueListFree (list : KeyValueList) : GivesSteady alloc (keyValueListFree list) := by
  have hitems : ∀ items, GivesSteady alloc (keyValueListItemsFree items) := by
    intro items
    induction items with
    | nil => exact .pure ()
    | cons item items ih =>
        exact (gives_memMaybeFree item.key).bind fun _ =>
          (gives_memMaybeFree item.value).bind fun _ => (gives_memFree _).bind fun _ => ih
  exact (hitems list.items).bind fun _ => gives_memFree _

theorem gives_readStrings (cnt : Nat) (a : ValueList) (rc : ArakoonRc) :
    GivesSteady alloc (readStrings alloc cnt a rc) := by
  induction cnt generalizing a rc with
  | zero => exact .pure _
  | succ cnt ih =>
      refine (gives_readString .null rc).bind fun s => .ite (fun _ => .pure _) fun _ => ?_
      refine (gives_valueListPrepend a s.1).bind fun out => (gives_memMaybeFree s.1).bind fun _ => ?_
      exact .ite (fun _ => .pure _) fun _ => ih out.1 out.2

theorem gives_readStringPairs (cnt : Nat) (a : KeyValueList) (rc : ArakoonRc) :
    GivesSteady alloc (readStringPairs alloc cnt a rc) := by
  induction cnt generalizing a rc with
  | zero => exact .pure _
  | succ cnt ih =>
      refine (gives_readString .null rc).bind fun s0 => .ite (fun _ => .pure _) fun _ => ?_
      refine (gives_readString .null s0.2).bind fun s1 => .ite (fun _ => ?_) fun _ => ?_
      · exact (gives_memMaybeFree s0.1).bind fun _ => .pure _
      · refine (gives_keyValueListPrepend a s0.1 s1.1).bind fun out => ?_
        refine (gives_memMaybeFree s0.1).bind fun _ => (gives_memMaybeFree s1.1).bind fun _ => ?_
        exact .ite (fun _ => .pure _) fun _ => ih out.1 out.2

theorem gives_readStringList (a : ValueList) : GivesSteady alloc (readStringList alloc a) :=
  (gives_readUInt32 0).bind fun cnt => .ite (fun _ => gives_readStrings cnt.1 a cnt.2) fun _ => .pure _

theorem gives_readStringStringList (a : KeyValueList) : GivesSteady alloc (readStringStringList alloc a) :=
  (gives_readUInt32 0).bind fun cnt => .ite (fun _ => gives_readStringPairs cnt.1 a cnt.2) fun _ => .pure _

/-! ### Requests and results -/

theorem gives_assertAllWritten (block : Option Bytes) : GivesSteady alloc (assertAllWritten block) := by
  cases block with
  | some bs => exact .pure bs
  | none => exact ⟨.give NodeCommand.abort fun r => Empty.elim r, ⟨trivial, fun r => Empty.elim r⟩, rfl⟩

theorem gives_sendBlock {write : Bytes → SessionM ArakoonRc} (hwrite : ∀ bs, GivesSteady alloc (write bs))
    (block : Option Bytes) : GivesSteady alloc (sendBlock alloc write block) := by
  refine gives_memNew.bind fun command => ?_
  cases command with
  | none => exact .pure _
  | some command =>
      exact (gives_assertAllWritten block).bind fun bs => (hwrite bs).bind fun _ =>
        (gives_memFree _).bind fun _ => .pure _

theorem gives_sendCommand (c : Command) : GivesSteady alloc (sendCommand alloc c) :=
  gives_sendBlock gives_writeBytes c.assembled

theorem gives_multiGetKeys (keys : List Bytes) : GivesSteady alloc (multiGetKeys keys) := by
  induction keys with
  | nil => exact .pure _
  | cons value keys ih =>
      refine (gives_writeBytes _).bind fun _ => .ite (fun _ => .pure _) fun _ => ?_
      exact (gives_writeBytes value).bind fun _ => .ite (fun _ => .pure _) fun _ => ih

theorem gives_sendMultiGet (options : Option ClientCallOptions) (keys : List Bytes) :
    GivesSteady alloc (sendMultiGet alloc options keys) := by
  refine (gives_sendCommand _).bind fun _ => .ite (fun _ => .pure _) fun _ => gives_memNew.bind fun iter => ?_
  cases iter with
  | none => exact .pure _
  | some iter =>
      refine (gives_multiGetKeys keys).bind fun _ => .ite (fun _ => .pure _) fun _ => ?_
      exact (gives_memFree _).bind fun _ => .pure _

theorem gives_send (op : Operation) : GivesSteady alloc (Operation.send alloc op) := by
  have hone : GivesSteady alloc
      (sendBlock alloc (if op.writesUnchecked then clusterNodeWriteBytes else writeBytes) op.block) := by
    cases op.writesUnchecked with
    | true => exact gives_sendBlock gives_clusterNodeWriteBytes op.block
    | false => exact gives_sendBlock gives_writeBytes op.block
  cases op with
  | multiGet options keys => exact gives_sendMultiGet options keys
  | _ => exact hone

theorem gives_decodeBool : GivesSteady alloc decodeBool := gives_readBool.bind fun _ => .pure _

theorem gives_decodeUInt32 (result : Nat) : GivesSteady alloc (decodeUInt32 result) :=
  (gives_readUInt32 result).bind fun _ => .ite (fun _ => .pure _) fun _ => .pure _

theorem gives_decodeString (result : Data) : GivesSteady alloc (decodeString alloc result) :=
  (gives_readString result 0).bind fun _ => .ite (fun _ => .pure _) fun _ => .pure _

theorem gives_decodeStringOption (result : Data) : GivesSteady alloc (decodeStringOption alloc result) :=
  (gives_readStringOption result 0).bind fun _ => .ite (fun _ => .pure _) fun _ => .pure _

theorem gives_decodeText : GivesAny alloc (decodeText alloc) := by
  refine (gives_readString .null 0).any.bind fun out => .ite (fun _ => .pure _) fun _ => ?_
  exact (gives_utilsMakeString out.1).bind fun _ => .ite (fun _ => .pure _) fun _ => .pure _

theorem gives_decodeList : GivesSteady alloc (decodeList alloc) := by
  refine (gives_memNew.bind fun id => ?_).bind fun result => ?_
  · cases id with
    | none => exact .pure _
    | some id => exact .pure _
  · cases result with
    | none => exact .pure _
    | some result =>
        refine (gives_readStringList result).bind fun out => .ite (fun _ => ?_) fun _ => .pure _
        exact (gives_valueListFree out.1).bind fun _ => .pure _

theorem gives_decodePairs : GivesSteady alloc (decodePairs alloc) := by
  refine (gives_memNew.bind fun id => ?_).bind fun result => ?_
  · cases id with
    | none => exact .pure _
    | some id => exact .pure _
  · cases result with
    | none => exact .pure _
    | some result =>
        refine (gives_readStringStringList result).bind fun out => .ite (fun _ => ?_) fun _ => .pure _
        exact (gives_keyValueListFree out.1).bind fun _ => .pure _

theorem gives_decodeVersion (result : VersionInfo) : GivesAny alloc (decodeVersion alloc result) := by
  refine (gives_readInt32 _).any.bind fun _ => .ite (fun _ => .pure _) fun _ => ?_
  refine (gives_readInt32 _).any.bind fun _ => .ite (fun _ => .pure _) fun _ => ?_
  refine (gives_readInt32 _).any.bind fun _ => .ite (fun _ => .pure _) fun _ => ?_
  refine (gives_readString _ _).any.bind fun out => .ite (fun _ => .pure _) fun _ => ?_
  exact (gives_utilsMakeString out.1).bind fun _ => .ite (fun _ => .pure _) fun _ => .pure _

theorem gives_decode (op : Operation) (result : op.kind.Out) : GivesAny alloc (Operation.decode alloc op result) := by
  cases op with
  | hello clientId clusterId => exact gives_decodeText
  | expectProgressPossible => exact gives_decodeBool.any
  | «exists» options key => exact gives_decodeBool.any
  | get options key => exact (gives_decodeString _).any
  | multiGet options keys => exact gives_decodeList.any
  | range options bounds => exact gives_decodeList.any
  | keyPrefix options beginKey maxElements => exact gives_decodeList.any
  | rangeEntries options bounds => exact gives_decodePairs.any
  | revRangeEntries options bounds => exact gives_decodePairs.any
  | testAndSet key oldValue newValue => exact (gives_decodeStringOption _).any
  | deletePrefix start => exact (gives_decodeUInt32 _).any
  | version => exact gives_decodeVersion _
  | userFunction name arg => exact (gives_readStringOption .null 0).any.bind fun _ => .pure _
  | _ => exact .pure _

variable {early failed : α} {send : SessionM ArakoonRc} {decode : SessionM (ArakoonRc × α)} {ok : NodeCommand → Prop}
  (hok : ∀ c, NodeCommand.Steady c → ok c)
include hok

theorem gives_clientReply (hdecode : Gives alloc ok decode) : Gives alloc ok (clientReply alloc failed decode) := by
  refine (gives_readRc.mono hok).bind fun rc => ((gives_handleError rc).mono hok).bind fun _ => ?_
  exact .ite (fun _ => .pure _) fun _ => hdecode

theorem gives_clientOperation (hsend : Gives alloc ok send) (hdecode : Gives alloc ok decode) :
    Gives alloc ok (clientOperation alloc early failed send decode) :=
  hsend.bind fun _ => .ite (fun _ => .pure _) fun _ => gives_clientReply hok hdecode

omit hok in
/-- What an operation does once it has its master. -/
theorem gives_operation (op : Operation) (result : op.kind.Out) : GivesAny alloc
    (clientOperation alloc (op.early result) (op.failed result) (Operation.send alloc op)
      (Operation.decode alloc op result)) :=
  gives_clientOperation (fun _ _ => trivial) (gives_send op).any (gives_decode op result)

end Programs

end Crakoon
