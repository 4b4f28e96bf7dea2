import Crakoon.NodePrograms

/-!
# The requests that look for the master, as scripts

`_arakoon_cluster_node_connect` sends a prologue and `_arakoon_cluster_node_who_master` a request with a reply. Here
the two are written down as the commands that they give to a node, so that they can be performed on nodes that have
descriptors. Performed on a session they are the functions of the model (`run_prologue`, `run_whoMaster`).
-/

namespace Crakoon

open Programs

abbrev NodeScript (α : Type) := Commands NodeCommand.Answer α

namespace NodeScript

def malloc : NodeScript (Option Nat) := Commands.ask NodeCommand.malloc

def realloc (p : Ptr) : NodeScript (Option Nat) := Commands.ask (NodeCommand.realloc p)

def free (p : Ptr) : NodeScript Unit := Commands.ask (NodeCommand.free p)

def write (bs : Bytes) : NodeScript ArakoonRc := Commands.ask (NodeCommand.write bs)

def read (n : Nat) : NodeScript (ArakoonRc × Bytes) := Commands.ask (NodeCommand.read n)

def disconnect : NodeScript Unit := Commands.ask NodeCommand.disconnect

def abort {α : Type} : NodeScript α := .give NodeCommand.abort fun never => Empty.elim never

/-- `WRITE_BYTES` -/
def writeBytes (bs : Bytes) : NodeScript ArakoonRc := do
  let r ← write bs
  if r ≠ 0 then do
    disconnect
    pure r
  else pure r

/-- `READ_BYTES` -/
def readBytes (n : Nat) : NodeScript (ArakoonRc × Bytes) := do
  let out ← read n
  if out.1 ≠ 0 then do
    disconnect
    pure out
  else pure out

/-- `ARAKOON_PROTOCOL_READ_UINT32` -/
def readUInt32 (r : Nat) : NodeScript (Nat × ArakoonRc) := do
  let out ← readBytes 4
  if out.1 = 0 then pure (ofLe32 out.2, out.1) else pure (r, out.1)

/-- `ARAKOON_PROTOCOL_READ_RC` -/
def readRc : NodeScript ArakoonRc := do
  let out ← readUInt32 0
  if out.2 ≠ 0 then pure out.2 else pure (int32 out.1)

/-- `ARAKOON_PROTOCOL_READ_STRING` -/
def readString (a : Data) (rc : ArakoonRc) : NodeScript (Data × ArakoonRc) := do
  let l ← readUInt32 0
  if l.2 ≠ 0 then pure (a, l.2)
  else if l.1 = 0 then pure (.zeroLength, rc)
  else do
    match ← malloc with
    | none => pure (a, enomem)
    | some id => do
        let out ← readBytes l.1
        if out.1 = 0 then pure (.block id out.2, out.1)
        else do
          free (.block id)
          pure (.null, out.1)

/-- `ARAKOON_PROTOCOL_READ_STRING_OPTION` -/
def readStringOption (a : Data) (rc : ArakoonRc) : NodeScript (Data × ArakoonRc) := do
  let v ← readBytes 1
  if v.1 ≠ 0 then pure (.null, v.1)
  else if v.2 = [0] then pure (.null, v.1)
  else readString a rc

/-- `arakoon_utils_make_string` -/
def utilsMakeString (d : Data) : NodeScript Data := do
  match ← realloc d.ptr with
  | none => do
      free d.ptr
      pure .null
  | some id => pure (.block id (d.value.getD [] ++ [0]))

/-- A command in a block of its own, or the failure of an assertion. -/
def sendCommand (c : Command) : NodeScript ArakoonRc := do
  match ← malloc with
  | none => pure enomem
  | some command =>
      match c.assembled with
      | none => abort
      | some bs => do
          let rc ← writeBytes bs
          free (.block command)
          pure rc

/-- What is sent on a new connection. -/
def prologue (name : CString) : NodeScript ArakoonRc := sendCommand (prologueCommand name)

/-- `_arakoon_cluster_node_who_master` -/
def whoMaster (master : Data) : NodeScript (ArakoonRc × Data) := do
  let rc ← sendCommand whoMasterCommand
  if rc ≠ 0 then pure (rc, master)
  else do
    let rc ← readRc
    if rc ≠ 0 then pure (rc, master)
    else do
      let out ← readStringOption .null 0
      if out.2 ≠ 0 then pure (out.2, .null)
      else if out.1 = .null then pure (out.2, .null)
      else do
        let master ← utilsMakeString out.1
        if master = .null then pure (enomem, master) else pure (out.2, master)

/-- `_arakoon_cluster_set_last_error` -/
def setLastError (msg : Data) : NodeScript Unit := Commands.ask (NodeCommand.setLastError msg)

/-- `HANDLE_ERROR` -/
def handleError (rc : ArakoonRc) : NodeScript Unit :=
  if rc ≠ 0 then do
    let msg ← readString .null 0
    if msg.2 ≠ 0 then pure () else setLastError msg.1
  else pure ()

/-- An operation after its master is known. -/
def clientOperation {α : Type} (early failed : α) (send : NodeScript ArakoonRc)
    (decode : NodeScript (ArakoonRc × α)) : NodeScript (ArakoonRc × α) := do
  let rc ← send
  if rc ≠ 0 then pure (rc, early)
  else do
    let rc ← readRc
    handleError rc
    if rc ≠ 0 then pure (rc, failed) else decode

/-- No assertion fails. -/
def Ends {α : Type} (script : NodeScript α) : Prop := script.Within NodeCommand.Returns

theorem ends_bind {α β : Type} {p : NodeScript α} {f : α → NodeScript β} (hp : Ends p) (hf : ∀ a, Ends (f a)) :
    Ends (p >>= f) := Commands.Within.bind hp hf

theorem ends_pure {α : Type} (a : α) : Ends (pure a : NodeScript α) := .pure a

theorem ends_writeBytes (bs : Bytes) : Ends (writeBytes bs) :=
  ends_bind (.ask trivial) fun r => .ite (fun _ => ends_bind (.ask trivial) fun _ => ends_pure r) fun _ => ends_pure r

theorem ends_readBytes (n : Nat) : Ends (readBytes n) :=
  ends_bind (.ask trivial) fun out =>
    .ite (fun _ => ends_bind (.ask trivial) fun _ => ends_pure out) fun _ => ends_pure out

theorem ends_readUInt32 (r : Nat) : Ends (readUInt32 r) :=
  ends_bind (ends_readBytes 4) fun _ => .ite (fun _ => ends_pure _) fun _ => ends_pure _

theorem ends_readRc : Ends readRc :=
  ends_bind (ends_readUInt32 0) fun _ => .ite (fun _ => ends_pure _) fun _ => ends_pure _

theorem ends_readString (a : Data) (rc : ArakoonRc) : Ends (readString a rc) := by
  refine ends_bind (ends_readUInt32 0) fun l => .ite (fun _ => ends_pure _) fun _ => ?_
  refine .ite (fun _ => ends_pure _) fun _ => ?_
  refine ends_bind (.ask trivial) fun id => ?_
  cases id with
  | none => exact ends_pure _
  | some id =>
      refine ends_bind (ends_readBytes l.1) fun _ => .ite (fun _ => ends_pure _) fun _ => ?_
      exact ends_bind (.ask trivial) fun _ => ends_pure _

theorem ends_readStringOption (a : Data) (rc : ArakoonRc) : Ends (readStringOption a rc) :=
  ends_bind (ends_readBytes 1) fun _ =>
    .ite (fun _ => ends_pure _) fun _ => .ite (fun _ => ends_pure _) fun _ => ends_readString a rc

theorem ends_utilsMakeString (d : Data) : Ends (utilsMakeString d) := by
  refine ends_bind (.ask trivial) fun id => ?_
  cases id with
  | none => exact ends_bind (.ask trivial) fun _ => ends_pure _
  | some id => exact ends_pure _

theorem ends_sendCommand {c : Command} (hc : c.assembled ≠ none) : Ends (sendCommand c) := by
  refine ends_bind (.ask trivial) fun id => ?_
  cases id with
  | none => exact ends_pure _
  | some id =>
      dsimp only
      cases hblock : c.assembled with
      | none => exact absurd hblock hc
      | some bs => exact ends_bind (ends_writeBytes bs) fun _ => ends_bind (.ask trivial) fun _ => ends_pure _

/-- The prologue fits in its block, unless the length of that overflows. -/
theorem ends_prologue {name : CString} (hname : name.bytes.length + 12 < 2 ^ 64) : Ends (prologue name) := by
  refine ends_sendCommand fun hnone => ?_
  have hlength : (prologueCommand name).written.length = (prologueCommand name).len := by
    simp only [prologueCommand, List.length_append, writeCommand_length, writeInt32_length, writeString_length]
    exact (Nat.mod_eq_of_lt (by simp only [commandLen, int32Len, stringLen, uint32Len]; omega)).symm
  rw [Command.assembled, if_pos hlength] at hnone
  cases hnone

theorem ends_whoMaster (master : Data) : Ends (whoMaster master) := by
  refine ends_bind (ends_sendCommand fun hnone => by cases hnone) fun rc => .ite (fun _ => ends_pure _) fun _ => ?_
  refine ends_bind ends_readRc fun rc => .ite (fun _ => ends_pure _) fun _ => ?_
  refine ends_bind (ends_readStringOption _ _) fun out => .ite (fun _ => ends_pure _) fun _ => ?_
  refine .ite (fun _ => ends_pure _) fun _ => ends_bind (ends_utilsMakeString _) fun _ => ?_
  exact .ite (fun _ => ends_pure _) fun _ => ends_pure _

end NodeScript

section Run

variable (alloc : Nat → Bool)

theorem run_malloc : NodeScript.malloc.run (NodeCommand.perform alloc) = memNew alloc :=
  Commands.run_ask (NodeCommand.perform alloc) NodeCommand.malloc

theorem run_realloc (p : Ptr) : (NodeScript.realloc p).run (NodeCommand.perform alloc) = memRealloc alloc p :=
  Commands.run_ask (NodeCommand.perform alloc) (NodeCommand.realloc p)

theorem run_write (bs : Bytes) : (NodeScript.write bs).run (NodeCommand.perform alloc) = clusterNodeWriteBytes bs :=
  Commands.run_ask (NodeCommand.perform alloc) (NodeCommand.write bs)

theorem run_read (n : Nat) : (NodeScript.read n).run (NodeCommand.perform alloc) = clusterNodeReadBytes n :=
  Commands.run_ask (NodeCommand.perform alloc) (NodeCommand.read n)

theorem run_disconnect : NodeScript.disconnect.run (NodeCommand.perform alloc) = clusterNodeDisconnect :=
  Commands.run_ask (NodeCommand.perform alloc) NodeCommand.disconnect

theorem run_writeBytes (bs : Bytes) : (NodeScript.writeBytes bs).run (NodeCommand.perform alloc) = writeBytes bs := by
  rw [NodeScript.writeBytes, Commands.run_do, run_write, writeBytes]
  refine congrArg _ (funext fun r => ?_)
  by_cases hr : r = 0
  · rw [if_neg (not_ne_iff.mpr hr), if_neg (not_ne_iff.mpr hr)]
    rfl
  · rw [if_pos hr, if_pos hr, Commands.run_do, run_disconnect]
    rfl

theorem run_readBytes (n : Nat) : (NodeScript.readBytes n).run (NodeCommand.perform alloc) = readBytes n := by
  rw [NodeScript.readBytes, Commands.run_do, run_read, readBytes]
  refine congrArg _ (funext fun out => ?_)
  by_cases hrc : out.1 = 0
  · rw [if_neg (not_ne_iff.mpr hrc), if_neg (not_ne_iff.mpr hrc)]
    rfl
  · rw [if_pos hrc, if_pos hrc, Commands.run_do, run_disconnect]
    rfl

theorem run_readUInt32 (r : Nat) : (NodeScript.readUInt32 r).run (NodeCommand.perform alloc) = readUInt32 r := by
  rw [NodeScript.readUInt32, Commands.run_do, run_readBytes, readUInt32]
  refine congrArg _ (funext fun out => ?_)
  rw [Commands.run_ite]
  rfl

theorem run_readRc : NodeScript.readRc.run (NodeCommand.perform alloc) = readRc := by
  rw [NodeScript.readRc, Commands.run_do, run_readUInt32, readRc]
  refine congrArg _ (funext fun out => ?_)
  rw [Commands.run_ite]
  rfl

theorem run_readString (a : Data) (rc : ArakoonRc) :
    (NodeScript.readString a rc).run (NodeCommand.perform alloc) = readString alloc a rc := by
  rw [NodeScript.readString, Commands.run_do, run_readUInt32, readString]
  refine congrArg _ (funext fun l => ?_)
  rw [Commands.run_ite, Commands.run_ite, Commands.run_do, run_malloc]
  refine if_congr Iff.rfl rfl (if_congr Iff.rfl rfl (congrArg _ (funext fun id => ?_)))
  cases id with
  | none => rfl
  | some id =>
      dsimp only
      rw [Commands.run_do, run_readBytes]
      refine congrArg _ (funext fun out => ?_)
      rw [Commands.run_ite]
      rfl

theorem run_readStringOption (a : Data) (rc : ArakoonRc) :
    (NodeScript.readStringOption a rc).run (NodeCommand.perform alloc) = readStringOption alloc a rc := by
  rw [NodeScript.readStringOption, Commands.run_do, run_readBytes, readStringOption]
  refine congrArg _ (funext fun v => ?_)
  rw [Commands.run_ite, Commands.run_ite, run_readString]
  rfl

theorem run_utilsMakeString (d : Data) :
    (NodeScript.utilsMakeString d).run (NodeCommand.perform alloc) = utilsMakeString alloc d := by
  rw [NodeScript.utilsMakeString, Commands.run_do, run_realloc, utilsMakeString]
  refine congrArg _ (funext fun id => ?_)
  cases id with
  | none => rfl
  | some id => rfl

theorem run_sendCommand (c : Command) :
    (NodeScript.sendCommand c).run (NodeCommand.perform alloc) = sendCommand alloc c := by
  rw [NodeScript.sendCommand, Commands.run_do, run_malloc, sendCommand, sendBlock]
  refine congrArg _ (funext fun id => ?_)
  cases id with
  | none => rfl
  | some id =>
      dsimp only
      cases hblock : c.assembled with
      | none => rfl
      | some bs =>
          dsimp only
          rw [Commands.run_do, run_writeBytes]
          rfl

/-- The script of the prologue is what `_arakoon_cluster_node_connect` does once it has a connection. -/
theorem run_prologue (name : CString) :
    (NodeScript.prologue name).run (NodeCommand.perform alloc) = sendCommand alloc (prologueCommand name) :=
  run_sendCommand alloc _

theorem run_whoMaster (master : Data) :
    (NodeScript.whoMaster master).run (NodeCommand.perform alloc) = clusterNodeWhoMaster alloc master := by
  rw [NodeScript.whoMaster, Commands.run_do, run_sendCommand, clusterNodeWhoMaster, bareOperation]
  refine congrArg _ (funext fun rc => ?_)
  rw [Commands.run_ite, Commands.run_do, run_readRc, bareReply]
  refine if_congr Iff.rfl rfl (congrArg _ (funext fun rc => ?_))
  rw [Commands.run_ite, Commands.run_do, run_readStringOption, decodeMaster]
  refine if_congr Iff.rfl rfl (congrArg _ (funext fun out => ?_))
  rw [Commands.run_ite, Commands.run_ite, Commands.run_do, run_utilsMakeString]
  refine if_congr Iff.rfl rfl (if_congr Iff.rfl rfl (congrArg _ (funext fun name => ?_)))
  rw [Commands.run_ite]
  rfl

theorem run_setLastError (msg : Data) : (NodeScript.setLastError msg).run (NodeCommand.perform alloc) =
    fun s => some ((), { s with lastError := msg }) :=
  Commands.run_ask (NodeCommand.perform alloc) (NodeCommand.setLastError msg)

theorem run_handleError (rc : ArakoonRc) :
    (NodeScript.handleError rc).run (NodeCommand.perform alloc) = handleError alloc rc := by
  rw [NodeScript.handleError, Commands.run_ite, Commands.run_do, run_readString, handleError]
  refine if_congr Iff.rfl (congrArg _ (funext fun msg => ?_)) rfl
  rw [Commands.run_ite, run_setLastError]
  rfl

theorem run_clientOperation {α : Type} {early failed : α} {send : NodeScript ArakoonRc}
    {decode : NodeScript (ArakoonRc × α)} :
    (NodeScript.clientOperation early failed send decode).run (NodeCommand.perform alloc) =
      clientOperation alloc early failed (send.run (NodeCommand.perform alloc))
        (decode.run (NodeCommand.perform alloc)) := by
  rw [NodeScript.clientOperation, Commands.run_do, clientOperation]
  refine congrArg _ (funext fun rc => ?_)
  rw [Commands.run_ite, Commands.run_do, run_readRc, clientReply]
  refine if_congr Iff.rfl rfl (congrArg _ (funext fun rc => ?_))
  rw [Commands.run_do, run_handleError]
  refine congrArg _ (funext fun _ => ?_)
  rw [Commands.run_ite]
  rfl

end Run

end Crakoon
