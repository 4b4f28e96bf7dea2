import Crakoon.LastError

/-!
# Exceptions of the C++ cluster

`arakoon::cluster` calls the functions of the library and throws where one of them fails. The exception has a copy of
whatever the error slot of the cluster holds at that time. Only the operations clear the slot, and so an exception has
the message of the call that throws it (`exception_message`) as long as no search for the master fails behind a
message.
-/

namespace Crakoon

open Programs

/-- What is thrown: of an `arakoon::error`, the code and the buffer. -/
inductive Thrown where
  | badAlloc
  | systemError (errno : Int)
  | arakoonError (code : ArakoonReturnCode) (buffer : Data)

/-- How a call on an `arakoon::cluster` ends. -/
inductive Outcome where
  | returned
  | pair (rc : ArakoonRc) (buffer : Data)
  | threw (exc : Thrown)

/-- The cases of the `switch` in `arakoon::rc_to_error`. -/
def switchCodes : List ArakoonReturnCode :=
  [.noMagic, .tooManyDeadNodes, .noHello, .notMaster, .notFound, .wrongCluster, .nurseryRangeError, .assertionFailed,
    .readOnly, .unknownFailure, .clientNetworkError, .clientUnknownNode, .clientMasterNotFound, .clientNotConnected,
    .clientTimeout, .clientNurseryInvalidRouting, .clientNurseryInvalidConfig]

/-- `arakoon::rc_to_error`, where `errno` is what the variable holds. -/
def rcToError (errno : Nat) (rc : ArakoonRc) (buffer : Data) : Outcome :=
  if rc = 0 then .returned
  else if rc < 0 then
    if errno = 12 then .threw .badAlloc else .threw (.systemError (-rc))
  else .threw (.arakoonError ((switchCodes.find? fun code => code.rc = rc).getD .unknownFailure) buffer)

section Wrapper

variable (alloc : Nat → Bool) (dial : Dialer) (errno : World → Nat)

/-- The malloc hook. -/
def clientMalloc : ClientM (Option Nat) := fun w =>
  some ((w.heap.malloc alloc).1, { w with heap := (w.heap.malloc alloc).2 })

/-- The copy of the last error, or a null buffer where there is none; no value where `std::bad_alloc` is thrown. -/
def copyLastError (rc : ArakoonRc) : ClientM (Option Data) := do
  let w ← get
  let found := arakoonClusterGetLastError w.cluster
  if rc ≠ 0 ∧ found.1 = 0 ∧ found.2.2 ≠ .null ∧ found.2.1 ≠ 0 then do
    match ← clientMalloc alloc with
    | none => do
        freeString .null
        pure none
    | some id => pure (some (.block id (found.2.2.value.getD [])))
  else pure (some .null)

/-- `cluster::rc_to_error` -/
def clusterRcToError (rc : ArakoonRc) : ClientM Outcome := do
  match ← copyLastError alloc rc with
  | none => pure (.threw .badAlloc)
  | some buffer => do
      let w ← get
      pure (rcToError (errno w) rc buffer)

/-- `cluster::rc_to_error_no_exc` -/
def clusterRcToErrorNoExc (rc : ArakoonRc) : ClientM Outcome := do
  match ← copyLastError alloc rc with
  | none => pure (.threw .badAlloc)
  | some buffer => pure (.pair rc buffer)

/-- The calls on an `arakoon::cluster`. A node that has been disowned has no `ArakoonClusterNode`. -/
inductive CppCall where
  | addNode (node : Option ClusterNode)
  | connectMaster
  | whoMaster (master : Data)
  | operation (op : Operation) (result : op.kind.Out)
  | getNoExc (options : Option ClientCallOptions) (key : Bytes) (result : Data)
  | sequenceNoExc (items : Sequence)
  | syncedSequenceNoExc (items : Sequence)
  /-- An operation that is given a null pointer. -/
  | nullArgument

/-- `arakoon_cluster_add_node` -/
def clusterAddNode (node : ClusterNode) : ClientM ArakoonRc := fun w =>
  some (ArakoonReturnCode.success.rc, { w with cluster := arakoonClusterAddNode w.cluster node })

def CppCall.program : CppCall → ClientM Outcome
  | .addNode none => do
      let w ← get
      pure (rcToError (errno w) ArakoonReturnCode.clientUnknownNode .null)
  | .addNode (some node) => do
      let rc ← clusterAddNode node
      clusterRcToError alloc errno rc
  | .connectMaster => do
      let rc ← arakoonClusterConnectMaster alloc dial
      clusterRcToError alloc errno rc
  | .whoMaster master => do
      let (rc, _) ← arakoonWhoMaster alloc master
      clusterRcToError alloc errno rc
  | .operation op result => do
      let (rc, _) ← Operation.run alloc op result
      clusterRcToError alloc errno rc
  | .getNoExc options key result => do
      let (rc, result) ← arakoonGet alloc options key result
      if rc = 0 then pure (.pair rc result) else clusterRcToErrorNoExc alloc rc
  | .sequenceNoExc items => do
      let (rc, _) ← arakoonSequence alloc items
      clusterRcToErrorNoExc alloc rc
  | .syncedSequenceNoExc items => do
      let (rc, _) ← arakoonSyncedSequence alloc items
      clusterRcToErrorNoExc alloc rc
  | .nullArgument => clusterRcToError alloc errno einval

def cppStep (call : CppCall) (w : World) : Except Unit (Outcome × World) :=
  match (call.program alloc dial errno).run w with
  | none => .error ()
  | some out => .ok out

/-- The call throws an `arakoon::error` with this message in its buffer. -/
def Outcome.Carries (outcome : Outcome) (message : Bytes) : Prop :=
  ∃ code buffer, outcome = .threw (.arakoonError code buffer) ∧ buffer.value = some message

/-- A message that the call throws is that of the reply to this very call, which is an error, and it is not empty. -/
def CppCall.Truthful (call : CppCall) (w : World) (outcome : Outcome) : Prop :=
  ∀ message, outcome.Carries message →
    message ≠ [] ∧ ∃ op result, call = .operation op result ∧ w.Refused alloc op message

/-- The call is not a search for the master that fails while the slot holds a message of which a copy can be made. -/
def CppCall.Fresh (call : CppCall) (w : World) : Prop :=
  match call with
  | .connectMaster => ∀ rc w', (arakoonClusterConnectMaster alloc dial).run w = some (rc, w') → 0 < rc →
      alloc w'.heap.calls = true → w.cluster.lastError.size = 0
  | _ => True

end Wrapper

section Exceptions

variable {alloc : Nat → Bool} {dial : Dialer} {errno : World → Nat}

theorem rcToError_carries {n : Nat} {rc : ArakoonRc} {buffer : Data} {message : Bytes} :
    (rcToError n rc buffer).Carries message ↔ 0 < rc ∧ buffer.value = some message := by
  unfold rcToError
  constructor
  · intro h
    obtain ⟨code, buffer', hthrown, hvalue⟩ := h
    split_ifs at hthrown with hzero hneg henomem
    · cases hthrown
    · cases hthrown
    · cases hthrown
      exact ⟨lt_of_le_of_ne (not_lt.mp hneg) (Ne.symm hzero), hvalue⟩
  · intro h
    obtain ⟨hrc, hvalue⟩ := h
    rw [if_neg (ne_of_gt hrc), if_neg (not_lt.mpr hrc.le)]
    exact ⟨_, buffer, rfl, hvalue⟩

theorem size_ne_zero_iff {d : Data} : d.size ≠ 0 ↔ ∃ message, d.value = some message ∧ message ≠ [] := by
  cases d with
  | null => simp [Data.size, Data.value]
  | zeroLength => simp [Data.size, Data.value]
  | block id bytes => simp [Data.size, Data.value]

theorem ensures_clientMalloc (w : World) : Ensures (clientMalloc alloc) w fun id _ =>
    id = none ∧ alloc w.heap.calls = false ∨ id = some w.heap.next ∧ alloc w.heap.calls = true := by
  intro id w' hrun
  obtain ⟨rfl, rfl⟩ := Prod.mk.inj (Option.some.inj hrun)
  cases halloc : alloc w.heap.calls with
  | false => exact .inl ⟨by simp [Heap.malloc, halloc], rfl⟩
  | true => exact .inr ⟨by simp [Heap.malloc, halloc], rfl⟩

/-- The copy is there exactly if there is a message, and memory for it. -/
theorem ensures_copyLastError {rc : ArakoonRc} (hrc : rc ≠ 0) (w : World) :
    Ensures (copyLastError alloc rc) w fun copy _ =>
      w.cluster.lastError.size = 0 ∧ copy = some .null ∨ alloc w.heap.calls = false ∧ copy = none ∨
      w.cluster.lastError.size ≠ 0 ∧ alloc w.heap.calls = true ∧
        copy = some (.block w.heap.next (w.cluster.lastError.value.getD [])) := by
  refine Ensures.bind_get (.ite (fun hfound => ?_) fun hnone => .pure (.inl ⟨?_, rfl⟩))
  · refine (ensures_clientMalloc _).bind fun id w₁ h => ?_
    rcases h with ⟨rfl, halloc⟩ | ⟨rfl, halloc⟩
    · exact Ensures.bind (P := fun _ _ => True) (fun _ _ _ => trivial) fun _ _ _ => .pure (.inr (.inl ⟨halloc, rfl⟩))
    · exact .pure (.inr (.inr ⟨hfound.2.2.2, halloc, rfl⟩))
  · by_contra hsize
    have hnull : _ ≠ Data.null := fun heq => hsize (congrArg Data.size heq)
    exact hnone ⟨hrc, rfl, hnull, hsize⟩

/-- What is thrown carries the message in the slot, if there is one, and memory for a copy of it. -/
theorem ensures_clusterRcToError (rc : ArakoonRc) (w : World) :
    Ensures (clusterRcToError alloc errno rc) w fun outcome _ => ∀ message, outcome.Carries message ↔
      0 < rc ∧ alloc w.heap.calls = true ∧ message ≠ [] ∧ w.cluster.lastError.value = some message := by
  by_cases hrc : rc = 0
  · subst hrc
    intro outcome w' hrun
    obtain ⟨rfl, -⟩ := Prod.mk.inj (Option.some.inj hrun)
    refine fun message => iff_of_false (fun h => ?_) fun h => absurd h.1 (lt_irrefl _)
    exact absurd (rcToError_carries.mp h).1 (lt_irrefl _)
  · refine (ensures_copyLastError hrc w).bind fun copy w₁ hcopy => ?_
    rcases hcopy with ⟨hsize, rfl⟩ | ⟨halloc, rfl⟩ | ⟨hsize, halloc, rfl⟩
    · refine Ensures.bind_get (.pure fun message => ?_)
      rw [rcToError_carries]
      exact iff_of_false (fun h => by cases h.2) fun h => size_ne_zero_iff.mpr ⟨message, h.2.2.2, h.2.2.1⟩ hsize
    · refine .pure fun message => iff_of_false (fun h => ?_) fun h => ?_
      · obtain ⟨_, _, hthrown, -⟩ := h
        cases hthrown
      · rw [halloc] at h
        cases h.2.1
    · refine Ensures.bind_get (.pure fun message => ?_)
      obtain ⟨text, htext, hne⟩ := size_ne_zero_iff.mp hsize
      rw [rcToError_carries, htext]
      constructor
      · intro h
        obtain ⟨hpos, hvalue⟩ := h
        obtain rfl := Option.some.inj hvalue
        exact ⟨hpos, halloc, hne, rfl⟩
      · intro h
        obtain ⟨hpos, -, -, hvalue⟩ := h
        exact ⟨hpos, hvalue⟩

/-- The other function throws no error of the library. -/
theorem ensures_clusterRcToErrorNoExc (rc : ArakoonRc) (w : World) :
    Ensures (clusterRcToErrorNoExc alloc rc) w fun outcome _ => ∀ message, ¬outcome.Carries message := by
  refine Ensures.bind (P := fun _ _ => True) (fun _ _ _ => trivial) fun copy w₁ _ => ?_
  cases copy with
  | none => exact .pure fun _ ⟨_, _, h, _⟩ => by cases h
  | some copied => exact .pure fun _ ⟨_, _, h, _⟩ => by cases h

/-! ### The calls -/

/-- Of the messages in the slot, an operation throws its own. -/
theorem truthful_operation (op : Operation) (result : op.kind.Out) (w : World) :
    Ensures (CppCall.program alloc dial errno (.operation op result)) w fun outcome _ =>
      (CppCall.operation op result).Truthful alloc w outcome := by
  refine (ensures_operation_reported op result w).bind fun out w₁ hreported => ?_
  refine (ensures_clusterRcToError out.1 w₁).mono fun outcome _ h message hcarries => ?_
  obtain ⟨-, -, hne, hslot⟩ := (h message).mp hcarries
  refine ⟨hne, op, result, rfl, ?_⟩
  cases hreported with
  | nothing hlast =>
      rw [hlast] at hslot
      cases hslot
  | blank refused hlast =>
      rw [hlast] at hslot
      obtain rfl := Option.some.inj hslot
      exact refused
  | block text id refused _ hlast =>
      rw [hlast] at hslot
      obtain rfl := Option.some.inj hslot
      exact refused

theorem cppStep_ok {call : CppCall} {w w' : World} {outcome : Outcome}
    (h : cppStep alloc dial errno call w = .ok (outcome, w')) :
    (call.program alloc dial errno).run w = some (outcome, w') := by
  unfold cppStep at h
  split at h
  · cases h
  · rename_i out hrun
    rw [hrun, Except.ok.inj h]

/-- A call throws no message but that of its own reply, if and only if it is not a search for the master that fails
behind a message. -/
theorem truthful_cppStep {call : CppCall} {w w' : World} {outcome : Outcome}
    (hstep : cppStep alloc dial errno call w = .ok (outcome, w')) :
    call.Truthful alloc w outcome ↔ call.Fresh alloc dial w := by
  have hrun := cppStep_ok hstep
  have hnever : (∀ message, ¬outcome.Carries message) → call.Truthful alloc w outcome := fun h message hcarries =>
    absurd hcarries (h message)
  cases call with
  | addNode node =>
      refine iff_of_true (hnever ?_) trivial
      cases node with
      | none =>
          obtain ⟨rfl, -⟩ := Prod.mk.inj (Option.some.inj hrun)
          exact fun message hcarries => by cases (rcToError_carries.mp hcarries).2
      | some node =>
          obtain ⟨rfl, -⟩ := Prod.mk.inj (Option.some.inj hrun)
          exact fun message hcarries => absurd (rcToError_carries.mp hcarries).1 (lt_irrefl _)
  | connectMaster =>
      obtain ⟨rc, w₁, hsearch, hthrow⟩ := bind_run_eq_some.mp hrun
      have hcarries := ensures_clusterRcToError rc w₁ outcome w' hthrow
      have hlast : w₁.cluster.lastError = w.cluster.lastError :=
        (spares_connectMaster (b := 0) w (Nat.zero_le _) rc w₁ hsearch).2.1.lastError
      rw [hlast] at hcarries
      constructor
      · intro htruthful rc' w₂ hsearch' hpos halloc
        obtain ⟨rfl, rfl⟩ := Prod.mk.inj (Option.some.inj (hsearch.symm.trans hsearch'))
        by_contra hsize
        obtain ⟨message, hvalue, hne⟩ := size_ne_zero_iff.mp hsize
        obtain ⟨-, op, result, hcall, -⟩ := htruthful message ((hcarries message).mpr ⟨hpos, halloc, hne, hvalue⟩)
        cases hcall
      · intro hfresh message hthrown
        obtain ⟨hpos, halloc, hne, hvalue⟩ := (hcarries message).mp hthrown
        exact absurd (hfresh rc w₁ hsearch hpos halloc) (size_ne_zero_iff.mpr ⟨message, hvalue, hne⟩)
  | whoMaster master =>
      obtain ⟨out, w₁, hask, hthrow⟩ := bind_run_eq_some.mp hrun
      refine iff_of_true (hnever fun message hcarries => ?_) trivial
      have hvalue := ((ensures_clusterRcToError out.1 w₁ outcome w' hthrow message).mp hcarries).2.2.2
      rw [(ensures_whoMaster_reported master w out w₁ hask).1] at hvalue
      cases hvalue
  | operation op result => exact iff_of_true (truthful_operation op result w outcome w' hrun) trivial
  | getNoExc options key result =>
      obtain ⟨out, w₁, -, hpair⟩ := bind_run_eq_some.mp hrun
      refine iff_of_true (hnever ?_) trivial
      have hthrow : Ensures (if out.1 = 0 then pure (.pair out.1 out.2) else clusterRcToErrorNoExc alloc out.1) w₁
          fun outcome _ => ∀ message, ¬outcome.Carries message :=
        .ite (fun _ => .pure fun _ ⟨_, _, h, _⟩ => by cases h) fun _ => ensures_clusterRcToErrorNoExc _ w₁
      exact hthrow outcome w' hpair
  | sequenceNoExc items =>
      obtain ⟨out, w₁, -, hthrow⟩ := bind_run_eq_some.mp hrun
      exact iff_of_true (hnever (ensures_clusterRcToErrorNoExc _ w₁ outcome w' hthrow)) trivial
  | syncedSequenceNoExc items =>
      obtain ⟨out, w₁, -, hthrow⟩ := bind_run_eq_some.mp hrun
      exact iff_of_true (hnever (ensures_clusterRcToErrorNoExc _ w₁ outcome w' hthrow)) trivial
  | nullArgument =>
      refine iff_of_true (hnever fun message hcarries => ?_) trivial
      have hpos := ((ensures_clusterRcToError einval w outcome w' hrun message).mp hcarries).1
      exact absurd hpos (by decide)

/-- In a run in which no search for the master fails behind a message, every error that a call throws carries the
message of its own reply or none. Of any single call this is so if and only if it is not such a search. -/
theorem exception_message :
    (∀ start history call outcome w', Run (cppStep alloc dial errno) (CppCall.Fresh alloc dial) start
      ((call, outcome) :: history) w' → ∃ w, Run (cppStep alloc dial errno) (CppCall.Fresh alloc dial) start history w ∧
        call.Truthful alloc w outcome) ∧
    ∀ call w w' outcome, cppStep alloc dial errno call w = .ok (outcome, w') →
      (call.Truthful alloc w outcome ↔ call.Fresh alloc dial w) := by
  refine ⟨fun start history call outcome w' h => ?_, fun call w w' outcome hstep => truthful_cppStep hstep⟩
  cases h with
  | call before hallowed hstep => exact ⟨_, before, (truthful_cppStep hstep).mpr hallowed⟩

end Exceptions

/-- A server that refuses the first request and does not answer any other. -/
def Peer.refusingOnce : Peer := .scripted [errorReply]

/-- A value is refused with a message, and the search for the master that follows throws it again. -/
theorem connectMaster_stale_message :
    ∃ w w' first outcome, Run (cppStep (fun _ => true) unreachable fun _ => 0) (fun _ _ => True)
        (World.connected sampleName .refusingOnce)
        [(.connectMaster, outcome), (.operation (.get none [107]) Data.null, first)] w' ∧
      Run (cppStep (fun _ => true) unreachable fun _ => 0) (fun _ _ => True) (World.connected sampleName .refusingOnce)
        [(.operation (.get none [107]) Data.null, first)] w ∧
      outcome.Carries [120] ∧ ¬CppCall.Truthful (fun _ => true) .connectMaster w outcome := by
  refine ⟨_, _, _, _, .call (.call .nil trivial rfl) trivial rfl, .call .nil trivial rfl, ⟨_, _, rfl, rfl⟩, fun h => ?_⟩
  obtain ⟨-, op, result, hcall, -⟩ := h [120] ⟨_, _, rfl, rfl⟩
  cases hcall

/-- A value is refused with a message, which is thrown. -/
theorem exception_message_get :
    ∃ w outcome, Run (cppStep (fun _ => true) unreachable fun _ => 0) (CppCall.Fresh (fun _ => true) unreachable)
        (World.connected sampleName .refusingOnce) [(.operation (.get none [107]) Data.null, outcome)] w ∧
      outcome.Carries [120] ∧
      (World.connected sampleName .refusingOnce).Refused (fun _ => true) (.get none [107]) [120] := by
  have hstep : ∃ w outcome, cppStep (fun _ => true) unreachable (fun _ => 0)
      (.operation (.get none [107]) Data.null) (World.connected sampleName .refusingOnce) = .ok (outcome, w) :=
    ⟨_, _, rfl⟩
  have hget : ∃ out w₁, (Operation.run (fun _ => true) (.get none [107]) Data.null).run
      (World.connected sampleName .refusingOnce) = some (out, w₁) ∧ 0 < out.1 ∧
      w₁.cluster.lastError.value = some [120] := ⟨_, _, rfl, by decide, rfl⟩
  obtain ⟨w, outcome, hstep⟩ := hstep
  obtain ⟨out, w₁, hget, hpos, hvalue⟩ := hget
  have hcarries : outcome.Carries [120] := by
    obtain ⟨out', w₁', hget', hthrow⟩ := bind_run_eq_some.mp (cppStep_ok hstep)
    obtain ⟨rfl, rfl⟩ := Prod.mk.inj (Option.some.inj (hget.symm.trans hget'))
    exact (ensures_clusterRcToError _ _ outcome w hthrow [120]).mpr ⟨hpos, rfl, by decide, hvalue⟩
  have hrun : Run (cppStep (fun _ => true) unreachable fun _ => 0) (CppCall.Fresh (fun _ => true) unreachable)
      (World.connected sampleName .refusingOnce) [(.operation (.get none [107]) Data.null, outcome)] w :=
    .call .nil trivial hstep
  obtain ⟨start, hstart, htruthful⟩ := exception_message.1 _ _ _ _ _ hrun
  cases hstart
  obtain ⟨-, op, result, hcall, hrefused⟩ := htruthful [120] hcarries
  cases hcall
  exact ⟨w, outcome, hrun, hcarries, hrefused⟩

end Crakoon
