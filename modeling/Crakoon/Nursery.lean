import Crakoon.Connect
import Crakoon.Operation
import Crakoon.Routing

/-!
# Nurseries

A nursery fetches a routing table from its keeper and sends the operations on a key to the cluster that the
table names. Its `routing` is null until a table has been fetched. A `Client` has a cluster, which is the
keeper, and at most one nursery on it; `clientStep` is one call it makes: a client operation on the keeper, the
search for its master, or a call on the nursery.
-/

namespace Crakoon

open Programs

/-- `ArakoonNursery`, in its block. -/
structure Nursery where
  id : Nat
  routing : Option NurseryRouting

structure Client where
  keeper : World
  nursery : Option Nursery

/-- The table that is installed. -/
def Client.table (c : Client) : Option NurseryRouting := c.nursery.bind fun nursery => nursery.routing

/-- What stops a call before it returns. -/
inductive Fault where
  /-- A null pointer is taken for a routing table. -/
  | nullRouting
  /-- A key is compared with more bytes than the block of a boundary holds. -/
  | keyOverrun
  | parse (fault : ParseFault)
  /-- An assertion fails. -/
  | aborted
  /-- The client has no nursery to make the call on. -/
  | noNursery
  deriving DecidableEq, Repr

abbrev CallM := StateT Client (Except Fault)

section Calls

variable {α : Type} (alloc : Nat → Bool) (dial : Dialer)

/-- Runs a program on the keeper. -/
def onKeeper (m : ClientM α) : CallM α := fun c =>
  match m.run c.keeper with
  | none => .error .aborted
  | some (a, w) => .ok (a, { c with keeper := w })

def getNursery : CallM Nursery := fun c =>
  match c.nursery with
  | none => .error .noNursery
  | some nursery => .ok (nursery, c)

def setRouting (routing : Option NurseryRouting) : CallM Unit := fun c =>
  .ok ((), { c with nursery := c.nursery.map fun nursery => { nursery with routing := routing } })

/-- `arakoon_nursery_new`; a null pointer is reported as `-ENOMEM`. -/
def arakoonNurseryNew : CallM ArakoonRc := fun c =>
  let out := c.keeper.heap.malloc alloc
  match out.1 with
  | none => .ok (enomem, ⟨{ c.keeper with heap := out.2 }, none⟩)
  | some id => .ok (ArakoonReturnCode.success.rc, ⟨{ c.keeper with heap := out.2 }, some ⟨id, none⟩⟩)

/-- `arakoon_nursery_free`, less the blocks of the table. -/
def arakoonNurseryFree : CallM ArakoonRc := do
  let nursery ← getNursery
  fun c => .ok (ArakoonReturnCode.success.rc,
    ⟨{ c.keeper with heap := c.keeper.heap.free (.block nursery.id) }, none⟩)

/-- The request of `arakoon_nursery_update_routing` and its reply. The last error is not reset, and the message
of an error is left unread. -/
def nurseryConfig : ClientM (ArakoonRc × Data) := fun w =>
  match w.cluster.getMaster with
  | none => some ((ArakoonReturnCode.clientNotConnected.rc, .null), w)
  | some k => (onNode k (bareOperation alloc .null nurseryConfigCommand (decodeConfig alloc))).run w

/-- `arakoon_nursery_update_routing`, with any parser in the place of `_arakoon_nursery_routing_parse`. -/
def nurseryUpdateRoutingWith (parse : ArakoonProtocolVersion → Nat → Bytes → Except ParseFault ParseOutcome) :
    CallM ArakoonRc := do
  let _ ← getNursery
  setRouting none
  let (rc, routingData) ← onKeeper (nurseryConfig alloc)
  if rc ≠ 0 then pure rc
  else do
    let c ← get
    match parse c.keeper.cluster.version routingData.size (routingData.value.getD []) with
    | .error fault => throw (.parse fault)
    | .ok outcome =>
        if outcome.rc ≠ 0 then pure outcome.rc
        else do
          onKeeper (freeString routingData)
          setRouting outcome.routing
          pure outcome.rc

/-- `arakoon_nursery_update_routing`, with what the parser gets of memory and of `getaddrinfo`. -/
def arakoonNurseryUpdateRouting (memory : Nat → Bool)
    (getaddrinfo : Nat → CString → CString → Option (List Address)) : CallM ArakoonRc :=
  nurseryUpdateRoutingWith alloc (nurseryRoutingParse memory getaddrinfo)

/-- `_arakoon_nursery_routing_lookup` on the table of the nursery, whose root it reads first. -/
def nurseryLookup (key : Bytes) : CallM (Option (Cluster × Nat)) := do
  let nursery ← getNursery
  match nursery.routing with
  | none => throw .nullRouting
  | some routing =>
    match nurseryRoutingLookup routing key with
    | none => throw .keyOverrun
    | some slot => pure slot

/-- Runs a program on the cluster in a slot of the table. -/
def onSlot (slot : Cluster × Nat) (m : ClientM α) : CallM α := fun c =>
  match m.run { c.keeper with cluster := slot.1 } with
  | none => .error .aborted
  | some (a, w) => .ok (a,
      { keeper := { c.keeper with heap := w.heap, dials := w.dials }
        nursery := c.nursery.map fun nursery => { nursery with
          routing := nursery.routing.map fun routing =>
            { routing with clusters := routing.clusters.set slot.2 w.cluster } } })

/-- The operations on a key run on the cluster that the table has for the key. -/
def nurseryOperation (key : Bytes) (missing : α) (m : ClientM (ArakoonRc × α)) : CallM (ArakoonRc × α) := do
  match ← nurseryLookup key with
  | none => pure (ArakoonReturnCode.clientNurseryInvalidConfig.rc, missing)
  | some slot => onSlot slot m

def arakoonNurseryGet (options : Option ClientCallOptions) (key : Bytes) (result : Data) : CallM (ArakoonRc × Data) :=
  nurseryOperation key result (arakoonGet alloc options key result)

def arakoonNurserySet (key value : Bytes) : CallM (ArakoonRc × Unit) :=
  nurseryOperation key () (arakoonSet alloc key value)

def arakoonNurseryDelete (key : Bytes) : CallM (ArakoonRc × Unit) :=
  nurseryOperation key () (arakoonDelete alloc key)

def arakoonNurseryReconnectMaster (key : Bytes) : CallM (ArakoonRc × Unit) :=
  nurseryOperation key () do
    let rc ← arakoonClusterConnectMaster alloc dial
    pure (rc, ())

inductive ClientCall where
  | operation (op : Operation) (result : op.kind.Out)
  | whoMaster (master : Data)
  | connectMaster
  | nurseryNew
  | nurseryFree
  | nurseryUpdateRouting (memory : Nat → Bool) (getaddrinfo : Nat → CString → CString → Option (List Address))
  | nurseryGet (options : Option ClientCallOptions) (key : Bytes) (result : Data)
  | nurserySet (key value : Bytes)
  | nurseryDelete (key : Bytes)
  | nurseryReconnectMaster (key : Bytes)

/-- The key of a call that is sent where the table says. -/
def ClientCall.key : ClientCall → Option Bytes
  | .nurseryGet _ key _ => some key
  | .nurserySet key _ => some key
  | .nurseryDelete key => some key
  | .nurseryReconnectMaster key => some key
  | _ => none

/-- Leaves the result of a call aside. -/
def onlyRc {m : Type → Type} [Monad m] (p : m (ArakoonRc × α)) : m ArakoonRc := do
  let out ← p
  pure out.1

/-- What a call does and returns. -/
def ClientCall.program : ClientCall → CallM ArakoonRc
  | .operation op result => onKeeper (onlyRc (Operation.run alloc op result))
  | .whoMaster master => onKeeper (onlyRc (arakoonWhoMaster alloc master))
  | .connectMaster => onKeeper (arakoonClusterConnectMaster alloc dial)
  | .nurseryNew => arakoonNurseryNew alloc
  | .nurseryFree => arakoonNurseryFree
  | .nurseryUpdateRouting memory getaddrinfo => arakoonNurseryUpdateRouting alloc memory getaddrinfo
  | .nurseryGet options key result => onlyRc (arakoonNurseryGet alloc options key result)
  | .nurserySet key value => onlyRc (arakoonNurserySet alloc key value)
  | .nurseryDelete key => onlyRc (arakoonNurseryDelete alloc key)
  | .nurseryReconnectMaster key => onlyRc (arakoonNurseryReconnectMaster alloc dial key)

def clientStep (call : ClientCall) (c : Client) : Except Fault (ArakoonRc × Client) := (call.program alloc dial).run c

variable {alloc} {dial}

theorem onKeeper_ok {m : ClientM α} {c c' : Client} {a : α} (h : (onKeeper m).run c = .ok (a, c')) :
    m.run c.keeper = some (a, c'.keeper) ∧ c'.nursery = c.nursery := by
  cases hrun : m.run c.keeper with
  | none => simp [onKeeper, StateT.run, show m c.keeper = none from hrun] at h
  | some out =>
      simp only [onKeeper, StateT.run, show m c.keeper = some out from hrun, Except.ok.injEq, Prod.mk.injEq] at h
      obtain ⟨rfl, rfl⟩ := h
      exact ⟨rfl, rfl⟩

theorem getNursery_ok {c c' : Client} {nursery : Nursery} (h : getNursery.run c = .ok (nursery, c')) :
    c.nursery = some nursery ∧ c' = c := by
  cases hnursery : c.nursery with
  | none => simp [getNursery, StateT.run, hnursery] at h
  | some found =>
      simp only [getNursery, StateT.run, hnursery, Except.ok.injEq, Prod.mk.injEq] at h
      obtain ⟨rfl, rfl⟩ := h
      exact ⟨rfl, rfl⟩

/-- What an update that returns has done: it drops the table that was there, and installs a new one exactly if it
returns success. -/
theorem updateRoutingWith_ok {parse : ArakoonProtocolVersion → Nat → Bytes → Except ParseFault ParseOutcome}
    {c c' : Client} {rc : ArakoonRc} (h : (nurseryUpdateRoutingWith alloc parse).run c = .ok (rc, c')) :
    ∃ nursery out w, c.nursery = some nursery ∧ (nurseryConfig alloc).run c.keeper = some (out, w) ∧
      c'.keeper.cluster = w.cluster ∧ (rc ≠ 0 ∧ c'.nursery = some { nursery with routing := none } ∨
        rc = 0 ∧ ∃ outcome, parse w.cluster.version out.2.size (out.2.value.getD []) = .ok outcome ∧
          outcome.rc = 0 ∧ c'.nursery = some { nursery with routing := outcome.routing }) := by
  simp only [nurseryUpdateRoutingWith, Reading.run_bind, Reading.bind_eq_ok] at h
  obtain ⟨⟨nursery, c₁⟩, hget, ⟨⟨⟩, c₂⟩, hset, ⟨out, c₃⟩, hconfig, h⟩ := h
  obtain ⟨hnursery, rfl⟩ := getNursery_ok hget
  have hset' := Except.ok.inj hset
  have hkeeper₂ : c₂.keeper = c₁.keeper := (congrArg (fun out => out.2.keeper) hset').symm
  obtain ⟨hrun, hnursery₃⟩ := onKeeper_ok hconfig
  have hdropped : c₃.nursery = some { nursery with routing := none } := by
    rw [hnursery₃, ← congrArg (fun out => out.2.nursery) hset', hnursery]
    rfl
  refine ⟨nursery, out, c₃.keeper, hnursery, hkeeper₂ ▸ hrun, ?_⟩
  dsimp only at h
  split_ifs at h with hrc
  · obtain ⟨rfl, rfl⟩ := Prod.mk.inj (Except.ok.inj h)
    exact ⟨rfl, .inl ⟨hrc, hdropped⟩⟩
  · rw [Reading.run_bind, Reading.bind_eq_ok] at h
    obtain ⟨⟨c₄, c₅⟩, hstate, h⟩ := h
    obtain ⟨rfl, rfl⟩ := Prod.mk.inj (Except.ok.inj hstate)
    dsimp only at h
    split at h
    · cases h
    · rename_i outcome hparse
      split_ifs at h with hfailed
      · obtain ⟨rfl, rfl⟩ := Prod.mk.inj (Except.ok.inj h)
        exact ⟨rfl, .inl ⟨hfailed, hdropped⟩⟩
      · simp only [Reading.run_bind, Reading.bind_eq_ok] at h
        obtain ⟨⟨⟨⟩, c₆⟩, hfree, ⟨⟨⟩, c₇⟩, hset₇, h⟩ := h
        obtain ⟨rfl, rfl⟩ := Prod.mk.inj (Except.ok.inj h)
        obtain ⟨hfreed, hnursery₆⟩ := onKeeper_ok hfree
        have hset₇' := Except.ok.inj hset₇
        have hrc := not_ne_iff.mp hfailed
        refine ⟨?_, .inr ⟨hrc, outcome, hparse, hrc, ?_⟩⟩
        · rw [← congrArg (fun out => out.2.keeper) hset₇', ← (Prod.mk.inj (Option.some.inj hfreed)).2]
        · rw [← congrArg (fun out => out.2.nursery) hset₇', hnursery₆, hdropped]
          rfl

/-- A lookup that returns has read a table. -/
theorem nurseryLookup_ok {key : Bytes} {c c' : Client} {slot : Option (Cluster × Nat)}
    (h : (nurseryLookup key).run c = .ok (slot, c')) :
    c' = c ∧ ∃ routing, c.table = some routing ∧ nurseryRoutingLookup routing key = some slot := by
  simp only [nurseryLookup, Reading.run_bind, Reading.bind_eq_ok] at h
  obtain ⟨⟨nursery, c₁⟩, hget, h⟩ := h
  obtain ⟨hnursery, rfl⟩ := getNursery_ok hget
  dsimp only at h
  split at h
  · cases h
  · rename_i routing hrouting
    split at h
    · cases h
    · rename_i found hfound
      obtain ⟨rfl, rfl⟩ := Prod.mk.inj (Except.ok.inj h)
      exact ⟨rfl, routing, by simp [Client.table, hnursery, hrouting], hfound⟩

/-- A cluster that is found is one of the table. -/
theorem nurseryRoutingLookup_mem {routing : NurseryRouting} {key : Bytes} {slot : Cluster × Nat}
    (h : nurseryRoutingLookup routing key = some (some slot)) : slot.1 ∈ routing.clusters := by
  obtain ⟨name, -, hfind⟩ := Option.bind_eq_some_iff.mp h
  exact List.fst_mem_of_mem_zipIdx (List.mem_of_find?_eq_some (Option.some.inj hfind))

theorem onSlot_ok {slot : Cluster × Nat} {m : ClientM α} {c c' : Client} {a : α}
    (h : (onSlot slot m).run c = .ok (a, c')) :
    ∃ w, m.run { c.keeper with cluster := slot.1 } = some (a, w) ∧
      c'.keeper = { c.keeper with heap := w.heap, dials := w.dials } ∧
      c'.table = c.table.map fun routing => { routing with clusters := routing.clusters.set slot.2 w.cluster } := by
  cases hrun : m.run { c.keeper with cluster := slot.1 } with
  | none => simp [onSlot, StateT.run, show m { c.keeper with cluster := slot.1 } = none from hrun] at h
  | some out =>
      simp only [onSlot, StateT.run, show m { c.keeper with cluster := slot.1 } = some out from hrun, Except.ok.injEq,
        Prod.mk.injEq] at h
      obtain ⟨rfl, rfl⟩ := h
      refine ⟨out.2, rfl, rfl, ?_⟩
      cases hnursery : c.nursery with
      | none => simp [Client.table, hnursery]
      | some nursery => simp [Client.table, hnursery]

end Calls

end Crakoon
