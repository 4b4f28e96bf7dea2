import Crakoon.ConnInvariant
import Crakoon.NurserySafety
import Crakoon.RoutingRoundTrip

/-!
# Invariants of a client

Every call of a client runs one program on one cluster: the keeper, or a cluster of the routing table. What that
program keeps of the connections of its cluster, the call keeps of all connections of the client
(`clientStep_all`).
-/

namespace Crakoon

open Programs Reading

/-- All open connections of the client have the property. -/
def Client.All (P : CString → Conn → Prop) (c : Client) : Prop :=
  c.keeper.cluster.All P ∧ ∀ routing, c.table = some routing → ∀ cluster ∈ routing.clusters, cluster.All P

theorem Client.all_of_closed {P : CString → Conn → Prop} {c : Client}
    (hkeeper : ∀ j, (c.keeper.cluster.node j).conn = none) (hnursery : c.nursery = none) : c.All P := by
  refine ⟨fun j conn hconn => ?_, fun routing htable => ?_⟩
  · rw [hkeeper j] at hconn
    cases hconn
  · rw [Client.table, hnursery] at htable
    cases htable

section Parse

variable {memory : Nat → Bool} {getaddrinfo : Nat → CString → CString → Option (List Address)}
  {version : ArakoonProtocolVersion}

theorem addEntries_closed {cluster : Cluster} (h : ∀ j, (cluster.node j).conn = none) (k : Nat)
    (es : List NodeEntry) :
    ∀ j, ((addEntries getaddrinfo k cluster es).node j).conn = none := by
  induction es generalizing k cluster with
  | nil => exact h
  | cons e es ih =>
      refine ih (fun j => ?_) (k + 1)
      by_cases hj : j = cluster.nodes.length
      · simp [arakoonClusterAddNode, Cluster.setNode, hj, nodeOf]
      · simp [arakoonClusterAddNode, Cluster.setNode, hj, h j]

theorem mem_of_visible {α : Type} {slots : List (Option α)} {a : α} (h : a ∈ visible slots) : some a ∈ slots := by
  induction slots with
  | nil => cases h
  | cons slot slots ih =>
      cases slot with
      | none => cases h
      | some b =>
          rcases List.mem_cons.mp h with rfl | h
          · exact List.mem_cons_self
          · exact List.mem_cons_of_mem _ (ih h)

theorem slotsOf_closed (cs : List ClusterEntry) (n k : Nat) :
    ∀ cluster, some cluster ∈ slotsOf memory getaddrinfo version n k cs → ∀ j, (cluster.node j).conn = none := by
  induction cs generalizing n k with
  | nil => intro cluster h; cases h
  | cons c cs ih =>
      intro cluster h
      rcases List.mem_cons.mp h with hfirst | h
      · split_ifs at hfirst
        obtain rfl := Option.some.inj hfirst
        exact addEntries_closed (fun _ => rfl) k c.nodes
      · exact ih _ _ cluster h

/-- No node of a new table is connected. -/
theorem nurseryRoutingParse_closed {length : Nat} {data : Bytes} {outcome : ParseOutcome} {routing : NurseryRouting}
    (h : nurseryRoutingParse memory getaddrinfo version length data = .ok outcome)
    (hrouting : outcome.routing = some routing) :
    ∀ cluster ∈ routing.clusters, ∀ j, (cluster.node j).conn = none := by
  obtain ⟨root, clusters, bs, rest, hword, rfl, hserved⟩ := nurseryRoutingParse_ok memory getaddrinfo version h
  rw [nurseryRoutingParse_word memory getaddrinfo version hword hserved] at h
  unfold finishParse at h
  split_ifs at h with hend hgranted
  · obtain rfl := Except.ok.inj h
    obtain rfl := Option.some.inj hrouting
    exact fun cluster hcluster => slotsOf_closed clusters _ 0 cluster (mem_of_visible hcluster)
  · obtain rfl := Except.ok.inj h
    cases hrouting

end Parse

section Calls

variable {α : Type}

/-- The world that the table of the client has for a key. -/
def Client.At (c : Client) (key : Bytes) (w : World) : Prop :=
  ∃ routing slot, c.table = some routing ∧ nurseryRoutingLookup routing key = some (some slot) ∧
    w = { c.keeper with cluster := slot.1 }

section Allowed

variable (alloc : Nat → Bool) (dial : Dialer) (A : Operation → Conn → Prop) (G : Bytes → Conn → Prop)

/-- All connections on which the call makes a request are what `A` and `G` ask. -/
def ClientCall.Allowed (call : ClientCall) (c : Client) : Prop :=
  match call with
  | .operation op _ => c.keeper.MasterPromised (A op)
  | .whoMaster _ => c.keeper.MasterPromised (G whoMasterFrame)
  | .connectMaster => ∀ k w', SearchAsks alloc dial k w' c.keeper → w'.Promised (G whoMasterFrame) k
  | .nurseryNew => True
  | .nurseryFree => True
  | .nurseryUpdateRouting _ _ => c.keeper.MasterPromised (G configFrame)
  | .nurseryGet options key _ => ∀ w, c.At key w → w.MasterPromised (A (.get options key))
  | .nurserySet key value => ∀ w, c.At key w → w.MasterPromised (A (.set key value))
  | .nurseryDelete key => ∀ w, c.At key w → w.MasterPromised (A (.delete key))
  | .nurseryReconnectMaster key =>
      ∀ w, c.At key w → ∀ k w', SearchAsks alloc dial k w' w → w'.Promised (G whoMasterFrame) k

end Allowed

variable {alloc : Nat → Bool} {dial : Dialer} {P R : CString → Conn → Prop} {A : Operation → Conn → Prop}
  {G : Bytes → Conn → Prop}

theorem ensures_onlyRc {m : ClientM (ArakoonRc × α)} {w : World} {Q : World → Prop}
    (h : Ensures m w fun _ w' => Q w') : Ensures (onlyRc m) w fun _ w' => Q w' := h.bind fun _ _ hQ => .pure hQ

theorem onKeeper_all {m : ClientM α} {c c' : Client} {a : α} (h : (onKeeper m).run c = .ok (a, c')) (hall : c.All P)
    (hm : Ensures m c.keeper fun _ w' => c.keeper.Keeps P w') : c'.All P := by
  obtain ⟨hrun, hnursery⟩ := onKeeper_ok h
  refine ⟨(hm a c'.keeper hrun).2, ?_⟩
  rw [Client.table, hnursery]
  exact hall.2

/-- An operation on a key changes at most the cluster it runs on. -/
theorem nurseryOperation_all {key : Bytes} {missing : α} {m : ClientM (ArakoonRc × α)} {c c' : Client}
    {rc : ArakoonRc} (h : (onlyRc (nurseryOperation key missing m)).run c = .ok (rc, c')) (hall : c.All P)
    (hm : ∀ w, c.At key w → w.cluster.All P → Ensures m w fun _ w' => w.Keeps P w') : c'.All P := by
  simp only [onlyRc, nurseryOperation, run_bind, bind_eq_ok] at h
  obtain ⟨⟨out, c₂⟩, ⟨⟨slot, c₁⟩, hlookup, hslot⟩, hpure⟩ := h
  obtain ⟨rfl, routing, htable, hfound⟩ := nurseryLookup_ok hlookup
  obtain ⟨-, rfl⟩ := Prod.mk.inj (Except.ok.inj hpure)
  cases slot with
  | none =>
      obtain ⟨-, rfl⟩ := Prod.mk.inj (Except.ok.inj hslot)
      exact hall
  | some slot =>
      have hmem := nurseryRoutingLookup_mem hfound
      obtain ⟨w, hrun, hkeeper, hafter⟩ := onSlot_ok hslot
      have hkeeps := hm _ ⟨routing, slot, htable, hfound, rfl⟩ (hall.2 routing htable _ hmem) _ _ hrun
      refine ⟨?_, fun routing' htable' cluster hcluster => ?_⟩
      · rw [hkeeper]
        exact hall.1
      · rw [hafter, htable] at htable'
        obtain rfl := Option.some.inj htable'
        rcases List.mem_or_eq_of_mem_set hcluster with hold | rfl
        · exact hall.2 routing htable cluster hold
        · exact hkeeps.2

/-- An update leaves a table of clusters that are not connected, or none. -/
theorem updateRouting_all {memory : Nat → Bool} {getaddrinfo : Nat → CString → CString → Option (List Address)}
    {c c' : Client} {rc : ArakoonRc} (h : (arakoonNurseryUpdateRouting alloc memory getaddrinfo).run c = .ok (rc, c'))
    (hconfig : Ensures (nurseryConfig alloc) c.keeper fun _ w' => c.keeper.Keeps P w') : c'.All P := by
  obtain ⟨nursery, out, w, -, hrun, hkeeper, hend⟩ := updateRoutingWith_ok h
  refine ⟨by rw [hkeeper]; exact (hconfig _ _ hrun).2, fun routing htable cluster hcluster j conn hconn => ?_⟩
  rcases hend with ⟨-, hdropped⟩ | ⟨-, outcome, hparse, -, hinstalled⟩
  · rw [Client.table, hdropped] at htable
    cases htable
  · rw [Client.table, hinstalled] at htable
    rw [nurseryRoutingParse_closed hparse htable cluster hcluster j] at hconn
    cases hconn

/-- A call that is allowed keeps the discipline on all connections of the client. -/
theorem clientStep_all (halloc : ∀ n, alloc n = true) (D : Discipline dial P R A G) {call : ClientCall}
    {c c' : Client} {rc : ArakoonRc} (hstep : clientStep alloc dial call c = .ok (rc, c')) (hall : c.All P)
    (hallowed : call.Allowed alloc dial A G c) : c'.All P := by
  cases call with
  | operation op result =>
      exact onKeeper_all hstep hall (ensures_onlyRc (ensures_operation_keeps halloc D op result hall.1 hallowed))
  | whoMaster master =>
      exact onKeeper_all hstep hall (ensures_onlyRc (ensures_whoMaster_keeps halloc D master hall.1 hallowed))
  | connectMaster => exact onKeeper_all hstep hall (ensures_connectMaster halloc D hall.1 hallowed)
  | nurseryNew =>
      simp only [clientStep, ClientCall.program, arakoonNurseryNew, StateT.run] at hstep
      split at hstep <;> obtain ⟨-, rfl⟩ := Prod.mk.inj (Except.ok.inj hstep)
      · exact ⟨hall.1, fun routing htable => by cases htable⟩
      · exact ⟨hall.1, fun routing htable => by cases htable⟩
  | nurseryFree =>
      simp only [clientStep, ClientCall.program, arakoonNurseryFree, run_bind, bind_eq_ok] at hstep
      obtain ⟨⟨nursery, c₁⟩, hget, hfree⟩ := hstep
      obtain ⟨-, rfl⟩ := getNursery_ok hget
      obtain ⟨-, rfl⟩ := Prod.mk.inj (Except.ok.inj hfree)
      exact ⟨hall.1, fun routing htable => by cases htable⟩
  | nurseryUpdateRouting memory getaddrinfo =>
      exact updateRouting_all hstep (ensures_nurseryConfig_keeps halloc D hall.1 hallowed)
  | nurseryGet options key result =>
      exact nurseryOperation_all hstep hall fun w hat hall' =>
        ensures_operation_keeps halloc D (.get options key) result hall' (hallowed w hat)
  | nurserySet key value =>
      exact nurseryOperation_all hstep hall fun w hat hall' =>
        ensures_operation_keeps halloc D (.set key value) () hall' (hallowed w hat)
  | nurseryDelete key =>
      exact nurseryOperation_all hstep hall fun w hat hall' =>
        ensures_operation_keeps halloc D (.delete key) () hall' (hallowed w hat)
  | nurseryReconnectMaster key =>
      apply nurseryOperation_all hstep hall
      intro w hat hall'
      exact (ensures_connectMaster halloc D hall' (hallowed w hat)).bind fun rc w' hkeeps => .pure hkeeps

/-- So does a run of such calls. -/
theorem run_all (halloc : ∀ n, alloc n = true) (D : Discipline dial P R A G) {start c : Client} (hstart : start.All P)
    {history : List (ClientCall × ArakoonRc)}
    (h : Run (clientStep alloc dial) (ClientCall.Allowed alloc dial A G) start history c) : c.All P :=
  h.invariant hstart fun _ _ _ _ hall hallowed hstep => clientStep_all halloc D hstep hall hallowed

section Master

variable (halloc : ∀ n, alloc n = true) {c c' : Client} {rc : ArakoonRc} {k : NodeId}
  (hmaster : c.keeper.cluster.master = some k) {conn : Conn} (hconn : (c.keeper.cluster.node k).conn = some conn)
include halloc hmaster hconn

theorem operation_step {op : Operation} {result : op.kind.Out} {frame : Bytes} (hframe : op.frame = some frame)
    (hstep : clientStep alloc dial (.operation op result) c = .ok (rc, c')) :
    ∃ s out s', Exchange op result s conn frame out s' ∧ (c'.keeper.cluster.node k).conn = s'.conn := by
  have hend := ensures_onlyRc ((yields_operation halloc result hmaster hconn hframe).ensures.mono
    (Q := fun _ w' => ∃ s out s', Exchange op result s conn frame out s' ∧ (w'.cluster.node k).conn = s'.conn) ?_)
  · exact hend _ _ (onKeeper_ok hstep).1
  · intro out _ hdone
    obtain ⟨s', rfl, hexchange⟩ := hdone
    exact ⟨_, out, s', hexchange, World.update_conn_self _ _ _⟩

theorem whoMaster_step {master : Data} (hstep : clientStep alloc dial (.whoMaster master) c = .ok (rc, c')) :
    ∃ s out s', BareExchange wireStringOption MasterNamed master s conn whoMasterFrame out s' ∧
      (c'.keeper.cluster.node k).conn = s'.conn := by
  have hend := ensures_onlyRc ((ensures_whoMaster halloc master c.keeper).mono (Q := fun _ w' => ∃ s out s',
    BareExchange wireStringOption MasterNamed master s conn whoMasterFrame out s' ∧
      (w'.cluster.node k).conn = s'.conn) ?_)
  · exact hend _ _ (onKeeper_ok hstep).1
  · intro out _ h
    rcases h with ⟨hnone, -⟩ | ⟨j, found, s', hj, hfound, hexchange, rfl⟩
    · rw [getMaster_eq_some.mpr ⟨hmaster, conn, hconn⟩] at hnone
      cases hnone
    · obtain rfl := Option.some.inj (hmaster.symm.trans hj)
      obtain rfl := Option.some.inj (hconn.symm.trans hfound)
      exact ⟨_, out, s', hexchange, World.update_conn_self _ _ _⟩

theorem updateRouting_step {memory : Nat → Bool} {getaddrinfo : Nat → CString → CString → Option (List Address)}
    (hstep : clientStep alloc dial (.nurseryUpdateRouting memory getaddrinfo) c = .ok (rc, c')) :
    ∃ s out s', BareExchange wireString TableFetched Data.null s conn configFrame out s' ∧
      (c'.keeper.cluster.node k).conn = s'.conn := by
  obtain ⟨_, out, w, -, hrun, hkeeper, -⟩ := updateRoutingWith_ok hstep
  rw [hkeeper]
  rcases ensures_nurseryConfig halloc c.keeper out w hrun with ⟨hnone, -⟩ | ⟨j, found, s', hj, hfound, hexchange, rfl⟩
  · rw [getMaster_eq_some.mpr ⟨hmaster, conn, hconn⟩] at hnone
    cases hnone
  · obtain rfl := Option.some.inj (hmaster.symm.trans hj)
    obtain rfl := Option.some.inj (hconn.symm.trans hfound)
    exact ⟨_, out, s', hexchange, World.update_conn_self _ _ _⟩

end Master

/-- What `A` and `G` ask of the master, they ask of its connection. -/
theorem masterPromised_iff {Q : Conn → Prop} {w : World} {k : NodeId} (hmaster : w.cluster.master = some k)
    {conn : Conn} (hconn : (w.cluster.node k).conn = some conn) : w.MasterPromised Q ↔ Q conn := by
  refine ⟨fun h => h k hmaster conn hconn, fun h j hj c hc => ?_⟩
  obtain rfl := Option.some.inj (hmaster.symm.trans hj)
  obtain rfl := Option.some.inj (hconn.symm.trans hc)
  exact h

end Calls

end Crakoon
