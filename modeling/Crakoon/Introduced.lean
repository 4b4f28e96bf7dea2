import Crakoon.WhoMaster

/-!
# Connections are introduced

The server knows a client by the prologue, the first bytes on a connection. `_arakoon_cluster_node_connect` stores the
descriptor before it has built the prologue, and keeps it when there is no memory for that; the next call finds the node
connected. In runs in which this does not happen every open connection begins with the prologue, whatever else fails
(`connection_introduced`).
-/

namespace Crakoon

open Programs

/-- The first that has been sent on the connection is the prologue. -/
def Introduced (name : CString) (c : Conn) : Prop :=
  ∃ prologue, (prologueCommand name).assembled = some prologue ∧ prologue <+: c.sent

theorem Introduced.onward {name : CString} {c c' : Conn} (h : Introduced name c) (honward : c.Onward c') :
    Introduced name c' := by
  obtain ⟨prologue, hprologue, hsent⟩ := h
  exact ⟨prologue, hprologue, hsent.trans honward.sent⟩

/-- The prologue is not empty. -/
theorem prologue_ne_nil {name : CString} {prologue : Bytes} (h : (prologueCommand name).assembled = some prologue) :
    prologue ≠ [] := by
  unfold Command.assembled at h
  split_ifs at h
  obtain rfl := Option.some.inj h
  exact List.cons_ne_nil _ _

/-- The cluster has kept its name, and its open connections were there before and have been used further. -/
structure World.Moves (w w' : World) : Prop where
  name : w'.cluster.name = w.cluster.name
  conn : ∀ k c', (w'.cluster.node k).conn = some c' → ∃ c, (w.cluster.node k).conn = some c ∧ c.Onward c'

theorem World.Moves.introduced {w w' : World} (h : w.Moves w') (hall : w.cluster.All Introduced) :
    w.Keeps Introduced w' := by
  refine ⟨h.name, fun k c' hc' => ?_⟩
  obtain ⟨c, hc, honward⟩ := h.conn k c' hc'
  rw [h.name]
  exact (hall k c hc).onward honward

theorem World.Moves.same {w w' : World} (h : w'.cluster = w.cluster) : w.Moves w' := by
  refine ⟨by rw [h], fun k c' hc' => ⟨c', ?_, .refl c'⟩⟩
  rw [← h]
  exact hc'

theorem World.Moves.update {w : World} {k : NodeId} {b : Nat} {s' : Session} (h : (w.session k).Further b s') :
    w.Moves (w.update k s') := by
  refine ⟨rfl, fun j c' hc' => ?_⟩
  by_cases hj : j = k
  · subst hj
    rw [World.update_conn_self] at hc'
    exact h.conn c' hc'
  · rw [World.update_conn_other hj] at hc'
    exact ⟨c', hc', .refl c'⟩

section Steps

variable {alloc : Nat → Bool} {dial : Dialer}

theorem moves_ask (k : NodeId) (master : Data) (w : World) :
    Ensures (onNode k (clusterNodeWhoMaster alloc master)) w fun _ w' => w.Moves w' := by
  have hask := onwards_clusterNodeWhoMaster alloc 0 master (w.session k) (Nat.zero_le _)
  refine (ensures_onNode hask).mono fun out _ ⟨s', ⟨_, honward, _⟩, heq⟩ => ?_
  subst heq
  exact .update honward.toFurther

theorem moves_operation (op : Operation) (result : op.kind.Out) (w : World) :
    Ensures (Operation.run alloc op result) w fun _ w' => w.Moves w' := by
  rw [Operation.run_eq]
  refine (ensures_withMaster (Q := fun k _ _ s' => (w.reset.session k).Further 0 s') fun k c _ _ => ?_).mono ?_
  · refine (furthers_clientOperation alloc 0 op result (w.reset.session k) (Nat.zero_le _)).mono ?_
    exact fun out s' h => h.2.1
  · intro out w' h
    rcases h with ⟨-, rfl⟩ | ⟨k, c, s', -, -, hfurther, rfl⟩
    · exact ⟨rfl, fun _ c hc => ⟨c, hc, .refl c⟩⟩
    · have hmoves : w.reset.Moves (w.reset.update k s') := .update hfurther
      exact ⟨hmoves.name, hmoves.conn⟩

theorem moves_whoMaster (master : Data) (w : World) :
    Ensures (arakoonWhoMaster alloc master) w fun _ w' => w.Moves w' := by
  refine (ensures_withMaster (Q := fun k _ _ s' => (w.reset.session k).Further 0 s') fun k c _ _ => ?_).mono ?_
  · refine (onwards_clusterNodeWhoMaster alloc 0 master (w.reset.session k) (Nat.zero_le _)).mono ?_
    exact fun out s' h => h.2.1.toFurther
  · intro out w' h
    rcases h with ⟨-, rfl⟩ | ⟨k, c, s', -, -, hfurther, rfl⟩
    · exact ⟨rfl, fun _ c hc => ⟨c, hc, .refl c⟩⟩
    · have hmoves : w.reset.Moves (w.reset.update k s') := .update hfurther
      exact ⟨hmoves.name, hmoves.conn⟩

/-- Without memory nothing is sent. -/
theorem ensures_sendCommand_enomem {command : Command} {s : Session} (halloc : alloc s.heap.calls = false) :
    Ensures (sendCommand alloc command) s fun _ s' => s'.conn = s.conn := by
  refine (Ensures.of_run (memNew_refused halloc)).bind fun _ s₁ hnew => ?_
  obtain ⟨rfl, rfl⟩ := hnew
  exact .pure rfl

theorem sendCommand_aborts {command : Command} (hnone : command.assembled = none) {s : Session}
    (halloc : alloc s.heap.calls = true) : (sendCommand alloc command).run s = none := by
  rw [sendCommand, hnone, sendBlock, bind_run, memNew_granted halloc]
  rfl

variable (alloc dial) in
/-- If a connection to the node is opened now, there is memory for the prologue. -/
def World.Introduces (w : World) (k : NodeId) : Prop :=
  (w.cluster.node k).conn = none → ∀ peer, dial w.dials (w.cluster.node k).address = .ok peer →
    alloc w.heap.calls = true

/-- Connecting to a node leaves the connections introduced if and only if there is memory for the prologue. -/
theorem introduced_clusterNodeConnect {k : NodeId} {w : World} (h : w.cluster.All Introduced) :
    Ensures (clusterNodeConnect alloc dial k) w fun _ w' => w'.cluster.name = w.cluster.name ∧
      (w'.cluster.All Introduced ↔ w.Introduces alloc dial k) := by
  intro rc w' hrun
  simp only [clusterNodeConnect, StateT.run] at hrun
  cases hconn : (w.cluster.node k).conn with
  | some c =>
      rw [hconn] at hrun
      obtain ⟨-, rfl⟩ := Prod.mk.inj (Option.some.inj hrun)
      refine ⟨rfl, iff_of_true h fun hnone => ?_⟩
      rw [hconn] at hnone
      cases hnone
  | none =>
      rw [hconn] at hrun
      cases hdial : dial w.dials (w.cluster.node k).address with
      | error failure =>
          rw [hdial] at hrun
          obtain ⟨-, rfl⟩ := Prod.mk.inj (Option.some.inj hrun)
          refine ⟨rfl, iff_of_true h fun _ peer hok => ?_⟩
          rw [hdial] at hok
          cases hok
      | ok peer =>
          rw [hdial] at hrun
          have hothers : ∀ j, j ≠ k → ∀ c, ((w.dialed k peer).cluster.node j).conn = some c →
              Introduced w.cluster.name c := by
            intro j hj c hc
            simp only [World.dialed, Cluster.setNode, if_neg hj] at hc
            exact h j c hc
          have hfresh : ((w.dialed k peer).session k).conn = some (.fresh peer) := by
            simp [World.dialed, World.session, Cluster.setNode]
          have hintroduces : w.Introduces alloc dial k ↔ alloc w.heap.calls = true :=
            ⟨fun hmem => hmem hconn peer hdial, fun hmem _ _ _ => hmem⟩
          rw [hintroduces]
          cases halloc : alloc w.heap.calls with
          | false =>
              have hsend : Ensures (sendCommand alloc (prologueCommand w.cluster.name)) ((w.dialed k peer).session k)
                  fun _ s' => s'.conn = ((w.dialed k peer).session k).conn := ensures_sendCommand_enomem halloc
              obtain ⟨s', hconn', rfl⟩ := ensures_onNode hsend rc w' hrun
              refine ⟨rfl, iff_of_false (fun hall => ?_) (by decide)⟩
              have hopen : (((w.dialed k peer).update k s').cluster.node k).conn = some (.fresh peer) := by
                rw [World.update_conn_self, hconn', hfresh]
              obtain ⟨prologue, hprologue, hsent⟩ := hall k _ hopen
              exact prologue_ne_nil hprologue (List.prefix_nil.mp hsent)
          | true =>
              cases hprologue : (prologueCommand w.cluster.name).assembled with
              | none =>
                  obtain ⟨out, hbody, -⟩ := Option.map_eq_some_iff.mp hrun
                  rw [sendCommand_aborts hprologue halloc] at hbody
                  cases hbody
              | some prologue =>
                  have hsend := ensures_sendCommand hprologue (s := (w.dialed k peer).session k) halloc hfresh
                  obtain ⟨s', hsent, rfl⟩ := ensures_onNode hsend rc w' hrun
                  refine ⟨rfl, iff_of_true (keeps_update hothers fun c hc => ?_).2 rfl⟩
                  rcases hsent with ⟨-, -, hconn'⟩ | ⟨-, -, hconn'⟩
                  · obtain rfl := Option.some.inj (hconn'.symm.trans hc)
                    exact ⟨prologue, hprologue, List.prefix_rfl⟩
                  · rw [hconn'] at hc
                    cases hc

end Steps

/-! ### Searches and runs -/

section Visits

variable (alloc : Nat → Bool) (dial : Dialer) (k : NodeId) (w' : World)

/-- The loop over the nodes comes to connect to the node `k`, in the state `w'`. -/
inductive FindConnects : List NodeId → Data → World → Prop where
  | connect {ks : List NodeId} {master : Data} : FindConnects (k :: ks) master w'
  | unconnected {j : NodeId} {ks : List NodeId} {master : Data} {w w₁ : World} {rc : ArakoonRc}
      (hconnect : (clusterNodeConnect alloc dial j).run w = some (rc, w₁)) (hrc : rc ≠ 0)
      (rest : FindConnects ks master w₁) : FindConnects (j :: ks) master w
  | unnamed {j : NodeId} {ks : List NodeId} {master : Data} {w w₁ w₂ : World} {out : ArakoonRc × Data}
      (hconnect : (clusterNodeConnect alloc dial j).run w = some (0, w₁))
      (hask : (onNode j (clusterNodeWhoMaster alloc master)).run w₁ = some (out, w₂))
      (hnone : ¬(out.1 = 0 ∧ out.2 ≠ .null)) (rest : FindConnects ks out.2 w₂) : FindConnects (j :: ks) master w

/-- The search for the master that starts in the state `w` comes to connect to the node `k`, in the state `w'`. -/
inductive SearchConnects (w : World) : Prop where
  | find (h : FindConnects alloc dial k w' w.cluster.nodes .null w)
  | validate {j : NodeId} {master : Data} {w₁ : World}
      (hfind : (findNode alloc dial w.cluster.nodes .null).run w = some ((some j, master), w₁))
      (hother : (w₁.cluster.node j).name ≠ master.cString)
      (hfound : w₁.cluster.nodes.find? (fun i => (w₁.cluster.node i).name = master.cString) = some k)
      (hstate : w' = { w₁ with heap := w₁.heap.free master.ptr })

end Visits

section Search

variable {alloc : Nat → Bool} {dial : Dialer}

variable (alloc dial) in
/-- There is memory for every prologue that the search has to send. -/
def World.SearchIntroduces (w : World) : Prop :=
  ∀ k w', SearchConnects alloc dial k w' w → w'.Introduces alloc dial k

theorem keeps_clusterNodeConnect {k : NodeId} {w : World} (h : w.cluster.All Introduced)
    (hmem : w.Introduces alloc dial k) :
    Ensures (clusterNodeConnect alloc dial k) w fun _ w' => w.Keeps Introduced w' :=
  (introduced_clusterNodeConnect h).mono fun _ _ hdone => ⟨hdone.1, hdone.2.mpr hmem⟩

theorem keeps_ask (k : NodeId) (master : Data) {w : World} (h : w.cluster.All Introduced) :
    Ensures (onNode k (clusterNodeWhoMaster alloc master)) w fun _ w' => w.Keeps Introduced w' :=
  (moves_ask k master w).mono fun _ _ hmoves => hmoves.introduced h

theorem keeps_findNode {ks : List NodeId} (master : Data) {w : World} (h : w.cluster.All Introduced)
    (hmem : ∀ k w', FindConnects alloc dial k w' ks master w → w'.Introduces alloc dial k) :
    Ensures (findNode alloc dial ks master) w fun _ w' => w.Keeps Introduced w' := by
  induction ks generalizing master w with
  | nil => exact Ensures.pure (.refl h)
  | cons k ks ih =>
      refine (keeps_clusterNodeConnect h (hmem k w .connect)).outcome.bind fun rc w₁ ⟨hconnect, hkeeps₁⟩ => ?_
      refine .ite (fun hrc => ?_) fun hrc => ?_
      · subst hrc
        refine (keeps_ask k master hkeeps₁.2).outcome.bind fun out w₂ ⟨hask, hkeeps₂⟩ => ?_
        refine .ite (fun _ => .pure (hkeeps₁.trans hkeeps₂)) fun hnone => ?_
        refine (ih out.2 hkeeps₂.2 fun j w' hrest => ?_).mono fun _ w' hkeeps => (hkeeps₁.trans hkeeps₂).trans hkeeps
        exact hmem j w' (.unnamed hconnect hask hnone hrest)
      · refine (ih master hkeeps₁.2 fun j w' hrest => ?_).mono fun _ w' hkeeps => hkeeps₁.trans hkeeps
        exact hmem j w' (.unconnected hconnect hrc hrest)

theorem FindAsks.introduced {k : NodeId} {w w' : World} {ks : List NodeId} {master : Data}
    (hasks : FindAsks alloc dial k w' ks master w) (h : w.cluster.All Introduced)
    (hmem : ∀ k w', FindConnects alloc dial k w' ks master w → w'.Introduces alloc dial k) :
    w'.cluster.All Introduced := by
  induction hasks with
  | ask hconnect => exact (keeps_clusterNodeConnect h (hmem _ _ .connect) _ _ hconnect).2
  | unconnected hconnect hrc rest ih =>
      have hkeeps := keeps_clusterNodeConnect h (hmem _ _ .connect) _ _ hconnect
      exact ih hkeeps.2 fun j w' hrest => hmem j w' (.unconnected hconnect hrc hrest)
  | unnamed hconnect hask hnone rest ih =>
      have hkeeps := keeps_clusterNodeConnect h (hmem _ _ .connect) _ _ hconnect
      have hkeeps₂ := keeps_ask _ _ hkeeps.2 _ _ hask
      exact ih hkeeps₂.2 fun j w' hrest => hmem j w' (.unnamed hconnect hask hnone hrest)

/-- Every node that the search asks for the master is asked on a connection that begins with the prologue. -/
theorem SearchAsks.introduced {k : NodeId} {w w' : World} (hasks : SearchAsks alloc dial k w' w)
    (h : w.cluster.All Introduced) (hmem : w.SearchIntroduces alloc dial) : w'.cluster.All Introduced := by
  have hfindmem : ∀ k w', FindConnects alloc dial k w' w.cluster.nodes .null w → w'.Introduces alloc dial k :=
    fun k w' hconnects => hmem k w' (.find hconnects)
  cases hasks with
  | find hasks => exact hasks.introduced h hfindmem
  | @validate j master w₁ hfind hother hfound hconnect =>
      have hkeeps := keeps_findNode .null h hfindmem _ _ hfind
      exact (keeps_clusterNodeConnect (w := { w₁ with heap := w₁.heap.free master.ptr }) hkeeps.2
        (hmem k _ (.validate hfind hother hfound rfl)) _ _ hconnect).2

theorem keeps_validateMaster (j : NodeId) (master : Data) {w : World} (h : w.cluster.All Introduced)
    (hmem : w.Introduces alloc dial j) :
    Ensures (validateMaster alloc dial j master) w fun _ w' => w.Keeps Introduced w' := by
  refine (keeps_clusterNodeConnect h hmem).bind fun rc w₁ hkeeps₁ => .ite (fun _ => .pure hkeeps₁) fun _ => ?_
  refine (keeps_ask j master hkeeps₁.2).bind fun out w₂ hkeeps₂ => ?_
  have hkeeps := hkeeps₁.trans hkeeps₂
  refine .ite (fun _ => .pure hkeeps) fun _ => Ensures.bind_get (.ite (fun _ => ?_) fun _ => ?_)
  · exact (ensures_freeString _ hkeeps.2).bind fun _ w₃ hkeeps₃ => .pure (hkeeps.trans hkeeps₃)
  · refine (ensures_setMaster j hkeeps.2).bind fun _ w₃ hkeeps₃ => ?_
    exact (ensures_freeString _ hkeeps₃.2).bind fun _ w₄ hkeeps₄ => .pure ((hkeeps.trans hkeeps₃).trans hkeeps₄)

theorem keeps_connectMaster {w : World} (h : w.cluster.All Introduced) (hmem : w.SearchIntroduces alloc dial) :
    Ensures (arakoonClusterConnectMaster alloc dial) w fun _ w' => w.Keeps Introduced w' := by
  apply Ensures.bind_get
  refine (keeps_findNode .null h fun k w' hconnects => hmem k w' (.find hconnects)).outcome.bind
    fun ⟨node, master⟩ w₁ ⟨hfind, hkeeps₁⟩ => ?_
  cases node with
  | none => exact .pure hkeeps₁
  | some k =>
      refine Ensures.bind_get (.ite (fun _ => ?_) fun hother => ?_)
      · refine (ensures_setMaster k hkeeps₁.2).bind fun _ w₃ hkeeps₃ => ?_
        exact (ensures_freeString _ hkeeps₃.2).bind fun _ w₄ hkeeps₄ => .pure ((hkeeps₁.trans hkeeps₃).trans hkeeps₄)
      · refine (ensures_freeString _ hkeeps₁.2).outcome.bind fun _ w₃ ⟨hfree, hkeeps₃⟩ => ?_
        obtain ⟨-, rfl⟩ := Prod.mk.inj (Option.some.inj hfree)
        split
        · exact .pure (hkeeps₁.trans hkeeps₃)
        · rename_i j hfound
          refine (keeps_validateMaster j master hkeeps₃.2 ?_).mono fun _ w₄ hkeeps₄ =>
            (hkeeps₁.trans hkeeps₃).trans hkeeps₄
          exact hmem j _ (.validate hfind hother hfound rfl)

variable (alloc dial) in
/-- A search has memory for the prologues that it has to send. -/
def ClusterCall.Introduces (call : ClusterCall) (w : World) : Prop :=
  match call with
  | .operation _ _ => True
  | .whoMaster _ => True
  | .connectMaster => w.SearchIntroduces alloc dial

theorem introduced_clusterStep {call : ClusterCall} {w w' : World} {rc : ArakoonRc} (h : w.cluster.All Introduced)
    (hmem : call.Introduces alloc dial w) (hstep : clusterStep alloc dial call w = .ok (rc, w')) :
    w'.cluster.All Introduced := by
  cases call with
  | operation op result =>
      obtain ⟨out, w₁, hrun, hpure⟩ := bind_run_eq_some.mp (clusterStep_ok hstep)
      obtain ⟨-, rfl⟩ := Prod.mk.inj (Option.some.inj hpure)
      exact ((moves_operation op result w out w₁ hrun).introduced h).2
  | whoMaster master =>
      obtain ⟨out, w₁, hrun, hpure⟩ := bind_run_eq_some.mp (clusterStep_ok hstep)
      obtain ⟨-, rfl⟩ := Prod.mk.inj (Option.some.inj hpure)
      exact ((moves_whoMaster master w out w₁ hrun).introduced h).2
  | connectMaster => exact (keeps_connectMaster h hmem rc w' (clusterStep_ok hstep)).2

/-- In a run in which every search has memory for the prologues it has to send, every open connection of every state
reached begins with the prologue, and so does every connection on which a search then asks for the master. Connecting to
a node leaves the connections so if and only if there is memory for the prologue. -/
theorem connection_introduced :
    (∀ start history w, start.cluster.All Introduced →
      Run (clusterStep alloc dial) (ClusterCall.Introduces alloc dial) start history w → w.cluster.All Introduced ∧
        ∀ k w₁, w.SearchIntroduces alloc dial → SearchAsks alloc dial k w₁ w → w₁.cluster.All Introduced) ∧
    ∀ k w rc w', w.cluster.All Introduced → (clusterNodeConnect alloc dial k).run w = some (rc, w') →
      (w'.cluster.All Introduced ↔ w.Introduces alloc dial k) := by
  refine ⟨fun start history w hstart hrun => ?_, fun k w rc w' h hrun => ?_⟩
  · have hall : w.cluster.All Introduced := hrun.invariant (I := fun w => w.cluster.All Introduced) hstart
      fun call w rc w' h hmem hstep => introduced_clusterStep h hmem hstep
    exact ⟨hall, fun k w₁ hmem hasks => hasks.introduced hall hmem⟩
  · exact (introduced_clusterNodeConnect h rc w' hrun).2

end Search

/-- There is no memory for the prologue of the first search. The second one asks for the master on the connection that
the first has left open. -/
theorem connectMaster_unintroduced :
    let alloc := fun n => decide (n ≠ 0)
    let dial := reaching (.answering masterReply)
    ∃ w c rc, Run (clusterStep alloc dial) (fun _ _ => True) (World.single sampleName)
        [(.connectMaster, 0), (.connectMaster, rc)] w ∧
      (w.cluster.node 0).conn = some c ∧ c.sent = whoMasterFrame ∧ ¬Introduced w.cluster.name c := by
  intro alloc dial
  refine ⟨_, _, _, .call (.call .nil trivial rfl) trivial rfl, rfl, rfl, fun hintroduced => ?_⟩
  obtain ⟨prologue, hprologue, hsent⟩ := hintroduced
  obtain rfl := Option.some.inj hprologue
  exact absurd hsent (by decide)

/-- A search with enough memory. -/
theorem connection_introduced_single :
    let dial := reaching (.answering masterReply)
    ∃ w c, Run (clusterStep (fun _ => true) dial) (ClusterCall.Introduces (fun _ => true) dial) (World.single sampleName)
        [(.connectMaster, 0)] w ∧
      (w.cluster.node 0).conn = some c ∧ Introduced w.cluster.name c := by
  intro dial
  have hstart : (World.single sampleName).cluster.All Introduced := by
    intro k c hc
    rw [World.single_closed] at hc
    cases hc
  have hrun : ∃ w c, Run (clusterStep (fun _ => true) dial) (ClusterCall.Introduces (fun _ => true) dial)
      (World.single sampleName) [(.connectMaster, 0)] w ∧ (w.cluster.node 0).conn = some c :=
    ⟨_, _, .call .nil (fun _ _ _ _ _ _ => rfl) rfl, rfl⟩
  obtain ⟨w, c, hrun, hconn⟩ := hrun
  exact ⟨w, c, hrun, hconn, (connection_introduced.1 _ _ _ hstart hrun).1 0 c hconn⟩

end Crakoon
