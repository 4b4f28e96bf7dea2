import Crakoon.BareExchange

/-!
# Invariants of connections

What holds of every open connection between calls. An exchange says what becomes of the connection it is made
on, and all others stay what they are; so a property of connections is an invariant of the calls once the
exchanges keep it (`Discipline`). The rules below carry it from the exchanges to the search for the master, and
from there to the calls of a client with its nursery.
-/

namespace Crakoon

open Programs Reading

theorem World.update_conn_self (w : World) (k : NodeId) (s : Session) :
    ((w.update k s).cluster.node k).conn = s.conn := by
  simp [World.update, Cluster.setNode]

theorem World.update_conn_other {k j : NodeId} (h : j ≠ k) (w : World) (s : Session) :
    ((w.update k s).cluster.node j).conn = (w.cluster.node j).conn := by
  simp [World.update, Cluster.setNode, h]

/-- A program on a node changes that node alone. -/
theorem ensures_onNode {α : Type} {m : SessionM α} {k : NodeId} {w : World} {Q : α → Session → Prop}
    (h : Ensures m (w.session k) Q) : Ensures (onNode k m) w fun a w' => ∃ s', Q a s' ∧ w' = w.update k s' := by
  intro a w' hrun
  obtain ⟨⟨b, s'⟩, hbody, hout⟩ := Option.map_eq_some_iff.mp hrun
  obtain ⟨rfl, rfl⟩ := Prod.mk.inj hout
  exact ⟨s', h _ _ hbody, rfl⟩

section Alloc

variable {α : Type} {alloc : Nat → Bool} (halloc : ∀ n, alloc n = true)

/-- Where no node is connected, an operation only resets the last error; else it runs on the master. -/
theorem ensures_withMaster {missing : α} {body : SessionM (ArakoonRc × α)} {w : World}
    {Q : NodeId → Conn → ArakoonRc × α → Session → Prop}
    (h : ∀ k c, w.cluster.master = some k → (w.cluster.node k).conn = some c →
      Ensures body (w.reset.session k) (Q k c)) :
    Ensures (withMaster missing body) w fun out w' => w.cluster.getMaster = none ∧ w' = w.reset ∨
      ∃ k c s', w.cluster.master = some k ∧ (w.cluster.node k).conn = some c ∧ Q k c out s' ∧
        w' = w.reset.update k s' := by
  intro out w' hrun
  cases hget : w.cluster.getMaster with
  | none =>
      rw [withMaster_none hget] at hrun
      exact .inl ⟨rfl, (congrArg Prod.snd (Option.some.inj hrun)).symm⟩
  | some k =>
      rw [withMaster_some hget] at hrun
      obtain ⟨hmaster, c, hc⟩ := getMaster_eq_some.mp hget
      obtain ⟨s', hQ, rfl⟩ := ensures_onNode (h k c hmaster hc) out w' hrun
      exact .inr ⟨k, c, s', hmaster, hc, hQ, rfl⟩

include halloc

theorem sendBlock_aborts (write : Bytes → SessionM ArakoonRc) (s : Session) :
    (sendBlock alloc write none).run s = none := by
  rw [sendBlock, bind_run, memNew_granted (halloc _)]
  rfl

theorem send_aborts {op : Operation} (h : op.frame = none) (s : Session) :
    (Operation.send alloc op).run s = none := by
  have hblock : op.block = none := Option.map_eq_none_iff.mp h
  have hone : (sendBlock alloc (if op.writesUnchecked then clusterNodeWriteBytes else writeBytes) op.block).run s =
      none := by
    rw [hblock]
    exact sendBlock_aborts halloc _ s
  cases op with
  | multiGet options keys =>
      have hassembled : (multiGetCommand options keys).assembled = none := hblock
      rw [Operation.send, sendMultiGet, sendCommand, hassembled, bind_run, sendBlock_aborts halloc]
      rfl
  | _ => exact hone

/-- An operation that returns has made an exchange, unless there was no connection to make it on. -/
theorem ensures_operation (op : Operation) (result : op.kind.Out) (w : World) :
    Ensures (Operation.run alloc op result) w fun out w' => w.cluster.getMaster = none ∧ w' = w.reset ∨
      ∃ k c s', w.cluster.master = some k ∧ (w.cluster.node k).conn = some c ∧
        (∃ frame, op.frame = some frame ∧ Exchange op result (w.reset.session k) c frame out s') ∧
        w' = w.reset.update k s' := by
  rw [Operation.run_eq]
  apply ensures_withMaster
  intro k c hmaster hc
  cases hframe : op.frame with
  | none =>
      intro out s' hrun
      rw [clientOperation, bind_run, send_aborts halloc hframe] at hrun
      cases hrun
  | some frame =>
      refine (yields_clientOperation halloc result hc hframe).ensures.mono fun out s' h => ⟨frame, rfl, h⟩

theorem ensures_whoMaster (master : Data) (w : World) :
    Ensures (arakoonWhoMaster alloc master) w fun out w' => w.cluster.getMaster = none ∧ w' = w.reset ∨
      ∃ k c s', w.cluster.master = some k ∧ (w.cluster.node k).conn = some c ∧
        BareExchange wireStringOption MasterNamed master (w.reset.session k) c whoMasterFrame out s' ∧
        w' = w.reset.update k s' :=
  ensures_withMaster fun _ _ _ hc => (yields_clusterNodeWhoMaster halloc master hc).ensures

/-- The request for a routing table leaves the last error as it is. -/
theorem ensures_nurseryConfig (w : World) :
    Ensures (nurseryConfig alloc) w fun out w' => w.cluster.getMaster = none ∧ w' = w ∨
      ∃ k c s', w.cluster.master = some k ∧ (w.cluster.node k).conn = some c ∧
        BareExchange wireString TableFetched .null (w.session k) c configFrame out s' ∧
        w' = w.update k s' := by
  intro out w' hrun
  simp only [nurseryConfig, StateT.run] at hrun
  cases hget : w.cluster.getMaster with
  | none =>
      rw [hget] at hrun
      exact .inl ⟨rfl, (congrArg Prod.snd (Option.some.inj hrun)).symm⟩
  | some k =>
      rw [hget] at hrun
      obtain ⟨hmaster, c, hc⟩ := getMaster_eq_some.mp hget
      have hyields := yields_nurseryConfig halloc (s := w.session k) hc
      obtain ⟨s', hexchange, rfl⟩ := ensures_onNode hyields.ensures out w' hrun
      exact .inr ⟨k, c, s', hmaster, hc, hexchange, rfl⟩

end Alloc

/-- Every open connection of the cluster has the property, which may speak of the name of the cluster. -/
def Cluster.All (P : CString → Conn → Prop) (cluster : Cluster) : Prop :=
  ∀ k c, (cluster.node k).conn = some c → P cluster.name c

/-- The cluster has kept its name, and its open connections have the property. -/
def World.Keeps (P : CString → Conn → Prop) (w w' : World) : Prop :=
  w'.cluster.name = w.cluster.name ∧ w'.cluster.All P

theorem World.Keeps.refl {P : CString → Conn → Prop} {w : World} (h : w.cluster.All P) : w.Keeps P w := ⟨rfl, h⟩

theorem World.Keeps.trans {P Q : CString → Conn → Prop} {w w₁ w₂ : World} (h₁ : w.Keeps P w₁) (h₂ : w₁.Keeps Q w₂) :
    w.Keeps Q w₂ := ⟨h₂.1.trans h₁.1, h₂.2⟩

/-- An exchange on a node keeps what it keeps on that node. -/
theorem keeps_update {P : CString → Conn → Prop} {w : World} {k : NodeId} {s : Session}
    (hothers : ∀ j, j ≠ k → ∀ c, (w.cluster.node j).conn = some c → P w.cluster.name c)
    (hk : ∀ c, s.conn = some c → P w.cluster.name c) : w.Keeps P (w.update k s) := by
  refine ⟨rfl, fun j c hc => ?_⟩
  by_cases hj : j = k
  · subst hj
    rw [World.update_conn_self] at hc
    exact hk c hc
  · rw [World.update_conn_other hj] at hc
    exact hothers j hj c hc

section Asks

variable (alloc : Nat → Bool) (dial : Dialer) (k : NodeId) (w' : World)

/-- The loop over the nodes comes to ask the node `k`, in the state `w'`. -/
inductive FindAsks : List NodeId → Data → World → Prop where
  | ask {ks : List NodeId} {master : Data} {w : World}
      (hconnect : (clusterNodeConnect alloc dial k).run w = some (0, w')) : FindAsks (k :: ks) master w
  | unconnected {j : NodeId} {ks : List NodeId} {master : Data} {w w₁ : World} {rc : ArakoonRc}
      (hconnect : (clusterNodeConnect alloc dial j).run w = some (rc, w₁)) (hrc : rc ≠ 0)
      (rest : FindAsks ks master w₁) : FindAsks (j :: ks) master w
  | unnamed {j : NodeId} {ks : List NodeId} {master : Data} {w w₁ w₂ : World} {out : ArakoonRc × Data}
      (hconnect : (clusterNodeConnect alloc dial j).run w = some (0, w₁))
      (hask : (onNode j (clusterNodeWhoMaster alloc master)).run w₁ = some (out, w₂))
      (hnone : ¬(out.1 = 0 ∧ out.2 ≠ .null)) (rest : FindAsks ks out.2 w₂) : FindAsks (j :: ks) master w

/-- The search for the master that starts in the state `w` comes to ask the node `k`, in the state `w'`. -/
inductive SearchAsks (w : World) : Prop where
  | find (h : FindAsks alloc dial k w' w.cluster.nodes .null w)
  | validate {j : NodeId} {master : Data} {w₁ : World}
      (hfind : (findNode alloc dial w.cluster.nodes .null).run w = some ((some j, master), w₁))
      (hother : (w₁.cluster.node j).name ≠ master.cString)
      (hfound : w₁.cluster.nodes.find? (fun i => (w₁.cluster.node i).name = master.cString) = some k)
      (hconnect : (clusterNodeConnect alloc dial k).run { w₁ with heap := w₁.heap.free master.ptr } = some (0, w'))

end Asks

/-- `P` holds of the connections between calls and `R` of one that is asked for the master: one with `P` or one that
has just been opened. The exchanges keep them where the connection is what `A` asks of an operation, and what `G`
asks of a request without a message. -/
structure Discipline (dial : Dialer) (P R : CString → Conn → Prop) (A : Operation → Conn → Prop)
    (G : Bytes → Conn → Prop) : Prop where
  weaken : ∀ {name c}, P name c → R name c
  dialed : ∀ {n address peer name prologue c'}, dial n address = .ok peer →
    (prologueCommand name).assembled = some prologue → (Conn.fresh peer).Wrote c' prologue 1 → R name c'
  ask : ∀ {name s c master out s' c'}, R name c → G whoMasterFrame c →
    BareExchange wireStringOption MasterNamed master s c whoMasterFrame out s' → s'.conn = some c' → P name c'
  config : ∀ {name s c out s' c'}, P name c → G configFrame c →
    BareExchange wireString TableFetched Data.null s c configFrame out s' →
    s'.conn = some c' → P name c'
  operation : ∀ {name s c op result frame out s' c'}, P name c → A op c → op.frame = some frame →
    Exchange op result s c frame out s' → s'.conn = some c' → P name c'

/-- The connection of the node, if it has one, is what `G` asks. -/
def World.Promised (G : Conn → Prop) (k : NodeId) (w : World) : Prop := ∀ c, (w.cluster.node k).conn = some c → G c

def World.MasterPromised (G : Conn → Prop) (w : World) : Prop := ∀ k, w.cluster.master = some k → w.Promised G k

section Search

variable {alloc : Nat → Bool} (halloc : ∀ n, alloc n = true) {dial : Dialer} {P R : CString → Conn → Prop}
  {A : Operation → Conn → Prop} {G : Bytes → Conn → Prop} (D : Discipline dial P R A G)
include halloc D

/-- A connection is opened, or there was one, or there is none. -/
theorem ensures_clusterNodeConnect (k : NodeId) {w : World} (h : w.cluster.All P) :
    Ensures (clusterNodeConnect alloc dial k) w fun rc w' => w'.cluster.name = w.cluster.name ∧
      (rc ≠ 0 → w'.cluster.All P) ∧
      (rc = 0 → (∀ j, j ≠ k → ∀ c, (w'.cluster.node j).conn = some c → P w.cluster.name c) ∧
        ∃ c, (w'.cluster.node k).conn = some c ∧ R w.cluster.name c) := by
  intro rc w' hrun
  simp only [clusterNodeConnect, StateT.run] at hrun
  cases hconn : (w.cluster.node k).conn with
  | some c =>
      rw [hconn] at hrun
      obtain ⟨rfl, rfl⟩ := Prod.mk.inj (Option.some.inj hrun)
      exact ⟨rfl, fun _ => h, fun _ => ⟨fun j _ => h j, c, hconn, D.weaken (h k c hconn)⟩⟩
  | none =>
      rw [hconn] at hrun
      cases hdial : dial w.dials (w.cluster.node k).address with
      | error failure =>
          rw [hdial] at hrun
          obtain ⟨rfl, rfl⟩ := Prod.mk.inj (Option.some.inj hrun)
          exact ⟨rfl, fun _ => h, fun hrc => absurd hrc failure.2⟩
      | ok peer =>
          rw [hdial] at hrun
          have hothers : ∀ j, j ≠ k → ∀ c, ((w.dialed k peer).cluster.node j).conn = some c → P w.cluster.name c := by
            intro j hj c hc
            simp only [World.dialed, Cluster.setNode, if_neg hj] at hc
            exact h j c hc
          have hfresh : ((w.dialed k peer).session k).conn = some (.fresh peer) := by
            simp [World.dialed, World.session, Cluster.setNode]
          cases hprologue : (prologueCommand w.cluster.name).assembled with
          | none =>
              rw [sendCommand, hprologue] at hrun
              obtain ⟨out, hbody, -⟩ := Option.map_eq_some_iff.mp hrun
              rw [sendBlock_aborts halloc] at hbody
              cases hbody
          | some prologue =>
              rw [sendCommand, hprologue] at hrun
              have hsend := (yields_sendBlock halloc (fun _ => yields_writeBytes prologue) hfresh).ensures
              obtain ⟨s', hsent, rfl⟩ := ensures_onNode hsend rc w' hrun
              refine ⟨rfl, fun hrc => ?_, fun hrc => ?_⟩
              · refine (keeps_update hothers fun c hc => ?_).2
                cases hsent with
                | whole c' hzero => exact absurd hzero hrc
                | partly moved failure hleft => cases hleft
                | closed _ _ hnone =>
                    rw [hnone] at hc
                    cases hc
              · obtain ⟨c', hconn', wrote, -⟩ := hsent.sent hrc
                refine ⟨fun j hj c hc => ?_, c', ?_, D.dialed hdial hprologue wrote⟩
                · rw [World.update_conn_other hj] at hc
                  exact hothers j hj c hc
                · rw [World.update_conn_self, hconn']

theorem ensures_ask {k : NodeId} (master : Data) {w : World}
    (hothers : ∀ j, j ≠ k → ∀ c, (w.cluster.node j).conn = some c → P w.cluster.name c)
    (hk : ∃ c, (w.cluster.node k).conn = some c ∧ R w.cluster.name c) (hG : w.Promised (G whoMasterFrame) k) :
    Ensures (onNode k (clusterNodeWhoMaster alloc master)) w fun _ w' => w.Keeps P w' := by
  obtain ⟨c, hconn, hR⟩ := hk
  refine (ensures_onNode (yields_clusterNodeWhoMaster halloc master (s := w.session k) hconn).ensures).mono ?_
  intro out _ hdone
  obtain ⟨s', hexchange, rfl⟩ := hdone
  exact keeps_update hothers fun c' hc' => D.ask hR (hG c hconn) hexchange hc'

theorem ensures_findNode (ks : List NodeId) (master : Data) {w : World} (h : w.cluster.All P)
    (hasks : ∀ k w', FindAsks alloc dial k w' ks master w → w'.Promised (G whoMasterFrame) k) :
    Ensures (findNode alloc dial ks master) w fun _ w' => w.Keeps P w' := by
  induction ks generalizing w master with
  | nil => exact Ensures.pure (.refl h)
  | cons k ks ih =>
      refine (ensures_clusterNodeConnect halloc D k h).outcome.bind fun rc w₁ ⟨hconnect, hname, hclosed, hopen⟩ =>
        .ite (fun hrc => ?_) fun hrc => ?_
      · subst hrc
        obtain ⟨hothers, hk⟩ := hopen rfl
        rw [← hname] at hothers hk
        have hask := ensures_ask halloc D master hothers hk (hasks k w₁ (.ask hconnect))
        refine hask.outcome.bind fun out w₂ ⟨hask, hkeeps⟩ => ?_
        have hkeeps₂ : w.Keeps P w₂ := ⟨hkeeps.1.trans hname, hkeeps.2⟩
        refine .ite (fun _ => .pure hkeeps₂) fun hnone => ?_
        refine (ih out.2 hkeeps.2 fun j w' hrest => ?_).mono fun _ w' hkeeps' => hkeeps₂.trans hkeeps'
        exact hasks j w' (.unnamed hconnect hask hnone hrest)
      · have hkept : w.Keeps P w₁ := ⟨hname, hclosed hrc⟩
        refine (ih master hkept.2 fun j w' hrest => ?_).mono fun _ w' hkeeps => hkept.trans hkeeps
        exact hasks j w' (.unconnected hconnect hrc hrest)

omit halloc D in
theorem ensures_freeString (d : Data) {w : World} (h : w.cluster.All P) :
    Ensures (freeString d) w fun _ w' => w.Keeps P w' := by
  intro a w' hrun
  obtain ⟨rfl, rfl⟩ := Prod.mk.inj (Option.some.inj hrun)
  exact ⟨rfl, h⟩

omit halloc D in
theorem ensures_setMaster (k : NodeId) {w : World} (h : w.cluster.All P) :
    Ensures (setMaster k) w fun _ w' => w.Keeps P w' := by
  intro a w' hrun
  obtain ⟨rfl, rfl⟩ := Prod.mk.inj (Option.some.inj hrun)
  exact ⟨rfl, h⟩

theorem ensures_validateMaster (j : NodeId) (master : Data) {w : World} (h : w.cluster.All P)
    (hasks : ∀ w', (clusterNodeConnect alloc dial j).run w = some (0, w') → w'.Promised (G whoMasterFrame) j) :
    Ensures (validateMaster alloc dial j master) w fun _ w' => w.Keeps P w' := by
  refine (ensures_clusterNodeConnect halloc D j h).outcome.bind fun rc w₁ ⟨hconnect, hname, hclosed, hopen⟩ => .ite
    (fun hrc => .pure ⟨hname, hclosed hrc⟩) fun hrc => ?_
  obtain rfl : rc = 0 := not_ne_iff.mp hrc
  obtain ⟨hothers, hk⟩ := hopen rfl
  rw [← hname] at hothers hk
  refine (ensures_ask halloc D master hothers hk (hasks w₁ hconnect)).bind fun out w₂ hkeeps => ?_
  have hkeeps₂ : w.Keeps P w₂ := ⟨hkeeps.1.trans hname, hkeeps.2⟩
  refine .ite (fun _ => .pure hkeeps₂) fun _ => Ensures.bind_get (.ite (fun _ => ?_) fun _ => ?_)
  · exact (ensures_freeString _ hkeeps₂.2).bind fun _ w₃ hkeeps₃ => .pure (hkeeps₂.trans hkeeps₃)
  · refine (ensures_setMaster j hkeeps₂.2).bind fun _ w₃ hkeeps₃ => ?_
    exact (ensures_freeString _ hkeeps₃.2).bind fun _ w₄ hkeeps₄ => .pure ((hkeeps₂.trans hkeeps₃).trans hkeeps₄)

/-- The search for the master keeps the discipline. -/
theorem ensures_connectMaster {w : World} (h : w.cluster.All P)
    (hasks : ∀ k w', SearchAsks alloc dial k w' w → w'.Promised (G whoMasterFrame) k) :
    Ensures (arakoonClusterConnectMaster alloc dial) w fun _ w' => w.Keeps P w' := by
  apply Ensures.bind_get
  refine (ensures_findNode halloc D _ _ h fun k w' hfind => hasks k w' (.find hfind)).outcome.bind
    fun ⟨node, master⟩ w₁ ⟨hfind, hkeeps₁⟩ => ?_
  cases node with
  | none => exact .pure hkeeps₁
  | some k =>
      refine Ensures.bind_get (.ite (fun _ => ?_) fun hother => ?_)
      · refine (ensures_setMaster k hkeeps₁.2).bind fun _ w₃ hkeeps₃ => ?_
        exact (ensures_freeString _ hkeeps₃.2).bind fun _ w₄ hkeeps₄ => .pure ((hkeeps₁.trans hkeeps₃).trans hkeeps₄)
      · refine (ensures_freeString _ hkeeps₁.2).outcome.bind fun _ w₃ ⟨hfree, hkeeps₃⟩ => ?_
        obtain ⟨-, rfl⟩ := Prod.mk.inj (Option.some.inj hfree)
        split
        · exact .pure (hkeeps₁.trans hkeeps₃)
        · rename_i j hfound
          refine (ensures_validateMaster halloc D j master hkeeps₃.2 fun w' hconnect => ?_).mono fun _ w₄ hkeeps₄ =>
            (hkeeps₁.trans hkeeps₃).trans hkeeps₄
          exact hasks j w' (.validate hfind hother hfound hconnect)

/-- The connections on which the walk over the nodes asks have `R`. -/
theorem FindAsks.asked (hG : ∀ bs c, G bs c) {k : NodeId} {w w' : World} {ks : List NodeId} {master : Data}
    (h : FindAsks alloc dial k w' ks master w) (hall : w.cluster.All P) :
    ∃ c, (w'.cluster.node k).conn = some c ∧ R w.cluster.name c := by
  induction h with
  | ask hconnect =>
      obtain ⟨-, -, hopen⟩ := ensures_clusterNodeConnect halloc D _ hall _ _ hconnect
      exact (hopen rfl).2
  | unconnected hconnect hrc rest ih =>
      obtain ⟨hname, hclosed, -⟩ := ensures_clusterNodeConnect halloc D _ hall _ _ hconnect
      rw [← hname]
      exact ih (hclosed hrc)
  | unnamed hconnect hask hnone rest ih =>
      obtain ⟨hname, -, hopen⟩ := ensures_clusterNodeConnect halloc D _ hall _ _ hconnect
      obtain ⟨hothers, hk⟩ := hopen rfl
      rw [← hname] at hothers hk ⊢
      obtain ⟨hname₂, hall₂⟩ := ensures_ask halloc D _ hothers hk (fun _ _ => hG _ _) _ _ hask
      rw [← hname₂]
      exact ih hall₂

theorem SearchAsks.asked (hG : ∀ bs c, G bs c) {k : NodeId} {w w' : World} (h : SearchAsks alloc dial k w' w)
    (hall : w.cluster.All P) : ∃ c, (w'.cluster.node k).conn = some c ∧ R w.cluster.name c := by
  cases h with
  | find h => exact h.asked halloc D hG hall
  | @validate j master w₁ hfind _ _ hconnect =>
      obtain ⟨hname, hall₁⟩ := ensures_findNode halloc D _ _ hall (fun _ _ _ _ _ => hG _ _) _ _ hfind
      have hconnected := ensures_clusterNodeConnect halloc D k (w := { w₁ with heap := w₁.heap.free master.ptr }) hall₁
      obtain ⟨-, -, hopen⟩ := hconnected _ _ hconnect
      rw [← hname]
      exact (hopen rfl).2

theorem ensures_operation_keeps (op : Operation) (result : op.kind.Out) {w : World} (h : w.cluster.All P)
    (hA : w.MasterPromised (A op)) : Ensures (Operation.run alloc op result) w fun _ w' => w.Keeps P w' := by
  refine (ensures_operation halloc op result w).mono fun out w' hend => ?_
  rcases hend with ⟨-, rfl⟩ | ⟨k, c, s', hmaster, hc, ⟨frame, hframe, hexchange⟩, rfl⟩
  · exact ⟨rfl, h⟩
  · exact keeps_update (w := w.reset) (fun j _ => h j) fun c' hc' =>
      D.operation (h k c hc) (hA k hmaster c hc) hframe hexchange hc'

theorem ensures_whoMaster_keeps (master : Data) {w : World} (h : w.cluster.All P)
    (hG : w.MasterPromised (G whoMasterFrame)) :
    Ensures (arakoonWhoMaster alloc master) w fun _ w' => w.Keeps P w' := by
  refine (ensures_whoMaster halloc master w).mono fun out w' hend => ?_
  rcases hend with ⟨-, rfl⟩ | ⟨k, c, s', hmaster, hc, hexchange, rfl⟩
  · exact ⟨rfl, h⟩
  · exact keeps_update (w := w.reset) (fun j _ => h j) fun c' hc' =>
      D.ask (D.weaken (h k c hc)) (hG k hmaster c hc) hexchange hc'

theorem ensures_nurseryConfig_keeps {w : World} (h : w.cluster.All P) (hG : w.MasterPromised (G configFrame)) :
    Ensures (nurseryConfig alloc) w fun _ w' => w.Keeps P w' := by
  refine (ensures_nurseryConfig halloc w).mono fun out w' hend => ?_
  rcases hend with ⟨-, rfl⟩ | ⟨k, c, s', hmaster, hc, hexchange, rfl⟩
  · exact .refl h
  · exact keeps_update (fun j _ => h j) fun c' hc' => D.config (h k c hc) (hG k hmaster c hc) hexchange hc'

end Search

end Crakoon
