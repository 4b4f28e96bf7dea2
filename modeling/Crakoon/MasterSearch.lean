import Crakoon.WhoMaster

/-!
# The search for the master

What `arakoon_cluster_connect_master` finds. Whatever the servers answer, a search that succeeds has asked the node that
it installs, and the name that it has read there is the name of this node (`ensures_connectMaster_heard`).
-/

namespace Crakoon

open Programs Reading

/-- The nodes are the same but for their connections, and so is the master. -/
structure World.Layout (w w' : World) : Prop where
  name : w'.cluster.name = w.cluster.name
  nodes : w'.cluster.nodes = w.cluster.nodes
  nodeName : ∀ k, (w'.cluster.node k).name = (w.cluster.node k).name
  address : ∀ k, (w'.cluster.node k).address = (w.cluster.node k).address
  master : w'.cluster.master = w.cluster.master

instance World.layout_preorder : IsPreorder World World.Layout where
  refl := fun _ => ⟨rfl, rfl, fun _ => rfl, fun _ => rfl, rfl⟩
  trans := fun _ _ _ h₁ h₂ => ⟨h₂.name.trans h₁.name, h₂.nodes.trans h₁.nodes,
    fun k => (h₂.nodeName k).trans (h₁.nodeName k), fun k => (h₂.address k).trans (h₁.address k),
    h₂.master.trans h₁.master⟩

theorem World.layout_update (w : World) (k : NodeId) (s : Session) : w.Layout (w.update k s) where
  name := rfl
  nodes := rfl
  nodeName := by
    intro j
    by_cases hj : j = k
    · subst hj
      simp [World.update, Cluster.setNode]
    · simp [World.update, Cluster.setNode, hj]
  address := by
    intro j
    by_cases hj : j = k
    · subst hj
      simp [World.update, Cluster.setNode]
    · simp [World.update, Cluster.setNode, hj]
  master := rfl

theorem World.layout_dialed (w : World) (k : NodeId) (peer : Peer) : w.Layout (w.dialed k peer) where
  name := rfl
  nodes := rfl
  nodeName := by
    intro j
    by_cases hj : j = k
    · subst hj
      simp [World.dialed, Cluster.setNode]
    · simp [World.dialed, Cluster.setNode, hj]
  address := by
    intro j
    by_cases hj : j = k
    · subst hj
      simp [World.dialed, Cluster.setNode]
    · simp [World.dialed, Cluster.setNode, hj]
  master := rfl

section Layout

variable {α : Type} (alloc : Nat → Bool) (dial : Dialer)

theorem layout_onNode (k : NodeId) (m : SessionM α) (w : World) :
    Ensures (onNode k m) w fun _ w' => w.Layout w' := by
  intro a w' hrun
  obtain ⟨out, -, hout⟩ := Option.map_eq_some_iff.mp hrun
  obtain ⟨-, rfl⟩ := Prod.mk.inj hout
  exact w.layout_update k out.2

theorem layout_freeString (d : Data) (w : World) : Ensures (freeString d) w fun _ w' => w.Layout w' := by
  intro _ w' hrun
  obtain ⟨-, rfl⟩ := Prod.mk.inj (Option.some.inj hrun)
  exact ⟨rfl, rfl, fun _ => rfl, fun _ => rfl, rfl⟩

theorem layout_clusterNodeConnect (k : NodeId) (w : World) :
    Ensures (clusterNodeConnect alloc dial k) w fun _ w' => w.Layout w' := by
  intro rc w' hrun
  simp only [clusterNodeConnect, StateT.run] at hrun
  split at hrun
  · obtain ⟨-, rfl⟩ := Prod.mk.inj (Option.some.inj hrun)
    exact refl_of World.Layout w
  · split at hrun
    · obtain ⟨-, rfl⟩ := Prod.mk.inj (Option.some.inj hrun)
      exact ⟨rfl, rfl, fun _ => rfl, fun _ => rfl, rfl⟩
    · rename_i peer _
      exact trans_of World.Layout (w.layout_dialed k peer) (layout_onNode k _ _ rc w' hrun)

/-- A node that could be connected to has a connection. -/
theorem clusterNodeConnect_open (halloc : ∀ n, alloc n = true) (k : NodeId) (w : World) :
    Ensures (clusterNodeConnect alloc dial k) w fun rc w' => w.Layout w' ∧
      (rc = 0 → ∃ c, (w'.cluster.node k).conn = some c) := by
  have D : Discipline dial (fun _ _ => True) (fun _ _ => True) (fun _ _ => True) (fun _ _ => True) :=
    { weaken := fun _ => trivial
      dialed := fun _ _ _ => trivial
      ask := fun _ _ _ _ => trivial
      config := fun _ _ _ _ => trivial
      operation := fun _ _ _ _ _ => trivial }
  intro rc w' hrun
  refine ⟨layout_clusterNodeConnect alloc dial k w rc w' hrun, fun hrc => ?_⟩
  obtain ⟨-, -, hopen⟩ := ensures_clusterNodeConnect halloc D k (fun _ _ _ => trivial) rc w' hrun
  obtain ⟨c, hconn, -⟩ := (hopen hrc).2
  exact ⟨c, hconn⟩

end Layout

section Heard

variable (alloc : Nat → Bool) (dial : Dialer)

/-- The search that starts in `w` asks the node, and the name that is read on its connection then is its own. -/
def World.Heard (w : World) (k : NodeId) : Prop :=
  ∃ w₁ c word, SearchAsks alloc dial k w₁ w ∧ (w₁.cluster.node k).conn = some c ∧ c.Gives word ∧
    CString.ofBytes word = (w.cluster.node k).name

/-- The search that starts in `w` asks the node, and the node answers with its own name. -/
def World.Answered (w : World) (k : NodeId) : Prop :=
  ∃ w₁ c word, SearchAsks alloc dial k w₁ w ∧ (w₁.cluster.node k).conn = some c ∧ Says c.answer word ∧
    CString.ofBytes word = (w.cluster.node k).name

end Heard

theorem CString.ofBytes_terminated (word : Bytes) : CString.ofBytes (terminated word) = CString.ofBytes word := by
  have hbytes : (terminated word).takeWhile (· ≠ 0) = word.takeWhile (· ≠ 0) := by
    induction word with
    | nil => rfl
    | cons b word ih =>
        by_cases hb : b = 0
        · simp [terminated, hb]
        · simpa [terminated, hb] using ih
  simp only [CString.ofBytes, hbytes]

theorem Data.cString_of_value {d : Data} {word : Bytes} (h : d.value = some (terminated word)) :
    d.cString = CString.ofBytes word := by
  rw [Data.cString, h, Option.getD_some, CString.ofBytes_terminated]

section Search

variable {alloc : Nat → Bool} (halloc : ∀ n, alloc n = true) {dial : Dialer}
include halloc

/-- A node that gives a name has been heard to give it, and is connected still. -/
theorem ensures_ask_heard {k : NodeId} (master : Data) {w : World} {c : Conn}
    (hconn : (w.cluster.node k).conn = some c) :
    Ensures (onNode k (clusterNodeWhoMaster alloc master)) w fun out w' => w.Layout w' ∧
      ((∃ word c', c.Gives word ∧ out.1 = 0 ∧ out.2.value = some (terminated word) ∧
          (w'.cluster.node k).conn = some c') ∨
        (∀ word, ¬c.Gives word) ∧ ¬(out.1 = 0 ∧ out.2 ≠ .null)) := by
  have hyields := yields_clusterNodeWhoMaster halloc master (s := w.session k) hconn
  have hboth := hyields.and (ensures_asked halloc master hconn)
  refine (ensures_onNode hboth.ensures).mono fun out _ ⟨s', ⟨hexchange, hasked⟩, heq⟩ => ?_
  subst heq
  refine ⟨w.layout_update k s', hasked.imp_left fun ⟨word, hgives, hrc, hvalue⟩ => ?_⟩
  cases hexchange with
  | unsent hne => exact absurd hrc hne
  | cut hne => exact absurd hrc hne
  | read r rest c' hread hconn' => exact ⟨word, c', hgives, hrc, hvalue, by rw [World.update_conn_self, hconn']⟩

/-- The node with which the walk over the nodes ends is one that has been asked and heard to give the name. -/
theorem ensures_findNode_heard (ks : List NodeId) (master : Data) (w : World) :
    Ensures (findNode alloc dial ks master) w fun out w' => w.Layout w' ∧ ∀ k, out.1 = some k → k ∈ ks ∧
      (w'.cluster.node k).conn.isSome ∧ ∃ w₁ c word, FindAsks alloc dial k w₁ ks master w ∧
        (w₁.cluster.node k).conn = some c ∧ c.Gives word ∧ out.2.value = some (terminated word) := by
  induction ks generalizing master w with
  | nil => exact Ensures.pure ⟨refl_of World.Layout w, fun k hk => by cases hk⟩
  | cons j ks ih =>
      refine (clusterNodeConnect_open alloc dial halloc j w).outcome.bind fun rc w₁ ⟨hconnect, hlayout₁, hopen⟩ => ?_
      refine .ite (fun hrc => ?_) fun hrc => ?_
      · subst hrc
        obtain ⟨c, hconn⟩ := hopen rfl
        refine (ensures_ask_heard halloc master hconn).outcome.bind fun out w₂ ⟨hask, hlayout₂, hheard⟩ => ?_
        have hlayout := trans_of World.Layout hlayout₁ hlayout₂
        refine .ite (fun hnamed => .pure ⟨hlayout, fun k hk => ?_⟩) fun hnone => ?_
        · obtain rfl := Option.some.inj hk
          rcases hheard with ⟨word, c', hgives, -, hvalue, hconn'⟩ | ⟨-, hnot⟩
          · exact ⟨List.mem_cons_self, by rw [hconn', Option.isSome_some], w₁, c, word, .ask hconnect, hconn, hgives,
              hvalue⟩
          · exact absurd hnamed hnot
        · refine (ih out.2 w₂).mono fun out' w' ⟨hrest, hfound⟩ => ⟨trans_of World.Layout hlayout hrest, fun k hk => ?_⟩
          obtain ⟨hmem, hopen', w₃, c', word, hasks, hheard⟩ := hfound k hk
          exact ⟨List.mem_cons_of_mem _ hmem, hopen', w₃, c', word, .unnamed hconnect hask hnone hasks, hheard⟩
      · refine (ih master w₁).mono fun out' w' ⟨hrest, hfound⟩ => ⟨trans_of World.Layout hlayout₁ hrest, fun k hk => ?_⟩
        obtain ⟨hmem, hopen', w₃, c', word, hasks, hheard⟩ := hfound k hk
        exact ⟨List.mem_cons_of_mem _ hmem, hopen', w₃, c', word, .unconnected hconnect hrc hasks, hheard⟩

/-- The walk over the nodes ends with the first node that gives a name. -/
theorem FindAsks.ends {k : NodeId} {w w₁ : World} {ks : List NodeId} {master : Data} {c : Conn} {word : Bytes}
    (h : FindAsks alloc dial k w₁ ks master w) (hconn : (w₁.cluster.node k).conn = some c) (hgives : c.Gives word) :
    Ensures (findNode alloc dial ks master) w fun out _ => out.1 = some k ∧ out.2.value = some (terminated word) := by
  induction h with
  | @ask ks master w hconnect =>
      refine (Ensures.of_run hconnect).bind fun rc _ ⟨hrc, heq⟩ => ?_
      subst hrc heq
      rw [if_pos rfl]
      refine (ensures_ask_heard halloc master hconn).bind fun out w₂ ⟨_, hheard⟩ => ?_
      rcases hheard with ⟨word', c', hgives', hrc, hvalue, -⟩ | ⟨hnone, -⟩
      · obtain rfl := hgives'.offers.tells.unique hgives.offers.tells
        have hnamed : out.1 = 0 ∧ out.2 ≠ .null := by
          refine ⟨hrc, fun hnull => ?_⟩
          rw [hnull] at hvalue
          cases hvalue
        refine .ite (fun _ => .pure ⟨rfl, hvalue⟩) fun hnot => absurd hnamed hnot
      · exact absurd hgives (hnone word)
  | unconnected hconnect hrc rest ih =>
      refine (Ensures.of_run hconnect).bind fun _ _ ⟨heq, heq'⟩ => ?_
      subst heq heq'
      rw [if_neg hrc]
      exact ih
  | unnamed hconnect hask hnone rest ih =>
      refine (Ensures.of_run hconnect).bind fun _ _ ⟨heq, heq'⟩ => ?_
      subst heq heq'
      rw [if_pos rfl]
      refine (Ensures.of_run hask).bind fun _ _ ⟨heq, heq'⟩ => ?_
      subst heq heq'
      exact .ite (fun hnamed => absurd hnamed hnone) fun _ => ih

omit halloc in
/-- The end of a search that succeeds. -/
theorem ensures_install (k : NodeId) (d : Data) (w : World) :
    Ensures (do
        setMaster k
        freeString d
        pure ArakoonReturnCode.success.rc : ClientM ArakoonRc) w fun rc w' =>
      rc = 0 ∧ w'.cluster.master = some k ∧ w'.cluster.nodes = w.cluster.nodes ∧ w'.cluster.node = w.cluster.node := by
  intro rc w' hrun
  obtain ⟨rfl, rfl⟩ := Prod.mk.inj (Option.some.inj hrun)
  exact ⟨rfl, rfl, rfl, rfl⟩

/-- The search that starts in `w₀` has installed the node `k`. -/
structure World.Installed (alloc : Nat → Bool) (dial : Dialer) (w₀ : World) (k : NodeId) (w' : World) : Prop where
  master : w'.cluster.master = some k
  mem : k ∈ w'.cluster.nodes
  connected : (w'.cluster.node k).conn.isSome
  heard : w₀.Heard alloc dial k

/-- The node that is said to be the master is installed exactly if it is heard to give its own name. -/
theorem ensures_validateMaster_heard {j : NodeId} {master : Data} {w₀ w : World} (hlayout₀ : w₀.Layout w)
    (hmem : j ∈ w₀.cluster.nodes)
    (hasks : ∀ w₁, (clusterNodeConnect alloc dial j).run w = some (0, w₁) → SearchAsks alloc dial j w₁ w₀) :
    Ensures (validateMaster alloc dial j master) w fun rc w' =>
      rc = 0 ∧ w₀.Installed alloc dial j w' ∨
      rc ≠ 0 ∧ w'.cluster.master = w₀.cluster.master ∧
        ∀ w₁ c word, (clusterNodeConnect alloc dial j).run w = some (0, w₁) → (w₁.cluster.node j).conn = some c →
          c.Gives word → CString.ofBytes word ≠ (w₀.cluster.node j).name := by
  refine (clusterNodeConnect_open alloc dial halloc j w).outcome.bind fun rc w₁ ⟨hconnect, hlayout₁, hopen⟩ => ?_
  refine .ite (fun hrc => ?_) fun hrc => ?_
  · refine .pure (.inr ⟨hrc, hlayout₁.master.trans hlayout₀.master, fun w₂ c word hconnect₂ => ?_⟩)
    rw [hconnect] at hconnect₂
    exact absurd (Prod.mk.inj (Option.some.inj hconnect₂)).1 hrc
  obtain rfl : rc = 0 := not_ne_iff.mp hrc
  obtain ⟨c, hconn⟩ := hopen rfl
  have hsame : ∀ {w₂ c₂}, (clusterNodeConnect alloc dial j).run w = some (0, w₂) →
      (w₂.cluster.node j).conn = some c₂ → c₂ = c := by
    intro w₂ c₂ hconnect₂ hconn₂
    rw [hconnect] at hconnect₂
    obtain ⟨-, rfl⟩ := Prod.mk.inj (Option.some.inj hconnect₂)
    exact Option.some.inj (hconn₂.symm.trans hconn)
  refine (ensures_ask_heard halloc master hconn).bind fun out w₂ ⟨hlayout₂, hheard⟩ => ?_
  have hlayout : w₀.Layout w₂ := trans_of World.Layout (trans_of World.Layout hlayout₀ hlayout₁) hlayout₂
  obtain ⟨rc, d⟩ := out
  rcases hheard with ⟨word, c', hgives, hzero, hvalue, hconn'⟩ | ⟨hnone, hnot⟩
  · obtain rfl : rc = 0 := hzero
    have hd : d ≠ .null := by
      intro hnull
      rw [hnull] at hvalue
      cases hvalue
    refine .ite (fun hrc => absurd rfl hrc) fun _ => Ensures.bind_get (.ite (fun hother => ?_) fun hself => ?_)
    · refine (layout_freeString d _).bind fun _ w₃ hlayout₃ => .pure (.inr ⟨by decide, ?_, ?_⟩)
      · exact hlayout₃.master.trans hlayout.master
      · intro w₄ c₄ word₄ hconnect₄ hconn₄ hgives₄ hname
        obtain rfl := hsame hconnect₄ hconn₄
        obtain rfl := hgives.offers.tells.unique hgives₄.offers.tells
        exact hother.resolve_left hd (by rw [hlayout.nodeName, Data.cString_of_value hvalue, hname])
    · refine (ensures_install j d _).mono fun rc w' ⟨hrc, hmaster, hnodes, hnode⟩ => .inl ⟨hrc, hmaster, ?_, ?_, ?_⟩
      · rw [hnodes, hlayout.nodes]
        exact hmem
      · rw [hnode, hconn', Option.isSome_some]
      · refine ⟨_, c, word, hasks _ hconnect, hconn, hgives, ?_⟩
        rw [← hlayout.nodeName, ← Data.cString_of_value hvalue, not_ne_iff.mp (not_or.mp hself).2]
  · have hunheard : ∀ w₁ c word, (clusterNodeConnect alloc dial j).run w = some (0, w₁) →
        (w₁.cluster.node j).conn = some c → c.Gives word → CString.ofBytes word ≠ (w₀.cluster.node j).name := by
      intro w₃ c₃ word hconnect₃ hconn₃ hgives₃
      obtain rfl := hsame hconnect₃ hconn₃
      exact absurd hgives₃ (hnone word)
    refine .ite (fun hrc => .pure (.inr ⟨hrc, hlayout.master, hunheard⟩)) fun hrc => ?_
    obtain rfl : rc = 0 := not_ne_iff.mp hrc
    obtain rfl : d = .null := not_ne_iff.mp fun hd => hnot ⟨rfl, hd⟩
    refine Ensures.bind_get (.ite (fun _ => ?_) fun hself => absurd (.inl rfl) hself)
    refine (layout_freeString _ _).bind fun _ w₃ hlayout₃ => .pure (.inr ⟨by decide, ?_, hunheard⟩)
    exact hlayout₃.master.trans hlayout.master

/-- A search installs the one node that is heard to give its own name. If there is none it fails, and leaves the master
as it was. -/
theorem ensures_connectMaster_heard (w : World) :
    Ensures (arakoonClusterConnectMaster alloc dial) w fun rc w' =>
      (∃ k, rc = 0 ∧ w.Installed alloc dial k w' ∧ ∀ j, w.Heard alloc dial j → j = k) ∨
      rc ≠ 0 ∧ w'.cluster.master = w.cluster.master ∧ ∀ j, ¬w.Heard alloc dial j := by
  refine Ensures.bind_get ((ensures_findNode_heard halloc _ _ w).outcome.bind ?_)
  intro ⟨node, master⟩ w₁ ⟨hfind, hlayout₁, hfound⟩
  have hends : ∀ {j w₂ c word}, FindAsks alloc dial j w₂ w.cluster.nodes .null w →
      (w₂.cluster.node j).conn = some c → c.Gives word → node = some j ∧ master.value = some (terminated word) :=
    fun hasks hconn hgives => hasks.ends halloc hconn hgives _ _ hfind
  cases node with
  | none =>
      refine .pure (.inr ⟨by decide, hlayout₁.master, fun j hheard => ?_⟩)
      obtain ⟨w₂, c, word, hasks, hconn, hgives, -⟩ := hheard
      cases hasks with
      | find h => cases (hends h hconn hgives).1
      | validate hfind' =>
          rw [hfind] at hfind'
          cases (Prod.mk.inj (Option.some.inj hfind')).1
  | some k =>
      obtain ⟨hmem, hopen, w₂, c, word, hasks, hconn, hgives, hvalue⟩ := hfound k rfl
      refine Ensures.bind_get (.ite (fun hself => ?_) fun hother => ?_)
      · refine (ensures_install k master _).mono fun rc w' ⟨hrc, hmaster, hnodes, hnode⟩ => .inl ⟨k, hrc, ⟨hmaster, ?_,
          ?_, ?_⟩, fun j hheard => ?_⟩
        · rw [hnodes, hlayout₁.nodes]
          exact hmem
        · rw [hnode]
          exact hopen
        · exact ⟨w₂, c, word, .find hasks, hconn, hgives, by
            rw [← Data.cString_of_value hvalue, ← hself, hlayout₁.nodeName]⟩
        · obtain ⟨w₃, c₃, word₃, hasks₃, hconn₃, hgives₃, -⟩ := hheard
          cases hasks₃ with
          | find h => exact (Option.some.inj (hends h hconn₃ hgives₃).1).symm
          | validate hfind' hother =>
              rw [hfind] at hfind'
              obtain ⟨hout, rfl⟩ := Prod.mk.inj (Option.some.inj hfind')
              obtain ⟨hk, rfl⟩ := Prod.mk.inj hout
              obtain rfl := Option.some.inj hk
              exact absurd hself hother
      · -- A node that is heard to give its own name is not the one the walk ends with.
        have hlater : ∀ j, w.Heard alloc dial j →
            w₁.cluster.nodes.find? (fun i => (w₁.cluster.node i).name = master.cString) = some j ∧
            ∃ w₃ c₃ word₃, (clusterNodeConnect alloc dial j).run { w₁ with heap := w₁.heap.free master.ptr } =
                some (0, w₃) ∧ (w₃.cluster.node j).conn = some c₃ ∧ c₃.Gives word₃ ∧
              CString.ofBytes word₃ = (w.cluster.node j).name := by
          intro j hheard
          obtain ⟨w₃, c₃, word₃, hasks₃, hconn₃, hgives₃, hname⟩ := hheard
          cases hasks₃ with
          | find h =>
              obtain ⟨hk, hvalue₃⟩ := hends h hconn₃ hgives₃
              obtain rfl := Option.some.inj hk
              refine absurd ?_ hother
              rw [hlayout₁.nodeName, Data.cString_of_value hvalue₃, hname]
          | validate hfind' _ hfound' hconnect' =>
              rw [hfind] at hfind'
              obtain ⟨hout, rfl⟩ := Prod.mk.inj (Option.some.inj hfind')
              obtain ⟨-, rfl⟩ := Prod.mk.inj hout
              exact ⟨hfound', w₃, c₃, word₃, hconnect', hconn₃, hgives₃, hname⟩
        refine (Ensures.of_run rfl).bind fun _ w₃ ⟨_, heq⟩ => ?_
        subst heq
        split
        · rename_i hnone
          refine .pure (.inr ⟨by decide, hlayout₁.master, fun j hheard => ?_⟩)
          rw [hnone] at hlater
          cases (hlater j hheard).1
        · rename_i j hfound'
          have hmem' : j ∈ w.cluster.nodes := by
            rw [← hlayout₁.nodes]
            exact List.mem_of_find?_eq_some hfound'
          have hlayout₃ : w.Layout { w₁ with heap := w₁.heap.free master.ptr } :=
            ⟨hlayout₁.name, hlayout₁.nodes, hlayout₁.nodeName, hlayout₁.address, hlayout₁.master⟩
          refine (ensures_validateMaster_heard halloc hlayout₃ hmem' fun w₂ hconnect =>
            .validate hfind hother hfound' hconnect).mono fun rc w' h => ?_
          rcases h with ⟨hrc, hinstalled⟩ | ⟨hrc, hmaster, hunheard⟩
          · refine .inl ⟨j, hrc, hinstalled, fun i hheard => ?_⟩
            exact Option.some.inj ((hlater i hheard).1.symm.trans hfound')
          · refine .inr ⟨hrc, hmaster, fun i hheard => ?_⟩
            obtain ⟨hi, w₃, c₃, word₃, hconnect₃, hconn₃, hgives₃, hname⟩ := hlater i hheard
            obtain rfl := Option.some.inj (hi.symm.trans hfound')
            exact hunheard w₃ c₃ word₃ hconnect₃ hconn₃ hgives₃ hname

end Search

end Crakoon
