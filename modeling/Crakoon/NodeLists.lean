import Crakoon.NodeFunctions

/-!
# The lists of nodes over a run

`arakoon_cluster_add_node` puts a node in front of the nodes of a cluster, if no cluster has it yet, and
`arakoon_cluster_free` gives back the nodes of a cluster. Over any run of calls the lists of the clusters are those that
the calls and their return codes tell (`addedNodes`); so no two of them meet, none has a loop, and what follows one of
them comes to its end.
-/

namespace Crakoon

open Programs Chains

section Lists

variable {u u' : Network} {heads : ClusterPtr → Option NodePtr} {lists : ClusterPtr → List NodePtr} {c : ClusterPtr}
  {p : NodePtr} {cell : Cell NodePtr NetNode}

namespace Network.Lists

/-- A node that no cluster has is changed. -/
theorem elsewhere (h : u.Lists heads lists) (hp : ∀ c, p ∉ lists c) (hcells : ∀ q, q ≠ p → u'.cells q = u.cells q)
    (hcell : ∀ cell, u'.cells p = some cell → cell.item.cluster = none) : u'.Lists heads lists where
  chain := by
    refine fun c => (h.chain c).congr fun q hq => ?_
    have hne : q ≠ p := fun heq => hp c (heq ▸ hq)
    rw [hcells q hne]
  owned := by
    intro q found hfound c
    by_cases hq : q = p
    · subst hq
      rw [hcell found hfound]
      exact iff_of_false (fun hnone => by cases hnone) (hp c)
    · rw [hcells q hq] at hfound
      exact h.owned q found hfound c

theorem not_mem (h : u.Lists heads lists) (hcell : ∀ cell, u.cells p = some cell → cell.item.cluster = none)
    (c : ClusterPtr) : p ∉ lists c := by
  intro hp
  obtain ⟨found, hfound⟩ := (h.chain c).cell_of_mem hp
  have hcluster := (h.owned p found hfound c).mpr hp
  rw [hcell found hfound] at hcluster
  cases hcluster

/-- A node that no cluster has is put in front of the list of one. -/
theorem added (h : u.Lists heads lists) (hcell : u.cells p = some cell) (hnone : cell.item.cluster = none)
    (hcells : u'.cells = u.cells.put p ⟨heads c, { cell.item with cluster := some c }⟩) :
    u'.Lists (Function.update heads c (some p)) (Function.update lists c (p :: lists c)) := by
  have hp : ∀ d, p ∉ lists d := h.not_mem fun found hfound => by
    rwa [Option.some.inj (hfound.symm.trans hcell)]
  have hnew : u'.cells p = some ⟨heads c, { cell.item with cluster := some c }⟩ := by
    rw [hcells, Cells.put, Function.update_self]
  have hold : ∀ q, q ≠ p → u'.cells q = u.cells q := by
    intro q hq
    rw [hcells, Cells.put, Function.update_of_ne hq]
  have hchain : ∀ d, Visits u'.cells (heads d) (lists d) := by
    refine fun d => (h.chain d).congr fun q hq => ?_
    have hne : q ≠ p := fun heq => hp d (heq ▸ hq)
    rw [hold q hne]
  refine ⟨fun d => ?_, fun q found hfound d => ?_⟩
  · by_cases hd : d = c
    · subst hd
      rw [Function.update_self, Function.update_self]
      exact Visits.cons hnew (hchain d)
    · rw [Function.update_of_ne hd, Function.update_of_ne hd]
      exact hchain d
  · by_cases hq : q = p
    · subst hq
      obtain rfl := Option.some.inj (hnew.symm.trans hfound)
      by_cases hd : d = c
      · subst hd
        rw [Function.update_self]
        exact iff_of_true rfl List.mem_cons_self
      · rw [Function.update_of_ne hd]
        exact iff_of_false (fun heq => hd (Option.some.inj heq).symm) (hp d)
    · rw [h.owned q found (hold q hq ▸ hfound) d]
      by_cases hd : d = c
      · subst hd
        rw [Function.update_self, List.mem_cons]
        exact (or_iff_right hq).symm
      · rw [Function.update_of_ne hd]

/-- The nodes of a cluster are given back. -/
theorem freed (h : u.Lists heads lists) (hcells : ∀ q, u'.cells q = if q ∈ lists c then none else u.cells q) :
    u'.Lists (Function.update heads c none) (Function.update lists c []) := by
  have hold : ∀ d q, q ∈ lists d → d ≠ c → u'.cells q = u.cells q := by
    intro d q hq hd
    obtain ⟨found, hfound⟩ := (h.chain d).cell_of_mem hq
    have hcluster := (h.owned q found hfound d).mpr hq
    rw [hcells q, if_neg fun hmem => hd ?_]
    exact Option.some.inj (hcluster.symm.trans ((h.owned q found hfound c).mpr hmem))
  refine ⟨fun d => ?_, fun q found hfound d => ?_⟩
  · by_cases hd : d = c
    · subst hd
      rw [Function.update_self, Function.update_self]
      exact Visits.nil _
    · rw [Function.update_of_ne hd, Function.update_of_ne hd]
      exact (h.chain d).congr fun q hq => by rw [hold d q hq hd]
  · rw [hcells q] at hfound
    by_cases hq : q ∈ lists c
    · rw [if_pos hq] at hfound
      cases hfound
    · rw [if_neg hq] at hfound
      rw [h.owned q found hfound d]
      by_cases hd : d = c
      · subst hd
        rw [Function.update_self]
        exact iff_of_false hq List.not_mem_nil
      · rw [Function.update_of_ne hd]

end Network.Lists

end Lists

section Freeing

/-- The node at `p` is disconnected and given back. -/
def Network.withoutNode (u : Network) (p : NodePtr) : Network :=
  { u with
    cells := Function.update u.cells p none
    released := u.released ++ [p]
    log := ((u.fdAt p).map (SocketEvent.closed p)).toList ++ u.log }

/-- Nodes are given back one after the other. -/
def Network.withoutNodes (u : Network) (ks : List NodePtr) : Network := ks.foldl Network.withoutNode u

variable {u : Network} {p : NodePtr} {cell : Cell NodePtr NetNode}

theorem run_nodeDisconnect (hcell : u.cells p = some cell) : (nodeDisconnect p).run u =
    some ((), u.withFd p cell none ((cell.item.fd.map (SocketEvent.closed p)).toList ++ u.log)) := by
  obtain ⟨_, u', hrun, rfl⟩ := yields_nodeDisconnect hcell
  exact hrun

theorem run_nodeFree_closed (hcell : u.cells p = some cell) (hfd : cell.item.fd = none) :
    (nodeFree p).run u = (releaseNode p).run u := by
  rw [nodeFree, bind_run, run_nodeAt hcell, Option.bind_some, hfd]
  rfl

theorem run_disconnect_release (hcell : u.cells p = some cell) :
    (nodeDisconnect p >>= fun _ => releaseNode p).run u = some ((), u.withoutNode p) := by
  have hrelease : ∀ v : Network, (releaseNode p).run v = some ((), { v with
      cells := Function.update v.cells p none
      released := v.released ++ [p] }) := fun _ => rfl
  rw [bind_run, run_nodeDisconnect hcell, Option.bind_some, hrelease, Network.withoutNode, fdAt_of_cell hcell]
  simp only [Network.withFd, Cells.put, Function.update_idem]

/-- `arakoon_cluster_node_free` disconnects a node itself if that was not done. -/
theorem run_nodeFree (hcell : u.cells p = some cell) : (nodeFree p).run u = some ((), u.withoutNode p) := by
  cases hfd : cell.item.fd with
  | none =>
      rw [run_nodeFree_closed hcell hfd, Network.withoutNode, fdAt_of_cell hcell, hfd]
      rfl
  | some fd =>
      rw [nodeFree, bind_run, run_nodeAt hcell, Option.bind_some, hfd]
      exact run_disconnect_release hcell

theorem run_disconnect_free (hcell : u.cells p = some cell) :
    (nodeDisconnect p >>= fun _ => nodeFree p).run u = some ((), u.withoutNode p) := by
  rw [← run_disconnect_release hcell, bind_run, bind_run, run_nodeDisconnect hcell, Option.bind_some, Option.bind_some]
  exact run_nodeFree_closed (Function.update_self ..) rfl

/-- The loop of `arakoon_cluster_free` gives back the nodes of the list, if it may go on for more rounds than there are
nodes; else it goes on. -/
theorem run_freeNodes {head : Option NodePtr} {ks : List NodePtr} (h : Visits u.cells head ks) (rounds : Nat) :
    (freeNodes rounds head).run u = if ks.length < rounds then some ((), u.withoutNodes ks) else none := by
  induction ks generalizing u head rounds with
  | nil =>
      obtain rfl : head = none := h.start
      cases rounds with
      | zero => rfl
      | succ rounds => exact (if_pos (Nat.succ_pos rounds)).symm
  | cons p ks ih =>
      obtain ⟨rfl, cell, hcell, hrest⟩ := h.head
      cases rounds with
      | zero => rfl
      | succ rounds =>
          have hnext : (nodeGetNext p).run u = some (cell.next, u) := by
            rw [nodeGetNext, bind_run, run_nodeAt hcell]
            rfl
          have hrest' : Visits (u.withoutNode p).cells cell.next ks := by
            refine hrest.congr fun q hq => ?_
            have hne : q ≠ p := fun heq => (List.nodup_cons.mp h.nodup).1 (heq ▸ hq)
            exact congrArg _ (Function.update_of_ne hne ..)
          rw [freeNodes, bind_run, hnext, Option.bind_some]
          have hone : (nodeDisconnect p >>= fun _ => nodeFree p >>= fun _ => freeNodes rounds cell.next).run u =
              (freeNodes rounds cell.next).run (u.withoutNode p) := by
            rw [← bind_assoc, bind_run, run_disconnect_free hcell, Option.bind_some]
          refine hone.trans ((ih hrest' rounds).trans ?_)
          exact if_congr Nat.succ_lt_succ_iff.symm rfl rfl

theorem withoutNodes_clusters (u : Network) (ks : List NodePtr) : (u.withoutNodes ks).clusters = u.clusters := by
  induction ks generalizing u with
  | nil => rfl
  | cons p ks ih => exact ih (u.withoutNode p)

theorem withoutNodes_released (u : Network) (ks : List NodePtr) :
    (u.withoutNodes ks).released = u.released ++ ks := by
  induction ks generalizing u with
  | nil => exact (List.append_nil _).symm
  | cons p ks ih =>
      refine (ih (u.withoutNode p)).trans ?_
      rw [Network.withoutNode, List.append_assoc]
      rfl

theorem withoutNodes_cells (u : Network) (ks : List NodePtr) (q : NodePtr) :
    (u.withoutNodes ks).cells q = if q ∈ ks then none else u.cells q := by
  induction ks generalizing u with
  | nil => rfl
  | cons p ks ih =>
      refine (ih (u.withoutNode p)).trans ?_
      by_cases hq : q ∈ ks
      · rw [if_pos hq, if_pos (List.mem_cons_of_mem p hq)]
      · rw [if_neg hq]
        by_cases hp : q = p
        · subst hp
          rw [if_pos List.mem_cons_self]
          exact Function.update_self ..
        · rw [if_neg fun hmem => (List.mem_cons.mp hmem).elim hp hq]
          exact Function.update_of_ne hp ..

namespace Network.Wired

theorem withoutNode (h : u.Wired) (p : NodePtr) : (u.withoutNode p).Wired := by
  have hat : (u.withoutNode p).fdAt = Function.update u.fdAt p none := fdAt_update u.cells p none
  cases hfd : u.fdAt p with
  | none =>
      refine h.same (by rw [Network.withoutNode, hfd]; rfl) (hat.trans ?_)
      rw [← hfd, Function.update_eq_self]
  | some fd => exact h.closed hfd (by rw [Network.withoutNode, hfd]; rfl) hat

theorem withoutNodes (h : u.Wired) (ks : List NodePtr) : (u.withoutNodes ks).Wired := by
  induction ks generalizing u with
  | nil => exact h
  | cons p ks ih => exact ih (h.withoutNode p)

end Network.Wired

end Freeing

/-! ### Calls and runs -/

/-- The nodes of the clusters after a call that returns `rc`. -/
def NetCall.nodesAfter (rc : ArakoonRc) (nodes : ClusterPtr → Option (List NodePtr)) :
    NetCall → ClusterPtr → Option (List NodePtr)
  | .clusterNew c _ => Function.update nodes c (some [])
  | .addNode c p => if rc = 0 then Function.update nodes c ((nodes c).map (p :: ·)) else nodes
  | .clusterFree c => Function.update nodes c none
  | _ => nodes

/-- The nodes of the clusters that there are: those that were added to a cluster, the latest first. -/
def addedNodes : List (NetCall × ArakoonRc) → ClusterPtr → Option (List NodePtr)
  | [] => fun _ => none
  | (call, rc) :: before => call.nodesAfter rc (addedNodes before)

section Calls

variable {outside : Outside} {rounds : Nat} {nodes : ClusterPtr → Option (List NodePtr)} {u u' : Network}
  {c : ClusterPtr} {p : NodePtr} {cluster : NetCluster} {cell : Cell NodePtr NetNode}

theorem listOf_update (nodes : ClusterPtr → Option (List NodePtr)) (c : ClusterPtr) (ks : Option (List NodePtr)) :
    listOf (Function.update nodes c ks) = Function.update (listOf nodes) c (ks.getD []) :=
  funext (Function.apply_update (fun _ ks => ks.getD []) nodes c ks)

theorem heads_update {found : Option NetCluster} (h : u'.clusters = Function.update u.clusters c found) :
    u'.heads = Function.update u.heads c (found.bind NetCluster.nodes) := by
  funext d
  rw [Network.heads, h]
  exact Function.apply_update (fun _ found => found.bind NetCluster.nodes) u.clusters c found d

/-- A cluster is written together with its list. -/
theorem Network.Ordered.rewritten (h : u.Ordered nodes) {found : Option NetCluster} {ks : Option (List NodePtr)}
    (hclusters : u'.clusters = Function.update u.clusters c found)
    (hlists : u'.Lists (Function.update u.heads c (found.bind NetCluster.nodes))
      (Function.update (listOf nodes) c (ks.getD [])))
    (hsome : found.isSome = ks.isSome)
    (hmaster : ∀ cluster p, found = some cluster → cluster.master = some p → p ∈ ks.getD [])
    (hnamed : ∀ cluster, found = some cluster → cluster.name.bytes.length + 12 < 2 ^ 64) :
    u'.Ordered (Function.update nodes c ks) := by
  have hat : u'.clusters c = found := by rw [hclusters, Function.update_self]
  have hfind : ∀ d, d ≠ c → u'.clusters d = u.clusters d := by
    intro d hd
    rw [hclusters, Function.update_of_ne hd]
  refine ⟨?_, fun d => ?_, fun d other q hother => ?_, fun d other hother => ?_⟩
  · rw [heads_update hclusters, listOf_update]
    exact hlists
  · by_cases hd : d = c
    · subst hd
      rw [hat, Function.update_self, hsome]
    · rw [hfind d hd, Function.update_of_ne hd, h.clusters]
  · rw [listOf_update]
    by_cases hd : d = c
    · subst hd
      rw [Function.update_self]
      exact hmaster other q (hat.symm.trans hother)
    · rw [Function.update_of_ne hd]
      exact h.master d other q ((hfind d hd).symm.trans hother)
  · by_cases hd : d = c
    · subst hd
      exact hnamed other (hat.symm.trans hother)
    · exact h.named d other ((hfind d hd).symm.trans hother)

theorem run_addNode_owned (hcluster : u.clusters c = some cluster) (hcell : u.cells p = some cell)
    (howned : cell.item.cluster ≠ none) : (clusterAddNodeAt c p).run u = some (einval, u) := by
  have hset : (nodeSetCluster p c).run u = some (einval, u) := by
    rw [nodeSetCluster, bind_run, run_nodeAt hcell, Option.bind_some, if_pos (Option.isSome_iff_ne_none.mpr howned)]
    rfl
  rw [clusterAddNodeAt, bind_run, run_clusterAt hcluster, Option.bind_some, bind_run, hset]
  rfl

theorem run_addNode (hcluster : u.clusters c = some cluster) (hcell : u.cells p = some cell)
    (hnone : cell.item.cluster = none) : (clusterAddNodeAt c p).run u = some (ArakoonReturnCode.success.rc, { u with
      cells := u.cells.put p ⟨cluster.nodes, { cell.item with cluster := some c }⟩
      clusters := Function.update u.clusters c (some { cluster with nodes := some p }) }) := by
  have hset : (nodeSetCluster p c).run u = some (ArakoonReturnCode.success.rc, { u with
      cells := u.cells.put p { cell with item := { cell.item with cluster := some c } } }) := by
    rw [nodeSetCluster, bind_run, run_nodeAt hcell, Option.bind_some, hnone]
    rfl
  have hfound : (nodeAt p).run { u with
      cells := u.cells.put p { cell with item := { cell.item with cluster := some c } } } =
      some ({ cell with item := { cell.item with cluster := some c } }, _) := run_nodeAt (Function.update_self ..)
  have hnext : ∀ next, (nodeSetNext p next).run { u with
      cells := u.cells.put p { cell with item := { cell.item with cluster := some c } } } = some ((), { u with
        cells := u.cells.put p ⟨next, { cell.item with cluster := some c }⟩ }) := by
    intro next
    rw [nodeSetNext, bind_run, hfound, Option.bind_some]
    show some ((), _) = some ((), _)
    simp only [Cells.put, Function.update_idem]
  rw [clusterAddNodeAt, bind_run, run_clusterAt hcluster, Option.bind_some, bind_run, hset, Option.bind_some,
    if_neg (not_ne_iff.mpr (by rfl)), bind_run, hnext, Option.bind_some]
  rfl

namespace Network.Sane

theorem addNode (h : u.Sane outside nodes) :
    Ensures (clusterAddNodeAt c p) u fun rc u' => u'.Sane outside ((NetCall.addNode c p).nodesAfter rc nodes) := by
  intro rc u' hrun
  obtain ⟨cluster, hcluster, hrest⟩ := bind_clusterAt_run hrun
  obtain ⟨_, _, hset, -⟩ := bind_run_eq_some.mp hrest
  obtain ⟨cell, hcell, -⟩ := bind_nodeAt_run hset
  by_cases hnone : cell.item.cluster = none
  · have hadd := (run_addNode hcluster hcell hnone).symm.trans hrun
    obtain ⟨rfl, rfl⟩ := Prod.mk.inj (Option.some.inj hadd)
    have hhead : cluster.nodes = u.heads c := by
      rw [Network.heads, hcluster]
      rfl
    have hlists : Network.Lists { u with
        cells := u.cells.put p ⟨cluster.nodes, { cell.item with cluster := some c }⟩
        clusters := Function.update u.clusters c (some { cluster with nodes := some p }) }
        (Function.update u.heads c (some p)) (Function.update (listOf nodes) c (p :: listOf nodes c)) :=
      h.ordered.lists.added hcell hnone (by rw [hhead])
    obtain ⟨ks, hks⟩ := h.ordered.nodes_of_cluster hcluster
    have hlist := listOf_of_nodes hks
    have hafter : (NetCall.addNode c p).nodesAfter ArakoonReturnCode.success.rc nodes =
        Function.update nodes c (some (p :: ks)) := by
      rw [NetCall.nodesAfter, if_pos (by rfl), hks]
      rfl
    rw [hafter]
    refine ⟨h.ordered.rewritten rfl (hlist ▸ hlists) rfl ?_ ?_, fun hfresh => (h.wired hfresh).same rfl ?_⟩
    · intro other q hother hmaster
      obtain rfl := Option.some.inj hother
      exact List.mem_cons_of_mem p (hlist ▸ h.ordered.master c cluster q hcluster hmaster)
    · intro other hother
      obtain rfl := Option.some.inj hother
      exact h.ordered.named c cluster hcluster
    · have hfd : cell.item.fd = u.fdAt p := (fdAt_of_cell hcell).symm
      exact (fdAt_update u.cells p (some _)).trans (Function.update_eq_self_iff.mpr hfd)
  · have howned := (run_addNode_owned hcluster hcell hnone).symm.trans hrun
    obtain ⟨rfl, rfl⟩ := Prod.mk.inj (Option.some.inj howned)
    exact h

/-- A node that no cluster has is changed, and has no descriptor then or had it before. -/
theorem elsewhere (h : u.Sane outside nodes) (hnone : ∀ cell, u.cells p = some cell → cell.item.cluster = none)
    (hcells : ∀ q, q ≠ p → u'.cells q = u.cells q) (hclusters : u'.clusters = u.clusters)
    (hcell : ∀ cell, u'.cells p = some cell → cell.item.cluster = none) (hwired : u.Wired → u'.Wired) :
    u'.Sane outside nodes := by
  refine ⟨⟨?_, hclusters ▸ h.ordered.clusters, hclusters ▸ h.ordered.master, hclusters ▸ h.ordered.named⟩,
    fun hfresh => hwired (h.wired hfresh)⟩
  have hheads : u'.heads = u.heads := funext fun d => by rw [Network.heads, Network.heads, hclusters]
  rw [hheads]
  exact h.ordered.lists.elsewhere (h.ordered.lists.not_mem hnone) hcells hcell

theorem nodeNew (h : u.Sane outside nodes) (hfree : u.cells p = none) (name : CString) :
    ({ u with cells := u.cells.put p ⟨none, name, none, none⟩ } : Network).Sane outside nodes := by
  refine h.elsewhere (p := p) ?_ (fun q hq => Function.update_of_ne hq ..) rfl ?_ fun hwired => hwired.same rfl ?_
  · intro cell hcell
    cases hfree.symm.trans hcell
  · intro cell hcell
    have hnew : u.cells.put p ⟨none, name, none, none⟩ p = some ⟨none, name, none, none⟩ := Function.update_self ..
    obtain rfl := Option.some.inj (hnew.symm.trans hcell)
    rfl
  · have hfd : none = u.fdAt p := by rw [Network.fdAt, hfree, Option.bind_none]
    exact (fdAt_update u.cells p (some _)).trans (Function.update_eq_self_iff.mpr hfd)

theorem clusterNew (h : u.Sane outside nodes) (hfree : u.clusters c = none) {name : CString}
    (hname : name.bytes.length + 12 < 2 ^ 64) :
    ({ u with clusters := Function.update u.clusters c (some ⟨name, none, none⟩) } : Network).Sane outside
      (Function.update nodes c (some [])) := by
  refine ⟨h.ordered.rewritten rfl ?_ rfl ?_ ?_, fun hfresh => (h.wired hfresh).same rfl rfl⟩
  · have hhead : u.heads c = none := by rw [Network.heads, hfree, Option.bind_none]
    have hlist : listOf nodes c = [] := by
      have hchain := h.ordered.lists.chain c
      rw [hhead] at hchain
      exact hchain.unique (Visits.nil _)
    have hlists : Network.Lists { u with clusters := Function.update u.clusters c (some ⟨name, none, none⟩) } u.heads
        (listOf nodes) := h.ordered.lists.congr fun _ => rfl
    have hsame : Function.update u.heads c none = u.heads := hhead ▸ Function.update_eq_self c u.heads
    have hsame' : Function.update (listOf nodes) c [] = listOf nodes := hlist ▸ Function.update_eq_self c _
    simp only [Option.bind_some, Option.getD_some, hsame, hsame']
    exact hlists
  · intro cluster q hcluster hmaster
    obtain rfl := Option.some.inj hcluster
    cases hmaster
  · intro cluster hcluster
    obtain rfl := Option.some.inj hcluster
    exact hname

theorem nodeFree (h : u.Sane outside nodes) (hnone : ∀ cell, u.cells p = some cell → cell.item.cluster = none) :
    (u.withoutNode p).Sane outside nodes := by
  refine h.elsewhere hnone (fun q hq => Function.update_of_ne hq ..) rfl ?_ fun hwired => hwired.withoutNode p
  intro cell hcell
  have hgone : (u.withoutNode p).cells p = none := Function.update_self ..
  cases hgone.symm.trans hcell

end Network.Sane

/-- `arakoon_cluster_free` on a cluster with these nodes. -/
theorem run_clusterFree {ks : List NodePtr} (h : u.Ordered nodes) (hks : nodes c = some ks) :
    (clusterFree rounds c).run u = if ks.length < rounds then
      some ((), { u.withoutNodes ks with clusters := Function.update u.clusters c none }) else none := by
  obtain ⟨cluster, hcluster, hchain⟩ := h.cluster_of_nodes hks
  rw [clusterFree, bind_run, run_clusterAt hcluster, Option.bind_some, bind_run, run_freeNodes hchain]
  by_cases hrounds : ks.length < rounds
  · rw [if_pos hrounds, if_pos hrounds, Option.bind_some, ← withoutNodes_clusters u ks]
    rfl
  · rw [if_neg hrounds, if_neg hrounds, Option.bind_none]

theorem Network.Sane.clusterFree (h : u.Sane outside nodes) {ks : List NodePtr} (hks : nodes c = some ks) :
    ({ u.withoutNodes ks with clusters := Function.update u.clusters c none } : Network).Sane outside
      (Function.update nodes c none) := by
  have hlist := listOf_of_nodes hks
  refine ⟨h.ordered.rewritten rfl ?_ rfl ?_ ?_, fun hfresh => ((h.wired hfresh).withoutNodes ks).same rfl rfl⟩
  · exact h.ordered.lists.freed fun q => by rw [hlist]; exact withoutNodes_cells u ks q
  · intro cluster q hcluster
    cases hcluster
  · intro cluster hcluster
    cases hcluster

theorem netStep_eq_ok {call : NetCall} {rc : ArakoonRc} :
    netStep outside rounds call u = .ok (rc, u') ↔ (call.program outside rounds).run u = some (rc, u') := by
  rw [netStep]
  cases (call.program outside rounds).run u with
  | none => exact ⟨fun h => (by cases h), fun h => (by cases h)⟩
  | some out => exact ⟨fun h => congrArg some (Except.ok.inj h), fun h => congrArg _ (Option.some.inj h)⟩

/-- What `arakoon_cluster_free` leads to when it returns. -/
theorem Network.Sane.freed (h : u.Sane outside nodes) {rc : ArakoonRc}
    (hstep : netStep outside rounds (.clusterFree c) u = .ok (rc, u')) :
    ∃ ks, nodes c = some ks ∧
      u' = { u.withoutNodes ks with clusters := Function.update u.clusters c none } := by
  obtain ⟨_, u₁, hfree, hrest⟩ := bind_run_eq_some.mp (netStep_eq_ok.mp hstep)
  obtain ⟨-, rfl⟩ := Prod.mk.inj (Option.some.inj hrest)
  obtain ⟨cluster, hcluster, -⟩ := bind_clusterAt_run hfree
  obtain ⟨ks, hks⟩ := h.ordered.nodes_of_cluster hcluster
  rw [run_clusterFree h.ordered hks] at hfree
  by_cases hrounds : ks.length < rounds
  · rw [if_pos hrounds] at hfree
    obtain ⟨-, rfl⟩ := Prod.mk.inj (Option.some.inj hfree)
    exact ⟨ks, hks, rfl⟩
  · rw [if_neg hrounds] at hfree
    cases hfree

/-- One call. -/
theorem sane_step {call : NetCall} {rc : ArakoonRc} (h : u.Sane outside nodes) (hallowed : call.Allowed u)
    (hstep : netStep outside rounds call u = .ok (rc, u')) : u'.Sane outside (call.nodesAfter rc nodes) := by
  have hrun := netStep_eq_ok.mp hstep
  cases call with
  | nodeNew p name =>
      obtain ⟨-, rfl⟩ := Prod.mk.inj (Option.some.inj hrun)
      exact h.nodeNew hallowed name
  | clusterNew c name =>
      obtain ⟨-, rfl⟩ := Prod.mk.inj (Option.some.inj hrun)
      exact h.clusterNew hallowed.1 hallowed.2
  | addNode c p => exact h.addNode rc u' hrun
  | connectMaster c =>
      have hdoes : Does False outside nodes (clusterConnectMaster rounds outside c) fun _ => True :=
        does_clusterConnectMaster False.elim
      exact (hdoes.along u h rc u' hrun).1
  | operation c script =>
      have hdoes : Does False outside nodes (clusterOperation outside c script) fun _ => True :=
        does_clusterOperation False.elim
      exact (hdoes.along u h rc u' hrun).1
  | clusterFree c =>
      obtain ⟨ks, hks, rfl⟩ := h.freed hstep
      exact h.clusterFree hks
  | nodeFree p =>
      obtain ⟨_, u₁, hfree, hrest⟩ := bind_run_eq_some.mp hrun
      obtain ⟨-, rfl⟩ := Prod.mk.inj (Option.some.inj hrest)
      obtain ⟨cell, hcell, -⟩ := bind_nodeAt_run hfree
      obtain ⟨-, rfl⟩ := Prod.mk.inj (Option.some.inj ((run_nodeFree hcell).symm.trans hfree))
      exact h.nodeFree hallowed

theorem sane_empty (outside : Outside) : Network.empty.Sane outside fun _ => none := by
  refine ⟨⟨⟨fun c => Visits.nil _, ?_⟩, fun c => rfl, ?_, ?_⟩, fun _ => ⟨trivial, fun p fd => ?_⟩⟩
  · intro p cell hcell
    cases hcell
  · intro c cluster p hcluster
    cases hcluster
  · intro c cluster hcluster
    cases hcluster
  · exact iff_of_false List.not_mem_nil fun hfd => by cases hfd

/-- Wherever a run leads, the clusters have the nodes that were added to them. -/
theorem sane_run {history : List (NetCall × ArakoonRc)}
    (h : Run (netStep outside rounds) NetCall.Allowed Network.empty history u) : u.Sane outside (addedNodes history) :=
  h.traced (I := fun history u => u.Sane outside (addedNodes history)) (sane_empty outside)
    fun _ _ _ _ _ hsane hallowed hstep => sane_step hsane hallowed hstep

/-- What the lists of nodes are like after a run, and what follows them from there. -/
structure Network.Apart (outside : Outside) (rounds : Nat) (history : List (NetCall × ArakoonRc)) (u : Network) :
    Prop where
  /-- From each cluster a chain leads through the nodes that were added to it, to an end; those name the cluster, and no
  other node does. -/
  ordered : u.Ordered (addedNodes history)
  nodup : ∀ c, (listOf (addedNodes history) c).Nodup
  disjoint : ∀ c d p, p ∈ listOf (addedNodes history) c → p ∈ listOf (addedNodes history) d → c = d
  /-- A node that is in a list is not added again. -/
  again : ∀ c d p, (u.clusters d).isSome → p ∈ listOf (addedNodes history) c →
    netStep outside rounds (.addNode d p) u = .ok (einval, u)
  connects : ∀ c ks, addedNodes history c = some ks → ∀ limit, ks.length < limit →
    Yields (clusterConnectMaster limit outside c) u fun _ u' => u'.released = u.released
  frees : ∀ c ks, addedNodes history c = some ks → ∀ limit, ks.length < limit →
    Yields (clusterFree limit c) u fun _ u' =>
      u'.released = u.released ++ ks ∧ ∀ q, u'.cells q = if q ∈ ks then none else u.cells q

/-- Whatever calls are made, the lists of nodes of the clusters stay apart and come to an end, in the order of adding.
The loops over a list end when they may go on for one more round than there are nodes, and `arakoon_cluster_free` gives
back each node of the list once. -/
theorem node_lists_stay_apart (outside : Outside) (rounds : Nat) {history : List (NetCall × ArakoonRc)} {u : Network}
    (h : Run (netStep outside rounds) NetCall.Allowed Network.empty history u) :
    u.Apart outside rounds history := by
  have hsane := sane_run h
  refine ⟨hsane.ordered, fun c => (hsane.ordered.lists.chain c).nodup, fun c d p => hsane.ordered.disjoint, ?_, ?_, ?_⟩
  · intro c d p hsome hp
    obtain ⟨cluster, hcluster⟩ := Option.isSome_iff_exists.mp hsome
    obtain ⟨cell, hcell, hnamed⟩ := hsane.cell_of_mem hp
    have howned : cell.item.cluster ≠ none := fun hnone => by cases hnone.symm.trans hnamed
    exact netStep_eq_ok.mpr (run_addNode_owned hcluster hcell howned)
  · intro c ks hks limit hlimit
    have hlist := listOf_of_nodes hks
    have hdoes : Does True outside (addedNodes history) (clusterConnectMaster limit outside c) fun _ => True :=
      does_clusterConnectMaster fun _ => ⟨by rw [hks]; rfl, hlist ▸ hlimit⟩
    exact ((hdoes.outcome trivial u hsane).and (hdoes.along u hsane)).mono fun _ _ hout => hout.2.2.1
  · intro c ks hks limit hlimit
    have hrun : (clusterFree limit c).run u = _ := run_clusterFree hsane.ordered hks
    rw [if_pos hlimit] at hrun
    exact ⟨_, _, hrun, withoutNodes_released u ks, withoutNodes_cells u ks⟩

/-- Nothing is granted, and nobody answers. -/
def Outside.silent : Outside where
  malloc _ := none
  realloc _ _ := none
  write _ _ := ArakoonReturnCode.clientNetworkError.rc
  read _ _ := (ArakoonReturnCode.clientNetworkError.rc, [])
  dial _ _ := .error ⟨ArakoonReturnCode.clientNetworkError.rc, clientNetworkError_ne_zero⟩

/-- Two nodes are added to a cluster, and one of them again. -/
theorem node_lists_stay_apart_two : ∃ history u, history.head? = some (.addNode 7 1, einval) ∧
    addedNodes history 7 = some [2, 1] ∧ Network.Apart Outside.silent 3 history u := by
  obtain ⟨u, hrun⟩ : ∃ u, Run (netStep Outside.silent 3) NetCall.Allowed Network.empty
      [(.addNode 7 1, einval), (.addNode 7 2, 0), (.addNode 7 1, 0), (.clusterNew 7 ⟨[99], by decide⟩, 0),
        (.nodeNew 2 ⟨[98], by decide⟩, 0), (.nodeNew 1 ⟨[97], by decide⟩, 0)] u :=
    ⟨_, .call (.call (.call (.call (.call (.call .nil rfl rfl) rfl rfl) ⟨rfl, by decide⟩ rfl) trivial rfl) trivial rfl)
      trivial rfl⟩
  exact ⟨_, u, rfl, rfl, node_lists_stay_apart _ _ hrun⟩

end Calls

end Crakoon
