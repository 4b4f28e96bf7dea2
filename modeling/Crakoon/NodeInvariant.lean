import Crakoon.Ledger
import Crakoon.NodeGraph

/-!
# What holds of nodes, clusters and descriptors

The nodes of a cluster are a chain of their own, and name the cluster (`Network.Ordered`). A descriptor that was opened
for a node and is not closed yet is the descriptor of that node, and only such a descriptor is used or closed
(`Network.Wired`). Every function on nodes and clusters keeps both.
-/

namespace Crakoon

open Programs Chains Ledger

/-- From each head a chain leads through the nodes that name the cluster. -/
structure Network.Lists (u : Network) (heads : ClusterPtr → Option NodePtr) (lists : ClusterPtr → List NodePtr) :
    Prop where
  chain : ∀ c, Visits u.cells (heads c) (lists c)
  owned : ∀ p cell, u.cells p = some cell → ∀ c, cell.item.cluster = some c ↔ p ∈ lists c

def Network.heads (u : Network) (c : ClusterPtr) : Option NodePtr := (u.clusters c).bind NetCluster.nodes

/-- The nodes of a cluster; none where there is no cluster. -/
def listOf (nodes : ClusterPtr → Option (List NodePtr)) (c : ClusterPtr) : List NodePtr := (nodes c).getD []

/-- Each cluster that there is has its nodes, and one of them for its master. -/
structure Network.Ordered (u : Network) (nodes : ClusterPtr → Option (List NodePtr)) : Prop where
  lists : u.Lists u.heads (listOf nodes)
  clusters : ∀ c, (u.clusters c).isSome = (nodes c).isSome
  master : ∀ c cluster p, u.clusters c = some cluster → cluster.master = some p → p ∈ listOf nodes c
  named : ∀ c cluster, u.clusters c = some cluster → cluster.name.bytes.length + 12 < 2 ^ 64

/-- Where a node points. -/
def nodeLinks (cell : Cell NodePtr NetNode) : Option NodePtr × Option ClusterPtr := (cell.next, cell.item.cluster)

section Lists

variable {u u' : Network} {heads : ClusterPtr → Option NodePtr} {lists : ClusterPtr → List NodePtr}
  {nodes : ClusterPtr → Option (List NodePtr)}

theorem Network.Lists.congr (h : u.Lists heads lists)
    (hcells : ∀ p, (u'.cells p).map nodeLinks = (u.cells p).map nodeLinks) : u'.Lists heads lists where
  chain := by
    refine fun c => (h.chain c).congr fun p _ => ?_
    have hnext := congrArg (Option.map Prod.fst) (hcells p)
    rwa [Option.map_map, Option.map_map] at hnext
  owned := by
    intro p cell hcell c
    have hlinks := hcells p
    rw [hcell] at hlinks
    obtain ⟨cell', hcell', hsame⟩ := Option.map_eq_some_iff.mp hlinks.symm
    rw [← h.owned p cell' hcell' c, (Prod.mk.inj hsame).2]

/-- What a cluster is called and where its list begins. -/
def clusterHead (cluster : NetCluster) : CString × Option NodePtr := (cluster.name, cluster.nodes)

theorem Network.Ordered.reclustered (h : u.Ordered nodes)
    (hcells : ∀ p, (u'.cells p).map nodeLinks = (u.cells p).map nodeLinks)
    (hclusters : ∀ c, (u'.clusters c).map clusterHead = (u.clusters c).map clusterHead)
    (hmaster : ∀ c cluster p, u'.clusters c = some cluster → cluster.master = some p → p ∈ listOf nodes c) :
    u'.Ordered nodes where
  lists := by
    have hheads : u'.heads = u.heads := by
      funext c
      have hhead := congrArg (fun found => found.bind Prod.snd) (hclusters c)
      rwa [Option.bind_map, Option.bind_map] at hhead
    rw [hheads]
    exact h.lists.congr hcells
  clusters := by
    intro c
    rw [← h.clusters c]
    have hsome := congrArg Option.isSome (hclusters c)
    rwa [Option.isSome_map, Option.isSome_map] at hsome
  master := hmaster
  named := by
    intro c cluster hcluster
    have hfound := hclusters c
    rw [hcluster] at hfound
    obtain ⟨before, hbefore, hsame⟩ := Option.map_eq_some_iff.mp hfound.symm
    exact (Prod.mk.inj hsame).1 ▸ h.named c before hbefore

theorem Network.Ordered.congr (h : u.Ordered nodes) (hclusters : u'.clusters = u.clusters)
    (hcells : ∀ p, (u'.cells p).map nodeLinks = (u.cells p).map nodeLinks) : u'.Ordered nodes :=
  h.reclustered hcells (fun c => by rw [hclusters]) (hclusters ▸ h.master)

/-- A cluster has another of its nodes for its master. -/
theorem Network.Ordered.withMaster (h : u.Ordered nodes) {c : ClusterPtr} {cluster : NetCluster}
    (hcluster : u.clusters c = some cluster) {p : NodePtr} (hp : p ∈ listOf nodes c) (hcells : u'.cells = u.cells)
    (hclusters : u'.clusters = Function.update u.clusters c (some { cluster with master := some p })) :
    u'.Ordered nodes := by
  refine h.reclustered (fun q => by rw [hcells]) (fun d => ?_) fun d found q hfound hmaster => ?_
  · rw [hclusters]
    by_cases hd : d = c
    · subst hd
      rw [Function.update_self, hcluster]
      rfl
    · rw [Function.update_of_ne hd]
  · rw [hclusters] at hfound
    by_cases hd : d = c
    · subst hd
      rw [Function.update_self] at hfound
      obtain rfl := Option.some.inj hfound
      exact Option.some.inj hmaster ▸ hp
    · rw [Function.update_of_ne hd] at hfound
      exact h.master d found q hfound hmaster

/-- Writing a descriptor leaves the nodes where they point. -/
theorem links_put {p : NodePtr} {cell : Cell NodePtr NetNode} (hcell : u.cells p = some cell) (fd : Option Nat)
    (q : NodePtr) : (u.cells.put p { cell with item := { cell.item with fd := fd } } q).map nodeLinks =
      (u.cells q).map nodeLinks := by
  have hlinks : some (nodeLinks cell) = (u.cells p).map nodeLinks := by rw [hcell, Option.map_some]
  refine (Function.apply_update (fun _ found => found.map nodeLinks) u.cells p _ q).trans ?_
  exact congrFun (Function.update_eq_self_iff.mpr hlinks) q

theorem listOf_of_nodes {c : ClusterPtr} {ks : List NodePtr} (hks : nodes c = some ks) : listOf nodes c = ks := by
  rw [listOf, hks, Option.getD_some]

theorem mem_listOf {c : ClusterPtr} {p : NodePtr} :
    p ∈ listOf nodes c ↔ ∃ ks, nodes c = some ks ∧ p ∈ ks := by
  rw [listOf]
  cases nodes c with
  | none => simp
  | some ks => simp

theorem Network.Ordered.cell_of_mem (h : u.Ordered nodes) {c : ClusterPtr} {p : NodePtr} (hp : p ∈ listOf nodes c) :
    ∃ cell, u.cells p = some cell ∧ cell.item.cluster = some c := by
  obtain ⟨cell, hcell⟩ := (h.lists.chain c).cell_of_mem hp
  exact ⟨cell, hcell, (h.lists.owned p cell hcell c).mpr hp⟩

theorem Network.Ordered.nodes_of_cluster (h : u.Ordered nodes) {c : ClusterPtr} {cluster : NetCluster}
    (hcluster : u.clusters c = some cluster) : ∃ ks, nodes c = some ks := by
  have hsome := h.clusters c
  rw [hcluster] at hsome
  exact Option.isSome_iff_exists.mp hsome.symm

theorem Network.Ordered.cluster_of_nodes (h : u.Ordered nodes) {c : ClusterPtr} {ks : List NodePtr}
    (hks : nodes c = some ks) : ∃ cluster, u.clusters c = some cluster ∧ Visits u.cells cluster.nodes ks := by
  have hsome := h.clusters c
  rw [hks] at hsome
  obtain ⟨cluster, hcluster⟩ := Option.isSome_iff_exists.mp hsome
  have hchain := h.lists.chain c
  rw [Network.heads, hcluster, listOf, hks] at hchain
  exact ⟨cluster, hcluster, hchain⟩

/-- A node is in one list at most. -/
theorem Network.Ordered.disjoint (h : u.Ordered nodes) {c d : ClusterPtr} {p : NodePtr} (hc : p ∈ listOf nodes c)
    (hd : p ∈ listOf nodes d) : c = d := by
  obtain ⟨cell, hcell, hcluster⟩ := h.cell_of_mem hc
  exact Option.some.inj (hcluster.symm.trans ((h.lists.owned p cell hcell d).mpr hd))

end Lists

def SocketEvent.entry : SocketEvent → Option (Entry (NodePtr × Nat))
  | .opened p fd => some (.opened (p, fd))
  | .used _ _ => none
  | .closed p fd => some (.closed (p, fd))

/-- What is opened and closed. -/
def entries (log : List SocketEvent) : List (Entry (NodePtr × Nat)) := log.filterMap SocketEvent.entry

/-- The descriptors that are open, with the nodes that they were opened for. -/
def sockets (log : List SocketEvent) : List (NodePtr × Nat) := held (entries log)

/-- A descriptor that is opened is not open; one that is used or closed is, for the node that it is used or closed
for. -/
def InOrder : List SocketEvent → Prop
  | [] => True
  | .opened _ fd :: before => (∀ q, (q, fd) ∉ sockets before) ∧ InOrder before
  | .used p fd :: before => (p, fd) ∈ sockets before ∧ InOrder before
  | .closed p fd :: before => (p, fd) ∈ sockets before ∧ InOrder before

/-- `_arakoon_networking_connect` gives a descriptor that is not open. -/
def Outside.Fresh (outside : Outside) : Prop :=
  ∀ turn log fd, outside.dial turn log = .ok fd → ∀ q, (q, fd) ∉ sockets log

/-- The descriptor of the node at an address. -/
def Network.fdAt (u : Network) (p : NodePtr) : Option Nat := (u.cells p).bind fun cell => cell.item.fd

/-- The descriptors that are open are those of the nodes. -/
structure Network.Wired (u : Network) : Prop where
  order : InOrder u.log
  held : ∀ p fd, (p, fd) ∈ sockets u.log ↔ u.fdAt p = some fd

section Sockets

variable {log : List SocketEvent} {p q : NodePtr} {fd d : Nat}

theorem InOrder.fresh (h : InOrder log) : Fresh (entries log) := by
  induction log with
  | nil => trivial
  | cons e before ih =>
      cases e with
      | opened p fd => exact ⟨h.1 p, ih h.2⟩
      | used p fd => exact ih h.2
      | closed p fd => exact ih h.2

theorem InOrder.clean (h : InOrder log) : Clean (entries log) := by
  induction log with
  | nil => trivial
  | cons e before ih =>
      cases e with
      | opened p fd => exact ih h.2
      | used p fd => exact ih h.2
      | closed p fd => exact ⟨h.1, ih h.2⟩

theorem mem_sockets_opened : (q, d) ∈ sockets (.opened p fd :: log) ↔ (q, d) = (p, fd) ∨ (q, d) ∈ sockets log :=
  List.mem_cons

theorem mem_sockets_closed (h : InOrder log) :
    (q, d) ∈ sockets (.closed p fd :: log) ↔ (q, d) ≠ (p, fd) ∧ (q, d) ∈ sockets log :=
  mem_held_closed h.fresh.nodup

/-- An open descriptor was opened for one node. -/
theorem InOrder.unique (h : InOrder log) (hp : (p, fd) ∈ sockets log) (hq : (q, fd) ∈ sockets log) : p = q := by
  induction log with
  | nil => cases hp
  | cons e before ih =>
      cases e with
      | opened r d =>
          rcases mem_sockets_opened.mp hp with hnew | hold
          · rcases mem_sockets_opened.mp hq with hnew' | hold'
            · exact (Prod.mk.inj hnew).1.trans (Prod.mk.inj hnew').1.symm
            · exact absurd ((Prod.mk.inj hnew).2 ▸ hold') (h.1 q)
          · rcases mem_sockets_opened.mp hq with hnew' | hold'
            · exact absurd ((Prod.mk.inj hnew').2 ▸ hold) (h.1 p)
            · exact ih h.2 hold hold'
      | used r d => exact ih h.2 hp hq
      | closed r d => exact ih h.2 ((mem_sockets_closed h.2).mp hp).2 ((mem_sockets_closed h.2).mp hq).2

end Sockets

section Wiring

variable {u u' : Network} {p : NodePtr} {fd : Nat}

theorem fdAt_update (cells : Cells NodePtr NetNode) (p : NodePtr) (found : Option (Cell NodePtr NetNode)) :
    (fun q => (Function.update cells p found q).bind fun cell => cell.item.fd) =
      Function.update (fun q => (cells q).bind fun cell => cell.item.fd) p (found.bind fun cell => cell.item.fd) :=
  funext (Function.apply_update (fun _ found => found.bind fun cell => cell.item.fd) cells p found)

namespace Network.Wired

theorem same (h : u.Wired) (hlog : u'.log = u.log) (hat : u'.fdAt = u.fdAt) : u'.Wired := by
  refine ⟨hlog ▸ h.order, fun q d => ?_⟩
  rw [hlog, hat]
  exact h.held q d

theorem used (h : u.Wired) (hfd : u.fdAt p = some fd) (hlog : u'.log = .used p fd :: u.log)
    (hat : u'.fdAt = u.fdAt) : u'.Wired := by
  refine ⟨?_, fun q d => ?_⟩
  · rw [hlog]
    exact ⟨(h.held p fd).mpr hfd, h.order⟩
  · rw [hlog, hat]
    exact h.held q d

theorem closed (h : u.Wired) (hfd : u.fdAt p = some fd) (hlog : u'.log = .closed p fd :: u.log)
    (hat : u'.fdAt = Function.update u.fdAt p none) : u'.Wired := by
  refine ⟨?_, fun q d => ?_⟩
  · rw [hlog]
    exact ⟨(h.held p fd).mpr hfd, h.order⟩
  · rw [hlog, hat, mem_sockets_closed h.order, h.held]
    by_cases hq : q = p
    · subst hq
      rw [Function.update_self, hfd]
      simp +contextual [eq_comm]
    · rw [Function.update_of_ne hq]
      exact and_iff_right fun heq => hq (Prod.mk.inj heq).1

theorem opened (h : u.Wired) (hfd : u.fdAt p = none) (hfresh : ∀ q, (q, fd) ∉ sockets u.log)
    (hlog : u'.log = .opened p fd :: u.log) (hat : u'.fdAt = Function.update u.fdAt p (some fd)) : u'.Wired := by
  refine ⟨?_, fun q d => ?_⟩
  · rw [hlog]
    exact ⟨hfresh, h.order⟩
  · rw [hlog, hat, mem_sockets_opened, h.held]
    by_cases hq : q = p
    · subst hq
      rw [Function.update_self, hfd]
      simp [eq_comm]
    · rw [Function.update_of_ne hq]
      exact or_iff_right fun heq => hq (Prod.mk.inj heq).1

end Network.Wired

end Wiring

end Crakoon
