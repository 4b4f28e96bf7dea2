import Crakoon.Hosts
import Crakoon.NodeLists

/-!
# Clusters and the nodes in memory

A cluster by itself, and the same cluster as it is linked in memory with its nodes. Whatever a run of searches,
requests for the master and operations gives, there is an outside with which the run on the memory has the same codes
(`cluster_in_memory`): what is proved of linked memory, for every outside, holds of clusters by themselves.
-/

namespace Crakoon

open Programs Chains Ledger

/-- What comes from outside when something is asked. -/
inductive OutsideAnswer where
  | block (id : Option Nat)
  | written (rc : ArakoonRc)
  | piece (out : ArakoonRc × Bytes)
  /-- There is a new descriptor, or no connection. -/
  | dialed (failure : Option Failure)

/-- A number that no open descriptor has. -/
def unusedFd (log : List SocketEvent) : Nat := ((sockets log).map Prod.snd).sum + 1

/-- The outside that gives these answers. -/
def outsideOf (answers : Nat → OutsideAnswer) : Outside where
  malloc n := match answers n with
    | .block id => id
    | _ => none
  realloc n _ := match answers n with
    | .block id => id
    | _ => none
  write n _ := match answers n with
    | .written rc => rc
    | _ => ArakoonReturnCode.success.rc
  read n _ := match answers n with
    | .piece out => out
    | _ => (ArakoonReturnCode.success.rc, [])
  dial n log := match answers n with
    | .dialed (some failure) => .error failure
    | _ => .ok (unusedFd log)

/-- The memory holds the cluster at `c`, and its nodes, linked, at their places. -/
structure Network.Holds (u : Network) (c : ClusterPtr) (place : NodeId → NodePtr) (b : Cluster) : Prop where
  cluster : u.clusters c = some ⟨b.name, b.nodes.head?.map place, b.master.map place⟩
  nodes : Visits u.cells (b.nodes.head?.map place) (b.nodes.map place)
  node : ∀ k ∈ b.nodes, ∃ cell, u.cells (place k) = some cell ∧ cell.item.name = (b.node k).name ∧
    cell.item.cluster = some c ∧ cell.item.fd.isSome = (b.node k).conn.isSome
  master : ∀ k, b.master = some k → k ∈ b.nodes

/-- The memory holds the cluster of the world, which has the nodes `ks`. So much was asked, and from now on the answers
are these. -/
structure Network.Fits (c : ClusterPtr) (place : NodeId → NodePtr) (ks : List NodeId) (asked : Nat)
    (answers : Nat → OutsideAnswer) (w : World) (t : Network × (Nat → OutsideAnswer)) : Prop where
  holds : t.1.Holds c place w.cluster
  nodes : w.cluster.nodes = ks
  turn : t.1.turn = asked
  told : ∀ n, asked ≤ n → t.2 n = answers n

/-- A program on linked memory, told the answers. -/
abbrev told {α : Type} (m : Outside → NetM α) : Program (Network × (Nat → OutsideAnswer)) α :=
  beside fun answers => m (outsideOf answers)

section Answers

variable {answers : Nat → OutsideAnswer}

theorem fresh_outsideOf : (outsideOf answers).Fresh := by
  intro turn log fd hdial q hq
  have hfd : unusedFd log = fd := by
    cases hanswer : answers turn with
    | dialed failure =>
        cases failure with
        | none => simpa [outsideOf, hanswer] using hdial
        | some failure => simp [outsideOf, hanswer] at hdial
    | block id => simpa [outsideOf, hanswer] using hdial
    | written rc => simpa [outsideOf, hanswer] using hdial
    | piece out => simpa [outsideOf, hanswer] using hdial
  have hle : fd ≤ ((sockets log).map Prod.snd).sum :=
    List.single_le_sum (fun _ _ => Nat.zero_le _) _ (List.mem_map_of_mem hq)
  rw [unusedFd] at hfd
  omega

end Answers

namespace Network.Holds

variable {u u' : Network} {c : ClusterPtr} {place : NodeId → NodePtr} {b b' : Cluster} {k j : NodeId}

/-- The memory shows of a cluster its name, its nodes, its master, and which nodes are connected. -/
theorem same (h : u.Holds c place b) (hcells : u'.cells = u.cells) (hclusters : u'.clusters = u.clusters)
    (hname : b'.name = b.name) (hnodes : b'.nodes = b.nodes) (hmaster : b'.master = b.master)
    (hnames : ∀ k, (b'.node k).name = (b.node k).name)
    (hconns : ∀ k, (b'.node k).conn.isSome = (b.node k).conn.isSome) : u'.Holds c place b' where
  cluster := by rw [hclusters, hname, hnodes, hmaster, h.cluster]
  nodes := by
    rw [hcells, hnodes]
    exact h.nodes
  node := by
    intro k hk
    rw [hcells, hnames, hconns]
    exact h.node k (hnodes ▸ hk)
  master := by
    intro k hk
    rw [hnodes]
    exact h.master k (hmaster ▸ hk)

theorem place_inj (h : u.Holds c place b) (hj : j ∈ b.nodes) (hk : k ∈ b.nodes) (hsame : place j = place k) : j = k :=
  List.inj_on_of_nodup_map h.nodes.nodup hj hk hsame

/-- What comes behind a node. -/
theorem next (h : u.Holds c place b) {ks : List NodeId} (hks : k :: ks <:+ b.nodes) {cell : Cell NodePtr NetNode}
    (hcell : u.cells (place k) = some cell) : cell.next = ks.head?.map place := by
  obtain ⟨front, hfront⟩ := hks
  have hvisits := h.nodes
  rw [← hfront, List.map_append, List.map_cons] at hvisits
  obtain ⟨cell', hcell', hnext⟩ := hvisits.behind
  obtain rfl := Option.some.inj (hcell.symm.trans hcell')
  rw [hnext, List.head?_map]

/-- The descriptor of a node changes. -/
theorem setFd (h : u.Holds c place b) (hk : k ∈ b.nodes) {cell : Cell NodePtr NetNode}
    (hcell : u.cells (place k) = some cell) {fd : Option Nat}
    (hcells : u'.cells = u.cells.put (place k) { cell with item := { cell.item with fd := fd } })
    (hclusters : u'.clusters = u.clusters) (hname : b'.name = b.name) (hnodes : b'.nodes = b.nodes)
    (hmaster : b'.master = b.master) (hnames : ∀ j, (b'.node j).name = (b.node j).name)
    (hself : (b'.node k).conn.isSome = fd.isSome)
    (hothers : ∀ j, j ≠ k → (b'.node j).conn.isSome = (b.node j).conn.isSome) : u'.Holds c place b' where
  cluster := by rw [hclusters, hname, hnodes, hmaster, h.cluster]
  nodes := by
    rw [hnodes]
    refine h.nodes.congr fun p _ => ?_
    rw [hcells, Cells.put]
    by_cases hp : p = place k
    · rw [hp, Function.update_self, hcell]
      rfl
    · rw [Function.update_of_ne hp]
  node := by
    intro j hj
    rw [hnodes] at hj
    obtain ⟨cell', hcell', hname', hcluster', hfd'⟩ := h.node j hj
    rw [hcells, Cells.put, hnames]
    by_cases hjk : j = k
    · subst hjk
      obtain rfl := Option.some.inj (hcell.symm.trans hcell')
      rw [Function.update_self]
      exact ⟨_, rfl, hname', hcluster', hself.symm⟩
    · rw [Function.update_of_ne fun hplace => hjk (h.place_inj hj hk hplace), hothers j hjk]
      exact ⟨cell', hcell', hname', hcluster', hfd'⟩
  master := by
    intro j hj
    rw [hnodes]
    exact h.master j (hmaster ▸ hj)

end Network.Holds

section Commands

variable {alloc : Nat → Bool} {c : ClusterPtr} {place : NodeId → NodePtr} {ks : List NodeId} {asked : Nat}
  {answers : Nat → OutsideAnswer} {w w' : World} {k : NodeId} {t : Network × (Nat → OutsideAnswer)} {u : Network}
  {a : OutsideAnswer} {s s' : Session} {α : Type}

theorem Network.Fits.answer (h : Network.Fits c place ks asked (Function.update answers asked a) w t) :
    t.2 t.1.turn = a := by
  rw [h.turn, h.told asked le_rfl, Function.update_self]

/-- Something was asked. -/
theorem Network.Fits.later (h : Network.Fits c place ks asked (Function.update answers asked a) w t)
    (hholds : u.Holds c place w'.cluster) (hnodes : w'.cluster.nodes = w.cluster.nodes)
    (hturn : u.turn = t.1.turn + 1) : Network.Fits c place ks (asked + 1) answers w' (u, t.2) where
  holds := hholds
  nodes := hnodes.trans h.nodes
  turn := by rw [hturn, h.turn]
  told := by
    intro n hn
    rw [h.told n (by omega), Function.update_of_ne (by omega)]

/-- The memory holds what the node `k` works on, the others as in `w`. -/
abbrev Network.FitsNode (c : ClusterPtr) (place : NodeId → NodePtr) (ks : List NodeId) (w : World) (k : NodeId)
    (asked : Nat) (answers : Nat → OutsideAnswer) (s : Session) (t : Network × (Nat → OutsideAnswer)) : Prop :=
  Network.Fits c place ks asked answers (w.update k s) t

theorem Network.Holds.update {u' : Network} (h : u.Holds c place (w.update k s).cluster)
    (hconn : s'.conn.isSome = s.conn.isSome) (hcells : u'.cells = u.cells) (hclusters : u'.clusters = u.clusters) :
    u'.Holds c place (w.update k s').cluster := by
  refine h.same hcells hclusters rfl rfl rfl (fun j => ?_) fun j => ?_
  · by_cases hj : j = k <;> simp [World.update, Cluster.setNode, hj]
  · by_cases hj : j = k <;> simp [World.update, Cluster.setNode, hj, hconn]

/-- Nothing is asked, and the node stays what it is. -/
theorem foretells_unasked {n : SessionM α} {m : Outside → NetM α}
    (h : ∀ s a s', n.run s = some (a, s') → s'.conn = s.conn ∧ ∀ outside u, (m outside).run u = some (a, u)) :
    Foretells (Network.FitsNode c place ks w k) n (told m) := by
  intro s a s' hrun asked
  obtain ⟨hconn, hm⟩ := h s a s' hrun
  refine ⟨asked, fun answers => ⟨answers, fun t hfits => ⟨t, beside_run.mpr ⟨hm _ t.1, rfl⟩, ?_⟩⟩⟩
  exact { hfits with holds := hfits.holds.update (by rw [hconn]) rfl rfl }

/-- One question is asked, to which the outcome is the answer. -/
theorem foretells_asked {n : SessionM α} {m : Outside → NetM α} (wrap : α → OutsideAnswer)
    (hkeeps : ∀ s a s', n.run s = some (a, s') → s'.conn.isSome = s.conn.isSome)
    (hm : ∀ answers u a, answers u.turn = wrap a →
      (m (outsideOf answers)).run u = some (a, { u with turn := u.turn + 1 })) :
    Foretells (Network.FitsNode c place ks w k) n (told m) := by
  intro s a s' hrun asked
  refine ⟨asked + 1, fun answers => ⟨Function.update answers asked (wrap a), fun t hfits => ?_⟩⟩
  refine ⟨(_, t.2), beside_run.mpr ⟨hm t.2 t.1 a hfits.answer, rfl⟩, ?_⟩
  exact hfits.later (hfits.holds.update (hkeeps s a s' hrun) rfl rfl) rfl rfl

/-- The same for a question to the descriptor, if there is one. -/
theorem foretells_used {n : SessionM α} {ask : Outside → NetM α} (hk : k ∈ ks) (missing : α) (wrap : α → OutsideAnswer)
    (hmissing : ∀ s, s.conn = none → n.run s = some (missing, s))
    (hkeeps : ∀ s a s', n.run s = some (a, s') → s'.conn.isSome = s.conn.isSome)
    (hask : ∀ answers u a, answers u.turn = wrap a →
      (ask (outsideOf answers)).run u = some (a, { u with turn := u.turn + 1 })) :
    Foretells (Network.FitsNode c place ks w k) n (told fun outside => do
      let cell ← nodeAt (place k)
      match cell.item.fd with
      | none => pure missing
      | some fd => do
          record (.used (place k) fd)
          ask outside) := by
  intro s a s' hrun asked
  have hcell : ∀ {asked answers t}, Network.FitsNode c place ks w k asked answers s t →
      ∃ cell, t.1.cells (place k) = some cell ∧ cell.item.fd.isSome = s.conn.isSome := by
    intro asked answers t hfits
    obtain ⟨cell, hcell, -, -, hfd⟩ := hfits.holds.node k (hfits.nodes ▸ hk)
    refine ⟨cell, hcell, hfd.trans ?_⟩
    simp [World.update, Cluster.setNode]
  cases hconn : s.conn with
  | none =>
      obtain ⟨rfl, rfl⟩ := Prod.mk.inj (Option.some.inj ((hmissing s hconn).symm.trans hrun))
      refine ⟨asked, fun answers => ⟨answers, fun t hfits => ⟨t, beside_run.mpr ⟨?_, rfl⟩, hfits⟩⟩⟩
      obtain ⟨cell, hcell, hfd⟩ := hcell hfits
      have hnone : cell.item.fd = none := by simpa [hconn] using hfd
      refine bind_run_eq_some.mpr ⟨cell, t.1, run_nodeAt hcell, ?_⟩
      simp only [hnone]
      rfl
  | some conn =>
      refine ⟨asked + 1, fun answers => ⟨Function.update answers asked (wrap a), fun t hfits => ?_⟩⟩
      obtain ⟨cell, hcell, hfd⟩ := hcell hfits
      obtain ⟨fd, hsome⟩ := Option.isSome_iff_exists.mp (hfd.trans (by rw [hconn]; rfl))
      let used : Network := { t.1 with log := .used (place k) fd :: t.1.log }
      refine ⟨({ used with turn := used.turn + 1 }, t.2), beside_run.mpr ⟨?_, rfl⟩, ?_⟩
      · refine bind_run_eq_some.mpr ⟨cell, t.1, run_nodeAt hcell, ?_⟩
        simp only [hsome]
        exact bind_run_eq_some.mpr ⟨(), used, rfl, hask t.2 used a hfits.answer⟩
      · exact hfits.later (hfits.holds.update (hkeeps s a s' hrun) rfl rfl) rfl rfl

/-- What a node works on is open or not, and the memory of the node shows which. -/
theorem foretells_linked_disconnect (hk : k ∈ ks) :
    Foretells (Network.FitsNode c place ks w k) clusterNodeDisconnect (told fun _ => nodeDisconnect (place k)) := by
  intro s _ s' hrun asked
  obtain ⟨rfl, rfl⟩ := Prod.mk.inj (Option.some.inj hrun)
  refine ⟨asked, fun answers => ⟨answers, fun t hfits => ?_⟩⟩
  have hmem : k ∈ (w.update k s).cluster.nodes := hfits.nodes ▸ hk
  obtain ⟨cell, hcell, -⟩ := hfits.holds.node k hmem
  obtain ⟨⟨⟩, _, hclosed, rfl⟩ := yields_nodeDisconnect hcell
  refine ⟨(_, t.2), beside_run.mpr ⟨hclosed, rfl⟩, { hfits with
    holds := hfits.holds.setFd hmem hcell rfl rfl rfl rfl rfl (fun j => ?_) ?_ fun j hj => ?_ }⟩
  · by_cases hj : j = k <;> simp [World.update, Cluster.setNode, hj]
  · simp [World.update, Cluster.setNode]
  · simp [World.update, Cluster.setNode, hj]

theorem foretells_linked_command (hk : k ∈ ks) (command : NodeCommand) :
    Foretells (Network.FitsNode c place ks w k) (command.perform alloc)
      (told fun outside => performOn outside (place k) command) := by
  cases command with
  | malloc =>
      refine foretells_asked OutsideAnswer.block (fun s a s' hrun => ?_) fun answers u a hanswer => ?_
      · obtain ⟨-, rfl⟩ := Prod.mk.inj (Option.some.inj hrun)
        rfl
      · simp [performOn, askOutside, outsideOf, StateT.run, hanswer]
  | realloc q =>
      refine foretells_asked OutsideAnswer.block (fun s a s' hrun => ?_) fun answers u a hanswer => ?_
      · obtain ⟨-, rfl⟩ := Prod.mk.inj (Option.some.inj hrun)
        rfl
      · simp [performOn, askOutside, outsideOf, StateT.run, hanswer]
  | free q =>
      refine foretells_unasked fun s a s' hrun => ?_
      obtain ⟨rfl, rfl⟩ := Prod.mk.inj (Option.some.inj hrun)
      exact ⟨rfl, fun _ _ => rfl⟩
  | write bs =>
      refine foretells_used hk _ OutsideAnswer.written (fun s hs => ?_) (fun s a s' hrun => ?_)
        fun answers u a hanswer => ?_
      · simp only [NodeCommand.perform, clusterNodeWriteBytes, StateT.run, hs]
        rfl
      · cases hs : s.conn with
        | none =>
            simp only [NodeCommand.perform, clusterNodeWriteBytes, StateT.run, hs] at hrun
            obtain ⟨-, rfl⟩ := Prod.mk.inj (Option.some.inj hrun)
            rw [hs]
        | some conn =>
            simp only [NodeCommand.perform, clusterNodeWriteBytes, StateT.run, hs] at hrun
            obtain ⟨-, rfl⟩ := Prod.mk.inj (Option.some.inj hrun)
            rfl
      · simp [askOutside, outsideOf, StateT.run, hanswer]
  | read n =>
      refine foretells_used hk _ OutsideAnswer.piece (fun s hs => ?_) (fun s a s' hrun => ?_)
        fun answers u a hanswer => ?_
      · simp only [NodeCommand.perform, clusterNodeReadBytes, StateT.run, hs]
        rfl
      · cases hs : s.conn with
        | none =>
            simp only [NodeCommand.perform, clusterNodeReadBytes, StateT.run, hs] at hrun
            obtain ⟨-, rfl⟩ := Prod.mk.inj (Option.some.inj hrun)
            rw [hs]
        | some conn =>
            simp only [NodeCommand.perform, clusterNodeReadBytes, StateT.run, hs] at hrun
            obtain ⟨-, rfl⟩ := Prod.mk.inj (Option.some.inj hrun)
            rfl
      · simp [askOutside, outsideOf, StateT.run, hanswer]
  | disconnect => exact foretells_linked_disconnect hk
  | setLastError msg =>
      refine foretells_unasked fun s a s' hrun => ?_
      obtain ⟨rfl, rfl⟩ := Prod.mk.inj (Option.some.inj hrun)
      exact ⟨rfl, fun _ _ => rfl⟩
  | abort =>
      intro s a s' hrun
      cases hrun

end Commands

/-! ### Connections -/

section Connections

variable {alloc : Nat → Bool} {dial : Dialer} {c : ClusterPtr} {place : NodeId → NodePtr} {ks : List NodeId}
  {asked : Nat} {answers : Nat → OutsideAnswer} {w : World} {k : NodeId} {t : Network × (Nat → OutsideAnswer)}
  {u : Network} {α : Type}

theorem World.update_same (w : World) (k : NodeId) : w.update k (w.session k) = w := by
  have hnode : (fun j => if j = k then { w.cluster.node k with conn := (w.cluster.node k).conn } else w.cluster.node j) =
      w.cluster.node := by
    funext j
    by_cases hj : j = k
    · rw [if_pos hj, hj]
    · rw [if_neg hj]
  simp only [World.update, World.session, Cluster.setNode, hnode]

/-- What is done with a node in the world is done with the node in memory. -/
theorem foretells_linked_onNode (hk : k ∈ ks) {m : SessionM α} (script : NodeScript α)
    (hscript : script.run (NodeCommand.perform alloc) = m) :
    Foretells (Network.Fits c place ks) (onNode k m) (told fun outside => onNodeAt outside (place k) script) := by
  intro w a w' hrun asked
  obtain ⟨⟨b, s'⟩, hsession, hout⟩ := Option.map_eq_some_iff.mp hrun
  obtain ⟨rfl, rfl⟩ := Prod.mk.inj hout
  have hboth : Foretells (Network.FitsNode c place ks w k) (script.run (NodeCommand.perform alloc))
      (script.run fun command => told fun outside => performOn outside (place k) command) :=
    .commands (foretells_linked_command hk) script
  rw [hscript, ← beside_commands fun answers => performOn (outsideOf answers) (place k)] at hboth
  obtain ⟨asked', hback⟩ := hboth _ _ _ hsession asked
  refine ⟨asked', fun answers' => ?_⟩
  obtain ⟨answers, hforth⟩ := hback answers'
  refine ⟨answers, fun t hfits => hforth t ?_⟩
  rwa [Network.FitsNode, World.update_same]

theorem nodeOpen_open {outside : Outside} {p : NodePtr} {cell : Cell NodePtr NetNode} (hcell : u.cells p = some cell)
    (hfd : cell.item.fd.isSome = true) :
    (nodeOpen outside p).run u = some (some ArakoonReturnCode.success.rc, u) := by
  refine bind_run_eq_some.mpr ⟨cell, u, run_nodeAt hcell, ?_⟩
  rw [if_pos hfd]
  rfl

theorem nodeOpen_refused {outside : Outside} {p : NodePtr} {cell : Cell NodePtr NetNode}
    (hcell : u.cells p = some cell) (hfd : cell.item.fd.isSome = false) {failure : Failure}
    (hdial : outside.dial u.turn u.log = .error failure) :
    (nodeOpen outside p).run u =
      some (some failure.1, { u with turn := u.turn + 1 }.withFd p cell none u.log) := by
  have hask : (askOutside outside.dial).run u = some (.error failure, { u with turn := u.turn + 1 }) := by
    simp [askOutside, StateT.run, hdial]
  refine bind_run_eq_some.mpr ⟨cell, u, run_nodeAt hcell, ?_⟩
  rw [if_neg (ne_true_of_eq_false hfd)]
  refine bind_run_eq_some.mpr ⟨_, _, hask, ?_⟩
  obtain ⟨⟨⟩, _, hset, rfl⟩ := yields_nodeSetFd (u := { u with turn := u.turn + 1 }) hcell none
  exact bind_run_eq_some.mpr ⟨(), _, hset, rfl⟩

theorem nodeOpen_opened {outside : Outside} {p : NodePtr} {cell : Cell NodePtr NetNode}
    (hcell : u.cells p = some cell) (hfd : cell.item.fd.isSome = false) {fd : Nat}
    (hdial : outside.dial u.turn u.log = .ok fd) :
    (nodeOpen outside p).run u =
      some (none, { u with turn := u.turn + 1 }.withFd p cell (some fd) (.opened p fd :: u.log)) := by
  have hask : (askOutside outside.dial).run u = some (.ok fd, { u with turn := u.turn + 1 }) := by
    simp [askOutside, StateT.run, hdial]
  let opened : Network := { u with turn := u.turn + 1, log := .opened p fd :: u.log }
  refine bind_run_eq_some.mpr ⟨cell, u, run_nodeAt hcell, ?_⟩
  rw [if_neg (ne_true_of_eq_false hfd)]
  refine bind_run_eq_some.mpr ⟨_, _, hask, bind_run_eq_some.mpr ⟨(), opened, rfl, ?_⟩⟩
  obtain ⟨⟨⟩, _, hset, rfl⟩ := yields_nodeSetFd (u := opened) hcell (some fd)
  exact bind_run_eq_some.mpr ⟨(), _, hset, rfl⟩

/-- The node of a world in memory. -/
theorem Network.Fits.cell (hfits : Network.Fits c place ks asked answers w t) (hk : k ∈ ks) :
    ∃ cell, t.1.cells (place k) = some cell ∧ cell.item.name = (w.cluster.node k).name ∧
      cell.item.cluster = some c ∧ cell.item.fd.isSome = (w.cluster.node k).conn.isSome :=
  hfits.holds.node k (hfits.nodes ▸ hk)

/-- There is no connection: nothing is opened for the node. -/
theorem Network.Fits.refused {failure : Failure}
    (hfits : Network.Fits c place ks asked (Function.update answers asked (.dialed (some failure))) w t) (hk : k ∈ ks)
    (hconn : (w.cluster.node k).conn = none) :
    ∃ u, (nodeConnect (outsideOf t.2) (place k)).run t.1 = some (failure.1, u) ∧
      Network.Fits c place ks (asked + 1) answers { w with dials := w.dials + 1 } (u, t.2) := by
  obtain ⟨cell, hcell, -, -, hfd⟩ := hfits.cell hk
  rw [hconn] at hfd
  have hdial : (outsideOf t.2).dial t.1.turn t.1.log = .error failure := by simp [outsideOf, hfits.answer]
  refine ⟨_, bind_run_eq_some.mpr ⟨_, _, nodeOpen_refused hcell hfd hdial, rfl⟩, hfits.later ?_ rfl rfl⟩
  refine hfits.holds.setFd (hfits.nodes ▸ hk) hcell rfl rfl rfl rfl rfl (fun _ => rfl) ?_ fun _ _ => rfl
  rw [hconn]
  rfl

/-- There is a connection: a descriptor is opened for the node, and the prologue is sent. -/
theorem Network.Fits.opened (hfits : Network.Fits c place ks asked (Function.update answers asked (.dialed none)) w t)
    (hk : k ∈ ks) (hconn : (w.cluster.node k).conn = none) (peer : Peer) :
    ∃ u, Network.Fits c place ks (asked + 1) answers (w.dialed k peer) (u, t.2) ∧
      (nodeConnect (outsideOf t.2) (place k)).run t.1 =
        (onNodeAt (outsideOf t.2) (place k) (.prologue w.cluster.name)).run u := by
  obtain ⟨cell, hcell, -, hcluster, hfd⟩ := hfits.cell hk
  rw [hconn] at hfd
  have hdial : (outsideOf t.2).dial t.1.turn t.1.log = .ok (unusedFd t.1.log) := by simp [outsideOf, hfits.answer]
  have hopen := nodeOpen_opened hcell hfd hdial
  let cell' : Cell NodePtr NetNode := { cell with item := { cell.item with fd := some (unusedFd t.1.log) } }
  let ready : Network := { t.1 with turn := t.1.turn + 1 }.withFd (place k) cell (some (unusedFd t.1.log))
    (.opened (place k) (unusedFd t.1.log) :: t.1.log)
  have hholds : ready.Holds c place (w.dialed k peer).cluster := by
    refine hfits.holds.setFd (hfits.nodes ▸ hk) hcell rfl rfl rfl rfl rfl (fun j => ?_) ?_ fun j hj => ?_
    · by_cases hj : j = k <;> simp [World.dialed, Cluster.setNode, hj]
    · simp [World.dialed, Cluster.setNode]
    · simp [World.dialed, Cluster.setNode, hj]
  have hcell' : ready.cells (place k) = some cell' := Function.update_self ..
  have hname : (clusterAt c).run ready = some (_, ready) := run_clusterAt hholds.cluster
  refine ⟨ready, hfits.later hholds rfl rfl, ?_⟩
  have hintroduce : (nodeIntroduce (outsideOf t.2) (place k)).run ready =
      (onNodeAt (outsideOf t.2) (place k) (.prologue w.cluster.name)).run ready := by
    rw [nodeIntroduce, bind_run, run_nodeAt hcell', Option.bind_some]
    have hcluster' : cell'.item.cluster = some c := hcluster
    simp only [hcluster']
    rw [bind_run, hname, Option.bind_some]
    rfl
  rw [nodeConnect, bind_run, hopen, Option.bind_some]
  exact hintroduce

/-- An attempt to connect asks for a descriptor, and sends the prologue to the one that it gets. -/
theorem foretells_linked_connect (hk : k ∈ ks) :
    Foretells (Network.Fits c place ks) (clusterNodeConnect alloc dial k)
      (told fun outside => nodeConnect outside (place k)) := by
  intro w rc w' hrun asked
  cases hconn : (w.cluster.node k).conn with
  | some conn =>
      simp only [clusterNodeConnect, StateT.run, hconn] at hrun
      obtain ⟨rfl, rfl⟩ := Prod.mk.inj (Option.some.inj hrun)
      refine ⟨asked, fun answers => ⟨answers, fun t hfits => ⟨t, beside_run.mpr ⟨?_, rfl⟩, hfits⟩⟩⟩
      obtain ⟨cell, hcell, -, -, hfd⟩ := hfits.cell hk
      have hopen : cell.item.fd.isSome = true := hfd.trans (by rw [hconn]; rfl)
      exact bind_run_eq_some.mpr ⟨_, t.1, nodeOpen_open hcell hopen, rfl⟩
  | none =>
      cases hdial : dial w.dials (w.cluster.node k).address with
      | error failure =>
          rw [clusterNodeConnect_failed hconn hdial] at hrun
          obtain ⟨rfl, rfl⟩ := Prod.mk.inj (Option.some.inj hrun)
          refine ⟨asked + 1, fun answers =>
            ⟨Function.update answers asked (.dialed (some failure)), fun t hfits => ?_⟩⟩
          obtain ⟨u, hu, hfits'⟩ := hfits.refused hk hconn
          exact ⟨(u, t.2), beside_run.mpr ⟨hu, rfl⟩, hfits'⟩
      | ok peer =>
          rw [clusterNodeConnect_dialed hconn hdial] at hrun
          have hprologue : Foretells (Network.Fits c place ks)
              (onNode k (sendCommand alloc (prologueCommand w.cluster.name)))
              (told fun outside => onNodeAt outside (place k) (.prologue w.cluster.name)) :=
            foretells_linked_onNode hk (.prologue w.cluster.name) (run_prologue alloc w.cluster.name)
          obtain ⟨asked', hback⟩ := hprologue _ _ _ hrun (asked + 1)
          refine ⟨asked', fun answers' => ?_⟩
          obtain ⟨answers, hforth⟩ := hback answers'
          refine ⟨Function.update answers asked (.dialed none), fun t hfits => ?_⟩
          obtain ⟨u, hready, hu⟩ := hfits.opened hk hconn peer
          obtain ⟨t', hrun', hfits'⟩ := hforth (u, t.2) hready
          obtain ⟨hsent, hsame⟩ := beside_run.mp hrun'
          exact ⟨t', beside_run.mpr ⟨hu.trans hsent, hsame⟩, hfits'⟩

end Connections

/-! ### The search -/

/-- The part of the loop over the nodes that is about one node. -/
def askWorld (alloc : Nat → Bool) (dial : Dialer) (k : NodeId) (master : Data) : ClientM (Bool × Data) := do
  let rc ← clusterNodeConnect alloc dial k
  if rc = 0 then do
    let out ← onNode k (clusterNodeWhoMaster alloc master)
    pure (out.1 = 0 ∧ out.2 ≠ .null, out.2)
  else pure (false, master)

section Search

variable {alloc : Nat → Bool} {dial : Dialer} {c : ClusterPtr} {place : NodeId → NodePtr} {ks : List NodeId}
  {asked : Nat} {answers : Nat → OutsideAnswer} {w : World} {k : NodeId} {t : Network × (Nat → OutsideAnswer)}
  {α : Type}

theorem findNode_cons (ks : List NodeId) (master : Data) :
    findNode alloc dial (k :: ks) master = (do
      let out ← askWorld alloc dial k master
      if out.1 then pure (some k, out.2) else findNode alloc dial ks out.2) := by
  rw [findNode, askWorld, bind_assoc]
  refine congrArg _ (funext fun rc => ?_)
  by_cases hrc : rc = 0
  · rw [if_pos hrc, if_pos hrc, bind_assoc]
    refine congrArg _ (funext fun out => ?_)
    simp only [pure_bind, decide_eq_true_eq]
  · rw [if_neg hrc, if_neg hrc, pure_bind, if_neg Bool.false_ne_true]

/-- What the world shows is seen in memory; what follows depends on it. -/
theorem foretells_seen {γ γ' δ : Type} (shown : World → γ) (ψ : γ → γ') {look : NetM δ} (φ : δ → γ')
    (hlook : ∀ {asked answers w t}, Network.Fits c place ks asked answers w t →
      ∃ d, look.run t.1 = some (d, t.1) ∧ φ d = ψ (shown w))
    (n : γ → ClientM α) (m : γ' → Outside → NetM α)
    (h : ∀ w, w.cluster.nodes = ks → (∀ k, w.cluster.master = some k → k ∈ ks) →
      Foretells (Network.Fits c place ks) (n (shown w)) (told (m (ψ (shown w))))) :
    Foretells (Network.Fits c place ks) (fun w => (n (shown w)).run w) (told fun outside => do
      let d ← look
      m (φ d) outside) := by
  intro w a w' hrun asked
  by_cases hnodes : w.cluster.nodes = ks ∧ ∀ k, w.cluster.master = some k → k ∈ ks
  · obtain ⟨asked', hback⟩ := h w hnodes.1 hnodes.2 w a w' hrun asked
    refine ⟨asked', fun answers' => ?_⟩
    obtain ⟨answers, hforth⟩ := hback answers'
    refine ⟨answers, fun t hfits => ?_⟩
    obtain ⟨d, hd, hsame⟩ := hlook hfits
    obtain ⟨t', hrun', hfits'⟩ := hforth t hfits
    obtain ⟨hm, hsame'⟩ := beside_run.mp hrun'
    exact ⟨t', beside_run.mpr ⟨bind_run_eq_some.mpr ⟨d, t.1, hd, hsame ▸ hm⟩, hsame'⟩, hfits'⟩
  · refine ⟨asked, fun answers => ⟨answers, fun t hfits => absurd ⟨hfits.nodes, fun k hk => ?_⟩ hnodes⟩⟩
    exact hfits.nodes ▸ hfits.holds.master k hk

/-- The name of a node is looked at. -/
theorem foretells_named (hk : k ∈ ks) (n : CString → ClientM α) (m : CString → Outside → NetM α)
    (h : ∀ name, Foretells (Network.Fits c place ks) (n name) (told (m name))) :
    Foretells (Network.Fits c place ks) (fun w => (n (w.cluster.node k).name).run w) (told fun outside => do
      let cell ← nodeAt (place k)
      m cell.item.name outside) := by
  refine foretells_seen (fun w => (w.cluster.node k).name) id (fun cell : Cell NodePtr NetNode => cell.item.name)
    (fun hfits => ?_) n m fun w _ _ => h _
  obtain ⟨cell, hcell, hname, -⟩ := hfits.cell hk
  exact ⟨cell, run_nodeAt hcell, hname⟩

theorem foretells_linked_ask (hk : k ∈ ks) (master : Data) :
    Foretells (Network.Fits c place ks) (askWorld alloc dial k master)
      (told fun outside => askNode outside (place k) master) := by
  simp only [askWorld, askNode, told, beside_bind]
  refine (foretells_linked_connect hk).bind fun rc => ?_
  by_cases hrc : rc = 0
  · simp only [if_pos hrc, beside_bind]
    exact (foretells_linked_onNode hk (.whoMaster master) (run_whoMaster alloc master)).bind fun out => .pure _
  · simp only [if_neg hrc]
    exact .pure _

/-- The loop over the nodes, from one of them on. -/
theorem foretells_linked_find {rounds : Nat} {ks' : List NodeId} (hsuffix : ks' <:+ ks) (hrounds : ks'.length < rounds)
    (master : Data) :
    Foretells (Network.Fits c place ks) (findNode alloc dial ks' master >>= fun out => pure (out.1.map place, out.2))
      (told fun outside => whileNode (askNode outside) rounds (ks'.head?.map place) master) := by
  induction ks' generalizing rounds master with
  | nil =>
      obtain ⟨rounds, rfl⟩ : ∃ r, rounds = r + 1 := ⟨rounds - 1, by simp at hrounds; omega⟩
      exact .pure _
  | cons k ks' ih =>
      obtain ⟨rounds, rfl⟩ : ∃ r, rounds = r + 1 := ⟨rounds - 1, by simp at hrounds; omega⟩
      have hk : k ∈ ks := hsuffix.subset List.mem_cons_self
      rw [findNode_cons, bind_assoc]
      simp only [List.head?_cons, Option.map_some, whileNode, told, beside_bind]
      refine (foretells_linked_ask hk master).bind fun out => ?_
      by_cases hout : out.1 = true
      · simp only [if_pos hout, pure_bind]
        exact .pure _
      · simp only [if_neg hout]
        refine foretells_seen (fun _ => ks'.head?.map place) id id (fun hfits => ?_)
          (fun _ => findNode alloc dial ks' out.2 >>= fun found => pure (found.1.map place, found.2))
          (fun next outside => whileNode (askNode outside) rounds next out.2)
          fun _ _ _ => ih ((List.suffix_cons k ks').trans hsuffix) (by simpa using hrounds) out.2
        obtain ⟨cell, hcell, -⟩ := hfits.cell hk
        refine ⟨_, bind_run_eq_some.mpr ⟨cell, _, run_nodeAt hcell, rfl⟩, ?_⟩
        exact hfits.holds.next (hfits.nodes ▸ hsuffix) hcell

/-- A node that the loop has found is one of those that it was given. -/
theorem findNode_mem {ks : List NodeId} {master : Data} {w w' : World} {out : Option NodeId × Data}
    (hrun : (findNode alloc dial ks master).run w = some (out, w')) : ∀ k, out.1 = some k → k ∈ ks := by
  intro k hout
  induction ks generalizing master w with
  | nil =>
      obtain ⟨rfl, -⟩ := Prod.mk.inj (Option.some.inj hrun)
      cases hout
  | cons j ks ih =>
      rw [findNode_cons] at hrun
      obtain ⟨found, w₁, -, hrest⟩ := bind_run_eq_some.mp hrun
      by_cases hfound : found.1 = true
      · rw [if_pos hfound] at hrest
        obtain ⟨rfl, -⟩ := Prod.mk.inj (Option.some.inj hrest)
        exact Option.some.inj hout ▸ List.mem_cons_self
      · rw [if_neg hfound] at hrest
        exact List.mem_cons_of_mem _ (ih hrest)

/-- The loop that compares names finds the first node of that name. -/
theorem Network.Fits.named (hfits : Network.Fits c place ks asked answers w t) (name : CString) {rounds : Nat}
    {ks' : List NodeId} (hsuffix : ks' <:+ ks) (hrounds : ks'.length < rounds) :
    (whileNode (isNamed name) rounds (ks'.head?.map place) ()).run t.1 =
      some (((ks'.find? fun j => (w.cluster.node j).name = name).map place, ()), t.1) := by
  induction ks' generalizing rounds with
  | nil =>
      obtain ⟨rounds, rfl⟩ : ∃ r, rounds = r + 1 := ⟨rounds - 1, by simp at hrounds; omega⟩
      rfl
  | cons k ks' ih =>
      obtain ⟨rounds, rfl⟩ : ∃ r, rounds = r + 1 := ⟨rounds - 1, by simp at hrounds; omega⟩
      obtain ⟨cell, hcell, hname, -⟩ := hfits.cell (hsuffix.subset List.mem_cons_self)
      have hvisit : (isNamed name (place k) ()).run t.1 =
          some ((decide ((w.cluster.node k).name = name), ()), t.1) := by
        rw [← hname]
        exact bind_run_eq_some.mpr ⟨cell, t.1, run_nodeAt hcell, rfl⟩
      simp only [List.head?_cons, Option.map_some, whileNode]
      refine bind_run_eq_some.mpr ⟨_, t.1, hvisit, ?_⟩
      by_cases heq : (w.cluster.node k).name = name
      · simp only [List.find?_cons, decide_eq_true heq]
        rfl
      · simp only [List.find?_cons, decide_eq_false heq]
        have hnext : (nodeGetNext (place k)).run t.1 = some (ks'.head?.map place, t.1) := by
          rw [← hfits.holds.next (hfits.nodes ▸ hsuffix) hcell]
          exact bind_run_eq_some.mpr ⟨cell, t.1, run_nodeAt hcell, rfl⟩
        exact bind_run_eq_some.mpr
          ⟨_, t.1, hnext, ih ((List.suffix_cons k ks').trans hsuffix) (by simpa using hrounds)⟩

theorem Network.Fits.clusterAt (hfits : Network.Fits c place ks asked answers w t) :
    (clusterAt c).run t.1 =
      some (⟨w.cluster.name, w.cluster.nodes.head?.map place, w.cluster.master.map place⟩, t.1) := by
  simp [Crakoon.clusterAt, StateT.run, hfits.holds.cluster]

/-- What is not seen in memory may come first. -/
theorem foretells_unseen {silent : ClientM Unit} {n : ClientM α} {m : Outside → NetM α}
    (hsilent : ∀ w w', silent.run w = some ((), w') → w'.cluster.nodes = w.cluster.nodes ∧
      ∀ u : Network, u.Holds c place w.cluster → u.Holds c place w'.cluster)
    (h : Foretells (Network.Fits c place ks) n (told m)) :
    Foretells (Network.Fits c place ks) (silent >>= fun _ => n) (told m) := by
  have hpure : Foretells (Network.Fits c place ks) silent (told fun _ => pure ()) := by
    intro w _ w' hrun asked
    obtain ⟨hnodes, hholds⟩ := hsilent w w' hrun
    refine ⟨asked, fun answers => ⟨answers, fun t hfits => ⟨t, rfl, ?_⟩⟩⟩
    exact { hfits with holds := hholds _ hfits.holds, nodes := hnodes.trans hfits.nodes }
  have hboth := hpure.bind fun _ => h
  rwa [told, ← beside_bind] at hboth

theorem foretells_linked_free (d : Data) {n : ClientM α} {m : Outside → NetM α}
    (h : Foretells (Network.Fits c place ks) n (told m)) :
    Foretells (Network.Fits c place ks) (freeString d >>= fun _ => n) (told m) := by
  refine foretells_unseen (fun w w' hrun => ?_) h
  obtain ⟨-, rfl⟩ := Prod.mk.inj (Option.some.inj hrun)
  exact ⟨rfl, fun u hholds => hholds⟩

theorem foretells_linked_setMaster (hk : k ∈ ks) :
    Foretells (Network.Fits c place ks) (setMaster k) (told fun _ => clusterSetMaster c (place k)) := by
  intro w a w' hrun asked
  obtain ⟨rfl, rfl⟩ := Prod.mk.inj (Option.some.inj hrun)
  refine ⟨asked, fun answers => ⟨answers, fun t hfits => ?_⟩⟩
  let u : Network :=
    { t.1 with
      clusters := Function.update t.1.clusters c
        (some ⟨w.cluster.name, w.cluster.nodes.head?.map place, some (place k)⟩) }
  refine ⟨(u, t.2), beside_run.mpr ⟨bind_run_eq_some.mpr ⟨_, t.1, hfits.clusterAt, rfl⟩, rfl⟩, { hfits with
    holds := { hfits.holds with cluster := Function.update_self .., master := ?_ } }⟩
  rintro j ⟨rfl⟩
  exact hfits.nodes ▸ hk

theorem foretells_linked_validate (hk : k ∈ ks) (master : Data) :
    Foretells (Network.Fits c place ks) (validateMaster alloc dial k master)
      (told fun outside => confirmMaster outside c (place k) master) := by
  simp only [validateMaster, confirmMaster, told, beside_bind]
  refine (foretells_linked_connect hk).bind fun rc => ?_
  by_cases hrc : rc ≠ 0
  · simp only [if_pos hrc]
    exact .pure rc
  · simp only [if_neg hrc, beside_bind]
    refine (foretells_linked_onNode hk (.whoMaster master) (run_whoMaster alloc master)).bind fun out => ?_
    by_cases hout : out.1 ≠ 0
    · simp only [if_pos hout]
      exact .pure out.1
    · simp only [if_neg hout]
      refine foretells_named hk
        (fun name =>
          if out.2 = .null ∨ name ≠ out.2.cString then do
            freeString out.2
            pure ArakoonReturnCode.clientMasterNotFound.rc
          else do
            setMaster k
            freeString out.2
            pure ArakoonReturnCode.success.rc)
        (fun name _ =>
          if out.2 = .null ∨ name ≠ out.2.cString then pure ArakoonReturnCode.clientMasterNotFound.rc
          else do
            clusterSetMaster c (place k)
            pure ArakoonReturnCode.success.rc) fun name => ?_
      by_cases hname : out.2 = .null ∨ name ≠ out.2.cString
      · simp only [if_pos hname]
        exact foretells_linked_free _ (.pure _)
      · simp only [if_neg hname, told, beside_bind]
        exact (foretells_linked_setMaster hk).bind fun _ => foretells_linked_free (m := fun _ => pure _) _ (.pure _)

/-- What the search in memory does with the node that it has found. -/
def settleLinked (rounds : Nat) (outside : Outside) (c : ClusterPtr) (p : NodePtr) (master : Data) : NetM ArakoonRc := do
  let cell ← nodeAt p
  if cell.item.name = master.cString then do
    clusterSetMaster c p
    pure ArakoonReturnCode.success.rc
  else do
    let cluster ← clusterAt c
    let named ← whileNode (isNamed master.cString) rounds cluster.nodes ()
    match named.1 with
    | none => pure ArakoonReturnCode.clientUnknownNode.rc
    | some q => confirmMaster outside c q master

/-- The world is looked at once more where the names differ. -/
theorem settleMaster_eq (k : NodeId) (master : Data) :
    settleMaster alloc dial k master = fun w =>
      ((if (w.cluster.node k).name = master.cString then do
          setMaster k
          freeString master
          pure ArakoonReturnCode.success.rc
        else fun w => ((do
          freeString master
          match w.cluster.nodes.find? fun j => (w.cluster.node j).name = master.cString with
          | none => pure ArakoonReturnCode.clientUnknownNode.rc
          | some j => validateMaster alloc dial j master) : ClientM ArakoonRc).run w) : ClientM ArakoonRc).run w := by
  funext w
  change ((if (w.cluster.node k).name = master.cString then _ else _) : ClientM ArakoonRc).run w = _
  by_cases hname : (w.cluster.node k).name = master.cString
  · simp only [if_pos hname]
  · simp only [if_neg hname]
    rfl

/-- The node of a name is looked for in the list. -/
theorem foretells_linked_named {rounds : Nat} (hrounds : ks.length < rounds) (name : CString)
    (n : Option NodeId → ClientM α) (m : Option NodePtr → Outside → NetM α)
    (h : ∀ found, (∀ j, found = some j → j ∈ ks) →
      Foretells (Network.Fits c place ks) (n found) (told (m (found.map place)))) :
    Foretells (Network.Fits c place ks)
      (fun w => (n (w.cluster.nodes.find? fun j => (w.cluster.node j).name = name)).run w) (told fun outside => do
        let cluster ← clusterAt c
        let named ← whileNode (isNamed name) rounds cluster.nodes ()
        m named.1 outside) := by
  refine foretells_seen (fun w => w.cluster.nodes) (fun ks => ks.head?.map place)
    (fun cluster : NetCluster => cluster.nodes) (fun hfits => ⟨_, hfits.clusterAt, rfl⟩)
    (fun _ => fun w => (n (w.cluster.nodes.find? fun j => (w.cluster.node j).name = name)).run w)
    (fun head outside => do
      let named ← whileNode (isNamed name) rounds head ()
      m named.1 outside) fun w hnodes _ => ?_
  rw [hnodes]
  refine foretells_seen (fun w => w.cluster.nodes.find? fun j => (w.cluster.node j).name = name) (Option.map place)
    Prod.fst (fun hfits => ⟨_, hfits.named name (List.suffix_refl ks) hrounds, ?_⟩) n m
    fun w hnodes _ => h _ fun j hj => ?_
  · rw [hfits.nodes]
  · exact hnodes ▸ List.mem_of_find?_eq_some hj

theorem foretells_linked_settle {rounds : Nat} (hrounds : ks.length < rounds) (hk : k ∈ ks) (master : Data) :
    Foretells (Network.Fits c place ks) (settleMaster alloc dial k master)
      (told fun outside => settleLinked rounds outside c (place k) master) := by
  rw [settleMaster_eq]
  refine foretells_named hk
    (fun name =>
      if name = master.cString then do
        setMaster k
        freeString master
        pure ArakoonReturnCode.success.rc
      else fun w => ((do
        freeString master
        match w.cluster.nodes.find? fun j => (w.cluster.node j).name = master.cString with
        | none => pure ArakoonReturnCode.clientUnknownNode.rc
        | some j => validateMaster alloc dial j master) : ClientM ArakoonRc).run w)
    (fun name outside =>
      if name = master.cString then do
        clusterSetMaster c (place k)
        pure ArakoonReturnCode.success.rc
      else do
        let cluster ← clusterAt c
        let named ← whileNode (isNamed master.cString) rounds cluster.nodes ()
        match named.1 with
        | none => pure ArakoonReturnCode.clientUnknownNode.rc
        | some q => confirmMaster outside c q master) fun name => ?_
  by_cases hname : name = master.cString
  · simp only [if_pos hname, told, beside_bind]
    exact (foretells_linked_setMaster hk).bind fun _ => foretells_linked_free (m := fun _ => pure _) _ (.pure _)
  · simp only [if_neg hname]
    refine foretells_linked_named hrounds master.cString
      (fun found => do
        freeString master
        match found with
        | none => pure ArakoonReturnCode.clientUnknownNode.rc
        | some j => validateMaster alloc dial j master)
      (fun found outside => match found with
        | none => pure ArakoonReturnCode.clientUnknownNode.rc
        | some q => confirmMaster outside c q master) fun found hfound => foretells_linked_free _ ?_
    cases found with
    | none => exact .pure _
    | some j => exact foretells_linked_validate (hfound j rfl) master

/-- The search for the master is the search in memory. -/
theorem foretells_linked_connectMaster {rounds : Nat} (hrounds : ks.length < rounds) :
    Foretells (Network.Fits c place ks) (arakoonClusterConnectMaster alloc dial)
      (told fun outside => clusterConnectMaster rounds outside c) := by
  refine foretells_seen (fun w => w.cluster.nodes) (fun ks => ks.head?.map place)
    (fun cluster : NetCluster => cluster.nodes) (fun hfits => ⟨_, hfits.clusterAt, rfl⟩)
    (fun nodes => do
      let out ← findNode alloc dial nodes .null
      match out.1 with
      | none => pure ArakoonReturnCode.clientNetworkError.rc
      | some k => settleMaster alloc dial k out.2)
    (fun head outside => do
      let found ← whileNode (askNode outside) rounds head .null
      match found.1 with
      | none => pure ArakoonReturnCode.clientNetworkError.rc
      | some p => settleLinked rounds outside c p found.2) fun w hnodes _ => ?_
  rw [hnodes]
  simp only [told, beside_bind]
  refine Foretells.bind_map (fun out => (out.1.map place, out.2))
    (foretells_linked_find (List.suffix_refl ks) hrounds .null) (fun _ _ _ hrun => findNode_mem hrun) fun out hout => ?_
  obtain ⟨node, master⟩ := out
  cases node with
  | none => exact .pure _
  | some k => exact foretells_linked_settle hrounds (hout k rfl) master

end Search

/-! ### Calls -/

section Calls

variable {alloc : Nat → Bool} {dial : Dialer} {c : ClusterPtr} {place : NodeId → NodePtr} {ks : List NodeId}
  {rounds : Nat} {α : Type}

theorem onNode_bind_pure {β : Type} (k : NodeId) (m : SessionM α) (f : α → β) :
    onNode k (m >>= fun a => pure (f a)) = onNode k m >>= fun a => pure (f a) := by
  funext w
  change ((m >>= fun a => pure (f a)).run (w.session k)).map _ = ((m.run (w.session k)).map _).bind _
  rw [bind_run]
  cases m.run (w.session k) with
  | none => rfl
  | some out => rfl

/-- The code of an operation on a node that is connected or is not. -/
def codeOn (k : NodeId) (body : SessionM (ArakoonRc × α)) (connected : Bool) : ClientM ArakoonRc :=
  if connected then onNode k (body >>= fun out => pure out.1)
  else pure ArakoonReturnCode.clientNotConnected.rc

/-- The code of an operation on the master, if there is one. -/
def codeOnMaster (body : SessionM (ArakoonRc × α)) : Option NodeId → ClientM ArakoonRc
  | none => pure ArakoonReturnCode.clientNotConnected.rc
  | some k => fun w => (codeOn k body (w.cluster.node k).conn.isSome).run w

/-- An operation on the master of the world, if that is connected: its code. -/
theorem withMaster_code (missing : α) (body : SessionM (ArakoonRc × α)) :
    (withMaster missing body >>= fun out => pure out.1) = (do
      clusterResetLastError
      fun w => (codeOnMaster body w.cluster.master).run w) := by
  rw [withMaster, bind_assoc]
  refine congrArg _ (funext fun _ => funext fun w => ?_)
  change Option.bind (match w.cluster.getMaster with
    | none => some ((ArakoonReturnCode.clientNotConnected.rc, missing), w)
    | some k => (onNode k body).run w) (fun out => some (out.1.1, out.2)) = _
  rw [Cluster.getMaster]
  cases w.cluster.master with
  | none => rfl
  | some k =>
      change _ = (codeOn k body (w.cluster.node k).conn.isSome).run w
      rw [codeOn, onNode_bind_pure]
      by_cases hopen : (w.cluster.node k).conn.isSome = true
      · simp only [if_pos hopen]
        rfl
      · simp only [if_neg hopen]
        rfl

/-- An operation on the master of the world is one on the master in memory. -/
theorem foretells_linked_operation (missing : α) {body : SessionM (ArakoonRc × α)}
    (script : NodeScript (ArakoonRc × α)) (hscript : script.run (NodeCommand.perform alloc) = body) :
    Foretells (Network.Fits c place ks) (withMaster missing body >>= fun out => pure out.1)
      (told fun outside => clusterOperation outside c (script >>= fun out => pure out.1)) := by
  have hcode : (script >>= fun out => pure out.1 : NodeScript ArakoonRc).run (NodeCommand.perform alloc) =
      body >>= fun out => pure out.1 := by
    rw [Commands.run_do, hscript]
    rfl
  rw [withMaster_code]
  refine foretells_unseen (fun w w' hrun => ?_) ?_
  · obtain ⟨-, rfl⟩ := Prod.mk.inj (Option.some.inj hrun)
    exact ⟨rfl, fun u hholds => { hholds with }⟩
  · refine foretells_seen (fun w => w.cluster.master) (Option.map place) (fun cluster : NetCluster => cluster.master)
      (fun hfits => ⟨_, hfits.clusterAt, rfl⟩) (codeOnMaster body)
      (fun master outside => match master with
        | none => pure ArakoonReturnCode.clientNotConnected.rc
        | some p => do
            let cell ← nodeAt p
            if cell.item.fd.isSome then onNodeAt outside p (script >>= fun out => pure out.1)
            else pure ArakoonReturnCode.clientNotConnected.rc) fun w _ hmaster => ?_
    cases hfound : w.cluster.master with
    | none => exact .pure _
    | some k =>
        refine foretells_seen (fun w => (w.cluster.node k).conn.isSome) id
          (fun cell : Cell NodePtr NetNode => cell.item.fd.isSome) (fun hfits => ?_)
          (codeOn k body)
          (fun isOpen outside => if isOpen then onNodeAt outside (place k) (script >>= fun out => pure out.1)
            else pure ArakoonReturnCode.clientNotConnected.rc) fun w₁ _ _ => ?_
        · obtain ⟨cell, hcell, -, -, hfd⟩ := hfits.cell (hmaster k hfound)
          exact ⟨cell, run_nodeAt hcell, hfd⟩
        · by_cases hopen : (w₁.cluster.node k).conn.isSome = true
          · simp only [id, codeOn, if_pos hopen]
            exact foretells_linked_onNode (hmaster k hfound) _ hcode
          · simp only [id, codeOn, if_neg hopen]
            exact .pure _

/-- The code that a call returns. -/
def WorldResult.returnCode : WorldResult → ArakoonRc
  | .returned out => out.2.1
  | .named out => out.1
  | .code rc => rc

/-- The call of a cluster in memory. -/
def HostCall.linked (c : ClusterPtr) : HostCall alloc → NetCall
  | .operation call => .operation c (call.script >>= fun out => pure out.1)
  | .whoMaster _ master => .operation c (NodeScript.whoMaster master >>= fun out => pure out.1)
  | .connectMaster _ => .connectMaster c

theorem foretells_linked_call (hrounds : ks.length < rounds) (call : HostCall alloc) :
    Foretells (Network.Fits c place ks) (call.call.program alloc dial >>= fun result => pure result.returnCode)
      (told fun outside => (call.linked c).program outside rounds) := by
  cases call with
  | operation call =>
      have hboth : Foretells (Network.Fits c place ks) _ (told fun outside =>
          clusterOperation outside c (call.script >>= fun out => pure out.1)) :=
        foretells_linked_operation (call.call.1.notConnected call.call.2) call.script call.performs
      rw [← Operation.run_eq] at hboth
      simp only [HostCall.call, WorldCall.program, bind_assoc, pure_bind]
      exact hboth
  | whoMaster timeout master =>
      have hboth : Foretells (Network.Fits c place ks) _ (told fun outside =>
          clusterOperation outside c (NodeScript.whoMaster master >>= fun out => pure out.1)) :=
        foretells_linked_operation master (.whoMaster master) (run_whoMaster alloc master)
      simp only [HostCall.call, WorldCall.program, bind_assoc, pure_bind, arakoonWhoMaster]
      exact hboth
  | connectMaster timeout =>
      have hboth : Foretells (Network.Fits c place ks) (arakoonClusterConnectMaster alloc dial)
          (told fun outside => clusterConnectMaster rounds outside c) := foretells_linked_connectMaster hrounds
      simp only [HostCall.call, WorldCall.program, bind_assoc, pure_bind, WorldResult.returnCode, bind_pure]
      exact hboth

/-- A new cluster in memory. -/
theorem holds_clusterNew (outside : Outside) (u : Network) (version : ArakoonProtocolVersion) (name : CString) :
    ∃ u', netStep outside rounds (.clusterNew c name) u = .ok (0, u') ∧
      u'.Holds c place (arakoonClusterNew version name) := by
  refine ⟨_, rfl, Function.update_self .., .nil _, fun k hk => ?_, fun k hk => ?_⟩
  · cases hk
  · cases hk

/-- A node that belongs to no cluster yet comes to stand in front of the others. It is not at the place of one of them. -/
theorem Network.Holds.added {u u' : Network} {b : Cluster} (hholds : u.Holds c place b) (hnumbered : b.Numbered)
    {cell : Cell NodePtr NetNode} {p : NodePtr} (hcell : u.cells p = some cell) (hcluster : cell.item.cluster = none)
    {node : ClusterNode} (hname : cell.item.name = node.name) (hfd : cell.item.fd.isSome = node.conn.isSome)
    (hcells : u'.cells = u.cells.put p ⟨b.nodes.head?.map place, { cell.item with cluster := some c }⟩)
    (hclusters : u'.clusters = Function.update u.clusters c (some ⟨b.name, some p, b.master.map place⟩)) :
    u'.Holds c (Function.update place b.nodes.length p) (arakoonClusterAddNode b node) := by
  have hold : ∀ k ∈ b.nodes, k ≠ b.nodes.length := by
    intro k hk
    rw [hnumbered.nodes, List.mem_reverse, List.mem_range] at hk
    exact Nat.ne_of_lt hk
  have hfree : ∀ k ∈ b.nodes, place k ≠ p := by
    rintro k hk rfl
    obtain ⟨cell', hcell', -, hcluster', -⟩ := hholds.node k hk
    obtain rfl := Option.some.inj (hcell.symm.trans hcell')
    rw [hcluster] at hcluster'
    cases hcluster'
  have hplaces : ∀ k ∈ b.nodes, Function.update place b.nodes.length p k = place k := fun k hk =>
    Function.update_of_ne (hold k hk) ..
  have hothers : ∀ k ∈ b.nodes, u'.cells (place k) = u.cells (place k) := by
    intro k hk
    rw [hcells]
    exact Function.update_of_ne (hfree k hk) ..
  have hnew : u'.cells p = some ⟨b.nodes.head?.map place, { cell.item with cluster := some c }⟩ := by
    rw [hcells]
    exact Function.update_self ..
  refine ⟨?_, ?_, fun k hk => ?_, fun k hk => ?_⟩
  · have hmaster : b.master.map (Function.update place b.nodes.length p) = b.master.map place :=
      Option.map_congr fun k hk => hplaces k (hholds.master k hk)
    simp [hclusters, arakoonClusterAddNode, Cluster.setNode, hmaster]
  · have hmap : b.nodes.map (Function.update place b.nodes.length p) = b.nodes.map place :=
      List.map_congr_left hplaces
    simp only [arakoonClusterAddNode, List.head?_cons, Option.map_some, List.map_cons, Function.update_self, hmap]
    refine .cons hnew (hholds.nodes.congr fun q hq => ?_)
    obtain ⟨k, hk, rfl⟩ := List.mem_map.mp hq
    rw [hothers k hk]
  · rcases List.mem_cons.mp hk with rfl | hk
    · refine ⟨_, by rw [Function.update_self]; exact hnew, ?_, rfl, ?_⟩
      · simpa [arakoonClusterAddNode, Cluster.setNode] using hname
      · simpa [arakoonClusterAddNode, Cluster.setNode] using hfd
    · rw [hplaces k hk, hothers k hk]
      have hsame : (arakoonClusterAddNode b node).node k = b.node k := if_neg (hold k hk)
      rw [hsame]
      exact hholds.node k hk
  · exact List.mem_cons_of_mem _ (hholds.master k hk)

/-- `arakoon_cluster_add_node` in memory adds the node that it adds to the cluster by itself. -/
theorem holds_addNode {u : Network} {b : Cluster} (hholds : u.Holds c place b) (hnumbered : b.Numbered)
    {cell : Cell NodePtr NetNode} {p : NodePtr} (hcell : u.cells p = some cell) (hcluster : cell.item.cluster = none)
    {node : ClusterNode} (hname : cell.item.name = node.name) (hfd : cell.item.fd.isSome = node.conn.isSome)
    (outside : Outside) :
    ∃ u', netStep outside rounds (.addNode c p) u = .ok (0, u') ∧
      u'.Holds c (Function.update place b.nodes.length p) (arakoonClusterAddNode b node) := by
  have hstep : ∀ {u'}, (clusterAddNodeAt c p).run u = some (0, u') →
      netStep outside rounds (.addNode c p) u = .ok (0, u') := by
    intro u' hrun
    rw [netStep, NetCall.program, hrun]
  exact ⟨_, hstep (run_addNode hholds.cluster hcell hcluster),
    hholds.added hnumbered hcell hcluster hname hfd rfl rfl⟩

/-- Whatever a run of searches, requests for the master and operations gives on a cluster that is in memory, there is an
outside with which the same run in memory returns the same codes, and in the end the memory holds the cluster again. -/
theorem cluster_in_memory {start w : World} {u : Network} (hholds : u.Holds c place start.cluster)
    (hrounds : start.cluster.nodes.length < rounds) {history : List (HostCall alloc × WorldResult)}
    (hrun : Run (fun call : HostCall alloc => worldStep alloc dial call.call) (fun _ _ => True) start history w) :
    ∃ outside : Outside, outside.Fresh ∧ ∃ u',
      Run (netStep outside rounds) NetCall.Allowed u
        (history.map (Prod.map (HostCall.linked c) WorldResult.returnCode)) u' ∧ u'.Holds c place w.cluster := by
  have hstep : ∀ (call : HostCall alloc) w result w', worldStep alloc dial call.call w = .ok (result, w') →
      ∀ asked, ∃ asked', ∀ answers', ∃ answers, ∀ t,
        Network.Fits c place start.cluster.nodes asked answers w t → ∃ t',
          besideStep (fun answers => netStep (outsideOf answers) rounds) (call.linked c) t = .ok (result.returnCode, t') ∧
            Network.Fits c place start.cluster.nodes asked' answers' w' t' := by
    intro call w result w' hok asked
    have hworld : (call.call.program alloc dial).run w = some (result, w') := by
      unfold worldStep at hok
      split at hok
      · cases hok
      · rename_i out hout
        rw [hout, Except.ok.inj hok]
    have hcall : Foretells (Network.Fits c place start.cluster.nodes)
        (call.call.program alloc dial >>= fun result => pure result.returnCode)
        (told fun outside => (call.linked c).program outside rounds) := foretells_linked_call hrounds call
    obtain ⟨asked', hback⟩ :=
      hcall w result.returnCode w' (bind_run_eq_some.mpr ⟨result, w', hworld, rfl⟩) asked
    refine ⟨asked', fun answers' => ?_⟩
    obtain ⟨answers, hforth⟩ := hback answers'
    refine ⟨answers, fun t hfits => ?_⟩
    obtain ⟨t', hrun', hfits'⟩ := hforth t hfits
    obtain ⟨hmemory, hsame⟩ := beside_run.mp hrun'
    exact ⟨t', besideStep_ok.mpr ⟨by rw [netStep, hmemory], hsame⟩, hfits'⟩
  have hallowed : ∀ (call : HostCall alloc) (t : Network × (Nat → OutsideAnswer)), (call.linked c).Allowed t.1 := by
    intro call t
    cases call <;> trivial
  obtain ⟨asked', hback⟩ := Run.foretold (HostCall.linked c) WorldResult.returnCode
    (fun call t => NetCall.Allowed call t.1) hallowed hstep hrun u.turn
  obtain ⟨answers, hforth⟩ := hback fun _ => .block none
  obtain ⟨t', hrun', hfits'⟩ := hforth (u, answers) ⟨hholds, rfl, rfl, fun _ _ => rfl⟩
  have hmemory := @Run.of_beside _ _ _ _ _ (fun answers => netStep (outsideOf answers) rounds) NetCall.Allowed _ _ _ hrun'
  exact ⟨outsideOf answers, fresh_outsideOf, t'.1, hmemory.1, hfits'.holds⟩

end Calls

end Crakoon
