import Crakoon.NodeInvariant

/-!
# What the functions on nodes and clusters keep

Each function that follows the pointers of nodes and clusters without changing them keeps the lists of nodes and the
account of the descriptors, and gives back no node (`Does`). A loop over the nodes of a cluster comes to its end when it
may go on for more rounds than there are nodes.
-/

namespace Crakoon

open Programs Chains

/-- What holds of memory in which the clusters have these nodes. -/
structure Network.Sane (outside : Outside) (nodes : ClusterPtr → Option (List NodePtr)) (u : Network) : Prop where
  ordered : u.Ordered nodes
  wired : outside.Fresh → u.Wired

/-- No node is given back. -/
def Network.Retains (u u' : Network) : Prop := u'.released = u.released

instance Network.retains_preorder : IsPreorder Network Network.Retains where
  refl := fun _ => rfl
  trans := fun _ _ _ h h' => h'.trans h

/-- The program keeps what holds of memory, its value satisfies `P`, and where `ends` holds it has an outcome. -/
abbrev Does {α : Type} (ends : Prop) (outside : Outside) (nodes : ClusterPtr → Option (List NodePtr)) (m : NetM α)
    (P : α → Prop) : Prop := Proceeds ends (Network.Sane outside nodes) Network.Retains m P

section Steps

variable {u : Network} {p : NodePtr} {cell : Cell NodePtr NetNode} {c : ClusterPtr} {cluster : NetCluster}
  {β : Type} {Q : β → Network → Prop}

theorem run_nodeAt (hcell : u.cells p = some cell) : (nodeAt p).run u = some (cell, u) :=
  Option.map_eq_some_iff.mpr ⟨cell, hcell, rfl⟩

theorem run_clusterAt (hcluster : u.clusters c = some cluster) : (clusterAt c).run u = some (cluster, u) :=
  Option.map_eq_some_iff.mpr ⟨cluster, hcluster, rfl⟩

/-- A program that looks at a node first goes on with what is there. -/
theorem bind_nodeAt_run {f : Cell NodePtr NetNode → NetM β} {out : β × Network}
    (h : (nodeAt p >>= f).run u = some out) : ∃ cell, u.cells p = some cell ∧ (f cell).run u = some out := by
  obtain ⟨_, _, hfound, hrest⟩ := bind_run_eq_some.mp h
  obtain ⟨cell, hcell, hout⟩ := Option.map_eq_some_iff.mp hfound
  obtain ⟨rfl, rfl⟩ := Prod.mk.inj hout
  exact ⟨cell, hcell, hrest⟩

theorem bind_clusterAt_run {f : NetCluster → NetM β} {out : β × Network}
    (h : (clusterAt c >>= f).run u = some out) :
    ∃ cluster, u.clusters c = some cluster ∧ (f cluster).run u = some out := by
  obtain ⟨_, _, hfound, hrest⟩ := bind_run_eq_some.mp h
  obtain ⟨cluster, hcluster, hout⟩ := Option.map_eq_some_iff.mp hfound
  obtain ⟨rfl, rfl⟩ := Prod.mk.inj hout
  exact ⟨cluster, hcluster, hrest⟩

theorem yields_record {e : SocketEvent} {f : Unit → NetM β}
    (h : Yields (f ()) { u with log := e :: u.log } Q) : Yields (record e >>= f) u Q := h

theorem yields_askOutside {α : Type} {answer : Nat → List SocketEvent → α} {f : α → NetM β}
    (h : Yields (f (answer u.turn u.log)) { u with turn := u.turn + 1 } Q) :
    Yields (askOutside answer >>= f) u Q := h

/-- The node at `p` has another descriptor, and the log is another one. -/
def Network.withFd (u : Network) (p : NodePtr) (cell : Cell NodePtr NetNode) (fd : Option Nat)
    (log : List SocketEvent) : Network :=
  { u with cells := u.cells.put p { cell with item := { cell.item with fd := fd } }, log := log }

theorem fdAt_withFd (fd : Option Nat) (log : List SocketEvent) :
    (u.withFd p cell fd log).fdAt = Function.update u.fdAt p fd := fdAt_update u.cells p (some _)

theorem fdAt_of_cell (hcell : u.cells p = some cell) : u.fdAt p = cell.item.fd := by
  rw [Network.fdAt, hcell]
  rfl

theorem yields_nodeSetFd (hcell : u.cells p = some cell) (fd : Option Nat) :
    Yields (nodeSetFd p fd) u fun _ u' => u' = u.withFd p cell fd u.log := by
  exact Yields.bind_of_run (run_nodeAt hcell) ⟨(), _, rfl, rfl⟩

/-- Writing the descriptor that a node has. -/
theorem Network.Wired.rewritten (h : u.Wired) (hcell : u.cells p = some cell) :
    (u.withFd p cell cell.item.fd u.log).Wired := by
  refine h.same rfl ?_
  rw [fdAt_withFd, ← fdAt_of_cell hcell, Function.update_eq_self]

theorem yields_nodeDisconnect (hcell : u.cells p = some cell) : Yields (nodeDisconnect p) u fun _ u' =>
    u' = u.withFd p cell none ((cell.item.fd.map (SocketEvent.closed p)).toList ++ u.log) := by
  refine Yields.bind_of_run (run_nodeAt hcell) ?_
  cases hfd : cell.item.fd with
  | none => exact yields_nodeSetFd hcell none
  | some fd =>
      have hset := yields_nodeSetFd (u := { u with log := .closed p fd :: u.log }) hcell none
      exact yields_record hset

theorem Network.Wired.disconnected (h : u.Wired) (hcell : u.cells p = some cell) :
    (u.withFd p cell none ((cell.item.fd.map (SocketEvent.closed p)).toList ++ u.log)).Wired := by
  have hat := fdAt_of_cell hcell
  cases hfd : cell.item.fd with
  | none =>
      have hsame := h.rewritten hcell
      rwa [hfd] at hsame
  | some fd => exact h.closed (hat.trans hfd) rfl (fdAt_withFd ..)

end Steps

section Functions

variable {ends : Prop} {outside : Outside} {nodes : ClusterPtr → Option (List NodePtr)} {u u' : Network}
  {c : ClusterPtr} {p : NodePtr} {α : Type}

namespace Network.Sane

theorem cell_of_mem (h : u.Sane outside nodes) (hp : p ∈ listOf nodes c) :
    ∃ cell, u.cells p = some cell ∧ cell.item.cluster = some c := h.ordered.cell_of_mem hp

theorem withFd (h : u.Sane outside nodes) {cell : Cell NodePtr NetNode} (hcell : u.cells p = some cell)
    {fd : Option Nat} {log : List SocketEvent} (hwired : u.Wired → (u.withFd p cell fd log).Wired) :
    (u.withFd p cell fd log).Sane outside nodes :=
  ⟨h.ordered.congr rfl (links_put hcell fd), fun hfresh => hwired (h.wired hfresh)⟩

theorem turned (h : u.Sane outside nodes) (turn : Nat) : ({ u with turn := turn } : Network).Sane outside nodes :=
  ⟨h.ordered.congr rfl fun _ => rfl, fun hfresh => (h.wired hfresh).same rfl rfl⟩

end Network.Sane

theorem does_nodeAt (hp : p ∈ listOf nodes c) :
    Does ends outside nodes (nodeAt p) fun cell => cell.item.cluster = some c := by
  refine .of_yields fun u hu => ?_
  obtain ⟨cell, hcell, hcluster⟩ := hu.cell_of_mem hp
  exact ⟨cell, u, run_nodeAt hcell, hu, rfl, hcluster⟩

theorem does_nodeDisconnect (hp : p ∈ listOf nodes c) :
    Does ends outside nodes (nodeDisconnect p) fun _ => True := by
  refine .of_yields fun u hu => ?_
  obtain ⟨cell, hcell, -⟩ := hu.cell_of_mem hp
  refine (yields_nodeDisconnect hcell).mono ?_
  rintro _ _ rfl
  exact ⟨hu.withFd hcell fun hwired => hwired.disconnected hcell, rfl, trivial⟩

theorem does_askOutside (answer : Nat → List SocketEvent → α) :
    Does ends outside nodes (askOutside answer) fun _ => True :=
  .of_yields fun _ hu => ⟨_, _, rfl, hu.turned _, rfl, trivial⟩

/-- A read or a write: the descriptor of the node is used, if there is one. -/
theorem does_use {answer : Nat → List SocketEvent → α} {refused : α} (hp : p ∈ listOf nodes c) :
    Does ends outside nodes (do
      let cell ← nodeAt p
      match cell.item.fd with
      | none => pure refused
      | some fd => do
          record (.used p fd)
          askOutside answer) fun _ => True := by
  refine .of_yields fun u hu => ?_
  obtain ⟨cell, hcell, -⟩ := hu.cell_of_mem hp
  refine Yields.bind_of_run (run_nodeAt hcell) ?_
  cases hfd : cell.item.fd with
  | none => exact .pure ⟨hu, rfl, trivial⟩
  | some fd =>
      refine yields_record ⟨_, _, rfl, ⟨hu.ordered.congr rfl fun _ => rfl, fun hfresh => ?_⟩, rfl, trivial⟩
      exact (hu.wired hfresh).used ((fdAt_of_cell hcell).trans hfd) rfl rfl

theorem does_performOn (hp : p ∈ listOf nodes c) (command : NodeCommand) (hends : ends → command.Returns) :
    Does ends outside nodes (performOn outside p command) fun _ => True := by
  cases command with
  | malloc => exact does_askOutside fun turn _ => outside.malloc turn
  | realloc q => exact does_askOutside fun turn _ => outside.realloc turn q
  | free q => exact .pure trivial
  | write bs => exact does_use hp
  | read n => exact does_use hp
  | disconnect => exact does_nodeDisconnect hp
  | setLastError msg => exact .pure trivial
  | abort => exact .abort hends

theorem does_onNodeAt (hp : p ∈ listOf nodes c) (script : NodeScript α) (hends : ends → script.Ends) :
    Does ends outside nodes (onNodeAt outside p script) fun _ => True := by
  induction script with
  | done a => exact .pure trivial
  | give command next ih =>
      exact (does_performOn hp command fun h => (hends h).1).bind fun r _ => ih r fun h => (hends h).2 r

theorem does_nodeOpen (hp : p ∈ listOf nodes c) : Does ends outside nodes (nodeOpen outside p) fun _ => True := by
  refine .of_yields fun u hu => ?_
  obtain ⟨cell, hcell, -⟩ := hu.cell_of_mem hp
  refine Yields.bind_of_run (run_nodeAt hcell) ?_
  cases hfd : cell.item.fd with
  | some fd => exact .pure ⟨hu, rfl, trivial⟩
  | none =>
      refine yields_askOutside ?_
      have hu₁ := hu.turned (u.turn + 1)
      cases hdial : outside.dial u.turn u.log with
      | error rc =>
          refine (yields_nodeSetFd (u := { u with turn := u.turn + 1 }) hcell none).bind ?_
          rintro _ _ rfl
          refine .pure ⟨hu₁.withFd hcell fun hwired => ?_, rfl, trivial⟩
          have hsame := hwired.rewritten hcell
          rwa [hfd] at hsame
      | ok fd =>
          refine yields_record ?_
          have hset :=
            @yields_nodeSetFd { u with log := .opened p fd :: u.log, turn := u.turn + 1 } p cell hcell (some fd)
          refine hset.bind ?_
          rintro _ _ rfl
          refine .pure ⟨⟨hu.ordered.congr rfl (links_put hcell (some fd)), fun hfresh => ?_⟩, rfl, trivial⟩
          refine (hu.wired hfresh).opened ((fdAt_of_cell hcell).trans hfd) (hfresh u.turn u.log fd hdial) rfl ?_
          exact fdAt_withFd ..

/-- The nodes of a cluster, its master and its name. -/
theorem does_clusterAt (hends : ends → (nodes c).isSome) : Does ends outside nodes (clusterAt c) fun cluster =>
    (nodes c).isSome ∧ cluster.nodes = (listOf nodes c).head? ∧
      (∀ p, cluster.master = some p → p ∈ listOf nodes c) ∧ cluster.name.bytes.length + 12 < 2 ^ 64 := by
  refine ⟨fun _ hu _ _ hrun => ?_, fun h u hu => ?_⟩
  · obtain ⟨cluster, hcluster, hout⟩ := Option.map_eq_some_iff.mp hrun
    obtain ⟨rfl, rfl⟩ := Prod.mk.inj hout
    have hhead := (hu.ordered.lists.chain c).start
    rw [Network.heads, hcluster] at hhead
    have hsome := hu.ordered.clusters c
    rw [hcluster] at hsome
    refine ⟨hu, rfl, hsome.symm, hhead, fun p => ?_, hu.ordered.named c cluster hcluster⟩
    exact hu.ordered.master c cluster p hcluster
  · have hsome := (hu.ordered.clusters c).trans (hends h)
    obtain ⟨cluster, hcluster⟩ := Option.isSome_iff_exists.mp hsome
    exact ⟨cluster, u, run_clusterAt hcluster, trivial⟩

theorem isSome_of_mem (hp : p ∈ listOf nodes c) : (nodes c).isSome := by
  obtain ⟨ks, hks, -⟩ := mem_listOf.mp hp
  rw [hks]
  rfl

theorem does_nodeIntroduce (hp : p ∈ listOf nodes c) :
    Does ends outside nodes (nodeIntroduce outside p) fun _ => True := by
  refine (does_nodeAt hp).bind fun cell hcluster => ?_
  rw [hcluster]
  refine (does_clusterAt fun _ => isSome_of_mem hp).bind fun cluster hfacts => ?_
  exact does_onNodeAt hp _ fun _ => NodeScript.ends_prologue hfacts.2.2.2

theorem does_nodeConnect (hp : p ∈ listOf nodes c) :
    Does ends outside nodes (nodeConnect outside p) fun _ => True := by
  refine (does_nodeOpen hp).bind fun rc _ => ?_
  cases rc with
  | some rc => exact .pure trivial
  | none => exact does_nodeIntroduce hp

theorem does_nodeWhoMaster (hp : p ∈ listOf nodes c) (master : Data) :
    Does ends outside nodes (nodeWhoMaster outside p master) fun _ => True :=
  does_onNodeAt hp _ fun _ => NodeScript.ends_whoMaster master

theorem does_askNode (hp : p ∈ listOf nodes c) (master : Data) :
    Does ends outside nodes (askNode outside p master) fun _ => True :=
  (does_nodeConnect hp).bind fun _ _ =>
    .ite (fun _ => (does_nodeWhoMaster hp master).bind fun _ _ => .pure trivial) fun _ => .pure trivial

theorem does_isNamed (hp : p ∈ listOf nodes c) (name : CString) (b : Unit) :
    Does ends outside nodes (isNamed name p b) fun _ => True := (does_nodeAt hp).bind fun _ _ => .pure trivial

theorem does_nodeGetNext {front ks : List NodePtr} (hks : listOf nodes c = front ++ p :: ks) :
    Does ends outside nodes (nodeGetNext p) fun next => next = ks.head? := by
  refine .of_yields fun u hu => ?_
  obtain ⟨cell, hcell, hnext⟩ := (hks ▸ hu.ordered.lists.chain c).behind
  exact Yields.bind_of_run (run_nodeAt hcell) (.pure ⟨hu, rfl, hnext⟩)

/-- The loop visits the nodes of a cluster from one of them on, and stops at one of them or at the end. -/
theorem does_whileNode {β : Type} {visit : NodePtr → β → NetM (Bool × β)} {rounds : Nat} {front ks : List NodePtr}
    (hvisit : ∀ p ∈ listOf nodes c, ∀ b, Does ends outside nodes (visit p b) fun _ => True)
    (hks : listOf nodes c = front ++ ks) (hrounds : ends → ks.length < rounds) (b : β) :
    Does ends outside nodes (whileNode visit rounds ks.head? b) fun found =>
      ∀ p, found.1 = some p → p ∈ listOf nodes c := by
  induction rounds generalizing front ks b with
  | zero => exact .abort fun h => absurd (hrounds h) (Nat.not_lt_zero _)
  | succ rounds ih =>
      cases ks with
      | nil => exact .pure fun p hp => by cases hp
      | cons p ks =>
          have hp : p ∈ listOf nodes c := hks ▸ List.mem_append_right front List.mem_cons_self
          refine (hvisit p hp b).bind fun out _ => .ite (fun _ => .pure ?_) fun _ => ?_
          · rintro q hq
            exact Option.some.inj hq ▸ hp
          · refine (does_nodeGetNext hks).bind fun next hnext => ?_
            subst hnext
            have hks' : listOf nodes c = (front ++ [p]) ++ ks := by
              rw [hks, List.append_assoc]
              rfl
            exact ih hks' (fun h => Nat.lt_of_succ_lt_succ (hrounds h)) out.2

theorem does_clusterSetMaster (hp : p ∈ listOf nodes c) :
    Does ends outside nodes (clusterSetMaster c p) fun _ => True := by
  refine .of_yields fun u hu => ?_
  have hsome := (hu.ordered.clusters c).trans (isSome_of_mem hp)
  obtain ⟨cluster, hcluster⟩ := Option.isSome_iff_exists.mp hsome
  refine Yields.bind_of_run (run_clusterAt hcluster) ⟨(), _, rfl, ?_, rfl, trivial⟩
  exact ⟨hu.ordered.withMaster hcluster hp rfl rfl, fun hfresh => (hu.wired hfresh).same rfl rfl⟩

theorem does_confirmMaster (hp : p ∈ listOf nodes c) (master : Data) :
    Does ends outside nodes (confirmMaster outside c p master) fun _ => True := by
  refine (does_nodeConnect hp).bind fun rc _ => .ite (fun _ => .pure trivial) fun _ => ?_
  refine (does_nodeWhoMaster hp master).bind fun out _ => .ite (fun _ => .pure trivial) fun _ => ?_
  refine (does_nodeAt hp).bind fun cell _ => .ite (fun _ => .pure trivial) fun _ => ?_
  exact (does_clusterSetMaster hp).bind fun _ _ => .pure trivial

/-- `arakoon_cluster_connect_master` comes to its end where its loops may go on for more rounds than there are nodes. -/
theorem does_clusterConnectMaster {rounds : Nat}
    (hrounds : ends → (nodes c).isSome ∧ (listOf nodes c).length < rounds) :
    Does ends outside nodes (clusterConnectMaster rounds outside c) fun _ => True := by
  refine (does_clusterAt fun h => (hrounds h).1).bind fun cluster hcluster => ?_
  rw [hcluster.2.1]
  have hall : listOf nodes c = [] ++ listOf nodes c := rfl
  refine (does_whileNode (fun p hp => does_askNode hp) hall (fun h => (hrounds h).2) .null).bind fun found hfound => ?_
  match hfirst : found.1 with
  | none => exact .pure trivial
  | some p =>
      have hp := hfound p hfirst
      refine (does_nodeAt hp).bind fun cell _ => .ite (fun _ => ?_) fun _ => ?_
      · exact (does_clusterSetMaster hp).bind fun _ _ => .pure trivial
      · refine (does_clusterAt fun h => (hrounds h).1).bind fun again hagain => ?_
        rw [hagain.2.1]
        refine (does_whileNode (fun p hp => does_isNamed hp _) hall (fun h => (hrounds h).2) ()).bind ?_
        intro named hfound'
        match hsecond : named.1 with
        | none => exact .pure trivial
        | some q => exact does_confirmMaster (hfound' q hsecond) found.2

theorem does_clusterOperation {script : NodeScript ArakoonRc} (hends : ends → (nodes c).isSome ∧ script.Ends) :
    Does ends outside nodes (clusterOperation outside c script) fun _ => True := by
  refine (does_clusterAt fun h => (hends h).1).bind fun cluster hcluster => ?_
  match hmaster : cluster.master with
  | none => exact .pure trivial
  | some p =>
      have hp := hcluster.2.2.1 p hmaster
      refine (does_nodeAt hp).bind fun cell _ => .ite (fun _ => ?_) fun _ => .pure trivial
      exact does_onNodeAt hp script fun h => (hends h).2

end Functions

end Crakoon
