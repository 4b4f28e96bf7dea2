import Crakoon.NodeLists
import Mathlib.Algebra.Order.BigOperators.Group.List

/-!
# The life of a descriptor

A descriptor is opened for a node, is used for this node only, and is closed once; then nothing is done with its number
before it is given out again. Every log in which descriptors are used and closed while they are open says so
(`InOrder.lifetime`), and the log of every run is one of these.
-/

namespace Crakoon

open Programs Ledger

def SocketEvent.fd : SocketEvent → Nat
  | .opened _ fd => fd
  | .used _ fd => fd
  | .closed _ fd => fd

/-- What is done with a descriptor, the latest first. -/
def eventsOf (fd : Nat) (log : List SocketEvent) : List SocketEvent := log.filter fun e => e.fd = fd

/-- Since the descriptor was opened for `p` it was used for `p`, and not closed. -/
def Alive (p : NodePtr) (fd : Nat) (later : List SocketEvent) : Prop :=
  ∃ uses, eventsOf fd later = List.replicate uses (.used p fd)

/-- Since the descriptor was opened for `p` it was used for `p`, then closed, and not touched again before the number
was given out anew. -/
def Ended (p : NodePtr) (fd : Nat) (later : List SocketEvent) : Prop :=
  ∃ uses anew, eventsOf fd later = anew ++ .closed p fd :: List.replicate uses (.used p fd) ∧
    ∀ e, anew.getLast? = some e → ∃ q, e = .opened q fd

section Lifetime

variable {log later before : List SocketEvent} {e : SocketEvent} {p q : NodePtr} {fd : Nat}

theorem eventsOf_cons_same (h : e.fd = fd) (log : List SocketEvent) : eventsOf fd (e :: log) = e :: eventsOf fd log :=
  List.filter_cons_of_pos (decide_eq_true h)

theorem eventsOf_cons_other (h : e.fd ≠ fd) (log : List SocketEvent) : eventsOf fd (e :: log) = eventsOf fd log :=
  List.filter_cons_of_neg (by simpa using h)

/-- What is done with other descriptors does not matter for whether one is open. -/
theorem mem_sockets_other (h : InOrder (e :: log)) (hfd : e.fd ≠ fd) :
    (q, fd) ∈ sockets (e :: log) ↔ (q, fd) ∈ sockets log := by
  cases e with
  | opened r d =>
      rw [mem_sockets_opened]
      exact or_iff_right fun heq => hfd (Prod.mk.inj heq).2.symm
  | used r d => exact Iff.rfl
  | closed r d =>
      rw [mem_sockets_closed h.2]
      exact and_iff_right fun heq => hfd (Prod.mk.inj heq).2.symm

theorem InOrder.tail (h : InOrder (e :: log)) : InOrder log := by
  cases e with
  | opened p fd => exact h.2
  | used p fd => exact h.2
  | closed p fd => exact h.2

/-- An open descriptor is used or closed, for its node. -/
theorem InOrder.next_of_open (h : InOrder (e :: log)) (hopen : (p, fd) ∈ sockets log) (hfd : e.fd = fd) :
    e = .used p fd ∨ e = .closed p fd := by
  subst hfd
  cases e with
  | opened q d => exact absurd hopen (h.1 p)
  | used q d => exact .inl (by rw [h.2.unique hopen h.1, SocketEvent.fd])
  | closed q d => exact .inr (by rw [h.2.unique hopen h.1, SocketEvent.fd])

/-- A descriptor that is not open is opened. -/
theorem InOrder.next_of_closed (h : InOrder (e :: log)) (hnone : ∀ q, (q, fd) ∉ sockets log) (hfd : e.fd = fd) :
    ∃ q, e = .opened q fd := by
  subst hfd
  cases e with
  | opened q d => exact ⟨q, rfl⟩
  | used q d => exact absurd h.1 (hnone q)
  | closed q d => exact absurd h.1 (hnone q)

theorem InOrder.not_mem_of_closed (h : InOrder (.closed p fd :: log)) (q : NodePtr) :
    (q, fd) ∉ sockets (.closed p fd :: log) := by
  intro hq
  obtain ⟨hne, hold⟩ := (mem_sockets_closed h.2).mp hq
  exact hne (by rw [h.2.unique hold h.1])

/-- From when it was opened on: a descriptor is open for its node, or it was closed once. The induction is on what was
done since; the number is free for as long as it was not given out anew. -/
theorem InOrder.lifetime (h : InOrder (later ++ .opened p fd :: before)) :
    Alive p fd later ∧ (p, fd) ∈ sockets (later ++ .opened p fd :: before) ∨
      ∃ uses anew, eventsOf fd later = anew ++ .closed p fd :: List.replicate uses (.used p fd) ∧
        (anew = [] → ∀ q, (q, fd) ∉ sockets (later ++ .opened p fd :: before)) ∧
        ∀ e, anew.getLast? = some e → ∃ q, e = .opened q fd := by
  induction later with
  | nil => exact .inl ⟨⟨0, rfl⟩, mem_sockets_opened.mpr (.inl rfl)⟩
  | cons e later ih =>
      have hih := ih h.tail
      by_cases hfd : e.fd = fd
      · rw [eventsOf_cons_same hfd]
        rcases hih with ⟨⟨uses, huses⟩, hopen⟩ | ⟨uses, anew, huses, hfree, hlast⟩
        · rcases h.next_of_open hopen hfd with rfl | rfl
          · exact .inl ⟨⟨uses + 1, by rw [eventsOf_cons_same hfd, huses, List.replicate_succ]⟩, hopen⟩
          · exact .inr ⟨uses, [], by rw [huses]; rfl, fun _ => h.not_mem_of_closed, fun _ hnone => by cases hnone⟩
        · have hne : e :: anew ≠ [] := List.cons_ne_nil e anew
          refine .inr ⟨uses, e :: anew, by rw [huses]; rfl, fun hnil => absurd hnil hne, fun e' he' => ?_⟩
          cases anew with
          | nil =>
              obtain rfl := Option.some.inj he'
              exact h.next_of_closed (hfree rfl) hfd
          | cons e'' anew => exact hlast e' he'
      · rw [eventsOf_cons_other hfd]
        rcases hih with ⟨⟨uses, huses⟩, hopen⟩ | ⟨uses, anew, huses, hfree, hlast⟩
        · exact .inl ⟨⟨uses, (eventsOf_cons_other hfd _).trans huses⟩, (mem_sockets_other h hfd).mpr hopen⟩
        · refine .inr ⟨uses, anew, huses, fun hnil q => ?_, hlast⟩
          exact fun hq => hfree hnil q ((mem_sockets_other h hfd).mp hq)

end Lifetime

/-- What the descriptors are like after a run. -/
structure Network.ClosedOnce (history : List (NetCall × ArakoonRc)) (u : Network) : Prop where
  /-- What is opened is not open; what is used or closed is, for the node that it is used or closed for. -/
  order : InOrder u.log
  /-- A node has the descriptor that was opened for it for as long as that is open. Overwritten before it was
  closed, it would be open and in no node. -/
  held : ∀ p fd, (p, fd) ∈ sockets u.log ↔ u.fdAt p = some fd
  /-- What was opened is open still, or was closed once. -/
  lives : ∀ later before p fd, u.log = later ++ .opened p fd :: before →
    Alive p fd later ∧ u.fdAt p = some fd ∨ Ended p fd later
  /-- Of the nodes of a cluster that was freed none has a descriptor that is open. -/
  freed : ∀ c rc before, history = (.clusterFree c, rc) :: before →
    ∀ p ∈ listOf (addedNodes before) c, ∀ fd, (p, fd) ∉ sockets u.log

section Runs

variable {outside : Outside} {rounds : Nat} {history : List (NetCall × ArakoonRc)} {u : Network}

theorem closed_of_freed (hfresh : outside.Fresh)
    (h : Run (netStep outside rounds) NetCall.Allowed Network.empty history u) {c : ClusterPtr} {rc : ArakoonRc}
    {before : List (NetCall × ArakoonRc)} (hlast : history = (.clusterFree c, rc) :: before) {p : NodePtr}
    (hp : p ∈ listOf (addedNodes before) c) (fd : Nat) : (p, fd) ∉ sockets u.log := by
  intro hopen
  have hfd := ((sane_run h).wired hfresh |>.held p fd).mp hopen
  cases h with
  | nil => cases hlast
  | @call _ s _ _ _ hbefore _ hstep =>
      obtain ⟨hcall, rfl⟩ := List.cons.inj hlast
      obtain ⟨rfl, rfl⟩ := Prod.mk.inj hcall
      obtain ⟨ks, hks, rfl⟩ := (sane_run hbefore).freed hstep
      have hmem : p ∈ ks := by
        rwa [listOf_of_nodes hks] at hp
      have hgone := withoutNodes_cells s ks p
      rw [if_pos hmem] at hgone
      rw [Network.fdAt, hgone] at hfd
      cases hfd

/-- Whatever calls are made and however reads, writes and connections end: every descriptor is used and closed only
while it is open and for its node, is kept in its node until it is closed, is closed once, and is not open after the
cluster of its node is freed. -/
theorem sockets_closed_once (hfresh : outside.Fresh)
    (h : Run (netStep outside rounds) NetCall.Allowed Network.empty history u) : u.ClosedOnce history := by
  have hwired := (sane_run h).wired hfresh
  refine ⟨hwired.order, hwired.held, fun later before p fd hlog => ?_, fun c rc before hlast p hp =>
    closed_of_freed hfresh h hlast hp⟩
  have horder := hwired.order
  rw [hlog] at horder
  rcases horder.lifetime with ⟨halive, hopen⟩ | ⟨uses, anew, huses, -, hanew⟩
  · exact .inl ⟨halive, (hwired.held p fd).mp (hlog ▸ hopen)⟩
  · exact .inr ⟨uses, anew, huses, hanew⟩

/-- Memory is granted, connections are made, and every byte of a reply is `0`. -/
def Outside.zeros : Outside where
  malloc turn := some turn
  realloc turn _ := some turn
  write _ _ := ArakoonReturnCode.success.rc
  read _ n := (ArakoonReturnCode.success.rc, List.replicate n 0)
  dial _ log := .ok (((sockets log).map Prod.snd).sum + 1)

theorem fresh_zeros : Outside.zeros.Fresh := by
  intro turn log fd hdial q hq
  obtain rfl := Except.ok.inj hdial
  have hle := List.single_le_sum (fun _ _ => Nat.zero_le _) _ (List.mem_map_of_mem (f := Prod.snd) hq)
  exact absurd hle (Nat.not_succ_le_self _)

/-- A node is connected to while the master is looked for, and closed when its cluster is freed. -/
theorem sockets_closed_once_one : ∃ history u, history.head? = some (.clusterFree 7, 0) ∧
    u.log = [.closed 1 1, .used 1 1, .used 1 1, .used 1 1, .used 1 1, .opened 1 1] ∧
    Network.ClosedOnce history u := by
  obtain ⟨s, hrun, hboth⟩ : ∃ s, Run (netStep Outside.zeros 3) NetCall.Allowed Network.empty
      [(.addNode 7 1, 0), (.clusterNew 7 ⟨[99], by decide⟩, 0), (.nodeNew 1 ⟨[97], by decide⟩, 0)] s ∧
      (((NetCall.connectMaster 7).program Outside.zeros 3).run s).bind (fun out =>
        (((NetCall.clusterFree 7).program Outside.zeros 3).run out.2).map fun last => (last.1, last.2.log)) =
          some (0, [.closed 1 1, .used 1 1, .used 1 1, .used 1 1, .used 1 1, .opened 1 1]) :=
    ⟨_, .call (.call (.call .nil rfl rfl) ⟨rfl, by decide⟩ rfl) trivial rfl, by decide +kernel⟩
  obtain ⟨⟨rc, s'⟩, hconnect, hrest⟩ := Option.bind_eq_some_iff.mp hboth
  obtain ⟨⟨rc', u⟩, hfree, hout⟩ := Option.map_eq_some_iff.mp hrest
  obtain ⟨rfl, hlog⟩ := Prod.mk.inj hout
  have hallowed : (NetCall.connectMaster 7).Allowed s ∧ (NetCall.clusterFree 7).Allowed s' := ⟨trivial, trivial⟩
  have hconnected := Run.call hrun hallowed.1 (netStep_eq_ok.mpr hconnect)
  have hfreed := Run.call hconnected hallowed.2 (netStep_eq_ok.mpr hfree)
  exact ⟨_, u, rfl, hlog, sockets_closed_once fresh_zeros hfreed⟩

end Runs

end Crakoon
