import Crakoon.ConnectRound

/-!
# The sockets that `poll` has marked

A round of the connect loop looks at as many entries as `poll` has marked, from the front of the array. The entries
behind them are not looked at, whether they are marked or not. So a round acts upon every marked socket if, and only
if, all the sockets in error are in front, and one that is writable if there is any (`InReach`). A loop whose rounds are
of that kind ends after as many rounds as there are sockets (`rounds_handle_ready`).
-/

namespace Crakoon.Networking

open Programs

/-- `poll` has an entry for every pending socket, has marked one or more, and returns how many. -/
structure Reports (fds : List Int) (count : Nat) (entries : List Revents) : Prop where
  length : entries.length = (pendingSockets fds).length
  counted : count = entries.countP Revents.marked
  marked : 0 < count

/-- The sockets in error are among the first `count` ones, and so is one that is writable without an error if there is
any. -/
structure InReach (fds : List Int) (count : Nat) (entries : List Revents) : Prop where
  failed : ∀ entry ∈ (polled fds entries).drop count, ¬ entry.2.failed
  ready : (∃ entry ∈ polled fds entries, entry.2.ready) → ∃ entry ∈ (polled fds entries).take count, entry.2.ready

/-- The round closes and forgets every socket in error. If there are sockets that are writable without an error, it
ends the loop with one of them, or restoring its flags fails and it is closed and forgotten. So the loop ends or has
fewer sockets to wait for. -/
structure HandlesReady (fds : List Int) (entries : List Revents) (used : List Answer) (calls : List Syscall)
    (round : Round) : Prop where
  failed : ∀ entry ∈ polled fds entries, entry.2.failed → .close entry.1 ∈ calls ∧ entry.1 ∉ round.fds
  ready : (∃ entry ∈ polled fds entries, entry.2.ready) → ∃ entry ∈ polled fds entries, entry.2.ready ∧
    ((∃ out, round = .settled out ∧ out.rc = ArakoonReturnCode.success ∧ out.theSocket = entry.1) ∨
      ((∃ e, .fcntl (.error e) ∈ used) ∧ .close entry.1 ∈ calls ∧ entry.1 ∉ round.fds))
  progress : (∃ out, round = .settled out) ∨ (pendingSockets round.fds).length < (pendingSockets fds).length

section Round

variable {fds : List Int} {count : Nat} {entries : List Revents} {used : List Answer} {calls : List Syscall}
  {round : Round}

/-- What the round acts on is what `poll` has found. -/
theorem Round.Of.acts (hof : Round.Of fds used calls round) (hpoll : .poll (.ok (count, entries)) ∈ used)
    (hcount : 0 < count) : ∃ before acted polls closes now, used = before ++ .poll (.ok (count, entries)) :: acted ∧
      calls = closes ++ polls ∧ (∀ a ∈ before, a.idle) ∧
      Acts fds now ((polled fds entries).take count) acted closes round := by
  have hbusy : ¬ (Answer.poll (.ok (count, entries))).idle := by
    simp only [Answer.idle, decide_eq_true_eq]
    omega
  cases hof with
  | stopped hused hcalls hrc => exact absurd (hused _ hpoll) hbusy
  | @acted before acted polls closes count' entries' now round hbefore hpolls hcount' hacts =>
      rcases List.mem_append.mp hpoll with hmem | hmem
      · exact absurd (hbefore _ hmem) hbusy
      · rcases List.mem_cons.mp hmem with heq | hmem
        · obtain ⟨rfl, rfl⟩ := Prod.mk.inj (Except.ok.inj (Answer.poll.inj heq))
          exact ⟨before, acted, polls, closes, now, rfl, rfl, hbefore, hacts⟩
        · cases hacts with
          | none => exact absurd hmem List.not_mem_nil
          | restored => simp at hmem
          | refused => simp at hmem

theorem Acts.keeps {now : Timespec} {scanned : List (Int × Revents)} {sock : Int}
    (h : Acts fds now scanned used calls round) (hsock : sock ∈ pendingSockets fds) (hscanned : ∀ entry ∈ scanned, entry.1 ≠ sock) : sock ∈ round.fds := by
  obtain ⟨hmem, hpos⟩ := mem_pendingSockets.mp hsock
  have hfailed : sock ∉ failedOf scanned := by
    intro h
    obtain ⟨entry, hentry, -, heq⟩ := mem_failedOf.mp h
    exact hscanned entry hentry heq
  cases h with
  | none hnone => exact (mem_forget hpos _ _).mpr ⟨hmem, hfailed⟩
  | restored hchosen => exact (mem_forget hpos _ _).mpr ⟨hmem, hfailed⟩
  | @refused chosen e hchosen =>
      obtain ⟨entry, hentry, -, rfl⟩ := mem_readyOf.mp hchosen
      refine (mem_forget hpos _ _).mpr ⟨hmem, fun h => ?_⟩
      rcases List.mem_append.mp h with h | h
      · exact hfailed h
      · exact hscanned entry hentry (List.mem_singleton.mp h).symm

theorem inReach_of_handles (hnodup : (pendingSockets fds).Nodup) (hof : Round.Of fds used calls round)
    (hpoll : .poll (.ok (count, entries)) ∈ used) (hreports : Reports fds count entries)
    (h : HandlesReady fds entries used calls round) : InReach fds count entries := by
  obtain ⟨before, acted, polls, closes, now, rfl, rfl, hbefore, hacts⟩ := hof.acts hpoll hreports.marked
  constructor
  · intro entry hentry hfailed
    -- a socket behind the entries that are looked at stays in `fds`
    have hmem := List.mem_of_mem_drop hentry
    refine absurd (hacts.keeps (polled_pending hmem) fun entry' hentry' heq => ?_) (h.failed entry hmem hfailed).2
    obtain rfl := polled_unique hnodup (List.mem_of_mem_take hentry') hmem heq
    have hdisjoint := List.disjoint_take_drop (nodup_polled hnodup entries).of_map (Nat.le_refl count)
    exact hdisjoint hentry' hentry
  · intro hsome
    obtain ⟨entry, hentry, hready, hout⟩ := h.ready hsome
    cases hacts with
    | none hnone =>
        rcases hout with ⟨out, hround, -⟩ | ⟨⟨e, hfcntl⟩, -⟩
        · cases hround
        · rcases List.mem_append.mp hfcntl with hmem | hmem
          · exact absurd (hbefore _ hmem) (by simp [Answer.idle])
          · simp at hmem
    | restored hchosen =>
        obtain ⟨entry, hentry, hready, -⟩ := mem_readyOf.mp hchosen
        exact ⟨entry, hentry, hready⟩
    | refused hchosen =>
        obtain ⟨entry, hentry, hready, -⟩ := mem_readyOf.mp hchosen
        exact ⟨entry, hentry, hready⟩

/-- One of the entries that are looked at is marked. -/
theorem InReach.scanned (hreports : Reports fds count entries) (h : InReach fds count entries) :
    ∃ entry ∈ (polled fds entries).take count, entry.2.marked := by
  have hcount : 0 < entries.countP Revents.marked := hreports.counted ▸ hreports.marked
  obtain ⟨revents, hmem, hmarked⟩ := List.countP_pos_iff.mp hcount
  have hsecond : (polled fds entries).map Prod.snd = entries := List.map_snd_zip (Nat.le_of_eq hreports.length)
  obtain ⟨entry, hentry, rfl⟩ := List.mem_map.mp (hsecond ▸ hmem)
  rcases (Revents.marked_iff _).mp hmarked with hfailed | hready
  · have hsplit := List.take_append_drop count (polled fds entries)
    rcases List.mem_append.mp (hsplit.symm ▸ hentry) with htake | hdrop
    · exact ⟨entry, htake, hmarked⟩
    · exact absurd hfailed (h.failed entry hdrop)
  · obtain ⟨entry', hentry', hready'⟩ := h.ready ⟨entry, hentry, hready⟩
    exact ⟨entry', hentry', (Revents.marked_iff _).mpr (.inr hready')⟩

theorem Acts.closes {now : Timespec} {scanned : List (Int × Revents)} {sock : Int}
    (h : Acts fds now scanned used calls round) (hpos : 0 ≤ sock) (hsock : sock ∈ failedOf scanned) :
    .close sock ∈ calls ∧ sock ∉ round.fds := by
  cases h with
  | none hnone => exact ⟨mem_closing.mpr hsock, fun hmem => ((mem_forget hpos _ _).mp hmem).2 hsock⟩
  | restored hchosen => exact ⟨mem_closing.mpr hsock, fun hmem => ((mem_forget hpos _ _).mp hmem).2 hsock⟩
  | refused hchosen =>
      refine ⟨List.mem_cons_of_mem _ (mem_closing.mpr hsock), fun hmem => ?_⟩
      exact ((mem_forget hpos _ _).mp hmem).2 (List.mem_append_left _ hsock)

/-- Where an entry that is marked is looked at, the loop ends or has fewer sockets to wait for. -/
theorem Acts.progress {now : Timespec} (h : Acts fds now ((polled fds entries).take count) used calls round)
    (hmarked : ∃ entry ∈ (polled fds entries).take count, entry.2.marked) :
    (∃ out, round = .settled out) ∨ (pendingSockets round.fds).length < (pendingSockets fds).length := by
  cases h with
  | none hnone =>
      obtain ⟨entry, hentry, hmarked⟩ := hmarked
      have hfailed : entry.2.failed := by
        refine ((Revents.marked_iff _).mp hmarked).resolve_right fun hready => ?_
        exact List.ne_nil_of_mem (mem_readyOf.mpr ⟨entry, hentry, hready, rfl⟩) hnone
      refine .inr (length_pendingSockets_forget (mem_failedOf.mpr ⟨entry, hentry, hfailed, rfl⟩) ?_)
      exact polled_pending (List.mem_of_mem_take hentry)
  | restored hchosen => exact .inl ⟨_, rfl⟩
  | refused hchosen =>
      obtain ⟨entry, hentry, -, rfl⟩ := mem_readyOf.mp hchosen
      refine .inr (length_pendingSockets_forget (List.mem_append_right _ (List.mem_singleton.mpr rfl)) ?_)
      exact polled_pending (List.mem_of_mem_take hentry)

theorem handles_of_inReach (hof : Round.Of fds used calls round)
    (hpoll : .poll (.ok (count, entries)) ∈ used) (hreports : Reports fds count entries)
    (h : InReach fds count entries) : HandlesReady fds entries used calls round := by
  obtain ⟨before, acted, polls, closes, now, rfl, rfl, hbefore, hacts⟩ := hof.acts hpoll hreports.marked
  refine ⟨fun entry hentry hfailed => ?_, fun hsome => ?_, hacts.progress (h.scanned hreports)⟩
  · have hfront : entry ∈ (polled fds entries).take count := by
      have hsplit := List.take_append_drop count (polled fds entries)
      refine (List.mem_append.mp (hsplit.symm ▸ hentry)).resolve_right fun hdrop => ?_
      exact h.failed entry hdrop hfailed
    have hpos := (mem_pendingSockets.mp (polled_pending hentry)).2
    obtain ⟨hclose, hgone⟩ := hacts.closes hpos (mem_failedOf.mpr ⟨entry, hfront, hfailed, rfl⟩)
    exact ⟨List.mem_append_left _ hclose, hgone⟩
  · obtain ⟨first, hfirst, hready⟩ := h.ready hsome
    cases hacts with
    | none hnone => exact absurd hnone (List.ne_nil_of_mem (mem_readyOf.mpr ⟨first, hfirst, hready, rfl⟩))
    | restored hchosen =>
        obtain ⟨entry, hentry, hready, rfl⟩ := mem_readyOf.mp hchosen
        exact ⟨entry, List.mem_of_mem_take hentry, hready, .inl ⟨_, rfl, rfl, rfl⟩⟩
    | @refused chosen e hchosen =>
        obtain ⟨entry, hentry, hready, rfl⟩ := mem_readyOf.mp hchosen
        have hmem := List.mem_of_mem_take hentry
        refine ⟨entry, hmem, hready, .inr ⟨⟨e, ?_⟩, List.mem_cons_self, fun hleft => ?_⟩⟩
        · exact List.mem_append_right _ (List.mem_cons_of_mem _ (List.mem_singleton.mpr rfl))
        · have hpos := (mem_pendingSockets.mp (polled_pending hmem)).2
          exact ((mem_forget hpos _ _).mp hleft).2 (List.mem_append_right _ (List.mem_singleton.mpr rfl))

end Round

/-- What the loop has when a round begins. -/
structure Waiting where
  kernel : Kernel
  fds : List Int
  now : Timespec

/-- A round after which the loop goes on. -/
def roundStep (limit : Option (Int × Timespec)) (interrupts : Nat) (s : Waiting) : Except Unit (Unit × Waiting) :=
  match (connectRound limit interrupts s.fds s.now).run s.kernel with
  | some (.again fds now, kernel) => .ok ((), ⟨kernel, fds, now⟩)
  | _ => .error ()

/-- If `poll` finds sockets in the round, it reports them and they are in reach. -/
def RoundInReach (limit : Option (Int × Timespec)) (interrupts : Nat) (s : Waiting) : Prop :=
  ∀ round k' used count entries, (connectRound limit interrupts s.fds s.now).run s.kernel = some (round, k') →
    s.kernel.Takes used k' → .poll (.ok (count, entries)) ∈ used → 0 < count →
    Reports s.fds count entries ∧ InReach s.fds count entries

theorem Round.Of.found {fds fds' : List Int} {used : List Answer} {calls : List Syscall} {now : Timespec}
    (h : Round.Of fds used calls (.again fds' now)) :
    ∃ count entries, .poll (.ok (count, entries)) ∈ used ∧ 0 < count := by
  cases h with
  | acted hbefore hpolls hcount hacts => exact ⟨_, _, List.mem_append_right _ List.mem_cons_self, hcount⟩

theorem roundStep_eq_ok {limit : Option (Int × Timespec)} {interrupts : Nat} {s s' : Waiting} {u : Unit}
    (h : roundStep limit interrupts s = .ok (u, s')) :
    (connectRound limit interrupts s.fds s.now).run s.kernel = some (.again s'.fds s'.now, s'.kernel) := by
  unfold roundStep at h
  split at h
  · rename_i fds now kernel hrun
    obtain ⟨-, rfl⟩ := Prod.mk.inj (Except.ok.inj h)
    exact hrun
  · cases h

/-- A round after which the loop goes on has one socket less to wait for. -/
theorem roundStep_progress {limit : Option (Int × Timespec)} {interrupts : Nat} {s s' : Waiting} {u : Unit}
    (hnodup : (pendingSockets s.fds).Nodup) (hreach : RoundInReach limit interrupts s)
    (hstep : roundStep limit interrupts s = .ok (u, s')) :
    (pendingSockets s'.fds).Nodup ∧ (pendingSockets s'.fds).length < (pendingSockets s.fds).length := by
  have hrun := roundStep_eq_ok hstep
  obtain ⟨used, calls, hgoes, hof⟩ := ensures_connectRound hnodup limit interrupts s.now s.kernel _ _ hrun
  refine ⟨hof.nodup hnodup, ?_⟩
  obtain ⟨count, entries, hpoll, hcount⟩ := hof.found
  obtain ⟨hreports, hin⟩ := hreach _ _ used count entries hrun hgoes.takes hpoll hcount
  refine (handles_of_inReach hof hpoll hreports hin).progress.resolve_left fun h => ?_
  obtain ⟨out, hout⟩ := h
  cases hout

theorem roundStep_runs {limit : Option (Int × Timespec)} {start : Waiting}
    (hnodup : (pendingSockets start.fds).Nodup) {history : List (Nat × Unit)} {s : Waiting}
    (h : Run (roundStep limit) (RoundInReach limit) start history s) :
    (pendingSockets s.fds).Nodup ∧
      history.length + (pendingSockets s.fds).length ≤ (pendingSockets start.fds).length := by
  induction h with
  | nil => exact ⟨hnodup, Nat.le_of_eq (Nat.zero_add _)⟩
  | call before hallowed hstep ih =>
      obtain ⟨hnodup', hlength⟩ := ih
      obtain ⟨hnodup'', hless⟩ := roundStep_progress hnodup' hallowed hstep
      refine ⟨hnodup'', ?_⟩
      rw [List.length_cons]
      omega

/-- After any number of rounds in which the sockets that `poll` found were in reach, and there are no more than there
were sockets, a round handles all the marked sockets if, and only if, they are in reach. -/
theorem rounds_handle_ready {limit : Option (Int × Timespec)} {start : Waiting}
    (hnodup : (pendingSockets start.fds).Nodup) {history : List (Nat × Unit)} {s : Waiting}
    (h : Run (roundStep limit) (RoundInReach limit) start history s) :
    history.length + (pendingSockets s.fds).length ≤ (pendingSockets start.fds).length ∧
      ∀ interrupts round k' used calls count entries,
        (connectRound limit interrupts s.fds s.now).run s.kernel = some (round, k') → s.kernel.Goes used calls k' →
        .poll (.ok (count, entries)) ∈ used → Reports s.fds count entries →
        (HandlesReady s.fds entries used calls round ↔ InReach s.fds count entries) := by
  obtain ⟨hnodup', hlength⟩ := roundStep_runs hnodup h
  refine ⟨hlength, fun interrupts round k' used calls count entries hrun hgoes hpoll hreports => ?_⟩
  obtain ⟨used', calls', hgoes', hof⟩ := ensures_connectRound hnodup' limit interrupts s.now s.kernel _ _ hrun
  obtain ⟨rfl, rfl⟩ := hgoes'.unique hgoes
  exact ⟨inReach_of_handles hnodup' hof hpoll hreports, handles_of_inReach hof hpoll hreports⟩

def unmarked : Revents := ⟨false, false, false, false, false, false⟩
def onlyWritable : Revents := ⟨false, true, false, false, false, false⟩
def inError : Revents := ⟨false, true, true, false, false, false⟩

/-- The sockets 5 and 7 are pending; the system calls give the answers. -/
def waitingFor (answers : List Answer) : Waiting := ⟨⟨answers, []⟩, [5, 7], ⟨0, 0⟩⟩

/-- Of two sockets the second is writable: the round looks at the first, and the loop goes on with both. -/
theorem connectRound_overlooks :
    ∃ k', (connectRound none 1 [5, 7] ⟨0, 0⟩).run (waitingFor [.poll (.ok (1, [unmarked, onlyWritable]))]).kernel =
        some (.again [5, 7] ⟨0, 0⟩, k') ∧
      (waitingFor [.poll (.ok (1, [unmarked, onlyWritable]))]).kernel.Goes
        [.poll (.ok (1, [unmarked, onlyWritable]))] [.poll [5, 7] (-1)] k' ∧
      Reports [5, 7] 1 [unmarked, onlyWritable] ∧
      ¬ HandlesReady [5, 7] [unmarked, onlyWritable] [.poll (.ok (1, [unmarked, onlyWritable]))]
        [.poll [5, 7] (-1)] (.again [5, 7] ⟨0, 0⟩) := by
  refine ⟨_, rfl, ⟨rfl, rfl⟩, ⟨rfl, rfl, Nat.one_pos⟩, fun h => ?_⟩
  rcases h.progress with ⟨out, hout⟩ | hless
  · cases hout
  · exact absurd hless (Nat.lt_irrefl _)

/-- The first is in error and closed, then the second is writable and its flags are restored. -/
def errorThenWritable : List Answer :=
  [.poll (.ok (1, [inError, unmarked])), .poll (.ok (1, [onlyWritable])), .fcntl (.ok ())]

theorem roundInReach_errorThenWritable : RoundInReach none 1 (waitingFor errorThenWritable) := by
  intro round k' used count entries hrun htakes hpoll _
  have hround : (connectRound none 1 [5, 7] ⟨0, 0⟩).run (waitingFor errorThenWritable).kernel =
      some (.again [-1, 7] ⟨0, 0⟩, ⟨errorThenWritable.tail, [.close 5, .poll [5, 7] (-1)]⟩) := rfl
  obtain ⟨-, rfl⟩ := Prod.mk.inj (Option.some.inj (hround.symm.trans hrun))
  have hanswers : [.poll (.ok (1, [inError, unmarked]))] ++ errorThenWritable.tail = used ++ errorThenWritable.tail :=
    htakes
  obtain rfl := List.append_cancel_right hanswers
  obtain ⟨rfl, rfl⟩ := Prod.mk.inj (Except.ok.inj (Answer.poll.inj (List.mem_singleton.mp hpoll)))
  exact ⟨⟨rfl, rfl, Nat.one_pos⟩, by decide, by decide⟩

theorem rounds_handle_ready_two :
    ∃ k, Run (roundStep none) (RoundInReach none) (waitingFor errorThenWritable) [(1, ())] ⟨k, [-1, 7], ⟨0, 0⟩⟩ ∧
      HandlesReady [-1, 7] [onlyWritable] [.poll (.ok (1, [onlyWritable])), .fcntl (.ok ())] [.poll [7] (-1)]
        (.settled ⟨ArakoonReturnCode.success, [-1, 7], 7, ⟨0, 0⟩⟩) := by
  let k : Kernel := ⟨errorThenWritable.tail, [.close 5, .poll [5, 7] (-1)]⟩
  have hnodup : (pendingSockets (waitingFor errorThenWritable).fds).Nodup := by decide
  have hrun : Run (roundStep none) (RoundInReach none) (waitingFor errorThenWritable) [(1, ())]
      ⟨k, [-1, 7], ⟨0, 0⟩⟩ := .call .nil roundInReach_errorThenWritable rfl
  refine ⟨k, hrun, ?_⟩
  have hgoes : k.Goes [.poll (.ok (1, [onlyWritable])), .fcntl (.ok ())] [.poll [7] (-1)]
      ⟨[], .poll [7] (-1) :: k.log⟩ := ⟨rfl, rfl⟩
  have hreports : Reports [-1, 7] 1 [onlyWritable] := ⟨rfl, rfl, Nat.one_pos⟩
  have hin : InReach [-1, 7] 1 [onlyWritable] := ⟨by decide, by decide⟩
  exact ((rounds_handle_ready hnodup hrun).2 1 _ _ _ _ 1 _ rfl hgoes List.mem_cons_self hreports).mpr hin

end Crakoon.Networking
