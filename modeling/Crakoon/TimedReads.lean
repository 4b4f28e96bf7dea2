import Crakoon.ElapsedTime
import Crakoon.ExactTransfer

/-!
# Reads with and without a time limit

A read with a time limit asks `poll` before every `read`. What it reads is what the same read without a limit reads, as
long as no event reports a hang-up while bytes are still to come, and `time_delta` takes nothing of the limit away: the
loop looks at the hang-up first, and the bytes that have arrived before it are not read any more; and in another second
than the first one it gives up a second too early.
-/

namespace Crakoon.Networking

open Programs Machines

/-- What the system calls give to a read with a time limit that does not run out, while the bytes `stream` of those
that it asks for are still to come: `poll` reports that bytes can be read when some have arrived, of which a `read`
gives a part, unless it is to be made again. A peer that has sent everything may hang up, and `poll` report this too.
Where `poll` finds nothing in the time that it is given, it is given less than is left of the limit. -/
inductive TimedReads (budget : Int) (start : Timespec) : Bytes → List Answer → Prop where
  | finished (stop : Timespec) : TimedReads budget start [] [.clock .remainder (.ok stop)]
  | quiet {stream : Bytes} {used : List Answer} {now : Timespec} {revents : Revents} (hstream : stream ≠ [])
      (htime : WithinLimit budget start now) (hin : revents.pollIn = false) (hopen : revents.broken = false)
      (hrest : TimedReads budget start stream used) :
      TimedReads budget start stream (.clock .check (.ok now) :: .poll (.ok (1, [revents])) :: used)
  | starved {stream : Bytes} {used : List Answer} {now : Timespec} (entries : List Revents) (hstream : stream ≠ [])
      (htime : WithinLimit budget start now)
      (hshort : now.ns + timeLeft budget start now * nsPerMs - start.ns < budget * nsPerMs)
      (hrest : TimedReads budget start stream used) :
      TimedReads budget start stream (.clock .check (.ok now) :: .poll (.ok (0, entries)) :: used)
  | again {stream : Bytes} {used : List Answer} {now : Timespec} {revents : Revents} {e : Errno} (hstream : stream ≠ [])
      (htime : WithinLimit budget start now) (hin : revents.pollIn = true) (hopen : revents.broken = false)
      (he : e = eintr ∨ e = eagain) (hrest : TimedReads budget start stream used) :
      TimedReads budget start stream
        (.clock .check (.ok now) :: .poll (.ok (1, [revents])) :: .read (.error e) :: used)
  | piece {bs stream : Bytes} {used : List Answer} {now : Timespec} {revents : Revents} (hbs : bs ≠ [])
      (htime : WithinLimit budget start now) (hin : revents.pollIn = true) (hopen : revents.broken = false)
      (hrest : TimedReads budget start stream used) :
      TimedReads budget start (bs ++ stream)
        (.clock .check (.ok now) :: .poll (.ok (1, [revents])) :: .read (.ok bs) :: used)
  | hangUp {stream : Bytes} {now stop : Timespec} {revents : Revents} (hstream : stream ≠ [])
      (htime : WithinLimit budget start now) (hin : revents.pollIn = true) (hbroken : revents.broken = true) :
      TimedReads budget start stream
        [.clock .check (.ok now), .poll (.ok (1, [revents])), .clock .remainder (.ok stop)]

/-- No `poll` has reported an error or a hang-up. -/
def Unbroken (used : List Answer) : Prop :=
  ∀ count entries, .poll (.ok (count, entries)) ∈ used → ∀ revents ∈ entries, revents.broken = false

/-- No hang-up is reported, every reading at the head of the loop is timely, and `poll` never finds nothing. -/
structure Smooth (budget : Int) (start : Timespec) (used : List Answer) : Prop where
  unbroken : Unbroken used
  timely : ∀ now, .clock .check (.ok now) ∈ used → Timely budget start now
  fed : NeverEmpty used

theorem Smooth.nil (budget : Int) (start : Timespec) : Smooth budget start [] where
  unbroken := fun _ _ hmem => by cases hmem
  timely := fun _ hmem => by cases hmem
  fed := fun _ hmem => by cases hmem

section Smoothness

variable {budget : Int} {start now : Timespec} {used : List Answer}

theorem smooth_cons {a : Answer} :
    Smooth budget start (a :: used) ↔ Smooth budget start [a] ∧ Smooth budget start used := by
  have hmem : ∀ a', a' ∈ a :: used ↔ a' ∈ [a] ∨ a' ∈ used := fun a' => by simp
  constructor
  · intro h
    exact ⟨⟨fun count entries h' => h.unbroken count entries ((hmem _).mpr (.inl h')),
        fun now h' => h.timely now ((hmem _).mpr (.inl h')), fun entries h' => h.fed entries ((hmem _).mpr (.inl h'))⟩,
      ⟨fun count entries h' => h.unbroken count entries ((hmem _).mpr (.inr h')),
        fun now h' => h.timely now ((hmem _).mpr (.inr h')), fun entries h' => h.fed entries ((hmem _).mpr (.inr h'))⟩⟩
  · rintro ⟨h, h'⟩
    exact ⟨fun count entries hin => ((hmem _).mp hin).elim (h.unbroken count entries) (h'.unbroken count entries),
      fun now hin => ((hmem _).mp hin).elim (h.timely now) (h'.timely now),
      fun entries hin => ((hmem _).mp hin).elim (h.fed entries) (h'.fed entries)⟩

theorem smooth_check : Smooth budget start [.clock .check (.ok now)] ↔ Timely budget start now := by
  constructor
  · exact fun h => h.timely now List.mem_cons_self
  · intro h
    refine ⟨fun count entries hmem => ?_, fun now' hmem => ?_, fun entries hmem => ?_⟩
    · cases List.mem_singleton.mp hmem
    · obtain ⟨-, hnow⟩ := Answer.clock.inj (List.mem_singleton.mp hmem)
      exact Except.ok.inj hnow ▸ h
    · cases List.mem_singleton.mp hmem

theorem smooth_poll {revents : Revents} : Smooth budget start [.poll (.ok (1, [revents]))] ↔ revents.broken = false := by
  constructor
  · exact fun h => h.unbroken 1 [revents] List.mem_cons_self revents List.mem_cons_self
  · intro hopen
    refine ⟨fun count entries hmem => ?_, fun now' hmem => ?_, fun entries hmem => ?_⟩
    · obtain ⟨-, rfl⟩ := Prod.mk.inj (Except.ok.inj (Answer.poll.inj (List.mem_singleton.mp hmem)))
      intro r hr
      rw [List.mem_singleton.mp hr]
      exact hopen
    · cases List.mem_singleton.mp hmem
    · obtain ⟨hcount, -⟩ := Prod.mk.inj (Except.ok.inj (Answer.poll.inj (List.mem_singleton.mp hmem)))
      cases hcount

theorem smooth_read {r : Except Errno Bytes} : Smooth budget start [.read r] := by
  refine ⟨fun count entries hmem => ?_, fun now' hmem => ?_, fun entries hmem => ?_⟩ <;>
    cases List.mem_singleton.mp hmem

/-- A round whose `poll` reports no hang-up. -/
theorem smooth_round {revents : Revents} (htimely : Timely budget start now) (hopen : revents.broken = false) :
    Smooth budget start (.clock .check (.ok now) :: .poll (.ok (1, [revents])) :: used) ↔ Smooth budget start used := by
  rw [smooth_cons, smooth_cons (a := .poll (.ok (1, [revents])))]
  exact ⟨fun h => h.2.2, fun h => ⟨smooth_check.mpr htimely, smooth_poll.mpr hopen, h⟩⟩

end Smoothness

/-- A piece that is read. -/
theorem path_piece (fd timeout : Int) {limit : Option (Int × Timespec)} {p : Progress} {bs : Bytes} (hbs : bs ≠ [])
    (hlength : bs.length ≤ p.todo) :
    Path (transferStep .read fd timeout) (.calling .act limit p) [.read (.ok bs)] []
      (loopHead timeout limit (p.move bs)) := by
  have hgiven : given (act .read p.data p.todo) (.read (.ok bs)) = some (.ok bs) :=
    given_read.mpr ⟨rfl, fun bs' hbs' => Except.ok.inj hbs' ▸ hlength⟩
  have hafter : afterAct .read timeout limit p (.ok bs) = loopHead timeout limit (p.move bs) := by
    rw [afterAct, if_neg fun hclosed => hbs hclosed.2]
  rw [← hafter]
  exact .cons (transferStep_eq_some_iff.mpr (.act _ p _ _ hgiven)) (.nil _)

/-- A read under a limit ends early, where not all of its bytes have been read. -/
theorem TimedReads.fails {fd timeout budget : Int} {start : Timespec} {p : Progress} {stream : Bytes}
    {taken : List Answer} (more : List Answer) {calls : List Syscall} {out : Transfer}
    (hpath : Path (transferStep .read fd timeout) (loopHead timeout (some (budget, start)) p) taken calls (.ended out))
    (hrc : out.rc ≠ 0) (hrough : ¬Smooth budget start (taken ++ more)) :
    ∃ taken' more' calls out, taken ++ more = taken' ++ more' ∧
      Path (transferStep .read fd timeout) (loopHead timeout (some (budget, start)) p) taken' calls (.ended out) ∧
      (out.rc = 0 ∧ out.moved = p.done ++ stream ↔ Smooth budget start (taken ++ more)) :=
  ⟨taken, more, calls, out, rfl, hpath, iff_of_false (fun h => hrc h.1) hrough⟩

/-- A reading that is late ends a read that has bytes to come. -/
theorem TimedReads.late (fd timeout : Int) {budget : Int} (hint : budget < 2 ^ 31) {start : Timespec}
    (hstart : start.Normalized) {p : Progress} {stream : Bytes} {now : Timespec} (more : List Answer)
    (htodo : p.todo ≠ 0) (htime : WithinLimit budget start now) (hlate : ¬Timely budget start now) :
    ∃ taken' more' calls out, .clock .check (.ok now) :: more = taken' ++ more' ∧
      Path (transferStep .read fd timeout) (loopHead timeout (some (budget, start)) p) taken' calls (.ended out) ∧
      (out.rc = 0 ∧ out.moved = p.done ++ stream ↔ Smooth budget start (.clock .check (.ok now) :: more)) := by
  have hleft : timeLeft budget start now ≤ 0 := Int.not_lt.mp fun h => hlate ((timeLeft_pos_iff hint hstart htime).mp h)
  exact TimedReads.fails more (path_spent .read fd timeout htodo hleft) timedOut.2 fun h =>
    hlate (h.timely now List.mem_cons_self)

/-- From the head of the loop on, a read ends with success and the bytes that were to come if and only if nothing that
it is given stops it. -/
theorem TimedReads.path (fd timeout : Int) {budget : Int} (hint : budget < 2 ^ 31) {start : Timespec}
    (hstart : start.Normalized) {stream : Bytes} {used : List Answer} (h : TimedReads budget start stream used)
    {p : Progress} (htodo : p.todo = stream.length) :
    ∃ taken more calls out, used = taken ++ more ∧
      Path (transferStep .read fd timeout) (loopHead timeout (some (budget, start)) p) taken calls (.ended out) ∧
      (out.rc = 0 ∧ out.moved = p.done ++ stream ↔ Smooth budget start used) := by
  have hsome : ∀ {stream : Bytes} {p : Progress}, stream ≠ [] → p.todo = stream.length → p.todo ≠ 0 := by
    intro stream p hstream htodo hzero
    exact hstream (List.length_eq_zero_iff.mp (htodo.symm.trans hzero))
  induction h generalizing p with
  | finished stop =>
      have hzero : p.todo = 0 := htodo
      have hhead : loopHead timeout (some (budget, start)) p =
          .calling (.remainder ArakoonReturnCode.success) (some (budget, start)) p := by
        rw [loopHead, if_pos hzero]
      refine ⟨_, [], _, _, (List.append_nil _).symm, hhead ▸ path_remainder .read fd timeout _ stop, ?_⟩
      refine iff_of_true ⟨rfl, (List.append_nil _).symm⟩ ⟨fun _ _ hmem => ?_, fun _ hmem => ?_, fun _ hmem => ?_⟩ <;>
        cases List.mem_singleton.mp hmem
  | @quiet stream used now revents hstream htime hin hopen _ ih =>
      by_cases htimely : Timely budget start now
      · have hleft := (timeLeft_pos_iff hint hstart htime).mpr htimely
        obtain ⟨polled, hpoll⟩ := path_poll .read fd timeout (hsome hstream htodo) hleft (1, [revents])
        rw [afterPoll_quiet .read timeout hopen hin] at hpoll
        obtain ⟨taken, more, calls, out, rfl, hrest, hout⟩ := ih htodo
        refine ⟨_, more, _, out, rfl, hpoll.append hrest, ?_⟩
        rw [hout]
        exact (smooth_round htimely hopen).symm
      · exact TimedReads.late fd timeout hint hstart _ (hsome hstream htodo) htime htimely
  | @starved stream used now entries hstream htime _ _ _ =>
      by_cases htimely : Timely budget start now
      · -- `poll` finds nothing, and the loop takes this for the end of the limit
        have hleft := (timeLeft_pos_iff hint hstart htime).mpr htimely
        obtain ⟨polled, hpoll⟩ := path_poll .read fd timeout (hsome hstream htodo) hleft (0, entries)
        refine TimedReads.fails used hpoll timedOut.2 fun h => ?_
        exact h.fed entries (List.mem_cons_of_mem _ List.mem_cons_self)
      · exact TimedReads.late fd timeout hint hstart _ (hsome hstream htodo) htime htimely
  | @again stream used now revents e hstream htime hin hopen he _ ih =>
      by_cases htimely : Timely budget start now
      · have hleft := (timeLeft_pos_iff hint hstart htime).mpr htimely
        obtain ⟨polled, hpoll⟩ := path_poll .read fd timeout (hsome hstream htodo) hleft (1, [revents])
        rw [afterPoll_ready .read timeout hopen hin] at hpoll
        obtain ⟨taken, more, calls, out, rfl, hrest, hout⟩ := ih htodo
        refine ⟨_, more, _, out, rfl, hpoll.append ((path_again .read fd timeout he).append hrest), ?_⟩
        rw [hout]
        refine Iff.trans ?_ (smooth_round htimely hopen).symm
        exact ⟨fun h => smooth_cons.mpr ⟨smooth_read, h⟩, fun h => (smooth_cons.mp h).2⟩
      · exact TimedReads.late fd timeout hint hstart _ (hsome hstream htodo) htime htimely
  | @piece bs stream used now revents hbs htime hin hopen _ ih =>
      have hlength : p.todo = bs.length + stream.length := htodo.trans List.length_append
      have hmany : bs ++ stream ≠ [] := fun hnil => hbs (List.append_eq_nil_iff.mp hnil).1
      by_cases htimely : Timely budget start now
      · have hleft := (timeLeft_pos_iff hint hstart htime).mpr htimely
        obtain ⟨polled, hpoll⟩ := path_poll .read fd timeout (hsome hmany htodo) hleft (1, [revents])
        rw [afterPoll_ready .read timeout hopen hin] at hpoll
        have hmoved : (p.move bs).todo = stream.length := by
          rw [Progress.move_todo, hlength, Nat.add_sub_cancel_left]
        obtain ⟨taken, more, calls, out, rfl, hrest, hout⟩ := ih hmoved
        refine ⟨_, more, _, out, rfl, hpoll.append ((path_piece fd timeout hbs (by omega)).append hrest), ?_⟩
        rw [← List.append_assoc, ← Progress.move_done, hout]
        refine Iff.trans ?_ (smooth_round htimely hopen).symm
        exact ⟨fun h => smooth_cons.mpr ⟨smooth_read, h⟩, fun h => (smooth_cons.mp h).2⟩
      · exact TimedReads.late fd timeout hint hstart _ (hsome hmany htodo) htime htimely
  | @hangUp stream now stop revents hstream htime hin hbroken =>
      by_cases htimely : Timely budget start now
      · have hleft := (timeLeft_pos_iff hint hstart htime).mpr htimely
        obtain ⟨polled, hpoll⟩ := path_poll .read fd timeout (hsome hstream htodo) hleft (1, [revents])
        obtain ⟨rc, hrc⟩ := afterPoll_broken .read timeout hbroken
        rw [hrc] at hpoll
        refine TimedReads.fails [] (hpoll.append (path_remainder .read fd timeout rc.1 stop)) rc.2 fun h => ?_
        have hopen := h.unbroken 1 [revents] (List.mem_cons_of_mem _ List.mem_cons_self) revents List.mem_cons_self
        rw [hbroken] at hopen
        cases hopen
      · exact TimedReads.late fd timeout hint hstart _ (hsome hstream htodo) htime htimely

/-- Where a read without a time limit succeeds, the same read with a limit that does not run out succeeds with the same
bytes if and only if no hang-up is reported while some of them are still to be read, every reading at the head of the
loop is in the second of the first one or more than a second before the limit, and no `poll` finds nothing in the time
that is left to it then. -/
theorem timed_read_agrees_iff {fd budget : Int} {count : Nat} (hbudget : 0 < budget) (hint : budget < 2 ^ 31)
    {k k' : Kernel} {out : Transfer} (hrun : (pollRead fd count infiniteTimeout).run k = some (out, k'))
    (hrc : out.rc = 0) {start : Timespec} (hstart : start.Normalized) {used : List Answer}
    (hreads : TimedReads budget start out.moved used) (rest : List Answer) (log : List Syscall) :
    ∃ out' k'', (pollRead fd count budget).run ⟨.clock .start (.ok start) :: used ++ rest, log⟩ = some (out', k'') ∧
      (out'.rc = 0 ∧ out'.moved = out.moved ↔ Smooth budget start used) := by
  obtain ⟨before, calls₀, -, hpath₀⟩ := pollAct_run_iff.mp hrun
  have hcount : out.moved.length = count := (exact_of_path (fun hwrite => by cases hwrite) hpath₀).2 hrc
  have hfd : ¬fd < 0 := by
    intro hfd
    rw [transferBegin, if_pos hfd] at hpath₀
    cases hpath₀ with
    | nil => exact notConnected.2 hrc
    | cons hstep _ => cases hstep
  have hfinite : budget ≠ infiniteTimeout := by
    rw [infiniteTimeout]
    omega
  obtain ⟨taken, more, calls, out', rfl, hloop, hout⟩ :=
    hreads.path fd budget hint hstart (p := ⟨[], count, []⟩) hcount.symm
  have hpath : Path (transferStep .read fd budget) (transferBegin fd budget [] count)
      (.clock .start (.ok start) :: taken) calls (.ended out') := by
    rw [transferBegin, if_neg hfd, if_neg hfinite, if_neg (Int.not_le.mpr hbudget), ← List.append_nil calls]
    exact .cons (transferStep_eq_some_iff.mpr (.start none _ (.ok start))) hloop
  refine ⟨out', ⟨more ++ rest, calls ++ log⟩, pollAct_run_iff.mpr ⟨_, calls, ⟨?_, rfl⟩, hpath⟩, hout⟩
  rw [Kernel.Takes, List.cons_append, List.cons_append, List.append_assoc]

/-- A byte that is there, and then the end. -/
theorem timed_read_agrees_iff_byte :
    let used : List Answer := [.clock .check (.ok ⟨0, 0⟩), .poll (.ok (1, [⟨true, false, false, false, false, false⟩])),
      .read (.ok [7]), .clock .remainder (.ok ⟨0, 0⟩)]
    ∃ out' k'', (pollRead 3 1 1000).run ⟨.clock .start (.ok ⟨0, 0⟩) :: used ++ [], []⟩ = some (out', k'') ∧
      (out'.rc = 0 ∧ out'.moved = [7] ↔ Smooth 1000 ⟨0, 0⟩ used) := by
  intro used
  have hrun : (pollRead 3 1 infiniteTimeout).run ⟨[.read (.ok [7])], []⟩ =
      some (⟨ArakoonReturnCode.success, [7], infiniteTimeout⟩, ⟨[], []⟩) := rfl
  have hreads : TimedReads 1000 ⟨0, 0⟩ ([7] ++ []) used :=
    .piece (by decide) ⟨by decide, by decide, by decide⟩ rfl rfl (.finished _)
  exact timed_read_agrees_iff (by decide) (by decide) hrun rfl (by decide) hreads [] []

/-- The peer sends the byte that is asked for and hangs up. Without a time limit it is read; with a limit of a second
the read fails before it has read the byte. Nor is it read, if nobody hangs up, where the read begins at nine tenths of
a second and comes to the head of the loop at the next full one. -/
theorem hangUp_loses_byte :
    let used : List Answer := [.clock .check (.ok ⟨0, 0⟩), .poll (.ok (1, [⟨true, false, false, true, false, false⟩])),
      .clock .remainder (.ok ⟨0, 0⟩)]
    let used' : List Answer := [.clock .check (.ok ⟨1, 0⟩), .poll (.ok (1, [⟨true, false, false, false, false, false⟩])),
      .read (.ok [7]), .clock .remainder (.ok ⟨1, 0⟩)]
    (pollRead 3 1 infiniteTimeout).run ⟨[.read (.ok [7])], []⟩ =
      some (⟨ArakoonReturnCode.success, [7], infiniteTimeout⟩, ⟨[], []⟩) ∧
    TimedReads 1000 ⟨0, 0⟩ [7] used ∧
    (pollRead 3 1 1000).run ⟨.clock .start (.ok ⟨0, 0⟩) :: used, []⟩ =
      some (⟨ArakoonReturnCode.clientNotConnected, [], 1000⟩, ⟨[], [.poll [3] 1000]⟩) ∧
    TimedReads 1000 ⟨0, 900000000⟩ [7] used' ∧
    (pollRead 3 1 1000).run ⟨.clock .start (.ok ⟨0, 900000000⟩) :: used', []⟩ =
      some (⟨ArakoonReturnCode.clientTimeout, [], 0⟩, ⟨used'.tail, []⟩) := by
  refine ⟨rfl, .hangUp (by decide) ⟨by decide, by decide, by decide⟩ rfl rfl, rfl, ?_, rfl⟩
  exact @TimedReads.piece 1000 ⟨0, 900000000⟩ [7] [] _ ⟨1, 0⟩ ⟨true, false, false, false, false, false⟩ (by decide)
    ⟨by decide, by decide, by decide⟩ rfl rfl (.finished ⟨1, 0⟩)

end Crakoon.Networking
