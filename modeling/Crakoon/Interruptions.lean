import Crakoon.ElapsedTime
import Crakoon.ExactTransfer

/-!
# Interrupted system calls

A signal may interrupt a `poll`, a `read` or a `write`. The loop makes a `read` or a `write` again that was interrupted,
and goes on as if nothing had happened, unless `time_delta` leaves nothing of the limit then; an interrupted `poll` ends
the call. Both runs are paths of one machine, which an interruption that is handled brings back to the state that it was
in.
-/

namespace Crakoon.Networking

open Programs Machines

/-- An answer of the `read` or `write` of an action. -/
def NetworkAction.Makes : NetworkAction → Answer → Prop
  | .read, .read _ => True
  | .write, .write _ => True
  | _, _ => False

/-- Why a call with interruptions ends before the call without them: a `poll` was interrupted, or it quit while some
of the limit was left; with what the call without them takes from there on. -/
inductive Stop where
  | interrupted (left : List Answer)
  | timedOut (left : List Answer)

/-- A round of the loop that takes the limit for over while some of it is left: nothing is left by `time_delta`, or
`poll` finds nothing in a time that is shorter than what is left. -/
inductive QuitsEarly (budget : Int) (start : Timespec) : List Answer → Prop where
  | spent {now : Timespec} (htime : WithinLimit budget start now) (hleft : timeLeft budget start now ≤ 0) :
      QuitsEarly budget start [.clock .check (.ok now)]
  | starved {now : Timespec} (entries : List Revents) (htime : WithinLimit budget start now)
      (hleft : 0 < timeLeft budget start now)
      (hshort : now.ns + timeLeft budget start now * nsPerMs - start.ns < budget * nsPerMs) :
      QuitsEarly budget start [.clock .check (.ok now), .poll (.ok (0, entries))]

/-- `used'` are the answers `used` with interruptions among them, of a call with the limit `limit`. After an
interrupted `read` or `write` a call with a limit asks once more whether the descriptor is ready, and the clock is read
later than without them. A later reading may leave time where there was some, or make the call quit before the limit
is over. The interruption of a `poll`, or a round that quits, is followed by whatever the schedule holds. -/
inductive Interrupted (action : NetworkAction) :
    Option (Int × Timespec) → List Answer → List Answer → Option Stop → Prop where
  | done (limit : Option (Int × Timespec)) : Interrupted action limit [] [] none
  | same {limit : Option (Int × Timespec)} {used used' : List Answer} {stopped : Option Stop} (a : Answer)
      (hrest : Interrupted action limit used used' stopped) :
      Interrupted action limit (a :: used) (a :: used') stopped
  | later {budget : Int} {start now now' : Timespec} {use : ClockUse} {used used' : List Answer}
      {stopped : Option Stop} (huse : use ≠ .start)
      (hleft : use = .check → (timeLeft budget start now ≤ 0 ↔ timeLeft budget start now' ≤ 0))
      (hrest : Interrupted action (some (budget, start)) used used' stopped) :
      Interrupted action (some (budget, start)) (.clock use (.ok now) :: used) (.clock use (.ok now') :: used') stopped
  | early {budget : Int} {start now : Timespec} {used last : List Answer} (more : List Answer)
      (hleft : 0 < timeLeft budget start now) (hlast : QuitsEarly budget start last) :
      Interrupted action (some (budget, start)) (.clock .check (.ok now) :: used) (last ++ more)
        (some (.timedOut used))
  | untimed {a : Answer} {used used' : List Answer} {stopped : Option Stop} (ha : action.Makes a)
      (hrest : Interrupted action none (a :: used) used' stopped) :
      Interrupted action none (a :: used) (action.refused eintr :: used') stopped
  | timed {budget : Int} {start now : Timespec} {revents : Revents} {a : Answer} {used used' : List Answer}
      {stopped : Option Stop} (ha : action.Makes a) (hleft : 0 < timeLeft budget start now)
      (hopen : revents.broken = false) (hready : action.event revents = true)
      (hrest : Interrupted action (some (budget, start))
        (.clock .check (.ok now) :: .poll (.ok (1, [revents])) :: a :: used) used' stopped) :
      Interrupted action (some (budget, start)) (a :: used) (action.refused eintr :: used') stopped
  | timedEarly {budget : Int} {start : Timespec} {a : Answer} {used last : List Answer} (more : List Answer)
      (ha : action.Makes a) (hlast : QuitsEarly budget start last) :
      Interrupted action (some (budget, start)) (a :: used) (action.refused eintr :: (last ++ more))
        (some (.timedOut (a :: used)))
  | poll {budget : Int} {start stop : Timespec} {r : Except Errno (Nat × List Revents)} {used : List Answer}
      (more : List Answer) : Interrupted action (some (budget, start)) (.poll r :: used)
        (.poll (.error eintr) :: .clock .remainder (.ok stop) :: more) (some (.interrupted (.poll r :: used)))

/-- The limit under which a call runs that takes the answers `used`. -/
def callLimit (timeout : Int) (used : List Answer) : Option (Int × Timespec) :=
  if timeout = infiniteTimeout then none
  else match used with
    | .clock .start (.ok start) :: _ => some (timeout, start)
    | _ => none

theorem callLimit_of_infinite {timeout : Int} (h : timeout = infiniteTimeout) (used : List Answer) :
    callLimit timeout used = none := by
  unfold callLimit
  exact if_pos h

theorem callLimit_of_start {timeout : Int} (h : timeout ≠ infiniteTimeout) (start : Timespec) (used : List Answer) :
    callLimit timeout (.clock .start (.ok start) :: used) = some (timeout, start) := by
  unfold callLimit
  exact if_neg h

/-- The last answers are those of a clock that is interrupted, or of an interrupted `poll`. -/
inductive LastInterrupted : List Answer → Prop where
  | clock (before : List Answer) (use : ClockUse) : LastInterrupted (before ++ [.clock use (.error eintr)])
  | poll (before : List Answer) (stop : Timespec) :
      LastInterrupted (before ++ [.poll (.error eintr), .clock .remainder (.ok stop)])

theorem lastInterrupted_concat {used : List Answer} {a : Answer} : LastInterrupted (used ++ [a]) ↔
    (∃ use, a = .clock use (.error eintr)) ∨
      ∃ stop, a = .clock .remainder (.ok stop) ∧ ∃ before, used = before ++ [.poll (.error eintr)] := by
  constructor
  · intro h
    generalize hall : used ++ [a] = all at h
    cases h with
    | clock before use => exact .inl ⟨use, (List.append_inj' hall rfl).2 |> List.singleton_inj.mp⟩
    | poll before stop =>
        have hsplit : used ++ [a] = (before ++ [.poll (.error eintr)]) ++ [.clock .remainder (.ok stop)] := by
          rw [hall, List.append_assoc]
          rfl
        obtain ⟨hused, ha⟩ := List.append_inj' hsplit rfl
        exact .inr ⟨stop, List.singleton_inj.mp ha, before, hused⟩
  · rintro (⟨use, rfl⟩ | ⟨stop, rfl, before, rfl⟩)
    · exact .clock used use
    · rw [List.append_assoc]
      exact .poll before stop

theorem not_lastInterrupted {used : List Answer} {a : Answer} (ha : ∀ use r, a ≠ .clock use r) :
    ¬LastInterrupted (used ++ [a]) := by
  intro hlast
  rcases lastInterrupted_concat.mp hlast with ⟨use, rfl⟩ | ⟨stop, rfl, -⟩
  · exact ha _ _ rfl
  · exact ha _ _ rfl

theorem lastInterrupted_clock_error {used : List Answer} {use : ClockUse} {e : Errno} :
    LastInterrupted (used ++ [.clock use (.error e)]) ↔ e = eintr := by
  rw [lastInterrupted_concat]
  constructor
  · rintro (⟨use', hlast⟩ | ⟨stop, hlast, -⟩)
    · exact Except.error.inj (Answer.clock.inj hlast).2
    · cases (Answer.clock.inj hlast).2
  · rintro rfl
    exact .inl ⟨use, rfl⟩

theorem lastInterrupted_clock_ok {used : List Answer} {use : ClockUse} {now : Timespec} :
    LastInterrupted (used ++ [.clock use (.ok now)]) ↔
      use = .remainder ∧ ∃ before, used = before ++ [.poll (.error eintr)] := by
  rw [lastInterrupted_concat]
  constructor
  · rintro (⟨use', hlast⟩ | ⟨stop, hlast, hbefore⟩)
    · cases (Answer.clock.inj hlast).2
    · exact ⟨(Answer.clock.inj hlast).1, hbefore⟩
  · rintro ⟨rfl, hbefore⟩
    exact .inr ⟨now, rfl, hbefore⟩

/-- An answer at which a call may time out: nothing is left at a reading, or `poll` finds nothing. -/
def Answer.TimesOut : Answer → Prop
  | .clock .check (.ok _) => True
  | .poll (.ok (count, _)) => count = 0
  | _ => False

/-- The last answer is one at which a call may time out. -/
def LastTimesOut (used : List Answer) : Prop := ∃ a, used.getLast? = some a ∧ a.TimesOut

theorem lastTimesOut_concat {used : List Answer} {a : Answer} : LastTimesOut (used ++ [a]) ↔ a.TimesOut := by
  simp [LastTimesOut]

def TransferState.moved : TransferState → Bytes
  | .calling _ _ p => p.done
  | .ended out => out.moved

/-- A call that has made its first reading, and makes no other call with nothing left to move than the last one. -/
def TransferState.Under (limit : Option (Int × Timespec)) : TransferState → Prop
  | .calling .start _ _ => False
  | .calling (.remainder _) limit' _ => limit' = limit
  | .calling _ limit' p => limit' = limit ∧ p.todo ≠ 0
  | .ended _ => True

/-- The code of a state that ends is that of a time-out if and only if the last answer is one at which a call may time
out. -/
def TransferState.Expired (used : List Answer) : TransferState → Prop
  | .calling (.remainder rc) _ _ => rc ≠ timedOut.1
  | .calling _ _ _ => True
  | .ended out => out.rc = timedOut.1 ↔ LastTimesOut used

/-- The code of a state that ends is that of an interruption if and only if the last answers are. -/
def TransferState.Signalled (used : List Answer) : TransferState → Prop
  | .calling (.remainder rc) _ _ => rc = eintr.rc ↔ ∃ before, used = before ++ [.poll (.error eintr)]
  | .calling _ _ _ => True
  | .ended out => out.rc = eintr.rc ↔ LastInterrupted used

section Steps

variable {action : NetworkAction} {fd timeout : Int} {s s' : TransferState} {a : Answer} {used : List Answer}
  {calls : List Syscall}

theorem loopHead_moved (timeout : Int) (limit : Option (Int × Timespec)) (p : Progress) :
    (loopHead timeout limit p).moved = p.done := by
  cases limit with
  | none => rw [loopHead]; split_ifs <;> rfl
  | some limit => rfl

/-- A `read` or `write` moves as many bytes as its answer brings or accepts. -/
theorem transferred_given {data : Bytes} {todo : Nat} {r : Except Errno Bytes}
    (h : given (act action data todo) a = some r) :
    transferred action [a] = match r with
      | .error _ => 0
      | .ok bs => bs.length := by
  cases action with
  | read =>
      obtain ⟨rfl, -⟩ := given_read.mp h
      cases r with
      | error e => rfl
      | ok bs => simp [transferred, arrivals, Answer.arrived]
  | write =>
      obtain ⟨written, rfl, rfl, hle⟩ := given_write.mp h
      cases written with
      | error e => rfl
      | ok n => simp [transferred, acceptances, Answer.accepted, Except.map, hle n rfl]

/-- What a step moves is what its answer brings or accepts. -/
theorem TransferStep.moves (h : TransferStep action fd timeout s a calls s') :
    ∃ bs, s'.moved = s.moved ++ bs ∧ bs.length = transferred action [a] := by
  have hsilent : ∀ {a : Answer} {s s' : TransferState}, s'.moved = s.moved → transferred action [a] = 0 →
      ∃ bs, s'.moved = s.moved ++ bs ∧ bs.length = transferred action [a] := fun hmoved hnone =>
    ⟨[], hmoved.trans (List.append_nil _).symm, hnone.symm⟩
  cases h with
  | start limit p r =>
      refine hsilent ?_ (by cases action <;> rfl)
      cases r with
      | error e => rfl
      | ok start => rfl
  | check budget start p r =>
      refine hsilent ?_ (by cases action <;> rfl)
      cases r with
      | error e => rfl
      | ok now => rw [afterCheck]; split_ifs <;> rfl
  | poll now limit p r =>
      refine hsilent ?_ (by cases action <;> rfl)
      cases r with
      | error e => rfl
      | ok found =>
          dsimp only [afterPoll]
          split_ifs <;> rfl
  | act limit p a r hact =>
      have hcount := transferred_given hact
      cases r with
      | error e =>
          refine hsilent ?_ hcount
          rw [afterAct]
          split_ifs
          · exact loopHead_moved timeout limit p
          · rfl
      | ok bs =>
          rw [afterAct]
          split_ifs with hclosed
          · obtain ⟨-, rfl⟩ := hclosed
            exact hsilent rfl hcount
          · exact ⟨bs, loopHead_moved timeout limit (p.move bs), hcount.symm⟩
  | remainder rc budget start p r =>
      refine hsilent ?_ (by cases action <;> rfl)
      cases r with
      | error e => rfl
      | ok now => rfl

/-- What a path moves is what its answers bring or accept. -/
theorem moves_of_path (h : Path (transferStep action fd timeout) s used calls s') :
    ∃ bs, s'.moved = s.moved ++ bs ∧ bs.length = transferred action used := by
  induction h with
  | nil s => exact ⟨[], (List.append_nil _).symm, by cases action <;> rfl⟩
  | @cons s s₁ s' a used out outs hstep _ ih =>
      obtain ⟨first, hfirst, hlength⟩ := (transferStep_eq_some_iff.mp hstep).moves
      obtain ⟨more, hmore, hrest⟩ := ih
      refine ⟨first ++ more, by rw [hmore, hfirst, List.append_assoc], ?_⟩
      rw [← List.singleton_append, transferred_append, List.length_append, hlength, hrest]

theorem loopHead_under (timeout : Int) {limit : Option (Int × Timespec)} (p : Progress) :
    (loopHead timeout limit p).Under limit := by
  cases limit with
  | none =>
      rw [loopHead]
      split_ifs with htodo
      · exact trivial
      · exact ⟨rfl, htodo⟩
  | some limit =>
      rw [loopHead]
      split_ifs with htodo
      · exact rfl
      · exact ⟨rfl, htodo⟩

theorem TransferStep.under {limit : Option (Int × Timespec)} (h : TransferStep action fd timeout s a calls s')
    (hs : s.Under limit) : s'.Under limit := by
  cases h with
  | start limit' p r => exact hs.elim
  | check budget start p r =>
      cases r with
      | error e => exact trivial
      | ok now =>
          rw [afterCheck]
          split_ifs
          · exact trivial
          · exact hs
  | poll now limit' p r =>
      obtain ⟨rfl, htodo⟩ := hs
      cases r with
      | error e => exact rfl
      | ok found =>
          dsimp only [afterPoll]
          split_ifs
          · exact trivial
          · exact rfl
          · exact rfl
          · exact ⟨rfl, htodo⟩
          · exact loopHead_under timeout p
  | act limit' p a r hact =>
      obtain ⟨rfl, htodo⟩ := hs
      cases r with
      | error e =>
          rw [afterAct]
          split_ifs
          · exact loopHead_under timeout p
          · exact trivial
      | ok bs =>
          rw [afterAct]
          split_ifs
          · exact trivial
          · exact loopHead_under timeout (p.move bs)
  | remainder rc budget start p r =>
      cases r with
      | error e => exact trivial
      | ok now => exact trivial

theorem Errno.rc_eq_iff {e e' : Errno} : e.rc = e'.rc ↔ e = e' := by
  rw [Errno.rc, Errno.rc, Int.neg_inj, Int.natCast_inj, Subtype.ext_iff]

/-- The head of the loop ends no call by an interruption. -/
theorem loopHead_signalled (timeout : Int) (limit : Option (Int × Timespec)) (p : Progress)
    (hlast : ¬LastInterrupted (used ++ [a])) (ha : a ≠ .poll (.error eintr)) :
    (loopHead timeout limit p).Signalled (used ++ [a]) := by
  have hrc : ArakoonReturnCode.success.rc ≠ eintr.rc := by decide
  cases limit with
  | none =>
      rw [loopHead]
      split_ifs
      · exact iff_of_false hrc hlast
      · exact trivial
  | some limit =>
      rw [loopHead]
      split_ifs
      · refine iff_of_false hrc ?_
        rintro ⟨before, hbefore⟩
        exact ha (List.singleton_inj.mp (List.append_inj' hbefore rfl).2)
      · exact trivial

theorem TransferStep.signalled (h : TransferStep action fd timeout s a calls s') (hs : s.Signalled used) :
    s'.Signalled (used ++ [a]) := by
  have htimedOut : timedOut.1 ≠ eintr.rc := by decide
  have hclosed : ArakoonReturnCode.clientNetworkError.rc ≠ eintr.rc := by decide
  cases h with
  | start limit p r =>
      cases r with
      | error e => exact Errno.rc_eq_iff.trans lastInterrupted_clock_error.symm
      | ok start =>
          have hlast : ¬LastInterrupted (used ++ [.clock .start (.ok start)]) := by
            intro hlast
            obtain ⟨huse, -⟩ := lastInterrupted_clock_ok.mp hlast
            cases huse
          exact loopHead_signalled timeout (some (timeout, start)) p hlast fun ha => by cases ha
  | check budget start p r =>
      cases r with
      | error e => exact Errno.rc_eq_iff.trans lastInterrupted_clock_error.symm
      | ok now =>
          rw [afterCheck]
          split_ifs
          · refine iff_of_false htimedOut fun hlast => ?_
            obtain ⟨huse, -⟩ := lastInterrupted_clock_ok.mp hlast
            cases huse
          · exact trivial
  | poll now limit p r =>
      have hquiet : ¬LastInterrupted (used ++ [.poll r]) := not_lastInterrupted fun use r' ha => by cases ha
      cases r with
      | error e =>
          refine Errno.rc_eq_iff.trans ⟨?_, ?_⟩
          · rintro rfl
            exact ⟨used, rfl⟩
          · rintro ⟨before, hbefore⟩
            exact Except.error.inj (Answer.poll.inj (List.singleton_inj.mp (List.append_inj' hbefore rfl).2))
      | ok found =>
          have hfailed : ∀ rc : ArakoonRc, rc ≠ eintr.rc →
              (TransferState.calling (.remainder rc) (some limit) p).Signalled (used ++ [.poll (.ok found)]) := by
            intro rc hrc
            refine iff_of_false hrc ?_
            rintro ⟨before, hbefore⟩
            cases List.singleton_inj.mp (List.append_inj' hbefore rfl).2
          dsimp only [afterPoll]
          split_ifs
          · exact iff_of_false htimedOut hquiet
          · exact hfailed _ (by decide)
          · exact hfailed _ (by decide)
          · exact trivial
          · exact loopHead_signalled timeout _ p hquiet fun ha => by cases ha
  | act limit p a r hact =>
      have hquiet : ¬LastInterrupted (used ++ [a]) := not_lastInterrupted (ne_clock_of_given hact)
      have hpoll : a ≠ .poll (.error eintr) := ne_poll_of_given hact _
      cases r with
      | error e =>
          rw [afterAct]
          split_ifs with hagain
          · exact loopHead_signalled timeout limit p hquiet hpoll
          · exact iff_of_false (fun hrc => hagain (.inl (Errno.rc_eq_iff.mp hrc))) hquiet
      | ok bs =>
          rw [afterAct]
          split_ifs
          · exact iff_of_false hclosed hquiet
          · exact loopHead_signalled timeout limit _ hquiet hpoll
  | remainder rc budget start p r =>
      cases r with
      | error e => exact Errno.rc_eq_iff.trans lastInterrupted_clock_error.symm
      | ok now => exact hs.trans ⟨fun hbefore => lastInterrupted_clock_ok.mpr ⟨rfl, hbefore⟩,
          fun hlast => (lastInterrupted_clock_ok.mp hlast).2⟩

/-- Where the rest of a call is refused by an interruption, from a `poll` on. -/
theorem signalled_of_path {now : Timespec} {limit : Option (Int × Timespec)} {p : Progress} {out : Transfer}
    (h : Path (transferStep action fd timeout) (.calling (.poll now) limit p) used calls (.ended out)) :
    out.rc = eintr.rc ↔ LastInterrupted used :=
  h.invariant (I := fun used _ s => s.Signalled used) trivial
    fun _ _ _ _ _ _ hs hstep => (transferStep_eq_some_iff.mp hstep).signalled hs

theorem expired_ended {rc : ArakoonRc} (hrc : rc ≠ timedOut.1) (ha : ¬a.TimesOut) (moved : Bytes) (timeout : Int) :
    (TransferState.ended ⟨rc, moved, timeout⟩).Expired (used ++ [a]) :=
  iff_of_false hrc fun hlast => ha (lastTimesOut_concat.mp hlast)

theorem expired_timedOut (ha : a.TimesOut) (moved : Bytes) (timeout : Int) :
    (TransferState.ended ⟨timedOut.1, moved, timeout⟩).Expired (used ++ [a]) :=
  iff_of_true rfl (lastTimesOut_concat.mpr ha)

theorem loopHead_expired (timeout : Int) (limit : Option (Int × Timespec)) (p : Progress) (ha : ¬a.TimesOut) :
    (loopHead timeout limit p).Expired (used ++ [a]) := by
  have hrc : ArakoonReturnCode.success.rc ≠ timedOut.1 := by decide
  cases limit with
  | none =>
      rw [loopHead]
      split_ifs
      · exact expired_ended hrc ha _ _
      · exact trivial
  | some limit =>
      rw [loopHead]
      split_ifs
      · exact hrc
      · exact trivial

theorem TransferStep.expired (h : TransferStep action fd timeout s a calls s') (hs : s.Expired used) :
    s'.Expired (used ++ [a]) := by
  cases h with
  | start limit p r =>
      have hquiet : ¬(Answer.clock .start r).TimesOut := id
      cases r with
      | error e => exact expired_ended e.rc_ne_timedOut hquiet _ _
      | ok start => exact loopHead_expired timeout (some (timeout, start)) p hquiet
  | check budget start p r =>
      cases r with
      | error e => exact expired_ended e.rc_ne_timedOut id _ _
      | ok now =>
          have htimes : (Answer.clock .check (.ok now)).TimesOut := trivial
          rw [afterCheck]
          split_ifs
          · exact expired_timedOut htimes _ _
          · exact trivial
  | poll now limit p r =>
      cases r with
      | error e => exact e.rc_ne_timedOut
      | ok found =>
          obtain ⟨count, entries⟩ := found
          have htimes : (Answer.poll (.ok (count, entries))).TimesOut ↔ count = 0 := Iff.rfl
          dsimp only [afterPoll]
          split_ifs with hcount hbroken herr hevent
          · exact expired_timedOut (htimes.mpr hcount) _ _
          · exact (by decide : networkError.1 ≠ timedOut.1)
          · exact (by decide : notConnected.1 ≠ timedOut.1)
          · exact trivial
          · exact loopHead_expired timeout (some limit) p hcount
  | act limit p a r hact =>
      have hquiet : ¬a.TimesOut := by
        cases action with
        | read =>
            obtain ⟨rfl, -⟩ := given_read.mp hact
            exact id
        | write =>
            obtain ⟨written, rfl, -⟩ := given_write.mp hact
            exact id
      cases r with
      | error e =>
          rw [afterAct]
          split_ifs
          · exact loopHead_expired timeout limit p hquiet
          · exact expired_ended e.rc_ne_timedOut hquiet _ _
      | ok bs =>
          rw [afterAct]
          split_ifs
          · exact expired_ended (by decide) hquiet _ _
          · exact loopHead_expired timeout limit (p.move bs) hquiet
  | remainder rc budget start p r =>
      cases r with
      | error e => exact expired_ended e.rc_ne_timedOut id _ _
      | ok now => exact expired_ended hs id _ _

/-- Where the rest of a call times out, from a `poll` or from a `read` or `write` on. -/
theorem expired_of_path {point : Point} (hpoint : point = .act ∨ ∃ now, point = .poll now)
    {limit : Option (Int × Timespec)} {p : Progress} {out : Transfer}
    (h : Path (transferStep action fd timeout) (.calling point limit p) used calls (.ended out)) :
    out.rc = timedOut.1 ↔ LastTimesOut used :=
  h.invariant (I := fun used _ s => s.Expired used) (by rcases hpoint with rfl | ⟨now, rfl⟩ <;> exact trivial)
    fun _ _ _ _ _ _ hs hstep => (transferStep_eq_some_iff.mp hstep).expired hs

end Steps

/-! ### The two runs -/

/-- States that differ in what the clock has shown only. -/
inductive Alike : TransferState → TransferState → Prop where
  | same (s : TransferState) : Alike s s
  | polling (now now' : Timespec) (limit : Option (Int × Timespec)) (p : Progress) :
      Alike (.calling (.poll now) limit p) (.calling (.poll now') limit p)
  | ended {out out' : Transfer} (hrc : out'.rc = out.rc) (hmoved : out'.moved = out.moved) :
      Alike (.ended out) (.ended out')

section Runs

variable {action : NetworkAction} {fd timeout : Int} {s s' t : TransferState} {calls : List Syscall}

theorem Alike.step (h : Alike s t) {a : Answer} (hstep : TransferStep action fd timeout s a calls s') :
    ∃ calls' t', TransferStep action fd timeout t a calls' t' ∧ Alike s' t' := by
  cases h with
  | same s => exact ⟨calls, s', hstep, .same s'⟩
  | polling now now' limit p =>
      cases hstep with
      | poll now limit p r => exact ⟨[], _, .poll now' limit p r, .same _⟩
  | ended hrc hmoved => cases hstep

/-- A later reading, which leaves time where the earlier one did. -/
theorem Alike.later (h : Alike s t) {budget : Int} {start now now' : Timespec} {use : ClockUse}
    (hs : s.Under (some (budget, start))) (huse : use ≠ .start)
    (hleft : use = .check → (timeLeft budget start now ≤ 0 ↔ timeLeft budget start now' ≤ 0))
    (hstep : TransferStep action fd timeout s (.clock use (.ok now)) calls s') :
    ∃ calls' t', TransferStep action fd timeout t (.clock use (.ok now')) calls' t' ∧ Alike s' t' := by
  cases h with
  | same s =>
      cases hstep with
      | start limit p r => exact absurd rfl huse
      | check budget' start' p r =>
          obtain ⟨hlimit, -⟩ := hs
          obtain ⟨rfl, rfl⟩ := Prod.mk.inj (Option.some.inj hlimit)
          refine ⟨_, _, .check budget' start' p (.ok now'), ?_⟩
          rw [afterCheck, afterCheck]
          by_cases hspent : timeLeft budget' start' now ≤ 0
          · rw [if_pos hspent, if_pos ((hleft rfl).mp hspent)]
            exact .same _
          · rw [if_neg hspent, if_neg fun hspent' => hspent ((hleft rfl).mpr hspent')]
            exact .polling now now' _ p
      | act limit p a r hact => exact absurd rfl (ne_clock_of_given hact use (.ok now))
      | remainder rc budget' start' p r =>
          exact ⟨[], _, .remainder rc budget' start' p (.ok now'), .ended rfl rfl⟩
  | polling now₁ now₁' limit p => cases hstep
  | ended hrc hmoved => cases hstep

/-- What the run with interruptions comes to: what the one without comes to, the interruption of a `poll`, or a
time-out. -/
inductive Outcome (action : NetworkAction) (out out' : Transfer) : Option Stop → Prop where
  | unseen (hrc : out'.rc = out.rc) (hmoved : out'.moved = out.moved) : Outcome action out out' none
  | interrupted {left : List Answer} (hrc : out'.rc = eintr.rc) (hends : out.rc = eintr.rc ↔ LastInterrupted left)
      (hmoved : out'.moved = out.moved ↔ transferred action left = 0) :
      Outcome action out out' (some (.interrupted left))
  | timedOut {left : List Answer} (hrc : out'.rc = timedOut.1) (hends : out.rc = timedOut.1 ↔ LastTimesOut left)
      (hmoved : out'.moved = out.moved ↔ transferred action left = 0) : Outcome action out out' (some (.timedOut left))

/-- An answer of a `read` or `write` is one to the call that the machine makes then. -/
theorem TransferStep.act_of_makes {a : Answer} (h : TransferStep action fd timeout s a calls s')
    (ha : action.Makes a) : ∃ limit p, s = .calling .act limit p := by
  cases h with
  | act limit p a r hact => exact ⟨limit, p, rfl⟩
  | _ => cases action <;> exact ha.elim

/-- One that is interrupted instead leads back to the head of the loop. -/
theorem TransferStep.made_again {limit : Option (Int × Timespec)} {a : Answer} (hs : s.Under limit)
    (h : TransferStep action fd timeout s a calls s') (ha : action.Makes a) :
    ∃ p, p.todo ≠ 0 ∧ s = .calling .act limit p ∧
      Path (transferStep action fd timeout) s [action.refused eintr] [] (loopHead timeout limit p) := by
  obtain ⟨limit', p, rfl⟩ := h.act_of_makes ha
  obtain ⟨rfl, htodo⟩ := hs
  exact ⟨p, htodo, rfl, path_again action fd timeout (.inl rfl)⟩

theorem TransferStep.poll_of_answer {r : Except Errno (Nat × List Revents)}
    (h : TransferStep action fd timeout s (.poll r) calls s') :
    ∃ now limit p, s = .calling (.poll now) limit p := by
  cases h with
  | poll now limit p r => exact ⟨now, some limit, p, rfl⟩
  | act limit p a _ hact => exact absurd rfl (ne_poll_of_given hact r)

/-- What is moved from a state on is all that its end and the state differ in. -/
theorem moved_eq_iff {used : List Answer} {out : Transfer}
    (h : Path (transferStep action fd timeout) s used calls (.ended out)) :
    s.moved = out.moved ↔ transferred action used = 0 := by
  obtain ⟨bs, hmoved, hlength⟩ := moves_of_path h
  have hout : out.moved = s.moved ++ bs := hmoved
  rw [hout, ← hlength, List.length_eq_zero_iff]
  exact List.self_eq_append_right

/-- A call that quits in the next round. -/
theorem QuitsEarly.path {budget : Int} {start : Timespec} {last : List Answer} (h : QuitsEarly budget start last)
    {p : Progress} (htodo : p.todo ≠ 0) :
    ∃ calls, Path (transferStep action fd timeout) (loopHead timeout (some (budget, start)) p) last calls
      (.ended ⟨Networking.timedOut.1, p.done, 0⟩) := by
  cases h with
  | spent _ hleft => exact ⟨_, path_spent action fd timeout htodo hleft⟩
  | starved entries _ hleft _ => exact path_poll action fd timeout htodo hleft (0, entries)

/-- A reading that is taken at the head of the loop is one of a call under its limit, and leads on to `poll`. -/
theorem TransferStep.check_of_under {budget : Int} {start now : Timespec} (hs : s.Under (some (budget, start)))
    (hleft : 0 < timeLeft budget start now)
    (h : TransferStep action fd timeout s (.clock .check (.ok now)) calls s') :
    ∃ p, p.todo ≠ 0 ∧ s = .calling .check (some (budget, start)) p ∧
      s' = .calling (.poll now) (some (budget, start)) p := by
  cases h with
  | check budget' start' p r =>
      obtain ⟨hlimit, htodo⟩ := hs
      obtain ⟨rfl, rfl⟩ := Prod.mk.inj (Option.some.inj hlimit)
      refine ⟨p, htodo, rfl, ?_⟩
      rw [afterCheck, if_neg (Int.not_le.mpr hleft)]
  | act limit p a r hact => exact absurd rfl (ne_clock_of_given hact .check (.ok now))

/-- The first reading is not changed. -/
theorem Interrupted.of_start {limit : Option (Int × Timespec)} {r : Except Errno Timespec} {used used' : List Answer}
    {stopped : Option Stop} (h : Interrupted action limit (.clock .start r :: used) used' stopped) :
    ∃ used₁, used' = .clock .start r :: used₁ ∧ Interrupted action limit used used₁ stopped := by
  cases h with
  | same a hrest => exact ⟨_, rfl, hrest⟩
  | later huse hleft hrest => exact absurd rfl huse
  | untimed ha hrest => cases action <;> exact ha.elim
  | timed ha hleft hopen hready hrest => cases action <;> exact ha.elim
  | timedEarly more ha hlast => cases action <;> exact ha.elim

/-- A call from states that are alike, with interruptions and without. -/
theorem Interrupted.path {limit : Option (Int × Timespec)} {used used' : List Answer}
    {stopped : Option Stop} (h : Interrupted action limit used used' stopped) {out : Transfer}
    (hs : s.Under limit) (hst : Alike s t) (hpath : Path (transferStep action fd timeout) s used calls (.ended out)) :
    ∃ taken more calls' out', used' = taken ++ more ∧
      Path (transferStep action fd timeout) t taken calls' (.ended out') ∧ Outcome action out out' stopped := by
  induction h generalizing s t calls with
  | done limit =>
      cases hpath with
      | nil =>
          cases hst with
          | same => exact ⟨[], [], [], out, rfl, .nil _, .unseen rfl rfl⟩
          | ended hrc hmoved => exact ⟨[], [], [], _, rfl, .nil _, .unseen hrc hmoved⟩
  | same a _ ih =>
      obtain ⟨out₁, s₁, outs, hstep, hrest, -⟩ := Path.cons_iff.mp hpath
      have hstep₁ := transferStep_eq_some_iff.mp hstep
      obtain ⟨calls₁, t₁, hstep₁', hst₁⟩ := hst.step hstep₁
      obtain ⟨taken, more, calls', out', rfl, hpath', hout⟩ := ih (hstep₁.under hs) hst₁ hrest
      exact ⟨a :: taken, more, _, out', rfl, .cons (transferStep_eq_some_iff.mpr hstep₁') hpath', hout⟩
  | later huse hleft _ ih =>
      obtain ⟨out₁, s₁, outs, hstep, hrest, -⟩ := Path.cons_iff.mp hpath
      have hstep₁ := transferStep_eq_some_iff.mp hstep
      obtain ⟨calls₁, t₁, hstep₁', hst₁⟩ := hst.later hs huse hleft hstep₁
      obtain ⟨taken, more, calls', out', rfl, hpath', hout⟩ := ih (hstep₁.under hs) hst₁ hrest
      exact ⟨_ :: taken, more, _, out', rfl, .cons (transferStep_eq_some_iff.mpr hstep₁') hpath', hout⟩
  | @early budget start now used last more hleft hlast =>
      obtain ⟨out₁, s₁, outs, hstep, hrest, -⟩ := Path.cons_iff.mp hpath
      obtain ⟨p, htodo, rfl, rfl⟩ := (transferStep_eq_some_iff.mp hstep).check_of_under hs hleft
      have hhead : loopHead timeout (some (budget, start)) p = .calling .check (some (budget, start)) p := by
        rw [loopHead, if_neg htodo]
      cases hst with
      | same =>
          obtain ⟨calls', hup⟩ : ∃ calls', Path (transferStep action fd timeout)
              (loopHead timeout (some (budget, start)) p) last calls' (.ended ⟨Networking.timedOut.1, p.done, 0⟩) :=
            hlast.path htodo
          rw [hhead] at hup
          have hexpired := expired_of_path (.inr ⟨now, rfl⟩) hrest
          exact ⟨last, more, calls', _, rfl, hup, .timedOut rfl hexpired (moved_eq_iff hrest)⟩
  | @untimed a used used' stopped ha _ ih =>
      obtain ⟨out₁, s₁, outs, hstep, -, -⟩ := Path.cons_iff.mp hpath
      obtain ⟨p, htodo, rfl, hagain⟩ := (transferStep_eq_some_iff.mp hstep).made_again hs ha
      -- the call is made again in the state that it was made in
      rw [loopHead, if_neg htodo] at hagain
      cases hst with
      | same =>
          obtain ⟨taken, more, calls', out', rfl, hpath', hout⟩ := ih hs (.same _) hpath
          exact ⟨_ :: taken, more, _, out', rfl, hagain.append hpath', hout⟩
  | @timed budget start now revents a used used' stopped ha hleft hopen hready _ ih =>
      obtain ⟨out₁, s₁, outs, hstep, -, -⟩ := Path.cons_iff.mp hpath
      obtain ⟨p, htodo, rfl, hagain⟩ := (transferStep_eq_some_iff.mp hstep).made_again hs ha
      -- without the interruption, the call could have come there by another round
      obtain ⟨polled, hround⟩ := path_poll action fd timeout htodo hleft (1, [revents])
      rw [afterPoll_ready action timeout hopen hready] at hround
      cases hst with
      | same =>
          obtain ⟨taken, more, calls', out', rfl, hpath', hout⟩ :=
            ih (loopHead_under timeout p) (.same _) (hround.append hpath)
          exact ⟨_ :: taken, more, _, out', rfl, hagain.append hpath', hout⟩
  | @timedEarly budget start a used last more ha hlast =>
      obtain ⟨out₁, s₁, outs, hstep, -, -⟩ := Path.cons_iff.mp hpath
      obtain ⟨p, htodo, rfl, hagain⟩ := (transferStep_eq_some_iff.mp hstep).made_again hs ha
      cases hst with
      | same =>
          obtain ⟨calls', hup⟩ : ∃ calls', Path (transferStep action fd timeout)
              (loopHead timeout (some (budget, start)) p) last calls' (.ended ⟨Networking.timedOut.1, p.done, 0⟩) :=
            hlast.path htodo
          exact ⟨_ :: last, more, _, _, rfl, hagain.append hup,
            .timedOut rfl (expired_of_path (.inl rfl) hpath) (moved_eq_iff hpath)⟩
  | @poll budget start stop r used more =>
      obtain ⟨out₁, s₁, outs, hstep, -, -⟩ := Path.cons_iff.mp hpath
      obtain ⟨now, limit, p, rfl⟩ := (transferStep_eq_some_iff.mp hstep).poll_of_answer
      obtain ⟨rfl, -⟩ := hs
      obtain ⟨now', rfl⟩ : ∃ now', t = .calling (.poll now') (some (budget, start)) p := by
        cases hst with
        | same => exact ⟨now, rfl⟩
        | polling _ now' => exact ⟨now', rfl⟩
      have hstop : Path (transferStep action fd timeout) (.calling (.poll now') (some (budget, start)) p)
          [.poll (.error eintr), .clock .remainder (.ok stop)] []
          (.ended ⟨eintr.rc, p.done, timeLeft budget start stop⟩) :=
        .cons (transferStep_eq_some_iff.mpr (.poll now' (budget, start) p (.error eintr)))
          (path_remainder action fd timeout eintr.rc stop)
      exact ⟨_, more, _, _, rfl, hstop, .interrupted rfl (signalled_of_path hpath) (moved_eq_iff hpath)⟩

end Runs

/-- From there on, the call without interruptions would have moved nothing more and would have been interrupted itself in
the end, or have timed out itself. -/
def Stop.Unnoticed (action : NetworkAction) : Stop → Prop
  | .interrupted left => LastInterrupted left ∧ transferred action left = 0
  | .timedOut left => LastTimesOut left ∧ transferred action left = 0

theorem Outcome.agrees_iff {action : NetworkAction} {out out' : Transfer} {stopped : Option Stop}
    (h : Outcome action out out' stopped) :
    (out'.rc = out.rc ∧ out'.moved = out.moved ↔ ∀ stop, stopped = some stop → stop.Unnoticed action) ∧
      (out.rc = 0 → (out'.rc = 0 ↔ stopped = none)) := by
  have heintr : eintr.rc ≠ 0 := by decide
  have hstops : ∀ {stop : Stop}, (∀ stop', some stop = some stop' → stop'.Unnoticed action) ↔ stop.Unnoticed action := by
    intro stop
    exact ⟨fun hall => hall stop rfl, fun hunnoticed stop' hstop => Option.some.inj hstop ▸ hunnoticed⟩
  cases h with
  | unseen hrc hmoved =>
      refine ⟨iff_of_true ⟨hrc, hmoved⟩ fun stop hstop => (by cases hstop), fun hzero => iff_of_true ?_ rfl⟩
      rw [hrc, hzero]
  | @interrupted left hrc hends hmoved =>
      constructor
      · rw [hrc, eq_comm, hends, hmoved, hstops]
        exact Iff.rfl
      · intro hzero
        rw [hrc]
        exact iff_of_false heintr fun hnone => by cases hnone
  | @timedOut left hrc hends hmoved =>
      constructor
      · rw [hrc, eq_comm, hends, hmoved, hstops]
        exact Iff.rfl
      · intro hzero
        rw [hrc]
        exact iff_of_false Networking.timedOut.2 fun hnone => by cases hnone

/-- Interruptions change neither the code of a call nor the bytes that it moves if and only if they are none of a
`poll` and none of them makes the call quit while some of the limit is left, unless the call would have moved nothing
more from there on and would have been interrupted itself in the end, or have timed out itself. Of a call that succeeds
they make one that fails, for which an operation drops its connection, if and only if one of them is that of a `poll` or
makes the call quit. -/
theorem interruptions_unseen_iff {action : NetworkAction} {fd timeout : Int} {data : Bytes} {count : Nat}
    {k k' : Kernel} {out : Transfer} (hrun : (pollAct action fd data count timeout).run k = some (out, k'))
    {used used' : List Answer} (htakes : k.Takes used k') {stopped : Option Stop}
    (hinterrupted : Interrupted action (callLimit timeout used) used used' stopped) (rest : List Answer)
    (log : List Syscall) :
    ∃ out' k'', (pollAct action fd data count timeout).run ⟨used' ++ rest, log⟩ = some (out', k'') ∧
      (out'.rc = out.rc ∧ out'.moved = out.moved ↔ ∀ stop, stopped = some stop → stop.Unnoticed action) ∧
      (out.rc = 0 → (out'.rc = 0 ↔ stopped = none)) := by
  obtain ⟨used₀, calls, hgoes, hpath⟩ := pollAct_run_iff.mp hrun
  obtain rfl := hgoes.takes.unique htakes
  obtain ⟨taken, more, calls', out', rfl, hpath', hout⟩ : ∃ taken more calls' out', used' = taken ++ more ∧
      Path (transferStep action fd timeout) (transferBegin fd timeout data count) taken calls' (.ended out') ∧
      Outcome action out out' stopped := by
    have hended : ∀ out limit, (TransferState.ended out).Under limit := fun _ _ => trivial
    rw [transferBegin] at hpath ⊢
    split_ifs at hpath ⊢ with hfd hinfinite hspent
    · exact hinterrupted.path (hended _ _) (.same _) hpath
    · rw [callLimit_of_infinite hinfinite] at hinterrupted
      exact hinterrupted.path (loopHead_under timeout _) (.same _) hpath
    · exact hinterrupted.path (hended _ _) (.same _) hpath
    · cases hpath with
      | @cons _ s₁ _ a used calls₁ outs hstep hrest =>
          cases transferStep_eq_some_iff.mp hstep with
          | start limit p r =>
              obtain ⟨used₁, rfl, hlater⟩ := hinterrupted.of_start
              obtain ⟨taken, more, calls', out', rfl, hpath', hout⟩ : ∃ taken more calls' out', used₁ = taken ++ more ∧
                  Path (transferStep action fd timeout) (afterStart timeout ⟨data, count, []⟩ r) taken calls'
                    (.ended out') ∧ Outcome action out out' stopped := by
                cases r with
                | error e => exact hlater.path (hended _ _) (.same _) hrest
                | ok start =>
                    rw [callLimit_of_start hinfinite] at hlater
                    exact hlater.path (loopHead_under timeout _) (.same _) hrest
              exact ⟨_ :: taken, more, _, out', rfl, .cons hstep hpath', hout⟩
  refine ⟨out', ⟨more ++ rest, calls' ++ log⟩, pollAct_run_iff.mpr ⟨taken, calls', ⟨?_, rfl⟩, hpath'⟩, hout.agrees_iff⟩
  exact List.append_assoc ..

/-- A `read` that is interrupted once before it gives its byte. -/
theorem interruptions_unseen_iff_read :
    let used : List Answer := [.clock .start (.ok ⟨0, 0⟩), .clock .check (.ok ⟨0, 0⟩),
      .poll (.ok (1, [⟨true, false, false, false, false, false⟩])), .read (.ok [7]), .clock .remainder (.ok ⟨0, 0⟩)]
    let used' : List Answer := [.clock .start (.ok ⟨0, 0⟩), .clock .check (.ok ⟨0, 0⟩),
      .poll (.ok (1, [⟨true, false, false, false, false, false⟩])), .read (.error eintr), .clock .check (.ok ⟨0, 0⟩),
      .poll (.ok (1, [⟨true, false, false, false, false, false⟩])), .read (.ok [7]), .clock .remainder (.ok ⟨0, 0⟩)]
    (pollAct .read 3 [] 1 1000).run ⟨used, []⟩ =
      some (⟨ArakoonReturnCode.success, [7], 1000⟩, ⟨[], [.poll [3] 1000]⟩) ∧
    ∃ out' k'', (pollAct .read 3 [] 1 1000).run ⟨used' ++ [], []⟩ = some (out', k'') ∧
      (out'.rc = 0 ∧ out'.moved = [7] ↔ ∀ stop, (none : Option Stop) = some stop → stop.Unnoticed .read) ∧
      ((0 : ArakoonRc) = 0 → (out'.rc = 0 ↔ (none : Option Stop) = none)) := by
  intro used used'
  have hrun : (pollAct .read 3 [] 1 1000).run ⟨used, []⟩ =
      some (⟨ArakoonReturnCode.success, [7], 1000⟩, ⟨[], [.poll [3] 1000]⟩) := rfl
  have hinterrupted : Interrupted .read (callLimit 1000 used) used used' none :=
    .same _ (.same _ (.same _ (.timed trivial (by decide) rfl rfl
      (.same _ (.same _ (.same _ (.same _ (.done _))))))))
  have htakes : Kernel.Takes ⟨used, []⟩ used ⟨[], [.poll [3] 1000]⟩ := rfl
  exact ⟨hrun, interruptions_unseen_iff hrun htakes hinterrupted [] []⟩

/-- A byte is written within a second. Where the `poll` before it is interrupted once, the call fails; and so it does
where the `write` is interrupted and the next reading is in another second, with most of the limit left. -/
theorem interrupted_poll_seen :
    let used : List Answer := [.clock .start (.ok ⟨0, 950000000⟩), .clock .check (.ok ⟨0, 950000000⟩),
      .poll (.ok (1, [⟨false, true, false, false, false, false⟩])), .write (.ok 1),
      .clock .remainder (.ok ⟨0, 950000000⟩)]
    let used' : List Answer := [.clock .start (.ok ⟨0, 950000000⟩), .clock .check (.ok ⟨0, 950000000⟩),
      .poll (.error eintr), .clock .remainder (.ok ⟨0, 950000000⟩)]
    let used'' : List Answer := [.clock .start (.ok ⟨0, 950000000⟩), .clock .check (.ok ⟨0, 950000000⟩),
      .poll (.ok (1, [⟨false, true, false, false, false, false⟩])), .write (.error eintr), .clock .check (.ok ⟨1, 0⟩)]
    Interrupted .write (callLimit 1000 used) used used' (some (.interrupted (used.drop 2))) ∧
    Interrupted .write (callLimit 1000 used) used used'' (some (.timedOut (used.drop 3))) ∧
    (pollWrite 3 [7] 1000).run ⟨used, []⟩ =
      some (⟨ArakoonReturnCode.success, [7], 1000⟩, ⟨[], [.poll [3] 1000]⟩) ∧
    (pollWrite 3 [7] 1000).run ⟨used', []⟩ = some (⟨eintr.rc, [], 1000⟩, ⟨[], [.poll [3] 1000]⟩) ∧
    (pollWrite 3 [7] 1000).run ⟨used'', []⟩ =
      some (⟨ArakoonReturnCode.clientTimeout, [], 0⟩, ⟨[], [.poll [3] 1000]⟩) :=
  ⟨.same _ (.same _ (.poll [])),
    .same _ (.same _ (.same _ (@Interrupted.timedEarly .write 1000 ⟨0, 950000000⟩ (.write (.ok 1)) _
      [.clock .check (.ok ⟨1, 0⟩)] [] trivial (.spent ⟨by decide, by decide, by decide⟩ (by decide))))),
    rfl, rfl, rfl⟩

end Crakoon.Networking
