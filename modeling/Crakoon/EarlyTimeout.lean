import Crakoon.TransferMachine

/-!
# Time-outs that come too early

A call with a time limit measures the time that has passed by `time_delta`, which counts a second too many once the
clock has passed to another second. A time-out is never early if it is given from a reading in the second in which the
call began, or from one that is itself late enough, and always early otherwise.
-/

namespace Crakoon.Networking

open Programs Machines

/-- The reading in nanoseconds. -/
def Timespec.ns (t : Timespec) : Int := t.sec * nsPerS + t.nsec

/-- The reading that an answer brings. -/
def Answer.reading : Answer → Option Timespec
  | .clock _ (.ok t) => some t
  | _ => none

def readings (used : List Answer) : List Timespec := used.filterMap Answer.reading

def Answer.isPoll : Answer → Bool
  | .poll _ => true
  | _ => false

def pollCount (used : List Answer) : Nat := used.countP Answer.isPoll

/-- The readings do not go back, and their parts of a second are less than one. -/
structure ClockRuns (used : List Answer) : Prop where
  ordered : (readings used).Pairwise fun t t' => t.ns ≤ t'.ns
  nanoseconds : ∀ t ∈ readings used, 0 ≤ t.nsec ∧ t.nsec < nsPerS

/-- The call may have returned at the moment `m`: no reading was taken later, and a `poll` that found nothing did not
return before its timeout argument had passed since the reading before it. -/
structure MayReturnAt (used : List Answer) (calls : List Syscall) (m : Int) : Prop where
  read : ∀ t ∈ readings used, t.ns ≤ m
  polled : ∀ before after entries fds left now, used = before ++ .poll (.ok (0, entries)) :: after →
    calls.reverse[pollCount before]? = some (.poll fds left) → (readings before).getLast? = some now →
    now.ns + left * nsPerMs ≤ m

/-- No `poll` has found nothing. -/
def NeverEmpty (used : List Answer) : Prop := ∀ entries, .poll (.ok (0, entries)) ∉ used

/-- The answers and calls of a call that ends by a time-out: the budget has been used up at the last reading, or the
`poll` after it has waited for all that was left. -/
inductive TimesOut (budget : Int) (start now : Timespec) : List Answer → List Syscall → Prop where
  | spent {used : List Answer} {calls : List Syscall} (hused : NeverEmpty used)
      (hleft : timeLeft budget start now ≤ 0) : TimesOut budget start now used calls
  | waited {used : List Answer} {calls : List Syscall} (hused : NeverEmpty used)
      (hcount : calls.length = pollCount used) (hleft : 0 < timeLeft budget start now) (fds : List Int)
      (entries : List Revents) :
      TimesOut budget start now (used ++ [.poll (.ok (0, entries))])
        (.poll fds (timeLeft budget start now) :: calls)

/-- Under way since the reading `start`, with a log entry for every `poll` answered, and no time-out so far. -/
structure UnderWay (start : Timespec) (used : List Answer) (polls : Nat) : Prop where
  started : (readings used).head? = some start
  quiet : NeverEmpty used
  polls : polls = pollCount used

/-- What a call under a time limit has read, polled and logged when it comes to a state. -/
def TransferState.Timed (budget : Int) (used : List Answer) (calls : List Syscall) : TransferState → Prop
  | .calling .start _ _ => used = [] ∧ calls = []
  | .calling (.poll now) limit _ => ∃ start fds before, limit = some (budget, start) ∧
      UnderWay start used before.length ∧ (readings used).getLast? = some now ∧ 0 < timeLeft budget start now ∧
      calls = .poll fds (timeLeft budget start now) :: before
  | .calling (.remainder rc) _ _ => rc ≠ timedOut.1
  | .calling _ limit _ => ∃ start, limit = some (budget, start) ∧ UnderWay start used calls.length
  | .ended out => out.rc = timedOut.1 → ∃ start now, (readings used).head? = some start ∧
      (readings used).getLast? = some now ∧ TimesOut budget start now used calls

theorem Errno.rc_ne_timedOut (e : Errno) : e.rc ≠ timedOut.1 := by
  have hpos : (0 : Int) < e.1 := Int.natCast_pos.mpr e.2
  have hlt : -(e.1 : Int) < 1280 := by omega
  exact Int.ne_of_lt hlt

theorem readings_append (used more : List Answer) : readings (used ++ more) = readings used ++ readings more :=
  List.filterMap_append

theorem pollCount_append (used more : List Answer) : pollCount (used ++ more) = pollCount used + pollCount more :=
  List.countP_append

/-- Another answer, which is no time-out. -/
theorem UnderWay.next {start : Timespec} {used : List Answer} {polls polls' : Nat} (h : UnderWay start used polls)
    {a : Answer} (ha : ∀ entries, a ≠ .poll (.ok (0, entries))) (hpolls : polls' = polls + pollCount [a]) :
    UnderWay start (used ++ [a]) polls' where
  started := by rw [readings_append, List.head?_append, h.started, Option.some_or]
  quiet := by
    intro entries hmem
    rcases List.mem_append.mp hmem with hused | hnew
    · exact h.quiet entries hused
    · exact ha entries (List.mem_singleton.mp hnew).symm
  polls := by rw [pollCount_append, ← h.polls, hpolls]

section Steps

variable {action : NetworkAction} {fd budget : Int}

theorem UnderWay.loopHead {start : Timespec} {used : List Answer} {calls : List Syscall}
    (h : UnderWay start used calls.length) (p : Progress) :
    (loopHead budget (some (budget, start)) p).Timed budget used calls := by
  rw [Networking.loopHead]
  split_ifs with htodo
  · exact (by decide : (ArakoonReturnCode.success.rc : ArakoonRc) ≠ timedOut.1)
  · exact ⟨start, rfl, h⟩

theorem timed_failed {rc : ArakoonRc} (hrc : rc ≠ timedOut.1) (moved : Bytes) (timeout : Int) (used : List Answer)
    (calls : List Syscall) : (TransferState.ended ⟨rc, moved, timeout⟩).Timed budget used calls :=
  fun htimeout => absurd htimeout hrc

theorem TransferStep.timed {s s' : TransferState} {a : Answer} {used : List Answer} {calls more : List Syscall}
    (hstep : TransferStep action fd budget s a more s') (h : s.Timed budget used calls) :
    s'.Timed budget (used ++ [a]) (more ++ calls) := by
  cases hstep with
  | start limit p r =>
      obtain ⟨rfl, rfl⟩ := h
      cases r with
      | error e => exact timed_failed e.rc_ne_timedOut _ _ _ _
      | ok start =>
          have hway : UnderWay start [.clock .start (.ok start)] ([] : List Syscall).length :=
            ⟨rfl, fun entries hmem => (by cases List.mem_singleton.mp hmem), rfl⟩
          exact hway.loopHead p
  | check budget' start p r =>
      obtain ⟨start', hlimit, hway⟩ := h
      obtain ⟨rfl, rfl⟩ := Prod.mk.inj (Option.some.inj hlimit)
      cases r with
      | error e => exact timed_failed e.rc_ne_timedOut _ _ _ _
      | ok now =>
          have hnext : UnderWay start (used ++ [.clock .check (.ok now)]) calls.length :=
            hway.next (fun entries heq => by cases heq) rfl
          have hlast : (readings (used ++ [.clock .check (.ok now)])).getLast? = some now := by
            rw [readings_append]
            exact List.getLast?_concat
          rw [afterCheck]
          split_ifs with hspent
          · exact fun _ => ⟨start, now, hnext.started, hlast, .spent hnext.quiet hspent⟩
          · exact ⟨start, [fd], calls, rfl, hnext, hlast, Int.not_le.mp hspent, rfl⟩
  | poll now limit p r =>
      obtain ⟨start, fds, before, hlimit, hway, hlast, hleft, rfl⟩ := h
      obtain rfl := Option.some.inj hlimit
      cases r with
      | error e => exact e.rc_ne_timedOut
      | ok found =>
          obtain ⟨count, entries⟩ := found
          dsimp only [afterPoll]
          have hnext : count ≠ 0 → UnderWay start (used ++ [.poll (.ok (count, entries))]) (before.length + 1) := by
            intro hcount
            refine hway.next (fun entries' heq => hcount ?_) rfl
            exact (Prod.mk.inj (Except.ok.inj (Answer.poll.inj heq))).1
          split_ifs with hcount hbroken herr hevent
          · subst hcount
            intro _
            have hreadings : readings (used ++ [.poll (.ok (0, entries))]) = readings used := by
              rw [readings_append]
              exact List.append_nil _
            refine ⟨start, now, ?_, ?_, .waited hway.quiet hway.polls hleft fds entries⟩
            · rw [hreadings, hway.started]
            · rw [hreadings, hlast]
          · exact (by decide : networkError.1 ≠ timedOut.1)
          · exact (by decide : notConnected.1 ≠ timedOut.1)
          · exact ⟨start, rfl, hnext hcount⟩
          · have hway : UnderWay start (used ++ [.poll (.ok (count, entries))])
                (Syscall.poll fds (timeLeft budget start now) :: before).length := hnext hcount
            exact hway.loopHead p
  | act limit p a r hact =>
      obtain ⟨start, rfl, hway⟩ := h
      have hnext : UnderWay start (used ++ [a]) calls.length := by
        cases action with
        | read =>
            obtain ⟨rfl, -⟩ := given_read.mp hact
            exact hway.next (fun entries heq => by cases heq) rfl
        | write =>
            obtain ⟨written, rfl, -⟩ := given_write.mp hact
            exact hway.next (fun entries heq => by cases heq) rfl
      cases r with
      | error e =>
          rw [afterAct]
          split_ifs with hagain
          · exact hnext.loopHead p
          · exact timed_failed e.rc_ne_timedOut _ _ _ _
      | ok bs =>
          rw [afterAct]
          split_ifs with hclosed
          · exact timed_failed (by decide) _ _ _ _
          · exact hnext.loopHead (p.move bs)
  | remainder rc budget' start p r =>
      cases r with
      | error e => exact timed_failed e.rc_ne_timedOut _ _ _ _
      | ok now => exact timed_failed h _ _ _ _

/-- How a call times out that starts with time left. -/
theorem timesOut_of_path {data : Bytes} {count : Nat} (hbudget : 0 < budget) {used : List Answer}
    {calls : List Syscall} {out : Transfer}
    (h : Path (transferStep action fd budget) (transferBegin fd budget data count) used calls (.ended out))
    (hrc : out.rc = timedOut.1) : ∃ start now, (readings used).head? = some start ∧
      (readings used).getLast? = some now ∧ TimesOut budget start now used calls := by
  have hstart : (transferBegin fd budget data count).Timed budget [] [] := by
    rw [transferBegin]
    split_ifs with hfd hinfinite hspent
    · exact timed_failed (by decide) _ _ _ _
    · rw [infiniteTimeout] at hinfinite
      omega
    · omega
    · exact ⟨rfl, rfl⟩
  exact h.invariant (I := fun used calls s => s.Timed budget used calls) hstart
    (fun _ _ _ _ _ _ htimed hstep => (transferStep_eq_some_iff.mp hstep).timed htimed) hrc

end Steps

/-! ### The moment of a time-out -/

theorem ClockRuns.le_last {used : List Answer} (h : ClockRuns used) {t now : Timespec} (ht : t ∈ readings used)
    (hlast : (readings used).getLast? = some now) : t.ns ≤ now.ns := by
  obtain ⟨before, hreadings⟩ := List.getLast?_eq_some_iff.mp hlast
  have hordered := h.ordered
  rw [hreadings] at hordered ht
  rcases List.mem_append.mp ht with hbefore | hnow
  · exact (List.pairwise_append.mp hordered).2.2 t hbefore now List.mem_cons_self
  · exact Int.le_of_eq (congrArg Timespec.ns (List.mem_singleton.mp hnow))

/-- A call that times out may return when the time that was left at its last reading has passed since. -/
theorem TimesOut.mayReturnAt_iff {budget : Int} {start now : Timespec} {used : List Answer} {calls : List Syscall}
    (h : TimesOut budget start now used calls) (hclock : ClockRuns used)
    (hlast : (readings used).getLast? = some now) {m : Int} :
    MayReturnAt used calls m ↔ now.ns + max 0 (timeLeft budget start now) * nsPerMs ≤ m := by
  have hmem : now ∈ readings used := List.mem_of_getLast? hlast
  cases h with
  | spent hused hleft =>
      have hzero : max 0 (timeLeft budget start now) = 0 := by omega
      rw [hzero, Int.zero_mul, Int.add_zero]
      refine ⟨fun hm => hm.read now hmem, fun hm => ⟨fun t ht => Int.le_trans (hclock.le_last ht hlast) hm, ?_⟩⟩
      intro before after entries fds left now' hsplit
      exact absurd (hsplit ▸ List.mem_append_right _ List.mem_cons_self) (hused entries)
  | @waited used calls hused hcount hleft fds entries =>
      have hreadings : readings (used ++ [.poll (.ok (0, entries))]) = readings used := by
        rw [readings_append]
        exact List.append_nil _
      have hcall : ((Syscall.poll fds (timeLeft budget start now)) :: calls).reverse[pollCount used]? =
          some (.poll fds (timeLeft budget start now)) := by
        rw [List.reverse_cons, ← hcount, ← List.length_reverse, List.getElem?_concat_length]
      have hmax : max 0 (timeLeft budget start now) = timeLeft budget start now := by omega
      rw [hmax]
      constructor
      · intro hm
        exact hm.polled used [] entries fds _ now rfl hcall (hreadings ▸ hlast)
      · intro hm
        have hwait : 0 ≤ timeLeft budget start now * nsPerMs :=
          Int.mul_nonneg (Int.le_of_lt hleft) (by decide)
        refine ⟨fun t ht => ?_, ?_⟩
        · have hle := hclock.le_last ht hlast
          omega
        · intro before after entries' fds' left now' hsplit hcall' hnow'
          have hafter : after = [] := by
            rcases List.eq_nil_or_concat' after with hnil | ⟨front, x, rfl⟩
            · exact hnil
            · rw [← List.cons_append, ← List.append_assoc] at hsplit
              have hfront := (List.append_inj' hsplit rfl).1
              exact absurd (hfront ▸ List.mem_append_right _ List.mem_cons_self) (hused entries')
          rw [hafter] at hsplit
          obtain rfl := (List.append_inj' hsplit rfl).1
          obtain ⟨-, rfl⟩ := Syscall.poll.inj (Option.some.inj (hcall'.symm.trans hcall))
          obtain rfl := Option.some.inj (hnow'.symm.trans (hreadings ▸ hlast))
          exact hm

theorem timeDelta_same {start now : Timespec} (hsec : start.sec = now.sec) (hle : start.ns ≤ now.ns) :
    timeDelta start now = (now.ns - start.ns) / nsPerMs := by
  have hnonneg : 0 ≤ now.nsec - start.nsec := by
    simp only [Timespec.ns, hsec] at hle
    omega
  have hns : now.ns - start.ns = now.nsec - start.nsec := by
    simp only [Timespec.ns, hsec]
    omega
  calc timeDelta start now = (now.nsec - start.nsec).tdiv nsPerMs := by rw [timeDelta, if_pos hsec]
    _ = (now.nsec - start.nsec) / nsPerMs := Int.tdiv_eq_ediv_of_nonneg hnonneg
    _ = (now.ns - start.ns) / nsPerMs := by rw [hns]

/-- In another second it counts a second more than has passed. -/
theorem timeDelta_other {start now : Timespec} (hsec : start.sec ≠ now.sec) (hstart : start.nsec < nsPerS)
    (hnow : 0 ≤ now.nsec) : timeDelta start now = (now.ns - start.ns) / nsPerMs + msPerS := by
  have hpos : 0 ≤ nsPerS - start.nsec + now.nsec := by omega
  have hms : nsPerMs = 1000000 := rfl
  have hs : nsPerS = 1000000000 := rfl
  have hpers : msPerS = 1000 := rfl
  calc timeDelta start now = (nsPerS - start.nsec + now.nsec).tdiv nsPerMs + (now.sec - start.sec) * msPerS := by
        rw [timeDelta, if_neg hsec]
    _ = (nsPerS - start.nsec + now.nsec) / nsPerMs + (now.sec - start.sec) * msPerS := by
        rw [Int.tdiv_eq_ediv_of_nonneg hpos]
    _ = (now.ns - start.ns) / nsPerMs + msPerS := by
        rw [hms, hs, hpers, Timespec.ns, Timespec.ns, hs]
        omega

theorem timeLeft_of_bounds {budget : Int} {start now : Timespec} (hlow : -2 ^ 31 ≤ budget - timeDelta start now)
    (hhigh : budget - timeDelta start now < 2 ^ 31) : timeLeft budget start now = budget - timeDelta start now := by
  have hcast : ((2 ^ 32 : Nat) : Int) = 4294967296 := rfl
  unfold timeLeft int32 Int.bmod
  rw [hcast]
  dsimp only
  split_ifs <;> omega

/-- What passes until a time-out suffices if and only if the last reading is in the second of the first one, or by
itself late enough. -/
theorem enough_iff {budget : Int} (hpos : 0 < budget) (hint : budget < 2 ^ 31) {start now : Timespec}
    (hstart : 0 ≤ start.nsec ∧ start.nsec < nsPerS) (hnow : 0 ≤ now.nsec ∧ now.nsec < nsPerS)
    (hle : start.ns ≤ now.ns) :
    budget * nsPerMs ≤ now.ns + max 0 (timeLeft budget start now) * nsPerMs - start.ns ↔
      now.sec = start.sec ∨ budget * nsPerMs ≤ now.ns - start.ns := by
  have hms : nsPerMs = 1000000 := rfl
  have hs : nsPerS = 1000000000 := rfl
  have hpers : msPerS = 1000 := rfl
  by_cases hsec : start.sec = now.sec
  · have hdelta := timeDelta_same hsec hle
    have hshort : now.ns - start.ns < nsPerS := by
      simp only [Timespec.ns, hsec]
      omega
    have hleft : timeLeft budget start now = budget - timeDelta start now :=
      timeLeft_of_bounds (by rw [hdelta, hms]; omega) (by rw [hdelta, hms]; omega)
    refine ⟨fun _ => .inl hsec.symm, fun _ => ?_⟩
    rw [hleft, hdelta, hms]
    omega
  · have hdelta := timeDelta_other hsec hstart.2 hnow.1
    refine ⟨fun henough => .inr ?_, fun hcases => ?_⟩
    · -- too little time had passed at the last reading: a second is missing from what was left
      by_contra hshort
      rw [hms] at hshort
      have hleft : timeLeft budget start now = budget - timeDelta start now :=
        timeLeft_of_bounds (by rw [hdelta, hms, hpers]; omega) (by rw [hdelta, hms, hpers]; omega)
      rw [hleft, hdelta, hms, hpers] at henough
      omega
    · have hlate := hcases.resolve_left fun hsame => hsec hsame.symm
      rw [hms] at hlate ⊢
      omega

/-- A time-out of a call with the time limit `budget`, in milliseconds, is given when these have really passed since
the first reading, if and only if the last reading is in the second of the first one or by itself late enough. -/
theorem timeout_in_time_iff {action : NetworkAction} {fd budget : Int} {data : Bytes} {count : Nat}
    (hpos : 0 < budget) (hint : budget < 2 ^ 31) {k k' : Kernel} {out : Transfer}
    (hrun : (pollAct action fd data count budget).run k = some (out, k')) (hrc : out.rc = timedOut.1)
    {used : List Answer} {calls : List Syscall} (hgoes : k.Goes used calls k') (hclock : ClockRuns used) :
    ∃ start now, (readings used).head? = some start ∧ (readings used).getLast? = some now ∧
      ((∀ m, MayReturnAt used calls m → budget * nsPerMs ≤ m - start.ns) ↔
        now.sec = start.sec ∨ budget * nsPerMs ≤ now.ns - start.ns) := by
  obtain ⟨used', calls', hgoes', hpath⟩ := pollAct_run_iff.mp hrun
  obtain ⟨rfl, rfl⟩ := hgoes'.unique hgoes
  obtain ⟨start, now, hfirst, hlast, htimes⟩ := timesOut_of_path hpos hpath hrc
  have hstart := List.mem_of_head? hfirst
  have hnow := List.mem_of_getLast? hlast
  refine ⟨start, now, hfirst, hlast, ?_⟩
  rw [← enough_iff hpos hint (hclock.nanoseconds start hstart) (hclock.nanoseconds now hnow)
    (hclock.le_last hstart hlast)]
  constructor
  · intro hall
    exact hall _ ((htimes.mayReturnAt_iff hclock hlast).mpr (Int.le_refl _))
  · intro henough m hm
    have hlate := (htimes.mayReturnAt_iff hclock hlast).mp hm
    omega

/-- A call that finds nothing within the second in which it began: it has waited for its whole second. -/
theorem timeout_in_time_iff_same :
    let used : List Answer := [.clock .start (.ok ⟨0, 0⟩), .clock .check (.ok ⟨0, 0⟩), .poll (.ok (0, []))]
    ∃ start now, (readings used).head? = some start ∧ (readings used).getLast? = some now ∧
      ((∀ m, MayReturnAt used [.poll [3] 1000] m → 1000 * nsPerMs ≤ m - start.ns) ↔
        now.sec = start.sec ∨ 1000 * nsPerMs ≤ now.ns - start.ns) := by
  intro used
  have hrun : (pollAct .read 3 [] 1 1000).run ⟨used, []⟩ = some (⟨timedOut.1, [], 0⟩, ⟨[], [.poll [3] 1000]⟩) := rfl
  have hclock : ClockRuns used := ⟨by decide, by decide⟩
  exact timeout_in_time_iff (by decide) (by decide) hrun rfl ⟨rfl, rfl⟩ hclock

/-- With a time limit of a second, a call that begins at nine tenths of a second times out at the next full one, a
tenth of a second later. -/
theorem early_timeout :
    let used : List Answer := [.clock .start (.ok ⟨0, 900000000⟩), .clock .check (.ok ⟨1, 0⟩)]
    (pollAct .read 3 [] 1 1000).run ⟨used, []⟩ = some (⟨timedOut.1, [], 0⟩, ⟨[], []⟩) ∧ ClockRuns used ∧
      ∃ m, MayReturnAt used [] m ∧ m - Timespec.ns ⟨0, 900000000⟩ < 1000 * nsPerMs := by
  intro used
  refine ⟨rfl, ⟨by decide, by decide⟩, Timespec.ns ⟨1, 0⟩, ⟨by decide, ?_⟩, by decide⟩
  intro before after entries fds left now _ hcall
  cases hcall

end Crakoon.Networking
