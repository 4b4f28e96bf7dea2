import Crakoon.Machines
import Crakoon.LoopRounds

/-!
# The transfer loop as a machine

`_arakoon_networking_poll_act` once more, as a machine that takes the answers of the system calls one by one: where
it stands when it makes its next call, what it has moved and what is to be moved. The loop computes what the machine
does (`pollAct_run`), so what every step of the machine keeps holds of every call.
-/

namespace Crakoon.Networking

open Programs Machines

/-- What a call gives on an answer. -/
def given {α : Type} (call : Os α) (a : Answer) : Option α := (call.run ⟨[a], []⟩).map Prod.fst

/-- The call that is made next: the first reading of the clock, the one at the head of the loop, `poll`, the `read` or
`write`, or the last reading, before the call ends with a code. -/
inductive Point where
  | start
  | check
  | poll (now : Timespec)
  | act
  | remainder (rc : ArakoonRc)

/-- The bytes of a block that are still to be written, how many are to be moved and what has been moved. -/
structure Progress where
  data : Bytes
  todo : Nat
  done : Bytes

inductive TransferState where
  | calling (point : Point) (limit : Option (Int × Timespec)) (progress : Progress)
  | ended (out : Transfer)

def TransferState.halted : TransferState → Option Transfer
  | .calling _ _ _ => none
  | .ended out => some out

section Machine

variable (action : NetworkAction) (fd timeout : Int)

/-- The head of the loop. -/
def loopHead (limit : Option (Int × Timespec)) (p : Progress) : TransferState :=
  match limit with
  | none => if p.todo = 0 then .ended ⟨ArakoonReturnCode.success, p.done, timeout⟩ else .calling .act none p
  | some limit =>
      .calling (if p.todo = 0 then .remainder ArakoonReturnCode.success else .check) (some limit) p

def afterStart (p : Progress) : Except Errno Timespec → TransferState
  | .error e => .ended ⟨e.rc, p.done, timeout⟩
  | .ok start => loopHead timeout (some (timeout, start)) p

/-- `poll` is called with the time that is left. -/
def afterCheck (budget : Int) (start : Timespec) (p : Progress) :
    Except Errno Timespec → List Syscall × TransferState
  | .error e => ([], .ended ⟨e.rc, p.done, timeout⟩)
  | .ok now =>
      if timeLeft budget start now ≤ 0 then ([], .ended ⟨timedOut.1, p.done, 0⟩)
      else ([.poll [fd] (timeLeft budget start now)], .calling (.poll now) (some (budget, start)) p)

def afterPoll (limit : Int × Timespec) (p : Progress) : Except Errno (Nat × List Revents) → TransferState
  | .error e => .calling (.remainder e.rc) (some limit) p
  | .ok (count, entries) =>
      if count = 0 then .ended ⟨timedOut.1, p.done, 0⟩
      else
        let revents := entries.headD ⟨false, false, false, false, false, false⟩
        if revents.broken then
          .calling (.remainder (if revents.pollErr then networkError else notConnected).1) (some limit) p
        else if action.event revents then .calling .act (some limit) p
        else loopHead timeout (some limit) p

def Progress.move (p : Progress) (bs : Bytes) : Progress := ⟨p.data.drop bs.length, p.todo - bs.length, p.done ++ bs⟩

@[simp] theorem Progress.move_data (p : Progress) (bs : Bytes) : (p.move bs).data = p.data.drop bs.length := rfl
@[simp] theorem Progress.move_todo (p : Progress) (bs : Bytes) : (p.move bs).todo = p.todo - bs.length := rfl
@[simp] theorem Progress.move_done (p : Progress) (bs : Bytes) : (p.move bs).done = p.done ++ bs := rfl

def afterAct (limit : Option (Int × Timespec)) (p : Progress) : Except Errno Bytes → TransferState
  | .error e => if e = eintr ∨ e = eagain then loopHead timeout limit p else .ended ⟨e.rc, p.done, timeout⟩
  | .ok bs =>
      if action = .read ∧ bs = [] then .ended ⟨ArakoonReturnCode.clientNetworkError, p.done, timeout⟩
      else loopHead timeout limit (p.move bs)

def afterRemainder (rc : ArakoonRc) (budget : Int) (start : Timespec) (p : Progress) :
    Except Errno Timespec → TransferState
  | .error e => .ended ⟨e.rc, p.done, timeout⟩
  | .ok now => .ended ⟨rc, p.done, timeLeft budget start now⟩

/-- What the machine does with the answer of the call it has made, and the calls it logs. -/
def transferStep : TransferState → Answer → Option (List Syscall × TransferState)
  | .calling .start _ p, a => (given (clockGettime .start) a).map fun r => ([], afterStart timeout p r)
  | .calling .check (some (budget, start)) p, a =>
      (given (clockGettime .check) a).map (afterCheck fd timeout budget start p)
  | .calling (.poll now) (some (budget, start)) p, a =>
      (given (poll [fd] (timeLeft budget start now)) a).map fun r =>
        ([], afterPoll action timeout (budget, start) p r)
  | .calling .act limit p, a =>
      (given (act action p.data p.todo) a).map fun r => ([], afterAct action timeout limit p r)
  | .calling (.remainder rc) (some (budget, start)) p, a =>
      (given (clockGettime .remainder) a).map fun r => ([], afterRemainder timeout rc budget start p r)
  | _, _ => none

/-- Where a call begins. -/
def transferBegin (data : Bytes) (count : Nat) : TransferState :=
  if fd < 0 then .ended ⟨ArakoonReturnCode.clientNotConnected, [], timeout⟩
  else if timeout = infiniteTimeout then loopHead timeout none ⟨data, count, []⟩
  else if timeout ≤ 0 then .ended ⟨ArakoonReturnCode.clientTimeout, [], timeout⟩
  else .calling .start none ⟨data, count, []⟩

/-- The machine on the answers that the kernel gives. -/
def driveTransfer (s : TransferState) (k : Kernel) : Option (Transfer × Kernel) :=
  (drive (transferStep action fd timeout) TransferState.halted k.answers k.log s).map fun out =>
    (out.1, ⟨out.2.1, out.2.2⟩)

end Machine

theorem given_clock {use : ClockUse} {a : Answer} {r : Except Errno Timespec} :
    given (clockGettime use) a = some r ↔ a = .clock use r := by
  cases a with
  | clock u r' =>
      by_cases h : u = use
      · simp [given, clockGettime, ask, StateT.run, h]
      · simp [given, clockGettime, ask, StateT.run, h]
  | _ => simp [given, clockGettime, ask, StateT.run]

theorem given_poll {fds : List Int} {timeout : Int} {a : Answer} {r : Except Errno (Nat × List Revents)} :
    given (poll fds timeout) a = some r ↔ a = .poll r := by
  cases a with
  | poll r' =>
      have hgiven : given (poll fds timeout) (.poll r') = some r' := rfl
      simp [hgiven]
  | _ => exact ⟨fun h => (by cases h), fun h => (by cases h)⟩

/-- What a `read` gives on an answer. -/
def readGiven (todo : Nat) (r : Except Errno Bytes) (a : Answer) : Prop :=
  a = .read r ∧ ∀ bs, r = .ok bs → bs.length ≤ todo

/-- What a `write` gives on an answer. -/
def writeGiven (data : Bytes) (r : Except Errno Bytes) (a : Answer) : Prop :=
  ∃ written, a = .write written ∧ r = written.map data.take ∧ ∀ n, written = .ok n → n ≤ data.length

theorem given_read {data : Bytes} {todo : Nat} {a : Answer} {r : Except Errno Bytes} :
    given (act .read data todo) a = some r ↔ readGiven todo r a := by
  cases a with
  | read r' =>
      cases r' with
      | error e =>
          have hgiven : given (act .read data todo) (.read (.error e)) = some (.error e) := rfl
          rw [hgiven, Option.some_inj, readGiven, Answer.read.injEq]
          exact ⟨fun h => ⟨h, fun bs hbs => by rw [← h] at hbs; cases hbs⟩, fun h => h.1⟩
      | ok bs =>
          have hgiven : given (act .read data todo) (.read (.ok bs)) =
              if bs.length ≤ todo then some (.ok bs) else none := by
            by_cases h : bs.length ≤ todo <;> simp [given, act, read, ask, StateT.run, h]
          rw [hgiven, readGiven, Answer.read.injEq]
          constructor
          · intro h
            split_ifs at h with hle
            obtain rfl := Option.some.inj h
            exact ⟨rfl, fun bs' hbs' => (Except.ok.inj hbs') ▸ hle⟩
          · rintro ⟨rfl, hle⟩
            rw [if_pos (hle bs rfl)]
  | _ => exact ⟨fun h => (by cases h), fun h => (by cases h.1)⟩

theorem given_write {data : Bytes} {todo : Nat} {a : Answer} {r : Except Errno Bytes} :
    given (act .write data todo) a = some r ↔ writeGiven data r a := by
  cases a with
  | write r' =>
      cases r' with
      | error e =>
          have hgiven : given (act .write data todo) (.write (.error e)) = some (.error e) := rfl
          rw [hgiven, Option.some_inj]
          constructor
          · rintro rfl
            exact ⟨_, rfl, rfl, fun n hn => by cases hn⟩
          · rintro ⟨_, hwritten, rfl, -⟩
            obtain rfl := Answer.write.inj hwritten
            rfl
      | ok n =>
          have hgiven : given (act .write data todo) (.write (.ok n)) =
              if n ≤ data.length then some (.ok (data.take n)) else none := by
            by_cases h : n ≤ data.length <;> simp [given, act, write, ask, StateT.run, h]
          rw [hgiven]
          constructor
          · intro h
            split_ifs at h with hle
            obtain rfl := Option.some.inj h
            exact ⟨_, rfl, rfl, fun n' hn' => (Except.ok.inj hn') ▸ hle⟩
          · rintro ⟨_, hwritten, rfl, hle⟩
            obtain rfl := Answer.write.inj hwritten
            rw [if_pos (hle n rfl)]
            rfl
  | _ =>
      refine ⟨fun h => (by cases h), ?_⟩
      rintro ⟨_, hanswer, -⟩
      cases hanswer

theorem ne_clock_of_given {action : NetworkAction} {data : Bytes} {todo : Nat} {a : Answer} {r : Except Errno Bytes}
    (h : given (act action data todo) a = some r) (use : ClockUse) (r' : Except Errno Timespec) :
    a ≠ .clock use r' := by
  rintro rfl
  cases action with
  | read => cases (given_read.mp h).1
  | write =>
      obtain ⟨_, hwritten, -⟩ := given_write.mp h
      cases hwritten

theorem ne_poll_of_given {action : NetworkAction} {data : Bytes} {todo : Nat} {a : Answer} {r : Except Errno Bytes}
    (h : given (act action data todo) a = some r) (r' : Except Errno (Nat × List Revents)) : a ≠ .poll r' := by
  rintro rfl
  cases action with
  | read => cases (given_read.mp h).1
  | write =>
      obtain ⟨_, hwritten, -⟩ := given_write.mp h
      cases hwritten

/-- The steps of the machine, by the call that is made. -/
inductive TransferStep (action : NetworkAction) (fd timeout : Int) :
    TransferState → Answer → List Syscall → TransferState → Prop where
  | start (limit : Option (Int × Timespec)) (p : Progress) (r : Except Errno Timespec) :
      TransferStep action fd timeout (.calling .start limit p) (.clock .start r) [] (afterStart timeout p r)
  | check (budget : Int) (start : Timespec) (p : Progress) (r : Except Errno Timespec) :
      TransferStep action fd timeout (.calling .check (some (budget, start)) p) (.clock .check r)
        (afterCheck fd timeout budget start p r).1 (afterCheck fd timeout budget start p r).2
  | poll (now : Timespec) (limit : Int × Timespec) (p : Progress) (r : Except Errno (Nat × List Revents)) :
      TransferStep action fd timeout (.calling (.poll now) (some limit) p) (.poll r) []
        (afterPoll action timeout limit p r)
  | act (limit : Option (Int × Timespec)) (p : Progress) (a : Answer) (r : Except Errno Bytes)
      (hact : given (act action p.data p.todo) a = some r) :
      TransferStep action fd timeout (.calling .act limit p) a [] (afterAct action timeout limit p r)
  | remainder (rc : ArakoonRc) (budget : Int) (start : Timespec) (p : Progress) (r : Except Errno Timespec) :
      TransferStep action fd timeout (.calling (.remainder rc) (some (budget, start)) p) (.clock .remainder r) []
        (afterRemainder timeout rc budget start p r)

theorem transferStep_eq_some_iff {action : NetworkAction} {fd timeout : Int} {s s' : TransferState} {a : Answer}
    {calls : List Syscall} :
    transferStep action fd timeout s a = some (calls, s') ↔ TransferStep action fd timeout s a calls s' := by
  constructor
  · intro h
    cases s with
    | ended out => cases h
    | calling point limit p =>
        cases point with
        | start =>
            obtain ⟨r, hr, hout⟩ := Option.map_eq_some_iff.mp h
            obtain ⟨rfl, rfl⟩ := Prod.mk.inj hout
            rw [given_clock.mp hr]
            exact .start limit p r
        | check =>
            cases limit with
            | none => cases h
            | some limit =>
                obtain ⟨r, hr, hout⟩ := Option.map_eq_some_iff.mp h
                obtain ⟨rfl, rfl⟩ := Prod.mk.inj hout
                rw [given_clock.mp hr]
                exact .check limit.1 limit.2 p r
        | poll now =>
            cases limit with
            | none => cases h
            | some limit =>
                obtain ⟨r, hr, hout⟩ := Option.map_eq_some_iff.mp h
                obtain ⟨rfl, rfl⟩ := Prod.mk.inj hout
                rw [given_poll.mp hr]
                exact .poll now limit p r
        | act =>
            obtain ⟨r, hr, hout⟩ := Option.map_eq_some_iff.mp h
            obtain ⟨rfl, rfl⟩ := Prod.mk.inj hout
            exact .act limit p a r hr
        | remainder rc =>
            cases limit with
            | none => cases h
            | some limit =>
                obtain ⟨r, hr, hout⟩ := Option.map_eq_some_iff.mp h
                obtain ⟨rfl, rfl⟩ := Prod.mk.inj hout
                rw [given_clock.mp hr]
                exact .remainder rc limit.1 limit.2 p r
  · intro h
    cases h with
    | start limit p r => rw [transferStep, given_clock.mpr rfl, Option.map_some]
    | check budget start p r => rw [transferStep, given_clock.mpr rfl, Option.map_some]
    | poll now limit p r => rw [transferStep, given_poll.mpr rfl, Option.map_some]
    | act limit p a r hact => rw [transferStep, hact, Option.map_some]
    | remainder rc budget start p r => rw [transferStep, given_clock.mpr rfl, Option.map_some]

/-! ### The rounds of the loop -/

section Rounds

variable (action : NetworkAction) (fd timeout : Int) {budget : Int} {start now : Timespec} {p : Progress}

/-- A round whose `poll` finds the descriptor as reported. -/
theorem path_poll (htodo : p.todo ≠ 0) (hleft : 0 < timeLeft budget start now) (found : Nat × List Revents) :
    ∃ calls, Path (transferStep action fd timeout) (loopHead timeout (some (budget, start)) p)
      [.clock .check (.ok now), .poll (.ok found)] calls (afterPoll action timeout (budget, start) p (.ok found)) := by
  have hcheck : afterCheck fd timeout budget start p (.ok now) =
      ([.poll [fd] (timeLeft budget start now)], .calling (.poll now) (some (budget, start)) p) := by
    rw [afterCheck, if_neg (Int.not_le.mpr hleft)]
  have hfirst : transferStep action fd timeout (.calling .check (some (budget, start)) p) (.clock .check (.ok now)) =
      some ([.poll [fd] (timeLeft budget start now)], .calling (.poll now) (some (budget, start)) p) := by
    rw [transferStep, given_clock.mpr rfl, Option.map_some, hcheck]
  have hsecond : transferStep action fd timeout (.calling (.poll now) (some (budget, start)) p) (.poll (.ok found)) =
      some ([], afterPoll action timeout (budget, start) p (.ok found)) := by
    rw [transferStep, given_poll.mpr rfl, Option.map_some]
  rw [loopHead, if_neg htodo]
  exact ⟨_, .cons hfirst (.cons hsecond (.nil _))⟩

/-- A round in which no time is left. -/
theorem path_spent (htodo : p.todo ≠ 0) (hleft : timeLeft budget start now ≤ 0) :
    Path (transferStep action fd timeout) (loopHead timeout (some (budget, start)) p) [.clock .check (.ok now)] []
      (.ended ⟨timedOut.1, p.done, 0⟩) := by
  have hcheck : afterCheck fd timeout budget start p (.ok now) = ([], .ended ⟨timedOut.1, p.done, 0⟩) := by
    rw [afterCheck, if_pos hleft]
  have hfirst : transferStep action fd timeout (.calling .check (some (budget, start)) p) (.clock .check (.ok now)) =
      some ([], .ended ⟨timedOut.1, p.done, 0⟩) := by
    rw [transferStep, given_clock.mpr rfl, Option.map_some, hcheck]
  rw [loopHead, if_neg htodo]
  exact .cons hfirst (.nil _)

theorem afterPoll_quiet {revents : Revents} (hopen : revents.broken = false)
    (hevent : action.event revents = false) : afterPoll action timeout (budget, start) p (.ok (1, [revents])) =
      loopHead timeout (some (budget, start)) p := by
  simp [afterPoll, hevent, hopen]

theorem afterPoll_ready {revents : Revents} (hopen : revents.broken = false)
    (hevent : action.event revents = true) : afterPoll action timeout (budget, start) p (.ok (1, [revents])) =
      .calling .act (some (budget, start)) p := by
  simp [afterPoll, hevent, hopen]

theorem afterPoll_broken {revents : Revents} (hbroken : revents.broken = true) :
    ∃ rc : Failure, afterPoll action timeout (budget, start) p (.ok (1, [revents])) =
      .calling (.remainder rc.1) (some (budget, start)) p :=
  ⟨if revents.pollErr then networkError else notConnected, by simp [afterPoll, hbroken]⟩

/-- What the `read` or `write` of an action gives when it is refused. -/
def NetworkAction.refused : NetworkAction → Errno → Answer
  | .read, e => .read (.error e)
  | .write, e => .write (.error e)

theorem given_refused (data : Bytes) (todo : Nat) (e : Errno) :
    given (act action data todo) (action.refused e) = some (.error e) := by cases action <;> rfl

/-- A `read` or `write` that is to be made again leaves the call where it was. -/
theorem path_again {limit : Option (Int × Timespec)} {e : Errno} (he : e = eintr ∨ e = eagain) :
    Path (transferStep action fd timeout) (.calling .act limit p) [action.refused e] [] (loopHead timeout limit p) := by
  have hafter : afterAct action timeout limit p (.error e) = loopHead timeout limit p := by rw [afterAct, if_pos he]
  rw [← hafter]
  exact .cons (transferStep_eq_some_iff.mpr (.act limit p _ _ (given_refused action p.data p.todo e))) (.nil _)

theorem path_remainder (rc : ArakoonRc) (stop : Timespec) :
    Path (transferStep action fd timeout) (.calling (.remainder rc) (some (budget, start)) p)
      [.clock .remainder (.ok stop)] [] (.ended ⟨rc, p.done, timeLeft budget start stop⟩) :=
  .cons (transferStep_eq_some_iff.mpr (.remainder rc budget start p (.ok stop))) (.nil _)

end Rounds

/-- The call takes one answer and logs nothing. -/
def Asks {α : Type} (call : Os α) : Prop :=
  ∀ k, call.run k = match k.answers with
    | [] => none
    | a :: rest => (given call a).map fun r => (r, ⟨rest, k.log⟩)

theorem asks_ask {α : Type} (pick : Answer → Option α) : Asks (ask pick) := by
  rintro ⟨answers, log⟩
  cases answers with
  | nil => rfl
  | cons a rest =>
      cases h : pick a with
      | none => simp [given, ask, StateT.run, h]
      | some r => simp [given, ask, StateT.run, h]

theorem asks_act (action : NetworkAction) (data : Bytes) (todo : Nat) : Asks (act action data todo) := by
  cases action with
  | read => exact asks_ask _
  | write => exact asks_ask _

/-- `poll` is logged before it takes its answer. -/
theorem poll_run (fds : List Int) (timeout : Int) (k : Kernel) :
    (poll fds timeout).run k = match k.answers with
      | [] => none
      | a :: rest => (given (poll fds timeout) a).map fun r => (r, ⟨rest, .poll fds timeout :: k.log⟩) := by
  obtain ⟨answers, log⟩ := k
  cases answers with
  | nil => rfl
  | cons a rest => cases a <;> rfl

section Link

variable {α : Type} {action : NetworkAction} {fd timeout : Int}

theorem driveTransfer_halted {s : TransferState} {out : Transfer} (h : s.halted = some out) (k : Kernel) :
    driveTransfer action fd timeout s k = some (out, k) := by
  rw [driveTransfer, drive_halted h]
  rfl

theorem driveTransfer_nil {s : TransferState} (h : s.halted = none) (log : List Syscall) :
    driveTransfer action fd timeout s ⟨[], log⟩ = none := by
  rw [driveTransfer, drive_nil h]
  rfl

theorem driveTransfer_cons {s : TransferState} (h : s.halted = none) (a : Answer) (rest : List Answer)
    (log : List Syscall) : driveTransfer action fd timeout s ⟨a :: rest, log⟩ =
      (transferStep action fd timeout s a).bind fun out =>
        driveTransfer action fd timeout out.2 ⟨rest, out.1 ++ log⟩ := by
  rw [driveTransfer, drive_cons h]
  cases transferStep action fd timeout s a <;> rfl

/-- A call of the program is the step of the machine on its answer. -/
theorem run_eq_drive {call : Os α} (hcall : Asks call) {s : TransferState} (hs : s.halted = none)
    (after : α → List Syscall × TransferState)
    (hstep : ∀ a, transferStep action fd timeout s a = (given call a).map after) {f : α → Os Transfer} {k : Kernel}
    (hf : ∀ r k', k'.left < k.left → k'.log = k.log →
      (f r).run k' = driveTransfer action fd timeout (after r).2 ⟨k'.answers, (after r).1 ++ k'.log⟩) :
    (call >>= f).run k = driveTransfer action fd timeout s k := by
  obtain ⟨answers, log⟩ := k
  rw [bind_run, hcall]
  cases answers with
  | nil => rw [driveTransfer_nil hs, Option.bind_none]
  | cons a rest =>
      rw [driveTransfer_cons hs, hstep]
      dsimp only
      cases given call a with
      | none => rfl
      | some r => exact hf r ⟨rest, log⟩ (Nat.lt_succ_self _) rfl

theorem run_poll_eq_drive {budget : Int} {start now : Timespec} {p : Progress}
    {f : Except Errno (Nat × List Revents) → Os Transfer} {k : Kernel}
    (hf : ∀ r k', k'.left < k.left →
      (f r).run k' = driveTransfer action fd timeout (afterPoll action timeout (budget, start) p r) k') :
    (poll [fd] (timeLeft budget start now) >>= f).run k =
      driveTransfer action fd timeout (.calling (.poll now) (some (budget, start)) p)
        ⟨k.answers, .poll [fd] (timeLeft budget start now) :: k.log⟩ := by
  obtain ⟨answers, log⟩ := k
  rw [bind_run, poll_run]
  cases answers with
  | nil => exact (driveTransfer_nil rfl _).symm
  | cons a rest =>
      rw [driveTransfer_cons rfl, transferStep]
      dsimp only
      cases given (poll [fd] (timeLeft budget start now)) a with
      | none => rfl
      | some r => exact hf r ⟨rest, _⟩ (Nat.lt_succ_self _)

theorem run_remainder_eq_drive {rc : ArakoonRc} {budget : Int} {start : Timespec} {p : Progress}
    {f : Except Errno Timespec → Os Transfer} {k : Kernel}
    (hf : ∀ r k', (f r).run k' =
      driveTransfer action fd timeout (afterRemainder timeout rc budget start p r) k') :
    (clockGettime .remainder >>= f).run k =
      driveTransfer action fd timeout (.calling (.remainder rc) (some (budget, start)) p) k :=
  run_eq_drive (asks_ask _) rfl (fun r => ([], afterRemainder timeout rc budget start p r)) (fun _ => rfl)
    fun r k' _ _ => hf r k'

/-- Waiting for an event, and what comes after it. -/
theorem run_await_eq_drive {budget : Int} {start : Timespec} {p : Progress} {f : Wait → Os Transfer} {k : Kernel}
    (hstop : ∀ rc v k', (f (.stop rc v)).run k' = some (⟨rc.1, p.done, v⟩, k'))
    (hagain : ∀ k', k'.left < k.left →
      (f .again).run k' = driveTransfer action fd timeout (loopHead timeout (some (budget, start)) p) k')
    (hready : ∀ k', k'.left < k.left →
      (f .ready).run k' = driveTransfer action fd timeout (.calling .act (some (budget, start)) p) k') :
    (await action fd budget start timeout >>= f).run k =
      driveTransfer action fd timeout (.calling .check (some (budget, start)) p) k := by
  have hremainder : ∀ (rc : Failure) k', (stopWithRemainder rc budget start timeout >>= f).run k' =
      driveTransfer action fd timeout (.calling (.remainder rc.1) (some (budget, start)) p) k' := by
    intro rc k'
    rw [stopWithRemainder, bind_assoc]
    refine run_remainder_eq_drive fun r k₁ => ?_
    cases r with
    | error e =>
        rw [driveTransfer_halted rfl]
        exact hstop _ _ _
    | ok now =>
        rw [driveTransfer_halted rfl]
        exact hstop _ _ _
  rw [await, bind_assoc]
  refine run_eq_drive (asks_ask _) rfl (afterCheck fd timeout budget start p) (fun _ => rfl) fun r k₁ hleft _ => ?_
  cases r with
  | error e =>
      rw [driveTransfer_halted rfl]
      exact hstop _ _ _
  | ok now =>
      dsimp only [afterCheck]
      split_ifs with hspent
      · rw [driveTransfer_halted rfl]
        exact hstop _ _ _
      · rw [bind_assoc]
        refine run_poll_eq_drive fun r k₂ hleft₂ => ?_
        cases r with
        | error e => exact hremainder _ _
        | ok found =>
            obtain ⟨count, entries⟩ := found
            dsimp only [afterPoll]
            split_ifs with hcount hbroken herr hevent
            · rw [driveTransfer_halted rfl]
              exact hstop _ _ _
            · exact hremainder _ _
            · exact hremainder _ _
            · exact hready _ (Nat.lt_trans hleft₂ hleft)
            · exact hagain _ (Nat.lt_trans hleft₂ hleft)

/-- The loop does what the machine does from the head of the loop on. -/
theorem pollActLoop_run (limit : Option (Int × Timespec)) (rounds : Nat) (p : Progress) {k : Kernel}
    (hrounds : k.left < rounds) :
    (pollActLoop action fd limit timeout rounds p.data p.todo p.done).run k =
      driveTransfer action fd timeout (loopHead timeout limit p) k := by
  induction rounds generalizing p k with
  | zero => exact absurd hrounds (Nat.not_lt_zero _)
  | succ rounds ih =>
      unfold pollActLoop
      -- the `read` or `write` of a round takes an answer, so that the rounds that are left suffice for what follows
      have hact : ∀ k', k'.left ≤ k.left → (act action p.data p.todo >>= fun r => match r with
          | .error e =>
              if e = eintr ∨ e = eagain then pollActLoop action fd limit timeout rounds p.data p.todo p.done
              else pure ⟨e.rc, p.done, timeout⟩
          | .ok bs =>
              if action = .read ∧ bs = [] then pure ⟨ArakoonReturnCode.clientNetworkError, p.done, timeout⟩
              else pollActLoop action fd limit timeout rounds (p.data.drop bs.length) (p.todo - bs.length)
                (p.done ++ bs)).run k' = driveTransfer action fd timeout (.calling .act limit p) k' := by
        intro k' hk'
        refine run_eq_drive (asks_act _ _ _) rfl (fun r => ([], afterAct action timeout limit p r)) (fun _ => rfl) ?_
        intro r k₁ hleft _
        have hrest : k₁.left < rounds := by omega
        cases r with
        | error e =>
            dsimp only [afterAct]
            split_ifs with hagain
            · exact ih p hrest
            · exact (driveTransfer_halted rfl _).symm
        | ok bs =>
            dsimp only [afterAct]
            split_ifs with hnone
            · exact (driveTransfer_halted rfl _).symm
            · exact ih (p.move bs) hrest
      by_cases htodo : p.todo = 0
      · rw [if_pos htodo]
        cases limit with
        | none =>
            rw [loopHead, if_pos htodo, driveTransfer_halted rfl]
            rfl
        | some limit =>
            rw [loopHead, if_pos htodo]
            refine run_remainder_eq_drive fun r k' => ?_
            cases r with
            | error e => exact (driveTransfer_halted rfl _).symm
            | ok now => exact (driveTransfer_halted rfl _).symm
      · rw [if_neg htodo]
        cases limit with
        | none =>
            rw [loopHead, if_neg htodo, awaitLimit, pure_bind]
            exact hact k le_rfl
        | some limit =>
            rw [loopHead, if_neg htodo]
            refine run_await_eq_drive (fun rc v k' => rfl) (fun k' hleft => ?_) fun k' hleft => ?_
            · exact ih p (by omega)
            · exact hact k' (Nat.le_of_lt hleft)

/-- A call does what the machine does. -/
theorem pollAct_run (data : Bytes) (count : Nat) (k : Kernel) :
    (pollAct action fd data count timeout).run k =
      driveTransfer action fd timeout (transferBegin fd timeout data count) k := by
  unfold pollAct transferBegin
  split_ifs with hfd hinfinite hspent
  · exact (driveTransfer_halted rfl _).symm
  · exact pollActLoop_run none _ ⟨data, count, []⟩ (Nat.lt_succ_self _)
  · exact (driveTransfer_halted rfl _).symm
  · refine run_eq_drive (asks_ask _) rfl (fun r => ([], afterStart timeout ⟨data, count, []⟩ r)) (fun _ => rfl) ?_
    intro r k₁ _ _
    cases r with
    | error e => exact (driveTransfer_halted rfl _).symm
    | ok start => exact pollActLoop_run (some (timeout, start)) _ ⟨data, count, []⟩ (Nat.lt_succ_self _)

/-- The outcomes of a call are the paths of the machine that end. -/
theorem pollAct_run_iff {data : Bytes} {count : Nat} {k k' : Kernel} {out : Transfer} :
    (pollAct action fd data count timeout).run k = some (out, k') ↔ ∃ used calls, k.Goes used calls k' ∧
      Path (transferStep action fd timeout) (transferBegin fd timeout data count) used calls (.ended out) := by
  have hstuck : ∀ (s : TransferState) (out : Transfer) a, s.halted = some out →
      transferStep action fd timeout s a = none := by
    intro s out a hs
    cases s with
    | calling point limit p => cases hs
    | ended out => rfl
  have hended : ∀ s : TransferState, s.halted = some out ↔ s = .ended out := by
    intro s
    cases s with
    | calling point limit p => simp [TransferState.halted]
    | ended out' => simp [TransferState.halted]
  rw [pollAct_run, driveTransfer, Option.map_eq_some_iff]
  constructor
  · rintro ⟨⟨out', rest, log⟩, hdrive, hout⟩
    obtain ⟨rfl, rfl⟩ := Prod.mk.inj hout
    obtain ⟨used, calls, s', hused, hcalls, hpath, hs'⟩ := (drive_eq_some_iff hstuck).mp hdrive
    obtain rfl := (hended s').mp hs'
    exact ⟨used, calls, ⟨hused, hcalls⟩, hpath⟩
  · rintro ⟨used, calls, hgoes, hpath⟩
    refine ⟨(out, k'.answers, k'.log), (drive_eq_some_iff hstuck).mpr ?_, rfl⟩
    exact ⟨used, calls, _, hgoes.takes, hgoes.logs, hpath, rfl⟩

end Link

end Crakoon.Networking
