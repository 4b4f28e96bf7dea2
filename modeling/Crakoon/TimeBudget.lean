import Crakoon.Networking

/-!
# The time limit of an operation

All calls of one client operation take their time from one variable, which has a special value for no limit. A call
leaves in it what it found there, nothing, or the remainder (`Left`), and the remainder may come to be that value: it
is when the last reading is one millisecond too late. So the variable keeps a limit over the runs in which no such
reading is made.
-/

namespace Crakoon.Networking

open Programs

/-- Not a reading that a call starts with or one that it takes a remainder from. -/
def Answer.quiet : Answer → Bool
  | .clock .start _ => false
  | .clock .remainder _ => false
  | _ => true

/-- The program takes quiet answers only. -/
def Quiet {α : Type} (m : Os α) : Prop :=
  ∀ k, Ensures m k fun _ k' => ∃ used, k.Takes used k' ∧ ∀ a ∈ used, a.quiet

section Quiet

variable {α β : Type}

theorem Quiet.pure (a : α) : Quiet (Pure.pure a : Os α) := fun k =>
  .pure ⟨[], .refl k, fun _ h => absurd h List.not_mem_nil⟩

theorem Quiet.bind {m : Os α} {f : α → Os β} (hm : Quiet m) (hf : ∀ a, Quiet (f a)) : Quiet (m >>= f) := by
  intro k
  refine (hm k).bind fun a k₁ ⟨used, htakes, hquiet⟩ => (hf a k₁).mono fun b k₂ ⟨used₁, htakes₁, hquiet₁⟩ => ?_
  exact ⟨used ++ used₁, htakes.trans htakes₁, List.forall_mem_append.mpr ⟨hquiet, hquiet₁⟩⟩

theorem Quiet.ite {c : Prop} [Decidable c] {m n : Os α} (hm : c → Quiet m) (hn : ¬c → Quiet n) :
    Quiet (if c then m else n) := fun k => .ite (fun h => hm h k) fun h => hn h k

theorem Quiet.ask {pick : Answer → Option α} (h : ∀ a r, pick a = some r → a.quiet) : Quiet (ask pick) := by
  refine fun k => (ensures_ask pick k).mono fun r k' ⟨a, hpick, htakes⟩ => ⟨[a], htakes, fun b hb => ?_⟩
  rw [List.mem_singleton.mp hb]
  exact h a r hpick

theorem quiet_note (call : Syscall) : Quiet (note call) :=
  fun k => (ensures_note call k).mono fun _ _ hgoes => ⟨[], hgoes.takes, fun _ h => absurd h List.not_mem_nil⟩

theorem quiet_check : Quiet (clockGettime .check) := by
  refine .ask fun a r h => ?_
  cases a with
  | clock use r' =>
      cases use with
      | check => rfl
      | start => cases h
      | remainder => cases h
  | _ => rfl

/-- A call other than a clock reading takes a quiet answer. -/
theorem quiet_ask {pick : Answer → Option α} (h : ∀ use r, pick (.clock use r) = none) : Quiet (ask pick) := by
  refine .ask fun a r hpick => ?_
  cases a with
  | clock use r' =>
      rw [h use r'] at hpick
      cases hpick
  | _ => rfl

theorem quiet_poll (fds : List Int) (timeout : Int) : Quiet (poll fds timeout) :=
  (quiet_note _).bind fun _ => quiet_ask fun _ _ => rfl

theorem quiet_act (action : NetworkAction) (data : Bytes) (todo : Nat) : Quiet (act action data todo) := by
  cases action with
  | read => exact quiet_ask fun _ _ => rfl
  | write => exact quiet_ask fun _ _ => rfl

theorem quiet_socket : Quiet socket := by
  apply (quiet_ask fun _ _ => rfl : Quiet (ask _)).bind
  intro r
  cases r with
  | error e => exact .pure _
  | ok sock => exact (quiet_note _).bind fun _ => .pure _

theorem quiet_tryAddress : Quiet tryAddress := by
  have hfcntl : Quiet fcntl := quiet_ask fun _ _ => rfl
  have hconnect : Quiet connectSocket := quiet_ask fun _ _ => rfl
  have hfailed : ∀ sock : Nat, Quiet (do
      close sock
      pure Attempt.failed) := fun _ => (quiet_note _).bind fun _ => .pure _
  apply quiet_socket.bind
  intro r
  cases r with
  | error e => exact .pure _
  | ok sock =>
      apply hfcntl.bind
      intro r
      cases r with
      | error e => exact hfailed sock
      | ok flags =>
          apply hfcntl.bind
          intro r
          cases r with
          | error e => exact hfailed sock
          | ok _ =>
              apply hconnect.bind
              intro r
              cases r with
              | error e => exact .ite (fun _ => .pure _) fun _ => hfailed sock
              | ok _ =>
                  apply hfcntl.bind
                  intro r
                  cases r with
                  | error e => exact hfailed sock
                  | ok _ => exact .pure _

theorem quiet_openSockets (addresses : List Address) : Quiet (openSockets addresses) := by
  induction addresses with
  | nil => exact .pure _
  | cons address addresses ih =>
      apply quiet_tryAddress.bind
      intro attempt
      cases attempt with
      | connected sock => exact .pure _
      | pending sock => exact ih.bind fun _ => .pure _
      | failed => exact ih.bind fun _ => .pure _

theorem quiet_none : Quiet (fun _ => none : Os α) := fun k a k' hrun => by cases hrun

theorem quiet_pollUninterrupted (fds : List Int) (timeout : Int) (rounds : Nat) :
    Quiet (pollUninterrupted fds timeout rounds) := by
  induction rounds with
  | zero => exact quiet_none
  | succ rounds ih =>
      apply (quiet_poll fds timeout).bind
      intro r
      cases r with
      | error e => exact .ite (fun _ => ih) fun _ => .pure _
      | ok found => exact .pure _

theorem quiet_scanSockets (entries : List (Int × Revents)) (fds : List Int) (theSocket : Int) :
    Quiet (scanSockets entries fds theSocket) := by
  induction entries generalizing fds theSocket with
  | nil => exact .pure _
  | cons entry entries ih =>
      refine .ite (fun _ => (quiet_note _).bind fun _ => ih _ _) fun _ => .ite (fun _ => ih _ _) fun _ => ih _ _

theorem quiet_restoreFlags (theSocket : Int) (fds : List Int) : Quiet (restoreFlags theSocket fds) := by
  have hfcntl : Quiet fcntl := quiet_ask fun _ _ => rfl
  induction fds with
  | nil => exact .pure _
  | cons fd fds ih =>
      refine .ite (fun _ => hfcntl.bind fun r => ?_) fun _ => ih.bind fun _ => .pure _
      cases r with
      | error e => exact (quiet_note _).bind fun _ => ih.bind fun _ => .pure _
      | ok _ => exact .pure _

theorem quiet_checkTime (limit : Option (Int × Timespec)) (now : Timespec) : Quiet (checkTime limit now) := by
  cases limit with
  | none => exact .pure _
  | some limit =>
      apply quiet_check.bind
      intro r
      cases r with
      | error e => exact .pure _
      | ok now => exact .ite (fun _ => .pure _) fun _ => .pure _

theorem quiet_connectLoop (limit : Option (Int × Timespec)) (rounds : Nat) (fds : List Int) (now : Timespec) :
    Quiet (connectLoop limit rounds fds now) := by
  induction rounds generalizing fds now with
  | zero => exact quiet_none
  | succ rounds ih =>
      refine (quiet_checkTime limit now).bind fun ⟨checked, now⟩ => ?_
      cases checked with
      | error rc => exact .pure _
      | ok left =>
          refine .ite (fun _ => .pure _) fun _ => (quiet_pollUninterrupted _ _ _).bind fun r => ?_
          cases r with
          | error e => exact .pure _
          | ok found =>
              refine .ite (fun _ => .pure _) fun _ => (quiet_scanSockets _ _ _).bind fun ⟨fds, theSocket⟩ => ?_
              refine .ite (fun _ => (quiet_restoreFlags _ _).bind fun ⟨fds, restored⟩ => ?_) fun _ => ih _ _
              exact .ite (fun _ => .pure _) fun _ => ih _ _

theorem quiet_settle (addresses : List Address) (limit : Option (Int × Timespec)) :
    Quiet (settle addresses limit) := by
  refine (quiet_openSockets addresses).bind fun ⟨fds, theSocket⟩ => .ite (fun _ => .pure _) fun _ k => ?_
  exact quiet_connectLoop limit (k.answers.length + 1) fds ⟨0, 0⟩ k

theorem quiet_closeOthers (theSocket : Int) (fds : List Int) : Quiet (closeOthers theSocket fds) := by
  induction fds with
  | nil => exact .pure _
  | cons fd fds ih =>
      exact Quiet.ite (c := 0 ≤ fd ∧ fd ≠ theSocket) (fun _ => (quiet_note _).bind fun _ => ih) fun _ => ih

end Quiet

/-! ### What a call leaves -/

theorem ensures_clock (use : ClockUse) (k : Kernel) :
    Ensures (clockGettime use) k fun r k' => k.Takes [.clock use r] k' :=
  (ensures_clock_goes use k).mono fun _ _ hgoes => hgoes.takes

/-- No remainder is taken. -/
def NoRemainder (used : List Answer) : Prop := ∀ t, .clock .remainder (.ok t) ∉ used

theorem noRemainder_of_quiet {used : List Answer} (h : ∀ a ∈ used, a.quiet) : NoRemainder used := by
  intro t hmem
  have hquiet := h _ hmem
  cases hquiet

theorem NoRemainder.after {before used : List Answer} (hquiet : ∀ a ∈ before, a.quiet) (h : NoRemainder used) :
    NoRemainder (before ++ used) := by
  intro t hmem
  rcases List.mem_append.mp hmem with hbefore | hused
  · exact noRemainder_of_quiet hquiet t hbefore
  · exact h t hused

/-- A reading that is refused, or one that a call starts with. -/
theorem noRemainder_clock {use : ClockUse} {r : Except Errno Timespec} (h : ∀ t, r = .ok t → use ≠ .remainder) :
    NoRemainder [.clock use r] := by
  intro t hmem
  obtain ⟨huse, hr⟩ := Answer.clock.inj (List.mem_singleton.mp hmem)
  exact h t hr.symm huse.symm

/-- What the rest of a call leaves in the variable, which holds `timeout`, after the answers it takes. -/
inductive Ends (budget : Int) (start : Timespec) (timeout : Int) : List Answer → Int → Prop where
  | kept {used : List Answer} (hnone : NoRemainder used) : Ends budget start timeout used timeout
  | spent {used : List Answer} (hnone : NoRemainder used) : Ends budget start timeout used 0
  | stored {mid : List Answer} {now : Timespec} (hquiet : ∀ a ∈ mid, a.quiet) :
      Ends budget start timeout (mid ++ [.clock .remainder (.ok now)]) (timeLeft budget start now)

theorem Ends.refused {budget : Int} {start : Timespec} {timeout : Int} {e : Errno} :
    Ends budget start timeout [.clock .remainder (.error e)] timeout := by
  have hnone : NoRemainder [.clock .remainder (.error e)] := noRemainder_clock fun _ h => by cases h
  exact .kept hnone

theorem Ends.last {budget : Int} {start now : Timespec} {timeout : Int} :
    Ends budget start timeout [.clock .remainder (.ok now)] (timeLeft budget start now) := by
  have hnone : ∀ a ∈ ([] : List Answer), a.quiet := fun _ h => absurd h List.not_mem_nil
  exact .stored hnone

theorem Ends.after {budget : Int} {start : Timespec} {timeout v : Int} {before used : List Answer}
    (hquiet : ∀ a ∈ before, a.quiet) (h : Ends budget start timeout used v) :
    Ends budget start timeout (before ++ used) v := by
  cases h with
  | kept hnone => exact .kept (hnone.after hquiet)
  | spent hnone => exact .spent (hnone.after hquiet)
  | stored hmid =>
      rw [← List.append_assoc]
      exact .stored (List.forall_mem_append.mpr ⟨hquiet, hmid⟩)

/-- A wait is quiet unless it ends the call. -/
def Wait.After (budget : Int) (start : Timespec) (timeout : Int) (used : List Answer) : Wait → Prop
  | .ready => ∀ a ∈ used, a.quiet
  | .again => ∀ a ∈ used, a.quiet
  | .stop _ v => Ends budget start timeout used v

theorem Wait.After.after {budget : Int} {start : Timespec} {timeout : Int} {before used : List Answer} {w : Wait}
    (hquiet : ∀ a ∈ before, a.quiet) (h : w.After budget start timeout used) :
    w.After budget start timeout (before ++ used) := by
  cases w with
  | ready => exact List.forall_mem_append.mpr ⟨hquiet, h⟩
  | again => exact List.forall_mem_append.mpr ⟨hquiet, h⟩
  | stop rc v => exact Ends.after hquiet h

section Timed

variable (budget : Int) (start : Timespec) (timeout : Int)

theorem ensures_stopWithRemainder (rc : Failure) (k : Kernel) :
    Ensures (stopWithRemainder rc budget start timeout) k fun w k' =>
      ∃ used, k.Takes used k' ∧ w.After budget start timeout used := by
  refine (ensures_clock .remainder k).bind fun r k₁ htakes => ?_
  cases r with
  | error e => exact .pure ⟨_, htakes, .refused⟩
  | ok now => exact .pure ⟨_, htakes, .last⟩

theorem ensures_await (action : NetworkAction) (fd : Int) (k : Kernel) :
    Ensures (await action fd budget start timeout) k fun w k' =>
      ∃ used, k.Takes used k' ∧ w.After budget start timeout used := by
  refine (quiet_check k).bind fun r k₁ ⟨used, htakes, hquiet⟩ => ?_
  cases r with
  | error e => exact .pure ⟨used, htakes, .kept (noRemainder_of_quiet hquiet)⟩
  | ok now =>
      refine .ite (fun _ => .pure ⟨used, htakes, .spent (noRemainder_of_quiet hquiet)⟩) fun _ => ?_
      refine (quiet_poll _ _ k₁).bind fun r k₂ ⟨used₂, htakes₂, hquiet₂⟩ => ?_
      have htakes' := htakes.trans htakes₂
      have hquiet' := List.forall_mem_append.mpr ⟨hquiet, hquiet₂⟩
      have hstop : ∀ rc, Ensures (stopWithRemainder rc budget start timeout) k₂ fun w k' =>
          ∃ used, k.Takes used k' ∧ w.After budget start timeout used := fun rc =>
        (ensures_stopWithRemainder budget start timeout rc k₂).mono fun w k' ⟨used₃, htakes₃, hafter⟩ =>
          ⟨_, htakes'.trans htakes₃, hafter.after hquiet'⟩
      cases r with
      | error e => exact hstop _
      | ok found =>
          refine .ite (fun _ => .pure ⟨_, htakes', .spent (noRemainder_of_quiet hquiet')⟩) fun _ => ?_
          refine .ite (fun _ => hstop _) fun _ => ?_
          exact .ite (fun _ => .pure ⟨_, htakes', hquiet'⟩) fun _ => .pure ⟨_, htakes', hquiet'⟩

theorem ensures_pollActLoop (action : NetworkAction) (fd : Int) (rounds : Nat) (data : Bytes) (todo : Nat)
    (done : Bytes) (k : Kernel) :
    Ensures (pollActLoop action fd (some (budget, start)) timeout rounds data todo done) k fun out k' =>
      ∃ used, k.Takes used k' ∧ Ends budget start timeout used out.timeout := by
  induction rounds generalizing data todo done k with
  | zero => exact fun out k' hrun => by cases hrun
  | succ rounds ih =>
      refine .ite (fun _ => ?_) fun _ => ?_
      · refine (ensures_clock .remainder k).bind fun r k₁ htakes => ?_
        cases r with
        | error e => exact .pure ⟨_, htakes, .refused⟩
        | ok now => exact .pure ⟨_, htakes, .last⟩
      · refine (ensures_await budget start timeout action fd k).bind fun w k₁ ⟨used, htakes, hafter⟩ => ?_
        have hagain : (∀ a ∈ used, a.quiet) → ∀ k₂ used₂, k₁.Takes used₂ k₂ → (∀ a ∈ used₂, a.quiet) →
            ∀ data todo done, Ensures (pollActLoop action fd (some (budget, start)) timeout rounds data todo done) k₂
              fun out k' => ∃ used, k.Takes used k' ∧ Ends budget start timeout used out.timeout := by
          intro hquiet k₂ used₂ htakes₂ hquiet₂ data todo done
          refine (ih data todo done k₂).mono fun out k' ⟨used₃, htakes₃, hends⟩ => ?_
          exact ⟨_, (htakes.trans htakes₂).trans htakes₃, hends.after (List.forall_mem_append.mpr ⟨hquiet, hquiet₂⟩)⟩
        cases w with
        | stop rc v => exact .pure ⟨used, htakes, hafter⟩
        | again => exact hagain hafter k₁ [] (.refl k₁) (fun _ h => absurd h List.not_mem_nil) data todo done
        | ready =>
            refine (quiet_act action data todo k₁).bind fun r k₂ ⟨used₂, htakes₂, hquiet₂⟩ => ?_
            have hnone : NoRemainder (used ++ used₂) :=
              noRemainder_of_quiet (List.forall_mem_append.mpr ⟨hafter, hquiet₂⟩)
            cases r with
            | error e =>
                refine .ite (fun _ => hagain hafter k₂ used₂ htakes₂ hquiet₂ data todo done) fun _ => ?_
                exact .pure ⟨_, htakes.trans htakes₂, .kept hnone⟩
            | ok bs =>
                refine .ite (fun _ => .pure ⟨_, htakes.trans htakes₂, .kept hnone⟩) fun _ => ?_
                exact hagain hafter k₂ used₂ htakes₂ hquiet₂ _ _ _

end Timed

/-- What a call leaves in the variable, which holds `budget`, after the answers it takes: the same, nothing, or the
remainder. -/
inductive Left (budget : Int) : List Answer → Int → Prop where
  | kept {used : List Answer} (hnone : NoRemainder used) : Left budget used budget
  | spent {used : List Answer} (hnone : NoRemainder used) : Left budget used 0
  | stored {start now : Timespec} {mid : List Answer} (hquiet : ∀ a ∈ mid, a.quiet) :
      Left budget (.clock .start (.ok start) :: (mid ++ [.clock .remainder (.ok now)])) (timeLeft budget start now)

theorem Ends.left {budget : Int} {start : Timespec} {used : List Answer} {v : Int}
    (h : Ends budget start budget used v) : Left budget (.clock .start (.ok start) :: used) v := by
  have hstarted : NoRemainder used → NoRemainder (.clock .start (.ok start) :: used) := by
    intro hnone t hmem
    rcases List.mem_cons.mp hmem with hstart | hused
    · cases hstart
    · exact hnone t hused
  cases h with
  | kept hnone => exact .kept (hstarted hnone)
  | spent hnone => exact .spent (hstarted hnone)
  | stored hquiet => exact .stored hquiet

/-- A call that takes no answer, or only a first reading that is refused, leaves the variable as it is. -/
theorem Left.none {budget : Int} : Left budget [] budget := by
  have hnone : NoRemainder [] := fun t => List.not_mem_nil
  exact .kept hnone

theorem Left.refused {budget : Int} {e : Errno} : Left budget [.clock .start (.error e)] budget := by
  have hnone : NoRemainder [.clock .start (.error e)] := noRemainder_clock fun _ h => by cases h
  exact .kept hnone

/-- Every clock reading is granted. -/
def Kernel.ClockWorks (k : Kernel) : Prop := ∀ use r, .clock use r ∈ k.answers → ∃ t, r = .ok t

theorem Kernel.ClockWorks.after {k k' : Kernel} {used : List Answer} (h : k.ClockWorks) (htakes : k.Takes used k') :
    k'.ClockWorks := fun use r hmem => h use r (htakes ▸ List.mem_append_right used hmem)

/-- The reading that a call takes. -/
theorem Kernel.ClockWorks.reading {k k' : Kernel} {use : ClockUse} {r : Except Errno Timespec} (h : k.ClockWorks)
    (htakes : k.Takes [.clock use r] k') : ∃ t, r = .ok t :=
  h use r (htakes ▸ List.mem_append_left _ (List.mem_singleton.mpr rfl))

section Calls

variable {timeout : Int} (htimeout : timeout ≠ infiniteTimeout) {k : Kernel}
include htimeout

theorem ensures_pollAct (action : NetworkAction) (fd : Int) (data : Bytes) (count : Nat) :
    Ensures (pollAct action fd data count timeout) k fun out k' =>
      ∃ used, k.Takes used k' ∧ Left timeout used out.timeout := by
  refine .ite (fun _ => .pure ⟨[], .refl k, .none⟩) fun _ => .ite (fun h => absurd h htimeout) fun _ => ?_
  refine .ite (fun _ => .pure ⟨[], .refl k, .none⟩) fun _ => (ensures_clock .start k).bind fun r k₁ htakes => ?_
  cases r with
  | error e => exact .pure ⟨_, htakes, .refused⟩
  | ok start =>
      refine (ensures_pollActLoop timeout start timeout action fd _ data count [] k₁).mono ?_
      intro out k' hdone
      obtain ⟨used, htakes', hends⟩ := hdone
      exact ⟨_, htakes.trans htakes', hends.left⟩

theorem ensures_connect (hclock : k.ClockWorks) (addresses : List Address) (fd : Int) :
    Ensures (connect addresses fd timeout) k fun out k' =>
      ∃ used, k.Takes used k' ∧ Left timeout used out.timeout := by
  refine .ite (fun _ => .pure ⟨[], .refl k, .none⟩) fun _ => (ensures_clock .start k).bind fun r k₁ htakes => ?_
  cases r with
  | error e => exact .pure ⟨_, htakes, .refused⟩
  | ok start =>
      refine (quiet_settle addresses _ k₁).bind fun out k₂ ⟨used₂, htakes₂, hquiet₂⟩ => ?_
      refine (quiet_closeOthers out.theSocket out.fds k₂).bind fun _ k₃ ⟨used₃, htakes₃, hquiet₃⟩ => ?_
      refine .ite (fun h => absurd h htimeout) fun _ => (ensures_clock .remainder k₃).bind fun r k₄ htakes₄ => ?_
      have htakes' := (htakes.trans htakes₂).trans htakes₃
      obtain ⟨now, rfl⟩ := (hclock.after htakes').reading htakes₄
      refine .pure ⟨_, htakes'.trans htakes₄, ?_⟩
      exact .stored (List.forall_mem_append.mpr ⟨hquiet₂, hquiet₃⟩)

end Calls

/-! ### Runs -/

/-- The calls of one client operation. -/
inductive Call where
  | connect (addresses : List Address) (fd : Int)
  | read (fd : Int) (count : Nat)
  | write (fd : Int) (data : Bytes)

/-- The system, and the variable that the calls of an operation share. -/
structure Budget where
  kernel : Kernel
  timeout : Int

def Call.run : Call → Int → Os (ArakoonRc × Int)
  | .connect addresses fd, timeout => do
      let out ← Networking.connect addresses fd timeout
      pure (out.rc, out.timeout)
  | .read fd count, timeout => do
      let out ← pollRead fd count timeout
      pure (out.rc, out.timeout)
  | .write fd data, timeout => do
      let out ← pollWrite fd data timeout
      pure (out.rc, out.timeout)

/-- One call; there is no step where the answers end before the call does. -/
def step (call : Call) (s : Budget) : Except Unit (ArakoonRc × Budget) :=
  match (call.run s.timeout).run s.kernel with
  | none => .error ()
  | some ((rc, timeout), kernel) => .ok (rc, ⟨kernel, timeout⟩)

/-- The remainder is taken from a reading that is one millisecond behind the end of the budget, by the measure of
`time_delta` and of an `int`. -/
def Late (budget : Int) (used : List Answer) : Prop :=
  ∃ start now, .clock .start (.ok start) ∈ used ∧ .clock .remainder (.ok now) ∈ used ∧
    2 ^ 32 ∣ timeDelta start now - (budget + 1)

/-- The call does not take its remainder from such a reading. -/
def Call.InTime (call : Call) (s : Budget) : Prop :=
  ∀ out k' used, (call.run s.timeout).run s.kernel = some (out, k') → s.kernel.Takes used k' → ¬Late s.timeout used

theorem timeLeft_eq_infinite {budget : Int} {start now : Timespec} :
    timeLeft budget start now = infiniteTimeout ↔ 2 ^ 32 ∣ timeDelta start now - (budget + 1) := by
  have hcast : ((2 ^ 32 : Nat) : Int) = 4294967296 := rfl
  have hpow : (2 : Int) ^ 32 = 4294967296 := rfl
  unfold timeLeft int32 Int.bmod infiniteTimeout
  rw [hcast, hpow]
  dsimp only
  split_ifs <;> omega

theorem Left.infinite_iff {budget : Int} (hbudget : budget ≠ infiniteTimeout) {used : List Answer} {v : Int}
    (h : Left budget used v) : v = infiniteTimeout ↔ Late budget used := by
  cases h with
  | kept hnone =>
      exact ⟨fun hinfinite => absurd hinfinite hbudget, fun ⟨_, now, _, hmem, _⟩ => absurd hmem (hnone now)⟩
  | spent hnone =>
      exact ⟨fun hinfinite => absurd hinfinite (by decide), fun ⟨_, now, _, hmem, _⟩ => absurd hmem (hnone now)⟩
  | @stored start now mid hquiet =>
      have hstart : ∀ t, .clock .start (.ok t) ∉ mid := fun t hmem => by
        have := hquiet _ hmem
        cases this
      have hnow : ∀ t, .clock .remainder (.ok t) ∉ mid := noRemainder_of_quiet hquiet
      simp only [timeLeft_eq_infinite, Late, List.mem_cons, List.mem_append, List.not_mem_nil, or_false, hstart, hnow,
        Answer.clock.injEq, reduceCtorEq, false_and, false_or, true_and, Except.ok.injEq]
      exact ⟨fun hlate => ⟨start, now, rfl, rfl, hlate⟩, fun ⟨_, _, rfl, rfl, hlate⟩ => hlate⟩

theorem ensures_call {timeout : Int} (htimeout : timeout ≠ infiniteTimeout) {k : Kernel} (hclock : k.ClockWorks)
    (call : Call) : Ensures (call.run timeout) k fun out k' => ∃ used, k.Takes used k' ∧ Left timeout used out.2 := by
  cases call with
  | connect addresses fd => exact (ensures_connect htimeout hclock addresses fd).bind fun _ _ h => .pure h
  | read fd count => exact (ensures_pollAct htimeout .read fd [] count).bind fun _ _ h => .pure h
  | write fd data => exact (ensures_pollAct htimeout .write fd data data.length).bind fun _ _ h => .pure h

theorem Kernel.Takes.unique {k k' : Kernel} {used used' : List Answer} (h : k.Takes used k') (h' : k.Takes used' k') :
    used = used' := by
  have heq : used ++ k'.answers = used' ++ k'.answers := h.symm.trans h'
  exact List.append_cancel_right heq

/-- A call that starts with a time limit loses it if and only if it takes a late remainder. -/
theorem step_finite_iff {call : Call} {s s' : Budget} {rc : ArakoonRc} (hstep : step call s = .ok (rc, s'))
    (hlimit : s.timeout ≠ infiniteTimeout) (hclock : s.kernel.ClockWorks) :
    (s'.timeout ≠ infiniteTimeout ↔ call.InTime s) ∧ s'.kernel.ClockWorks := by
  unfold step at hstep
  split at hstep
  · cases hstep
  · rename_i rc' timeout' k' hrun
    obtain ⟨-, rfl⟩ := Prod.mk.inj (Except.ok.inj hstep)
    obtain ⟨used, htakes, hleft⟩ := ensures_call hlimit hclock call _ _ hrun
    refine ⟨?_, hclock.after htakes⟩
    have hlate : timeout' = infiniteTimeout ↔ Late s.timeout used := hleft.infinite_iff hlimit
    constructor
    · intro hfinite out k'' used' hrun' htakes' hlate'
      obtain ⟨-, rfl⟩ := Prod.mk.inj (Option.some.inj (hrun.symm.trans hrun'))
      rw [htakes'.unique htakes] at hlate'
      exact hfinite (hlate.mpr hlate')
    · intro hintime hinfinite
      exact hintime _ k' used hrun htakes (hlate.mp hinfinite)

/-- An operation that starts with a time limit keeps one, over all calls it makes, unless the remainder of a call is
taken from a reading one millisecond behind its end. The first such call leaves it without a limit. -/
theorem timeout_stays_finite {k : Kernel} (hclock : k.ClockWorks) {timeout : Int}
    (htimeout : timeout ≠ infiniteTimeout) {history : List (Call × ArakoonRc)} {s : Budget}
    (h : Run step Call.InTime ⟨k, timeout⟩ history s) :
    s.timeout ≠ infiniteTimeout ∧
      ∀ call rc s', step call s = .ok (rc, s') → (s'.timeout ≠ infiniteTimeout ↔ call.InTime s) := by
  have hinv : s.timeout ≠ infiniteTimeout ∧ s.kernel.ClockWorks := by
    apply h.invariant (I := fun s => s.timeout ≠ infiniteTimeout ∧ s.kernel.ClockWorks) ⟨htimeout, hclock⟩
    intro call s rc s' ⟨hlimit, hclock⟩ hintime hstep
    obtain ⟨hfinite, hworks⟩ := step_finite_iff hstep hlimit hclock
    exact ⟨hfinite.mpr hintime, hworks⟩
  exact ⟨hinv.1, fun call rc s' hstep => (step_finite_iff hstep hinv.1 hinv.2).1⟩

def writable : Revents := ⟨false, true, false, false, false, false⟩

/-- A byte is written at once, and the clock is read before and after it. -/
def writingUntil (now : Timespec) : Kernel where
  answers := [.clock .start (.ok ⟨0, 0⟩), .clock .check (.ok ⟨0, 0⟩), .poll (.ok (1, [writable])), .write (.ok 1),
    .clock .remainder (.ok now)]
  log := []

theorem clockWorks_writingUntil (now : Timespec) : (writingUntil now).ClockWorks := by
  intro use r hmem
  simp only [writingUntil, List.mem_cons, Answer.clock.injEq, reduceCtorEq, List.not_mem_nil, or_false, false_or]
    at hmem
  rcases hmem with ⟨-, rfl⟩ | ⟨-, rfl⟩ | ⟨-, rfl⟩
  · exact ⟨_, rfl⟩
  · exact ⟨_, rfl⟩
  · exact ⟨_, rfl⟩

/-- With one millisecond, of which two have gone by when the byte is written, the rest of the operation has no
limit. -/
theorem pollWrite_late :
    (1 : Int) ≠ infiniteTimeout ∧ (writingUntil ⟨0, 2000000⟩).ClockWorks ∧ ∃ k, Run step (fun _ _ => True)
      ⟨writingUntil ⟨0, 2000000⟩, 1⟩ [(.write 3 [7], 0)] ⟨k, infiniteTimeout⟩ :=
  ⟨by decide, clockWorks_writingUntil _, _, .call .nil trivial rfl⟩

/-- With one second, of which three tenths have gone by, seven tenths are left. -/
theorem timeout_stays_finite_write :
    ∃ k, Run step Call.InTime ⟨writingUntil ⟨0, 300000000⟩, 1000⟩ [(.write 3 [7], 0)] ⟨k, 700⟩ ∧
      (700 : Int) ≠ infiniteTimeout ∧
      ∀ call rc s', step call ⟨k, 700⟩ = .ok (rc, s') → (s'.timeout ≠ infiniteTimeout ↔ call.InTime ⟨k, 700⟩) := by
  obtain ⟨k, hstep⟩ : ∃ k, step (.write 3 [7]) ⟨writingUntil ⟨0, 300000000⟩, 1000⟩ = .ok (0, ⟨k, 700⟩) := ⟨_, rfl⟩
  have hintime : (Call.write 3 [7]).InTime ⟨writingUntil ⟨0, 300000000⟩, 1000⟩ :=
    (step_finite_iff hstep (by decide) (clockWorks_writingUntil _)).1.mp (show (700 : Int) ≠ infiniteTimeout by decide)
  have hrun := Run.call .nil hintime hstep
  exact ⟨k, hrun, timeout_stays_finite (clockWorks_writingUntil _) (by decide) hrun⟩

end Crakoon.Networking
