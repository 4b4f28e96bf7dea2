import Crakoon.TimeBudget

/-!
# The rounds of the loops

The loops of `arakoon-networking.c` go on until a system call ends them. Each round takes answers of the kernel, so that
a loop that is given more rounds than there are answers is not cut short by them: any such number of rounds gives the
same.
-/

namespace Crakoon.Networking

open Programs

def Kernel.left (k : Kernel) : Nat := k.answers.length

theorem Kernel.Takes.left_le {k k' : Kernel} {used : List Answer} (h : k.Takes used k') : k'.left ≤ k.left := by
  unfold Kernel.left
  rw [h, List.length_append]
  exact Nat.le_add_left _ _

theorem Quiet.left_le {α : Type} {m : Os α} (h : Quiet m) (k : Kernel) :
    Ensures m k fun _ k' => k'.left ≤ k.left :=
  (h k).mono fun _ _ ⟨_, htakes, _⟩ => htakes.left_le

theorem ensures_ask_left {α : Type} (pick : Answer → Option α) (k : Kernel) :
    Ensures (ask pick) k fun _ k' => k'.left < k.left := by
  refine (ensures_ask pick k).mono fun r k' ⟨a, _, htakes⟩ => ?_
  unfold Kernel.left
  rw [htakes, List.length_append, List.length_singleton]
  omega

theorem ensures_poll_left (fds : List Int) (timeout : Int) (k : Kernel) :
    Ensures (poll fds timeout) k fun _ k' => k'.left < k.left := by
  refine ((quiet_note _).left_le k).bind fun _ k₁ hnote => (ensures_ask_left _ k₁).mono fun r k' hask => ?_
  exact Nat.lt_of_lt_of_le hask hnote

theorem ensures_act_left (action : NetworkAction) (data : Bytes) (todo : Nat) (k : Kernel) :
    Ensures (act action data todo) k fun _ k' => k'.left < k.left := by
  cases action with
  | read => exact ensures_ask_left _ k
  | write => exact ensures_ask_left _ k

/-- A wait that does not end the call has taken answers. -/
theorem ensures_await_left (action : NetworkAction) (fd budget : Int) (start : Timespec) (timeout : Int)
    (k : Kernel) : Ensures (await action fd budget start timeout) k fun w k' =>
      w = .ready ∨ w = .again → k'.left < k.left := by
  have hstops : ∀ rc k₁, Ensures (stopWithRemainder rc budget start timeout) k₁ fun w k' =>
      w = .ready ∨ w = .again → k'.left < k.left := by
    refine fun rc k₁ => Ensures.bind (P := fun _ _ => True) (fun _ _ _ => trivial) fun r k₂ _ => ?_
    cases r with
    | error e => exact .pure (by simp)
    | ok now => exact .pure (by simp)
  refine (ensures_ask_left _ k).bind fun r k₁ hclock => ?_
  cases r with
  | error e => exact .pure (by simp)
  | ok now =>
      refine .ite (fun _ => .pure (by simp)) fun _ => (ensures_poll_left _ _ k₁).bind fun r k₂ hpoll => ?_
      cases r with
      | error e => exact hstops _ k₂
      | ok found =>
          have hleft : k₂.left < k.left := Nat.lt_trans hpoll hclock
          refine .ite (fun _ => .pure (by simp)) fun _ => .ite (fun _ => hstops _ k₂) fun _ => ?_
          exact .ite (fun _ => .pure fun _ => hleft) fun _ => .pure fun _ => hleft

theorem ensures_awaitLimit_left (action : NetworkAction) (fd : Int) (limit : Option (Int × Timespec)) (timeout : Int)
    (k : Kernel) : Ensures (awaitLimit action fd limit timeout) k fun w k' =>
      (w = .ready → k'.left ≤ k.left) ∧ (w = .again → k'.left < k.left) := by
  cases limit with
  | none => exact .pure ⟨fun _ => Nat.le_refl _, fun h => by cases h⟩
  | some limit =>
      refine (ensures_await_left action fd limit.1 limit.2 timeout k).mono fun w k' h => ?_
      exact ⟨fun hready => Nat.le_of_lt (h (.inl hready)), fun hagain => h (.inr hagain)⟩

/-- Once there are more rounds than answers, one more makes no difference. -/
theorem pollActLoop_succ (action : NetworkAction) (fd : Int) (limit : Option (Int × Timespec)) (timeout : Int)
    {rounds : Nat} (data : Bytes) (todo : Nat) (done : Bytes) {k : Kernel} (h : k.left < rounds) :
    (pollActLoop action fd limit timeout (rounds + 1) data todo done).run k =
      (pollActLoop action fd limit timeout rounds data todo done).run k := by
  induction rounds generalizing data todo done k with
  | zero => exact absurd h (Nat.not_lt_zero _)
  | succ rounds ih =>
      -- a round that goes on has taken an answer, so what is left stays below the rounds that are left
      conv_lhs => unfold pollActLoop
      conv_rhs => unfold pollActLoop
      by_cases htodo : todo = 0
      · rw [if_pos htodo, if_pos htodo]
      · rw [if_neg htodo, if_neg htodo]
        apply Ensures.bind_congr rfl
        refine (ensures_awaitLimit_left action fd limit timeout k).mono fun w k₁ hwait => ?_
        obtain ⟨hready, hagain⟩ := hwait
        cases w with
        | stop rc v => rfl
        | again =>
            have hleft := hagain rfl
            exact ih data todo done (by omega)
        | ready =>
            have hleft := hready rfl
            apply Ensures.bind_congr rfl
            refine (ensures_act_left action data todo k₁).mono fun r k₂ hact => ?_
            have hrest : k₂.left < rounds := by omega
            cases r with
            | error e =>
                dsimp only
                split_ifs with hagain
                · exact ih data todo done hrest
                · rfl
            | ok bs =>
                dsimp only
                split_ifs with hnone
                · rfl
                · exact ih _ _ _ hrest

/-- A transfer has no outcome only where the answers do not fit the calls: any number of rounds that exceeds that of
the answers gives the same. -/
theorem pollActRounds_eq (action : NetworkAction) (fd : Int) (limit : Option (Int × Timespec)) (timeout : Int)
    (data : Bytes) (count : Nat) {rounds : Nat} {k : Kernel} (h : k.left < rounds) :
    (pollActLoop action fd limit timeout rounds data count []).run k =
      (pollActRounds action fd limit timeout data count).run k := by
  induction rounds, h using Nat.le_induction with
  | base => rfl
  | succ rounds hle ih => rw [pollActLoop_succ action fd limit timeout data count [] hle, ih]

theorem ensures_pollUninterrupted_left (fds : List Int) (timeout : Int) (rounds : Nat) (k : Kernel) :
    Ensures (pollUninterrupted fds timeout rounds) k fun _ k' => k'.left < k.left := by
  induction rounds generalizing k with
  | zero => exact fun out k' hrun => by cases hrun
  | succ rounds ih =>
      refine (ensures_poll_left fds timeout k).bind fun r k₁ hpoll => ?_
      cases r with
      | ok found => exact .pure hpoll
      | error e => exact .ite (fun _ => (ih k₁).mono fun _ k' hleft => Nat.lt_trans hleft hpoll) fun _ => .pure hpoll

theorem pollUninterrupted_succ (fds : List Int) (timeout : Int) {rounds : Nat} {k : Kernel} (h : k.left ≤ rounds) :
    (pollUninterrupted fds timeout (rounds + 1)).run k = (pollUninterrupted fds timeout rounds).run k := by
  induction rounds generalizing k with
  | zero =>
      cases hrun : (pollUninterrupted fds timeout 1).run k with
      | none => rfl
      | some out =>
          have hleft := ensures_pollUninterrupted_left fds timeout 1 k out.1 out.2 hrun
          omega
  | succ rounds ih =>
      conv_lhs => unfold pollUninterrupted
      conv_rhs => unfold pollUninterrupted
      apply Ensures.bind_congr rfl
      refine (ensures_poll_left fds timeout k).mono fun r k₁ hpoll => ?_
      cases r with
      | ok found => rfl
      | error e =>
          dsimp only
          split_ifs with hinterrupted
          · exact ih (by omega)
          · rfl

theorem connectLoop_succ (limit : Option (Int × Timespec)) {rounds : Nat} (fds : List Int) (now : Timespec)
    {k : Kernel} (h : k.left < rounds) :
    (connectLoop limit (rounds + 1) fds now).run k = (connectLoop limit rounds fds now).run k := by
  induction rounds generalizing fds now k with
  | zero => exact absurd h (Nat.not_lt_zero _)
  | succ rounds ih =>
      conv_lhs => unfold connectLoop
      conv_rhs => unfold connectLoop
      apply Ensures.bind_congr rfl
      refine ((quiet_checkTime limit now).left_le k).mono fun out k₁ hcheck => ?_
      obtain ⟨checked, now⟩ := out
      cases checked with
      | error rc => rfl
      | ok left =>
          dsimp only
          split_ifs with hpending
          · rfl
          · have hleft : k₁.left ≤ rounds := by omega
            apply Ensures.bind_congr (pollUninterrupted_succ _ _ hleft)
            refine (ensures_pollUninterrupted_left _ _ _ k₁).mono fun r k₂ hpoll => ?_
            cases r with
            | error e => rfl
            | ok found =>
                dsimp only
                split_ifs with hnone
                · rfl
                · apply Ensures.bind_congr rfl
                  refine ((quiet_scanSockets _ _ _).left_le k₂).mono fun scanned k₃ hscan => ?_
                  split_ifs with hsock
                  · apply Ensures.bind_congr rfl
                    refine ((quiet_restoreFlags _ _).left_le k₃).mono fun restored k₄ hrestore => ?_
                    split_ifs with hrestored
                    · rfl
                    · exact ih restored.1 now (by omega)
                  · exact ih scanned.1 now (by omega)

/-- The same of the wait for a connection. -/
theorem connectLoop_eq (limit : Option (Int × Timespec)) (fds : List Int) (now : Timespec) {rounds : Nat}
    {k : Kernel} (h : k.left < rounds) :
    (connectLoop limit rounds fds now).run k = (connectLoop limit (k.left + 1) fds now).run k := by
  induction rounds, h using Nat.le_induction with
  | base => rfl
  | succ rounds hle ih => rw [connectLoop_succ limit fds now hle, ih]

end Crakoon.Networking
