import Crakoon.TransferMachine

/-!
# Transfers are exact

Whatever the system calls give, a call that succeeds has moved exactly the bytes it was asked for, in the order of the
stream, and one that fails a prefix of them; nothing beyond them is taken, and how the stream was cut into pieces makes
no difference. The invariant ties what has been moved to the answers that were taken.
-/

namespace Crakoon.Networking

open Programs Machines

/-- The bytes that an answer brings. -/
def Answer.arrived : Answer → Bytes
  | .read (.ok bs) => bs
  | _ => []

/-- How many bytes an answer accepts. -/
def Answer.accepted : Answer → Nat
  | .write (.ok n) => n
  | _ => 0

/-- The part of the stream that the answers bring. -/
def arrivals (answers : List Answer) : Bytes := answers.flatMap Answer.arrived

def acceptances (answers : List Answer) : Nat := (answers.map Answer.accepted).sum

/-- How many bytes an action has moved by the answers it has taken. -/
def transferred (action : NetworkAction) (used : List Answer) : Nat :=
  match action with
  | .read => (arrivals used).length
  | .write => acceptances used

theorem arrivals_append (answers more : List Answer) : arrivals (answers ++ more) = arrivals answers ++ arrivals more :=
  List.flatMap_append ..

theorem acceptances_append (answers more : List Answer) :
    acceptances (answers ++ more) = acceptances answers + acceptances more := by
  rw [acceptances, List.map_append, List.sum_append]
  rfl

theorem transferred_append (action : NetworkAction) (answers more : List Answer) :
    transferred action (answers ++ more) = transferred action answers + transferred action more := by
  cases action with
  | read => rw [transferred, arrivals_append, List.length_append]; rfl
  | write => exact acceptances_append answers more

/-- The answers have moved `moved`, out of `count` bytes and in their order. -/
structure Moved (action : NetworkAction) (data : Bytes) (count : Nat) (used : List Answer) (moved : Bytes) : Prop where
  length : moved.length ≤ count
  transferred : transferred action used = moved.length
  read : action = .read → arrivals used = moved
  write : action = .write → moved <+: data

section Invariant

variable {action : NetworkAction} {data : Bytes} {count : Nat} {used : List Answer}

/-- An answer that moves nothing. -/
theorem Moved.silent {moved : Bytes} (h : Moved action data count used moved) {a : Answer} (harrived : a.arrived = [])
    (haccepted : a.accepted = 0) : Moved action data count (used ++ [a]) moved := by
  have harrivals : arrivals [a] = [] := by simp [arrivals, harrived]
  have hacceptances : acceptances [a] = 0 := by simp [acceptances, haccepted]
  refine ⟨h.length, ?_, fun hread => ?_, h.write⟩
  · rw [transferred_append, h.transferred]
    cases action with
    | read => rw [Networking.transferred, harrivals]; rfl
    | write => rw [Networking.transferred, hacceptances]; rfl
  · rw [arrivals_append, harrivals, List.append_nil, h.read hread]

/-- What a call has moved and what it is still to move make up the block. -/
structure Progress.Exact (action : NetworkAction) (data : Bytes) (count : Nat) (used : List Answer) (p : Progress) :
    Prop where
  moved : Moved action data count used p.done
  whole : p.done.length + p.todo = count
  rest : action = .write → data = p.done ++ p.data

/-- A state that keeps to the block. It comes to the last reading with success only when nothing is left. -/
def TransferState.Exact (action : NetworkAction) (data : Bytes) (count : Nat) (used : List Answer) :
    TransferState → Prop
  | .calling point _ p => p.Exact action data count used ∧ (point = .remainder 0 → p.todo = 0)
  | .ended out => Moved action data count used out.moved ∧ (out.rc = 0 → out.moved.length = count)

theorem Progress.Exact.silent {p : Progress} (h : p.Exact action data count used) {a : Answer}
    (harrived : a.arrived = []) (haccepted : a.accepted = 0) : p.Exact action data count (used ++ [a]) :=
  ⟨h.moved.silent harrived haccepted, h.whole, h.rest⟩

theorem Progress.Exact.failed {p : Progress} (h : p.Exact action data count used) {rc : ArakoonRc} (hrc : rc ≠ 0)
    (timeout : Int) : TransferState.Exact action data count used (.ended ⟨rc, p.done, timeout⟩) :=
  ⟨h.moved, fun hzero => absurd hzero hrc⟩

theorem Progress.Exact.loopHead {p : Progress} (h : p.Exact action data count used) (timeout : Int)
    (limit : Option (Int × Timespec)) : (loopHead timeout limit p).Exact action data count used := by
  have hwhole := h.whole
  cases limit with
  | none =>
      rw [Networking.loopHead]
      split_ifs with htodo
      · exact ⟨h.moved, fun _ => by rw [← hwhole, htodo]; rfl⟩
      · exact ⟨h, fun hpoint => by cases hpoint⟩
  | some limit =>
      rw [Networking.loopHead]
      split_ifs with htodo
      · exact ⟨h, fun _ => htodo⟩
      · exact ⟨h, fun hpoint => by cases hpoint⟩

/-- A `read` or `write` that moves bytes moves the next ones of the block, and no more than are left of it. -/
theorem Progress.Exact.act (hdata : action = .write → data.length = count) {p : Progress}
    (h : p.Exact action data count used) {a : Answer} {bs : Bytes}
    (hact : given (act action p.data p.todo) a = some (.ok bs)) :
    (p.move bs).Exact action data count (used ++ [a]) := by
  have hwhole := h.whole
  cases action with
  | read =>
      obtain ⟨rfl, hlength⟩ := given_read.mp hact
      have hle := hlength bs rfl
      have harrivals : arrivals (used ++ [.read (.ok bs)]) = p.done ++ bs := by
        rw [arrivals_append, h.moved.read rfl]
        simp [arrivals, Answer.arrived]
      have htotal : (p.done ++ bs).length + (p.todo - bs.length) = count := by
        rw [List.length_append]
        omega
      refine ⟨⟨?_, congrArg List.length harrivals, fun _ => harrivals, fun hwrite => by cases hwrite⟩, htotal,
        fun hwrite => by cases hwrite⟩
      exact Nat.le.intro htotal
  | write =>
      obtain ⟨written, rfl, hbs, hle⟩ := given_write.mp hact
      obtain ⟨n, rfl, rfl⟩ : ∃ n, written = .ok n ∧ bs = p.data.take n := by
        cases written with
        | error e => cases hbs
        | ok n => exact ⟨n, rfl, Except.ok.inj hbs⟩
      have hn := hle n rfl
      have htaken : (p.data.take n).length = n := List.length_take_of_le hn
      have hrest := h.rest rfl
      have hlength : p.done.length + p.data.length = count := by rw [← hdata rfl, hrest, List.length_append]
      have htotal : (p.done ++ p.data.take n).length + (p.todo - (p.data.take n).length) = count := by
        rw [List.length_append, htaken]
        omega
      have hsplit : data = (p.done ++ p.data.take n) ++ p.data.drop (p.data.take n).length := by
        rw [htaken, List.append_assoc, List.take_append_drop, ← hrest]
      refine ⟨⟨Nat.le.intro htotal, ?_, fun hread => (by cases hread), fun _ => ⟨_, hsplit.symm⟩⟩, htotal,
        fun _ => hsplit⟩
      rw [transferred_append, h.moved.transferred, Progress.move_done, List.length_append, htaken]
      simp [Networking.transferred, acceptances, Answer.accepted]

/-- Every step keeps to the block. -/
theorem TransferStep.exact (hdata : action = .write → data.length = count) {fd timeout : Int}
    {s s' : TransferState} {a : Answer} {calls : List Syscall} (hstep : TransferStep action fd timeout s a calls s')
    (h : s.Exact action data count used) : s'.Exact action data count (used ++ [a]) := by
  cases hstep with
  | start limit p r =>
      have hsilent := h.1.silent (a := .clock .start r) rfl rfl
      cases r with
      | error e => exact hsilent.failed e.rc_ne_zero timeout
      | ok start => exact hsilent.loopHead timeout (some (timeout, start))
  | check budget start p r =>
      have hsilent := h.1.silent (a := .clock .check r) rfl rfl
      cases r with
      | error e => exact hsilent.failed e.rc_ne_zero timeout
      | ok now =>
          rw [afterCheck]
          split_ifs with hspent
          · exact hsilent.failed timedOut.2 0
          · exact ⟨hsilent, fun hpoint => by cases hpoint⟩
  | poll now limit p r =>
      have hsilent := h.1.silent (a := .poll r) rfl rfl
      have hends : ∀ rc : Failure,
          (TransferState.calling (.remainder rc.1) (some limit) p).Exact action data count (used ++ [.poll r]) :=
        fun rc => ⟨hsilent, fun hpoint => absurd (Point.remainder.inj hpoint) rc.2⟩
      cases r with
      | error e => exact hends e.failure
      | ok found =>
          obtain ⟨polled, entries⟩ := found
          dsimp only [afterPoll]
          split_ifs with hnone hbroken herr hevent
          · exact hsilent.failed timedOut.2 0
          · exact hends networkError
          · exact hends notConnected
          · exact ⟨hsilent, fun hpoint => by cases hpoint⟩
          · exact hsilent.loopHead timeout _
  | act limit p a r hact =>
      cases r with
      | error e =>
          have hsilent : p.Exact action data count (used ++ [a]) := by
            cases action with
            | read =>
                obtain ⟨rfl, -⟩ := given_read.mp hact
                exact h.1.silent rfl rfl
            | write =>
                obtain ⟨written, rfl, hwritten, -⟩ := given_write.mp hact
                cases written with
                | error e' => exact h.1.silent rfl rfl
                | ok n => cases hwritten
          rw [afterAct]
          split_ifs with hagain
          · exact hsilent.loopHead timeout limit
          · exact hsilent.failed e.rc_ne_zero timeout
      | ok bs =>
          rw [afterAct]
          split_ifs with hclosed
          · obtain ⟨rfl, rfl⟩ := hclosed
            obtain ⟨rfl, -⟩ := given_read.mp hact
            exact (h.1.silent rfl rfl).failed networkError.2 timeout
          · exact (h.1.act hdata hact).loopHead timeout limit
  | remainder rc budget start p r =>
      have hsilent := h.1.silent (a := .clock .remainder r) rfl rfl
      cases r with
      | error e => exact hsilent.failed e.rc_ne_zero timeout
      | ok now =>
          refine ⟨hsilent.moved, fun hzero => ?_⟩
          have htodo := h.2 (congrArg Point.remainder hzero)
          rw [← hsilent.whole, htodo]
          rfl

theorem exact_transferBegin (fd timeout : Int) :
    (transferBegin fd timeout data count).Exact action data count [] := by
  have hstart : Progress.Exact action data count [] ⟨data, count, []⟩ :=
    ⟨⟨Nat.zero_le _, by cases action <;> rfl, fun _ => rfl, fun _ => List.nil_prefix⟩, Nat.zero_add _, fun _ => rfl⟩
  rw [transferBegin]
  split_ifs with hfd hinfinite hspent
  · exact hstart.failed notConnected.2 timeout
  · exact hstart.loopHead timeout none
  · exact hstart.failed timedOut.2 timeout
  · exact ⟨hstart, fun hpoint => by cases hpoint⟩

/-- Wherever a call stands, it has moved a part of the block by the answers taken so far. -/
theorem exact_of_path (hdata : action = .write → data.length = count) {fd timeout : Int} {s : TransferState}
    {calls : List Syscall}
    (h : Path (transferStep action fd timeout) (transferBegin fd timeout data count) used calls s) :
    s.Exact action data count used :=
  h.invariant (I := fun used _ s => s.Exact action data count used) (exact_transferBegin fd timeout)
    fun _ _ _ _ _ _ hexact hstep => (transferStep_eq_some_iff.mp hstep).exact hdata hexact

theorem TransferState.Exact.transferred_le {s : TransferState} (h : s.Exact action data count used) :
    transferred action used ≤ count := by
  cases s with
  | calling point limit p => exact h.1.moved.transferred ▸ h.1.moved.length
  | ended out => exact h.1.transferred ▸ h.1.length

end Invariant

/-- What a call comes to that takes the answers of `k` and leaves those of `k'`. -/
structure ExactTransfer (action : NetworkAction) (data : Bytes) (count : Nat) (k : Kernel) (out : Transfer)
    (k' : Kernel) : Prop where
  /-- At no moment have more than `count` bytes been moved, so the counter of what is left never passes below zero. -/
  counter : ∀ before after, k.answers = before ++ after ++ k'.answers → transferred action before ≤ count
  /-- The bytes that are reported are as many as were moved: all of them on success. -/
  length : ∀ used, k.Takes used k' → transferred action used = out.moved.length
  whole : out.rc = 0 → out.moved.length = count
  /-- What is read are the next bytes of the stream, and the stream goes on behind them. -/
  read : action = .read → ∀ stream, arrivals k.answers <+: stream → out.moved <+: stream.take count ∧
    (out.rc = 0 → out.moved = stream.take count) ∧
    arrivals k'.answers = (arrivals k.answers).drop out.moved.length
  /-- What is written are the first bytes of the block. -/
  write : action = .write → out.moved <+: data ∧ (out.rc = 0 → out.moved = data)

/-- A call moves exactly the bytes it was asked for, in their order, or a prefix of them where it fails, whatever the
system calls give; and two calls that read from one stream and succeed have read the same. -/
theorem exact_transfer {action : NetworkAction} {fd timeout : Int} {data : Bytes} {count : Nat}
    (hdata : action = .write → data.length = count) {k k' : Kernel} {out : Transfer}
    (hrun : (pollAct action fd data count timeout).run k = some (out, k')) :
    ExactTransfer action data count k out k' ∧
    ∀ fd' timeout' k₁ k₁' out', (pollAct action fd' data count timeout').run k₁ = some (out', k₁') →
      (action = .read → ∃ stream, arrivals k.answers <+: stream ∧ arrivals k₁.answers <+: stream) →
      out.rc = 0 → out'.rc = 0 → out'.moved = out.moved := by
  have hexact : ∀ {fd timeout : Int} {k k' : Kernel} {out : Transfer},
      (pollAct action fd data count timeout).run k = some (out, k') → ExactTransfer action data count k out k' := by
    intro fd timeout k k' out hrun
    obtain ⟨used, calls, hgoes, hpath⟩ := pollAct_run_iff.mp hrun
    obtain ⟨hmoved, hwhole⟩ := exact_of_path hdata hpath
    have hused : k.answers = used ++ k'.answers := hgoes.takes
    constructor
    · intro before after hanswers
      obtain rfl : used = before ++ after := List.append_cancel_right (hused.symm.trans hanswers)
      obtain ⟨s, _, _, hbefore, -⟩ := hpath.split
      exact (exact_of_path hdata hbefore).transferred_le
    · intro used' htakes
      rw [htakes.unique hgoes.takes]
      exact hmoved.transferred
    · exact hwhole
    · intro hread stream hstream
      have harrivals : arrivals k.answers = out.moved ++ arrivals k'.answers := by
        rw [hused, arrivals_append, hmoved.read hread]
      have hfront : out.moved <+: stream := (List.prefix_append _ _).trans (harrivals ▸ hstream)
      refine ⟨List.prefix_take_iff.mpr ⟨hfront, hmoved.length⟩, fun hrc => ?_, ?_⟩
      · rw [← hwhole hrc]
        exact List.prefix_iff_eq_take.mp hfront
      · rw [harrivals, List.drop_left]
    · intro hwrite
      refine ⟨hmoved.write hwrite, fun hrc => (hmoved.write hwrite).eq_of_length ?_⟩
      rw [hwhole hrc, hdata hwrite]
  refine ⟨hexact hrun, fun fd' timeout' k₁ k₁' out' hrun' hstream hrc hrc' => ?_⟩
  cases action with
  | read =>
      obtain ⟨stream, hk, hk₁⟩ := hstream rfl
      rw [((hexact hrun).read rfl stream hk).2.1 hrc, ((hexact hrun').read rfl stream hk₁).2.1 hrc']
  | write => rw [((hexact hrun).write rfl).2 hrc, ((hexact hrun').write rfl).2 hrc']

/-- Three bytes that arrive in two pieces, with an interruption between them and a byte behind them. -/
theorem exact_transfer_pieces :
    let k : Kernel := ⟨[.read (.ok [1]), .read (.error eintr), .read (.ok [2, 3]), .read (.ok [4])], []⟩
    ExactTransfer .read [] 3 k ⟨0, [1, 2, 3], infiniteTimeout⟩ ⟨[.read (.ok [4])], []⟩ :=
  have hrun : (pollAct .read 3 [] 3 infiniteTimeout).run
      ⟨[.read (.ok [1]), .read (.error eintr), .read (.ok [2, 3]), .read (.ok [4])], []⟩ =
      some (⟨0, [1, 2, 3], infiniteTimeout⟩, ⟨[.read (.ok [4])], []⟩) := rfl
  (exact_transfer (fun hwrite => by cases hwrite) hrun).1

end Crakoon.Networking
