import Crakoon.Networking
import Mathlib.Data.List.Nodup

/-!
# A round of the connect loop

`poll` is given the sockets that are pending, packed at the front of an array, and returns how many of them are marked.
The loop then looks at that many entries from the front. `Acts` says what it makes of the entries it looks at, and
`Round.Of` what a round comes to; `connectLoop_round` says that the loop is made of such rounds.
-/

namespace Crakoon.Networking

open Programs

def pendingSockets (fds : List Int) : List Int := fds.filter fun fd => 0 ≤ fd

/-- The entries of the sockets `socks` are set to -1. -/
def forget (socks fds : List Int) : List Int := fds.map fun fd => if fd ∈ socks then -1 else fd

theorem mem_pendingSockets {fd : Int} {fds : List Int} : fd ∈ pendingSockets fds ↔ fd ∈ fds ∧ 0 ≤ fd := by
  simp [pendingSockets]

theorem pendingSockets_forget (socks fds : List Int) :
    pendingSockets (forget socks fds) = (pendingSockets fds).filter (· ∉ socks) := by
  induction fds with
  | nil => rfl
  | cons fd fds ih =>
      unfold pendingSockets forget at *
      by_cases hmem : fd ∈ socks
      · rw [List.map_cons, if_pos hmem, List.filter_cons_of_neg (by decide), ih, List.filter_cons]
        split_ifs with hpending
        · rw [List.filter_cons_of_neg (by simpa using hmem)]
        · rfl
      · rw [List.map_cons, if_neg hmem, List.filter_cons, List.filter_cons, ih]
        split_ifs with hpending
        · rw [List.filter_cons_of_pos (by simpa using hmem)]
        · rfl

theorem forget_nil (fds : List Int) : forget [] fds = fds := by
  simp [forget]

theorem forget_forget (socks socks' fds : List Int) :
    forget socks (forget socks' fds) = forget (socks' ++ socks) fds := by
  simp only [forget, List.map_map, List.mem_append]
  apply List.map_congr_left
  intro fd _
  by_cases hmem : fd ∈ socks' <;> simp [hmem]

theorem forget_cons (socks : List Int) (fd : Int) (fds : List Int) :
    forget socks (fd :: fds) = (if fd ∈ socks then -1 else fd) :: forget socks fds := rfl

theorem forget_of_not_mem {sock : Int} {fds : List Int} (h : sock ∉ fds) : forget [sock] fds = fds := by
  conv_rhs => rw [← List.map_id fds]
  apply List.map_congr_left
  intro fd hmem
  have hne : fd ≠ sock := fun heq => h (heq ▸ hmem)
  simp [hne]

theorem mem_forget {fd : Int} (hfd : 0 ≤ fd) (socks fds : List Int) : fd ∈ forget socks fds ↔ fd ∈ fds ∧ fd ∉ socks := by
  have hpending : fd ∈ pendingSockets (forget socks fds) ↔ fd ∈ pendingSockets fds ∧ fd ∉ socks := by
    rw [pendingSockets_forget, List.mem_filter, decide_eq_true_eq]
  simpa only [mem_pendingSockets, hfd, and_true] using hpending

/-- Forgetting a pending socket leaves fewer of them. -/
theorem length_pendingSockets_forget {sock : Int} {socks fds : List Int} (hsock : sock ∈ socks)
    (hpending : sock ∈ pendingSockets fds) :
    (pendingSockets (forget socks fds)).length < (pendingSockets fds).length := by
  rw [pendingSockets_forget]
  apply List.length_filter_lt_length_iff_exists.mpr
  exact ⟨sock, hpending, by simpa using hsock⟩

def Revents.failed (revents : Revents) : Bool := revents.pollErr || revents.pollHup || revents.pollNval

/-- Writable, and not in error. -/
def Revents.ready (revents : Revents) : Bool := !revents.failed && revents.pollOut

def Revents.marked (revents : Revents) : Bool := revents.failed || revents.pollOut

theorem Revents.marked_iff (revents : Revents) : revents.marked ↔ revents.failed ∨ revents.ready := by
  unfold Revents.marked Revents.ready
  cases revents.failed <;> simp

def failedOf (entries : List (Int × Revents)) : List Int := (entries.filter fun entry => entry.2.failed).map Prod.fst

def readyOf (entries : List (Int × Revents)) : List Int := (entries.filter fun entry => entry.2.ready).map Prod.fst

theorem mem_failedOf {sock : Int} {entries : List (Int × Revents)} :
    sock ∈ failedOf entries ↔ ∃ entry ∈ entries, entry.2.failed ∧ entry.1 = sock := by
  simp [failedOf]

theorem mem_readyOf {sock : Int} {entries : List (Int × Revents)} :
    sock ∈ readyOf entries ↔ ∃ entry ∈ entries, entry.2.ready ∧ entry.1 = sock := by
  simp [readyOf]

theorem failedOf_cons (fd : Int) (revents : Revents) (entries : List (Int × Revents)) :
    failedOf ((fd, revents) :: entries) = if revents.failed then fd :: failedOf entries else failedOf entries := by
  simp only [failedOf, List.filter_cons]
  split_ifs <;> rfl

theorem readyOf_cons (fd : Int) (revents : Revents) (entries : List (Int × Revents)) :
    readyOf ((fd, revents) :: entries) = if revents.ready then fd :: readyOf entries else readyOf entries := by
  simp only [readyOf, List.filter_cons]
  split_ifs <;> rfl

/-- The calls that close sockets one after the other. -/
def closing (socks : List Int) : List Syscall := (socks.map Syscall.close).reverse

theorem mem_closing {sock : Int} {socks : List Int} : .close sock ∈ closing socks ↔ sock ∈ socks := by
  simp [closing]

theorem closing_cons (sock : Int) (socks : List Int) : closing (sock :: socks) = closing socks ++ [.close sock] := by
  simp [closing]

/-- The scan closes and forgets the sockets in error and chooses the last one that is writable. -/
theorem ensures_scanSockets (entries : List (Int × Revents)) (fds : List Int) (theSocket : Int) (k : Kernel) :
    Ensures (scanSockets entries fds theSocket) k fun out k' =>
      out = (forget (failedOf entries) fds, (readyOf entries).getLastD theSocket) ∧
        k.Goes [] (closing (failedOf entries)) k' := by
  induction entries generalizing fds theSocket k with
  | nil => exact .pure ⟨by rw [failedOf, List.filter_nil, List.map_nil, forget_nil]; rfl, .refl k⟩
  | cons entry entries ih =>
      obtain ⟨fd, revents⟩ := entry
      rw [failedOf_cons, readyOf_cons]
      refine Ensures.ite (c := revents.failed = true) (fun hfailed => ?_) fun hfailed => ?_
      · have hready : ¬ revents.ready := by simp [Revents.ready, hfailed]
        rw [if_pos hfailed, if_neg hready, closing_cons]
        refine (ensures_note _ k).bind fun _ k₁ hclose => (ih _ _ k₁).mono fun out k' hout => ?_
        obtain ⟨rfl, hgoes⟩ := hout
        refine ⟨?_, hclose.trans hgoes⟩
        have hforget : (fds.map fun f => if f = fd then -1 else f) = forget [fd] fds := by
          simp [forget]
        rw [hforget, forget_forget]
        rfl
      · rw [if_neg hfailed]
        refine .ite (fun hout => ?_) fun hout => ?_
        · have hready : revents.ready := by simp [Revents.ready, hfailed, hout]
          rw [if_pos hready, List.getLastD_cons]
          exact ih _ _ k
        · have hready : ¬ revents.ready := by simp [Revents.ready, hout]
          rw [if_neg hready]
          exact ih _ _ k

theorem restoreFlags_absent {sock : Int} {fds : List Int} (h : sock ∉ fds) (k : Kernel) :
    Ensures (restoreFlags sock fds) k fun out k' => out = (fds, false) ∧ k' = k := by
  induction fds generalizing k with
  | nil => exact .pure ⟨rfl, rfl⟩
  | cons fd fds ih =>
      have hfd := List.ne_of_not_mem_cons h
      have hfds := List.not_mem_of_not_mem_cons h
      refine .ite (fun heq => absurd heq.symm hfd) fun _ => (ih hfds k).bind fun out k₁ hout => ?_
      obtain ⟨rfl, rfl⟩ := hout
      exact .pure ⟨rfl, rfl⟩

/-- Either the flags are restored, or the socket is closed and forgotten. -/
theorem ensures_restoreFlags {sock : Int} {fds : List Int} (hsock : sock ∈ pendingSockets fds)
    (hnodup : (pendingSockets fds).Nodup) (k : Kernel) :
    Ensures (restoreFlags sock fds) k fun out k' =>
      (out = (fds, true) ∧ k.Goes [.fcntl (.ok ())] [] k') ∨
        ∃ e, out = (forget [sock] fds, false) ∧ k.Goes [.fcntl (.error e)] [.close sock] k' := by
  obtain ⟨hmem, hpos⟩ := mem_pendingSockets.mp hsock
  induction fds generalizing k with
  | nil => exact absurd hmem List.not_mem_nil
  | cons fd fds ih =>
      refine .ite (fun heq => ?_) fun hne => ?_
      · subst heq
        have habsent : fd ∉ fds := by
          intro hagain
          have hcons : pendingSockets (fd :: fds) = fd :: pendingSockets fds := by simp [pendingSockets, hpos]
          rw [hcons] at hnodup
          exact (List.nodup_cons.mp hnodup).1 (mem_pendingSockets.mpr ⟨hagain, hpos⟩)
        refine (ensures_fcntl k).bind fun r k₁ hfcntl => ?_
        cases r with
        | ok flags => exact .pure (.inl ⟨rfl, hfcntl⟩)
        | error e =>
            refine (ensures_note _ k₁).bind fun _ k₂ hclose => (restoreFlags_absent habsent k₂).bind fun out k₃ hout => ?_
            obtain ⟨rfl, rfl⟩ := hout
            refine .pure (.inr ⟨e, ?_, hfcntl.trans hclose⟩)
            rw [forget_cons, forget_of_not_mem habsent, if_pos List.mem_cons_self]
      · have hmem' : sock ∈ fds := (List.mem_cons.mp hmem).resolve_left fun heq => hne heq.symm
        have hnodup' : (pendingSockets fds).Nodup := (List.Sublist.filter _ (List.sublist_cons_self fd fds)).nodup hnodup
        refine (ih (mem_pendingSockets.mpr ⟨hmem', hpos⟩) hnodup' k hmem').bind fun out k₁ hout => ?_
        rcases hout with ⟨rfl, hgoes⟩ | ⟨e, rfl, hgoes⟩
        · exact .pure (.inl ⟨rfl, hgoes⟩)
        · refine .pure (.inr ⟨e, ?_, hgoes⟩)
          rw [forget_cons, if_neg (by simpa using hne)]

/-! ### One round, and what it does -/

/-- How a round ends: the call has a result, or the loop goes on with what is in `fds` and `now`. -/
inductive Round where
  | settled (out : Settled)
  | again (fds : List Int) (now : Timespec)

def Round.fds : Round → List Int
  | .settled out => out.fds
  | .again fds _ => fds

/-- The entries of `poll`, with their sockets. -/
def polled (fds : List Int) (entries : List Revents) : List (Int × Revents) := (pendingSockets fds).zip entries

/-- What a round makes of what `poll` has found. -/
def actOn (fds : List Int) (now : Timespec) (count : Nat) (entries : List Revents) : Os Round := do
  let (fds, theSocket) ← scanSockets ((polled fds entries).take count) fds (-1)
  if 0 ≤ theSocket then do
    let (fds, restored) ← restoreFlags theSocket fds
    pure (if restored then .settled ⟨ArakoonReturnCode.success, fds, theSocket, now⟩ else .again fds now)
  else pure (.again fds now)

/-- The body of the loop that waits for one of the sockets. -/
def connectRound (limit : Option (Int × Timespec)) (interrupts : Nat) (fds : List Int) (now : Timespec) :
    Os Round := do
  let (checked, now) ← checkTime limit now
  match checked with
  | .error rc => pure (.settled ⟨rc, fds, -1, now⟩)
  | .ok left => do
      if pendingSockets fds = [] then pure (.settled ⟨ArakoonReturnCode.clientNetworkError, fds, -1, now⟩)
      else do
        match ← pollUninterrupted (pendingSockets fds) left interrupts with
        | .error e => pure (.settled ⟨e.rc, fds, -1, now⟩)
        | .ok (count, entries) =>
            if count = 0 then pure (.settled ⟨ArakoonReturnCode.clientTimeout, fds, -1, now⟩)
            else actOn fds now count entries

/-- The loop is its body, over and over. -/
theorem connectLoop_round (limit : Option (Int × Timespec)) (rounds : Nat) (fds : List Int) (now : Timespec) :
    connectLoop limit (rounds + 1) fds now = (do
      match ← connectRound limit rounds fds now with
      | .settled out => pure out
      | .again fds now => connectLoop limit rounds fds now) := by
  rw [connectLoop, connectRound, bind_assoc]
  congr 1
  funext out
  obtain ⟨checked, now⟩ := out
  cases checked with
  | error rc => rfl
  | ok left =>
      show (if pendingSockets fds = [] then _ else _) = _
      by_cases hpending : pendingSockets fds = []
      · rw [if_pos hpending]
        show _ = (if pendingSockets fds = [] then _ else _) >>= _
        rw [if_pos hpending]
        rfl
      · rw [if_neg hpending]
        show _ = (if pendingSockets fds = [] then _ else _) >>= _
        rw [if_neg hpending, bind_assoc]
        congr 1
        funext r
        cases r with
        | error e => rfl
        | ok found =>
            show (if found.1 = 0 then _ else _) = (if found.1 = 0 then _ else _) >>= _
            by_cases hcount : found.1 = 0
            · rw [if_pos hcount, if_pos hcount]
              rfl
            · rw [if_neg hcount, if_neg hcount, actOn, bind_assoc]
              congr 1
              funext scanned
              show (if 0 ≤ scanned.2 then _ else _) = (if 0 ≤ scanned.2 then _ else _) >>= _
              by_cases hsock : 0 ≤ scanned.2
              · rw [if_pos hsock, if_pos hsock, bind_assoc]
                congr 1
                funext restored
                obtain ⟨fds, restored⟩ := restored
                cases restored <;> rfl
              · rw [if_neg hsock, if_neg hsock]
                rfl

/-- What comes of the entries that are looked at: the answers taken, the calls logged and how the round ends. -/
inductive Acts (fds : List Int) (now : Timespec) (scanned : List (Int × Revents)) :
    List Answer → List Syscall → Round → Prop where
  | none (hnone : readyOf scanned = []) :
      Acts fds now scanned [] (closing (failedOf scanned)) (.again (forget (failedOf scanned) fds) now)
  | restored {sock : Int} (hsock : sock ∈ readyOf scanned) :
      Acts fds now scanned [.fcntl (.ok ())] (closing (failedOf scanned))
        (.settled ⟨ArakoonReturnCode.success, forget (failedOf scanned) fds, sock, now⟩)
  | refused {sock : Int} {e : Errno} (hsock : sock ∈ readyOf scanned) :
      Acts fds now scanned [.fcntl (.error e)] (.close sock :: closing (failedOf scanned))
        (.again (forget (failedOf scanned ++ [sock]) fds) now)

/-- An answer that marks no socket. -/
def Answer.idle : Answer → Bool
  | .clock .check _ => true
  | .poll (.error _) => true
  | .poll (.ok (count, _)) => count = 0
  | _ => false

def Syscall.isPoll : Syscall → Bool
  | .poll _ _ => true
  | _ => false

/-- A round gives up without having found a socket, or acts on what `poll` has found. -/
inductive Round.Of (fds : List Int) : List Answer → List Syscall → Round → Prop where
  | stopped {used : List Answer} {calls : List Syscall} {rc : ArakoonRc} {now : Timespec}
      (hused : ∀ a ∈ used, a.idle) (hcalls : ∀ c ∈ calls, c.isPoll) (hrc : rc ≠ 0) :
      Of fds used calls (.settled ⟨rc, fds, -1, now⟩)
  | acted {before used : List Answer} {polls calls : List Syscall} {count : Nat} {entries : List Revents}
      {now : Timespec} {round : Round} (hbefore : ∀ a ∈ before, a.idle) (hpolls : ∀ c ∈ polls, c.isPoll)
      (hcount : 0 < count)
      (hacts : Acts fds now ((polled fds entries).take count) used calls round) :
      Of fds (before ++ .poll (.ok (count, entries)) :: used) (calls ++ polls) round

theorem map_fst_polled (fds : List Int) (entries : List Revents) :
    (polled fds entries).map Prod.fst <+: pendingSockets fds := by
  unfold polled
  generalize pendingSockets fds = socks
  induction socks generalizing entries with
  | nil => exact List.nil_prefix
  | cons sock socks ih =>
      cases entries with
      | nil => exact List.nil_prefix
      | cons revents entries => exact List.cons_prefix_cons.mpr ⟨rfl, ih entries⟩

theorem polled_pending {fds : List Int} {entries : List Revents} {entry : Int × Revents}
    (h : entry ∈ polled fds entries) : entry.1 ∈ pendingSockets fds :=
  (map_fst_polled fds entries).subset (List.mem_map_of_mem h)

theorem nodup_polled {fds : List Int} (hnodup : (pendingSockets fds).Nodup) (entries : List Revents) :
    ((polled fds entries).map Prod.fst).Nodup :=
  (map_fst_polled fds entries).sublist.nodup hnodup

theorem polled_unique {fds : List Int} (hnodup : (pendingSockets fds).Nodup) {entries : List Revents}
    {entry entry' : Int × Revents} (h : entry ∈ polled fds entries) (h' : entry' ∈ polled fds entries)
    (heq : entry.1 = entry'.1) : entry = entry' :=
  List.inj_on_of_nodup_map (nodup_polled hnodup entries) h h' heq

/-- A socket that is chosen is pending, and it is not one in error. -/
theorem readyOf_pending {fds : List Int} (hnodup : (pendingSockets fds).Nodup) {entries : List Revents} {count : Nat}
    {sock : Int} (h : sock ∈ readyOf ((polled fds entries).take count)) :
    sock ∈ pendingSockets fds ∧ sock ∉ failedOf ((polled fds entries).take count) := by
  obtain ⟨entry, hentry, hready, rfl⟩ := mem_readyOf.mp h
  refine ⟨polled_pending (List.mem_of_mem_take hentry), fun hmem => ?_⟩
  obtain ⟨entry', hentry', hfailed, heq⟩ := mem_failedOf.mp hmem
  obtain rfl := polled_unique hnodup (List.mem_of_mem_take hentry') (List.mem_of_mem_take hentry) heq
  simp [Revents.ready, hfailed] at hready

theorem ensures_actOn {fds : List Int} (hnodup : (pendingSockets fds).Nodup) (now : Timespec) (count : Nat)
    (entries : List Revents) (k : Kernel) :
    Ensures (actOn fds now count entries) k fun round k' =>
      ∃ used calls, k.Goes used calls k' ∧ Acts fds now ((polled fds entries).take count) used calls round := by
  refine (ensures_scanSockets _ fds (-1) k).bind fun out k₁ hscan => ?_
  obtain ⟨rfl, hscan⟩ := hscan
  cases hready : readyOf ((polled fds entries).take count) with
  | nil =>
      refine .ite (fun hsock => absurd hsock (by decide)) fun _ => ?_
      exact .pure ⟨_, _, hscan, .none hready⟩
  | cons first others =>
      have hchosen : (first :: others).getLastD (-1) ∈ readyOf ((polled fds entries).take count) := by
        rw [hready, List.getLastD_cons]
        exact List.getLastD_mem_cons
      obtain ⟨hpending, hfailed⟩ := readyOf_pending hnodup hchosen
      have hpos : 0 ≤ (first :: others).getLastD (-1) := (mem_pendingSockets.mp hpending).2
      have hleft : (first :: others).getLastD (-1) ∈
          pendingSockets (forget (failedOf ((polled fds entries).take count)) fds) := by
        rw [pendingSockets_forget]
        exact List.mem_filter.mpr ⟨hpending, by simpa using hfailed⟩
      have hnodup' : (pendingSockets (forget (failedOf ((polled fds entries).take count)) fds)).Nodup := by
        rw [pendingSockets_forget]
        exact hnodup.filter _
      refine .ite (fun _ => ?_) fun hneg => absurd hpos hneg
      refine (ensures_restoreFlags hleft hnodup' k₁).bind fun out k₂ hrestore => ?_
      rcases hrestore with ⟨rfl, hgoes⟩ | ⟨e, rfl, hgoes⟩
      · exact .pure ⟨_, _, hscan.trans hgoes, .restored hchosen⟩
      · rw [forget_forget]
        exact .pure ⟨_, _, hscan.trans hgoes, .refused hchosen⟩

theorem Acts.nodup {fds : List Int} {now : Timespec} {scanned : List (Int × Revents)} {used : List Answer}
    {calls : List Syscall} {round : Round} (h : Acts fds now scanned used calls round)
    (hnodup : (pendingSockets fds).Nodup) : (pendingSockets round.fds).Nodup := by
  have hforget : ∀ socks, (pendingSockets (forget socks fds)).Nodup := fun socks => by
    rw [pendingSockets_forget]
    exact hnodup.filter _
  cases h with
  | none hnone => exact hforget _
  | restored hsock => exact hforget _
  | refused hsock => exact hforget _

theorem Round.Of.nodup {fds : List Int} {used : List Answer} {calls : List Syscall} {round : Round}
    (h : Round.Of fds used calls round) (hnodup : (pendingSockets fds).Nodup) : (pendingSockets round.fds).Nodup := by
  cases h with
  | stopped hused hcalls hrc => exact hnodup
  | acted hbefore hpolls hcount hacts => exact hacts.nodup hnodup

theorem ensures_poll_goes (fds : List Int) (timeout : Int) (k : Kernel) :
    Ensures (poll fds timeout) k fun r k' => k.Goes [.poll r] [.poll fds timeout] k' := by
  refine (ensures_note _ k).bind fun _ k₁ hnote => (ensures_ask_goes _ k₁).mono fun r k' ⟨a, hpick, hgoes⟩ => ?_
  cases a with
  | poll r' =>
      obtain rfl := Option.some.inj hpick
      exact hnote.trans hgoes
  | _ => cases hpick

theorem ensures_checkTime (limit : Option (Int × Timespec)) (now : Timespec) (k : Kernel) :
    Ensures (checkTime limit now) k fun out k' =>
      ∃ used, k.Goes used [] k' ∧ (∀ a ∈ used, a.idle) ∧ ∀ rc, out.1 = .error rc → rc ≠ 0 := by
  cases limit with
  | none => exact .pure ⟨[], .refl k, fun _ h => absurd h List.not_mem_nil, fun rc h => by cases h⟩
  | some limit =>
      refine (ensures_clock_goes .check k).bind fun r k₁ hgoes => ?_
      have hidle : ∀ a ∈ [Answer.clock .check r], a.idle := by simp [Answer.idle]
      cases r with
      | error e =>
          refine .pure ⟨_, hgoes, hidle, fun rc h => ?_⟩
          obtain rfl := Except.error.inj h
          exact e.rc_ne_zero
      | ok now =>
          refine .ite (fun _ => .pure ⟨_, hgoes, hidle, fun rc h => ?_⟩) fun _ =>
            .pure ⟨_, hgoes, hidle, fun rc h => by cases h⟩
          obtain rfl := Except.error.inj h
          exact timedOut.2

theorem ensures_pollUninterrupted (fds : List Int) (timeout : Int) (interrupts : Nat) (k : Kernel) :
    Ensures (pollUninterrupted fds timeout interrupts) k fun r k' => ∃ before calls,
      k.Goes (before ++ [.poll r]) calls k' ∧ (∀ a ∈ before, a.idle) ∧ ∀ c ∈ calls, c.isPoll := by
  induction interrupts generalizing k with
  | zero => exact fun out k' hrun => by cases hrun
  | succ interrupts ih =>
      refine (ensures_poll_goes fds timeout k).bind fun r k₁ hpoll => ?_
      have hlast : ∃ before calls, k.Goes (before ++ [.poll r]) calls k₁ ∧ (∀ a ∈ before, a.idle) ∧
          ∀ c ∈ calls, c.isPoll :=
        ⟨[], _, hpoll, fun _ h => absurd h List.not_mem_nil, by simp [Syscall.isPoll]⟩
      cases r with
      | ok found => exact .pure hlast
      | error e =>
          refine .ite (fun _ => (ih k₁).mono fun r k₂ ⟨before, calls, hgoes, hbefore, hcalls⟩ => ?_) fun _ => .pure hlast
          refine ⟨.poll (.error e) :: before, _, hpoll.trans hgoes, ?_, ?_⟩
          · exact List.forall_mem_cons.mpr ⟨rfl, hbefore⟩
          · exact List.forall_mem_append.mpr ⟨hcalls, by simp [Syscall.isPoll]⟩

theorem ensures_connectRound {fds : List Int} (hnodup : (pendingSockets fds).Nodup)
    (limit : Option (Int × Timespec)) (interrupts : Nat) (now : Timespec) (k : Kernel) :
    Ensures (connectRound limit interrupts fds now) k fun round k' =>
      ∃ used calls, k.Goes used calls k' ∧ Round.Of fds used calls round := by
  have hnone : ∀ c ∈ ([] : List Syscall), c.isPoll := fun _ h => absurd h List.not_mem_nil
  refine (ensures_checkTime limit now k).bind fun out k₁ ⟨used, hgoes, hidle, hrc⟩ => ?_
  obtain ⟨checked, now⟩ := out
  cases checked with
  | error rc => exact .pure ⟨used, [], hgoes, .stopped hidle hnone (hrc rc rfl)⟩
  | ok left =>
      refine .ite (fun _ => .pure ⟨used, [], hgoes, .stopped hidle hnone (by decide)⟩) fun _ => ?_
      refine (ensures_pollUninterrupted _ left interrupts k₁).bind fun r k₂ ⟨before, polls, hpoll, hbefore, hpolls⟩ => ?_
      have hgoes' := hgoes.trans hpoll
      rw [List.append_nil, ← List.append_assoc] at hgoes'
      have hbefore' := List.forall_mem_append.mpr ⟨hidle, hbefore⟩
      cases r with
      | error e =>
          refine .pure ⟨_, polls, hgoes', .stopped ?_ hpolls e.rc_ne_zero⟩
          exact List.forall_mem_append.mpr ⟨hbefore', by simp [Answer.idle]⟩
      | ok found =>
          refine .ite (fun hcount => .pure ⟨_, polls, hgoes', .stopped ?_ hpolls (by decide)⟩) fun hcount => ?_
          · exact List.forall_mem_append.mpr ⟨hbefore', by simpa [Answer.idle] using hcount⟩
          · refine (ensures_actOn hnodup now found.1 found.2 k₂).mono fun round k' ⟨used', calls, hact, hacts⟩ => ?_
            have hall := hgoes'.trans hact
            rw [List.append_assoc] at hall
            exact ⟨_, _, hall, .acted hbefore' hpolls (Nat.pos_of_ne_zero hcount) hacts⟩

end Crakoon.Networking
