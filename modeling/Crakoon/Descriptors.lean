import Crakoon.ConnectRound
import Crakoon.Ledger

/-!
# The descriptors of a connection attempt

`_arakoon_networking_connect` keeps the sockets it has opened in an array that is filled with zeros first, and closes
at its end what it finds there and has not chosen. Where a socket is connected at once, the loop over the addresses ends
before it has written the entry of that address, so the cleanup finds a zero there and closes descriptor 0. In every
other attempt the descriptors are accounted for (`connect_accounts`).
-/

namespace Crakoon.Networking

open Programs Ledger

def Syscall.entry : Syscall → Option (Entry Int)
  | .poll _ _ => none
  | .socket fd => some (.opened fd)
  | .close fd => some (.closed fd)

/-- What the calls do with descriptors. -/
def handlings (calls : List Syscall) : List (Entry Int) := calls.filterMap Syscall.entry

theorem handlings_append (calls calls' : List Syscall) :
    handlings (calls ++ calls') = handlings calls ++ handlings calls' :=
  List.filterMap_append

theorem handlings_polls {calls : List Syscall} (h : ∀ c ∈ calls, c.isPoll) : handlings calls = [] := by
  apply List.filterMap_eq_nil_iff.mpr
  intro call hcall
  have hpoll := h call hcall
  cases call with
  | poll fds timeout => rfl
  | socket fd => cases hpoll
  | close fd => cases hpoll

theorem handlings_closing (socks : List Int) (calls : List Syscall) :
    handlings (closing socks ++ calls) = closes socks (handlings calls) := by
  rw [handlings_append]
  have hclosing : handlings (closing socks) = socks.reverse.map .closed := by
    rw [closing, ← List.map_reverse, handlings, List.filterMap_map]
    show List.filterMap (some ∘ Entry.closed) _ = _
    rw [List.filterMap_eq_map]
  rw [hclosing]
  rfl

theorem leads_closing {socks fds : List Int} (h : socks.Subperm fds) :
    Leads (handlings (closing socks)) fds (fds.diff socks) := by
  have hclosing := handlings_closing socks []
  rw [List.append_nil] at hclosing
  rw [hclosing]
  exact .closes h

/-- The descriptors that the call closes are ones that it has opened and not closed yet. In the end one of them is open
if the call succeeds, the one it hands out, and none if it does not. -/
structure Accounted (calls : List Syscall) (out : Connected) : Prop where
  closes : Clean (handlings calls)
  success : out.rc = ArakoonReturnCode.success → held (handlings calls) = [out.fd]
  failure : out.rc ≠ ArakoonReturnCode.success → held (handlings calls) = []

/-- The socket that is connected at once, and whose flags are restored: the answers of its five calls are in a row. -/
def connectedAtOnce : List Answer → Option Nat
  | .socket (.ok sock) :: .fcntl (.ok _) :: .fcntl (.ok _) :: .connect (.ok _) :: .fcntl (.ok _) :: _ => some sock
  | _ :: rest => connectedAtOnce rest
  | [] => none

/-- No socket is connected at once by these answers, whatever the next ones are. -/
def Skips (used : List Answer) : Prop := ∀ rest, connectedAtOnce (used ++ rest) = connectedAtOnce rest

theorem Skips.nil : Skips [] := fun _ => rfl

theorem Skips.append {used used' : List Answer} (h : Skips used) (h' : Skips used') : Skips (used ++ used') := by
  intro rest
  rw [List.append_assoc, h, h']

/-- The answer is not that of `socket`. -/
def Answer.opensNone : Answer → Bool
  | .socket _ => false
  | _ => true

theorem skips_of_opensNone {used : List Answer} (h : ∀ a ∈ used, a.opensNone) : Skips used := by
  intro rest
  induction used with
  | nil => rfl
  | cons a used ih =>
      obtain ⟨ha, hused⟩ := List.forall_mem_cons.mp h
      cases a with
      | socket r => cases ha
      | _ => exact ih hused

/-- What comes of an address, by the answers taken and the calls logged. -/
inductive Attempt.Of : List Answer → List Syscall → Attempt → Prop where
  | connected (sock : Nat) :
      Of [.socket (.ok sock), .fcntl (.ok ()), .fcntl (.ok ()), .connect (.ok ()), .fcntl (.ok ())] [.socket sock]
        (.connected sock)
  | pending {used : List Answer} (sock : Nat) (hused : Skips used) : Of used [.socket sock] (.pending sock)
  | unopened {used : List Answer} (hused : Skips used) : Of used [] .failed
  | closed {used : List Answer} (sock : Nat) (hused : Skips used) : Of used [.close sock, .socket sock] .failed

theorem ensures_socket (k : Kernel) : Ensures socket k fun r k' =>
    ∃ calls, k.Goes [.socket r] calls k' ∧ calls = match r with
      | .error _ => []
      | .ok sock => [.socket sock] := by
  refine (ensures_ask_goes _ k).bind fun r k₁ ⟨a, hpick, hgoes⟩ => ?_
  have ha : a = .socket r := by
    cases a with
    | socket r' => exact congrArg _ (Option.some.inj hpick)
    | _ => cases hpick
  subst ha
  cases r with
  | error e => exact .pure ⟨[], hgoes, rfl⟩
  | ok sock => exact (ensures_note _ k₁).bind fun _ k₂ hnote => .pure ⟨_, hgoes.trans hnote, rfl⟩

theorem ensures_connectSocket (k : Kernel) : Ensures connectSocket k fun r k' => k.Goes [.connect r] [] k' := by
  refine (ensures_ask_goes _ k).mono fun r k' ⟨a, hpick, hgoes⟩ => ?_
  cases a with
  | connect r' =>
      obtain rfl := Option.some.inj hpick
      exact hgoes
  | _ => cases hpick

theorem ensures_tryAddress (k : Kernel) : Ensures tryAddress k fun attempt k' =>
    ∃ used calls, k.Goes used calls k' ∧ Attempt.Of used calls attempt := by
  refine (ensures_socket k).bind fun r k₁ ⟨calls, hsocket, hcalls⟩ => ?_
  subst hcalls
  cases r with
  | error e => exact .pure ⟨_, _, hsocket, .unopened fun _ => rfl⟩
  | ok sock =>
      have hfailed : ∀ k₂ used, k.Goes used [.socket sock] k₂ → Skips used → Ensures (do
          close sock
          pure Attempt.failed) k₂ fun attempt k' =>
            ∃ used calls, k.Goes used calls k' ∧ Attempt.Of used calls attempt := by
        intro k₂ used hgoes hskips
        refine (ensures_note _ k₂).bind fun _ k₃ hclose => .pure ⟨_, _, hgoes.trans hclose, ?_⟩
        rw [List.append_nil]
        exact .closed sock hskips
      refine (ensures_fcntl k₁).bind fun r k₂ hget => ?_
      have hget := hsocket.trans hget
      cases r with
      | error e => exact hfailed k₂ _ hget fun _ => rfl
      | ok flags =>
          refine (ensures_fcntl k₂).bind fun r k₃ hset => ?_
          have hset := hget.trans hset
          cases r with
          | error e => exact hfailed k₃ _ hset fun _ => rfl
          | ok _ =>
              refine (ensures_connectSocket k₃).bind fun r k₄ hconnect => ?_
              have hconnect := hset.trans hconnect
              cases r with
              | error e =>
                  refine .ite (fun _ => ?_) fun _ => hfailed k₄ _ hconnect fun _ => rfl
                  exact .pure ⟨_, _, hconnect, .pending sock fun _ => rfl⟩
              | ok _ =>
                  refine (ensures_fcntl k₄).bind fun r k₅ hrestore => ?_
                  have hrestore := hconnect.trans hrestore
                  cases r with
                  | error e => exact hfailed k₅ _ hrestore fun _ => rfl
                  | ok _ => exact .pure ⟨_, _, hrestore, .connected sock⟩

/-- What the loop over the addresses leaves: sockets that are not connected yet, or a socket that is connected at once,
sockets of the addresses before it and a zero for its own address and for each one after it. -/
inductive Opened : List Answer → List Syscall → List Int × Int → Prop where
  | pending {used : List Answer} {calls : List Syscall} {fds : List Int} (hused : Skips used)
      (hleads : ∀ hs, Leads (handlings calls) hs (pendingSockets fds ++ hs)) : Opened used calls (fds, -1)
  | connected {used : List Answer} {calls : List Syscall} (front : List Int) (zeros sock : Nat)
      (hused : ∀ rest, connectedAtOnce (used ++ rest) = some sock)
      (hleads : ∀ hs, Leads (handlings calls) hs ((sock : Int) :: pendingSockets front ++ hs)) :
      Opened used calls (front ++ List.replicate (zeros + 1) 0, sock)

theorem pendingSockets_cons (fd : Int) (fds : List Int) :
    pendingSockets (fd :: fds) = pendingSockets [fd] ++ pendingSockets fds := by
  rw [pendingSockets, pendingSockets, pendingSockets, ← List.filter_append]
  rfl

/-- The entry `fd` of an address is put before those of the others. -/
theorem Opened.after {used used' : List Answer} {calls calls' : List Syscall} {fd : Int} {out : List Int × Int}
    (hused : Skips used) (hleads : ∀ hs, Leads (handlings calls) hs (pendingSockets [fd] ++ hs))
    (h : Opened used' calls' out) : Opened (used ++ used') (calls' ++ calls) (fd :: out.1, out.2) := by
  cases h with
  | @pending fds hused' hleads' =>
      refine .pending (hused.append hused') fun hs => ?_
      rw [handlings_append, pendingSockets_cons, List.append_assoc]
      exact ((hleads hs).trans (hleads' _)).perm (List.perm_append_comm_assoc _ _ _)
  | @connected front zeros sock hused' hleads' =>
      rw [← List.cons_append]
      refine .connected (fd :: front) zeros sock (fun rest => ?_) fun hs => ?_
      · rw [List.append_assoc, hused, hused']
      · rw [handlings_append, pendingSockets_cons]
        refine ((hleads hs).trans (hleads' _)).perm ?_
        simp only [List.cons_append, List.append_assoc]
        exact .cons _ (List.perm_append_comm_assoc _ _ _)

theorem ensures_openSockets (addresses : List Address) (k : Kernel) :
    Ensures (openSockets addresses) k fun out k' =>
      ∃ used calls, k.Goes used calls k' ∧ Opened used calls out := by
  induction addresses generalizing k with
  | nil => exact .pure ⟨[], [], .refl k, .pending .nil fun hs => .nil hs⟩
  | cons address addresses ih =>
      refine (ensures_tryAddress k).bind fun attempt k₁ ⟨used, calls, hgoes, hattempt⟩ => ?_
      cases hattempt with
      | connected sock =>
          have hzeros : (0 : Int) :: addresses.map (fun _ => 0) = List.replicate (addresses.length + 1) 0 := by
            rw [List.map_const', List.replicate_succ]
          rw [hzeros]
          exact .pure ⟨_, _, hgoes, .connected [] addresses.length sock (fun _ => rfl) fun hs => .opened _ hs⟩
      | pending sock hused =>
          refine (ih k₁).bind fun out k₂ ⟨used', calls', hgoes', hopened⟩ => .pure ?_
          refine ⟨_, _, hgoes.trans hgoes', hopened.after hused fun hs => ?_⟩
          have hpending : pendingSockets [(sock : Int)] = [(sock : Int)] := by simp [pendingSockets]
          rw [hpending]
          exact .opened _ hs
      | unopened hused =>
          refine (ih k₁).bind fun out k₂ ⟨used', calls', hgoes', hopened⟩ => .pure ?_
          exact ⟨_, _, hgoes.trans hgoes', hopened.after hused fun hs => .nil hs⟩
      | closed sock hused =>
          refine (ih k₁).bind fun out k₂ ⟨used', calls', hgoes', hopened⟩ => .pure ?_
          refine ⟨_, _, hgoes.trans hgoes', hopened.after hused fun hs => ?_⟩
          have hleads := (Leads.opened (sock : Int) hs).trans (.closed List.mem_cons_self)
          rw [List.erase_cons_head] at hleads
          exact hleads

/-! ### The loops -/

theorem nodup_failedOf {fds : List Int} (hnodup : (pendingSockets fds).Nodup) (entries : List Revents) (count : Nat) :
    (failedOf ((polled fds entries).take count)).Nodup := by
  refine List.Sublist.nodup ?_ (nodup_polled hnodup entries)
  exact (List.filter_sublist.trans (List.take_sublist _ _)).map Prod.fst

theorem failedOf_pending {fds : List Int} {entries : List Revents} {count : Nat} {sock : Int}
    (h : sock ∈ failedOf ((polled fds entries).take count)) : sock ∈ pendingSockets fds := by
  obtain ⟨entry, hentry, -, rfl⟩ := mem_failedOf.mp h
  exact polled_pending (List.mem_of_mem_take hentry)

/-- Closing pending sockets, none of them twice, and forgetting them goes together. -/
theorem leads_forget {fds socks : List Int} (hnodup : (pendingSockets fds).Nodup) (hsocks : socks.Nodup)
    (hpending : ∀ sock ∈ socks, sock ∈ pendingSockets fds) :
    Leads (handlings (closing socks)) (pendingSockets fds) (pendingSockets (forget socks fds)) := by
  have hdiff : (pendingSockets fds).diff socks = (pendingSockets fds).filter (· ∉ socks) := hnodup.sdiff_eq_filter
  rw [pendingSockets_forget, ← hdiff]
  exact leads_closing (List.subperm_of_subset hsocks hpending)

theorem Acts.leads {fds : List Int} {now : Timespec} {count : Nat} {entries : List Revents} {used : List Answer}
    {calls : List Syscall} {round : Round} (hnodup : (pendingSockets fds).Nodup)
    (h : Acts fds now ((polled fds entries).take count) used calls round) :
    Leads (handlings calls) (pendingSockets fds) (pendingSockets round.fds) := by
  have hfailed := leads_forget hnodup (nodup_failedOf hnodup entries count) fun sock => failedOf_pending
  cases h with
  | none hnone => exact hfailed
  | restored hsock => exact hfailed
  | @refused sock e hsock =>
      obtain ⟨hpending, hother⟩ := readyOf_pending hnodup hsock
      have hcalls : .close sock :: closing (failedOf ((polled fds entries).take count)) =
          closing (failedOf ((polled fds entries).take count) ++ [sock]) := by simp [closing]
      rw [hcalls]
      apply leads_forget hnodup
      · rw [List.nodup_append_comm]
        exact List.nodup_cons.mpr ⟨hother, nodup_failedOf hnodup entries count⟩
      · intro s hs
        rcases List.mem_append.mp hs with hmem | hmem
        · exact failedOf_pending hmem
        · rw [List.mem_singleton.mp hmem]
          exact hpending

theorem Round.Of.leads {fds : List Int} {used : List Answer} {calls : List Syscall} {round : Round}
    (hnodup : (pendingSockets fds).Nodup) (h : Round.Of fds used calls round) :
    Leads (handlings calls) (pendingSockets fds) (pendingSockets round.fds) := by
  cases h with
  | stopped hused hcalls hrc =>
      rw [handlings_polls hcalls]
      exact .nil _
  | acted hbefore hpolls hcount hacts =>
      rw [handlings_append, handlings_polls hpolls, List.append_nil]
      exact hacts.leads hnodup

theorem Round.Of.opensNone {fds : List Int} {used : List Answer} {calls : List Syscall} {round : Round}
    (h : Round.Of fds used calls round) : ∀ a ∈ used, a.opensNone := by
  have hidle : ∀ a : Answer, a.idle → a.opensNone := by
    intro a ha
    cases a with
    | socket r => cases ha
    | _ => rfl
  cases h with
  | stopped hused hcalls hrc => exact fun a ha => hidle a (hused a ha)
  | acted hbefore hpolls hcount hacts =>
      refine List.forall_mem_append.mpr ⟨fun a ha => hidle a (hbefore a ha), List.forall_mem_cons.mpr ⟨rfl, ?_⟩⟩
      cases hacts with
      | none hnone => exact fun _ hmem => absurd hmem List.not_mem_nil
      | restored hsock => exact List.forall_mem_singleton.mpr rfl
      | refused hsock => exact List.forall_mem_singleton.mpr rfl

/-- The call has one of the sockets in `fds`, or a code other than success. -/
def Settled.Chooses (out : Settled) : Prop :=
  (out.rc = ArakoonReturnCode.success ∧ out.theSocket ∈ pendingSockets out.fds) ∨
    (out.rc ≠ ArakoonReturnCode.success ∧ out.theSocket = -1)

theorem Round.Of.chooses {fds : List Int} {used : List Answer} {calls : List Syscall} {out : Settled}
    (hnodup : (pendingSockets fds).Nodup) (h : Round.Of fds used calls (.settled out)) : out.Chooses := by
  cases h with
  | stopped hused hcalls hrc => exact .inr ⟨hrc, rfl⟩
  | acted hbefore hpolls hcount hacts =>
      cases hacts with
      | restored hsock =>
          obtain ⟨hpending, hother⟩ := readyOf_pending hnodup hsock
          refine .inl ⟨rfl, ?_⟩
          rw [pendingSockets_forget]
          exact List.mem_filter.mpr ⟨hpending, by simpa using hother⟩

theorem ensures_connectLoop {fds : List Int} (hnodup : (pendingSockets fds).Nodup)
    (limit : Option (Int × Timespec)) (rounds : Nat) (now : Timespec) (k : Kernel) :
    Ensures (connectLoop limit rounds fds now) k fun out k' => ∃ used calls, k.Goes used calls k' ∧
      (∀ a ∈ used, a.opensNone) ∧ Leads (handlings calls) (pendingSockets fds) (pendingSockets out.fds) ∧
      (pendingSockets out.fds).Nodup ∧ out.Chooses := by
  induction rounds generalizing fds now k with
  | zero => exact fun out k' hrun => by cases hrun
  | succ rounds ih =>
      rw [connectLoop_round]
      refine (ensures_connectRound hnodup limit rounds now k).bind fun round k₁ ⟨used, calls, hgoes, hof⟩ => ?_
      have hleads := hof.leads hnodup
      cases round with
      | settled out =>
          exact .pure ⟨used, calls, hgoes, hof.opensNone, hleads, hof.nodup hnodup, hof.chooses hnodup⟩
      | again fds' now =>
          refine (ih (hof.nodup hnodup) now k₁).mono fun out k' ⟨used', calls', hgoes', hused', hrest⟩ => ?_
          obtain ⟨hleads', hnodup', hchooses⟩ := hrest
          refine ⟨_, _, hgoes.trans hgoes', List.forall_mem_append.mpr ⟨hof.opensNone, hused'⟩, ?_, hnodup', hchooses⟩
          rw [handlings_append]
          exact hleads.trans hleads'

/-- Some answers have been taken and some calls logged. -/
def Kernel.Later (k k' : Kernel) : Prop := ∃ used calls, k.Goes used calls k'

instance : Std.Refl Kernel.Later := ⟨fun k => ⟨[], [], .refl k⟩⟩

instance : IsTrans Kernel Kernel.Later :=
  ⟨fun _ _ _ ⟨_, _, h⟩ ⟨_, _, h'⟩ => ⟨_, _, h.trans h'⟩⟩

abbrev MovesOn {α : Type} (m : Os α) : Prop := Along (fun _ => True) Kernel.Later m fun _ => True

theorem movesOn_of {α : Type} {m : Os α} (h : ∀ k, Ensures m k fun _ k' => k.Later k') : MovesOn m :=
  fun k _ => (h k).mono fun _ _ hlater => ⟨trivial, hlater, trivial⟩

theorem movesOn_restoreFlags (theSocket : Int) (fds : List Int) : MovesOn (restoreFlags theSocket fds) := by
  have hfcntl : MovesOn fcntl := movesOn_of fun k => (ensures_fcntl k).mono fun _ _ h => ⟨_, _, h⟩
  have hclose : ∀ fd, MovesOn (close fd) := fun fd => movesOn_of fun k => (ensures_note _ k).mono fun _ _ h => ⟨_, _, h⟩
  induction fds with
  | nil => exact .pure trivial
  | cons fd fds ih =>
      refine .ite (fun _ => hfcntl.bind fun r _ => ?_) fun _ => ih.bind fun _ _ => .pure trivial
      cases r with
      | ok flags => exact .pure trivial
      | error e => exact (hclose theSocket).bind fun _ _ => ih.bind fun _ _ => .pure trivial

theorem movesOn_connectRound (limit : Option (Int × Timespec)) (interrupts : Nat) (fds : List Int) (now : Timespec) :
    MovesOn (connectRound limit interrupts fds now) := by
  have hcheck : MovesOn (checkTime limit now) := movesOn_of fun k =>
    (ensures_checkTime limit now k).mono fun _ _ ⟨used, hgoes, _⟩ => ⟨used, [], hgoes⟩
  have hpoll : ∀ left, MovesOn (pollUninterrupted (pendingSockets fds) left interrupts) := fun left => movesOn_of fun k =>
    (ensures_pollUninterrupted _ left interrupts k).mono fun _ _ ⟨_, _, hgoes, _⟩ => ⟨_, _, hgoes⟩
  have hscan : ∀ entries, MovesOn (scanSockets entries fds (-1)) := fun entries => movesOn_of fun k =>
    (ensures_scanSockets entries fds (-1) k).mono fun _ _ ⟨_, hgoes⟩ => ⟨_, _, hgoes⟩
  refine hcheck.bind fun out _ => ?_
  obtain ⟨checked, now⟩ := out
  cases checked with
  | error rc => exact .pure trivial
  | ok left =>
      refine .ite (fun _ => .pure trivial) fun _ => (hpoll left).bind fun r _ => ?_
      cases r with
      | error e => exact .pure trivial
      | ok found =>
          refine .ite (fun _ => .pure trivial) fun _ => (hscan _).bind fun out _ => ?_
          exact .ite (fun _ => (movesOn_restoreFlags _ _).bind fun _ _ => .pure trivial) fun _ => .pure trivial

theorem movesOn_connectLoop (limit : Option (Int × Timespec)) (rounds : Nat) (fds : List Int) (now : Timespec) :
    MovesOn (connectLoop limit rounds fds now) := by
  induction rounds generalizing fds now with
  | zero => exact fun k _ out k' hrun => by cases hrun
  | succ rounds ih =>
      rw [connectLoop_round]
      refine (movesOn_connectRound limit rounds fds now).bind fun round _ => ?_
      cases round with
      | settled out => exact .pure trivial
      | again fds now => exact ih fds now

/-- The sockets that the cleanup closes. -/
def others (theSocket : Int) (fds : List Int) : List Int := (pendingSockets fds).filter fun fd => fd ≠ theSocket

theorem ensures_closeOthers (theSocket : Int) (fds : List Int) (k : Kernel) :
    Ensures (closeOthers theSocket fds) k fun _ k' => k.Goes [] (closing (others theSocket fds)) k' := by
  induction fds generalizing k with
  | nil => exact .pure (.refl k)
  | cons fd fds ih =>
      have hothers : others theSocket (fd :: fds) =
          if 0 ≤ fd ∧ fd ≠ theSocket then fd :: others theSocket fds else others theSocket fds := by
        simp only [others, pendingSockets, List.filter_filter, List.filter_cons]
        split_ifs <;> simp_all
      rw [hothers]
      refine Ensures.ite (c := 0 ≤ fd ∧ fd ≠ theSocket) (fun hclosed => ?_) fun hkept => ?_
      · rw [if_pos hclosed, closing_cons]
        exact (ensures_note _ k).bind fun _ k₁ hclose => (ih k₁).mono fun _ k₂ hrest => hclose.trans hrest
      · rw [if_neg hkept]
        exact ih k

/-- How both loops leave the descriptors to the cleanup: those that are held are the ones it will close and the one it
will keep, or it will close 0 once too often. -/
inductive Settles (used : List Answer) (calls : List Syscall) (out : Settled) : Prop where
  | tidy (hs : List Int) (hused : ∀ rest sock, connectedAtOnce rest = none →
        connectedAtOnce (used ++ rest) = some sock → sock = 0)
      (hleads : Leads (handlings calls) [] hs) (hnodup : hs.Nodup)
      (hothers : others out.theSocket out.fds = hs.filter fun fd => fd ≠ out.theSocket)
      (hchosen : (out.rc = ArakoonReturnCode.success ∧ 0 ≤ out.theSocket ∧ out.theSocket ∈ hs) ∨
        (out.rc ≠ ArakoonReturnCode.success ∧ out.theSocket < 0 ∧ out.theSocket ∉ hs))
  | overdrawn (sock : Nat) (hused : ∀ rest, connectedAtOnce (used ++ rest) = some sock) (hsock : sock ≠ 0)
      (hother : ¬ (others out.theSocket out.fds).Subperm (held (handlings calls)))

theorem pendingSockets_append (fds fds' : List Int) :
    pendingSockets (fds ++ fds') = pendingSockets fds ++ pendingSockets fds' :=
  List.filter_append _ _

theorem pendingSockets_zeros (zeros : Nat) : pendingSockets (List.replicate zeros 0) = List.replicate zeros 0 :=
  List.filter_replicate_of_pos (by decide)

/-- Where a socket is connected at once, the cleanup closes the ones before it, and 0 for every zero in the array. -/
theorem others_zeros (sock : Nat) (front : List Int) (zeros : Nat) :
    others sock (front ++ List.replicate zeros 0) =
      (pendingSockets front).filter (fun fd => fd ≠ (sock : Int)) ++
        if sock = 0 then [] else List.replicate zeros 0 := by
  rw [others, pendingSockets_append, pendingSockets_zeros, List.filter_append]
  congr 1
  split_ifs with hsock
  · rw [List.filter_replicate_of_neg (by simp [hsock])]
  · rw [List.filter_replicate_of_pos]
    simpa using fun h : (0 : Int) = sock => hsock (by omega)

theorem Opened.settles_connected {used : List Answer} {calls : List Syscall} {front : List Int} {zeros sock : Nat}
    {out : Settled} (hout : out = ⟨ArakoonReturnCode.success, front ++ List.replicate (zeros + 1) 0, sock, ⟨0, 0⟩⟩)
    (hused : ∀ rest, connectedAtOnce (used ++ rest) = some sock) (hfresh : Fresh (handlings calls))
    (hleads : Leads (handlings calls) [] ((sock : Int) :: pendingSockets front)) : Settles used calls out := by
  subst hout
  obtain ⟨hclean, hheld⟩ := hleads.whole hfresh
  have hnodup : ((sock : Int) :: pendingSockets front).Nodup := hheld.nodup_iff.mp hfresh.nodup
  by_cases hsock : sock = 0
  · refine .tidy _ (fun rest sock' _ h => ?_) hleads hnodup ?_ (.inl ⟨rfl, Int.natCast_nonneg sock, List.mem_cons_self⟩)
    · obtain rfl := Option.some.inj ((hused rest).symm.trans h)
      exact hsock
    · show others sock _ = _
      rw [others_zeros, if_pos hsock, List.append_nil, List.filter_cons_of_neg (by simp)]
  · refine .overdrawn sock hused hsock fun hsub => ?_
    -- 0 is closed once more than it is held
    have hne : (sock : Int) ≠ 0 := Int.natCast_ne_zero.mpr hsock
    have hcount : (others sock (front ++ List.replicate (zeros + 1) 0)).count 0 ≤
        ((sock : Int) :: pendingSockets front).count 0 := (hsub.trans hheld.subperm).count_le 0
    have hfilter : ((pendingSockets front).filter fun fd => fd ≠ (sock : Int)).count 0 =
        (pendingSockets front).count 0 := by
      apply List.count_filter
      simpa using hne.symm
    rw [others_zeros, if_neg hsock, List.count_append, hfilter, List.count_replicate_self, List.count_cons_of_ne hne]
      at hcount
    omega

theorem ensures_settle (addresses : List Address) (limit : Option (Int × Timespec)) (k : Kernel) :
    Ensures (settle addresses limit) k fun out k' =>
      ∃ used calls, k.Goes used calls k' ∧ (Fresh (handlings calls) → Settles used calls out) := by
  refine (ensures_openSockets addresses k).bind fun opened k₁ ⟨used, calls, hgoes, hopened⟩ => ?_
  cases hopened with
  | connected front zeros sock hused hleads =>
      refine .ite (fun _ => .pure ⟨used, calls, hgoes, fun hfresh => ?_⟩) fun h => absurd (Int.natCast_nonneg sock) h
      exact Opened.settles_connected rfl hused hfresh (by simpa using hleads [])
  | @pending fds hused hleads =>
      refine .ite (fun h => absurd h (by decide)) fun _ out k' hrun => ?_
      have hleads := hleads []
      rw [List.append_nil] at hleads
      obtain ⟨-, ⟨used', calls', hgoes'⟩, -⟩ := movesOn_connectLoop limit _ fds ⟨0, 0⟩ k₁ trivial out k' hrun
      refine ⟨_, _, hgoes.trans hgoes', fun hfresh => ?_⟩
      rw [handlings_append] at hfresh
      obtain ⟨-, hheld⟩ := hleads.whole hfresh.before
      have hnodup := hheld.nodup_iff.mp hfresh.before.nodup
      obtain ⟨used'', calls'', hgoes'', hnone, hleads', hnodup', hchooses⟩ :=
        ensures_connectLoop hnodup limit _ ⟨0, 0⟩ k₁ out k' hrun
      obtain ⟨rfl, rfl⟩ := hgoes''.unique hgoes'
      have hskips := hused.append (skips_of_opensNone hnone)
      refine .tidy _ (fun rest sock hrest h => ?_) ?_ hnodup' rfl ?_
      · rw [hskips rest, hrest] at h
        cases h
      · rw [handlings_append]
        exact hleads.trans hleads'
      · refine hchooses.imp (fun h => ⟨h.1, (mem_pendingSockets.mp h.2).2, h.2⟩) fun h => ⟨h.1, ?_, fun hmem => ?_⟩
        · rw [h.2]
          decide
        · have hpos := (mem_pendingSockets.mp hmem).2
          rw [h.2] at hpos
          exact absurd hpos (by decide)

/-! ### The whole call -/

/-- The cleanup leaves the socket that was chosen, if it is one of those that are held. -/
theorem leads_others {hs : List Int} (hnodup : hs.Nodup) (theSocket : Int) :
    Leads (handlings (closing (hs.filter fun fd => fd ≠ theSocket))) hs (if theSocket ∈ hs then [theSocket] else []) := by
  have hleads := leads_closing (List.filter_sublist (p := fun fd => decide (fd ≠ theSocket)) (l := hs)).subperm
  have hdiff : hs.diff (hs.filter fun fd => fd ≠ theSocket) = hs.filter fun fd => fd = theSocket := by
    have hsdiff : hs.diff (hs.filter fun fd => fd ≠ theSocket) = hs.filter (· ∉ hs.filter fun fd => fd ≠ theSocket) :=
      hnodup.sdiff_eq_filter
    rw [hsdiff]
    apply List.filter_congr
    intro fd hfd
    simp [hfd]
  rw [hdiff] at hleads
  refine hleads.perm ((List.perm_ext_iff_of_nodup (hnodup.filter _) ?_).mpr fun fd => ?_)
  · split_ifs <;> simp
  · split_ifs with hmem
    · simp only [List.mem_filter, decide_eq_true_eq, List.mem_singleton]
      exact ⟨fun h => h.2, fun h => ⟨h ▸ hmem, h⟩⟩
    · simp only [List.mem_filter, decide_eq_true_eq, List.not_mem_nil, iff_false]
      exact fun h => hmem (h.2 ▸ h.1)

/-- What the end of the call adds to the cleanup: nothing, or the socket that was chosen is closed as well. -/
inductive Finish (settled : Settled) : List Syscall → Connected → Prop where
  | kept {out : Connected} (hrc : out.rc = settled.rc)
      (hfd : settled.rc = ArakoonReturnCode.success → out.fd = settled.theSocket) : Finish settled [] out
  | closed {out : Connected} (hsock : 0 ≤ settled.theSocket) (hrc : out.rc ≠ ArakoonReturnCode.success) :
      Finish settled [.close settled.theSocket] out
  | unchosen {out : Connected} (hsock : settled.theSocket < 0) (hrc : out.rc ≠ ArakoonReturnCode.success) :
      Finish settled [] out

/-- What is held when the call returns. -/
theorem Finish.leads {settled : Settled} {more : List Syscall} {out : Connected} {hs : List Int}
    (h : Finish settled more out)
    (hchosen : (settled.rc = ArakoonReturnCode.success ∧ 0 ≤ settled.theSocket ∧ settled.theSocket ∈ hs) ∨
      (settled.rc ≠ ArakoonReturnCode.success ∧ settled.theSocket < 0 ∧ settled.theSocket ∉ hs)) :
    Leads (handlings more) (if settled.theSocket ∈ hs then [settled.theSocket] else [])
      (if out.rc = ArakoonReturnCode.success then [out.fd] else []) := by
  cases h with
  | kept hrc hfd =>
      rw [hrc]
      rcases hchosen with ⟨hsuccess, -, hmem⟩ | ⟨hfailure, -, hmem⟩
      · rw [if_pos hmem, if_pos hsuccess, hfd hsuccess]
        exact .nil _
      · rw [if_neg hmem, if_neg hfailure]
        exact .nil _
  | closed hsock hrc =>
      rcases hchosen with ⟨-, -, hmem⟩ | ⟨-, hneg, -⟩
      · rw [if_pos hmem, if_neg hrc]
        have hleads := Leads.closed (List.mem_singleton.mpr (rfl : settled.theSocket = settled.theSocket))
        rw [List.erase_cons_head] at hleads
        exact hleads
      · omega
  | unchosen hsock hrc =>
      rcases hchosen with ⟨-, hpos, -⟩ | ⟨-, -, hmem⟩
      · omega
      · rw [if_neg hmem, if_neg hrc]
        exact .nil _

theorem Settles.accounted_iff {used rest : List Answer} {calls more : List Syscall} {settled : Settled}
    {out : Connected} (h : Settles used calls settled) (hfinish : Finish settled more out)
    (hrest : connectedAtOnce rest = none)
    (hfresh : Fresh (handlings (more ++ (closing (others settled.theSocket settled.fds) ++ calls)))) :
    Accounted (more ++ (closing (others settled.theSocket settled.fds) ++ calls)) out ↔
      ∀ sock, connectedAtOnce (used ++ rest) = some sock → sock = 0 := by
  cases h with
  | tidy hs hused hleads hnodup hothers hchosen =>
      refine ⟨fun _ sock h => hused rest sock hrest h, fun _ => ?_⟩
      have hcleaned := hleads.trans (leads_others hnodup settled.theSocket)
      rw [← hothers, ← handlings_append] at hcleaned
      have hall := hcleaned.trans (hfinish.leads hchosen)
      rw [← handlings_append] at hall
      obtain ⟨hclean, hheld⟩ := hall.whole hfresh
      refine ⟨hclean, fun hrc => ?_, fun hrc => ?_⟩
      · rw [if_pos hrc] at hheld
        exact List.perm_singleton.mp hheld
      · rw [if_neg hrc] at hheld
        exact List.perm_nil.mp hheld
  | overdrawn sock hused hsock hother =>
      constructor
      · intro haccounted
        have hclean := haccounted.closes
        rw [handlings_append, handlings_closing] at hclean
        exact absurd ((clean_closes_iff _ _).mp hclean.before).1 hother
      · intro hzero
        exact absurd (hzero sock (hused rest)) hsock

theorem ensures_connect_accounts (addresses : List Address) (fd timeout : Int) (k : Kernel) :
    Ensures (connect addresses fd timeout) k fun out k' => ∃ used calls, k.Goes used calls k' ∧
      (Fresh (handlings calls) →
        (Accounted calls out ↔ ∀ sock, connectedAtOnce used = some sock → sock = 0)) := by
  have hnone : ∀ {used : List Answer} {out : Connected}, connectedAtOnce used = none →
      out.rc ≠ ArakoonReturnCode.success →
      (Accounted [] out ↔ ∀ sock, connectedAtOnce used = some sock → sock = 0) := by
    intro used out hused hrc
    rw [hused]
    exact ⟨fun _ sock h => (by cases h), fun _ => ⟨trivial, fun h => absurd h hrc, fun _ => rfl⟩⟩
  refine .ite (fun _ => .pure ⟨[], [], .refl k, fun _ => hnone rfl timedOut.2⟩) fun _ => ?_
  refine (ensures_clock_goes .start k).bind fun r k₁ hstart => ?_
  cases r with
  | error e => exact .pure ⟨_, _, hstart, fun _ => hnone rfl e.rc_ne_zero⟩
  | ok start =>
      refine (ensures_settle addresses _ k₁).bind fun settled k₂ ⟨used, calls, hsettle, hsettles⟩ => ?_
      refine (ensures_closeOthers settled.theSocket settled.fds k₂).bind fun _ k₃ hclose => ?_
      have hgoes := (hstart.trans hsettle).trans hclose
      rw [List.append_nil, List.append_nil] at hgoes
      -- what is left to do, by the calls it logs and the answers it takes
      have hend : ∀ {out : Connected} {rest : List Answer} {more : List Syscall} {k₄ : Kernel},
          k₃.Goes rest more k₄ → connectedAtOnce rest = none → Finish settled more out →
          ∃ used calls, k.Goes used calls k₄ ∧ (Fresh (handlings calls) →
            (Accounted calls out ↔ ∀ sock, connectedAtOnce used = some sock → sock = 0)) := by
        intro out rest more k₄ hmore hrest hfinish
        refine ⟨_, _, hgoes.trans hmore, fun hfresh => ?_⟩
        have hopens := hfresh
        rw [handlings_append, handlings_append] at hopens
        exact (hsettles hopens.before.before).accounted_iff hfinish hrest hfresh
      refine .ite (fun _ => .pure (hend (.refl k₃) rfl (.kept rfl fun hrc => if_pos hrc))) fun _ => ?_
      refine (ensures_clock_goes .remainder k₃).bind fun r k₄ hclock => ?_
      cases r with
      | ok now => exact .pure (hend hclock rfl (.kept rfl fun hrc => if_pos hrc))
      | error e =>
          refine Ensures.ite (c := 0 ≤ settled.theSocket) (fun hsock => ?_) fun hsock => ?_
          · refine (ensures_note _ k₄).bind fun _ k₅ hnote => .pure ?_
            exact hend (hclock.trans hnote) rfl (.closed hsock e.rc_ne_zero)
          · exact .pure (hend hclock rfl (.unchosen (by omega) e.rc_ne_zero))

/-- The descriptors of a connection attempt are accounted for if, and only if, no socket but descriptor 0 is connected
at once. -/
theorem connect_accounts {addresses : List Address} {fd timeout : Int} {k k' : Kernel} {out : Connected}
    {used : List Answer} {calls : List Syscall} (hrun : (connect addresses fd timeout).run k = some (out, k'))
    (hgoes : k.Goes used calls k') (hfresh : Fresh (handlings calls)) :
    Accounted calls out ↔ ∀ sock, connectedAtOnce used = some sock → sock = 0 := by
  obtain ⟨used', calls', hgoes', hiff⟩ := ensures_connect_accounts addresses fd timeout k out k' hrun
  obtain ⟨rfl, rfl⟩ := hgoes'.unique hgoes
  exact hiff hfresh

def attempt (answers : List Answer) : Kernel := ⟨answers, []⟩

/-- The socket 5 of the only address is connected at once. -/
def atOnce : List Answer :=
  [.clock .start (.ok ⟨0, 0⟩), .socket (.ok 5), .fcntl (.ok ()), .fcntl (.ok ()), .connect (.ok ()), .fcntl (.ok ())]

/-- The call hands out 5 and closes 0, which it has not opened. -/
theorem connect_closes_zero :
    ∃ k', (connect [0] (-1) infiniteTimeout).run (attempt atOnce) = some (⟨0, 5, infiniteTimeout⟩, k') ∧
      (attempt atOnce).Goes atOnce [.close 0, .socket 5] k' ∧ Fresh (handlings [.close 0, .socket 5]) ∧
      ¬ Accounted [.close 0, .socket 5] ⟨0, 5, infiniteTimeout⟩ := by
  refine ⟨_, rfl, ⟨rfl, rfl⟩, ⟨List.not_mem_nil, trivial⟩, fun h => ?_⟩
  have hmem : (0 : Int) ∈ [(5 : Int)] := h.closes.1
  exact absurd hmem (by decide)

/-- The connection is in progress, and then the socket is writable. -/
def inProgress : List Answer :=
  [.clock .start (.ok ⟨0, 0⟩), .socket (.ok 5), .fcntl (.ok ()), .fcntl (.ok ()), .connect (.error einprogress),
    .poll (.ok (1, [⟨false, true, false, false, false, false⟩])), .fcntl (.ok ())]

theorem connect_accounts_pending :
    ∃ k', (connect [0] (-1) infiniteTimeout).run (attempt inProgress) = some (⟨0, 5, infiniteTimeout⟩, k') ∧
      Accounted [.poll [5] (-1), .socket 5] ⟨0, 5, infiniteTimeout⟩ := by
  have hrun : (connect [0] (-1) infiniteTimeout).run (attempt inProgress) =
      some (⟨0, 5, infiniteTimeout⟩, ⟨[], [.poll [5] (-1), .socket 5]⟩) := rfl
  have hgoes : (attempt inProgress).Goes inProgress [.poll [5] (-1), .socket 5] ⟨[], [.poll [5] (-1), .socket 5]⟩ :=
    ⟨rfl, rfl⟩
  have hfresh : Fresh (handlings [.poll [5] (-1), .socket 5]) := ⟨List.not_mem_nil, trivial⟩
  refine ⟨_, hrun, (connect_accounts hrun hgoes hfresh).mpr fun sock h => ?_⟩
  cases h

end Crakoon.Networking
