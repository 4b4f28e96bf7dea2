import Crakoon.Cluster
import Crakoon.Program

/-!
# The transfer loops

`arakoon-networking.c`: the loop that reads or writes a block under a time limit, and the one that connects to the
first address that accepts. What the system calls give is a list of answers, in the order in which the calls are
made; a program that finds no answer, or that of another call, has no outcome. A clock reading is named after what
it is for. The time limit is an `int` that the calls of one client operation share, as they do the answers.
-/

namespace Crakoon.Networking

open Programs

abbrev Errno := {n : Nat // 0 < n}

/-- `-errno` -/
def Errno.rc (e : Errno) : ArakoonRc := -e.1

theorem Errno.rc_ne_zero (e : Errno) : e.rc ≠ 0 := by
  have hpos : (e.1 : Int) ≠ 0 := Int.natCast_ne_zero.mpr (Nat.ne_of_gt e.2)
  exact neg_ne_zero.mpr hpos

def eintr : Errno := ⟨4, by decide⟩
def eagain : Errno := ⟨11, by decide⟩
def einprogress : Errno := ⟨115, by decide⟩

structure Timespec where
  sec : Int
  nsec : Int
  deriving DecidableEq

structure Revents where
  pollIn : Bool
  pollOut : Bool
  pollErr : Bool
  pollHup : Bool
  pollRdHup : Bool
  pollNval : Bool
  deriving DecidableEq

/-- What the functions read the clock for: the start of a call, the time that is left, and the remainder that is
handed on to the next call. -/
inductive ClockUse where
  | start
  | check
  | remainder
  deriving DecidableEq

/-- The results of the system calls; of `poll`, what it returns and the events of each entry. -/
inductive Answer where
  | clock (use : ClockUse) (r : Except Errno Timespec)
  | poll (r : Except Errno (Nat × List Revents))
  | read (r : Except Errno Bytes)
  | write (r : Except Errno Nat)
  | socket (r : Except Errno Nat)
  | fcntl (r : Except Errno Unit)
  | connect (r : Except Errno Unit)

/-- The calls of which the arguments are kept, and of `socket` the descriptor it gave. -/
inductive Syscall where
  | poll (fds : List Int) (timeout : Int)
  | socket (fd : Int)
  | close (fd : Int)
  deriving DecidableEq

structure Kernel where
  answers : List Answer
  /-- The latest call first. -/
  log : List Syscall

abbrev Os := Program Kernel

/-- The next answer, if it is one of the call that is made. -/
def ask {α : Type} (pick : Answer → Option α) : Os α := fun k =>
  match k.answers with
  | [] => none
  | a :: rest => (pick a).map fun r => (r, { k with answers := rest })

def note (call : Syscall) : Os Unit := fun k => some ((), { k with log := call :: k.log })

def clockGettime (use : ClockUse) : Os (Except Errno Timespec) := ask fun
  | .clock u r => if u = use then some r else none
  | _ => none

def poll (fds : List Int) (timeout : Int) : Os (Except Errno (Nat × List Revents)) := do
  note (.poll fds timeout)
  ask fun
    | .poll r => some r
    | _ => none

/-- `read`, which gives no more bytes than were asked for. -/
def read (count : Nat) : Os (Except Errno Bytes) := ask fun
  | .read (.error e) => some (.error e)
  | .read (.ok bs) => if bs.length ≤ count then some (.ok bs) else none
  | _ => none

/-- `write`, with the bytes that were accepted. -/
def write (bs : Bytes) : Os (Except Errno Bytes) := ask fun
  | .write (.error e) => some (.error e)
  | .write (.ok n) => if n ≤ bs.length then some (.ok (bs.take n)) else none
  | _ => none

def socket : Os (Except Errno Nat) := do
  let r ← ask fun
    | .socket r => some r
    | _ => none
  match r with
  | .error e => pure (.error e)
  | .ok sock => do
      note (.socket sock)
      pure (.ok sock)

/-- `fcntl` on the flags of a socket. -/
def fcntl : Os (Except Errno Unit) := ask fun
  | .fcntl r => some r
  | _ => none

def connectSocket : Os (Except Errno Unit) := ask fun
  | .connect r => some r
  | _ => none

def close (fd : Int) : Os Unit := note (.close fd)

/-- From `k` to `k'` the answers `used` have been taken. -/
def Kernel.Takes (k : Kernel) (used : List Answer) (k' : Kernel) : Prop := k.answers = used ++ k'.answers

theorem Kernel.Takes.refl (k : Kernel) : k.Takes [] k := rfl

theorem Kernel.Takes.trans {k k₁ k₂ : Kernel} {used used₁ : List Answer} (h : k.Takes used k₁)
    (h₁ : k₁.Takes used₁ k₂) : k.Takes (used ++ used₁) k₂ := by
  unfold Kernel.Takes at *
  rw [h, h₁, List.append_assoc]

/-- From `k` to `k'` the answers `used` have been taken and the calls `calls` logged. -/
structure Kernel.Goes (k : Kernel) (used : List Answer) (calls : List Syscall) (k' : Kernel) : Prop where
  takes : k.Takes used k'
  logs : k'.log = calls ++ k.log

theorem Kernel.Goes.refl (k : Kernel) : k.Goes [] [] k := ⟨.refl k, rfl⟩

theorem Kernel.Goes.trans {k k₁ k₂ : Kernel} {used used₁ : List Answer} {calls calls₁ : List Syscall}
    (h : k.Goes used calls k₁) (h₁ : k₁.Goes used₁ calls₁ k₂) : k.Goes (used ++ used₁) (calls₁ ++ calls) k₂ := by
  refine ⟨h.takes.trans h₁.takes, ?_⟩
  rw [h₁.logs, h.logs, List.append_assoc]

theorem Kernel.Goes.unique {k k' : Kernel} {used used' : List Answer} {calls calls' : List Syscall}
    (h : k.Goes used calls k') (h' : k.Goes used' calls' k') : used = used' ∧ calls = calls' := by
  constructor
  · exact List.append_cancel_right (h.takes.symm.trans h'.takes)
  · exact List.append_cancel_right (h.logs.symm.trans h'.logs)

theorem ensures_ask_goes {α : Type} (pick : Answer → Option α) (k : Kernel) :
    Ensures (ask pick) k fun r k' => ∃ a, pick a = some r ∧ k.Goes [a] [] k' := by
  intro r k' hrun
  simp only [ask, StateT.run] at hrun
  split at hrun
  · cases hrun
  · rename_i a rest hanswers
    obtain ⟨r', hpick, hout⟩ := Option.map_eq_some_iff.mp hrun
    obtain ⟨rfl, rfl⟩ := Prod.mk.inj hout
    exact ⟨a, hpick, hanswers, rfl⟩

theorem ensures_ask {α : Type} (pick : Answer → Option α) (k : Kernel) :
    Ensures (ask pick) k fun r k' => ∃ a, pick a = some r ∧ k.Takes [a] k' :=
  (ensures_ask_goes pick k).mono fun _ _ ⟨a, hpick, hgoes⟩ => ⟨a, hpick, hgoes.takes⟩

theorem ensures_note (call : Syscall) (k : Kernel) : Ensures (note call) k fun _ k' => k.Goes [] [call] k' := by
  intro a k' hrun
  obtain ⟨-, rfl⟩ := Prod.mk.inj (Option.some.inj hrun)
  exact ⟨rfl, rfl⟩

theorem ensures_fcntl (k : Kernel) : Ensures fcntl k fun r k' => k.Goes [.fcntl r] [] k' := by
  refine (ensures_ask_goes _ k).mono fun r k' ⟨a, hpick, hgoes⟩ => ?_
  cases a with
  | fcntl r' =>
      obtain rfl := Option.some.inj hpick
      exact hgoes
  | _ => cases hpick

theorem ensures_clock_goes (use : ClockUse) (k : Kernel) :
    Ensures (clockGettime use) k fun r k' => k.Goes [.clock use r] [] k' := by
  refine (ensures_ask_goes _ k).mono fun r k' ⟨a, hpick, hgoes⟩ => ?_
  cases a with
  | clock u r' =>
      dsimp only at hpick
      split_ifs at hpick with huse
      obtain rfl := Option.some.inj hpick
      subst huse
      exact hgoes
  | _ => cases hpick

/-! ### Transfers -/

def nsPerMs : Int := 1000000
def msPerS : Int := 1000
def nsPerS : Int := msPerS * nsPerMs

/-- `time_delta` -/
def timeDelta (start now : Timespec) : Int :=
  if start.sec = now.sec then (now.nsec - start.nsec).tdiv nsPerMs
  else
    let nd := (nsPerS - start.nsec) + now.nsec
    nd.tdiv nsPerMs + (now.sec - start.sec) * msPerS

/-- `ARAKOON_CLIENT_CALL_OPTIONS_INFINITE_TIMEOUT` -/
def infiniteTimeout : Int := -1

/-- `timeout_ - time_delta(&start, &now)`, as an `int`. -/
def timeLeft (budget : Int) (start now : Timespec) : Int := int32 (budget - timeDelta start now)

inductive NetworkAction where
  | read
  | write
  deriving DecidableEq

/-- The event that an action waits for. -/
def NetworkAction.event : NetworkAction → Revents → Bool
  | .read, revents => revents.pollIn
  | .write, revents => revents.pollOut

/-- What a call comes to: its code, the bytes it has moved and what it leaves in the variable of the time limit. -/
structure Transfer where
  rc : ArakoonRc
  moved : Bytes
  timeout : Int
  deriving DecidableEq

/-- What comes of waiting for an event: the action may be tried, the loop starts again, or the call ends. -/
inductive Wait where
  | ready
  | again
  | stop (rc : Failure) (timeout : Int)

def Revents.broken (revents : Revents) : Bool :=
  revents.pollErr || revents.pollHup || revents.pollNval || revents.pollRdHup

def Errno.failure (e : Errno) : Failure := ⟨e.rc, e.rc_ne_zero⟩

def timedOut : Failure := ⟨ArakoonReturnCode.clientTimeout, by decide⟩
def networkError : Failure := ⟨ArakoonReturnCode.clientNetworkError, clientNetworkError_ne_zero⟩
def notConnected : Failure := ⟨ArakoonReturnCode.clientNotConnected, by decide⟩

/-- Ends a call with the remainder in the variable of the time limit, which holds `timeout`. -/
def stopWithRemainder (rc : Failure) (budget : Int) (start : Timespec) (timeout : Int) : Os Wait := do
  match ← clockGettime .remainder with
  | .error e => pure (.stop e.failure timeout)
  | .ok now => pure (.stop rc (timeLeft budget start now))

/-- The part of the loop that is there only under a time limit. -/
def await (action : NetworkAction) (fd budget : Int) (start : Timespec) (timeout : Int) : Os Wait := do
  match ← clockGettime .check with
  | .error e => pure (.stop e.failure timeout)
  | .ok now =>
      if timeLeft budget start now ≤ 0 then pure (.stop timedOut 0)
      else do
        match ← poll [fd] (timeLeft budget start now) with
        | .error e => stopWithRemainder e.failure budget start timeout
        | .ok (count, entries) =>
            if count = 0 then pure (.stop timedOut 0)
            else do
              let revents := entries.headD ⟨false, false, false, false, false, false⟩
              if revents.broken then
                stopWithRemainder (if revents.pollErr then networkError else notConnected) budget start timeout
              else if action.event revents then pure .ready
              else pure .again

/-- Without a time limit nothing is waited for. -/
def awaitLimit (action : NetworkAction) (fd : Int) (limit : Option (Int × Timespec)) (timeout : Int) : Os Wait :=
  match limit with
  | none => pure .ready
  | some (budget, start) => await action fd budget start timeout

/-- One `read` or `write` for the rest of a block: the bytes of `data` that are still to be written, or as many as
are still to be read. -/
def act (action : NetworkAction) (data : Bytes) (todo : Nat) : Os (Except Errno Bytes) :=
  match action with
  | .read => read todo
  | .write => write data

/-- The loop, with `done` moved and `todo` bytes to go; under a time limit, with what was in the variable and the
first reading. -/
def pollActLoop (action : NetworkAction) (fd : Int) (limit : Option (Int × Timespec)) (timeout : Int) :
    Nat → Bytes → Nat → Bytes → Os Transfer
  | 0, _, _, _ => fun _ => none
  | rounds + 1, data, todo, done =>
      if todo = 0 then
        match limit with
        | none => pure ⟨ArakoonReturnCode.success, done, timeout⟩
        | some (budget, start) => do
            match ← clockGettime .remainder with
            | .error e => pure ⟨e.rc, done, timeout⟩
            | .ok now => pure ⟨ArakoonReturnCode.success, done, timeLeft budget start now⟩
      else do
        match ← awaitLimit action fd limit timeout with
        | .stop rc timeout => pure ⟨rc.1, done, timeout⟩
        | .again => pollActLoop action fd limit timeout rounds data todo done
        | .ready => do
            match ← act action data todo with
            | .error e =>
                if e = eintr ∨ e = eagain then pollActLoop action fd limit timeout rounds data todo done
                else pure ⟨e.rc, done, timeout⟩
            | .ok bs =>
                if action = .read ∧ bs = [] then pure ⟨ArakoonReturnCode.clientNetworkError, done, timeout⟩
                else pollActLoop action fd limit timeout rounds (data.drop bs.length) (todo - bs.length) (done ++ bs)

/-- As many rounds as there can be: every round but the last takes an answer. -/
def pollActRounds (action : NetworkAction) (fd : Int) (limit : Option (Int × Timespec)) (timeout : Int) (data : Bytes)
    (count : Nat) : Os Transfer := fun k =>
  (pollActLoop action fd limit timeout (k.answers.length + 1) data count []).run k

/-- `_arakoon_networking_poll_act` -/
def pollAct (action : NetworkAction) (fd : Int) (data : Bytes) (count : Nat) (timeout : Int) : Os Transfer :=
  if fd < 0 then pure ⟨ArakoonReturnCode.clientNotConnected, [], timeout⟩
  else if timeout = infiniteTimeout then pollActRounds action fd none timeout data count
  else if timeout ≤ 0 then pure ⟨ArakoonReturnCode.clientTimeout, [], timeout⟩
  else do
    match ← clockGettime .start with
    | .error e => pure ⟨e.rc, [], timeout⟩
    | .ok start => pollActRounds action fd (some (timeout, start)) timeout data count

/-- `_arakoon_networking_poll_write` -/
def pollWrite (fd : Int) (data : Bytes) (timeout : Int) : Os Transfer := pollAct .write fd data data.length timeout

/-- `_arakoon_networking_poll_read` -/
def pollRead (fd : Int) (count : Nat) (timeout : Int) : Os Transfer := pollAct .read fd [] count timeout

/-! ### `_arakoon_networking_connect` -/

/-- What comes of one address: a socket that is connected, one that is not yet, or none. -/
inductive Attempt where
  | connected (sock : Int)
  | pending (sock : Int)
  | failed

/-- One round of the loop over the addresses. A socket whose flags cannot be read or set is closed. -/
def tryAddress : Os Attempt := do
  match ← socket with
  | .error _ => pure .failed
  | .ok sock => do
      match ← fcntl with
      | .error _ => do
          close sock
          pure .failed
      | .ok _ => do
          match ← fcntl with
          | .error _ => do
              close sock
              pure .failed
          | .ok _ => do
              match ← connectSocket with
              | .error e =>
                  if e = einprogress then pure (.pending sock)
                  else do
                    close sock
                    pure .failed
              | .ok _ => do
                  match ← fcntl with
                  | .ok _ => pure (.connected sock)
                  | .error _ => do
                      close sock
                      pure .failed

/-- The loop over the addresses: the array `fds` and `the_socket`. It ends at the first socket that is connected, and
from there on `fds` keeps the zeros it was filled with. -/
def openSockets : List Address → Os (List Int × Int)
  | [] => pure ([], -1)
  | _ :: addresses => do
      match ← tryAddress with
      | .connected sock => pure (0 :: addresses.map fun _ => 0, sock)
      | .pending sock => do
          let (fds, theSocket) ← openSockets addresses
          pure (sock :: fds, theSocket)
      | .failed => do
          let (fds, theSocket) ← openSockets addresses
          pure (-1 :: fds, theSocket)

/-- `poll` until it is not interrupted. -/
def pollUninterrupted (fds : List Int) (timeout : Int) : Nat → Os (Except Errno (Nat × List Revents))
  | 0 => fun _ => none
  | rounds + 1 => do
      match ← poll fds timeout with
      | .error e => if e = eintr then pollUninterrupted fds timeout rounds else pure (.error e)
      | .ok found => pure (.ok found)

/-- The loop over the entries of `poll`: sockets in error are closed and forgotten, of the others the last one that
is writable becomes `the_socket`. -/
def scanSockets : List (Int × Revents) → List Int → Int → Os (List Int × Int)
  | [], fds, theSocket => pure (fds, theSocket)
  | (fd, revents) :: entries, fds, theSocket =>
      if revents.pollErr || revents.pollHup || revents.pollNval then do
        close fd
        scanSockets entries (fds.map fun f => if f = fd then -1 else f) theSocket
      else if revents.pollOut then scanSockets entries fds fd
      else scanSockets entries fds theSocket

/-- The loop that restores the flags of `the_socket`: `fds`, and whether it succeeded. -/
def restoreFlags (theSocket : Int) : List Int → Os (List Int × Bool)
  | [] => pure ([], false)
  | fd :: fds =>
      if fd = theSocket then do
        match ← fcntl with
        | .ok _ => pure (fd :: fds, true)
        | .error _ => do
            close theSocket
            let (rest, restored) ← restoreFlags theSocket fds
            pure (-1 :: rest, restored)
      else do
        let (rest, restored) ← restoreFlags theSocket fds
        pure (fd :: rest, restored)

/-- What `_arakoon_networking_connect` brings to its cleanup: the code, `fds`, `the_socket` and `now`. -/
structure Settled where
  rc : ArakoonRc
  fds : List Int
  theSocket : Int
  now : Timespec

/-- The time that is left, or the code to end with, and `now`. -/
def checkTime (limit : Option (Int × Timespec)) (now : Timespec) : Os (Except ArakoonRc Int × Timespec) :=
  match limit with
  | none => pure (.ok (-1), now)
  | some (budget, start) => do
      match ← clockGettime .check with
      | .error e => pure (.error e.rc, now)
      | .ok now =>
          if timeLeft budget start now ≤ 0 then pure (.error ArakoonReturnCode.clientTimeout, now)
          else pure (.ok (timeLeft budget start now), now)

/-- The loop that waits for one of the sockets. -/
def connectLoop (limit : Option (Int × Timespec)) : Nat → List Int → Timespec → Os Settled
  | 0, _, _ => fun _ => none
  | rounds + 1, fds, now => do
      let (checked, now) ← checkTime limit now
      match checked with
      | .error rc => pure ⟨rc, fds, -1, now⟩
      | .ok left => do
          let pending := fds.filter fun fd => 0 ≤ fd
          if pending = [] then pure ⟨ArakoonReturnCode.clientNetworkError, fds, -1, now⟩
          else do
            match ← pollUninterrupted pending left rounds with
            | .error e => pure ⟨e.rc, fds, -1, now⟩
            | .ok (count, entries) =>
                if count = 0 then pure ⟨ArakoonReturnCode.clientTimeout, fds, -1, now⟩
                else do
                  let (fds, theSocket) ← scanSockets ((pending.zip entries).take count) fds (-1)
                  if 0 ≤ theSocket then do
                    let (fds, restored) ← restoreFlags theSocket fds
                    if restored then pure ⟨ArakoonReturnCode.success, fds, theSocket, now⟩
                    else connectLoop limit rounds fds now
                  else connectLoop limit rounds fds now

/-- The loop of the cleanup. -/
def closeOthers (theSocket : Int) : List Int → Os Unit
  | [] => pure ()
  | fd :: fds => do
      if 0 ≤ fd ∧ fd ≠ theSocket then close fd
      closeOthers theSocket fds

/-- What a call comes to: its code, the descriptor it hands out and what it leaves in the variable of the time
limit. -/
structure Connected where
  rc : ArakoonRc
  fd : Int
  timeout : Int
  deriving DecidableEq

/-- Both loops, up to the cleanup. -/
def settle (addresses : List Address) (limit : Option (Int × Timespec)) : Os Settled := do
  let (fds, theSocket) ← openSockets addresses
  if 0 ≤ theSocket then pure ⟨ArakoonReturnCode.success, fds, theSocket, ⟨0, 0⟩⟩
  else fun k => (connectLoop limit (k.answers.length + 1) fds ⟨0, 0⟩).run k

/-- `_arakoon_networking_connect`, where its three arrays are allocated; `fd` and `timeout` are what the variables of
the caller hold. -/
def connect (addresses : List Address) (fd timeout : Int) : Os Connected :=
  if timeout ≠ infiniteTimeout ∧ timeout ≤ 0 then pure ⟨ArakoonReturnCode.clientTimeout, fd, timeout⟩
  else do
    match ← clockGettime .start with
    | .error e => pure ⟨e.rc, -1, timeout⟩
    | .ok start => do
        let out ← settle addresses (if timeout = infiniteTimeout then none else some (timeout, start))
        closeOthers out.theSocket out.fds
        let found := if out.rc = 0 then out.theSocket else -1
        if timeout = infiniteTimeout then pure ⟨out.rc, found, timeout⟩
        else do
          match ← clockGettime .remainder with
          | .ok now => pure ⟨out.rc, found, timeLeft timeout start now⟩
          | .error e => do
              if 0 ≤ out.theSocket then close out.theSocket
              pure ⟨e.rc, -1, timeLeft timeout start out.now⟩

end Crakoon.Networking
