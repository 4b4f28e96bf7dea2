import Crakoon.ExactTransfer
import Crakoon.NodeScripts
import Crakoon.Prophecies
import Crakoon.ServedRuns

/-!
# Operations on a descriptor

The same operations on two levels. In a `Line` the node of the master has a descriptor, and what is read and written
goes through the loops of `arakoon-networking.c`, down to the system calls; in a `Session` it has a connection to a
`Peer`. Whatever the system calls of a run of operations give, there is a peer on whose connection the same run has the
same results (`operations_on_line`): what holds for every peer holds for every schedule of system calls.
-/

namespace Crakoon

open Programs Networking

/-- What an operation works on, down to the system calls. -/
structure Line where
  heap : Heap
  /-- The descriptor of the node. -/
  fd : Int
  lastError : Data
  /-- The variable of the time limit. -/
  timeout : Int
  kernel : Kernel
  /-- All that was written on the descriptor. -/
  sent : Bytes

section Performed

variable (alloc : Nat → Bool)

/-- A call of one of the transfer functions, with the variable of the time limit. -/
def transferOn (call : Int → Int → Os Transfer) : Program Line Transfer := fun l =>
  ((call l.fd l.timeout).run l.kernel).map fun out =>
    (out.1, { l with timeout := out.1.timeout, kernel := out.2 })

/-- `_arakoon_cluster_node_disconnect` -/
def lineDisconnect : Program Line Unit := fun l =>
  if 0 ≤ l.fd then some ((), { l with fd := -1, kernel := { l.kernel with log := .close l.fd :: l.kernel.log } })
  else some ((), { l with fd := -1 })

/-- What a command does on a descriptor. What a read that fails has left in its buffer is not looked at. -/
def performOnLine : (c : NodeCommand) → Program Line c.Answer
  | .malloc => fun l => some ((l.heap.malloc alloc).1, { l with heap := (l.heap.malloc alloc).2 })
  | .realloc p => fun l => some ((l.heap.realloc alloc p).1, { l with heap := (l.heap.realloc alloc p).2 })
  | .free p => fun l => some ((), { l with heap := l.heap.free p })
  | .write bs => do
      let out ← transferOn fun fd timeout => pollWrite fd bs timeout
      fun l => some (out.rc, { l with sent := l.sent ++ out.moved })
  | .read n => do
      let out ← transferOn fun fd timeout => pollRead fd n timeout
      pure (out.rc, if out.rc = 0 then out.moved else [])
  | .disconnect => lineDisconnect
  | .setLastError msg => fun l => some ((), { l with lastError := msg })
  | .abort => fun _ => none

/-- A call of an operation: the time limit of its options, and the commands that it gives to the node of the master. -/
structure LineCall where
  call : OperationCall
  timeout : Int
  script : NodeScript (ArakoonRc × call.1.kind.Out)
  performs : script.run (NodeCommand.perform alloc) =
    clientOperation alloc (call.1.early call.2) (call.1.failed call.2) (Operation.send alloc call.1)
      (Operation.decode alloc call.1 call.2)

variable {alloc}

/-- There is such a call for every operation. -/
theorem exists_lineCall (call : OperationCall) (timeout : Int) :
    ∃ c : LineCall alloc, c.call = call ∧ c.timeout = timeout := by
  obtain ⟨script, -, hrun⟩ := gives_operation call.1 call.2
  exact ⟨⟨call, timeout, script, hrun⟩, rfl, rfl⟩

/-- The last error is reset, and the variable of the time limit is set. -/
def lineStart (timeout : Int) : Program Line Unit := fun l =>
  some ((), { l with heap := l.heap.free l.lastError.ptr, lastError := .null, timeout := timeout })

def LineCall.program (c : LineCall alloc) : Program Line (ArakoonRc × c.call.1.kind.Out) := do
  lineStart c.timeout
  fun l =>
    if 0 ≤ l.fd then (c.script.run (performOnLine alloc)).run l
    else some ((ArakoonReturnCode.clientNotConnected.rc, c.call.1.notConnected c.call.2), l)

/-- An operation that returns; one that aborts has no next state. -/
def lineStep (c : LineCall alloc) (l : Line) : Except Unit (Returned × Line) :=
  match c.program.run l with
  | none => .error ()
  | some (out, l') => .ok (⟨c.call.1.kind, out⟩, l')

end Performed

theorem pollWrite_moved {fd timeout : Int} {bs : Bytes} {k k' : Kernel} {out : Transfer}
    (hrun : (pollWrite fd bs timeout).run k = some (out, k')) :
    out.moved <+: bs ∧ (out.rc = 0 → out.moved = bs) := by
  obtain ⟨used, calls, -, hpath⟩ := pollAct_run_iff.mp hrun
  obtain ⟨hmoved, hwhole⟩ := exact_of_path (fun _ => rfl) hpath
  exact ⟨hmoved.write rfl, fun hrc => (hmoved.write rfl).eq_of_length (hwhole hrc)⟩

theorem pollRead_moved {fd timeout : Int} {n : Nat} {k k' : Kernel} {out : Transfer}
    (hrun : (pollRead fd n timeout).run k = some (out, k')) (hrc : out.rc = 0) : out.moved.length = n := by
  obtain ⟨used, calls, -, hpath⟩ := pollAct_run_iff.mp hrun
  exact (exact_of_path (fun hwrite => by cases hwrite) hpath).2 hrc

theorem pollAct_closed {action : NetworkAction} {fd timeout : Int} {data : Bytes} {count : Nat} {k k' : Kernel}
    {out : Transfer} (hfd : fd < 0) (hrun : (pollAct action fd data count timeout).run k = some (out, k')) :
    out.rc = ArakoonReturnCode.clientNotConnected ∧ out.moved = [] := by
  rw [pollAct, if_pos hfd] at hrun
  obtain ⟨rfl, -⟩ := Prod.mk.inj (Option.some.inj hrun)
  exact ⟨rfl, rfl⟩

/-- The first is `a`, and the others are those of `f`. -/
def ahead {α : Type} (a : α) (f : Nat → α) : Nat → α
  | 0 => a
  | n + 1 => f n

/-- How the writes and reads to come end, what is sent back, and what has arrived already. -/
structure Plan where
  writes : Nat → WriteOutcome
  reads : Nat → Option Failure
  answers : Nat → Bytes
  front : Bytes

/-- The peer of the connection goes on as planned. What was written and is not answered yet, is answered as planned;
otherwise what has arrived is what was planned. -/
structure Conn.Keeps (c : Conn) (plan : Plan) : Prop where
  writes : ∀ i, c.peer.writes (c.writes + i) = plan.writes i
  reads : ∀ i, c.peer.reads (c.reads + i) = plan.reads i
  answers : ∀ i bs, c.peer.answers (c.turns + i) bs = plan.answers i
  inbox : c.inbox = if c.pending = [] then plan.front else []

/-- The plan for the connection, if there is one, on which something waits for an answer or not. -/
def Session.Keeps (waiting : Bool) (plan : Plan) (s : Session) : Prop :=
  ∀ c, s.conn = some c → (c.pending ≠ [] ↔ waiting = true) ∧ c.Keeps plan

/-- The session shows what the line holds. -/
structure Line.Meets (l : Line) (s : Session) : Prop where
  heap : s.heap = l.heap
  lastError : s.lastError = l.lastError
  closed : s.conn = none → l.fd < 0
  opened : ∀ c, s.conn = some c → 0 ≤ l.fd ∧ c.sent = l.sent

theorem Line.Meets.fd_iff {l : Line} {s : Session} (h : l.Meets s) : 0 ≤ l.fd ↔ s.conn.isSome = true := by
  cases hconn : s.conn with
  | none => exact iff_of_false (by have := h.closed hconn; omega) Bool.false_ne_true
  | some c => exact iff_of_true (h.opened c hconn).1 rfl

/-- A read takes `d` off what was planned, or fails. -/
def Plan.read (plan : Plan) (waiting : Bool) (failure : Option Failure) (d : Bytes) : Plan where
  writes := plan.writes
  reads := ahead failure plan.reads
  answers := if waiting then ahead (d ++ plan.front) plan.answers else plan.answers
  front := d ++ plan.front

/-- A write of which `moved` is accepted. -/
def Plan.write (plan : Plan) (outcome : WriteOutcome) (moved : Bytes) : Plan where
  writes := ahead outcome plan.writes
  reads := plan.reads
  answers := plan.answers
  front := if moved = [] then plan.front else []

section Conns

variable {c : Conn} {plan : Plan} {waiting : Bool}

/-- What there is to read is what was planned. -/
theorem Conn.Keeps.stream {failure : Option Failure} {d : Bytes} (h : c.Keeps (plan.read waiting failure d))
    (hwaiting : c.pending ≠ [] ↔ waiting = true) : c.stream = d ++ plan.front := by
  have hinbox := h.inbox
  by_cases hpending : c.pending = []
  · rw [if_pos hpending] at hinbox
    rw [Conn.stream, if_pos hpending]
    exact hinbox
  · rw [if_neg hpending] at hinbox
    have hanswer := h.answers 0 c.pending
    rw [Conn.stream, if_neg hpending, hinbox, List.nil_append]
    simpa [Plan.read, hwaiting.mp hpending, ahead] using hanswer

/-- A connection on which the planned read has been done. -/
theorem Conn.Keeps.after_read {failure : Option Failure} {d inbox : Bytes} (h : c.Keeps (plan.read waiting failure d))
    (hwaiting : c.pending ≠ [] ↔ waiting = true) (hinbox : inbox = plan.front) :
    Conn.Keeps { c.turn with reads := c.reads + 1, inbox := inbox } plan where
  writes := h.writes
  reads := by
    intro i
    have hread := h.reads (i + 1)
    rw [← Nat.add_assoc, Nat.add_right_comm] at hread
    exact hread
  answers := by
    intro i bs
    have hanswer := h.answers
    by_cases hpending : c.pending = []
    · have hfalse : waiting = false := Bool.eq_false_iff.mpr fun htrue => hwaiting.mpr htrue hpending
      simpa [Conn.turn, hpending, Plan.read, hfalse] using hanswer i bs
    · have hnext := hanswer (i + 1) bs
      rw [← Nat.add_assoc, Nat.add_right_comm] at hnext
      simpa [Conn.turn, hpending, Plan.read, hwaiting.mp hpending, ahead] using hnext
  inbox := hinbox.trans (if_pos rfl).symm

/-- A connection on which the planned write has been done. -/
theorem Conn.Keeps.after_write {outcome : WriteOutcome} {moved : Bytes} (h : c.Keeps (plan.write outcome moved)) :
    (c.accept moved).Keeps plan where
  writes := by
    intro i
    have hwrite := h.writes (i + 1)
    rw [← Nat.add_assoc, Nat.add_right_comm] at hwrite
    exact hwrite
  reads := h.reads
  answers := h.answers
  inbox := by
    have hinbox := h.inbox
    have hpending : (c.accept moved).pending = [] ↔ c.pending = [] ∧ moved = [] := List.append_eq_nil_iff
    by_cases hold : c.pending = []
    · rw [if_pos hold] at hinbox
      by_cases hmoved : moved = []
      · rw [if_pos (hpending.mpr ⟨hold, hmoved⟩)]
        exact hinbox.trans (if_pos hmoved)
      · rw [if_neg fun hnil => hmoved (hpending.mp hnil).2]
        exact hinbox.trans (if_neg hmoved)
    · rw [if_neg hold] at hinbox
      rw [if_neg fun hnil => hold (hpending.mp hnil).1]
      exact hinbox

end Conns

/-! ### The commands on both levels -/

/-- The session shows what the line holds, and its peer goes on as planned. -/
def Line.Fits (waiting : Bool) (plan : Plan) (l : Line) (s : Session) : Prop := l.Meets s ∧ s.Keeps waiting plan

/-- How a write that comes to an end with the code and `moved` bytes ends on a connection. -/
def WriteOutcome.of (rc : ArakoonRc) (moved : Nat) : WriteOutcome :=
  if h : rc = 0 then .complete else .stopped moved ⟨rc, h⟩

/-- How a read that comes to an end with the code fails on a connection. -/
def failureOf (rc : ArakoonRc) : Option Failure := if h : rc = 0 then none else some ⟨rc, h⟩

theorem networkingPollWrite_of {c : Conn} {rc : ArakoonRc} {bs moved : Bytes}
    (hwrite : c.peer.writes c.writes = .of rc moved.length) (hmoved : moved <+: bs) (hwhole : rc = 0 → moved = bs) :
    networkingPollWrite bs c = (rc, c.accept moved) := by
  rw [networkingPollWrite, hwrite, WriteOutcome.of]
  split_ifs with hrc
  · rw [hwhole hrc, hrc]
    rfl
  · dsimp only
    rw [← List.prefix_iff_eq_take.mp hmoved]

theorem networkingPollRead_of {c : Conn} {rc : ArakoonRc} {n : Nat} {d front : Bytes}
    (hread : c.peer.reads c.reads = failureOf rc) (hstream : c.stream = d ++ front) (hlength : rc = 0 → d.length = n)
    (hfailed : rc ≠ 0 → d = []) :
    networkingPollRead n c = ((rc, d), { c.turn with reads := c.reads + 1, inbox := front }) := by
  rw [networkingPollRead, hread, failureOf]
  by_cases hrc : rc = 0
  · have hn := hlength hrc
    have hle : n ≤ c.stream.length := by
      rw [hstream, List.length_append]
      omega
    rw [dif_pos hrc]
    dsimp only
    rw [if_pos hle, Conn.take, hstream, ← hn, List.take_left, List.drop_left, hrc]
    rfl
  · have hturn : c.turn.inbox = front := by
      change c.stream = front
      rw [hstream, hfailed hrc, List.nil_append]
    rw [dif_neg hrc, hfailed hrc, ← hturn]

theorem clusterNodeWriteBytes_run {s : Session} {c : Conn} (hc : s.conn = some c) (bs : Bytes) :
    (clusterNodeWriteBytes bs).run s =
      some ((networkingPollWrite bs c).1, { s with conn := some (networkingPollWrite bs c).2 }) := by
  simp [clusterNodeWriteBytes, StateT.run, hc]

theorem clusterNodeWriteBytes_closed {s : Session} (hs : s.conn = none) (bs : Bytes) :
    (clusterNodeWriteBytes bs).run s = some (ArakoonReturnCode.clientNotConnected.rc, s) := by
  simp [clusterNodeWriteBytes, StateT.run, hs]

theorem clusterNodeReadBytes_run {s : Session} {c : Conn} (hc : s.conn = some c) (n : Nat) :
    (clusterNodeReadBytes n).run s =
      some ((networkingPollRead n c).1, { s with conn := some (networkingPollRead n c).2 }) := by
  simp [clusterNodeReadBytes, StateT.run, hc]

theorem clusterNodeReadBytes_closed {s : Session} (hs : s.conn = none) (n : Nat) :
    (clusterNodeReadBytes n).run s = some ((ArakoonReturnCode.clientNotConnected.rc, []), s) := by
  simp [clusterNodeReadBytes, StateT.run, hs]

section Commands

variable {alloc : Nat → Bool} {α : Type}

/-- A program that does nothing to the descriptor. -/
theorem foretells_silent {n : Program Line α} {m : SessionM α}
    (h : ∀ l a l', n.run l = some (a, l') → l'.fd = l.fd ∧ l'.sent = l.sent ∧
      ∀ s, s.heap = l.heap → s.lastError = l.lastError →
        m.run s = some (a, { s with heap := l'.heap, lastError := l'.lastError })) : Foretells Line.Fits n m := by
  intro l a l' hrun waiting
  obtain ⟨hfd, hsent, hsession⟩ := h l a l' hrun
  refine ⟨waiting, fun plan => ⟨plan, fun s ⟨hmeets, hkeeps⟩ => ?_⟩⟩
  refine ⟨_, hsession s hmeets.heap hmeets.lastError, ⟨rfl, rfl, fun hconn => ?_, fun c hconn => ?_⟩, hkeeps⟩
  · rw [hfd]
    exact hmeets.closed hconn
  · rw [hfd, hsent]
    exact hmeets.opened c hconn

theorem transferOn_run {call : Int → Int → Os Transfer} {l l' : Line} {out : Transfer}
    (h : (transferOn call).run l = some (out, l')) :
    ∃ k, (call l.fd l.timeout).run l.kernel = some (out, k) ∧
      l' = { l with timeout := out.timeout, kernel := k } := by
  obtain ⟨⟨out', k⟩, hrun, heq⟩ := Option.map_eq_some_iff.mp h
  obtain ⟨rfl, rfl⟩ := Prod.mk.inj heq
  exact ⟨k, hrun, rfl⟩

/-- A write on an open descriptor, and the peer that takes as much. -/
theorem write_on_line {bs : Bytes} {l l' : Line} {rc : ArakoonRc} (hfd : 0 ≤ l.fd)
    (hrun : (performOnLine alloc (.write bs)).run l = some (rc, l')) : ∃ moved, moved <+: bs ∧ (rc = 0 → moved = bs) ∧
      l'.fd = l.fd ∧ ∀ waiting plan s, l.Fits waiting (plan.write (.of rc moved.length) moved) s →
        ∃ s', (NodeCommand.perform alloc (.write bs)).run s = some (rc, s') ∧
          l'.Fits (waiting || decide (moved ≠ [])) plan s' := by
  obtain ⟨out, l₁, htransfer, hout⟩ := bind_run_eq_some.mp hrun
  obtain ⟨rfl, rfl⟩ := Prod.mk.inj (Option.some.inj hout)
  obtain ⟨k, hcall, rfl⟩ := transferOn_run htransfer
  obtain ⟨hmoved, hwhole⟩ := pollWrite_moved hcall
  refine ⟨out.moved, hmoved, hwhole, rfl, fun waiting plan s ⟨hmeets, hkeeps⟩ => ?_⟩
  obtain ⟨c, hc⟩ := Option.isSome_iff_exists.mp (hmeets.fd_iff.mp hfd)
  obtain ⟨hwaiting, hplan⟩ := hkeeps c hc
  have hpoll := networkingPollWrite_of (hplan.writes 0) hmoved hwhole
  refine ⟨{ s with conn := some (c.accept out.moved) }, ?_, ⟨hmeets.heap, hmeets.lastError, ?_, ?_⟩, ?_⟩
  · exact (clusterNodeWriteBytes_run hc bs).trans (by rw [hpoll])
  · exact fun hnone => by cases hnone
  · intro d hd
    obtain rfl := Option.some.inj hd
    exact ⟨hfd, congrArg (· ++ out.moved) (hmeets.opened c hc).2⟩
  · intro d hd
    obtain rfl := Option.some.inj hd
    refine ⟨?_, hplan.after_write⟩
    rw [Bool.or_eq_true, decide_eq_true_iff, ← hwaiting, ← not_and_or, not_iff_not]
    exact List.append_eq_nil_iff

theorem foretells_write (bs : Bytes) :
    Foretells Line.Fits (performOnLine alloc (.write bs)) (NodeCommand.perform alloc (.write bs)) := by
  intro l rc l' hrun waiting
  by_cases hfd : 0 ≤ l.fd
  · obtain ⟨moved, -, -, -, hforth⟩ := write_on_line hfd hrun
    exact ⟨_, fun plan' => ⟨_, hforth waiting plan'⟩⟩
  · obtain ⟨out, l₁, htransfer, hout⟩ := bind_run_eq_some.mp hrun
    obtain ⟨rfl, rfl⟩ := Prod.mk.inj (Option.some.inj hout)
    obtain ⟨k, hcall, rfl⟩ := transferOn_run htransfer
    obtain ⟨hrc, hmoved⟩ := pollAct_closed (not_le.mp hfd) hcall
    refine ⟨waiting, fun plan => ⟨plan, fun s ⟨hmeets, hkeeps⟩ => ?_⟩⟩
    have hnone : s.conn = none := Option.not_isSome_iff_eq_none.mp fun hsome => hfd (hmeets.fd_iff.mpr hsome)
    refine ⟨s, ?_, ⟨hmeets.heap, hmeets.lastError, hmeets.closed, fun c hc => ?_⟩, hkeeps⟩
    · exact (clusterNodeWriteBytes_closed hnone bs).trans (by rw [hrc]; rfl)
    · rw [hnone] at hc
      cases hc

theorem foretells_read (n : Nat) :
    Foretells Line.Fits (performOnLine alloc (.read n)) (NodeCommand.perform alloc (.read n)) := by
  intro l answer l' hrun waiting
  obtain ⟨out, l₁, htransfer, hout⟩ := bind_run_eq_some.mp hrun
  obtain ⟨rfl, rfl⟩ := Prod.mk.inj (Option.some.inj hout)
  obtain ⟨k, hcall, rfl⟩ := transferOn_run htransfer
  by_cases hfd : 0 ≤ l.fd
  · refine ⟨false, fun plan' =>
      ⟨plan'.read waiting (failureOf out.rc) (if out.rc = 0 then out.moved else []), ?_⟩⟩
    intro s ⟨hmeets, hkeeps⟩
    obtain ⟨c, hc⟩ := Option.isSome_iff_exists.mp (hmeets.fd_iff.mp hfd)
    obtain ⟨hwaiting, hplan⟩ := hkeeps c hc
    have hpoll := networkingPollRead_of (n := n) (hplan.reads 0) (hplan.stream hwaiting)
      (fun hrc => by rw [if_pos hrc]; exact pollRead_moved hcall hrc) fun hrc => if_neg hrc
    refine ⟨{ s with conn := some { c.turn with reads := c.reads + 1, inbox := plan'.front } }, ?_,
      ⟨hmeets.heap, hmeets.lastError, ?_, ?_⟩, ?_⟩
    · exact (clusterNodeReadBytes_run hc n).trans (by rw [hpoll]; rfl)
    · exact fun hnone => by cases hnone
    · intro d hd
      obtain rfl := Option.some.inj hd
      exact hmeets.opened c hc
    · intro d hd
      obtain rfl := Option.some.inj hd
      exact ⟨iff_of_false (fun h => h rfl) Bool.false_ne_true, hplan.after_read hwaiting rfl⟩
  · obtain ⟨hrc, hmoved⟩ := pollAct_closed (not_le.mp hfd) hcall
    refine ⟨waiting, fun plan => ⟨plan, fun s ⟨hmeets, hkeeps⟩ => ?_⟩⟩
    have hnone : s.conn = none := Option.not_isSome_iff_eq_none.mp fun hsome => hfd (hmeets.fd_iff.mpr hsome)
    refine ⟨s, ?_, ⟨hmeets.heap, hmeets.lastError, hmeets.closed, fun c hc => ?_⟩, hkeeps⟩
    · exact (clusterNodeReadBytes_closed hnone n).trans (by rw [hmoved, ite_self, hrc]; rfl)
    · rw [hnone] at hc
      cases hc

theorem disconnect_on_line {l l' : Line} {answer : Unit}
    (hrun : (performOnLine alloc .disconnect).run l = some (answer, l')) {s : Session} (hmeets : l.Meets s) :
    ∃ s', (NodeCommand.perform alloc .disconnect).run s = some (answer, s') ∧ l'.Meets s' ∧ s'.conn = none := by
  have hafter : l'.fd = -1 ∧ l'.heap = l.heap ∧ l'.lastError = l.lastError := by
    simp only [performOnLine, lineDisconnect, StateT.run] at hrun
    split_ifs at hrun
    · obtain ⟨-, rfl⟩ := Prod.mk.inj (Option.some.inj hrun)
      exact ⟨rfl, rfl, rfl⟩
    · obtain ⟨-, rfl⟩ := Prod.mk.inj (Option.some.inj hrun)
      exact ⟨rfl, rfl, rfl⟩
  obtain ⟨hfd, hheap, hlast⟩ := hafter
  refine ⟨{ s with conn := none }, rfl, ⟨hmeets.heap.trans hheap.symm, hmeets.lastError.trans hlast.symm, ?_, ?_⟩, rfl⟩
  · exact fun _ => by omega
  · exact fun c hc => (by cases hc)

theorem foretells_disconnect :
    Foretells Line.Fits (performOnLine alloc .disconnect) (NodeCommand.perform alloc .disconnect) := by
  intro l answer l' hrun waiting
  refine ⟨waiting, fun plan => ⟨plan, fun s ⟨hmeets, _⟩ => ?_⟩⟩
  obtain ⟨s', hsession, hmeets', hnone⟩ := disconnect_on_line hrun hmeets
  refine ⟨s', hsession, hmeets', fun c hc => ?_⟩
  rw [hnone] at hc
  cases hc

/-- Every command is foretold. -/
theorem foretells_command (c : NodeCommand) :
    Foretells Line.Fits (performOnLine alloc c) (NodeCommand.perform alloc c) := by
  cases c with
  | malloc =>
      refine foretells_silent fun l a l' hrun => ?_
      obtain ⟨rfl, rfl⟩ := Prod.mk.inj (Option.some.inj hrun)
      exact ⟨rfl, rfl, fun s hheap hlast => by rw [← hheap, ← hlast]; rfl⟩
  | realloc p =>
      refine foretells_silent fun l a l' hrun => ?_
      obtain ⟨rfl, rfl⟩ := Prod.mk.inj (Option.some.inj hrun)
      exact ⟨rfl, rfl, fun s hheap hlast => by rw [← hheap, ← hlast]; rfl⟩
  | free p =>
      refine foretells_silent fun l a l' hrun => ?_
      obtain ⟨rfl, rfl⟩ := Prod.mk.inj (Option.some.inj hrun)
      exact ⟨rfl, rfl, fun s hheap hlast => by rw [← hheap, ← hlast]; rfl⟩
  | setLastError msg =>
      refine foretells_silent fun l a l' hrun => ?_
      obtain ⟨rfl, rfl⟩ := Prod.mk.inj (Option.some.inj hrun)
      exact ⟨rfl, rfl, fun s hheap _ => by rw [← hheap]; rfl⟩
  | write bs => exact foretells_write bs
  | read n => exact foretells_read n
  | disconnect => exact foretells_disconnect
  | abort =>
      intro l a l' hrun
      cases hrun

end Commands

/-! ### Operations -/

/-- The connection, if the descriptor is not negative, has `peer` on its other side, and `front` has arrived on it. -/
def Line.session (l : Line) (peer : Peer) (front : Bytes) : Session :=
  ⟨l.heap, if 0 ≤ l.fd then some { Conn.fresh peer with sent := l.sent, inbox := front } else none, l.lastError⟩

/-- The master is the node `k`, and its session is that of the line. -/
def Line.Leads (k : NodeId) (waiting : Bool) (plan : Plan) (l : Line) (w : World) : Prop :=
  w.cluster.master = some k ∧ l.Fits waiting plan (w.session k)

/-- The peer that goes on as planned. -/
def Plan.peer (plan : Plan) : Peer := ⟨plan.writes, plan.reads, fun n _ => plan.answers n, networkError⟩

theorem Plan.fits (plan : Plan) (l : Line) : l.Fits false plan (l.session plan.peer plan.front) := by
  by_cases hfd : 0 ≤ l.fd
  · have hsession : l.session plan.peer plan.front =
        ⟨l.heap, some { Conn.fresh plan.peer with sent := l.sent, inbox := plan.front }, l.lastError⟩ := by
      rw [Line.session, if_pos hfd]
    rw [hsession]
    refine ⟨⟨rfl, rfl, fun hnone => (by cases hnone), fun c hc => ?_⟩, fun c hc => ?_⟩
    · obtain rfl := Option.some.inj hc
      exact ⟨hfd, rfl⟩
    · obtain rfl := Option.some.inj hc
      refine ⟨iff_of_false (fun h => h rfl) Bool.false_ne_true, ?_, ?_, ?_, rfl⟩
      · exact fun i => congrArg plan.writes (Nat.zero_add i)
      · exact fun i => congrArg plan.reads (Nat.zero_add i)
      · exact fun i _ => congrArg plan.answers (Nat.zero_add i)
  · have hsession : l.session plan.peer plan.front = ⟨l.heap, none, l.lastError⟩ := by
      rw [Line.session, if_neg hfd]
    rw [hsession]
    exact ⟨⟨rfl, rfl, fun _ => not_le.mp hfd, fun c hc => (by cases hc)⟩, fun c hc => (by cases hc)⟩

section Operations

variable {alloc : Nat → Bool} {k : NodeId}

theorem World.update_session (w : World) (k : NodeId) (s : Session) : (w.update k s).session k = s := by
  simp [World.session, World.update, Cluster.setNode]

theorem foretells_onNode {α : Type} {n : Program Line α} {m : SessionM α} (h : Foretells Line.Fits n m) :
    Foretells (Line.Leads k) n (onNode k m) := by
  intro l a l' hrun waiting
  obtain ⟨waiting', hback⟩ := h l a l' hrun waiting
  refine ⟨waiting', fun plan' => ?_⟩
  obtain ⟨plan, hforth⟩ := hback plan'
  refine ⟨plan, fun w ⟨hmaster, hfits⟩ => ?_⟩
  obtain ⟨s', hsession, hfits'⟩ := hforth (w.session k) hfits
  refine ⟨w.update k s', ?_, hmaster, ?_⟩
  · exact congrArg (Option.map fun out => (out.1, w.update k out.2)) hsession
  · rw [World.update_session]
    exact hfits'

theorem foretells_start (timeout : Int) : Foretells (Line.Leads k) (lineStart timeout) clusterResetLastError := by
  intro l a l' hrun waiting
  obtain ⟨rfl, rfl⟩ := Prod.mk.inj (Option.some.inj hrun)
  refine ⟨waiting, fun plan => ⟨plan, fun w ⟨hmaster, hmeets, hkeeps⟩ => ?_⟩⟩
  have hheap : w.heap = l.heap := hmeets.heap
  have hlast : w.cluster.lastError = l.lastError := hmeets.lastError
  refine ⟨_, rfl, hmaster, ⟨?_, rfl, hmeets.closed, hmeets.opened⟩, hkeeps⟩
  change w.heap.free w.cluster.lastError.ptr = l.heap.free l.lastError.ptr
  rw [hheap, hlast]

theorem foretells_operation (c : LineCall alloc) :
    Foretells (Line.Leads k) c.program (Operation.run alloc c.call.1 c.call.2) := by
  rw [Operation.run_eq]
  refine (foretells_start c.timeout).bind fun _ => ?_
  have hscript : Foretells (Line.Leads k) (c.script.run (performOnLine alloc))
      (onNode k (c.script.run (NodeCommand.perform alloc))) :=
    foretells_onNode (.commands foretells_command c.script)
  rw [c.performs] at hscript
  intro l out l' hrun waiting
  by_cases hfd : 0 ≤ l.fd
  · obtain ⟨waiting', hback⟩ := hscript l out l' ((if_pos hfd).symm.trans hrun) waiting
    refine ⟨waiting', fun plan' => ?_⟩
    obtain ⟨plan, hforth⟩ := hback plan'
    refine ⟨plan, fun w hleads => ?_⟩
    obtain ⟨w', hnode, hleads'⟩ := hforth w hleads
    obtain ⟨d, hd⟩ := Option.isSome_iff_exists.mp (hleads.2.1.fd_iff.mp hfd)
    have hget : w.cluster.getMaster = some k := getMaster_eq_some.mpr ⟨hleads.1, d, hd⟩
    refine ⟨w', ?_, hleads'⟩
    simp only [StateT.run, hget] at hnode ⊢
    exact hnode
  · obtain ⟨rfl, rfl⟩ := Prod.mk.inj (Option.some.inj ((if_neg hfd).symm.trans hrun))
    refine ⟨waiting, fun plan => ⟨plan, fun w hleads => ?_⟩⟩
    have hnone : (w.cluster.node k).conn = none :=
      Option.not_isSome_iff_eq_none.mp fun hsome => hfd (hleads.2.1.fd_iff.mpr hsome)
    have hget : w.cluster.getMaster = none := by simp [Cluster.getMaster, hleads.1, hnone]
    refine ⟨w, ?_, hleads⟩
    simp only [StateT.run, hget]

theorem lineStep_ok {c : LineCall alloc} {l l' : Line} {b : Returned} (h : lineStep c l = .ok (b, l')) :
    ∃ out, b = ⟨c.call.1.kind, out⟩ ∧ c.program.run l = some (out, l') := by
  unfold lineStep at h
  split at h
  · cases h
  · rename_i out l₁ hrun
    obtain ⟨rfl, rfl⟩ := Prod.mk.inj (Except.ok.inj h)
    exact ⟨out, rfl, hrun⟩

/-- Whatever the system calls give in a run of operations, there is a peer with which the run is one of operations on a
connection: all of them return the same, and in the end memory, the last error, what was written and whether there is
a connection are the same. -/
theorem operations_on_line {start l : Line} {history : List (LineCall alloc × Returned)}
    (h : Run lineStep (fun _ _ => True) start history l) (k : NodeId) :
    ∃ peer front, ∀ w : World, w.cluster.master = some k → w.session k = start.session peer front →
      ∃ w', Run (operationStep alloc) (fun _ _ => True) w (history.map (Prod.map LineCall.call id)) w' ∧
        w'.cluster.master = some k ∧ l.Meets (w'.session k) := by
  have hstep : ∀ (c : LineCall alloc) s b s', lineStep c s = .ok (b, s') → ∀ past, ∃ past', ∀ future', ∃ future,
      ∀ w, Line.Leads k past future s w →
        ∃ w', operationStep alloc c.call w = .ok (id b, w') ∧ Line.Leads k past' future' s' w' := by
    intro c s b s' hok past
    obtain ⟨out, rfl, hrun⟩ := lineStep_ok hok
    obtain ⟨past', hback⟩ := foretells_operation (k := k) c s out s' hrun past
    refine ⟨past', fun future' => ?_⟩
    obtain ⟨future, hforth⟩ := hback future'
    refine ⟨future, fun w hleads => ?_⟩
    obtain ⟨w', hrun', hleads'⟩ := hforth w hleads
    exact ⟨w', by rw [operationStep, hrun']; rfl, hleads'⟩
  obtain ⟨waiting, hback⟩ := Run.foretold LineCall.call id (fun _ _ => True) (fun _ _ => trivial) hstep h false
  obtain ⟨plan, hforth⟩ := hback ⟨fun _ => .complete, fun _ => none, fun _ => [], []⟩
  refine ⟨plan.peer, plan.front, fun w hmaster hsession => ?_⟩
  obtain ⟨w', hrun, hmaster', hmeets, -⟩ := hforth w ⟨hmaster, hsession ▸ plan.fits start⟩
  exact ⟨w', hrun, hmaster', hmeets⟩

end Operations

def LineCall.set (alloc : Nat → Bool) (key value : Bytes) (timeout : Int) : LineCall alloc where
  call := ⟨.set key value, ()⟩
  timeout := timeout
  script := NodeScript.clientOperation () () (NodeScript.sendCommand (setCommand key value))
    (pure (ArakoonReturnCode.success.rc, ()))
  performs := (run_clientOperation alloc).trans (by rw [run_sendCommand]; rfl)

/-- The first request is written in two pieces, with an interruption between them, and answered; of the second one only
a part is written. -/
def sampleLine : Line where
  heap := Heap.empty
  fd := 3
  lastError := .null
  timeout := 0
  kernel :=
    { answers :=
        [.write (.ok 5), .write (.error eintr), .write (.ok 9), .read (.ok [0]), .read (.ok [0, 0, 0]), .write (.ok 4),
          .write (.error ⟨32, by decide⟩)]
      log := [] }
  sent := []

def sampleCall : LineCall fun _ => true := .set (fun _ => true) [107] [118] infiniteTimeout

/-- After the first call. -/
def sampleLineLater : Line :=
  { sampleLine with
    heap := ((sampleLine.heap.free .null).malloc fun _ => true).2.free (.block 0)
    timeout := infiniteTimeout
    kernel := ⟨sampleLine.kernel.answers.drop 5, []⟩
    sent := sampleSetFrame }

theorem operations_on_line_set :
    ∃ l, Run lineStep (fun _ _ => True) sampleLine
        [(sampleCall, ⟨.nothing, -32, ()⟩), (sampleCall, ⟨.nothing, 0, ()⟩)] l ∧
      ∃ peer front, ∀ w : World, w.cluster.master = some 0 → w.session 0 = sampleLine.session peer front →
        ∃ w', Run (operationStep fun _ => true) (fun _ _ => True) w
            [(sampleSet, ⟨.nothing, -32, ()⟩), (sampleSet, ⟨.nothing, 0, ()⟩)] w' ∧
          w'.cluster.master = some 0 ∧ l.Meets (w'.session 0) := by
  have hfirst : lineStep sampleCall sampleLine = .ok (⟨.nothing, 0, ()⟩, sampleLineLater) := rfl
  have hrun : ∃ l, Run lineStep (fun _ _ => True) sampleLine
      [(sampleCall, ⟨.nothing, -32, ()⟩), (sampleCall, ⟨.nothing, 0, ()⟩)] l :=
    ⟨_, .call (.call .nil trivial hfirst) trivial rfl⟩
  obtain ⟨l, hrun⟩ := hrun
  exact ⟨l, hrun, operations_on_line hrun 0⟩

end Crakoon
