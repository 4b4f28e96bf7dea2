import Crakoon.ClusterRuns
import Crakoon.ReplyFraming

/-!
# The last error

What `HANDLE_ERROR` leaves in the error slot of a cluster, whatever memory is granted and whatever happens on the
connection: the message of the reply, if the reply is an error and its message is received in full, and nothing
otherwise (`Slotted`). Two results read off it. The slot belongs to the last operation
(`last_error_of_last_operation`), and what it holds is a block that has been handed out and not given back, unless a
message is empty (`last_error_owned`).
-/

namespace Crakoon

open Programs

/-- A read of `n` bytes succeeds. -/
def Conn.Grants (c : Conn) (n : Nat) : Prop := c.peer.reads c.reads = none ∧ n ≤ c.stream.length

/-- The next that is read on the connection is this message, in full. -/
structure Conn.Tells (c : Conn) (message : Bytes) : Prop where
  size : c.Grants 4
  length : ofLe32 (c.stream.take 4) = message.length
  bytes : message ≠ [] → (c.take 4).Grants message.length
  message : (c.stream.drop 4).take message.length = message

/-- The next that is read is the reply of an operation, and it is an error: a code other than success with this
message behind it. -/
structure Conn.Refuses (c : Conn) (code : Nat) (message : Bytes) : Prop where
  granted : c.Grants 4
  word : ofLe32 (c.stream.take 4) = code
  failure : code ≠ 0
  tells : (c.take 4).Tells message

/-- There is one message at most. -/
theorem Conn.Tells.unique {c : Conn} {message message' : Bytes} (h : c.Tells message) (h' : c.Tells message') :
    message = message' := by
  rw [← h.message, ← h'.message, ← h.length, ← h'.length]

theorem Conn.take_stream (c : Conn) (n : Nat) : (c.take n).stream = c.stream.drop n := (c.take_after n).stream

/-- A read gives the bytes and goes on behind them, or it closes the connection. -/
theorem ensures_readBytes {s : Session} {c : Conn} (hc : s.conn = some c) (n : Nat) :
    Ensures (readBytes n) s fun out s' =>
      c.Grants n ∧ out = (0, c.stream.take n) ∧ s' = { s with conn := some (c.take n) } ∨
      ¬c.Grants n ∧ out.1 ≠ 0 ∧ s' = { s with conn := none } := by
  intro out s' hrun
  rw [readBytes_run hc n] at hrun
  obtain ⟨rfl, rfl⟩ := Prod.mk.inj (Option.some.inj hrun)
  by_cases hgrants : c.Grants n
  · obtain ⟨hread, hlength⟩ := hgrants
    have hpoll : networkingPollRead n c = ((0, c.stream.take n), c.take n) := by
      simp [networkingPollRead, hread, hlength, ArakoonReturnCode.rc]
    rw [hpoll]
    exact .inl ⟨⟨hread, hlength⟩, rfl, rfl⟩
  · have hrc : (networkingPollRead n c).1.1 ≠ 0 := by
      cases hread : c.peer.reads c.reads with
      | some rc => simpa [networkingPollRead, hread] using rc.2
      | none =>
          have hshort : ¬n ≤ c.stream.length := fun hlength => hgrants ⟨hread, hlength⟩
          simpa [networkingPollRead, hread, hshort] using c.peer.ending.2
    rw [if_neg hrc]
    exact .inr ⟨hgrants, hrc, rfl⟩

theorem ensures_readUInt32 {s : Session} {c : Conn} (hc : s.conn = some c) (r : Nat) :
    Ensures (readUInt32 r) s fun out s' =>
      c.Grants 4 ∧ out = (ofLe32 (c.stream.take 4), 0) ∧ s' = { s with conn := some (c.take 4) } ∨
      ¬c.Grants 4 ∧ out.2 ≠ 0 ∧ s' = { s with conn := none } := by
  refine (ensures_readBytes hc 4).bind fun out s₁ h => ?_
  obtain ⟨rc, bs⟩ := out
  rcases h with ⟨hgrants, hout, rfl⟩ | ⟨hgrants, hrc, rfl⟩
  · obtain ⟨rfl, rfl⟩ := Prod.mk.inj hout
    exact Ensures.pure (.inl ⟨hgrants, rfl, rfl⟩)
  · dsimp only at hrc ⊢
    rw [if_neg hrc]
    exact Ensures.pure (.inr ⟨hgrants, hrc, rfl⟩)

theorem ensures_readRc {s : Session} {c : Conn} (hc : s.conn = some c) :
    Ensures readRc s fun rc s' =>
      c.Grants 4 ∧ rc = int32 (ofLe32 (c.stream.take 4)) ∧ s' = { s with conn := some (c.take 4) } ∨
      ¬c.Grants 4 ∧ rc ≠ 0 ∧ s' = { s with conn := none } := by
  refine (ensures_readUInt32 hc 0).bind fun out s₁ h => ?_
  obtain ⟨d, rc⟩ := out
  rcases h with ⟨hgrants, hout, rfl⟩ | ⟨hgrants, hrc, rfl⟩
  · obtain ⟨rfl, rfl⟩ := Prod.mk.inj hout
    exact Ensures.pure (.inl ⟨hgrants, rfl, rfl⟩)
  · dsimp only at hrc ⊢
    rw [if_pos hrc]
    exact Ensures.pure (.inr ⟨hgrants, hrc, rfl⟩)

/-- The slot holds what a message is read into in the state `s`. -/
inductive Told (s : Session) (message : Bytes) (s' : Session) : Prop where
  | blank (hmessage : message = []) (hlast : s'.lastError = .zeroLength)
  | block (hmessage : message ≠ []) (hlast : s'.lastError = .block s.heap.next message)
      (hlog : s'.heap.log = s.heap.log ++ [.malloc s.heap.next])

/-- How reading a string on the connection `c` ends. -/
inductive StringRead (alloc : Nat → Bool) (s : Session) (c : Conn) (out : Data × ArakoonRc) (s' : Session) : Prop where
  | told (message : Bytes) (hrc : out.2 = 0) (tells : c.Tells message)
      (holds : Told s message { s' with lastError := out.1 })
  | failed (hrc : out.2 ≠ 0) (hlast : s'.lastError = s.lastError)
      (hnone : ∀ message, c.Tells message → message ≠ [] ∧ alloc s.heap.calls = false)

section Slot

variable {alloc : Nat → Bool}

theorem ensures_memNew (s : Session) : Ensures (memNew alloc) s fun id s' =>
    s'.conn = s.conn ∧ s'.lastError = s.lastError ∧ (alloc s.heap.calls = false ∧ id = none ∨
      id = some s.heap.next ∧ s'.heap.log = s.heap.log ++ [.malloc s.heap.next]) := by
  intro id s' hrun
  obtain ⟨rfl, rfl⟩ := Prod.mk.inj (Option.some.inj hrun)
  refine ⟨rfl, rfl, ?_⟩
  cases halloc : alloc s.heap.calls with
  | false => exact .inl ⟨rfl, by simp [Heap.malloc, halloc]⟩
  | true => exact .inr ⟨by simp [Heap.malloc, halloc], by simp [Heap.malloc, halloc]⟩

theorem ensures_readNewString {s : Session} {c : Conn} (hc : s.conn = some c) :
    Ensures (readString alloc .null 0) s (StringRead alloc s c) := by
  refine (ensures_readUInt32 hc 0).bind fun out s₁ h => ?_
  obtain ⟨l, rc⟩ := out
  rcases h with ⟨hgrants, hout, rfl⟩ | ⟨hrefused, hrc, rfl⟩
  · obtain ⟨rfl, rfl⟩ := Prod.mk.inj hout
    refine .ite (fun h => absurd rfl h) fun _ => .ite (fun hzero => ?_) fun hzero => ?_
    · exact .pure (.told [] rfl ⟨hgrants, hzero, fun h => absurd rfl h, rfl⟩ (.blank rfl rfl))
    · have hlong : ∀ message, c.Tells message → message ≠ [] := by
        intro message htells hempty
        rw [htells.length, hempty] at hzero
        exact hzero rfl
      refine (ensures_memNew _).bind fun id s₂ ⟨hconn₂, hlast₂, hid⟩ => ?_
      rcases hid with ⟨halloc, rfl⟩ | ⟨rfl, hlog⟩
      · exact .pure (.failed (by decide) hlast₂ fun message htells => ⟨hlong message htells, halloc⟩)
      · refine (ensures_readBytes hconn₂ _).bind fun out s₃ h => ?_
        obtain ⟨rc, bs⟩ := out
        rcases h with ⟨hbytes, hout, rfl⟩ | ⟨hrefused, hrc, rfl⟩
        · obtain ⟨rfl, rfl⟩ := Prod.mk.inj hout
          have hlength : ((c.take 4).stream.take (ofLe32 (c.stream.take 4))).length = ofLe32 (c.stream.take 4) := by
            rw [List.length_take, Nat.min_eq_left hbytes.2]
          have hne : (c.take 4).stream.take (ofLe32 (c.stream.take 4)) ≠ [] := by
            rw [← List.length_pos_iff, hlength]
            exact Nat.pos_of_ne_zero hzero
          refine .pure (.told _ rfl ⟨hgrants, hlength.symm, fun _ => ?_, ?_⟩ (.block hne rfl hlog))
          · rw [hlength]
            exact hbytes
          · rw [hlength, Conn.take_stream]
        · dsimp only at hrc ⊢
          rw [if_neg hrc]
          intro out s' hrun
          obtain ⟨rfl, rfl⟩ := Prod.mk.inj (Option.some.inj hrun)
          refine .failed hrc hlast₂ fun message htells => absurd ?_ hrefused
          rw [htells.length]
          exact htells.bytes (hlong message htells)
  · dsimp only at hrc ⊢
    rw [if_pos hrc]
    exact .pure (.failed hrc rfl fun message htells => absurd htells.size hrefused)

/-- On the connection `c` a message is read into the slot, unless it is cut or there is no memory for it. -/
theorem ensures_handleError {s : Session} {c : Conn} (hc : s.conn = some c) {rc : ArakoonRc} (hrc : rc ≠ 0) :
    Ensures (handleError alloc rc) s fun _ s' => (∃ message, c.Tells message ∧ Told s message s') ∨
      s'.lastError = s.lastError ∧ ∀ message, c.Tells message → message ≠ [] ∧ alloc s.heap.calls = false := by
  rw [handleError, if_pos hrc]
  refine (ensures_readNewString hc).bind fun out s₁ h => ?_
  obtain ⟨msg, errRc⟩ := out
  cases h with
  | told message hrc tells holds =>
      obtain rfl : errRc = 0 := hrc
      intro _ s' hrun
      obtain ⟨-, rfl⟩ := Prod.mk.inj (Option.some.inj hrun)
      exact .inl ⟨message, tells, holds⟩
  | failed hrc hlast hnone =>
      dsimp only at hrc ⊢
      rw [if_pos hrc]
      exact .pure (.inr ⟨hlast, hnone⟩)

/-- The slot after an operation whose request has been sent on `c`, in the state `s`. -/
inductive Slotted (alloc : Nat → Bool) (s : Session) (c : Conn) (s' : Session) : Prop where
  | refused (code : Nat) (message : Bytes) (refuses : c.Refuses code message) (holds : Told s message s')
  | kept (hlast : s'.lastError = s.lastError)
      (hnone : ∀ code message, c.Refuses code message → message ≠ [] ∧ alloc s.heap.calls = false)

theorem ensures_clientReply_slot {α : Type} (failed : α) {decode : SessionM (ArakoonRc × α)}
    (hdecode : Onwards 0 decode fun _ => True) {s : Session} {c : Conn} (hc : s.conn = some c) :
    Ensures (clientReply alloc failed decode) s fun _ s' => Slotted alloc s c s' := by
  refine (ensures_readRc hc).bind fun rc s₁ h => ?_
  rcases h with ⟨hgrants, hword, rfl⟩ | ⟨hrefused, hrc, rfl⟩
  · have hlt := ofLe32_lt (c.stream.take 4)
    by_cases hrc : rc = 0
    · have hskip : handleError alloc rc = pure () := by
        rw [handleError, if_neg (not_ne_iff.mpr hrc)]
      rw [hskip, pure_bind, if_neg (not_ne_iff.mpr hrc)]
      refine (hdecode _ (Nat.zero_le _)).mono fun _ s' hdone => ?_
      refine .kept hdone.2.1.lastError fun code message hrefuses => absurd ?_ hrefuses.failure
      rw [← hrefuses.word]
      exact (int32_eq_zero hlt).mp (hword.symm.trans hrc)
    · refine (ensures_handleError rfl hrc).bind fun _ s₂ hslot => ?_
      rw [if_pos hrc]
      rcases hslot with ⟨message, htells, htold⟩ | ⟨hlast, hnone⟩
      · have hfailure : ofLe32 (c.stream.take 4) ≠ 0 := fun hzero =>
          hrc (hword.trans ((int32_eq_zero hlt).mpr hzero))
        refine .pure (.refused _ message ⟨hgrants, rfl, hfailure, htells⟩ ?_)
        cases htold with
        | blank hmessage hlast => exact .blank hmessage hlast
        | block hmessage hlast hlog => exact .block hmessage hlast hlog
      · exact .pure (.kept hlast fun _ message hrefuses => hnone message hrefuses.tells)
  · refine (yields_handleError_closed hrc rfl).ensures.bind fun _ s₂ hclosed => ?_
    rw [if_pos hrc]
    exact .pure (.kept hclosed.2.lastError fun _ _ hrefuses => absurd hrefuses.granted hrefused)

/-- On a closed connection no reply is read. -/
theorem ensures_clientReply_closed {α : Type} (failed : α) (decode : SessionM (ArakoonRc × α)) {s : Session}
    (hs : s.conn = none) : Ensures (clientReply alloc failed decode) s fun _ s' => s'.lastError = s.lastError := by
  refine Ensures.bind (P := fun rc s₁ => rc ≠ 0 ∧ s₁.conn = none ∧ s₁.lastError = s.lastError) ?_ ?_
  · refine Ensures.bind (P := fun out s₁ => out.2 ≠ 0 ∧ s₁.conn = none ∧ s₁.lastError = s.lastError) ?_ ?_
    · refine (yields_readBytes_closed hs 4).ensures.bind fun out s₁ ⟨hnone, hrc, hgains⟩ => ?_
      exact .ite (fun hzero => absurd hzero hrc) fun _ => .pure ⟨hrc, hnone, hgains.lastError⟩
    · exact fun out s₁ hclosed => .ite (fun _ => .pure hclosed) fun hzero => absurd hclosed.1 hzero
  · intro rc s₁ hclosed
    obtain ⟨hrc, hnone, hlast⟩ := hclosed
    refine (yields_handleError_closed hrc hnone).ensures.bind fun _ s₂ ⟨_, hgains⟩ => ?_
    rw [if_pos hrc]
    exact .pure (hgains.lastError.trans hlast)

end Slot

/-! ### The slot of a cluster -/

/-- The request of the operation has been sent on the connection `c` of the master, in the state `s`. -/
structure World.Requested (alloc : Nat → Bool) (op : Operation) (w : World) (s : Session) (c : Conn) : Prop where
  sent : ∃ k, w.cluster.getMaster = some k ∧ (Operation.send alloc op).run (w.reset.session k) = some (0, s)
  conn : s.conn = some c

/-- The reply to the operation is an error with this message, and the message is received in full. -/
def World.Refused (alloc : Nat → Bool) (op : Operation) (w : World) (message : Bytes) : Prop :=
  ∃ s c code, w.Requested alloc op s c ∧ c.Refuses code message

/-- The request is sent by the run of its part of the operation. -/
theorem World.Requested.of_run {alloc : Nat → Bool} {op : Operation} {w : World} {s s₁ : Session} {c : Conn}
    {k : NodeId} {rc : ArakoonRc} (h : w.Requested alloc op s c) (hget : w.cluster.getMaster = some k)
    (hrun : (Operation.send alloc op).run (w.reset.session k) = some (rc, s₁)) : rc = 0 ∧ s = s₁ := by
  obtain ⟨j, hj, hsent⟩ := h.sent
  obtain rfl := Option.some.inj (hget.symm.trans hj)
  obtain ⟨rfl, rfl⟩ := Prod.mk.inj (Option.some.inj (hrun.symm.trans hsent))
  exact ⟨rfl, rfl⟩

/-- What there is to read then is what had arrived before, and the answer to the request. -/
theorem World.Requested.stream {alloc : Nat → Bool} (halloc : ∀ n, alloc n = true) {op : Operation} {w : World}
    {s : Session} {c c' : Conn} {k : NodeId} {frame : Bytes} (h : w.Requested alloc op s c')
    (hmaster : w.cluster.master = some k) (hconn : (w.cluster.node k).conn = some c) (hframe : op.frame = some frame) :
    c'.peer = c.peer ∧ c'.stream = c.inbox ++ c.peer.answers c.turns (c.pending ++ frame) := by
  obtain ⟨rc, s₁, hrun, hsent⟩ := yields_send halloc hframe (s := w.reset.session k) hconn
  obtain ⟨rfl, rfl⟩ := h.of_run (getMaster_eq_some.mpr ⟨hmaster, c, hconn⟩) hrun
  obtain ⟨c₁, hconn₁, wrote, -⟩ := hsent.sent rfl
  obtain rfl := Option.some.inj (hconn₁.symm.trans h.conn)
  have hne : frame ≠ [] := by
    obtain ⟨rest, rfl⟩ := Operation.frame_begins hframe
    exact List.cons_ne_nil _ _
  exact ⟨wrote.peer, wrote.stream hne⟩

section Operations

variable {alloc : Nat → Bool}

/-- What an operation leaves in the slot, and in the memory. -/
inductive Reported (alloc : Nat → Bool) (op : Operation) (w w' : World) : Prop where
  | nothing (hlast : w'.cluster.lastError = .null)
      (hnone : ∀ message, w.Refused alloc op message → message ≠ [] ∧ ∃ n, alloc n = false)
  | blank (refused : w.Refused alloc op []) (hlast : w'.cluster.lastError = .zeroLength)
  | block (message : Bytes) (id : Nat) (refused : w.Refused alloc op message) (hmessage : message ≠ [])
      (hlast : w'.cluster.lastError = .block id message) (hid : w.heap.next ≤ id)
      (hlog : ∃ before, w'.heap.log = before ++ [.malloc id])

theorem ensures_operation_reported (op : Operation) (result : op.kind.Out) (w : World) :
    Ensures (Operation.run alloc op result) w fun _ w' => Reported alloc op w w' := by
  rw [Operation.run_eq]
  refine (ensures_withMaster (Q := fun k _ _ s' => Reported alloc op w (w.reset.update k s')) ?_).mono ?_
  · intro k c hmaster hc
    have hget : w.cluster.getMaster = some k := getMaster_eq_some.mpr ⟨hmaster, c, hc⟩
    have hsend := (onwards_send alloc w.heap.next op (w.reset.session k) (Nat.le_refl _)).outcome
    refine hsend.bind fun rc s₁ ⟨hrun, hpast, honward, _⟩ => .ite (fun hrc => ?_) fun hrc => ?_
    · refine .pure (.nothing honward.lastError fun message hrefused => ?_)
      obtain ⟨s, c', code, hrequested, -⟩ := hrefused
      exact absurd (hrequested.of_run hget hrun).1 hrc
    · obtain rfl : rc = 0 := not_ne_iff.mp hrc
      cases hconn : s₁.conn with
      | none =>
          refine (ensures_clientReply_closed _ _ hconn).mono fun _ s' hlast => ?_
          refine .nothing (hlast.trans honward.lastError) fun message hrefused => ?_
          obtain ⟨s, c', code, hrequested, -⟩ := hrefused
          obtain ⟨-, rfl⟩ := hrequested.of_run hget hrun
          exact absurd (hconn.symm.trans hrequested.conn) (by simp)
      | some c₁ =>
          have hrequested : w.Requested alloc op s₁ c₁ := ⟨⟨k, hget, hrun⟩, hconn⟩
          refine (ensures_clientReply_slot _ (onwards_decode alloc 0 op result) hconn).mono fun _ s' hslot => ?_
          cases hslot with
          | refused code message refuses holds =>
              cases holds with
              | blank hmessage hlast =>
                  subst hmessage
                  exact .blank ⟨s₁, c₁, code, hrequested, refuses⟩ hlast
              | block hmessage hlast hlog =>
                  exact .block message _ ⟨s₁, c₁, code, hrequested, refuses⟩ hmessage hlast honward.heap.next
                    ⟨_, hlog⟩
          | kept hlast hnone =>
              refine .nothing (hlast.trans honward.lastError) fun message hrefused => ?_
              obtain ⟨s, c', code, hrequested', hrefuses⟩ := hrefused
              obtain ⟨-, rfl⟩ := hrequested'.of_run hget hrun
              obtain rfl := Option.some.inj (hconn.symm.trans hrequested'.conn)
              obtain ⟨hne, halloc⟩ := hnone code message hrefuses
              exact ⟨hne, _, halloc⟩
  · intro out w' h
    rcases h with ⟨hnone, rfl⟩ | ⟨k, c, s', -, -, hreported, rfl⟩
    · refine .nothing rfl fun message hrefused => ?_
      obtain ⟨s, c, code, hrequested, -⟩ := hrefused
      obtain ⟨k, hk, -⟩ := hrequested.sent
      rw [hnone] at hk
      cases hk
    · exact hreported

/-- The memory that an operation has been given is its own. -/
theorem ensures_operation_heap (op : Operation) (result : op.kind.Out) (w : World) :
    Ensures (Operation.run alloc op result) w fun _ w' => w.reset.heap.Onward w.heap.next w'.heap := by
  rw [Operation.run_eq]
  refine (ensures_withMaster (Q := fun k _ _ s' => (w.reset.session k).Further w.heap.next s') ?_).mono ?_
  · intro k c _ _
    refine (furthers_clientOperation alloc _ op result (w.reset.session k) (Nat.le_refl _)).mono ?_
    exact fun out s' h => h.2.1
  · intro out w' h
    rcases h with ⟨-, rfl⟩ | ⟨k, c, s', -, -, hfurther, rfl⟩
    · exact .refl _ _
    · exact hfurther.heap

/-- `arakoon_who_master` leaves nothing in the slot. -/
theorem ensures_whoMaster_reported (master : Data) (w : World) :
    Ensures (arakoonWhoMaster alloc master) w fun _ w' => w'.cluster.lastError = .null ∧
      w.reset.heap.Onward w.heap.next w'.heap := by
  refine (ensures_withMaster (Q := fun k _ _ s' => (w.reset.session k).Onward w.heap.next s') ?_).mono ?_
  · intro k c _ _
    refine (onwards_clusterNodeWhoMaster alloc _ master (w.reset.session k) (Nat.le_refl _)).mono ?_
    exact fun out s' h => h.2.1
  · intro out w' h
    rcases h with ⟨-, rfl⟩ | ⟨k, c, s', -, -, honward, rfl⟩
    · exact ⟨rfl, .refl _ _⟩
    · exact ⟨honward.lastError, honward.heap⟩

theorem World.Refused.unique {op : Operation} {w : World} {message message' : Bytes}
    (h : w.Refused alloc op message) (h' : w.Refused alloc op message') : message = message' := by
  obtain ⟨s, c, code, hrequested, hrefuses⟩ := h
  obtain ⟨s', c', code', hrequested', hrefuses'⟩ := h'
  obtain ⟨k, hk, hrun⟩ := hrequested.sent
  obtain ⟨-, rfl⟩ := hrequested'.of_run hk hrun
  obtain rfl := Option.some.inj (hrequested.conn.symm.trans hrequested'.conn)
  exact hrefuses.tells.unique hrefuses'.tells

end Operations

section Last

variable {alloc : Nat → Bool} {dial : Dialer}

theorem operation_clusterStep {op : Operation} {result : op.kind.Out} {w w' : World} {rc : ArakoonRc}
    (hstep : clusterStep alloc dial (.operation op result) w = .ok (rc, w')) :
    Reported alloc op w w' ∧ w.reset.heap.Onward w.heap.next w'.heap := by
  obtain ⟨out, w₁, hrun, hpure⟩ := bind_run_eq_some.mp (clusterStep_ok hstep)
  obtain ⟨-, rfl⟩ := Prod.mk.inj (Option.some.inj hpure)
  exact ⟨ensures_operation_reported op result w out w₁ hrun, ensures_operation_heap op result w out w₁ hrun⟩

/-- After an operation the last error is the message of its reply, if this is an error and its message is received in
full, and in every other case there is none, whatever calls were made before. -/
theorem last_error_of_last_operation (halloc : ∀ n, alloc n = true) {start w' : World}
    {history : List (ClusterCall × ArakoonRc)} {op : Operation} {result : op.kind.Out} {rc : ArakoonRc}
    (h : Run (clusterStep alloc dial) (fun _ _ => True) start ((.operation op result, rc) :: history) w') :
    ∃ w, Run (clusterStep alloc dial) (fun _ _ => True) start history w ∧
      ((∃ message data, w.Refused alloc op message ∧ data.value = some message ∧
          arakoonClusterGetLastError w'.cluster = (0, message.length, data)) ∨
        (∀ message, ¬w.Refused alloc op message) ∧ arakoonClusterGetLastError w'.cluster = (0, 0, .null)) := by
  cases h with
  | call before _ hstep =>
      refine ⟨_, before, ?_⟩
      have hreported := (operation_clusterStep hstep).1
      unfold arakoonClusterGetLastError
      cases hreported with
      | nothing hlast hnone =>
          refine .inr ⟨fun message hrefused => ?_, by rw [hlast]; rfl⟩
          obtain ⟨-, n, hn⟩ := hnone message hrefused
          rw [halloc n] at hn
          cases hn
      | blank refused hlast => exact .inl ⟨[], .zeroLength, refused, rfl, by rw [hlast]; rfl⟩
      | block message id refused hmessage hlast =>
          exact .inl ⟨message, .block id message, refused, rfl, by rw [hlast]; rfl⟩

/-- A value that is refused. -/
theorem last_error_of_last_operation_get :
    ∃ w rc, Run (clusterStep (fun _ => true) unreachable) (fun _ _ => True)
        (World.connected sampleName (.answering errorReply)) [(.operation (.get none [107]) Data.null, rc)] w ∧
      ∃ data, data.value = some [120] ∧ arakoonClusterGetLastError w.cluster = (0, 1, data) := by
  have hrun : ∃ w rc, Run (clusterStep (fun _ => true) unreachable) (fun _ _ => True)
      (World.connected sampleName (.answering errorReply)) [(.operation (.get none [107]) Data.null, rc)] w ∧
      w.cluster.lastError.value = some [120] := ⟨_, _, .call .nil trivial rfl, rfl⟩
  obtain ⟨w, rc, hrun, hvalue⟩ := hrun
  refine ⟨w, rc, hrun, ?_⟩
  obtain ⟨_, -, ⟨message, data, -, hdata, hlast⟩ | ⟨-, hlast⟩⟩ := last_error_of_last_operation (fun _ => rfl) hrun
  · have hslot : w.cluster.lastError = data := congrArg (fun out => out.2.2) hlast
    obtain rfl := Option.some.inj (hdata.symm.trans (hslot ▸ hvalue))
    exact ⟨data, hdata, hlast⟩
  · have hslot : w.cluster.lastError = .null := congrArg (fun out => out.2.2) hlast
    rw [hslot] at hvalue
    cases hvalue

/-! ### The slot owns a block -/

/-- The block was obtained from the malloc hook, and given back `n` times since. -/
def Heap.Freed (h : Heap) (id n : Nat) : Prop :=
  ∃ before after, h.log = before ++ .malloc id :: after ∧ releasedIn after (.block id) = n

/-- What the slot points at is nothing, or a block obtained from the malloc hook and not given back yet. -/
def World.SlotOwned (w : World) : Prop :=
  w.cluster.lastError = .null ∨ ∃ id message, w.cluster.lastError = .block id message ∧ w.heap.Freed id 0

variable (alloc) in
/-- The call is not an operation that is refused with an empty message. -/
def ClusterCall.Worded (call : ClusterCall) (w : World) : Prop :=
  match call with
  | .operation op _ => ¬w.Refused alloc op []
  | .whoMaster _ => True
  | .connectMaster => True

theorem Heap.Freed.lt {h : Heap} {id n : Nat} (hfreed : h.Freed id n) : id < h.next := by
  obtain ⟨before, after, hlog, -⟩ := hfreed
  have hobtained := h.once id
  rw [hlog] at hobtained
  by_contra hge
  simp [obtainedIn, HeapEvent.obtains, hge] at hobtained

theorem Heap.Freed.onward {h h' : Heap} {id n b : Nat} (hfreed : h.Freed id n) (honward : h.Onward b h') (hid : id < b) :
    h'.Freed id n := by
  obtain ⟨before, after, hlog, hcount⟩ := hfreed
  obtain ⟨events, hlog', hspared⟩ := honward.spared
  refine ⟨before, after ++ events, by rw [hlog', hlog]; simp, ?_⟩
  rw [releasedIn_append, hcount, hspared id hid, Nat.add_zero]

/-- Giving back the block counts, and giving back another pointer does not. -/
theorem Heap.Freed.free {h : Heap} {id n : Nat} (hfreed : h.Freed id n) (p : Ptr) :
    (h.free p).Freed id (n + if p = .block id then 1 else 0) := by
  obtain ⟨before, after, hlog, hcount⟩ := hfreed
  refine ⟨before, after ++ [.free p], ?_, ?_⟩
  · change h.log ++ [.free p] = _
    rw [hlog]
    simp
  · rw [releasedIn_append, hcount]
    simp [releasedIn, HeapEvent.releases]

theorem Reported.slotOwned_iff {op : Operation} {w w' : World} (h : Reported alloc op w w') :
    w'.SlotOwned ↔ ¬w.Refused alloc op [] := by
  cases h with
  | nothing hlast hnone => exact iff_of_true (.inl hlast) fun hrefused => (hnone [] hrefused).1 rfl
  | blank refused hlast =>
      refine iff_of_false (fun howned => ?_) fun hnot => hnot refused
      rcases howned with hnull | ⟨id, message, hblock, -⟩
      · rw [hlast] at hnull
        cases hnull
      · rw [hlast] at hblock
        cases hblock
  | block message id refused hmessage hlast _ hlog =>
      obtain ⟨before, hlog⟩ := hlog
      refine iff_of_true (.inr ⟨id, message, hlast, before, [], hlog, rfl⟩) fun hempty => ?_
      exact hmessage (refused.unique hempty)

theorem onward_connectMaster {w w' : World} {rc : ArakoonRc}
    (hstep : clusterStep alloc dial .connectMaster w = .ok (rc, w')) : w.Onward w.heap.next w' :=
  (spares_connectMaster w (Nat.le_refl _) rc w' (clusterStep_ok hstep)).2.1

/-- A call leaves a block of its own in the slot, or none, if and only if it is not refused with an empty message. -/
theorem slotOwned_clusterStep {call : ClusterCall} {w w' : World} {rc : ArakoonRc} (h : w.SlotOwned)
    (hstep : clusterStep alloc dial call w = .ok (rc, w')) : w'.SlotOwned ↔ call.Worded alloc w := by
  cases call with
  | operation op result => exact (operation_clusterStep hstep).1.slotOwned_iff
  | whoMaster master =>
      obtain ⟨out, w₁, hrun, hpure⟩ := bind_run_eq_some.mp (clusterStep_ok hstep)
      obtain ⟨-, rfl⟩ := Prod.mk.inj (Option.some.inj hpure)
      exact iff_of_true (.inl (ensures_whoMaster_reported master w out w₁ hrun).1) trivial
  | connectMaster =>
      have honward := onward_connectMaster hstep
      refine iff_of_true ?_ trivial
      rcases h with hnull | ⟨id, message, hblock, hfreed⟩
      · exact .inl (honward.lastError.trans hnull)
      · exact .inr ⟨id, message, honward.lastError.trans hblock, hfreed.onward honward.heap hfreed.lt⟩

/-- The block is in the slot and has not been given back, or it has been given back once and is not in the slot. -/
def World.Settles (id : Nat) (w : World) : Prop :=
  w.heap.Freed id (if w.cluster.lastError.ptr = .block id then 0 else 1)

theorem World.Settles.free {id : Nat} {w : World} (h : w.Settles id) : (arakoonClusterFree w).Freed id 1 := by
  have hfreed := Heap.Freed.free h w.cluster.lastError.ptr
  by_cases hslot : w.cluster.lastError.ptr = .block id
  · rw [if_pos hslot, if_pos hslot] at hfreed
    exact hfreed
  · rw [if_neg hslot, if_neg hslot] at hfreed
    exact hfreed

/-- A block that has been in the slot is given back at the next operation, and never again. -/
theorem settles_clusterStep {id : Nat} {call : ClusterCall} {w w' : World} {rc : ArakoonRc} (h : w.Settles id)
    (hstep : clusterStep alloc dial call w = .ok (rc, w')) : w'.Settles id := by
  have hreset : w.reset.heap.Freed id 1 := h.free
  have hafter : w.reset.heap.Onward w.heap.next w'.heap → w'.cluster.lastError.ptr ≠ .block id → w'.Settles id := by
    intro honward hslot
    rw [World.Settles, if_neg hslot]
    exact hreset.onward honward (Heap.Freed.lt h)
  cases call with
  | operation op result =>
      obtain ⟨hreported, honward⟩ := operation_clusterStep hstep
      refine hafter honward fun hslot => ?_
      cases hreported with
      | nothing hlast =>
          rw [hlast] at hslot
          cases hslot
      | blank _ hlast =>
          rw [hlast] at hslot
          cases hslot
      | block message id' _ _ hlast hid =>
          rw [hlast] at hslot
          obtain rfl := Ptr.block.inj hslot
          exact absurd (Heap.Freed.lt h) (Nat.not_lt.mpr hid)
  | whoMaster master =>
      obtain ⟨out, w₁, hrun, hpure⟩ := bind_run_eq_some.mp (clusterStep_ok hstep)
      obtain ⟨-, rfl⟩ := Prod.mk.inj (Option.some.inj hpure)
      obtain ⟨hlast, honward⟩ := ensures_whoMaster_reported master w out w₁ hrun
      refine hafter honward fun hslot => ?_
      rw [hlast] at hslot
      cases hslot
  | connectMaster =>
      have honward := onward_connectMaster hstep
      rw [World.Settles, honward.lastError]
      exact Heap.Freed.onward h honward.heap (Heap.Freed.lt h)

/-- In a run in which no operation is refused with an empty message, the slot holds nothing or a block obtained from
the malloc hook and not given back, and every block that has been in the slot has been given back once by the time the
cluster is freed. Of any single call, the slot is left so if and only if it is not refused with an empty message. -/
theorem last_error_owned :
    (∀ start history w, start.SlotOwned →
      Run (clusterStep alloc dial) (ClusterCall.Worded alloc) start history w → w.SlotOwned ∧
      ∀ later w' id message, Run (clusterStep alloc dial) (ClusterCall.Worded alloc) w later w' →
        w.cluster.lastError = .block id message → (arakoonClusterFree w').Freed id 1) ∧
    ∀ call w w' rc, w.SlotOwned → clusterStep alloc dial call w = .ok (rc, w') →
      (w'.SlotOwned ↔ call.Worded alloc w) := by
  refine ⟨fun start history w hstart hrun => ?_, fun call w w' rc h hstep => slotOwned_clusterStep h hstep⟩
  have howned : w.SlotOwned := hrun.invariant hstart fun call w rc w' h hallowed hstep =>
    (slotOwned_clusterStep h hstep).mpr hallowed
  refine ⟨howned, fun later w' id message hlater hslot => ?_⟩
  have hsettles : w.Settles id := by
    rcases howned with hnull | ⟨id', message', hblock, hfreed⟩
    · rw [hslot] at hnull
      cases hnull
    · obtain ⟨rfl, rfl⟩ := Data.block.inj (hslot.symm.trans hblock)
      have hptr : w.cluster.lastError.ptr = .block id := by
        rw [hslot]
        rfl
      rw [World.Settles, if_pos hptr]
      exact hfreed
  exact (hlater.invariant hsettles fun call w rc w' h _ hstep => settles_clusterStep h hstep).free

end Last

/-- A value is refused with an empty message, and then the cluster is freed. -/
theorem empty_message_freed :
    let start := World.connected sampleName (.answering (le32 4 ++ le32 0))
    start.SlotOwned ∧ ∃ w rc, Run (clusterStep (fun _ => true) unreachable) (fun _ _ => True) start
        [(.operation (.get none [107]) Data.null, rc)] w ∧
      ¬w.SlotOwned ∧ (arakoonClusterFree w).log = w.heap.log ++ [.free .zeroLength] := by
  refine ⟨.inl rfl, _, _, .call .nil trivial rfl, fun howned => ?_, rfl⟩
  rcases howned with hnull | ⟨id, message, hblock, -⟩
  · cases hnull
  · cases hblock

/-- A value is refused with a message, and then the cluster is freed. -/
theorem last_error_owned_get :
    ∃ w rc id, Run (clusterStep (fun _ => true) unreachable) (ClusterCall.Worded fun _ => true)
        (World.connected sampleName (.answering errorReply)) [(.operation (.get none [107]) Data.null, rc)] w ∧
      w.cluster.lastError = .block id [120] ∧ (arakoonClusterFree w).Freed id 1 := by
  have hstart : (World.connected sampleName (.answering errorReply)).SlotOwned := .inl rfl
  have hstep : ∃ w rc id, clusterStep (fun _ => true) unreachable (.operation (.get none [107]) Data.null)
      (World.connected sampleName (.answering errorReply)) = .ok (rc, w) ∧ w.cluster.lastError = .block id [120] ∧
        w.heap.Freed id 0 := ⟨_, _, _, rfl, rfl, [.free .null, .malloc 0, .free (.block 0)], [], rfl, rfl⟩
  obtain ⟨w, rc, id, hstep, hslot, hfreed⟩ := hstep
  have hworded := (last_error_owned.2 _ _ _ _ hstart hstep).mp (.inr ⟨id, _, hslot, hfreed⟩)
  have hrun := Run.call .nil hworded hstep
  exact ⟨w, rc, id, hrun, hslot, (last_error_owned.1 _ _ _ hstart hrun).2 _ _ _ _ .nil hslot⟩

end Crakoon
