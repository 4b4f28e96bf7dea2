import Crakoon.Decode
import Crakoon.Operation

/-!
# Sending requests

What becomes of the bytes of a request: they go out whole, or up to the point where a write fails. `Dispatch`
says how sending ends, and `yields_send` that every operation sends its frame.
-/

namespace Crakoon

open Programs

/-- The connection once all of `bs` has been accepted, in `count` writes. -/
structure Conn.Wrote (c c' : Conn) (bs : Bytes) (count : Nat) : Prop where
  complete : ∀ n < count, c.peer.writes (c.writes + n) = .complete
  peer : c'.peer = c.peer
  writes : c'.writes = c.writes + count
  turns : c'.turns = c.turns
  sent : c'.sent = c.sent ++ bs
  pending : c'.pending = c.pending ++ bs
  inbox : c'.inbox = c.inbox

theorem Conn.accept_wrote {c : Conn} (h : c.peer.writes c.writes = .complete) (bs : Bytes) :
    c.Wrote (c.accept bs) bs 1 where
  complete := by
    intro n hn
    obtain rfl : n = 0 := Nat.lt_one_iff.mp hn
    exact h
  peer := rfl
  writes := rfl
  turns := rfl
  sent := rfl
  pending := rfl
  inbox := rfl

theorem Conn.Wrote.none (c : Conn) : c.Wrote c [] 0 :=
  ⟨fun n hn => absurd hn (Nat.not_lt_zero n), rfl, rfl, rfl, (List.append_nil _).symm, (List.append_nil _).symm, rfl⟩

theorem Conn.Wrote.trans {c c₁ c₂ : Conn} {bs cs : Bytes} {m n : Nat} (h₁ : c.Wrote c₁ bs m)
    (h₂ : c₁.Wrote c₂ cs n) : c.Wrote c₂ (bs ++ cs) (m + n) where
  complete := by
    intro i hi
    by_cases him : i < m
    · exact h₁.complete i him
    · have hrest := h₂.complete (i - m) (by omega)
      rwa [h₁.peer, h₁.writes, Nat.add_assoc, Nat.add_sub_cancel' (Nat.le_of_not_lt him)] at hrest
  peer := h₂.peer.trans h₁.peer
  writes := by rw [h₂.writes, h₁.writes, Nat.add_assoc]
  turns := h₂.turns.trans h₁.turns
  sent := by rw [h₂.sent, h₁.sent, List.append_assoc]
  pending := by rw [h₂.pending, h₁.pending, List.append_assoc]
  inbox := h₂.inbox.trans h₁.inbox

/-- What there is to read after a request. -/
theorem Conn.Wrote.stream {c c' : Conn} {bs : Bytes} {count : Nat} (h : c.Wrote c' bs count) (hbs : bs ≠ []) :
    c'.stream = c.inbox ++ c.peer.answers c.turns (c.pending ++ bs) := by
  have hpending : c'.pending ≠ [] := by
    rw [h.pending]
    exact List.append_ne_nil_of_right_ne_nil _ hbs
  rw [Conn.stream, if_neg hpending, h.inbox, h.peer, h.turns, h.pending]

/-- How sending `bs` in `count` writes on the connection `c` ends: all of it is accepted, or a write fails and
the connection is closed, or, where the code does not close it, the connection stays open behind a part of
`bs`. -/
inductive Dispatch (s : Session) (c : Conn) (bs : Bytes) (count : Nat) (unchecked : Bool) (rc : ArakoonRc)
    (s' : Session) : Prop where
  | whole (c' : Conn) (hrc : rc = 0) (hconn : s'.conn = some c') (wrote : c.Wrote c' bs count) (gains : s.Gains s' 0)
  | closed (hchecked : unchecked = false) (hrc : rc ≠ 0) (hconn : s'.conn = none)
      (stopped : ∃ n < count, c.peer.writes (c.writes + n) ≠ .complete)
  | partly (moved : Nat) (failure : Failure) (hleft : unchecked = true) (hrc : rc ≠ 0)
      (hconn : s'.conn = some (c.accept (bs.take moved))) (stopped : c.peer.writes c.writes = .stopped moved failure)

/-- What comes after a part of a request that has been accepted. -/
theorem Dispatch.after {s s₁ s' : Session} {c c₁ : Conn} {bs cs : Bytes} {m n : Nat} {rc : ArakoonRc}
    (hwrote : c.Wrote c₁ bs m) (hgains : s.Gains s₁ 0) (h : Dispatch s₁ c₁ cs n false rc s') :
    Dispatch s c (bs ++ cs) (m + n) false rc s' := by
  cases h with
  | whole c' hrc hconn wrote gains =>
      exact .whole c' hrc hconn (hwrote.trans wrote) ((hgains.trans gains).congr (add_zero _))
  | closed _ hrc hconn stopped =>
      obtain ⟨i, hi, hstopped⟩ := stopped
      rw [hwrote.peer, hwrote.writes, Nat.add_assoc] at hstopped
      exact .closed rfl hrc hconn ⟨m + i, Nat.add_lt_add_left hi m, hstopped⟩
  | partly moved failure hleft => cases hleft

/-- A write that fails is the end of sending, whatever was to follow. -/
theorem Dispatch.stop {s s₀ s' : Session} {c : Conn} {bs : Bytes} {m n : Nat} {rc : ArakoonRc}
    (h : Dispatch s c bs m false rc s') (hrc : rc ≠ 0) (hmn : m ≤ n) (cs : Bytes) :
    Dispatch s₀ c cs n false rc s' := by
  cases h with
  | whole c' hzero => exact absurd hzero hrc
  | closed _ hrc hconn stopped =>
      obtain ⟨i, hi, hstopped⟩ := stopped
      exact .closed rfl hrc hconn ⟨i, Nat.lt_of_lt_of_le hi hmn, hstopped⟩
  | partly moved failure hleft => cases hleft

/-- Sending that succeeds sends everything. -/
theorem Dispatch.sent {s s' : Session} {c : Conn} {bs : Bytes} {n : Nat} {unchecked : Bool} {rc : ArakoonRc}
    (h : Dispatch s c bs n unchecked rc s') (hrc : rc = 0) :
    ∃ c', s'.conn = some c' ∧ c.Wrote c' bs n ∧ s.Gains s' 0 := by
  cases h with
  | whole c' _ hconn wrote gains => exact ⟨c', hconn, wrote, gains⟩
  | closed _ hne => exact absurd hrc hne
  | partly moved failure hleft hne => exact absurd hrc hne

theorem yields_clusterNodeWriteBytes (bs : Bytes) {s : Session} {c : Conn} (hc : s.conn = some c) :
    Yields (clusterNodeWriteBytes bs) s (Dispatch s c bs 1 true) := by
  refine ⟨(networkingPollWrite bs c).1, { s with conn := some (networkingPollWrite bs c).2 }, ?_, ?_⟩
  · simp [clusterNodeWriteBytes, StateT.run, hc]
  · cases hwrite : c.peer.writes c.writes with
    | complete =>
        have hpoll : networkingPollWrite bs c = (0, c.accept bs) := by
          simp [networkingPollWrite, hwrite, ArakoonReturnCode.rc]
        rw [hpoll]
        exact .whole _ rfl rfl (Conn.accept_wrote hwrite bs) ⟨(add_zero _).symm, rfl⟩
    | stopped moved rc =>
        have hpoll : networkingPollWrite bs c = (rc.1, c.accept (bs.take moved)) := by
          simp [networkingPollWrite, hwrite]
        rw [hpoll]
        exact .partly moved rc rfl rc.2 rfl hwrite

/-- `WRITE_BYTES` closes the connection where the write fails. -/
theorem yields_writeBytes (bs : Bytes) {s : Session} {c : Conn} (hc : s.conn = some c) :
    Yields (writeBytes bs) s (Dispatch s c bs 1 false) := by
  apply (yields_clusterNodeWriteBytes bs hc).bind
  intro rc s₁ h
  cases h with
  | whole c' hrc hconn wrote gains =>
      rw [if_neg (not_ne_iff.mpr hrc)]
      exact Yields.pure (.whole c' hrc hconn wrote gains)
  | closed hchecked => cases hchecked
  | partly moved failure hleft hrc hconn stopped =>
      rw [if_pos hrc]
      refine ⟨rc, { s₁ with conn := none }, rfl, .closed rfl hrc rfl ⟨0, Nat.one_pos, ?_⟩⟩
      rw [Nat.add_zero, stopped]
      exact fun h => by cases h

section Send

variable {alloc : Nat → Bool}

theorem yields_multiGetKeys (keys : List Bytes) {s : Session} {c : Conn} (hc : s.conn = some c) :
    Yields (multiGetKeys keys) s (Dispatch s c (keys.flatMap Operation.keyBytes) (2 * keys.length) false) := by
  induction keys generalizing s c with
  | nil => exact Yields.pure (.whole c rfl hc (.none c) (.refl s))
  | cons value keys ih =>
      have hcount : 2 * (value :: keys).length = 1 + (1 + 2 * keys.length) := by
        rw [List.length_cons]
        omega
      rw [List.flatMap_cons, Operation.keyBytes, List.append_assoc, hcount]
      apply (yields_writeBytes _ hc).bind
      intro rc s₁ hsize
      by_cases hrc : rc = 0
      · rw [if_neg (not_ne_iff.mpr hrc)]
        obtain ⟨c₁, hconn₁, wrote₁, gains₁⟩ := hsize.sent hrc
        apply (yields_writeBytes _ hconn₁).bind
        intro rc s₂ hvalue
        by_cases hrc : rc = 0
        · rw [if_neg (not_ne_iff.mpr hrc)]
          obtain ⟨c₂, hconn₂, wrote₂, gains₂⟩ := hvalue.sent hrc
          exact (ih hconn₂).mono fun rc s₃ h => .after wrote₁ gains₁ (.after wrote₂ gains₂ h)
        · rw [if_pos hrc]
          exact Yields.pure (.after wrote₁ gains₁ (hvalue.stop hrc (Nat.le_add_right _ _) _))
      · rw [if_pos hrc]
        exact Yields.pure (hsize.stop hrc (Nat.le_add_right _ _) _)

variable (halloc : ∀ n, alloc n = true)
include halloc

theorem yields_sendBlock {write : Bytes → SessionM ArakoonRc} {unchecked : Bool} {c : Conn} {bs : Bytes}
    (hwrite : ∀ s, s.conn = some c → Yields (write bs) s (Dispatch s c bs 1 unchecked)) {s : Session}
    (hc : s.conn = some c) : Yields (sendBlock alloc write (some bs)) s (Dispatch s c bs 1 unchecked) := by
  apply (yields_memNew halloc s).bind
  intro _ s₁ hdone
  obtain ⟨hconn₁, id, rfl, hgains₁⟩ := hdone
  have hblock : assertAllWritten (some bs) = pure bs := rfl
  dsimp only
  rw [hblock, pure_bind]
  apply (hwrite s₁ (hconn₁.trans hc)).bind
  intro rc s₂ hsent
  refine (yields_memFree (.block id) s₂).bind fun _ s₃ ⟨hconn₃, hgains₃⟩ => Yields.pure ?_
  cases hsent with
  | whole c' hrc hconn wrote gains =>
      exact .whole c' hrc (hconn₃.trans hconn) wrote (((hgains₁.trans gains).trans hgains₃).congr (by abel))
  | closed hchecked hrc hconn stopped => exact .closed hchecked hrc (hconn₃.trans hconn) stopped
  | partly moved failure hleft hrc hconn stopped => exact .partly moved failure hleft hrc (hconn₃.trans hconn) stopped

theorem yields_sendMultiGet {options : Option ClientCallOptions} {keys : List Bytes} {bs : Bytes}
    (hbs : (multiGetCommand options keys).assembled = some bs) {s : Session} {c : Conn} (hc : s.conn = some c) :
    Yields (sendMultiGet alloc options keys) s
      (Dispatch s c (bs ++ keys.flatMap Operation.keyBytes) (1 + 2 * keys.length) false) := by
  rw [sendMultiGet, sendCommand, hbs]
  apply (yields_sendBlock halloc (fun _ => yields_writeBytes bs) hc).bind
  intro rc s₁ hsent
  by_cases hrc : rc = 0
  · rw [if_neg (not_ne_iff.mpr hrc)]
    obtain ⟨c₁, hconn₁, wrote₁, gains₁⟩ := hsent.sent hrc
    apply (yields_memNew halloc s₁).bind
    intro _ s₂ hdone
    obtain ⟨hconn₂, iter, rfl, hgains₂⟩ := hdone
    apply (yields_multiGetKeys keys (hconn₂.trans hconn₁)).bind
    intro rc s₃ hkeys
    by_cases hrc : rc = 0
    · rw [if_neg (not_ne_iff.mpr hrc)]
      obtain ⟨c₃, hconn₃, wrote₃, gains₃⟩ := hkeys.sent hrc
      refine (yields_memFree (.block iter) s₃).bind fun _ s₄ ⟨hconn₄, hgains₄⟩ => Yields.pure ?_
      refine .whole c₃ hrc (hconn₄.trans hconn₃) (wrote₁.trans wrote₃) ?_
      exact (((gains₁.trans hgains₂).trans gains₃).trans hgains₄).congr (by abel)
    · rw [if_pos hrc]
      exact Yields.pure (.after wrote₁ gains₁ (hkeys.stop hrc le_rfl _))
  · rw [if_pos hrc]
    exact Yields.pure (hsent.stop hrc (Nat.le_add_right _ _) _)

/-- The request of an operation. -/
theorem yields_send {op : Operation} {frame : Bytes} (hframe : op.frame = some frame) {s : Session} {c : Conn}
    (hc : s.conn = some c) :
    Yields (Operation.send alloc op) s (Dispatch s c frame op.writeCount op.writesUnchecked) := by
  obtain ⟨bs, hblock, rfl⟩ := Option.map_eq_some_iff.mp hframe
  have hone : op.keys = [] →
      Yields (sendBlock alloc (if op.writesUnchecked then clusterNodeWriteBytes else writeBytes) op.block) s
      (Dispatch s c (bs ++ op.keys.flatMap Operation.keyBytes) op.writeCount op.writesUnchecked) := by
    intro hkeys
    rw [Operation.writeCount, hkeys, List.flatMap_nil, List.append_nil, hblock]
    refine yields_sendBlock halloc (fun s hc => ?_) hc
    cases hunchecked : op.writesUnchecked with
    | true => exact yields_clusterNodeWriteBytes bs hc
    | false => exact yields_writeBytes bs hc
  cases op with
  | multiGet options keys => exact yields_sendMultiGet halloc hblock hc
  | _ => exact hone rfl

end Send

end Crakoon
