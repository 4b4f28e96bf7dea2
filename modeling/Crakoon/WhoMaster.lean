import Crakoon.LastError

/-!
# Asking a node for the master

What one `_arakoon_cluster_node_who_master` on an open connection yields, for every peer: the name that is read behind
the request if the request is taken and a reply with a name can be read (`Conn.Gives`), and no name otherwise. The name
need not be the answer to the request: what an earlier call has left unread on the connection is read before it
(`Conn.Gives.said`).
-/

namespace Crakoon

open Programs Reading

/-- The next that is read is a string option that holds this string. -/
structure Conn.Offers (c : Conn) (word : Bytes) : Prop where
  granted : c.Grants 1
  given : c.stream.take 1 ≠ [0]
  tells : (c.take 1).Tells word

/-- The request for the master is taken, and the next that is read is a reply that gives this name. -/
structure Conn.Gives (c : Conn) (word : Bytes) : Prop where
  written : c.peer.writes c.writes = .complete
  granted : (c.accept whoMasterFrame).Grants 4
  success : ofLe32 ((c.accept whoMasterFrame).stream.take 4) = 0
  offers : ((c.accept whoMasterFrame).take 4).Offers word

/-- What the node sends when it is asked for the master on the connection `c`. -/
def Conn.answer (c : Conn) : Bytes := c.peer.answers c.turns (c.pending ++ whoMasterFrame)

/-- The bytes begin with a reply that gives this name. -/
def Says (bs : Bytes) (word : Bytes) : Prop :=
  ∃ rest, (readBare wireStringOption).run bs = .ok (some (some word), rest)

section Alloc

variable {alloc : Nat → Bool}

theorem ensures_writeBytes (bs : Bytes) {s : Session} {c : Conn} (hc : s.conn = some c) :
    Ensures (writeBytes bs) s fun rc s' =>
      c.peer.writes c.writes = .complete ∧ rc = 0 ∧ s'.conn = some (c.accept bs) ∨
      c.peer.writes c.writes ≠ .complete ∧ rc ≠ 0 ∧ s'.conn = none := by
  refine Ensures.bind (P := fun rc s₁ => rc = (networkingPollWrite bs c).1 ∧
    s₁.conn = some (networkingPollWrite bs c).2) ?_ ?_
  · intro rc s₁ hrun
    simp only [clusterNodeWriteBytes, StateT.run, hc] at hrun
    obtain ⟨rfl, rfl⟩ := Prod.mk.inj (Option.some.inj hrun)
    exact ⟨rfl, rfl⟩
  · intro rc s₁ hdone
    obtain ⟨rfl, hconn⟩ := hdone
    cases hwrite : c.peer.writes c.writes with
    | complete =>
        have hpoll : networkingPollWrite bs c = (0, c.accept bs) := by
          simp [networkingPollWrite, hwrite, ArakoonReturnCode.rc]
        rw [hpoll] at hconn ⊢
        rw [if_neg (not_ne_iff.mpr rfl)]
        exact Ensures.pure (.inl ⟨rfl, rfl, hconn⟩)
    | stopped moved failure =>
        have hpoll : networkingPollWrite bs c = (failure.1, c.accept (bs.take moved)) := by
          simp [networkingPollWrite, hwrite]
        rw [hpoll]
        rw [if_pos failure.2]
        intro rc s' hrun
        obtain ⟨rfl, rfl⟩ := Prod.mk.inj (Option.some.inj hrun)
        exact .inr ⟨by simp, failure.2, rfl⟩

/-- A command for which there is memory is written to its end, or the connection is closed. -/
theorem ensures_sendCommand {command : Command} {bs : Bytes} (hbs : command.assembled = some bs) {s : Session}
    (halloc : alloc s.heap.calls = true) {c : Conn} (hc : s.conn = some c) :
    Ensures (sendCommand alloc command) s fun rc s' =>
      c.peer.writes c.writes = .complete ∧ rc = 0 ∧ s'.conn = some (c.accept bs) ∨
      c.peer.writes c.writes ≠ .complete ∧ rc ≠ 0 ∧ s'.conn = none := by
  rw [sendCommand, hbs]
  refine (ensures_memNew s).bind fun id s₁ hnew => ?_
  obtain ⟨hconn₁, -, ⟨hnone, -⟩ | ⟨rfl, -⟩⟩ := hnew
  · rw [halloc] at hnone
    cases hnone
  · have hblock : assertAllWritten (some bs) = pure bs := rfl
    dsimp only
    rw [hblock, pure_bind]
    refine (ensures_writeBytes bs (hconn₁.trans hc)).bind fun rc s₂ hwrite => ?_
    refine (yields_memFree _ s₂).ensures.bind fun _ s₃ hfree => .pure ?_
    rw [hfree.1]
    exact hwrite

theorem Told.value {s s' : Session} {message : Bytes} (h : Told s message s') : s'.lastError.value = some message := by
  cases h with
  | blank hmessage hlast =>
      rw [hlast, hmessage]
      rfl
  | block hmessage hlast hlog =>
      rw [hlast]
      rfl

variable (halloc : ∀ n, alloc n = true)
include halloc

theorem ensures_readStringOption {s : Session} {c : Conn} (hc : s.conn = some c) :
    Ensures (readStringOption alloc .null 0) s fun out _ =>
      (∃ word, c.Offers word ∧ out.2 = 0 ∧ out.1.value = some word) ∨
      (∀ word, ¬c.Offers word) ∧ (out.2 ≠ 0 ∨ out.1 = .null) := by
  refine (ensures_readBytes hc 1).bind fun out s₁ h => ?_
  obtain ⟨rc, v⟩ := out
  rcases h with ⟨hgrants, hout, rfl⟩ | ⟨hrefused, hrc, rfl⟩
  · obtain ⟨rfl, rfl⟩ := Prod.mk.inj hout
    refine .ite (fun hne => absurd rfl hne) fun _ => .ite (fun hzero => ?_) fun hgiven => ?_
    · exact .pure (.inr ⟨fun _ hoffers => hoffers.given hzero, .inr rfl⟩)
    · refine (ensures_readNewString rfl).mono fun out s' hread => ?_
      cases hread with
      | told message hrc tells holds => exact .inl ⟨message, ⟨hgrants, hgiven, tells⟩, hrc, holds.value⟩
      | failed hrc hlast hnone =>
          refine .inr ⟨fun word hoffers => ?_, .inl hrc⟩
          have hfailed := (hnone word hoffers.tells).2
          rw [halloc] at hfailed
          cases hfailed
  · dsimp only at hrc ⊢
    rw [if_pos hrc]
    exact .pure (.inr ⟨fun _ hoffers => hrefused hoffers.granted, .inl hrc⟩)

theorem ensures_decodeMaster {s : Session} {c : Conn} (hc : s.conn = some c) :
    Ensures (decodeMaster alloc) s fun out _ =>
      (∃ word, c.Offers word ∧ out.1 = 0 ∧ out.2.value = some (terminated word)) ∨
      (∀ word, ¬c.Offers word) ∧ ¬(out.1 = 0 ∧ out.2 ≠ .null) := by
  refine (ensures_readStringOption halloc hc).bind fun out s₁ h => ?_
  obtain ⟨d, rc⟩ := out
  rcases h with ⟨word, hoffers, hrc, hvalue⟩ | ⟨hnone, hfailed⟩
  · have hd : d ≠ .null := by
      intro hnull
      rw [hnull] at hvalue
      cases hvalue
    dsimp only at hrc hvalue ⊢
    rw [if_neg (not_ne_iff.mpr hrc), if_neg hd]
    refine (yields_utilsMakeString halloc hvalue s₁).ensures.bind fun _ s₂ ⟨_, _, id, heq⟩ => ?_
    subst heq
    exact .pure (.inl ⟨word, hoffers, hrc, rfl⟩)
  · refine .ite (fun hrc => .pure (.inr ⟨hnone, fun hout => hrc hout.1⟩)) fun hrc => .ite (fun _ => ?_) fun hd => ?_
    · exact .pure (.inr ⟨hnone, fun hout => hout.2 rfl⟩)
    · exact absurd hfailed (not_or.mpr ⟨hrc, hd⟩)

/-- A node is asked on the connection `c`: the caller gets the name that the node gives there, or none. -/
theorem ensures_asked (master : Data) {s : Session} {c : Conn} (hc : s.conn = some c) :
    Ensures (clusterNodeWhoMaster alloc master) s fun out _ =>
      (∃ word, c.Gives word ∧ out.1 = 0 ∧ out.2.value = some (terminated word)) ∨
      (∀ word, ¬c.Gives word) ∧ ¬(out.1 = 0 ∧ out.2 ≠ .null) := by
  have hframe : whoMasterCommand.assembled = some whoMasterFrame := by rfl
  refine (ensures_sendCommand hframe (halloc _) hc).bind fun rc s₁ h => ?_
  rcases h with ⟨hwritten, hrc, hconn₁⟩ | ⟨hstopped, hrc, -⟩
  · rw [if_neg (not_ne_iff.mpr hrc)]
    refine (ensures_readRc hconn₁).bind fun rc s₂ h => ?_
    rcases h with ⟨hgranted, hword, hs₂⟩ | ⟨hrefused, hrc, -⟩
    · have hzero := int32_eq_zero (ofLe32_lt ((c.accept whoMasterFrame).stream.take 4))
      rw [← hword] at hzero
      refine .ite (fun hrc => .pure (.inr ⟨fun _ hgives => hrc ?_, fun hout => hrc hout.1⟩)) fun hrc => ?_
      · exact hzero.mpr hgives.success
      · have hsuccess := hzero.mp (not_ne_iff.mp hrc)
        have hconn₂ : s₂.conn = some ((c.accept whoMasterFrame).take 4) := congrArg Session.conn hs₂
        refine (ensures_decodeMaster halloc hconn₂).mono fun out s' h => ?_
        rcases h with ⟨word, hoffers, hout⟩ | ⟨hnone, hout⟩
        · exact .inl ⟨word, ⟨hwritten, hgranted, hsuccess, hoffers⟩, hout⟩
        · exact .inr ⟨fun word hgives => hnone word hgives.offers, hout⟩
    · rw [if_pos hrc]
      exact .pure (.inr ⟨fun _ hgives => hrefused hgives.granted, fun hout => hrc hout.1⟩)
  · rw [if_pos hrc]
    exact .pure (.inr ⟨fun _ hgives => hstopped hgives.written, fun hout => hrc hout.1⟩)

end Alloc

theorem terminated_injective : Function.Injective terminated := fun _ _ h => List.append_cancel_right h

/-- The name that a node gives on a connection is read off what was left there and what it answers. -/
theorem Conn.Gives.said {c : Conn} {word : Bytes} (h : c.Gives word) : Says (c.inbox ++ c.answer) word := by
  have halloc : ∀ n : Nat, (fun _ => true) n = true := fun _ => rfl
  let s : Session := ⟨Heap.empty, some c, .null⟩
  obtain ⟨out, s', hrun, hexchange⟩ := yields_clusterNodeWhoMaster halloc .null (s := s) rfl
  rcases ensures_asked halloc .null (s := s) rfl out s' hrun with ⟨word', hgives, hrc, hvalue⟩ | ⟨hnone, -⟩
  · have hword : word' = word := hgives.offers.tells.unique h.offers.tells
    subst hword
    cases hexchange with
    | unsent hne => exact absurd hrc hne
    | cut hne => exact absurd hrc hne
    | read r rest c' hread hconn peer sent inbox pending delivered =>
        rcases r with - | - | name
        · exact absurd hrc delivered.1
        · have hnull : out.2.value = none := delivered.2.1
          rw [hnull] at hvalue
          cases hvalue
        · have hname : out.2.value = some (terminated name) := delivered.2.1
          obtain rfl := terminated_injective (Option.some.inj (hname.symm.trans hvalue))
          exact ⟨rest, hread⟩
  · exact absurd h (hnone word)

end Crakoon
