import Crakoon.Exchange
import Crakoon.Nursery

/-!
# Exchanges without the message of an error

`_arakoon_cluster_node_who_master` and `arakoon_nursery_update_routing` read the code of a reply and, where it
is success, the payload; the message behind any other code they leave on the connection. `BareExchange` lists the
ways such an exchange ends.
-/

namespace Crakoon

open Programs Reading

variable {α γ : Type}

/-- What is read of a reply: its payload where its code is success, and nothing but the code otherwise. -/
def readBare (p : Reader Unit UInt8 γ) : Reader Unit UInt8 (Option γ) := do
  let code ← u32 ()
  if code ≠ 0 then pure none
  else do
    let a ← p
    pure (some a)

/-- The words that `readBare` takes. -/
def BareWord (R : γ → Bytes → Prop) : Option γ → Bytes → Prop
  | none, bs => ∃ code, code ≠ 0 ∧ code < 2 ^ 32 ∧ bs = le32 code
  | some a, bs => ∃ word, R a word ∧ bs = le32 0 ++ word

theorem reads_bare {p : Reader Unit UInt8 γ} {R : γ → Bytes → Prop} (hp : Reads p R) :
    Reads (readBare p) (BareWord R) := by
  apply ((reads_u32 ()).bind fun code => Reads.ite (Reads.pure none) (hp.map some)).congr
  intro r bs
  constructor
  · intro hdone
    obtain ⟨code, _, word, ⟨hcode, rfl⟩, hrest, rfl⟩ := hdone
    split_ifs at hrest with hne
    · obtain ⟨rfl, rfl⟩ := hrest
      exact ⟨code, hne, hcode, List.append_nil _⟩
    · obtain ⟨a, ha, rfl⟩ := hrest
      obtain rfl : code = 0 := not_ne_iff.mp hne
      exact ⟨word, ha, rfl⟩
  · intro h
    cases r with
    | none =>
        obtain ⟨code, hne, hcode, rfl⟩ := h
        refine ⟨code, _, [], ⟨hcode, rfl⟩, ?_, (List.append_nil _).symm⟩
        rw [if_pos hne]
        exact ⟨rfl, rfl⟩
    | some a =>
        obtain ⟨word, ha, rfl⟩ := h
        refine ⟨0, _, word, ⟨by decide, rfl⟩, ?_, rfl⟩
        rw [if_neg (by simp)]
        exact ⟨a, ha, rfl⟩

theorem readBare_shorter {p : Reader Unit UInt8 γ} {R : γ → Bytes → Prop} (hp : Reads p R) {r : Option γ}
    {bs rest : Bytes} (h : (readBare p).run bs = .ok (r, rest)) : rest.length < bs.length := by
  obtain ⟨word, hword, rfl⟩ := (reads_bare hp _ _ _).mp h
  cases r with
  | none =>
      obtain ⟨code, -, -, rfl⟩ := hword
      simp
  | some a =>
      obtain ⟨word, -, rfl⟩ := hword
      simp only [List.length_append, le32_length]
      omega

/-- The decoder of the payload, when it is `p` that reads it and `done` that says what the result is. -/
def BareDecodes (p : Reader Unit UInt8 γ) (done : γ → α → Prop) (m : SessionM (ArakoonRc × α)) : Prop :=
  ∀ s, Follows m p s (fun a out s' => out.1 = 0 ∧ done a out.2 ∧ s'.lastError = s.lastError) (fun out _ => out.1 ≠ 0)

/-- The result of a reply of which the message is not read. -/
def BareDelivered (done : γ → α → Prop) (failed : α) (s : Session) : Option γ → ArakoonRc × α → Session → Prop
  | none, out, s' => out.1 ≠ 0 ∧ out.2 = failed ∧ s'.lastError = s.lastError
  | some a, out, s' => out.1 = 0 ∧ done a out.2 ∧ s'.lastError = s.lastError

theorem follows_bareReply {p : Reader Unit UInt8 γ} {done : γ → α → Prop} {decode : SessionM (ArakoonRc × α)}
    (hdecode : BareDecodes p done decode) (failed : α) (s : Session) :
    Follows (bareReply failed decode) (readBare p) s (BareDelivered done failed s) (fun out _ => out.1 ≠ 0) := by
  refine (follows_readRc s).bind ?_ ?_
  · intro code rc s₁ hout
    obtain ⟨hword, hcode, hgains⟩ := hout
    by_cases hzero : code = 0
    · subst hzero
      obtain rfl : rc = 0 := hword.trans ((int32_eq_zero hcode).mpr rfl)
      rw [if_neg (not_ne_iff.mpr rfl), if_neg (not_ne_iff.mpr rfl)]
      apply (hdecode s₁).map
      intro a out s' hout
      obtain ⟨hrc, hdone, hlast⟩ := hout
      exact ⟨hrc, hdone, hlast.trans hgains.lastError⟩
    · have hrc : rc ≠ 0 := fun h => hzero ((int32_eq_zero hcode).mp (hword.symm.trans h))
      rw [if_pos hrc, if_pos hzero]
      exact Follows.pure ⟨hrc, rfl, hgains.lastError⟩
  · intro rc s₁ hnone hcut
    obtain ⟨hrc, -⟩ := hcut
    rw [if_pos hrc]
    exact Yields.pure ⟨hnone, hrc⟩

/-- The ways a request of this kind ends on the connection `c`. -/
inductive BareExchange (p : Reader Unit UInt8 γ) (done : γ → α → Prop) (failed : α) (s : Session) (c : Conn)
    (frame : Bytes) (out : ArakoonRc × α) (s' : Session) : Prop where
  | unsent (hrc : out.1 ≠ 0) (hconn : s'.conn = none) (stopped : c.peer.writes c.writes ≠ .complete)
  | read (r : Option γ) (rest : Bytes) (c' : Conn)
      (hread : (readBare p).run (c.inbox ++ c.peer.answers c.turns (c.pending ++ frame)) = .ok (r, rest))
      (hconn : s'.conn = some c') (peer : c'.peer = c.peer) (sent : c'.sent = c.sent ++ frame)
      (inbox : c'.inbox = rest) (pending : c'.pending = []) (delivered : BareDelivered done failed s r out s')
  | cut (hrc : out.1 ≠ 0) (hconn : s'.conn = none)
      (stuck : ¬(c.Prompt ∧ ∃ r rest, (readBare p).run
        (c.inbox ++ c.peer.answers c.turns (c.pending ++ frame)) = .ok (r, rest)))

section Alloc

variable {alloc : Nat → Bool} (halloc : ∀ n, alloc n = true)
include halloc

theorem yields_bareOperation {p : Reader Unit UInt8 γ} {R : γ → Bytes → Prop} (hp : Reads p R) {done : γ → α → Prop}
    {decode : SessionM (ArakoonRc × α)} (hdecode : BareDecodes p done decode) (failed : α) {command : Command}
    {frame : Bytes} (hframe : command.assembled = some frame) (hne : frame ≠ []) {s : Session} {c : Conn}
    (hc : s.conn = some c) :
    Yields (bareOperation alloc failed command decode) s (BareExchange p done failed s c frame) := by
  rw [bareOperation, sendCommand, hframe]
  apply (yields_sendBlock halloc (fun _ => yields_writeBytes frame) hc).bind
  intro rc s₁ hsent
  by_cases hrc : rc = 0
  · rw [if_neg (not_ne_iff.mpr hrc)]
    obtain ⟨c₁, hconn₁, wrote, gains⟩ := hsent.sent hrc
    have hstream := wrote.stream hne
    apply (follows_bareReply hdecode failed s₁ c₁ hconn₁).mono
    intro out s' h
    rcases h with ⟨r, rest, c', hread, hconn', hafter, hdelivered⟩ | ⟨hnone, hstuck, hcode⟩
    · obtain ⟨hinbox, hpending⟩ := hafter.idle (readBare_shorter hp hread)
      refine .read r rest c' (hstream ▸ hread) hconn' (hafter.peer.trans wrote.peer) (hafter.sent.trans wrote.sent)
        hinbox hpending ?_
      cases r with
      | none => exact ⟨hdelivered.1, hdelivered.2.1, hdelivered.2.2.trans gains.lastError⟩
      | some a => exact ⟨hdelivered.1, hdelivered.2.1, hdelivered.2.2.trans gains.lastError⟩
    · refine .cut hcode hnone fun hanswered => hstuck ?_
      obtain ⟨hprompt, hread⟩ := hanswered
      refine ⟨fun n => ?_, ?_⟩
      · rw [wrote.peer]
        exact hprompt n
      · rw [hstream]
        exact hread
  · rw [if_pos hrc]
    cases hsent with
    | whole c' hzero => exact absurd hzero hrc
    | partly moved failure hleft => cases hleft
    | closed _ _ hconn stopped =>
        obtain ⟨n, hn, hstopped⟩ := stopped
        obtain rfl : n = 0 := Nat.lt_one_iff.mp hn
        exact Yields.pure (.unsent hrc hconn hstopped)

/-- What the caller of `_arakoon_cluster_node_who_master` gets for the name a node gives: a string, or null. -/
def MasterNamed (name : Option Bytes) (master : Data) : Prop := master.value = name.map terminated

theorem decodes_master : BareDecodes wireStringOption MasterNamed (decodeMaster alloc) := by
  intro s
  have hreader : wireStringOption = wireStringOption >>= pure := (bind_pure _).symm
  rw [hreader]
  refine (follows_readStringOption halloc .null s).bind ?_ ?_
  · intro name out s₁ hdone
    obtain ⟨d, rc⟩ := out
    obtain ⟨hvalue, hrc, hgains⟩ := hdone
    dsimp only at hvalue hrc ⊢
    rw [if_neg (not_ne_iff.mpr hrc)]
    cases name with
    | none =>
        obtain rfl : d = .null := by cases d <;> simp [Data.value] at hvalue ⊢
        rw [if_pos rfl]
        exact Follows.pure ⟨hrc, rfl, hgains.lastError⟩
    | some name =>
        have hd : d ≠ .null := by
          intro heq
          obtain rfl := heq
          cases hvalue
        rw [if_neg hd]
        apply Follows.after (yields_utilsMakeString halloc hvalue s₁)
        intro _ s₂ hdone
        obtain ⟨hlast, id, rfl⟩ := hdone
        exact Follows.pure ⟨hrc, rfl, hlast.trans hgains.lastError⟩
  · intro out s₁ hnone hcut
    obtain ⟨d, rc⟩ := out
    obtain ⟨hrc, -⟩ := hcut
    dsimp only at hrc ⊢
    rw [if_pos hrc]
    exact Yields.pure ⟨hnone, hrc⟩

/-- The bytes of a `who_master` request. -/
def whoMasterFrame : Bytes := [0x02, 0x00, 0xff, 0xb1]

theorem yields_clusterNodeWhoMaster (master : Data) {s : Session} {c : Conn} (hc : s.conn = some c) :
    Yields (clusterNodeWhoMaster alloc master) s
      (BareExchange wireStringOption MasterNamed master s c whoMasterFrame) :=
  yields_bareOperation halloc reads_wireStringOption (decodes_master halloc) master (by rfl) (by decide) hc

/-- The bytes of the request for a routing table. -/
def configFrame : Bytes := [0x20, 0x00, 0xff, 0xb1]

/-- What `arakoon_nursery_update_routing` gets for the table that the keeper sends. -/
def TableFetched (table : Bytes) (data : Data) : Prop := data.value = some table

theorem decodes_config : BareDecodes wireString TableFetched (decodeConfig alloc) := by
  intro s
  have hreader : wireString = wireString >>= pure := (bind_pure _).symm
  rw [hreader]
  refine (follows_readString halloc .null 0 s).bind ?_ ?_
  · intro table out s₁ hdone
    obtain ⟨hvalue, -, hrc, hgains⟩ := hdone
    obtain ⟨d, rc⟩ := out
    obtain rfl : rc = 0 := hrc rfl
    exact Follows.pure ⟨rfl, hvalue, hgains.lastError⟩
  · intro out s₁ hnone hcut
    obtain ⟨d, rc⟩ := out
    obtain ⟨hrc, -⟩ := hcut
    dsimp only at hrc ⊢
    rw [if_pos hrc]
    apply (yields_memFree .null s₁).bind
    intro _ s₂ hfree
    exact Yields.pure ⟨hfree.1.trans hnone, hrc⟩

theorem yields_nurseryConfig {s : Session} {c : Conn} (hc : s.conn = some c) :
    Yields (bareOperation alloc .null nurseryConfigCommand (decodeConfig alloc)) s
      (BareExchange wireString TableFetched .null s c configFrame) :=
  yields_bareOperation halloc reads_wireString (decodes_config halloc) .null (by rfl) (by decide) hc

end Alloc

end Crakoon
