import Crakoon.BareExchange
import Crakoon.NodePrograms
import Crakoon.ReplyRoundTrip

/-!
# Strings that are handed out with a terminator

Where a string of a reply is read and what `arakoon_utils_make_string` hands to the realloc hook. A string of no bytes
takes no block: its pointer is `ARAKOON_ZERO_LENGTH_DATA_PTR`, and that is what is handed over. Every other string is in
a block of the call.
-/

namespace Crakoon

open Programs Reading

/-- The events come behind those before. -/
def Heap.Adds (h h' : Heap) (events : List HeapEvent) : Prop := h'.log = h.log ++ events

def NoResize (events : List HeapEvent) : Prop := ∀ p id, HeapEvent.realloc p id ∉ events

def Session.Unresized (s s' : Session) : Prop := ∃ events, s.heap.Adds s'.heap events ∧ NoResize events

theorem Heap.Adds.trans {h h₁ h₂ : Heap} {events events' : List HeapEvent} (hfirst : h.Adds h₁ events)
    (hsecond : h₁.Adds h₂ events') : h.Adds h₂ (events ++ events') := by
  rw [Heap.Adds, hsecond, hfirst, List.append_assoc]

theorem obtainedIn_append (log events : List HeapEvent) (p : Ptr) :
    obtainedIn (log ++ events) p = obtainedIn log p + obtainedIn events p := by
  simp [obtainedIn]

theorem obtainedIn_pos {events : List HeapEvent} {id : Nat} (h : HeapEvent.malloc id ∈ events) :
    0 < obtainedIn events (.block id) := by
  obtain ⟨front, back, rfl⟩ := List.append_of_mem h
  simp [obtainedIn, HeapEvent.obtains]

theorem Heap.Adds.obtained_le {h h' : Heap} {events : List HeapEvent} (hadds : h.Adds h' events) (id : Nat) :
    obtainedIn h.log (.block id) + obtainedIn events (.block id) ≤ 1 := by
  have hafter := h'.once id
  rw [hadds, obtainedIn_append] at hafter
  split_ifs at hafter <;> omega

/-- A block that was obtained in the course of some events had not been handed out before. -/
theorem Heap.Adds.fresh {h h' : Heap} {events : List HeapEvent} (hadds : h.Adds h' events) {id : Nat}
    (hnew : HeapEvent.malloc id ∈ events) : h.next ≤ id := by
  have hbefore := h.once id
  have hle := hadds.obtained_le id
  have hpos := obtainedIn_pos hnew
  split_ifs at hbefore <;> omega

theorem noResize_nil : NoResize [] := fun _ _ => List.not_mem_nil

theorem NoResize.append {events events' : List HeapEvent} (h : NoResize events) (h' : NoResize events') :
    NoResize (events ++ events') := fun p id hmem => (List.mem_append.mp hmem).elim (h p id) (h' p id)

instance Session.unresized_preorder : IsPreorder Session Session.Unresized where
  refl := fun _ => ⟨[], (List.append_nil _).symm, noResize_nil⟩
  trans := by
    rintro s s₁ s₂ ⟨events, hadds, hsteady⟩ ⟨events', hadds', hsteady'⟩
    exact ⟨events ++ events', hadds.trans hadds', hsteady.append hsteady'⟩

theorem Session.unresized_of_heap {s s' : Session} (h : s'.heap = s.heap) : s.Unresized s' :=
  ⟨[], by rw [Heap.Adds, h, List.append_nil], noResize_nil⟩

section Events

variable {alloc : Nat → Bool} {α : Type} {m : SessionM α}

theorem unresized_perform {c : NodeCommand} (hc : c.Steady) :
    Along (fun _ => True) Session.Unresized (c.perform alloc) fun _ => True := by
  rintro s - a s' hrun
  refine ⟨trivial, ?_, trivial⟩
  cases c with
  | malloc =>
      obtain ⟨-, rfl⟩ := Prod.mk.inj (Option.some.inj hrun)
      cases halloc : alloc s.heap.calls with
      | false => exact ⟨[], by simp [Heap.Adds, Heap.malloc, halloc], noResize_nil⟩
      | true => exact ⟨[.malloc s.heap.next], by simp [Heap.Adds, Heap.malloc, halloc], fun _ _ => by simp⟩
  | realloc p => exact hc.elim
  | free p =>
      obtain ⟨-, rfl⟩ := Prod.mk.inj (Option.some.inj hrun)
      exact ⟨[.free p], rfl, fun _ _ => by simp⟩
  | write bs =>
      simp only [NodeCommand.perform, clusterNodeWriteBytes, StateT.run] at hrun
      cases hc : s.conn with
      | none =>
          rw [hc] at hrun
          obtain ⟨-, rfl⟩ := Prod.mk.inj (Option.some.inj hrun)
          exact Session.unresized_of_heap rfl
      | some c =>
          rw [hc] at hrun
          obtain ⟨-, rfl⟩ := Prod.mk.inj (Option.some.inj hrun)
          exact Session.unresized_of_heap rfl
  | read n =>
      simp only [NodeCommand.perform, clusterNodeReadBytes, StateT.run] at hrun
      cases hc : s.conn with
      | none =>
          rw [hc] at hrun
          obtain ⟨-, rfl⟩ := Prod.mk.inj (Option.some.inj hrun)
          exact Session.unresized_of_heap rfl
      | some c =>
          rw [hc] at hrun
          obtain ⟨-, rfl⟩ := Prod.mk.inj (Option.some.inj hrun)
          exact Session.unresized_of_heap rfl
  | disconnect =>
      obtain ⟨-, rfl⟩ := Prod.mk.inj (Option.some.inj hrun)
      exact Session.unresized_of_heap rfl
  | setLastError msg =>
      obtain ⟨-, rfl⟩ := Prod.mk.inj (Option.some.inj hrun)
      exact Session.unresized_of_heap rfl
  | abort => exact a.elim

/-- A program that does not resize leaves no such event. -/
theorem GivesSteady.unresized (h : GivesSteady alloc m) (s : Session) : Ensures m s fun _ s' => s.Unresized s' :=
  (h.along (fun _ => unresized_perform) s trivial).mono fun _ _ hmoved => hmoved.2.1

theorem networkingPollRead_length (n : Nat) (c : Conn) :
    (networkingPollRead n c).1.1 = 0 → (networkingPollRead n c).1.2.length = n := by
  unfold networkingPollRead
  split
  · rename_i rc _
    exact fun hrc => absurd hrc rc.2
  · split_ifs with hn
    · exact fun _ => List.length_take_of_le hn
    · exact fun hrc => absurd hrc c.peer.ending.2

/-- A read that succeeds yields as many bytes as it was asked for. -/
theorem ensures_readBytes_length (n : Nat) (s : Session) :
    Ensures (readBytes n) s fun out _ => out.1 = 0 → out.2.length = n := by
  cases hc : s.conn with
  | none => exact (yields_readBytes_closed hc n).ensures.mono fun _ _ h hrc => absurd hrc h.2.1
  | some c =>
      intro out s' hrun
      obtain ⟨rfl, -⟩ := Prod.mk.inj (Option.some.inj (hrun.symm.trans (readBytes_run hc n)))
      exact networkingPollRead_length n c

/-- The string is the placeholder, or it is not empty and in a block that was obtained in the course of the events. -/
inductive Data.Placed (events : List HeapEvent) : Data → Prop where
  | empty : Placed events .zeroLength
  | block (id : Nat) (bytes : Bytes) (hbytes : bytes ≠ []) (hnew : .malloc id ∈ events) :
      Placed events (.block id bytes)

theorem Data.Placed.mono {events events' : List HeapEvent} {d : Data} (h : d.Placed events) (hsub : events ⊆ events') :
    d.Placed events' := by
  cases h with
  | empty => exact .empty
  | block id bytes hbytes hnew => exact .block id bytes hbytes (hsub hnew)

/-- The block was granted, and then nothing was resized. -/
theorem ensures_readInto (l : Nat) (hl : l ≠ 0) (id : Nat) (s : Session) :
    Ensures (do
      let (rc', d) ← readBytes l
      if rc' = 0 then pure (.block id d, rc')
      else do
        memFree (.block id)
        pure (.null, rc') : SessionM (Data × ArakoonRc)) s fun out s' => s.Unresized s' ∧
      (out.2 = 0 → ∃ bytes, out.1 = .block id bytes ∧ bytes ≠ []) := by
  have hread := ((@gives_readBytes (fun _ => true) l).unresized s).outcome.mono fun out s' h =>
    And.intro h.2 (ensures_readBytes_length l s out s' h.1)
  refine hread.bind fun out s₁ ⟨hsteady, hlength⟩ => .ite (fun hrc => ?_) fun hrc => ?_
  · refine Ensures.pure ⟨hsteady, fun _ => ⟨out.2, rfl, fun hnil => hl ?_⟩⟩
    rw [← hlength hrc, hnil]
    rfl
  · refine ((@gives_memFree (fun _ => true) (.block id)).unresized s₁).bind fun _ s₂ hfree => ?_
    exact Ensures.pure ⟨trans_of Session.Unresized hsteady hfree, fun hzero => absurd hzero hrc⟩

theorem ensures_readString_placed (a : Data) (rc : ArakoonRc) (s : Session) :
    Ensures (readString alloc a rc) s fun out s' => ∃ events, s.heap.Adds s'.heap events ∧ NoResize events ∧
      (out.2 = 0 → out.1.Placed events) := by
  refine ((@gives_readUInt32 alloc 0).unresized s).bind fun l s₁ hword => ?_
  obtain ⟨events, hadds, hsteady⟩ := hword
  refine .ite (fun hrc => Ensures.pure ⟨events, hadds, hsteady, fun hzero => absurd hzero hrc⟩) fun _ => ?_
  refine .ite (fun _ => Ensures.pure ⟨events, hadds, hsteady, fun _ => .empty⟩) fun hl => ?_
  cases halloc : alloc s₁.heap.calls with
  | false =>
      refine (Ensures.of_run (memNew_refused halloc)).bind fun _ s₂ hrefused => ?_
      obtain ⟨rfl, rfl⟩ := hrefused
      refine Ensures.pure ⟨events, ?_, hsteady, fun hzero => absurd hzero enomem_ne_zero⟩
      rw [Heap.Adds, ← hadds]
      simp [Heap.malloc, halloc]
  | true =>
      refine (Ensures.of_run (memNew_granted halloc)).bind fun _ s₂ hgranted => ?_
      obtain ⟨rfl, rfl⟩ := hgranted
      refine (ensures_readInto l.1 hl s₁.heap.next _).mono fun out s' hread => ?_
      obtain ⟨⟨events', hadds', hsteady'⟩, hblock⟩ := hread
      have hnew : s₁.heap.Adds (s₁.heap.malloc alloc).2 [.malloc s₁.heap.next] := by
        simp [Heap.Adds, Heap.malloc, halloc]
      have hmalloc : NoResize [.malloc s₁.heap.next] := fun _ _ => by simp
      refine ⟨_, (hadds.trans hnew).trans hadds', (hsteady.append hmalloc).append hsteady', fun hzero => ?_⟩
      obtain ⟨bytes, hout, hbytes⟩ := hblock hzero
      rw [hout]
      exact .block _ _ hbytes (by simp)

theorem ensures_readStringOption_placed (a : Data) (s : Session) :
    Ensures (readStringOption alloc a 0) s fun out s' => ∃ events, s.heap.Adds s'.heap events ∧ NoResize events ∧
      (out.2 = 0 → out.1 = .null ∨ out.1.Placed events) := by
  refine ((@gives_readBytes alloc 1).unresized s).bind fun v s₁ hbyte => ?_
  obtain ⟨events, hadds, hsteady⟩ := hbyte
  refine .ite (fun _ => Ensures.pure ⟨events, hadds, hsteady, fun _ => .inl rfl⟩) fun _ => ?_
  refine .ite (fun _ => Ensures.pure ⟨events, hadds, hsteady, fun _ => .inl rfl⟩) fun _ => ?_
  refine (ensures_readString_placed a 0 s₁).mono fun out s' hread => ?_
  obtain ⟨events', hadds', hsteady', hplaced⟩ := hread
  refine ⟨events ++ events', hadds.trans hadds', hsteady.append hsteady', fun hzero => .inr ?_⟩
  exact (hplaced hzero).mono (List.subset_append_right _ _)

end Events

/-! ### Resizing -/

/-- Between the two states one pointer was handed to the realloc hook: that of the string. -/
inductive Heap.Resizes (h h' : Heap) (text : Bytes) : Prop where
  | intro (before after : List HeapEvent) (d : Data) (id : Nat)
      (hadds : h.Adds h' (before ++ .realloc d.ptr id :: after)) (hbefore : NoResize before) (hafter : NoResize after)
      (hplaced : d.Placed before) (hvalue : d.value = some text)

/-- What comes before and resizes nothing. -/
theorem Heap.Resizes.after {h h₁ h' : Heap} {text : Bytes} {events : List HeapEvent} (hadds : h.Adds h₁ events)
    (hsteady : NoResize events) (hresizes : h₁.Resizes h' text) : h.Resizes h' text := by
  obtain ⟨before, after, d, id, hadds', hbefore, hafter, hplaced, hvalue⟩ := hresizes
  refine ⟨events ++ before, after, d, id, ?_, hsteady.append hbefore, hafter, ?_, hvalue⟩
  · rw [List.append_assoc]
    exact hadds.trans hadds'
  · exact hplaced.mono (List.subset_append_right _ _)

/-- The operation succeeds with the text as a string, and the realloc hook gets null pointers and blocks of the malloc
hook only. -/
structure Faithful (text : Bytes) (h h' : Heap) (rc : ArakoonRc) (result : Data) : Prop where
  success : rc = ArakoonReturnCode.success.rc
  value : result.value = some (terminated text)
  resized : ∃ events, h.Adds h' events ∧ ∀ p id, .realloc p id ∈ events →
    p = .null ∨ ∃ b, p = .block b ∧ .malloc b ∈ h'.log

theorem Heap.Resizes.faithful_iff {h h' : Heap} {text : Bytes} (hresizes : h.Resizes h' text) {rc : ArakoonRc}
    {result : Data} (hrc : rc = 0) (hresult : result.value = some (terminated text)) :
    Faithful text h h' rc result ↔ text ≠ [] := by
  obtain ⟨before, after, d, id, hadds, hbefore, hafter, hplaced, hvalue⟩ := hresizes
  constructor
  · rintro ⟨-, -, events, hadds', hblocks⟩ rfl
    obtain rfl := List.append_cancel_left (hadds.symm.trans hadds')
    have hhanded := hblocks d.ptr id (by simp)
    cases hplaced with
    | empty =>
        rcases hhanded with hnull | ⟨b, hb, -⟩
        · cases hnull
        · cases hb
    | block b bytes hbytes _ => exact hbytes (Option.some.inj hvalue)
  · intro htext
    refine ⟨hrc, hresult, _, hadds, fun p i hmem => .inr ?_⟩
    cases hplaced with
    | empty => exact absurd (Option.some.inj hvalue).symm htext
    | block b bytes _ hnew =>
        rcases List.mem_append.mp hmem with hold | hlast
        · exact absurd hold (hbefore p i)
        · rcases List.mem_cons.mp hlast with heq | hlate
          · obtain ⟨rfl, -⟩ := HeapEvent.realloc.inj heq
            refine ⟨b, rfl, ?_⟩
            rw [hadds]
            exact List.mem_append_right _ (List.mem_append_left _ hnew)
          · exact absurd hlate (hafter p i)

section Texts

variable {alloc : Nat → Bool} {α γ : Type}

/-- Where the program succeeds and its result holds a string with a terminator, that string was resized. -/
def HandsText (look : α → Data) (m : SessionM (ArakoonRc × α)) : Prop :=
  ∀ s, Ensures m s fun out s' => out.1 = 0 → ∀ text, (look out.2).value = some (terminated text) →
    s.heap.Resizes s'.heap text

variable {look : α → Data}

theorem HandsText.failure {rc : ArakoonRc} (hrc : rc ≠ 0) (a : α) : HandsText look (pure (rc, a)) :=
  fun _ => Ensures.pure fun hzero => absurd hzero hrc

theorem HandsText.after {l : SessionM γ} {f : γ → SessionM (ArakoonRc × α)} (hl : GivesSteady alloc l)
    (hf : ∀ x, HandsText look (f x)) : HandsText look (l >>= f) := by
  intro s
  refine (hl.unresized s).bind fun x s₁ hsteady => (hf x s₁).mono fun out s' htext hrc text hvalue => ?_
  obtain ⟨events, hadds, hevents⟩ := hsteady
  exact (htext hrc text hvalue).after hadds hevents

theorem HandsText.ite {c : Prop} [Decidable c] {m n : SessionM (ArakoonRc × α)} (hm : c → HandsText look m)
    (hn : ¬c → HandsText look n) : HandsText look (if c then m else n) :=
  fun s => .ite (fun h => hm h s) fun h => hn h s

theorem ensures_utilsMakeString (d : Data) (s : Session) :
    Ensures (utilsMakeString alloc d) s fun out s' => out ≠ .null →
      out.value = some (terminated (d.value.getD [])) ∧ ∃ id, s.heap.Adds s'.heap [.realloc d.ptr id] := by
  have hrealloc : Ensures (memRealloc alloc d.ptr) s fun out s₁ =>
      ∀ id, out = some id → s.heap.Adds s₁.heap [.realloc d.ptr id] := by
    intro out s₁ hrun id hid
    obtain ⟨rfl, rfl⟩ := Prod.mk.inj (Option.some.inj hrun)
    unfold Heap.realloc at hid ⊢
    split_ifs at hid ⊢
    obtain rfl := Option.some.inj hid
    rfl
  refine hrealloc.bind fun out s₁ hadds => ?_
  cases out with
  | none => exact (yields_memFree d.ptr s₁).ensures.bind fun _ _ _ => Ensures.pure fun hnull => absurd rfl hnull
  | some id => exact Ensures.pure fun _ => ⟨rfl, id, hadds id rfl⟩

/-- A string that was read before is handed out with a terminator, as a part of the result. -/
theorem ensures_handOut {s s₁ : Session} {d : Data} {events : List HeapEvent} (hadds : s.heap.Adds s₁.heap events)
    (hsteady : NoResize events) (hplaced : d.Placed events) (rc : ArakoonRc) {failed handed : Data → α}
    (hlook : ∀ d, look (handed d) = d) :
    Ensures (do
      let result ← utilsMakeString alloc d
      if result = .null then pure (enomem, failed result) else pure (rc, handed result)) s₁ fun out s' =>
        out.1 = 0 → ∀ text, (look out.2).value = some (terminated text) → s.heap.Resizes s'.heap text := by
  refine (ensures_utilsMakeString d s₁).bind fun result s₂ hresult => .ite (fun _ => ?_) fun hnull => ?_
  · exact Ensures.pure fun hzero => absurd hzero enomem_ne_zero
  · refine Ensures.pure fun _ text htext => ?_
    obtain ⟨hvalue, id, hresized⟩ := hresult hnull
    rw [hlook] at htext
    refine ⟨events, [], d, id, hadds.trans hresized, hsteady, noResize_nil, hplaced, ?_⟩
    have hbytes : d.value.getD [] = text := List.append_cancel_right (Option.some.inj (hvalue.symm.trans htext))
    rw [← hbytes]
    cases hplaced with
    | empty => rfl
    | block _ _ _ _ => rfl

theorem handsText_decodeText : HandsText id (decodeText alloc) := by
  intro s
  refine (ensures_readString_placed .null 0 s).bind fun out s₁ hread => ?_
  obtain ⟨events, hadds, hsteady, hplaced⟩ := hread
  refine .ite (fun hrc => Ensures.pure fun hzero => absurd hzero hrc) fun hrc => ?_
  exact ensures_handOut hadds hsteady (hplaced (not_ne_iff.mp hrc)) out.2 fun _ => rfl

theorem handsText_decodeMaster : HandsText id (decodeMaster alloc) := by
  intro s
  refine (ensures_readStringOption_placed .null s).bind fun out s₁ hread => ?_
  obtain ⟨events, hadds, hsteady, hplaced⟩ := hread
  refine .ite (fun hrc => Ensures.pure fun hzero => absurd hzero hrc) fun hrc => .ite (fun hnull => ?_) fun hnull => ?_
  · exact Ensures.pure fun _ text htext => by cases htext
  · have hstring := (hplaced (not_ne_iff.mp hrc)).resolve_left hnull
    exact ensures_handOut hadds hsteady hstring out.2 fun _ => rfl

theorem handsText_decodeVersion (result : VersionInfo) : HandsText VersionInfo.info (decodeVersion alloc result) := by
  refine .after (@gives_readInt32 alloc _) fun major => .ite (fun hrc => .failure hrc _) fun _ => ?_
  refine .after (@gives_readInt32 alloc _) fun minor => .ite (fun hrc => .failure hrc _) fun _ => ?_
  refine .after (@gives_readInt32 alloc _) fun patch => .ite (fun hrc => .failure hrc _) fun _ => ?_
  intro s
  refine (ensures_readString_placed .null patch.2 s).bind fun out s₁ hread => ?_
  obtain ⟨events, hadds, hsteady, hplaced⟩ := hread
  refine .ite (fun hrc => Ensures.pure fun hzero => absurd hzero hrc) fun hrc => ?_
  exact ensures_handOut hadds hsteady (hplaced (not_ne_iff.mp hrc)) out.2 fun _ => rfl

theorem handsText_clientOperation {early failed : α} {send : SessionM ArakoonRc}
    {decode : SessionM (ArakoonRc × α)} (hsend : GivesSteady alloc send) (hdecode : HandsText look decode) :
    HandsText look (clientOperation alloc early failed send decode) := by
  refine .after hsend fun rc => .ite (fun hrc => .failure hrc _) fun _ => ?_
  refine .after (@gives_readRc alloc) fun rc => .after (gives_handleError rc) fun _ => ?_
  exact .ite (fun hrc => .failure hrc _) fun _ => hdecode

theorem handsText_clusterNodeWhoMaster (master : Data) : HandsText id (clusterNodeWhoMaster alloc master) := by
  refine .after (gives_sendCommand _) fun rc => .ite (fun hrc => .failure hrc _) fun _ => ?_
  exact .after (@gives_readRc alloc) fun rc => .ite (fun hrc => .failure hrc _) fun _ => handsText_decodeMaster

/-- On a cluster with a master, the last error is given back before that. -/
theorem HandsText.withMaster {missing : α} {body : SessionM (ArakoonRc × α)} (h : HandsText look body) {w : World}
    {k : NodeId} (hmaster : w.cluster.getMaster = some k) :
    Ensures (Crakoon.withMaster missing body) w fun out w' => out.1 = 0 →
      ∀ text, (look out.2).value = some (terminated text) → w.heap.Resizes w'.heap text := by
  intro out w' hrun hrc text htext
  rw [withMaster_some hmaster] at hrun
  obtain ⟨⟨out', s'⟩, hbody, hout⟩ := Option.map_eq_some_iff.mp hrun
  obtain ⟨rfl, rfl⟩ := Prod.mk.inj hout
  have hreset : w.heap.Adds (w.reset.session k).heap [.free w.cluster.lastError.ptr] := rfl
  exact (h _ _ _ hbody hrc text htext).after hreset fun _ _ => by simp

/-- What is handed out is the text, and of the pointers that were resized only the one of an empty text was not a
block. -/
theorem yields_faithful_iff {σ : Type} {m : Program σ (ArakoonRc × α)} {s : σ} (heap : σ → Heap) {text : Bytes}
    (hyields : Yields m s fun out _ => out.1 = 0 ∧ (look out.2).value = some (terminated text))
    (hhands : Ensures m s fun out s' => out.1 = 0 → ∀ text, (look out.2).value = some (terminated text) →
      (heap s).Resizes (heap s') text) :
    Yields m s (fun out s' => Faithful text (heap s) (heap s') out.1 (look out.2)) ↔ text ≠ [] := by
  obtain ⟨out, s', hrun, ⟨hrc, hvalue⟩, hresizes⟩ := hyields.and hhands
  have hiff := (hresizes hrc text hvalue).faithful_iff hrc hvalue
  exact ⟨fun hfaithful => hiff.mp (hfaithful.ensures _ _ hrun), fun htext => ⟨out, s', hrun, hiff.mpr htext⟩⟩

end Texts

/-- The peer takes the request and answers it: the reply is the first of what there is to read then. -/
structure Conn.Answers (c : Conn) (frame reply : Bytes) : Prop where
  accepts : c.peer.writes c.writes = .complete
  prompt : c.Prompt
  stream : ∃ rest, c.inbox ++ c.peer.answers c.turns (c.pending ++ frame) = reply ++ rest

section Results

variable {alloc : Nat → Bool} (halloc : ∀ n, alloc n = true)
include halloc

/-- An operation that takes one write succeeds with the payload that is answered. -/
theorem yields_payload (op : Operation) (result : op.kind.Out) {w : World} {k : NodeId}
    (hmaster : w.cluster.master = some k) {c : Conn} (hconn : (w.cluster.node k).conn = some c) {frame : Bytes}
    (hframe : op.frame = some frame) (hkeys : op.keys = []) {p : op.kind.Payload} {bs : Bytes}
    (hp : (Reply.payload p).Word bs) (h : c.Answers frame bs) :
    Yields (Operation.run alloc op result) w fun out _ => out.1 = 0 ∧ op.kind.Decoded p out.2 := by
  obtain ⟨rest, hstream⟩ := h.stream
  have hwrites : ∀ n < op.writeCount, c.peer.writes (c.writes + n) = .complete := by
    intro n hn
    rw [Operation.writeCount, hkeys] at hn
    obtain rfl : n = 0 := Nat.lt_one_iff.mp hn
    exact h.accepts
  obtain ⟨out, w', hrun, hreturned, -⟩ :=
    reply_round_trip halloc result hmaster hconn hframe hwrites hp h.prompt (Nat.two_pow_pos 31) hstream
  exact ⟨out, w', hrun, hreturned⟩

theorem yields_masterName (master : Data) {s : Session} {c : Conn} (hc : s.conn = some c) {name bs : Bytes}
    (hname : BareWord StringOptionField (some (some name)) bs) (h : c.Answers whoMasterFrame bs) :
    Yields (clusterNodeWhoMaster alloc master) s fun out _ => out.1 = 0 ∧ out.2.value = some (terminated name) := by
  obtain ⟨rest, hstream⟩ := h.stream
  have hreads := (reads_bare reads_wireStringOption).parses hname rest
  rw [← hstream] at hreads
  refine (yields_clusterNodeWhoMaster halloc master hc).mono fun out s' hexchange => ?_
  cases hexchange with
  | unsent _ _ stopped => exact absurd h.accepts stopped
  | cut _ _ stuck => exact absurd ⟨h.prompt, _, rest, hreads⟩ stuck
  | read r rest' c' hread hconn peer sent inbox pending delivered =>
      obtain ⟨rfl, -⟩ := Prod.mk.inj (Except.ok.inj (hread.symm.trans hreads))
      exact ⟨delivered.1, delivered.2.1⟩

/-- The string that a server returns to `arakoon_hello`, `arakoon_version` or `_arakoon_cluster_node_who_master` is
handed out faithfully if and only if it is not empty. -/
theorem text_results_faithful_iff (text : Bytes) :
    (∀ (w : World) (k : NodeId) (c : Conn), w.cluster.master = some k → (w.cluster.node k).conn = some c →
      ∀ clientId clusterId result frame bs, (Operation.hello clientId clusterId).frame = some frame →
        (@Reply.payload .text text).Word bs → c.Answers frame bs →
          (Yields (arakoonHello alloc clientId clusterId result) w
            (fun out w' => Faithful text w.heap w'.heap out.1 out.2) ↔ text ≠ [])) ∧
    (∀ (w : World) (k : NodeId) (c : Conn), w.cluster.master = some k → (w.cluster.node k).conn = some c →
      ∀ major minor patch result frame bs, Operation.version.frame = some frame →
        (@Reply.payload .version ⟨major, minor, patch, text⟩).Word bs → c.Answers frame bs →
          (Yields (arakoonVersion alloc result) w
            (fun out w' => Faithful text w.heap w'.heap out.1 out.2.info) ↔ text ≠ [])) ∧
    (∀ (s : Session) (c : Conn), s.conn = some c →
      ∀ master bs, BareWord StringOptionField (some (some text)) bs → c.Answers whoMasterFrame bs →
        (Yields (clusterNodeWhoMaster alloc master) s
          (fun out s' => Faithful text s.heap s'.heap out.1 out.2) ↔ text ≠ [])) := by
  refine ⟨?_, ?_, ?_⟩
  · intro w k c hmaster hconn clientId clusterId result frame bs hframe hbs h
    let op := Operation.hello clientId clusterId
    have hyields := yields_payload halloc op result hmaster hconn hframe rfl hbs h
    have hgetMaster := getMaster_eq_some.mpr ⟨hmaster, c, hconn⟩
    exact yields_faithful_iff World.heap hyields
      ((handsText_clientOperation (gives_send op) handsText_decodeText).withMaster hgetMaster)
  · intro w k c hmaster hconn major minor patch result frame bs hframe hbs h
    have hyields := yields_payload halloc .version result hmaster hconn hframe rfl hbs h
    have hgetMaster := getMaster_eq_some.mpr ⟨hmaster, c, hconn⟩
    exact yields_faithful_iff World.heap (hyields.mono fun out _ hout => ⟨hout.1, hout.2.2.2.2⟩)
      ((handsText_clientOperation (gives_send .version) (handsText_decodeVersion result)).withMaster hgetMaster)
  · intro s c hc master bs hbs h
    exact yields_faithful_iff Session.heap (yields_masterName halloc master hc hbs h)
      (handsText_clusterNodeWhoMaster master s)

end Results

/-- A name and a master that are not empty, and a version text that is. -/
theorem text_results_faithful_iff_one :
    let w := World.connected ⟨[99], by simp⟩ (Peer.answering (le32 0 ++ writeString [97]))
    let w' := World.connected ⟨[99], by simp⟩
      (Peer.answering (le32 0 ++ (le32 1 ++ (le32 2 ++ (le32 3 ++ writeString [])))))
    let s : Session := ⟨Heap.empty, some (Conn.fresh (Peer.answering (le32 0 ++ (1 :: writeString [97])))), .null⟩
    Yields (arakoonHello (fun _ => true) ⟨[99], by simp⟩ ⟨[100], by simp⟩ .null) w
        (fun out w₁ => Faithful [97] w.heap w₁.heap out.1 out.2) ∧
      ¬Yields (arakoonVersion (fun _ => true) ⟨0, 0, 0, .null⟩) w'
        (fun out w₁ => Faithful [] w'.heap w₁.heap out.1 out.2.info) ∧
      Yields (clusterNodeWhoMaster (fun _ => true) .null) s
        (fun out s' => Faithful [97] s.heap s'.heap out.1 out.2) := by
  intro w w' s
  have halloc : ∀ n : Nat, (fun _ => true) n = true := fun _ => rfl
  have hanswers : ∀ frame reply, (Conn.fresh (Peer.answering reply)).Answers frame reply :=
    fun frame reply => ⟨rfl, fun _ => rfl, [], (List.append_nil _).symm⟩
  refine ⟨?_, fun hfaithful => ?_, ?_⟩
  · have hword : (@Reply.payload .text [97]).Word (le32 0 ++ writeString [97]) := ⟨_, ⟨by decide, rfl⟩, rfl⟩
    exact ((text_results_faithful_iff halloc [97]).1 w 0 _ rfl rfl _ _ _ _ _ rfl hword (hanswers _ _)).mpr (by decide)
  · have hfits : ∀ n : Int, FitsInt32 n → Int32Field n (writeInt32 n) := fun n h => ⟨h, rfl⟩
    have hword : (@Reply.payload .version ⟨1, 2, 3, []⟩).Word
        (le32 0 ++ (le32 1 ++ (le32 2 ++ (le32 3 ++ writeString [])))) :=
      ⟨_, ⟨_, _, _, _, hfits 1 (by decide), hfits 2 (by decide), hfits 3 (by decide), ⟨by decide, rfl⟩, rfl⟩, rfl⟩
    exact ((text_results_faithful_iff halloc []).2.1 w' 0 _ rfl rfl 1 2 3 _ _ _ rfl hword (hanswers _ _)).mp
      hfaithful rfl
  · have hword : BareWord StringOptionField (some (some [97])) (le32 0 ++ (1 :: writeString [97])) :=
      ⟨_, ⟨1, _, by decide, ⟨by decide, rfl⟩, rfl⟩, rfl⟩
    exact ((text_results_faithful_iff halloc [97]).2.2 s _ rfl .null _ hword (hanswers _ _)).mpr (by decide)

/-- The placeholder for an empty string is handed to the realloc hook. -/
theorem empty_hello_resizes_placeholder :
    let w := World.connected ⟨[99], by simp⟩ (Peer.answering (le32 0 ++ writeString []))
    ¬Yields (arakoonHello (fun _ => true) ⟨[99], by simp⟩ ⟨[100], by simp⟩ .null) w
      (fun out w₁ => Faithful [] w.heap w₁.heap out.1 out.2) := by
  intro w hfaithful
  obtain ⟨-, -, events, hadds, hblocks⟩ := hfaithful.ensures _ _ rfl
  obtain rfl : [.free .null, .malloc 0, .free (.block 0), .realloc .zeroLength 1] = events := hadds
  rcases hblocks .zeroLength 1 (by decide) with hnull | ⟨b, hb, -⟩
  · cases hnull
  · cases hb

end Crakoon
