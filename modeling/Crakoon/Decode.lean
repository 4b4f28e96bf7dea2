import Crakoon.Reply
import Crakoon.Session

/-!
# The decoders refine the reference readers

`Follows m p` relates a program `m` that reads from a connection to a reader `p` of the bytes that
arrive on it. Either both succeed, and then the connection stays open with the rest of the bytes on it,
or the connection is closed, and then `p` runs out of bytes or the peer has let a read fail. The rules
put such relations together along a `do` block, so that each macro is related to the reader of its field
once. The ledger of the memory is kept along: it grows by what the results own and by nothing else.
-/

namespace Crakoon

open Programs Reading

/-- No read fails for a reason other than a stream that is too short. -/
def Conn.Prompt (c : Conn) : Prop := ∀ n, c.peer.reads n = none

/-- The connection after reads that have left `rest`. -/
structure Conn.After (c c' : Conn) (rest : Bytes) : Prop where
  peer : c'.peer = c.peer
  sent : c'.sent = c.sent
  stream : c'.stream = rest
  /-- Once something has been read, everything written has been answered. -/
  settled : c'.pending = [] ∨ c' = c

theorem Conn.After.refl (c : Conn) : c.After c c.stream := ⟨rfl, rfl, rfl, .inr rfl⟩

theorem Conn.After.trans {c c₁ c₂ : Conn} {r₁ r₂ : Bytes} (h₁ : c.After c₁ r₁) (h₂ : c₁.After c₂ r₂) :
    c.After c₂ r₂ where
  peer := h₂.peer.trans h₁.peer
  sent := h₂.sent.trans h₁.sent
  stream := h₂.stream
  settled := by
    rcases h₂.settled with h | rfl
    · exact .inl h
    · exact h₁.settled

theorem Conn.take_after (c : Conn) (n : Nat) : c.After (c.take n) (c.stream.drop n) where
  peer := rfl
  sent := rfl
  stream := by simp [Conn.take, Conn.turn, Conn.stream]
  settled := .inl rfl

section Follows

variable {α β γ δ : Type}

/-- The reader takes something off the front of the stream and no read fails. -/
def Conn.Delivers (c : Conn) (p : Reader Unit UInt8 α) : Prop := c.Prompt ∧ ∃ a rest, p.run c.stream = .ok (a, rest)

def Follows (m : SessionM β) (p : Reader Unit UInt8 α) (s : Session) (done : α → β → Session → Prop)
    (cut : β → Session → Prop) : Prop :=
  ∀ c, s.conn = some c → Yields m s fun b s' =>
    (∃ a rest c', p.run c.stream = .ok (a, rest) ∧ s'.conn = some c' ∧ c.After c' rest ∧ done a b s') ∨
    (s'.conn = none ∧ ¬c.Delivers p ∧ cut b s')

variable {m : SessionM β} {p : Reader Unit UInt8 α} {s : Session} {done : α → β → Session → Prop}
  {cut : β → Session → Prop}

theorem Follows.pure {a : α} {b : β} (h : done a b s) :
    Follows (Pure.pure b : SessionM β) (Pure.pure a : Reader Unit UInt8 α) s done cut := by
  intro c hc
  exact Yields.pure (.inl ⟨a, c.stream, c, rfl, hc, .refl c, h⟩)

theorem Follows.bind {f : β → SessionM δ} {q : α → Reader Unit UInt8 γ} {done' : γ → δ → Session → Prop}
    {cut' : δ → Session → Prop} (hm : Follows m p s done cut)
    (hdone : ∀ a b s₁, done a b s₁ → Follows (f b) (q a) s₁ done' cut')
    (hcut : ∀ b s₁, s₁.conn = none → cut b s₁ → Yields (f b) s₁ fun d s' => s'.conn = none ∧ cut' d s') :
    Follows (m >>= f) (p >>= q) s done' cut' := by
  intro c hc
  apply (hm c hc).bind
  intro b s₁ h
  rcases h with ⟨a, rest, c₁, hp, hc₁, hafter, hd⟩ | ⟨hnone, hstuck, hct⟩
  · apply (hdone a b s₁ hd c₁ hc₁).mono
    intro d s' h
    rcases h with ⟨e, rest', c', hq, hc', hafter', hd'⟩ | ⟨hnone, hstuck, hct'⟩
    · rw [hafter.stream] at hq
      exact .inl ⟨e, rest', c', by rw [run_bind, hp]; exact hq, hc', hafter.trans hafter', hd'⟩
    · refine .inr ⟨hnone, fun hdelivers => hstuck ?_, hct'⟩
      obtain ⟨hprompt, e, rest', hrun⟩ := hdelivers
      rw [run_bind, hp] at hrun
      refine ⟨fun n => ?_, e, rest', ?_⟩
      · rw [hafter.peer]
        exact hprompt n
      · rw [hafter.stream]
        exact hrun
  · refine (hcut b s₁ hnone hct).mono fun d s' h => .inr ⟨h.1, fun hdelivers => hstuck ?_, h.2⟩
    obtain ⟨hprompt, e, rest, hrun⟩ := hdelivers
    rw [run_bind, bind_eq_ok] at hrun
    obtain ⟨out, hp, -⟩ := hrun
    exact ⟨hprompt, out.1, out.2, hp⟩

/-- A program that does not touch the connection comes first. -/
theorem Follows.after {l : SessionM γ} {f : γ → SessionM β} {P : γ → Session → Prop}
    (hl : Yields l s fun x s₁ => s₁.conn = s.conn ∧ P x s₁)
    (hf : ∀ x s₁, P x s₁ → Follows (f x) p s₁ done cut) : Follows (l >>= f) p s done cut := by
  intro c hc
  refine hl.bind fun x s₁ h => hf x s₁ h.2 c ?_
  rw [h.1, hc]

theorem Follows.mono {done' : α → β → Session → Prop} {cut' : β → Session → Prop} (hm : Follows m p s done cut)
    (hdone : ∀ a b s', done a b s' → done' a b s') (hcut : ∀ b s', cut b s' → cut' b s') :
    Follows m p s done' cut' := by
  intro c hc
  apply (hm c hc).mono
  intro b s' h
  rcases h with ⟨a, rest, c', hp, hc', hafter, hd⟩ | ⟨hnone, hstuck, hct⟩
  · exact .inl ⟨a, rest, c', hp, hc', hafter, hdone a b s' hd⟩
  · exact .inr ⟨hnone, hstuck, hcut b s' hct⟩

/-- The reader may put its result into another form. -/
theorem Follows.map {f : α → γ} {done' : γ → β → Session → Prop} (hm : Follows m p s done cut)
    (hdone : ∀ a b s', done a b s' → done' (f a) b s') : Follows m (p >>= fun a => Pure.pure (f a)) s done' cut := by
  have hprogram : m = m >>= Pure.pure := (bind_pure _).symm
  rw [hprogram]
  exact hm.bind (fun a b s₁ h => Follows.pure (hdone a b s₁ h)) fun b s₁ hnone h => Yields.pure ⟨hnone, h⟩

end Follows

/-- The memory has gained `n` on the ledger, and nothing else has changed but the connection. -/
structure Session.Gains (s s' : Session) (n : Ptr → Int) : Prop where
  net : s'.heap.net = s.heap.net + n
  lastError : s'.lastError = s.lastError

theorem Session.Gains.refl (s : Session) : s.Gains s 0 := ⟨(add_zero _).symm, rfl⟩

theorem Session.Gains.trans {s s₁ s₂ : Session} {m n : Ptr → Int} (h₁ : s.Gains s₁ m) (h₂ : s₁.Gains s₂ n) :
    s.Gains s₂ (m + n) := ⟨by rw [h₂.net, h₁.net, add_assoc], h₂.lastError.trans h₁.lastError⟩

theorem Session.Gains.congr {s s' : Session} {m n : Ptr → Int} (h : s.Gains s' m) (hmn : m = n) : s.Gains s' n :=
  hmn ▸ h

/-- The value is not a block of no bytes. -/
def Data.Tight (d : Data) : Prop := ∀ id, d ≠ .block id []

theorem tight_zeroLength : Data.zeroLength.Tight := fun _ h => by cases h

theorem yields_memFree (p : Ptr) (s : Session) :
    Yields (memFree p) s fun _ s' => s'.conn = s.conn ∧ s.Gains s' (-Ptr.one p) := by
  refine ⟨(), _, rfl, rfl, ⟨?_, rfl⟩⟩
  rw [Heap.net_free, sub_eq_add_neg]

/-- Freeing a value unless its size is zero settles what is owed for it. -/
theorem yields_memMaybeFree {d : Data} (h : d.Tight) (s : Session) :
    Yields (memMaybeFree d) s fun _ s' => s'.conn = s.conn ∧ s.Gains s' (-d.net) := by
  cases d with
  | null => exact Yields.pure ⟨rfl, (Session.Gains.refl s).congr neg_zero.symm⟩
  | zeroLength => exact Yields.pure ⟨rfl, (Session.Gains.refl s).congr neg_zero.symm⟩
  | block id bytes =>
      have hsize : (Data.block id bytes).size ≠ 0 := fun hzero => h id (by rw [List.eq_nil_of_length_eq_zero hzero])
      rw [memMaybeFree, if_pos hsize]
      exact yields_memFree (.block id) s

section Alloc

variable {alloc : Nat → Bool}

theorem memNew_granted {s : Session} (h : alloc s.heap.calls = true) :
    (memNew alloc).run s = some (some s.heap.next, { s with heap := (s.heap.malloc alloc).2 }) := by
  simp [memNew, StateT.run, Heap.malloc, h]

theorem memNew_refused {s : Session} (h : alloc s.heap.calls = false) :
    (memNew alloc).run s = some (none, { s with heap := (s.heap.malloc alloc).2 }) := by
  simp [memNew, StateT.run, Heap.malloc, h]

variable (halloc : ∀ n, alloc n = true)
include halloc

theorem yields_memNew (s : Session) :
    Yields (memNew alloc) s fun id s' => s'.conn = s.conn ∧
      ∃ b, id = some b ∧ s.Gains s' (Ptr.one (.block b)) := by
  obtain ⟨h', hmalloc, hnet, -⟩ := Heap.malloc_eq (h := s.heap) (halloc _)
  refine ⟨some s.heap.next, { s with heap := h' }, ?_, rfl, s.heap.next, rfl, hnet, rfl⟩
  change some _ = some _
  rw [hmalloc]

end Alloc

/-- A read that fails closes the connection. -/
theorem readBytes_run {s : Session} {c : Conn} (hc : s.conn = some c) (n : Nat) :
    (readBytes n).run s = some ((networkingPollRead n c).1,
      { s with conn := if (networkingPollRead n c).1.1 = 0 then some (networkingPollRead n c).2 else none }) := by
  have hread : (clusterNodeReadBytes n).run s =
      some ((networkingPollRead n c).1, { s with conn := some (networkingPollRead n c).2 }) := by
    simp [clusterNodeReadBytes, StateT.run, hc]
  rw [readBytes, bind_run, hread, Option.bind_some]
  by_cases hrc : (networkingPollRead n c).1.1 = 0
  · rw [if_neg (not_ne_iff.mpr hrc), if_pos hrc]
    rfl
  · rw [if_pos hrc, if_neg hrc]
    rfl

/-- A connection that is closed gives nothing to read. -/
theorem yields_readBytes_closed {s : Session} (hs : s.conn = none) (n : Nat) :
    Yields (readBytes n) s fun out s' => s'.conn = none ∧ out.1 ≠ 0 ∧ s.Gains s' 0 := by
  refine ⟨(ArakoonReturnCode.clientNotConnected.rc, []), s, ?_, hs, by decide, .refl s⟩
  obtain ⟨heap, conn, lastError⟩ := s
  obtain rfl : conn = none := hs
  rfl

theorem follows_readBytes (n : Nat) (s : Session) :
    Follows (readBytes n) (take () n) s (fun bs out s' => out = (0, bs) ∧ bs.length = n ∧ s.Gains s' 0)
      (fun out s' => out.1 ≠ 0 ∧ s.Gains s' 0) := by
  intro c hc
  refine ⟨_, _, readBytes_run hc n, ?_⟩
  cases hread : c.peer.reads c.reads with
  | some rc =>
      have hpoll : (networkingPollRead n c).1 = (rc.1, []) := by simp [networkingPollRead, hread]
      rw [hpoll]
      refine .inr ⟨if_neg rc.2, fun hdelivers => ?_, rc.2, ⟨(add_zero _).symm, rfl⟩⟩
      have hprompt := hdelivers.1 c.reads
      rw [hread] at hprompt
      cases hprompt
  | none =>
      by_cases hn : n ≤ c.stream.length
      · have hpoll : networkingPollRead n c = ((0, c.stream.take n), c.take n) := by
          simp [networkingPollRead, hread, hn, ArakoonReturnCode.rc]
        rw [hpoll]
        refine .inl ⟨c.stream.take n, c.stream.drop n, c.take n, ?_, by simp, c.take_after n, rfl, by simp [hn],
          ⟨(add_zero _).symm, rfl⟩⟩
        simp [Reading.take, StateT.run, hn]
      · have hpoll : (networkingPollRead n c).1 = (c.peer.ending.1, []) := by simp [networkingPollRead, hread, hn]
        rw [hpoll]
        refine .inr ⟨if_neg c.peer.ending.2, fun hdelivers => ?_, c.peer.ending.2, ⟨(add_zero _).symm, rfl⟩⟩
        obtain ⟨-, bs, rest, htake⟩ := hdelivers
        simp [Reading.take, StateT.run, hn] at htake

/-- One byte, as a token. -/
theorem follows_readByte (s : Session) :
    Follows (readBytes 1) (token ()) s (fun b out s' => out = (0, [b]) ∧ s.Gains s' 0)
      (fun out s' => out.1 ≠ 0 ∧ s.Gains s' 0) := by
  intro c hc
  apply (follows_readBytes 1 s c hc).mono
  intro out s' h
  rcases h with ⟨bs, rest, c', hp, hc', hafter, rfl, -, hgains⟩ | ⟨hnone, hstuck, hcut⟩
  · obtain ⟨word, ⟨rfl, hlen⟩, hstream⟩ := (Reads.take () 1 _ _ _).mp hp
    obtain ⟨b, rfl⟩ := List.length_eq_one_iff.mp hlen
    exact .inl ⟨b, rest, c', by rw [hstream]; rfl, hc', hafter, rfl, hgains⟩
  · refine .inr ⟨hnone, fun hdelivers => hstuck ⟨hdelivers.1, ?_⟩, hcut⟩
    obtain ⟨-, b, rest, htoken⟩ := hdelivers
    obtain ⟨word, rfl, hstream⟩ := (Reads.token () _ _ _).mp htoken
    exact ⟨[b], rest, (Reads.take () 1 _ _ _).mpr ⟨[b], ⟨rfl, rfl⟩, hstream⟩⟩

theorem follows_readUInt32 (r : Nat) (s : Session) :
    Follows (readUInt32 r) (u32 ()) s (fun n out s' => out = (n, 0) ∧ n < 2 ^ 32 ∧ s.Gains s' 0)
      (fun out s' => out.1 = r ∧ out.2 ≠ 0 ∧ s.Gains s' 0) := by
  refine (follows_readBytes 4 s).bind ?_ ?_
  · intro bs _ s₁ hdone
    obtain ⟨rfl, -, hgains⟩ := hdone
    exact Follows.pure ⟨rfl, ofLe32_lt bs, hgains⟩
  · intro pair s₁ hnone hcut
    obtain ⟨rc, bs⟩ := pair
    obtain ⟨hrc, hgains⟩ := hcut
    dsimp only at hrc ⊢
    rw [if_neg hrc]
    exact Yields.pure ⟨hnone, rfl, hrc, hgains⟩

theorem follows_readInt32 (r : Int) (s : Session) :
    Follows (readInt32 r) wireInt32 s (fun n out s' => out = (n, 0) ∧ s.Gains s' 0)
      (fun out s' => out.1 = r ∧ out.2 ≠ 0 ∧ s.Gains s' 0) := by
  have hreader : wireInt32 = take () 4 >>= fun bs => pure (int32 (ofLe32 bs)) := by
    simp only [wireInt32, u32, bind_assoc, pure_bind]
  rw [hreader]
  refine (follows_readBytes 4 s).bind ?_ ?_
  · intro bs _ s₁ hdone
    obtain ⟨rfl, -, hgains⟩ := hdone
    exact Follows.pure ⟨rfl, hgains⟩
  · intro pair s₁ hnone hcut
    obtain ⟨rc, bs⟩ := pair
    obtain ⟨hrc, hgains⟩ := hcut
    dsimp only at hrc ⊢
    rw [if_neg hrc]
    exact Yields.pure ⟨hnone, rfl, hrc, hgains⟩

theorem follows_readRc (s : Session) :
    Follows readRc (u32 ()) s (fun n rc s' => rc = int32 n ∧ n < 2 ^ 32 ∧ s.Gains s' 0)
      (fun rc s' => rc ≠ 0 ∧ s.Gains s' 0) := by
  have hreader : (u32 () : Reader Unit UInt8 Nat) = u32 () >>= pure := (bind_pure _).symm
  rw [hreader]
  refine (follows_readUInt32 0 s).bind ?_ ?_
  · intro n _ s₁ hdone
    obtain ⟨rfl, hlt, hgains⟩ := hdone
    exact Follows.pure ⟨rfl, hlt, hgains⟩
  · intro out s₁ hnone hcut
    obtain ⟨d, rc⟩ := out
    obtain ⟨-, hrc, hgains⟩ := hcut
    dsimp only at hrc ⊢
    rw [if_pos hrc]
    exact Yields.pure ⟨hnone, hrc, hgains⟩

/-- The value a boolean is read as. -/
def boolOf (b : Bool) : ArakoonBool := if b then boolTrue else boolFalse

theorem follows_readBool (s : Session) :
    Follows readBool wireBool s (fun b out s' => out = (boolOf b, 0) ∧ s.Gains s' 0)
      (fun out s' => out.2 ≠ 0 ∧ s.Gains s' 0) := by
  refine (follows_readByte s).bind ?_ ?_
  · intro b _ s₁ hdone
    obtain ⟨rfl, hgains⟩ := hdone
    refine Follows.pure ⟨?_, hgains⟩
    by_cases hb : b = boolFalse <;> simp [hb, boolOf, ArakoonBool.truth]
  · intro r s₁ hnone hcut
    obtain ⟨rc, v⟩ := r
    obtain ⟨hrc, hgains⟩ := hcut
    dsimp only at hrc ⊢
    rw [if_neg hrc]
    exact Yields.pure ⟨hnone, hrc, hgains⟩

/-! ### Strings and lists -/

section Strings

variable {alloc : Nat → Bool}

/-- On a closed connection no string is read. -/
theorem yields_readString_closed (a : Data) (rc : ArakoonRc) {s : Session} (hs : s.conn = none) :
    Yields (readString alloc a rc) s fun out s' => s'.conn = none ∧ out.2 ≠ 0 ∧ s.Gains s' 0 := by
  refine Yields.bind (P := fun (out : Nat × ArakoonRc) s' => s'.conn = none ∧ out.2 ≠ 0 ∧ s.Gains s' 0) ?_ ?_
  · apply (yields_readBytes_closed hs 4).bind
    intro out s₁ h
    obtain ⟨rc, bs⟩ := out
    obtain ⟨hnone, hrc, hgains⟩ := h
    dsimp only at hrc ⊢
    rw [if_neg hrc]
    exact Yields.pure ⟨hnone, hrc, hgains⟩
  · intro r s₁ hdone
    obtain ⟨d, rc'⟩ := r
    obtain ⟨hnone, hrc, hgains⟩ := hdone
    dsimp only at hrc ⊢
    rw [if_pos hrc]
    exact Yields.pure ⟨hnone, hrc, hgains⟩

variable (halloc : ∀ n, alloc n = true)
include halloc

/-- A string of length zero is read as the placeholder and leaves the code as it was. -/
theorem follows_readString (a : Data) (rc : ArakoonRc) (s : Session) :
    Follows (readString alloc a rc) wireString s
      (fun bytes out s' => out.1.value = some bytes ∧ out.1.Tight ∧ (rc = 0 → out.2 = 0) ∧ s.Gains s' out.1.net)
      (fun out s' => out.2 ≠ 0 ∧ s.Gains s' 0) := by
  refine (follows_readUInt32 0 s).bind ?_ ?_
  · intro l _ s₁ hdone
    obtain ⟨rfl, -, hgains₁⟩ := hdone
    dsimp only
    rw [if_neg (not_ne_iff.mpr rfl)]
    by_cases hl : l = 0
    · subst hl
      rw [if_pos rfl]
      have hreader : (take () 0 : Reader Unit UInt8 Bytes) = pure [] := by
        funext input
        rfl
      rw [hreader]
      exact Follows.pure ⟨rfl, tight_zeroLength, id, hgains₁⟩
    · rw [if_neg hl]
      apply Follows.after (yields_memNew halloc s₁)
      intro _ s₂ hdone
      obtain ⟨id, rfl, hgains₂⟩ := hdone
      have hreader : (take () l : Reader Unit UInt8 Bytes) = take () l >>= pure := (bind_pure _).symm
      rw [hreader]
      have hgains : s.Gains s₂ (Ptr.one (.block id)) := (hgains₁.trans hgains₂).congr (zero_add _)
      refine (follows_readBytes l s₂).bind ?_ ?_
      · intro bs _ s₃ hdone
        obtain ⟨rfl, hlen, hgains₃⟩ := hdone
        have htight : (Data.block id bs).Tight := by
          intro _ hdone
          obtain ⟨rfl, rfl⟩ := hdone
          exact hl hlen.symm
        exact Follows.pure ⟨rfl, htight, fun _ => rfl, (hgains.trans hgains₃).congr (add_zero _)⟩
      · intro r s₃ hnone hcut
        obtain ⟨rc', bs⟩ := r
        obtain ⟨hrc, hgains₃⟩ := hcut
        dsimp only at hrc ⊢
        rw [if_neg hrc]
        refine (yields_memFree (.block id) s₃).bind fun _ s₄ h => Yields.pure ⟨h.1.trans hnone, hrc, ?_⟩
        exact ((hgains.trans hgains₃).trans h.2).congr (by abel)
  · intro r s₁ hnone hcut
    obtain ⟨d, rc'⟩ := r
    obtain ⟨-, hrc, hgains⟩ := hcut
    dsimp only at hrc ⊢
    rw [if_pos hrc]
    exact Yields.pure ⟨hnone, hrc, hgains⟩

theorem follows_readStringOption (a : Data) (s : Session) :
    Follows (readStringOption alloc a 0) wireStringOption s
      (fun o out s' => out.1.value = o ∧ out.2 = 0 ∧ s.Gains s' out.1.net)
      (fun out s' => out.2 ≠ 0 ∧ s.Gains s' 0) := by
  have hreader : wireStringOption = token () >>= fun b =>
      if ArakoonBool.truth b then wireString >>= fun s => pure (some s) else pure none := by
    simp only [wireStringOption, wireBool, bind_assoc, pure_bind]
  rw [hreader]
  refine (follows_readByte s).bind ?_ ?_
  · intro b _ s₁ hdone
    obtain ⟨rfl, hgains₁⟩ := hdone
    dsimp only
    rw [if_neg (not_ne_iff.mpr rfl)]
    by_cases hb : b = 0
    · subst hb
      rw [if_pos rfl, if_neg (by decide)]
      exact Follows.pure ⟨rfl, rfl, hgains₁⟩
    · rw [if_neg (by simpa using hb), if_pos (truth_eq_true.mpr hb)]
      have hprogram : readString alloc a 0 = readString alloc a 0 >>= pure := (bind_pure _).symm
      rw [hprogram]
      refine (follows_readString halloc a 0 s₁).bind ?_ ?_
      · intro bytes out s₂ hdone
        obtain ⟨hvalue, -, hrc, hgains₂⟩ := hdone
        exact Follows.pure ⟨hvalue, hrc rfl, (hgains₁.trans hgains₂).congr (zero_add _)⟩
      · intro out s₂ hnone hcut
        obtain ⟨hrc, hgains₂⟩ := hcut
        exact Yields.pure ⟨hnone, hrc, (hgains₁.trans hgains₂).congr (zero_add _)⟩
  · intro r s₁ hnone hcut
    obtain ⟨rc, v⟩ := r
    obtain ⟨hrc, hgains⟩ := hcut
    dsimp only at hrc ⊢
    rw [if_pos hrc]
    exact Yields.pure ⟨hnone, hrc, hgains⟩

/-- The message of an error goes to the error slot. -/
theorem follows_handleError {rc : ArakoonRc} (hrc : rc ≠ 0) (s : Session) :
    Follows (handleError alloc rc) wireString s
      (fun msg _ s' => s'.lastError.value = some msg ∧ s'.heap.net = s.heap.net + s'.lastError.net)
      (fun _ s' => s.Gains s' 0) := by
  have hreader : wireString = wireString >>= pure := (bind_pure _).symm
  rw [hreader, handleError, if_pos hrc]
  refine (follows_readString halloc .null 0 s).bind ?_ ?_
  · intro msg out s₁ hdone
    obtain ⟨d, errRc⟩ := out
    obtain ⟨hvalue, -, herr, hgains⟩ := hdone
    dsimp only at hvalue herr hgains ⊢
    rw [if_neg (not_ne_iff.mpr (herr rfl))]
    intro c hc
    exact ⟨(), _, rfl, .inl ⟨msg, c.stream, c, rfl, hc, .refl c, hvalue, hgains.net⟩⟩
  · intro out s₁ hnone hcut
    obtain ⟨d, errRc⟩ := out
    obtain ⟨herr, hgains⟩ := hcut
    dsimp only at herr ⊢
    rw [if_pos herr]
    exact Yields.pure ⟨hnone, hgains⟩

end Strings

section Lists

variable {alloc : Nat → Bool} (halloc : ∀ n, alloc n = true)

def ValueListItem.net (item : ValueListItem) : Ptr → Int := Ptr.one (.block item.id) + item.value.net

/-- What is owed for a list: its own block, and for each item its block and the copy of the value. -/
def ValueList.net (list : ValueList) : Ptr → Int := Ptr.one (.block list.id) + (list.items.map ValueListItem.net).sum

def KeyValueListItem.net (item : KeyValueListItem) : Ptr → Int :=
  Ptr.one (.block item.id) + (item.key.net + item.value.net)

def KeyValueList.net (list : KeyValueList) : Ptr → Int :=
  Ptr.one (.block list.id) + (list.items.map KeyValueListItem.net).sum

def ValueList.Tight (list : ValueList) : Prop := ∀ item ∈ list.items, item.value.Tight

def KeyValueList.Tight (list : KeyValueList) : Prop := ∀ item ∈ list.items, item.key.Tight ∧ item.value.Tight

theorem yields_valueListItemsFree {items : List ValueListItem} (h : ∀ item ∈ items, item.value.Tight) (s : Session) :
    Yields (valueListItemsFree items) s fun _ s' => s'.conn = s.conn ∧
      s.Gains s' (-(items.map ValueListItem.net).sum) := by
  induction items generalizing s with
  | nil => exact Yields.pure ⟨rfl, (Session.Gains.refl s).congr neg_zero.symm⟩
  | cons item items ih =>
      apply (yields_memMaybeFree (h item List.mem_cons_self) s).bind
      intro _ s₁ h₁
      apply (yields_memFree (.block item.id) s₁).bind
      intro _ s₂ h₂
      apply (ih (fun x hx => h x (List.mem_cons_of_mem item hx)) s₂).mono
      intro _ s₃ h₃
      refine ⟨h₃.1.trans (h₂.1.trans h₁.1), ((h₁.2.trans h₂.2).trans h₃.2).congr ?_⟩
      rw [List.map_cons, List.sum_cons, ValueListItem.net]
      abel

/-- Freeing a list settles all that is owed for it. -/
theorem yields_valueListFree {list : ValueList} (h : list.Tight) (s : Session) :
    Yields (valueListFree list) s fun _ s' => s'.conn = s.conn ∧ s.Gains s' (-list.net) := by
  apply (yields_valueListItemsFree h s).bind
  intro _ s₁ h₁
  apply (yields_memFree (.block list.id) s₁).mono
  intro _ s₂ h₂
  refine ⟨h₂.1.trans h₁.1, (h₁.2.trans h₂.2).congr ?_⟩
  rw [ValueList.net]
  abel

theorem yields_keyValueListItemsFree {items : List KeyValueListItem}
    (h : ∀ item ∈ items, item.key.Tight ∧ item.value.Tight) (s : Session) :
    Yields (keyValueListItemsFree items) s fun _ s' => s'.conn = s.conn ∧
      s.Gains s' (-(items.map KeyValueListItem.net).sum) := by
  induction items generalizing s with
  | nil => exact Yields.pure ⟨rfl, (Session.Gains.refl s).congr neg_zero.symm⟩
  | cons item items ih =>
      apply (yields_memMaybeFree (h item List.mem_cons_self).1 s).bind
      intro _ s₁ h₁
      apply (yields_memMaybeFree (h item List.mem_cons_self).2 s₁).bind
      intro _ s₂ h₂
      apply (yields_memFree (.block item.id) s₂).bind
      intro _ s₃ h₃
      apply (ih (fun x hx => h x (List.mem_cons_of_mem item hx)) s₃).mono
      intro _ s₄ h₄
      refine ⟨h₄.1.trans (h₃.1.trans (h₂.1.trans h₁.1)), (((h₁.2.trans h₂.2).trans h₃.2).trans h₄.2).congr ?_⟩
      rw [List.map_cons, List.sum_cons, KeyValueListItem.net]
      abel

theorem yields_keyValueListFree {list : KeyValueList} (h : list.Tight) (s : Session) :
    Yields (keyValueListFree list) s fun _ s' => s'.conn = s.conn ∧ s.Gains s' (-list.net) := by
  apply (yields_keyValueListItemsFree h s).bind
  intro _ s₁ h₁
  apply (yields_memFree (.block list.id) s₁).mono
  intro _ s₂ h₂
  refine ⟨h₂.1.trans h₁.1, (h₁.2.trans h₂.2).congr ?_⟩
  rw [KeyValueList.net]
  abel

include halloc

/-- A list gets a copy of its own of every value. -/
theorem yields_copyValue {d : Data} {bytes : Bytes} (hd : d.value = some bytes) (s : Session) :
    Yields (copyValue alloc d) s fun out s' => s'.conn = s.conn ∧
      ∃ copy, out = some copy ∧ copy.value = some bytes ∧ copy.Tight ∧ s.Gains s' copy.net := by
  by_cases hsize : d.size = 0
  · rw [copyValue, if_pos hsize]
    have hbytes : bytes = [] := by
      cases d with
      | null => cases hd
      | zeroLength => exact (Option.some.inj hd).symm
      | block id bs =>
          obtain rfl : bs = bytes := Option.some.inj hd
          exact List.eq_nil_of_length_eq_zero hsize
    exact Yields.pure ⟨rfl, .zeroLength, rfl, by rw [hbytes]; rfl, tight_zeroLength, .refl s⟩
  · rw [copyValue, if_neg hsize]
    apply (yields_memNew halloc s).bind
    intro _ s₁ hdone
    obtain ⟨hconn, id, rfl, hgains⟩ := hdone
    rw [hd, Option.getD_some]
    refine Yields.pure ⟨hconn, _, rfl, rfl, ?_, hgains⟩
    intro id' hblock
    obtain ⟨-, rfl⟩ := Data.block.inj hblock
    apply hsize
    cases d with
    | null => rfl
    | zeroLength => rfl
    | block id bs =>
        obtain rfl : bs = [] := Option.some.inj hd
        rfl

/-- The value comes to stand in front of the others. -/
theorem yields_valueListPrepend {list : ValueList} (hlist : list.Tight) {d : Data} {bytes : Bytes}
    (hd : d.value = some bytes) (s : Session) :
    Yields (valueListPrepend alloc list d) s fun out s' => s'.conn = s.conn ∧
      ∃ item : ValueListItem, out = (⟨list.id, item :: list.items⟩, 0) ∧ item.value.value = some bytes ∧
        out.1.Tight ∧ s.Gains s' (out.1.net - list.net) := by
  apply (yields_memNew halloc s).bind
  intro _ s₁ hdone
  obtain ⟨hconn₁, id, rfl, hgains₁⟩ := hdone
  apply (yields_copyValue halloc hd s₁).bind
  intro _ s₂ hdone
  obtain ⟨hconn₂, copy, rfl, hvalue, htight, hgains₂⟩ := hdone
  refine Yields.pure ⟨hconn₂.trans hconn₁, ⟨id, copy⟩, rfl, hvalue, ?_, (hgains₁.trans hgains₂).congr ?_⟩
  · intro item hitem
    rcases List.mem_cons.mp hitem with rfl | hitem
    · exact htight
    · exact hlist item hitem
  · simp only [ValueList.net, List.map_cons, List.sum_cons, ValueListItem.net]
    abel

theorem yields_keyValueListPrepend {list : KeyValueList} (hlist : list.Tight) {k v : Data} {key value : Bytes}
    (hk : k.value = some key) (hv : v.value = some value) (s : Session) :
    Yields (keyValueListPrepend alloc list k v) s fun out s' => s'.conn = s.conn ∧
      ∃ item : KeyValueListItem, out = (⟨list.id, item :: list.items⟩, 0) ∧ item.key.value = some key ∧
        item.value.value = some value ∧ out.1.Tight ∧ s.Gains s' (out.1.net - list.net) := by
  apply (yields_memNew halloc s).bind
  intro _ s₁ hdone
  obtain ⟨hconn₁, id, rfl, hgains₁⟩ := hdone
  apply (yields_copyValue halloc hk s₁).bind
  intro _ s₂ hdone
  obtain ⟨hconn₂, keyCopy, rfl, hkey, hkeyTight, hgains₂⟩ := hdone
  apply (yields_copyValue halloc hv s₂).bind
  intro _ s₃ hdone
  obtain ⟨hconn₃, valueCopy, rfl, hvalue, hvalueTight, hgains₃⟩ := hdone
  refine Yields.pure ⟨hconn₃.trans (hconn₂.trans hconn₁), ⟨id, keyCopy, valueCopy⟩, rfl, hkey, hvalue, ?_,
    ((hgains₁.trans hgains₂).trans hgains₃).congr ?_⟩
  · intro item hitem
    rcases List.mem_cons.mp hitem with rfl | hitem
    · exact ⟨hkeyTight, hvalueTight⟩
    · exact hlist item hitem
  · simp only [KeyValueList.net, List.map_cons, List.sum_cons, KeyValueListItem.net]
    abel

/-- What the items of a list hold, from the first to the last. -/
def ValueList.contents (list : ValueList) : List (Option Bytes) := list.items.map fun item => item.value.value

def KeyValueList.contents (list : KeyValueList) : List (Option Bytes × Option Bytes) :=
  list.items.map fun item => (item.key.value, item.value.value)

/-- Every string that is read comes to stand in front of those read before it. -/
theorem follows_readStrings (cnt : Nat) {a : ValueList} (ha : a.Tight) (s : Session) :
    Follows (readStrings alloc cnt a 0) (times wireString cnt) s
      (fun ss out s' => out.2 = 0 ∧ out.1.contents = ss.reverse.map some ++ a.contents ∧ out.1.Tight ∧
        s.Gains s' (out.1.net - a.net))
      (fun out s' => out.2 ≠ 0 ∧ out.1.Tight ∧ s.Gains s' (out.1.net - a.net)) := by
  induction cnt generalizing a s with
  | zero => exact Follows.pure ⟨rfl, rfl, ha, (Session.Gains.refl s).congr (sub_self _).symm⟩
  | succ cnt ih =>
      refine (follows_readString halloc .null 0 s).bind ?_ ?_
      · intro bytes r s₁ hdone
        obtain ⟨d, rc⟩ := r
        obtain ⟨hvalue, htight, hrc, hgains₁⟩ := hdone
        obtain rfl : rc = 0 := hrc rfl
        dsimp only
        rw [if_neg (not_ne_iff.mpr rfl)]
        apply Follows.after (yields_valueListPrepend halloc ha hvalue s₁)
        intro _ s₂ hdone
        obtain ⟨item, rfl, hitem, hlist, hgains₂⟩ := hdone
        dsimp only
        apply Follows.after (yields_memMaybeFree htight s₂)
        intro _ s₃ hgains₃
        rw [if_neg (not_ne_iff.mpr rfl)]
        have hgains := (hgains₁.trans hgains₂).trans hgains₃
        refine ((ih hlist s₃).mono (fun ss out s' h => h) ?_).map ?_
        · intro out s' hdone
          obtain ⟨hrc, hout, hgains₄⟩ := hdone
          exact ⟨hrc, hout, (hgains.trans hgains₄).congr (by dsimp only; abel)⟩
        · intro ss out s' hdone
          obtain ⟨hrc, hcontents, hout, hgains₄⟩ := hdone
          refine ⟨hrc, ?_, hout, (hgains.trans hgains₄).congr (by dsimp only; abel)⟩
          rw [hcontents]
          simp [ValueList.contents, hitem]
      · intro r s₁ hnone hcut
        obtain ⟨d, rc⟩ := r
        obtain ⟨hrc, hgains⟩ := hcut
        dsimp only at hrc ⊢
        rw [if_pos hrc]
        exact Yields.pure ⟨hnone, hrc, ha, hgains.congr (sub_self _).symm⟩

theorem follows_readStringList {a : ValueList} (ha : a.Tight) (s : Session) :
    Follows (readStringList alloc a) (wireList wireString) s
      (fun ss out s' => out.2 = 0 ∧ out.1.contents = ss.reverse.map some ++ a.contents ∧ out.1.Tight ∧
        s.Gains s' (out.1.net - a.net))
      (fun out s' => out.2 ≠ 0 ∧ out.1.Tight ∧ s.Gains s' (out.1.net - a.net)) := by
  refine (follows_readUInt32 0 s).bind ?_ ?_
  · intro cnt _ s₁ hdone
    obtain ⟨rfl, -, hgains₁⟩ := hdone
    dsimp only
    rw [if_pos rfl]
    refine (follows_readStrings halloc cnt ha s₁).mono ?_ ?_
    · intro ss out s' hdone
      obtain ⟨hrc, hcontents, hout, hgains⟩ := hdone
      exact ⟨hrc, hcontents, hout, (hgains₁.trans hgains).congr (zero_add _)⟩
    · intro out s' hdone
      obtain ⟨hrc, hout, hgains⟩ := hdone
      exact ⟨hrc, hout, (hgains₁.trans hgains).congr (zero_add _)⟩
  · intro r s₁ hnone hcut
    obtain ⟨cnt, rc⟩ := r
    obtain ⟨-, hrc, hgains⟩ := hcut
    dsimp only at hrc ⊢
    rw [if_neg hrc]
    exact Yields.pure ⟨hnone, hrc, ha, hgains.congr (sub_self _).symm⟩

/-- The pair that an item of a key-value list holds. -/
def pairContents (p : Bytes × Bytes) : Option Bytes × Option Bytes := (some p.1, some p.2)

theorem follows_readStringPairs (cnt : Nat) {a : KeyValueList} (ha : a.Tight) (s : Session) :
    Follows (readStringPairs alloc cnt a 0) (times wirePair cnt) s
      (fun ps out s' => out.2 = 0 ∧ out.1.contents = ps.reverse.map pairContents ++ a.contents ∧ out.1.Tight ∧
        s.Gains s' (out.1.net - a.net))
      (fun out s' => out.2 ≠ 0 ∧ out.1.Tight ∧ s.Gains s' (out.1.net - a.net)) := by
  induction cnt generalizing a s with
  | zero => exact Follows.pure ⟨rfl, rfl, ha, (Session.Gains.refl s).congr (sub_self _).symm⟩
  | succ cnt ih =>
      have hreader : times wirePair (cnt + 1) = wireString >>= fun key => wireString >>= fun value =>
          times wirePair cnt >>= fun ps => pure ((key, value) :: ps) := by
        simp only [times, wirePair, bind_assoc, pure_bind]
      rw [hreader]
      refine (follows_readString halloc .null 0 s).bind ?_ ?_
      · intro key r s₁ hdone
        obtain ⟨k, rc⟩ := r
        obtain ⟨hkey, hkeyTight, hrc, hgains₁⟩ := hdone
        obtain rfl : rc = 0 := hrc rfl
        dsimp only
        rw [if_neg (not_ne_iff.mpr rfl)]
        refine (follows_readString halloc .null 0 s₁).bind ?_ ?_
        · intro value r s₂ hdone
          obtain ⟨v, rc⟩ := r
          obtain ⟨hvalue, hvalueTight, hrc, hgains₂⟩ := hdone
          obtain rfl : rc = 0 := hrc rfl
          dsimp only
          rw [if_neg (not_ne_iff.mpr rfl)]
          apply Follows.after (yields_keyValueListPrepend halloc ha hkey hvalue s₂)
          intro _ s₃ hdone
          obtain ⟨item, rfl, hitemKey, hitemValue, hlist, hgains₃⟩ := hdone
          dsimp only
          apply Follows.after (yields_memMaybeFree hkeyTight s₃)
          intro _ s₄ hgains₄
          apply Follows.after (yields_memMaybeFree hvalueTight s₄)
          intro _ s₅ hgains₅
          rw [if_neg (not_ne_iff.mpr rfl)]
          have hgains := (((hgains₁.trans hgains₂).trans hgains₃).trans hgains₄).trans hgains₅
          refine ((ih hlist s₅).mono (fun ps out s' h => h) ?_).map ?_
          · intro out s' hdone
            obtain ⟨hrc, hout, hgains₆⟩ := hdone
            exact ⟨hrc, hout, (hgains.trans hgains₆).congr (by dsimp only; abel)⟩
          · intro ps out s' hdone
            obtain ⟨hrc, hcontents, hout, hgains₆⟩ := hdone
            refine ⟨hrc, ?_, hout, (hgains.trans hgains₆).congr (by dsimp only; abel)⟩
            rw [hcontents]
            simp [KeyValueList.contents, pairContents, hitemKey, hitemValue]
        · intro r s₂ hnone hcut
          obtain ⟨v, rc⟩ := r
          obtain ⟨hrc, hgains₂⟩ := hcut
          dsimp only at hrc ⊢
          rw [if_pos hrc]
          refine (yields_memMaybeFree hkeyTight s₂).bind fun _ s₃ h₃ => Yields.pure ⟨h₃.1.trans hnone, hrc, ha, ?_⟩
          exact ((hgains₁.trans hgains₂).trans h₃.2).congr (by dsimp only; abel)
      · intro r s₁ hnone hcut
        obtain ⟨k, rc⟩ := r
        obtain ⟨hrc, hgains⟩ := hcut
        dsimp only at hrc ⊢
        rw [if_pos hrc]
        exact Yields.pure ⟨hnone, hrc, ha, hgains.congr (sub_self _).symm⟩

theorem follows_readStringStringList {a : KeyValueList} (ha : a.Tight) (s : Session) :
    Follows (readStringStringList alloc a) (wireList wirePair) s
      (fun ps out s' => out.2 = 0 ∧ out.1.contents = ps.reverse.map pairContents ++ a.contents ∧ out.1.Tight ∧
        s.Gains s' (out.1.net - a.net))
      (fun out s' => out.2 ≠ 0 ∧ out.1.Tight ∧ s.Gains s' (out.1.net - a.net)) := by
  refine (follows_readUInt32 0 s).bind ?_ ?_
  · intro cnt _ s₁ hdone
    obtain ⟨rfl, -, hgains₁⟩ := hdone
    dsimp only
    rw [if_pos rfl]
    refine (follows_readStringPairs halloc cnt ha s₁).mono ?_ ?_
    · intro ps out s' hdone
      obtain ⟨hrc, hcontents, hout, hgains⟩ := hdone
      exact ⟨hrc, hcontents, hout, (hgains₁.trans hgains).congr (zero_add _)⟩
    · intro out s' hdone
      obtain ⟨hrc, hout, hgains⟩ := hdone
      exact ⟨hrc, hout, (hgains₁.trans hgains).congr (zero_add _)⟩
  · intro r s₁ hnone hcut
    obtain ⟨cnt, rc⟩ := r
    obtain ⟨-, hrc, hgains⟩ := hcut
    dsimp only at hrc ⊢
    rw [if_neg hrc]
    exact Yields.pure ⟨hnone, hrc, ha, hgains.congr (sub_self _).symm⟩

end Lists

end Crakoon
