import Mathlib.Data.List.Basic
import Mathlib.Tactic.Common

/-!
# Readers of self-delimiting formats

A reader takes one value off the front of a string of tokens and leaves the rest, or fails. Two
statements about a reader matter. `Parses p bs a`: whatever follows, `p` reads exactly `bs` and
yields `a`; it composes along `do` blocks and makes a format uniquely decodable and free of proper
prefixes. `Reads p R`: `p` succeeds on exactly the strings that start with a word of the language
`R`; it is what makes success of `p` a statement about its input alone.
-/

namespace Reading

/-- Takes a value of type `α` off the front of a string of tokens, or fails with an `ε`. -/
abbrev Reader (ε τ α : Type) := StateT (List τ) (Except ε) α

variable {ε σ τ α β : Type}

/-- The next token; `e` is the failure at the end of the input. -/
def token (e : ε) : Reader ε τ τ := fun
  | [] => .error e
  | t :: rest => .ok (t, rest)

/-- The next `n` tokens; `e` is the failure where fewer are left. -/
def take (e : ε) (n : Nat) : Reader ε τ (List τ) := fun input =>
  if n ≤ input.length then .ok (input.take n, input.drop n) else .error e

/-- Gives up, whatever the input is. -/
def fail (e : ε) : Reader ε τ α := fun _ => .error e

/-- `n` values, one after the other. -/
def times (p : Reader ε τ α) : Nat → Reader ε τ (List α)
  | 0 => pure []
  | n + 1 => do
      let first ← p
      let others ← times p n
      pure (first :: others)

/-- Whatever follows it, `p` reads exactly `bs` and yields `a`. -/
def Parses (p : Reader ε τ α) (bs : List τ) (a : α) : Prop :=
  ∀ rest, p.run (bs ++ rest) = .ok (a, rest)

/-- `p` succeeds on the strings that start with a word of `R`, and reads that word. -/
def Reads (p : Reader ε τ α) (R : α → List τ → Prop) : Prop :=
  ∀ input a rest, p.run input = .ok (a, rest) ↔ ∃ bs, R a bs ∧ input = bs ++ rest

/-- `p` does not fail with `e`, whatever it is started on. -/
def Never (e : ε) (p : StateT σ (Except ε) α) : Prop := ∀ s, p.run s ≠ .error e

theorem run_bind (p : StateT σ (Except ε) α) (f : α → StateT σ (Except ε) β) (s : σ) :
    (p >>= f).run s = p.run s >>= fun out => (f out.1).run out.2 := rfl

theorem ok_bind (a : α) (f : α → Except ε β) : Except.ok a >>= f = f a := rfl

theorem bind_eq_ok {e : Except ε α} {f : α → Except ε β} {b : β} :
    e >>= f = .ok b ↔ ∃ a, e = .ok a ∧ f a = .ok b := by
  cases e with
  | error e => simp [bind, Except.bind]
  | ok a => simp [bind, Except.bind]

theorem bind_eq_error {e : Except ε α} {f : α → Except ε β} {x : ε} :
    e >>= f = .error x ↔ e = .error x ∨ ∃ a, e = .ok a ∧ f a = .error x := by
  cases e with
  | error e => simp [bind, Except.bind]
  | ok a => simp [bind, Except.bind]

namespace Parses

theorem pure (a : α) : Parses (Pure.pure a : Reader ε τ α) [] a := fun _ => rfl

theorem bind {p : Reader ε τ α} {f : α → Reader ε τ β} {bs cs : List τ} {a : α} {b : β}
    (hp : Parses p bs a) (hf : Parses (f a) cs b) : Parses (p >>= f) (bs ++ cs) b := by
  intro rest
  rw [run_bind, List.append_assoc, hp]
  exact hf rest

theorem map {p : Reader ε τ α} {bs : List τ} {a : α} (f : α → β) (hp : Parses p bs a) :
    Parses (p >>= fun x => Pure.pure (f x)) bs (f a) := by
  simpa using hp.bind (f := fun x => Pure.pure (f x)) (pure (f a))

theorem token (e : ε) (t : τ) : Parses (Reading.token e) [t] t := fun _ => rfl

theorem take (e : ε) {n : Nat} {bs : List τ} (hn : bs.length = n) :
    Parses (Reading.take e n) bs bs := by
  subst hn
  intro _
  simp [Reading.take, StateT.run]

theorem times {p : Reader ε τ α} {write : α → List τ} :
    ∀ {as : List α}, (∀ a ∈ as, Parses p (write a) a) →
      Parses (Reading.times p as.length) (as.flatMap write) as
  | [], _ => pure []
  | a :: as, h => by
      have hfirst := h a List.mem_cons_self
      have hothers : Parses (Reading.times p as.length) (as.flatMap write) as :=
        times fun x hx => h x (List.mem_cons_of_mem _ hx)
      exact hfirst.bind (hothers.map (a :: ·))

/-- Two words a reader parses, one at the front of the other, are the same word with the same
value: a format with a reader is uniquely decodable, and none of its words is a proper prefix of
another. -/
theorem eq_of_isPrefix {p : Reader ε τ α} {bs cs : List τ} {a b : α} (hp : Parses p bs a)
    (hq : Parses p cs b) (h : bs <+: cs) : a = b ∧ bs = cs := by
  obtain ⟨rest, rfl⟩ := h
  have hlong := hq []
  rw [List.append_nil] at hlong
  have hboth : (a, rest) = (b, []) := Except.ok.inj ((hp rest).symm.trans hlong)
  obtain ⟨hab, hrest⟩ := Prod.mk.inj hboth
  exact ⟨hab, by rw [hrest, List.append_nil]⟩

/-- A string is in one way a string of words, if none of them is empty. -/
theorem words_unique {p : Reader ε τ α} (hempty : ¬∃ out, p.run [] = .ok out) {words words' : List (List τ × α)}
    (h : ∀ w ∈ words, Parses p w.1 w.2) (h' : ∀ w ∈ words', Parses p w.1 w.2)
    (heq : words.flatMap Prod.fst = words'.flatMap Prod.fst) : words = words' := by
  have hne : ∀ {w : List τ × α} {others : List (List τ × α)}, Parses p w.1 w.2 →
      (w :: others).flatMap Prod.fst ≠ [] := by
    intro w others hw hnil
    rw [List.flatMap_cons, List.append_eq_nil_iff] at hnil
    have hnone := hw []
    rw [hnil.1] at hnone
    exact hempty ⟨_, hnone⟩
  induction words generalizing words' with
  | nil =>
      cases words' with
      | nil => rfl
      | cons w' others' => exact absurd heq.symm (hne (h' w' List.mem_cons_self))
  | cons w others ih =>
      cases words' with
      | nil => exact absurd heq (hne (h w List.mem_cons_self))
      | cons w' others' =>
          have hw := h w List.mem_cons_self
          have hw' := h' w' List.mem_cons_self
          rw [List.flatMap_cons, List.flatMap_cons] at heq
          have hread := hw (others.flatMap Prod.fst)
          rw [heq, hw'] at hread
          obtain ⟨hvalue, hothers⟩ := Prod.mk.inj (Except.ok.inj hread)
          rw [hothers] at heq
          have hfirst : w = w' := Prod.ext (List.append_cancel_right heq) hvalue.symm
          rw [hfirst, ih (fun x hx => h x (List.mem_cons_of_mem w hx)) (fun x hx => h' x (List.mem_cons_of_mem w' hx))
            hothers.symm]

end Parses

namespace Reads

theorem parses {p : Reader ε τ α} {R : α → List τ → Prop} (h : Reads p R) {a : α} {bs : List τ}
    (ha : R a bs) : Parses p bs a :=
  fun _ => (h _ _ _).mpr ⟨bs, ha, rfl⟩

theorem pure (a : α) : Reads (Pure.pure a : Reader ε τ α) fun b bs => b = a ∧ bs = [] := by
  intro input b rest
  change Except.ok (a, input) = Except.ok (b, rest) ↔ _
  simp only [Except.ok.injEq, Prod.mk.injEq]
  constructor
  · intro h
    obtain ⟨rfl, rfl⟩ := h
    exact ⟨[], ⟨rfl, rfl⟩, rfl⟩
  · intro h
    obtain ⟨_, ⟨rfl, rfl⟩, rfl⟩ := h
    exact ⟨rfl, rfl⟩

theorem bind {p : Reader ε τ α} {f : α → Reader ε τ β} {R : α → List τ → Prop}
    {S : α → β → List τ → Prop} (hp : Reads p R) (hf : ∀ a, Reads (f a) (S a)) :
    Reads (p >>= f) fun b bs => ∃ a cs ds, R a cs ∧ S a b ds ∧ bs = cs ++ ds := by
  intro input b rest
  rw [run_bind, bind_eq_ok]
  constructor
  · intro h
    obtain ⟨⟨a, mid⟩, hfirst, hsecond⟩ := h
    obtain ⟨cs, hcs, rfl⟩ := (hp _ _ _).mp hfirst
    obtain ⟨ds, hds, rfl⟩ := (hf a _ _ _).mp hsecond
    exact ⟨cs ++ ds, ⟨a, cs, ds, hcs, hds, rfl⟩, (List.append_assoc cs ds rest).symm⟩
  · intro h
    obtain ⟨_, ⟨a, cs, ds, hcs, hds, rfl⟩, rfl⟩ := h
    refine ⟨(a, ds ++ rest), ?_, (hf a _ _ _).mpr ⟨ds, hds, rfl⟩⟩
    rw [List.append_assoc]
    exact (hp _ _ _).mpr ⟨cs, hcs, rfl⟩

theorem congr {p : Reader ε τ α} {R S : α → List τ → Prop} (h : Reads p R)
    (hRS : ∀ a bs, R a bs ↔ S a bs) : Reads p S := by
  intro input a rest
  simp only [h input a rest, hRS]

theorem map {p : Reader ε τ α} {R : α → List τ → Prop} (f : α → β) (hp : Reads p R) :
    Reads (p >>= fun x => Pure.pure (f x)) fun b bs => ∃ a, R a bs ∧ b = f a := by
  apply (hp.bind fun a => pure (f a)).congr
  intro b bs
  constructor
  · intro h
    obtain ⟨a, cs, _, ha, ⟨hb, rfl⟩, rfl⟩ := h
    exact ⟨a, by simpa using ha, hb⟩
  · intro h
    obtain ⟨a, ha, hb⟩ := h
    exact ⟨a, bs, [], ha, ⟨hb, rfl⟩, by simp⟩

theorem fail (e : ε) : Reads (Reading.fail e : Reader ε τ α) fun _ _ => False := by
  intro input a rest
  simp [Reading.fail, StateT.run]

theorem ite {c : Prop} [Decidable c] {p q : Reader ε τ α} {R S : α → List τ → Prop} (hp : Reads p R)
    (hq : Reads q S) : Reads (if c then p else q) fun a bs => if c then R a bs else S a bs := by
  by_cases h : c
  · simpa [h] using hp
  · simpa [h] using hq

theorem token (e : ε) : Reads (Reading.token e : Reader ε τ τ) fun t bs => bs = [t] := by
  intro input t rest
  cases input with
  | nil => simp [Reading.token, StateT.run]
  | cons head tail => simp [Reading.token, StateT.run]

theorem take (e : ε) (n : Nat) :
    Reads (Reading.take e n : Reader ε τ (List τ)) fun a bs => bs = a ∧ a.length = n := by
  intro input a rest
  constructor
  · intro h
    by_cases hn : n ≤ input.length
    · simp only [Reading.take, StateT.run, if_pos hn, Except.ok.injEq, Prod.mk.injEq] at h
      obtain ⟨rfl, rfl⟩ := h
      exact ⟨input.take n, ⟨rfl, by simp [hn]⟩, (List.take_append_drop n input).symm⟩
    · simp [Reading.take, StateT.run, hn] at h
  · intro hdone
    obtain ⟨_, ⟨rfl, hn⟩, rfl⟩ := hdone
    exact Parses.take e hn rest

/-- The language of a counted repetition: the words of the values, in order. -/
inductive Many (R : α → List τ → Prop) : List α → List τ → Prop where
  | nil : Many R [] []
  | cons {a : α} {as : List α} {bs cs : List τ} (first : R a bs) (others : Many R as cs) :
      Many R (a :: as) (bs ++ cs)

theorem Many.exists {R : α → List τ → Prop} {as : List α} (h : ∀ a ∈ as, ∃ bs, R a bs) : ∃ bs, Many R as bs := by
  induction as with
  | nil => exact ⟨[], .nil⟩
  | cons a as ih =>
      obtain ⟨bs, hbs⟩ := h a List.mem_cons_self
      obtain ⟨cs, hcs⟩ := ih fun x hx => h x (List.mem_cons_of_mem a hx)
      exact ⟨bs ++ cs, .cons hbs hcs⟩

theorem times {p : Reader ε τ α} {R : α → List τ → Prop} (hp : Reads p R) :
    ∀ n, Reads (Reading.times p n) fun as bs => as.length = n ∧ Many R as bs
  | 0 => by
      apply (pure []).congr
      intro as bs
      constructor
      · intro h
        obtain ⟨rfl, rfl⟩ := h
        exact ⟨rfl, .nil⟩
      · intro h
        obtain ⟨hlen, hmany⟩ := h
        cases hmany with
        | nil => exact ⟨rfl, rfl⟩
        | cons first others => simp at hlen
  | n + 1 => by
      apply (hp.bind fun a => (times hp n).map (a :: ·)).congr
      intro as bs
      constructor
      · intro h
        obtain ⟨a, cs, ds, ha, ⟨others, ⟨hlen, hmany⟩, rfl⟩, rfl⟩ := h
        exact ⟨by simp [hlen], .cons ha hmany⟩
      · intro h
        obtain ⟨hlen, hmany⟩ := h
        cases hmany with
        | nil => simp at hlen
        | cons first others => exact ⟨_, _, _, first, ⟨_, ⟨by simpa using hlen, others⟩, rfl⟩, rfl⟩

end Reads

/-! ### Readers with a state -/

/-- Started in the state `s`, `p` recognises the language of its value and the state in which it ends. -/
def ReadsFrom {σ : Type} (s : σ) (p : StateT σ (Reader ε τ) α) (R : α → σ → List τ → Prop) : Prop :=
  Reads (p.run s) fun out bs => R out.1 out.2 bs

namespace ReadsFrom

variable {s : σ}

theorem congr {p : StateT σ (Reader ε τ) α} {R S : α → σ → List τ → Prop} (h : ReadsFrom s p R)
    (hRS : ∀ a s' bs, R a s' bs ↔ S a s' bs) : ReadsFrom s p S := Reads.congr h fun out bs => hRS out.1 out.2 bs

theorem pure (a : α) : ReadsFrom s (Pure.pure a : StateT σ (Reader ε τ) α) fun b s' bs => (b = a ∧ s' = s) ∧ bs = [] :=
  (Reads.pure (a, s)).congr fun out bs => by rw [Prod.ext_iff]

theorem bind {p : StateT σ (Reader ε τ) α} {f : α → StateT σ (Reader ε τ) β} {R : α → σ → List τ → Prop}
    {S : α → σ → β → σ → List τ → Prop} (hp : ReadsFrom s p R) (hf : ∀ a mid, ReadsFrom mid (f a) (S a mid)) :
    ReadsFrom s (p >>= f) fun b s' bs => ∃ a mid cs ds, R a mid cs ∧ S a mid b s' ds ∧ bs = cs ++ ds :=
  (Reads.bind hp fun out => hf out.1 out.2).congr fun _ _ => Prod.exists

theorem map {p : StateT σ (Reader ε τ) α} {R : α → σ → List τ → Prop} (f : α → β) (hp : ReadsFrom s p R) :
    ReadsFrom s (p >>= fun x => Pure.pure (f x)) fun b s' bs => ∃ a, R a s' bs ∧ b = f a := by
  apply (hp.bind fun a _ => pure (f a)).congr
  intro b s' bs
  constructor
  · rintro ⟨a, _, cs, _, ha, ⟨⟨hb, rfl⟩, rfl⟩, rfl⟩
    exact ⟨a, by simpa using ha, hb⟩
  · rintro ⟨a, ha, hb⟩
    exact ⟨a, s', bs, [], ha, ⟨⟨hb, rfl⟩, rfl⟩, by simp⟩

theorem lift {p : Reader ε τ α} {R : α → List τ → Prop} (hp : Reads p R) :
    ReadsFrom s (StateT.lift p : StateT σ (Reader ε τ) α) fun b s' bs => R b bs ∧ s' = s := by
  apply (hp.map fun a => (a, s)).congr
  intro b bs
  constructor
  · rintro ⟨a, ha, rfl⟩
    exact ⟨ha, rfl⟩
  · rintro ⟨hb, hs⟩
    exact ⟨b.1, hb, Prod.ext rfl hs⟩

theorem fail (e : ε) : ReadsFrom s (StateT.lift (Reading.fail e) : StateT σ (Reader ε τ) α) fun _ _ _ => False :=
  (lift (Reads.fail e)).congr fun _ _ _ => iff_of_false And.left id

theorem ite {c : Prop} [Decidable c] {p q : StateT σ (Reader ε τ) α} {R S : α → σ → List τ → Prop}
    (hp : ReadsFrom s p R) (hq : ReadsFrom s q S) :
    ReadsFrom s (if c then p else q) fun a s' bs => if c then R a s' bs else S a s' bs := by
  by_cases h : c
  · simpa [h] using hp
  · simpa [h] using hq

end ReadsFrom

/-- As far as values that are `good` are concerned, `p` recognises the language. -/
def ReadsWhen {σ : Type} (good : α → Prop) (s : σ) (p : StateT σ (Reader ε τ) α) (R : α → σ → List τ → Prop) : Prop :=
  ∀ input a s' rest, good a →
    ((p.run s).run input = .ok ((a, s'), rest) ↔ ∃ bs, R a s' bs ∧ input = bs ++ rest)

theorem ReadsFrom.when {s : σ} {p : StateT σ (Reader ε τ) α} {R : α → σ → List τ → Prop} (h : ReadsFrom s p R)
    (good : α → Prop) : ReadsWhen good s p R := fun input a s' rest _ => h input (a, s') rest

namespace ReadsWhen

variable {good : β → Prop} {s : σ}

theorem congr {p : StateT σ (Reader ε τ) β} {R S : β → σ → List τ → Prop} (h : ReadsWhen good s p R)
    (hRS : ∀ b s' bs, good b → (R b s' bs ↔ S b s' bs)) : ReadsWhen good s p S := by
  intro input b s' rest hb
  simp only [h input b s' rest hb, hRS b s' _ hb]

/-- A reader without a good value. -/
theorem none {p : StateT σ (Reader ε τ) β} {R : β → σ → List τ → Prop} (hp : ReadsFrom s p R)
    (h : ∀ b s' bs, R b s' bs → ¬good b) : ReadsWhen good s p fun _ _ _ => False :=
  (hp.when good).congr fun b s' bs hb => iff_of_false (fun hR => h b s' bs hR hb) id

/-- Behind values that are not kept of the first reader, the second one has none that is good. -/
theorem bind {kept : α → Prop} {p : StateT σ (Reader ε τ) α} {f : α → StateT σ (Reader ε τ) β}
    {R : α → σ → List τ → Prop} {S : α → σ → β → σ → List τ → Prop} (hp : ReadsWhen kept s p R)
    (hf : ∀ a mid cs, kept a → R a mid cs → ReadsWhen good mid (f a) (S a mid))
    (hlost : ∀ a mid, ¬kept a → ReadsWhen good mid (f a) fun _ _ _ => False) :
    ReadsWhen good s (p >>= f) fun b s' bs =>
      ∃ a mid cs ds, (kept a ∧ R a mid cs) ∧ S a mid b s' ds ∧ bs = cs ++ ds := by
  intro input b s' rest hb
  have hrun : ((p >>= f).run s).run input =
      ((p.run s).run input >>= fun out => ((f out.1.1).run out.1.2).run out.2) := rfl
  rw [hrun, bind_eq_ok]
  constructor
  · rintro ⟨⟨⟨a, mid⟩, left⟩, hfirst, hsecond⟩
    have hkept : kept a := by
      by_contra hnot
      obtain ⟨_, hnone, -⟩ := (hlost a mid hnot left b s' rest hb).mp hsecond
      exact hnone
    obtain ⟨cs, hcs, rfl⟩ := (hp _ _ _ _ hkept).mp hfirst
    obtain ⟨ds, hds, rfl⟩ := (hf a mid cs hkept hcs _ _ _ _ hb).mp hsecond
    exact ⟨cs ++ ds, ⟨a, mid, cs, ds, ⟨hkept, hcs⟩, hds, rfl⟩, (List.append_assoc cs ds rest).symm⟩
  · rintro ⟨_, ⟨a, mid, cs, ds, ⟨hkept, hcs⟩, hds, rfl⟩, rfl⟩
    refine ⟨((a, mid), ds ++ rest), ?_, (hf a mid cs hkept hcs _ _ _ _ hb).mpr ⟨ds, hds, rfl⟩⟩
    rw [List.append_assoc]
    exact (hp _ _ _ _ hkept).mpr ⟨cs, hcs, rfl⟩

theorem after {p : StateT σ (Reader ε τ) α} {f : α → StateT σ (Reader ε τ) β} {R : α → σ → List τ → Prop}
    {S : α → σ → β → σ → List τ → Prop} (hp : ReadsFrom s p R)
    (hf : ∀ a mid cs, R a mid cs → ReadsWhen good mid (f a) (S a mid)) :
    ReadsWhen good s (p >>= f) fun b s' bs => ∃ a mid cs ds, R a mid cs ∧ S a mid b s' ds ∧ bs = cs ++ ds := by
  refine (bind (hp.when fun _ => True) (fun a mid cs _ => hf a mid cs) fun a mid h => absurd trivial h).congr ?_
  intro b s' bs _
  simp only [true_and]

end ReadsWhen

namespace Never

theorem pure (e : ε) (a : α) : Never e (Pure.pure a : StateT σ (Except ε) α) := by
  intro s h
  cases h

theorem bind {e : ε} {p : StateT σ (Except ε) α} {f : α → StateT σ (Except ε) β} (hp : Never e p)
    (hf : ∀ a, Never e (f a)) : Never e (p >>= f) := by
  intro s h
  rw [run_bind, bind_eq_error] at h
  rcases h with h | ⟨out, -, h⟩
  · exact hp s h
  · exact hf out.1 out.2 h

theorem ite {e : ε} {c : Prop} [Decidable c] {p q : StateT σ (Except ε) α} (hp : Never e p) (hq : Never e q) :
    Never e (if c then p else q) := by
  by_cases h : c
  · simpa [h] using hp
  · simpa [h] using hq

theorem fail {e x : ε} (h : x ≠ e) : Never e (Reading.fail x : Reader ε τ α) := by
  intro input hfail
  exact h (Except.error.inj hfail)

theorem token {e x : ε} (h : x ≠ e) : Never e (Reading.token x : Reader ε τ τ) := by
  intro input hfail
  cases input with
  | nil => exact h (Except.error.inj hfail)
  | cons head tail => cases hfail

theorem take {e x : ε} (h : x ≠ e) (n : Nat) : Never e (Reading.take x n : Reader ε τ (List τ)) := by
  intro input hfail
  by_cases hn : n ≤ input.length
  · simp [Reading.take, StateT.run, hn] at hfail
  · simp only [Reading.take, StateT.run, if_neg hn, Except.error.injEq] at hfail
    exact h hfail

/-- The same of a reader with a state. -/
theorem run_bind {ρ : Type} {e : ε} {p : StateT ρ (Reader ε τ) α} {f : α → StateT ρ (Reader ε τ) β} {s : ρ}
    (hp : Never e (p.run s)) (hf : ∀ a s', Never e ((f a).run s')) : Never e ((p >>= f).run s) :=
  hp.bind fun out => hf out.1 out.2

theorem run_lift {ρ : Type} {e : ε} {p : Reader ε τ α} (h : Never e p) (s : ρ) :
    Never e ((StateT.lift p : StateT ρ (Reader ε τ) α).run s) := h.bind fun _ => pure e _

theorem run_ite {ρ : Type} {e : ε} {c : Prop} [Decidable c] {p q : StateT ρ (Reader ε τ) α} {s : ρ}
    (hp : Never e (p.run s)) (hq : Never e (q.run s)) : Never e ((if c then p else q).run s) := by
  by_cases h : c
  · simpa [h] using hp
  · simpa [h] using hq

end Never

end Reading
