import Mathlib.Order.Defs.Unbundled
import Mathlib.Tactic.Common

/-!
# Programs over a state

A program changes a state, yields a value, and may have no outcome at all (it aborts). `Yields m s Q`
says that `m` does have an outcome from `s`, and that it satisfies `Q`; the rules follow the
structure of a `do` block. `Refines` relates the outcomes of two programs. `Along I R m P` says of a program that
it keeps `I` and moves the state along the relation `R`, and `Proceeds` that it has an outcome too. `Run` lists the
runs of calls with the states they lead to, and `Run.invariant` is the induction over them.
-/

namespace Programs

variable {σ τ α β κ : Type}

abbrev Program (σ α : Type) := StateT σ Option α

/-- Started in `s`, the program has an outcome, which satisfies `Q`. -/
def Yields (m : Program σ α) (s : σ) (Q : α → σ → Prop) : Prop := ∃ a s', m.run s = some (a, s') ∧ Q a s'

/-- Whatever outcome the program has when it is started in `s` satisfies `Q`. -/
def Ensures (m : Program σ α) (s : σ) (Q : α → σ → Prop) : Prop := ∀ a s', m.run s = some (a, s') → Q a s'

theorem bind_run (m : Program σ α) (f : α → Program σ β) (s : σ) :
    (m >>= f).run s = (m.run s).bind fun out => (f out.1).run out.2 := rfl

theorem bind_run_eq_some {m : Program σ α} {f : α → Program σ β} {s s' : σ} {b : β} :
    (m >>= f).run s = some (b, s') ↔ ∃ a s₁, m.run s = some (a, s₁) ∧ (f a).run s₁ = some (b, s') := by
  rw [bind_run, Option.bind_eq_some_iff]
  exact ⟨fun ⟨out, hm, hf⟩ => ⟨out.1, out.2, hm, hf⟩, fun ⟨a, s₁, hm, hf⟩ => ⟨(a, s₁), hm, hf⟩⟩

namespace Yields

theorem pure {a : α} {s : σ} {Q : α → σ → Prop} (h : Q a s) : Yields (Pure.pure a : Program σ α) s Q :=
  ⟨a, s, rfl, h⟩

theorem bind {m : Program σ α} {f : α → Program σ β} {s : σ} {P : α → σ → Prop} {Q : β → σ → Prop}
    (hm : Yields m s P) (hf : ∀ a s₁, P a s₁ → Yields (f a) s₁ Q) : Yields (m >>= f) s Q := by
  obtain ⟨a, s₁, hrun, hP⟩ := hm
  obtain ⟨b, s₂, hrest, hQ⟩ := hf a s₁ hP
  exact ⟨b, s₂, bind_run_eq_some.mpr ⟨a, s₁, hrun, hrest⟩, hQ⟩

/-- The outcome of the first program is known. -/
theorem bind_of_run {m : Program σ α} {f : α → Program σ β} {s s' : σ} {a : α} {Q : β → σ → Prop}
    (hm : m.run s = some (a, s')) (h : Yields (f a) s' Q) : Yields (m >>= f) s Q := by
  obtain ⟨b, s₁, hrun, hQ⟩ := h
  exact ⟨b, s₁, bind_run_eq_some.mpr ⟨a, s', hm, hrun⟩, hQ⟩

theorem bind_get {f : σ → Program σ β} {s : σ} {Q : β → σ → Prop} (h : Yields (f s) s Q) :
    Yields (MonadState.get >>= f) s Q := h

theorem mono {m : Program σ α} {s : σ} {P Q : α → σ → Prop} (hm : Yields m s P)
    (h : ∀ a s', P a s' → Q a s') : Yields m s Q := by
  obtain ⟨a, s', hrun, hP⟩ := hm
  exact ⟨a, s', hrun, h a s' hP⟩

/-- The program is a function of the state: two facts about its outcome are about the same outcome. -/
theorem and {m : Program σ α} {s : σ} {P Q : α → σ → Prop} (hP : Yields m s P) (hQ : Ensures m s Q) :
    Yields m s fun a s' => P a s' ∧ Q a s' := by
  obtain ⟨a, s', hrun, h⟩ := hP
  exact ⟨a, s', hrun, h, hQ a s' hrun⟩

theorem ensures {m : Program σ α} {s : σ} {Q : α → σ → Prop} (h : Yields m s Q) : Ensures m s Q := by
  intro a s' hrun
  obtain ⟨b, s₁, hrun', hQ⟩ := h
  rw [hrun] at hrun'
  obtain ⟨rfl, rfl⟩ := Prod.mk.inj (Option.some.inj hrun')
  exact hQ

end Yields

namespace Ensures

theorem pure {a : α} {s : σ} {Q : α → σ → Prop} (h : Q a s) : Ensures (Pure.pure a : Program σ α) s Q :=
  (Yields.pure h).ensures

theorem bind {m : Program σ α} {f : α → Program σ β} {s : σ} {P : α → σ → Prop} {Q : β → σ → Prop}
    (hm : Ensures m s P) (hf : ∀ a s₁, P a s₁ → Ensures (f a) s₁ Q) : Ensures (m >>= f) s Q := by
  intro b s' hrun
  obtain ⟨a, s₁, hfirst, hrest⟩ := bind_run_eq_some.mp hrun
  exact hf a s₁ (hm a s₁ hfirst) b s' hrest

/-- Nothing is known of the first program. -/
theorem bind_any {m : Program σ α} {f : α → Program σ β} {s : σ} {Q : β → σ → Prop}
    (hf : ∀ a s₁, Ensures (f a) s₁ Q) : Ensures (m >>= f) s Q :=
  bind (P := fun _ _ => True) (fun _ _ _ => trivial) fun a s₁ _ => hf a s₁

theorem mono {m : Program σ α} {s : σ} {P Q : α → σ → Prop} (hm : Ensures m s P)
    (h : ∀ a s', P a s' → Q a s') : Ensures m s Q := fun a s' hrun => h a s' (hm a s' hrun)

/-- What may be assumed of an outcome is also that it is the outcome. -/
theorem outcome {m : Program σ α} {s : σ} {Q : α → σ → Prop} (hm : Ensures m s Q) :
    Ensures m s fun a s' => m.run s = some (a, s') ∧ Q a s' := fun a s' hrun => ⟨hrun, hm a s' hrun⟩

/-- A program that has been run once has the outcome it had. -/
theorem of_run {m : Program σ α} {s s' : σ} {a : α} (h : m.run s = some (a, s')) :
    Ensures m s fun b s₁ => b = a ∧ s₁ = s' := by
  intro b s₁ hrun
  obtain ⟨rfl, rfl⟩ := Prod.mk.inj (Option.some.inj (hrun.symm.trans h))
  exact ⟨rfl, rfl⟩

theorem get {s : σ} {Q : σ → σ → Prop} (h : Q s s) : Ensures (MonadState.get : Program σ σ) s Q := by
  intro a s' hrun
  obtain ⟨rfl, rfl⟩ := Prod.mk.inj (Option.some.inj hrun)
  exact h

theorem bind_get {f : σ → Program σ β} {s : σ} {Q : β → σ → Prop} (h : Ensures (f s) s Q) :
    Ensures (MonadState.get >>= f) s Q := h

theorem ite {c : Prop} [Decidable c] {m n : Program σ α} {s : σ} {Q : α → σ → Prop} (hm : c → Ensures m s Q)
    (hn : ¬c → Ensures n s Q) : Ensures (if c then m else n) s Q := by
  by_cases h : c
  · rw [if_pos h]
    exact hm h
  · rw [if_neg h]
    exact hn h

/-- Two programs have the same outcome if their beginnings have, and what follows any outcome of these. -/
theorem bind_congr {m n : Program σ α} {f g : α → Program σ β} {s : σ} (hmn : m.run s = n.run s)
    (h : Ensures n s fun a s₁ => (f a).run s₁ = (g a).run s₁) : (m >>= f).run s = (n >>= g).run s := by
  rw [bind_run, bind_run, hmn]
  cases hrun : n.run s with
  | none => rfl
  | some out => exact h out.1 out.2 hrun

end Ensures

/-- Whatever outcome the program has from `s` satisfies `Q`, and where `ends` holds it has one. -/
structure Settles (ends : Prop) (m : Program σ α) (s : σ) (Q : α → σ → Prop) : Prop where
  ensures : Ensures m s Q
  outcome : ends → Yields m s fun _ _ => True

namespace Settles

variable {ends : Prop} {m n : Program σ α} {s : σ} {P Q : α → σ → Prop}

theorem pure {a : α} (h : Q a s) : Settles ends (Pure.pure a : Program σ α) s Q :=
  ⟨.pure h, fun _ => .pure trivial⟩

theorem of_yields (h : Yields m s Q) : Settles ends m s Q := ⟨h.ensures, fun _ => h.mono fun _ _ _ => trivial⟩

theorem weaken {ends' : Prop} (hm : Settles ends m s Q) (h : ends' → ends) : Settles ends' m s Q :=
  ⟨hm.ensures, fun hends => hm.outcome (h hends)⟩

theorem bind {f : α → Program σ β} {Q : β → σ → Prop} (hm : Settles ends m s P)
    (hf : ∀ a s₁, P a s₁ → Settles ends (f a) s₁ Q) : Settles ends (m >>= f) s Q := by
  refine ⟨hm.ensures.bind fun a s₁ hP => (hf a s₁ hP).ensures, fun hends => ?_⟩
  refine ((hm.outcome hends).and hm.ensures).bind fun a s₁ hfirst => ?_
  obtain ⟨-, hP⟩ := hfirst
  exact (hf a s₁ hP).outcome hends

theorem bind_get {f : σ → Program σ β} {Q : β → σ → Prop} (h : Settles ends (f s) s Q) :
    Settles ends (MonadState.get >>= f) s Q :=
  ⟨.bind_get h.ensures, fun hends => .bind_get (h.outcome hends)⟩

theorem mono (hm : Settles ends m s P) (h : ∀ a s', P a s' → Q a s') : Settles ends m s Q :=
  ⟨hm.ensures.mono h, hm.outcome⟩

theorem ite {c : Prop} [Decidable c] (hm : c → Settles ends m s Q) (hn : ¬c → Settles ends n s Q) :
    Settles ends (if c then m else n) s Q := by
  by_cases h : c
  · rw [if_pos h]
    exact hm h
  · rw [if_neg h]
    exact hn h

/-- A program that has no outcome. -/
theorem abort (h : ¬ends) : Settles ends (fun _ => none : Program σ α) s Q := by
  refine ⟨fun a s' hrun => ?_, fun hends => absurd hends h⟩
  cases hrun

end Settles

/-! ### Refinement and runs -/

/-- Whatever outcome the program `n` has from `s`, the program `m` has one from `t`, and the two satisfy `Q`. -/
def Refines (m : Program τ α) (n : Program σ β) (t : τ) (s : σ) (Q : α → τ → β → σ → Prop) : Prop :=
  Ensures n s fun b s' => Yields m t fun a t' => Q a t' b s'

namespace Refines

variable {γ δ : Type} {m : Program τ α} {n : Program σ β} {t : τ} {s : σ} {Q : α → τ → β → σ → Prop}

theorem pure {a : α} {b : β} (h : Q a t b s) :
    Refines (Pure.pure a : Program τ α) (Pure.pure b : Program σ β) t s Q := Ensures.pure (Yields.pure h)

theorem bind {f : α → Program τ γ} {g : β → Program σ δ} {Q' : γ → τ → δ → σ → Prop} (hm : Refines m n t s Q)
    (hf : ∀ a t₁ b s₁, Q a t₁ b s₁ → Refines (f a) (g b) t₁ s₁ Q') : Refines (m >>= f) (n >>= g) t s Q' := by
  refine Ensures.bind hm fun b s₁ hyields d s' hrun => ?_
  exact Yields.bind hyields fun a t₁ hQ => hf a t₁ b s₁ hQ d s' hrun

/-- A step that the refined program does not have comes first. -/
theorem after {l : Program τ γ} {f : γ → Program τ α} {P : γ → τ → Prop} (hl : Yields l t P)
    (hf : ∀ c t₁, P c t₁ → Refines (f c) n t₁ s Q) : Refines (l >>= f) n t s Q :=
  fun b s' hrun => hl.bind fun c t₁ hP => hf c t₁ hP b s' hrun

theorem mono {Q' : α → τ → β → σ → Prop} (hm : Refines m n t s Q) (h : ∀ a t' b s', Q a t' b s' → Q' a t' b s') :
    Refines m n t s Q' := Ensures.mono hm fun b s' hyields => hyields.mono fun a t' => h a t' b s'

theorem ite {c d : Prop} [Decidable c] [Decidable d] {m' : Program τ α} {n' : Program σ β} (hcd : c ↔ d)
    (hm : c → Refines m n t s Q) (hn : ¬c → Refines m' n' t s Q) :
    Refines (if c then m else m') (if d then n else n') t s Q := by
  by_cases h : c
  · rw [if_pos h, if_pos (hcd.mp h)]
    exact hm h
  · rw [if_neg h, if_neg fun hd => h (hcd.mpr hd)]
    exact hn h

/-- What the refined program yields. -/
theorem yields {P : β → σ → Prop} (hm : Refines m n t s Q) (hn : Yields n s P) :
    Yields m t fun a t' => ∃ b s', P b s' ∧ Q a t' b s' := by
  obtain ⟨b, s', hrun, hP⟩ := hn
  exact (hm b s' hrun).mono fun a t' hQ => ⟨b, s', hP, hQ⟩

end Refines

/-- From a state with `I`, whatever outcome the program has, the state has moved along `R` to one with `I`, and the
value satisfies `P`. -/
def Along (I : σ → Prop) (R : σ → σ → Prop) (m : Program σ α) (P : α → Prop) : Prop :=
  ∀ s, I s → Ensures m s fun a s' => I s' ∧ R s s' ∧ P a

namespace Along

variable {I : σ → Prop} {R : σ → σ → Prop} {m n : Program σ α} {f : α → Program σ β} {P P' : α → Prop} {Q : β → Prop}

theorem pure [Std.Refl R] {a : α} (h : P a) : Along I R (Pure.pure a : Program σ α) P :=
  fun s hI => Ensures.pure ⟨hI, refl_of R s, h⟩

theorem bind [IsTrans σ R] (hm : Along I R m P) (hf : ∀ a, P a → Along I R (f a) Q) : Along I R (m >>= f) Q := by
  intro s hI
  refine (hm s hI).bind fun a s₁ ⟨hI₁, hfirst, hP⟩ => (hf a hP s₁ hI₁).mono fun b s' ⟨hI', hrest, hQ⟩ => ?_
  exact ⟨hI', trans_of R hfirst hrest, hQ⟩

theorem mono (hm : Along I R m P) (h : ∀ a, P a → P' a) : Along I R m P' :=
  fun s hI => (hm s hI).mono fun a _ ⟨hI', hR, hP⟩ => ⟨hI', hR, h a hP⟩

theorem ite {c : Prop} [Decidable c] (hm : c → Along I R m P) (hn : ¬c → Along I R n P) :
    Along I R (if c then m else n) P := fun s hI => .ite (fun h => hm h s hI) fun h => hn h s hI

end Along

/-- The program moves the state along `R` and keeps `I`, and where `ends` holds it has an outcome from every state with
`I`. -/
structure Proceeds (ends : Prop) (I : σ → Prop) (R : σ → σ → Prop) (m : Program σ α) (P : α → Prop) : Prop where
  along : Along I R m P
  outcome : ends → ∀ s, I s → Yields m s fun _ _ => True

namespace Proceeds

variable {ends : Prop} {I : σ → Prop} {R : σ → σ → Prop} {m n : Program σ α} {f : α → Program σ β} {P P' : α → Prop}
  {Q : β → Prop}

theorem pure [Std.Refl R] {a : α} (h : P a) : Proceeds ends I R (Pure.pure a : Program σ α) P :=
  ⟨.pure h, fun _ _ _ => Yields.pure trivial⟩

theorem bind [IsTrans σ R] (hm : Proceeds ends I R m P) (hf : ∀ a, P a → Proceeds ends I R (f a) Q) :
    Proceeds ends I R (m >>= f) Q := by
  refine ⟨hm.along.bind fun a hP => (hf a hP).along, fun hends s hI => ?_⟩
  refine ((hm.outcome hends s hI).and (hm.along s hI)).bind fun a s₁ hfirst => ?_
  obtain ⟨-, hI₁, -, hP⟩ := hfirst
  exact (hf a hP).outcome hends s₁ hI₁

theorem mono (hm : Proceeds ends I R m P) (h : ∀ a, P a → P' a) : Proceeds ends I R m P' :=
  ⟨hm.along.mono h, hm.outcome⟩

theorem ite {c : Prop} [Decidable c] (hm : c → Proceeds ends I R m P) (hn : ¬c → Proceeds ends I R n P) :
    Proceeds ends I R (if c then m else n) P := by
  by_cases h : c
  · rw [if_pos h]
    exact hm h
  · rw [if_neg h]
    exact hn h

/-- A program that has no outcome. -/
theorem abort (h : ¬ends) : Proceeds ends I R (fun _ => none : Program σ α) P := by
  refine ⟨fun s _ a s' hrun => ?_, fun hends => absurd hends h⟩
  cases hrun

/-- A program that does have an outcome wherever `I` holds. -/
theorem of_yields (h : ∀ s, I s → Yields m s fun a s' => I s' ∧ R s s' ∧ P a) : Proceeds ends I R m P :=
  ⟨fun s hI => (h s hI).ensures, fun _ s hI => (h s hI).mono fun _ _ _ => trivial⟩

end Proceeds

section Runs

variable {ε : Type} {step : κ → σ → Except ε (β × σ)} {allowed : κ → σ → Prop} {start : σ}

/-- The runs from a state in which every call returns and is made where it is allowed: the calls with what they
returned, the latest first, and the state they lead to. -/
inductive Run (step : κ → σ → Except ε (β × σ)) (allowed : κ → σ → Prop) (start : σ) : List (κ × β) → σ → Prop where
  | nil : Run step allowed start [] start
  | call {history : List (κ × β)} {s s' : σ} {c : κ} {b : β} (before : Run step allowed start history s)
      (hallowed : allowed c s) (hstep : step c s = .ok (b, s')) : Run step allowed start ((c, b) :: history) s'

/-- The results of some calls, the latest first, and the state they lead to, if all of them are allowed and return. -/
def execute (step : κ → σ → Except ε (β × σ)) (allowed : κ → σ → Prop) [∀ c s, Decidable (allowed c s)] :
    List κ → σ → Option (List β × σ)
  | [], s => some ([], s)
  | c :: before, s => (execute step allowed before s).bind fun out =>
      if allowed c out.2 then (step c out.2).toOption.map fun last => (last.1 :: out.1, last.2) else none

theorem Run.of_execute [∀ c s, Decidable (allowed c s)] {calls : List κ} {results : List β} {s : σ}
    (h : execute step allowed calls start = some (results, s)) : Run step allowed start (calls.zip results) s := by
  induction calls generalizing results s with
  | nil =>
      obtain ⟨rfl, rfl⟩ := Prod.mk.inj (Option.some.inj h)
      exact .nil
  | cons c before ih =>
      obtain ⟨⟨results', s'⟩, hbefore, hlast⟩ := Option.bind_eq_some_iff.mp h
      by_cases hallowed : allowed c s'
      · rw [if_pos hallowed] at hlast
        obtain ⟨⟨b, s₁⟩, hstep, heq⟩ := Option.map_eq_some_iff.mp hlast
        obtain ⟨rfl, rfl⟩ := Prod.mk.inj heq
        have hok : step c s' = .ok (b, s₁) := by
          cases hcase : step c s' with
          | error e =>
              rw [hcase] at hstep
              cases hstep
          | ok out =>
              rw [hcase] at hstep
              exact congrArg Except.ok (Option.some.inj hstep)
        exact .call (ih hbefore) hallowed hok
      · rw [if_neg hallowed] at hlast
        cases hlast

/-- What holds of no calls and the start, and is kept when a call that is allowed is added, holds of every run. -/
theorem Run.traced {I : List (κ × β) → σ → Prop} (hstart : I [] start)
    (hstep : ∀ history c s b s', I history s → allowed c s → step c s = .ok (b, s') → I ((c, b) :: history) s')
    {history : List (κ × β)} {s : σ} (h : Run step allowed start history s) : I history s := by
  induction h with
  | nil => exact hstart
  | call before hallowed hcall ih => exact hstep _ _ _ _ _ ih hallowed hcall

/-- What holds at the start and is kept by every call that is allowed holds wherever a run leads. -/
theorem Run.invariant {I : σ → Prop} (hstart : I start)
    (hstep : ∀ c s b s', I s → allowed c s → step c s = .ok (b, s') → I s') {history : List (κ × β)} {s : σ}
    (h : Run step allowed start history s) : I s :=
  h.traced (I := fun _ => I) hstart fun _ => hstep

end Runs

end Programs
