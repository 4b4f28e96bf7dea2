import Crakoon.Program

/-!
# Programs that are made of commands

A program on a state may do nothing to it but give commands, one after the other, each depending on the answers to
those before. `Commands` is the tree of what it gives and `run` performs it; `Composed` says of a program that it is
made of commands of some kind. What every command keeps, such a program keeps (`Composed.along`). The same tree can be
performed on another state.
-/

namespace Programs

variable {κ σ α β : Type} {ρ : κ → Type}

/-- Which command comes next, after each of the answers that the last one may have. -/
inductive Commands (ρ : κ → Type) (α : Type) : Type where
  | done (a : α)
  | give (c : κ) (next : ρ c → Commands ρ α)

namespace Commands

def bind (f : α → Commands ρ β) : Commands ρ α → Commands ρ β
  | .done a => f a
  | .give c next => .give c fun r => bind f (next r)

instance : Monad (Commands ρ) where
  pure := done
  bind p f := bind f p

/-- One command, and its answer. -/
def ask (c : κ) : Commands ρ (ρ c) := .give c .done

/-- Every command is of a kind. -/
def Within (ok : κ → Prop) : Commands ρ α → Prop
  | .done _ => True
  | .give c next => ok c ∧ ∀ r, Within ok (next r)

variable (perform : (c : κ) → Program σ (ρ c))

def run : Commands ρ α → Program σ α
  | .done a => pure a
  | .give c next => perform c >>= fun r => run (next r)

theorem run_bind (p : Commands ρ α) (f : α → Commands ρ β) :
    run perform (bind f p) = run perform p >>= fun a => run perform (f a) := by
  induction p with
  | done a => rw [bind, run, pure_bind]
  | give c next ih =>
      rw [bind, run, run, bind_assoc]
      exact congrArg _ (funext ih)

theorem run_ask (c : κ) : run perform (ask c) = perform c := bind_pure _

theorem run_do (p : Commands ρ α) (f : α → Commands ρ β) :
    run perform (p >>= f) = run perform p >>= fun a => run perform (f a) := run_bind perform p f

theorem run_ite {c : Prop} [Decidable c] (p q : Commands ρ α) :
    run perform (if c then p else q) = if c then run perform p else run perform q := apply_ite _ _ _ _

variable {ok ok' : κ → Prop}

theorem Within.bind {p : Commands ρ α} {f : α → Commands ρ β} (hp : p.Within ok) (hf : ∀ a, (f a).Within ok) :
    (p.bind f).Within ok := by
  induction p with
  | done a => exact hf a
  | give c next ih => exact ⟨hp.1, fun r => ih r (hp.2 r)⟩

theorem Within.pure (a : α) : (Pure.pure a : Commands ρ α).Within ok := trivial

theorem Within.ask {c : κ} (hc : ok c) : (Commands.ask c : Commands ρ (ρ c)).Within ok := ⟨hc, fun _ => trivial⟩

theorem Within.ite {c : Prop} [Decidable c] {p q : Commands ρ α} (hp : c → p.Within ok) (hq : ¬c → q.Within ok) :
    (if c then p else q).Within ok := by
  by_cases h : c
  · rw [if_pos h]
    exact hp h
  · rw [if_neg h]
    exact hq h

theorem Within.mono {p : Commands ρ α} (hp : p.Within ok) (h : ∀ c, ok c → ok' c) : p.Within ok' := by
  induction p with
  | done a => trivial
  | give c next ih => exact ⟨h c hp.1, fun r => ih r (hp.2 r)⟩

end Commands

/-- The program gives commands of a kind, and does nothing else. -/
def Composed (perform : (c : κ) → Program σ (ρ c)) (ok : κ → Prop) (m : Program σ α) : Prop :=
  ∃ p : Commands ρ α, p.Within ok ∧ p.run perform = m

namespace Composed

variable {perform : (c : κ) → Program σ (ρ c)} {ok ok' : κ → Prop} {m n : Program σ α} {f : α → Program σ β}

theorem pure (a : α) : Composed perform ok (Pure.pure a : Program σ α) := ⟨.done a, trivial, rfl⟩

theorem command {c : κ} (hc : ok c) : Composed perform ok (perform c) :=
  ⟨.give c .done, ⟨hc, fun _ => trivial⟩, bind_pure _⟩

theorem bind (hm : Composed perform ok m) (hf : ∀ a, Composed perform ok (f a)) : Composed perform ok (m >>= f) := by
  obtain ⟨p, hp, rfl⟩ := hm
  choose q hq hrun using hf
  refine ⟨p.bind q, hp.bind hq, ?_⟩
  rw [Commands.run_bind]
  exact congrArg _ (funext hrun)

theorem ite {c : Prop} [Decidable c] (hm : c → Composed perform ok m) (hn : ¬c → Composed perform ok n) :
    Composed perform ok (if c then m else n) := by
  by_cases h : c
  · rw [if_pos h]
    exact hm h
  · rw [if_neg h]
    exact hn h

theorem mono (hm : Composed perform ok m) (h : ∀ c, ok c → ok' c) : Composed perform ok' m := by
  obtain ⟨p, hp, hrun⟩ := hm
  exact ⟨p, hp.mono h, hrun⟩

/-- What the commands do to the state, a program that is made of them does. -/
theorem along {I : σ → Prop} {R : σ → σ → Prop} [IsPreorder σ R] (hm : Composed perform ok m)
    (h : ∀ c, ok c → Along I R (perform c) fun _ => True) : Along I R m fun _ => True := by
  obtain ⟨p, hp, rfl⟩ := hm
  induction p with
  | done a => exact .pure trivial
  | give c next ih => exact (h c hp.1).bind fun r _ => ih r (hp.2 r)

end Composed

end Programs
