import Crakoon.Reader

/-!
# Readers that keep a log

A logged reader lists what it meets on its way, and the list is there whether it succeeds or fails. `GivesUp x good p w`
says of a reader `p` that it is the logged reader `w`, given up with `x` where the first entry stands that is not good;
it composes along `do` blocks. So `p` fails with `x` on exactly the inputs on which `w` meets such an entry.
-/

namespace Reading

variable {σ ε τ ω α β : Type}

/-- A reader with a state, and what it has met. -/
def Logged (σ ε τ ω α : Type) := σ → List τ → Except ε ((α × σ) × List τ) × List ω

namespace Logged

/-- What is met by a second reader comes behind what was met by the first. -/
def andThen (w : Logged σ ε τ ω α) (f : α → Logged σ ε τ ω β) : Logged σ ε τ ω β := fun s input =>
  match (w s input).1 with
  | .error e => (.error e, (w s input).2)
  | .ok ((a, s'), rest) => ((f a s' rest).1, (w s input).2 ++ (f a s' rest).2)

instance : Monad (Logged σ ε τ ω) where
  pure a := fun s input => (.ok ((a, s), input), [])
  bind := andThen

/-- Meets nothing. -/
def silent (p : StateT σ (Reader ε τ) α) : Logged σ ε τ ω α := fun s input => ((p.run s).run input, [])

/-- Meets `v`. -/
def note (v : ω) : Logged σ ε τ ω Unit := fun s input => (.ok (((), s), input), [v])

/-- The reader does not fail with `x`. -/
def Never (x : ε) (w : Logged σ ε τ ω α) : Prop := ∀ s input, (w s input).1 ≠ .error x

theorem Never.pure (x : ε) (a : α) : Never x (Pure.pure a : Logged σ ε τ ω α) := fun s input h => by cases h

theorem Never.bind {x : ε} {w : Logged σ ε τ ω α} {f : α → Logged σ ε τ ω β} (hw : w.Never x)
    (hf : ∀ a, (f a).Never x) : Never x (w >>= f) := by
  intro s input
  change (andThen w f s input).1 ≠ .error x
  rw [andThen]
  cases hrun : (w s input).1 with
  | error e =>
      intro h
      obtain rfl : e = x := Except.error.inj h
      exact hw s input hrun
  | ok out => exact hf out.1.1 out.1.2 out.2

theorem Never.ite {x : ε} {c : Prop} [Decidable c] {v w : Logged σ ε τ ω α} (hv : v.Never x) (hw : w.Never x) :
    Never x (if c then v else w) := by
  split_ifs
  · exact hv
  · exact hw

theorem Never.silent {x : ε} {p : StateT σ (Reader ε τ) α} (h : ∀ s, Reading.Never x (p.run s)) :
    Never x (silent p : Logged σ ε τ ω α) := h

theorem Never.note (x : ε) (v : ω) : Never x (note v : Logged σ ε τ ω Unit) := fun s input h => by cases h

end Logged

/-- While `w` meets good entries only, `p` does what `w` does; as soon as it meets another, `p` fails with `x`. -/
structure GivesUp (x : ε) (good : ω → Prop) (p : StateT σ (Reader ε τ) α) (w : Logged σ ε τ ω α) : Prop where
  agrees : ∀ s input, (∀ v ∈ (w s input).2, good v) → (p.run s).run input = (w s input).1
  fails : ∀ s input, (∃ v ∈ (w s input).2, ¬good v) → (p.run s).run input = .error x

namespace GivesUp

variable {x : ε} {good : ω → Prop}

theorem silent (p : StateT σ (Reader ε τ) α) : GivesUp x good p (.silent p) where
  agrees := fun _ _ _ => rfl
  fails := fun _ _ h => by
    obtain ⟨v, hv, -⟩ := h
    cases hv

theorem pure (a : α) : GivesUp x good (Pure.pure a : StateT σ (Reader ε τ) α) (Pure.pure a) := silent _

/-- One reader after the other, on an input. -/
theorem run_bind {p : StateT σ (Reader ε τ) α} {f : α → StateT σ (Reader ε τ) β} (s : σ) (input : List τ) :
    ((p >>= f).run s).run input = ((p.run s).run input >>= fun out => ((f out.1.1).run out.1.2).run out.2) := rfl

theorem bind {p : StateT σ (Reader ε τ) α} {w : Logged σ ε τ ω α} {f : α → StateT σ (Reader ε τ) β}
    {g : α → Logged σ ε τ ω β} (hp : GivesUp x good p w) (hf : ∀ a, GivesUp x good (f a) (g a)) :
    GivesUp x good (p >>= f) (w >>= g) where
  agrees := by
    intro s input hgood
    change ∀ v ∈ (Logged.andThen w g s input).2, good v at hgood
    change ((p >>= f).run s).run input = (Logged.andThen w g s input).1
    rw [Logged.andThen] at hgood ⊢
    cases hrun : (w s input).1 with
    | error e =>
        rw [hrun] at hgood
        rw [run_bind, hp.agrees s input hgood, hrun]
        rfl
    | ok out =>
        rw [hrun] at hgood
        rw [run_bind, hp.agrees s input fun v hv => hgood v (List.mem_append_left _ hv), hrun, ok_bind]
        exact (hf out.1.1).agrees out.1.2 out.2 fun v hv => hgood v (List.mem_append_right _ hv)
  fails := by
    intro s input hbad
    change ∃ v ∈ (Logged.andThen w g s input).2, ¬good v at hbad
    rw [Logged.andThen] at hbad
    by_cases hfirst : ∃ v ∈ (w s input).2, ¬good v
    · rw [run_bind, hp.fails s input hfirst]
      rfl
    · have hgood : ∀ v ∈ (w s input).2, good v := fun v hv => by_contra fun hnot => hfirst ⟨v, hv, hnot⟩
      obtain ⟨v, hv, hnot⟩ := hbad
      cases hrun : (w s input).1 with
      | error e =>
          rw [hrun] at hv
          exact absurd (hgood v hv) hnot
      | ok out =>
          rw [hrun] at hv
          rw [run_bind, hp.agrees s input hgood, hrun, ok_bind]
          rcases List.mem_append.mp hv with hold | hnew
          · exact absurd (hgood v hold) hnot
          · exact (hf out.1.1).fails out.1.2 out.2 ⟨v, hnew, hnot⟩

theorem ite {c : Prop} [Decidable c] {p q : StateT σ (Reader ε τ) α} {v w : Logged σ ε τ ω α} (hp : GivesUp x good p v)
    (hq : GivesUp x good q w) : GivesUp x good (if c then p else q) (if c then v else w) := by
  split_ifs
  · exact hp
  · exact hq

/-- The guard of a reader that gives up, and the entry that the logged reader meets there. -/
theorem guard {c : Prop} [Decidable c] {v : ω} (hc : c ↔ ¬good v) {p : StateT σ (Reader ε τ) α}
    {w : Logged σ ε τ ω α} (hp : GivesUp x good p w) :
    GivesUp x good (if c then StateT.lift (Reading.fail x) else p) (Logged.note v >>= fun _ => w) where
  agrees := by
    intro s input hgood
    change ∀ u ∈ v :: (w s input).2, good u at hgood
    rw [if_neg fun h => hc.mp h (hgood v List.mem_cons_self)]
    exact hp.agrees s input fun u hu => hgood u (List.mem_cons_of_mem v hu)
  fails := by
    intro s input hbad
    change ∃ u ∈ v :: (w s input).2, ¬good u at hbad
    by_cases h : c
    · rw [if_pos h]
      rfl
    · rw [if_neg h]
      obtain ⟨u, hu, hnot⟩ := hbad
      rcases List.mem_cons.mp hu with rfl | hu
      · exact absurd (hc.mpr hnot) h
      · exact hp.fails s input ⟨u, hu, hnot⟩

/-- It is given up where the logged reader meets an entry that is not good, and nowhere else. -/
theorem eq_error_iff {p : StateT σ (Reader ε τ) α} {w : Logged σ ε τ ω α} (h : GivesUp x good p w) (hnever : w.Never x)
    (s : σ) (input : List τ) : (p.run s).run input = .error x ↔ ∃ v ∈ (w s input).2, ¬good v := by
  refine ⟨fun hfail => by_contra fun hnone => ?_, h.fails s input⟩
  have hgood : ∀ v ∈ (w s input).2, good v := fun v hv => by_contra fun hnot => hnone ⟨v, hv, hnot⟩
  exact hnever s input ((h.agrees s input hgood).symm.trans hfail)

end GivesUp

end Reading
