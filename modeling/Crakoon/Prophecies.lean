import Crakoon.Commands

/-!
# Programs that are told what is to come

A program may be determined where another one is not: it does the same once it is known what the other one will have
done. `Foretells` relates two such programs. What has been done is a history, which goes forward; what is to come is a
prophecy, which comes back from the end. It follows the structure of a program (`Foretells.bind`), of a tree of
commands (`Foretells.commands`) and of a run of calls (`Run.foretold`). What the second program is told from outside
stays beside its state (`beside`).
-/

namespace Programs

variable {σ τ α β κ η π : Type}

/-- Whatever outcome the program `n` has from a state, with whatever came before: for all that may come afterwards,
the program `m` has an outcome with the same value from every state that fits. -/
def Foretells (Fits : η → π → σ → τ → Prop) (n : Program σ α) (m : Program τ α) : Prop :=
  ∀ s a s', n.run s = some (a, s') → ∀ past, ∃ past', ∀ future', ∃ future, ∀ t, Fits past future s t →
    ∃ t', m.run t = some (a, t') ∧ Fits past' future' s' t'

namespace Foretells

variable {Fits : η → π → σ → τ → Prop} {n : Program σ α} {m : Program τ α}

theorem pure (a : α) : Foretells Fits (Pure.pure a : Program σ α) (Pure.pure a : Program τ α) := by
  intro s b s' hrun past
  obtain ⟨rfl, rfl⟩ := Prod.mk.inj (Option.some.inj hrun)
  exact ⟨past, fun future => ⟨future, fun t hfits => ⟨t, rfl, hfits⟩⟩⟩

/-- The values of the first parts correspond, and something is known of them. The history of the first part is handed
on; the prophecy for the second part is handed back. -/
theorem bind_map {γ δ : Type} {n : Program σ γ} {m : Program τ δ} {f : γ → Program σ β} {g : δ → Program τ β}
    {P : γ → Prop} (φ : γ → δ) (h : Foretells Fits (n >>= fun a => Pure.pure (φ a)) m)
    (hP : ∀ s a s', n.run s = some (a, s') → P a) (hnext : ∀ a, P a → Foretells Fits (f a) (g (φ a))) :
    Foretells Fits (n >>= f) (m >>= g) := by
  intro s b s' hrun past
  obtain ⟨a, s₁, hfirst, hrest⟩ := bind_run_eq_some.mp hrun
  obtain ⟨past₁, hback₁⟩ := h s (φ a) s₁ (bind_run_eq_some.mpr ⟨a, s₁, hfirst, rfl⟩) past
  obtain ⟨past', hback⟩ := hnext a (hP s a s₁ hfirst) s₁ b s' hrest past₁
  refine ⟨past', fun future' => ?_⟩
  obtain ⟨future₁, hforth⟩ := hback future'
  obtain ⟨future, hforth₁⟩ := hback₁ future₁
  refine ⟨future, fun t hfits => ?_⟩
  obtain ⟨t₁, hrun₁, hfits₁⟩ := hforth₁ t hfits
  obtain ⟨t', hrun', hfits'⟩ := hforth t₁ hfits₁
  exact ⟨t', bind_run_eq_some.mpr ⟨φ a, t₁, hrun₁, hrun'⟩, hfits'⟩

theorem bind {f : α → Program σ β} {g : α → Program τ β} (h : Foretells Fits n m)
    (hnext : ∀ a, Foretells Fits (f a) (g a)) : Foretells Fits (n >>= f) (m >>= g) := by
  have hsame : Foretells Fits (n >>= fun a => Pure.pure (id a)) m := by
    simpa only [id, bind_pure] using h
  exact hsame.bind_map id (P := fun _ => True) (fun _ _ _ _ => trivial) fun a _ => hnext a

/-- What follows depends on something that both states show. -/
theorem read {γ : Type} (look : σ → γ) (look' : τ → γ) (h : ∀ {past future s t}, Fits past future s t → look s = look' t)
    {f : γ → Program σ α} {g : γ → Program τ α} (hnext : ∀ c, Foretells Fits (f c) (g c)) :
    Foretells Fits (fun s => (f (look s)).run s) (fun t => (g (look' t)).run t) := by
  intro s a s' hrun past
  obtain ⟨past', hback⟩ := hnext (look s) s a s' hrun past
  refine ⟨past', fun future' => ?_⟩
  obtain ⟨future, hforth⟩ := hback future'
  refine ⟨future, fun t hfits => ?_⟩
  have hsame := h hfits
  obtain ⟨t', hrun', hfits'⟩ := hforth t hfits
  rw [hsame] at hrun'
  exact ⟨t', hrun', hfits'⟩

/-- A tree of commands, performed in two ways. -/
theorem commands {ρ : κ → Type} {perform : (c : κ) → Program σ (ρ c)} {perform' : (c : κ) → Program τ (ρ c)}
    (h : ∀ c, Foretells Fits (perform c) (perform' c)) (p : Commands ρ α) :
    Foretells Fits (p.run perform) (p.run perform') := by
  induction p with
  | done a => exact .pure a
  | give c next ih => exact (h c).bind ih

end Foretells

/-- Runs of calls: if every call is foretold, the run is. -/
theorem Run.foretold {ι β' ε ε' : Type} {Fits : η → π → σ → τ → Prop} {step : κ → σ → Except ε (β × σ)}
    {step' : ι → τ → Except ε' (β' × τ)} {allowed : κ → σ → Prop} (f : κ → ι) (g : β → β')
    (allowed' : ι → τ → Prop) (hallowed : ∀ c t, allowed' (f c) t)
    (hstep : ∀ c s b s', step c s = .ok (b, s') → ∀ past, ∃ past', ∀ future', ∃ future, ∀ t, Fits past future s t →
      ∃ t', step' (f c) t = .ok (g b, t') ∧ Fits past' future' s' t')
    {start s : σ} {history : List (κ × β)} (h : Run step allowed start history s) (past : η) :
    ∃ past', ∀ future', ∃ future, ∀ t, Fits past future start t →
      ∃ t', Run step' allowed' t (history.map (Prod.map f g)) t' ∧ Fits past' future' s t' := by
  induction h with
  | nil => exact ⟨past, fun future => ⟨future, fun t hfits => ⟨t, .nil, hfits⟩⟩⟩
  | call before _ hcall ih =>
      obtain ⟨past₁, hback₁⟩ := ih
      obtain ⟨past', hback⟩ := hstep _ _ _ _ hcall past₁
      refine ⟨past', fun future' => ?_⟩
      obtain ⟨future₁, hforth⟩ := hback future'
      obtain ⟨future, hforth₁⟩ := hback₁ future₁
      refine ⟨future, fun t hfits => ?_⟩
      obtain ⟨t₁, hrun, hfits₁⟩ := hforth₁ t hfits
      obtain ⟨t', hstep', hfits'⟩ := hforth t₁ hfits₁
      exact ⟨t', .call hrun (hallowed _ _) hstep', hfits'⟩

section Beside

variable {ι ε : Type}

def beside (m : κ → Program σ α) : Program (σ × κ) α := fun t =>
  ((m t.2).run t.1).map fun out => (out.1, (out.2, t.2))

theorem beside_bind (m : κ → Program σ α) (f : α → κ → Program σ β) :
    beside (fun k => m k >>= fun a => f a k) = beside m >>= fun a => beside (f a) := by
  funext t
  change ((m t.2 >>= fun a => f a t.2).run t.1).map _ = _
  rw [bind_run]
  change _ = ((((m t.2).run t.1).map fun out => (out.1, (out.2, t.2)))).bind _
  cases (m t.2).run t.1 with
  | none => rfl
  | some out => rfl

theorem beside_commands {ρ : ι → Type} (perform : κ → (c : ι) → Program σ (ρ c)) (p : Commands ρ α) :
    beside (fun k => p.run (perform k)) = p.run fun c => beside fun k => perform k c := by
  induction p with
  | done a => rfl
  | give c next ih =>
      simp only [Commands.run, beside_bind]
      exact congrArg _ (funext ih)

theorem beside_run {m : κ → Program σ α} {t t' : σ × κ} {a : α} :
    (beside m).run t = some (a, t') ↔ (m t.2).run t.1 = some (a, t'.1) ∧ t'.2 = t.2 := by
  constructor
  · intro h
    obtain ⟨⟨b, s⟩, hrun, hout⟩ := Option.map_eq_some_iff.mp h
    obtain ⟨rfl, rfl⟩ := Prod.mk.inj hout
    exact ⟨hrun, rfl⟩
  · rintro ⟨hrun, hsame⟩
    refine Option.map_eq_some_iff.mpr ⟨(a, t'.1), hrun, ?_⟩
    rw [← hsame]

def besideStep (step : κ → ι → σ → Except ε (β × σ)) (c : ι) (t : σ × κ) : Except ε (β × (σ × κ)) :=
  (step t.2 c t.1).map fun out => (out.1, (out.2, t.2))

theorem besideStep_ok {step : κ → ι → σ → Except ε (β × σ)} {c : ι} {t t' : σ × κ} {b : β} :
    besideStep step c t = .ok (b, t') ↔ step t.2 c t.1 = .ok (b, t'.1) ∧ t'.2 = t.2 := by
  rw [besideStep]
  cases step t.2 c t.1 with
  | error e => exact iff_of_false (fun h => by cases h) fun h => by cases h.1
  | ok out =>
      constructor
      · intro h
        obtain ⟨rfl, rfl⟩ := Prod.mk.inj (Except.ok.inj h)
        exact ⟨rfl, rfl⟩
      · rintro ⟨h, hsame⟩
        obtain rfl := Except.ok.inj h
        rw [← hsame]
        rfl

/-- The calls of a run, all told the same. -/
theorem Run.of_beside {step : κ → ι → σ → Except ε (β × σ)} {allowed : ι → σ → Prop} {t t' : σ × κ}
    {history : List (ι × β)} (h : Run (besideStep step) (fun c t => allowed c t.1) t history t') :
    Run (step t.2) allowed t.1 history t'.1 ∧ t'.2 = t.2 := by
  induction h with
  | nil => exact ⟨.nil, rfl⟩
  | call before hallowed hcall ih =>
      obtain ⟨hbefore, hsame⟩ := ih
      obtain ⟨hstep, hsame'⟩ := besideStep_ok.mp hcall
      rw [hsame] at hstep
      exact ⟨.call hbefore hallowed hstep, hsame'.trans hsame⟩

end Beside

end Programs
