import Mathlib.Tactic.Common

/-!
# Machines that are driven by their inputs

A machine takes one input after the other and gives outputs; what it does with an input depends on its state alone.
`Path` lists what it takes and gives from one state to another, and `drive` runs it on the inputs there are until it
halts. The outputs are listed with the latest first, as logs are.
-/

namespace Machines

variable {σ ι ω α : Type}

/-- From `s` the machine takes the inputs, gives the outputs and comes to `s'`. -/
inductive Path (step : σ → ι → Option (List ω × σ)) : σ → List ι → List ω → σ → Prop where
  | nil (s : σ) : Path step s [] [] s
  | cons {s s₁ s' : σ} {i : ι} {is : List ι} {out outs : List ω} (hstep : step s i = some (out, s₁))
      (hrest : Path step s₁ is outs s') : Path step s (i :: is) (outs ++ out) s'

namespace Path

variable {step : σ → ι → Option (List ω × σ)} {s s₁ s' s'' : σ} {i : ι} {is is' : List ι} {out outs outs' : List ω}

theorem append (h : Path step s is outs s') (h' : Path step s' is' outs' s'') :
    Path step s (is ++ is') (outs' ++ outs) s'' := by
  induction h with
  | nil s => rwa [List.append_nil]
  | cons hstep _ ih =>
      rw [← List.append_assoc]
      exact .cons hstep (ih h')

theorem cons_iff : Path step s (i :: is) outs s' ↔
    ∃ out s₁ outs', step s i = some (out, s₁) ∧ Path step s₁ is outs' s' ∧ outs = outs' ++ out := by
  constructor
  · intro h
    cases h with
    | cons hstep hrest => exact ⟨_, _, _, hstep, hrest, rfl⟩
  · rintro ⟨out, s₁, outs', hstep, hrest, rfl⟩
    exact .cons hstep hrest

/-- The inputs determine the path. -/
theorem unique (h : Path step s is outs s') (h' : Path step s is outs' s'') : outs = outs' ∧ s' = s'' := by
  induction h generalizing outs' with
  | nil s =>
      cases h'
      exact ⟨rfl, rfl⟩
  | cons hstep _ ih =>
      obtain ⟨out', s₁', outs₁', hstep', hrest', rfl⟩ := cons_iff.mp h'
      obtain ⟨rfl, rfl⟩ := Prod.mk.inj (Option.some.inj (hstep.symm.trans hstep'))
      obtain ⟨rfl, rfl⟩ := ih hrest'
      exact ⟨rfl, rfl⟩

/-- A path over some inputs and then others passes through a state between them. -/
theorem split (h : Path step s (is ++ is') outs s') :
    ∃ s₁ outs₁ outs₂, Path step s is outs₁ s₁ ∧ Path step s₁ is' outs₂ s' ∧ outs = outs₂ ++ outs₁ := by
  induction is generalizing s outs with
  | nil => exact ⟨s, [], outs, .nil s, h, (List.append_nil outs).symm⟩
  | cons i is ih =>
      obtain ⟨out, s₁, outs', hstep, hrest, rfl⟩ := cons_iff.mp h
      obtain ⟨s₂, outs₁, outs₂, hfirst, hsecond, rfl⟩ := ih hrest
      exact ⟨s₂, outs₁ ++ out, outs₂, .cons hstep hfirst, hsecond, List.append_assoc ..⟩

/-- What holds at the start, and is kept by every step, of the state and of what was taken and given up to it. -/
theorem invariant {I : List ι → List ω → σ → Prop} (hstart : I [] [] s)
    (hstep : ∀ is outs s i out s', I is outs s → step s i = some (out, s') → I (is ++ [i]) (out ++ outs) s')
    (h : Path step s is outs s') : I is outs s' := by
  have hgeneral : ∀ before given, I before given s → I (before ++ is) (outs ++ given) s' := by
    clear hstart
    induction h with
    | nil s => exact fun before given hI => by rwa [List.append_nil, List.nil_append]
    | cons hfirst _ ih =>
        intro before given hI
        have hrest := ih _ _ (hstep before given _ _ _ _ hI hfirst)
        rwa [List.append_assoc, List.singleton_append, ← List.append_assoc] at hrest
  simpa using hgeneral [] [] hstart

end Path

section Drive

variable (step : σ → ι → Option (List ω × σ)) (halted : σ → Option α)

/-- Runs the machine on the inputs until it halts: its result, the inputs that are left and the outputs. -/
def drive : List ι → List ω → σ → Option (α × List ι × List ω)
  | [], log, s => (halted s).map fun a => (a, [], log)
  | i :: is, log, s =>
      match halted s with
      | some a => some (a, i :: is, log)
      | none => (step s i).bind fun out => drive is (out.1 ++ log) out.2

variable {step halted} {s : σ} {a : α} {is rest : List ι} {log log' : List ω}

theorem drive_halted (h : halted s = some a) : drive step halted is log s = some (a, is, log) := by
  cases is with
  | nil => rw [drive, h, Option.map_some]
  | cons i is => rw [drive, h]

theorem drive_cons {i : ι} (h : halted s = none) : drive step halted (i :: is) log s =
    (step s i).bind fun out => drive step halted is (out.1 ++ log) out.2 := by rw [drive, h]

theorem drive_nil (h : halted s = none) : drive step halted [] log s = none := by rw [drive, h, Option.map_none]

/-- A run is a path to a state in which the machine has halted. -/
theorem drive_eq_some_iff (hstuck : ∀ s a i, halted s = some a → step s i = none) :
    drive step halted is log s = some (a, rest, log') ↔ ∃ used outs s',
      is = used ++ rest ∧ log' = outs ++ log ∧ Path step s used outs s' ∧ halted s' = some a := by
  constructor
  · intro h
    induction is generalizing s log with
    | nil =>
        obtain ⟨b, hb, hout⟩ := Option.map_eq_some_iff.mp h
        obtain ⟨rfl, rfl, rfl⟩ : b = a ∧ [] = rest ∧ log = log' := by simpa using hout
        exact ⟨[], [], s, rfl, rfl, .nil s, hb⟩
    | cons i is ih =>
        cases hhalted : halted s with
        | some b =>
            rw [drive_halted hhalted] at h
            obtain ⟨rfl, rfl, rfl⟩ : b = a ∧ i :: is = rest ∧ log = log' := by simpa using h
            exact ⟨[], [], s, rfl, rfl, .nil s, hhalted⟩
        | none =>
            rw [drive_cons hhalted] at h
            obtain ⟨⟨out, s₁⟩, hstep, hrest⟩ := Option.bind_eq_some_iff.mp h
            obtain ⟨used, outs, s', rfl, rfl, hpath, hend⟩ := ih hrest
            exact ⟨i :: used, outs ++ out, s', rfl, (List.append_assoc ..).symm, .cons hstep hpath, hend⟩
  · rintro ⟨used, outs, s', rfl, rfl, hpath, hend⟩
    induction hpath generalizing log with
    | nil s => exact drive_halted hend
    | @cons s s₁ s' i is out outs hstep _ ih =>
        have hgoes : halted s = none := by
          cases hhalted : halted s with
          | none => rfl
          | some b =>
              rw [hstuck s b i hhalted] at hstep
              cases hstep
        rw [List.cons_append, drive_cons hgoes, hstep, Option.bind_some, ih hend, List.append_assoc]

end Drive

end Machines
