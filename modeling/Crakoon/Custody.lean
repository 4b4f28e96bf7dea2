import Crakoon.Ledger
import Crakoon.Program
import Mathlib.Algebra.Order.Group.Multiset
import Mathlib.Logic.Function.Basic
import Mathlib.Tactic.Abel

/-!
# Programs that hold handles

A program whose state has an account of handles takes some and gives some back. `Custody` says which handles a program
holds when it is done, if it started with others, and that it has given back no other ones on the way; whatever else
is held beside these stays held (`Custody.frame`). The rules follow the structure of a program. Over a run of calls,
each of which keeps the books, the books are kept (`Run.custody`). `Exclusive` says that each handle has one owner.
-/

namespace Programs

open Ledger

variable {σ η α β : Type} [DecidableEq η]

/-- No handle was given back that was not held, and these are held. -/
structure Owns (account : List (Entry η)) (hs : Multiset η) : Prop where
  clean : Clean account
  held : (held account : Multiset η) = hs

namespace Owns

variable {account : List (Entry η)} {hs : Multiset η}

theorem opened (h : Owns account hs) (a : η) : Owns (.opened a :: account) ({a} + hs) := by
  refine ⟨h.clean, ?_⟩
  rw [Ledger.held, ← Multiset.cons_coe, h.held, Multiset.singleton_add]

theorem closed {a : η} (h : Owns account ({a} + hs)) : Owns (.closed a :: account) hs := by
  have hheld : (Ledger.held account : Multiset η) = a ::ₘ hs := by rw [h.held, Multiset.singleton_add]
  refine ⟨⟨?_, h.clean⟩, ?_⟩
  · rw [← Multiset.mem_coe, hheld]
    exact Multiset.mem_cons_self a hs
  · rw [Ledger.held, ← Multiset.coe_erase, hheld, Multiset.erase_cons_head]

end Owns

/-- Started with the handles `hs`, and whatever others, a program that has an outcome has given back only handles that
it held, and then it holds handles of `Q`, and the others. -/
def Custody (account : σ → List (Entry η)) (m : Program σ α) (hs : Multiset η) (Q : α → Multiset η → Prop) : Prop :=
  ∀ s others, Owns (account s) (hs + others) →
    Ensures m s fun a s' => ∃ hs', Q a hs' ∧ Owns (account s') (hs' + others)

namespace Custody

variable {account : σ → List (Entry η)} {m : Program σ α} {hs : Multiset η} {P Q : α → Multiset η → Prop}

theorem pure {a : α} (h : Q a hs) : Custody account (Pure.pure a : Program σ α) hs Q :=
  fun _ _ howns => Ensures.pure ⟨hs, h, howns⟩

theorem abort : Custody account (fun _ => none : Program σ α) hs Q := by
  intro s others _ a s' hrun
  cases hrun

theorem bind {f : α → Program σ β} {R : β → Multiset η → Prop} (hm : Custody account m hs P)
    (hf : ∀ a hs₁, P a hs₁ → Custody account (f a) hs₁ R) : Custody account (m >>= f) hs R := by
  intro s others howns
  refine Ensures.bind (hm s others howns) fun a s₁ ⟨hs₁, hP, howns₁⟩ => ?_
  exact hf a hs₁ hP s₁ others howns₁

theorem mono (hm : Custody account m hs P) (h : ∀ a hs', P a hs' → Q a hs') : Custody account m hs Q :=
  fun s others howns => (hm s others howns).mono fun a _ ⟨hs', hP, howns'⟩ => ⟨hs', h a hs' hP, howns'⟩

/-- What is known of every outcome anyhow. -/
theorem and {P : α → Prop} (hm : Custody account m hs Q) (h : ∀ s, Ensures m s fun a _ => P a) :
    Custody account m hs fun a hs' => Q a hs' ∧ P a := by
  intro s others howns a s' hrun
  obtain ⟨hs', hQ, howns'⟩ := hm s others howns a s' hrun
  exact ⟨hs', ⟨hQ, h s a s' hrun⟩, howns'⟩

/-- What is held beside the handles of a program stays held. -/
theorem frame (hm : Custody account m hs Q) (rest : Multiset η) :
    Custody account m (hs + rest) fun a hs' => ∃ hs₁, Q a hs₁ ∧ hs' = hs₁ + rest := by
  intro s others howns
  rw [add_assoc] at howns
  refine (hm s (rest + others) howns).mono fun a s' ⟨hs₁, hQ, howns'⟩ => ?_
  refine ⟨hs₁ + rest, ⟨hs₁, hQ, rfl⟩, ?_⟩
  rw [add_assoc]
  exact howns'

/-- The first part of a program needs some of the handles only. -/
theorem bind_frame {f : α → Program σ β} {R : β → Multiset η → Prop} {rest : Multiset η}
    (hm : Custody account m hs P) (hf : ∀ a hs₁, P a hs₁ → Custody account (f a) (hs₁ + rest) R) :
    Custody account (m >>= f) (hs + rest) R := by
  refine (hm.frame rest).bind fun a hs' ⟨hs₁, hP, heq⟩ => ?_
  subst heq
  exact hf a hs₁ hP

/-- The first part of a program needs none of the handles. -/
theorem bind_take {f : α → Program σ β} {R : β → Multiset η → Prop} (hm : Custody account m 0 P)
    (hf : ∀ a hs₁, P a hs₁ → Custody account (f a) (hs₁ + hs) R) : Custody account (m >>= f) hs R := by
  rw [← zero_add hs]
  exact hm.bind_frame hf

/-- The first part of a program gives its handles back. -/
theorem bind_give {f : α → Program σ β} {R : β → Multiset η → Prop} {rest : Multiset η}
    (hm : Custody account m hs fun _ hs' => hs' = 0) (hf : ∀ a, Custody account (f a) rest R) :
    Custody account (m >>= f) (hs + rest) R := by
  refine hm.bind_frame fun a hs₁ h₁ => ?_
  rw [h₁, zero_add]
  exact hf a

theorem congr {hs' : Multiset η} (hm : Custody account m hs Q) (h : hs = hs') : Custody account m hs' Q := h ▸ hm

theorem ite {c : Prop} [Decidable c] {n : Program σ α} (hm : c → Custody account m hs Q)
    (hn : ¬c → Custody account n hs Q) : Custody account (if c then m else n) hs Q := by
  by_cases h : c
  · rw [if_pos h]
    exact hm h
  · rw [if_neg h]
    exact hn h

end Custody

section Lists

variable {γ : Type}

/-- Does `m` to the first element that is picked; what it leaves of the element stays in its place. There is no outcome
where none is picked. -/
def onFirst (picked : γ → Bool) (m : γ → Program σ (β × Option γ)) : List γ → Program σ (β × List γ)
  | [] => fun _ => none
  | a :: as =>
      if picked a = true then do
        let out ← m a
        pure (out.1, out.2.toList ++ as)
      else do
        let out ← onFirst picked m as
        pure (out.1, a :: out.2)

variable {account : σ → List (Entry η)} {picked : γ → Bool} {m : γ → Program σ (β × Option γ)} {own : γ → Multiset η}
  {L : β → Multiset η → Prop}

/-- Where every element has handles of its own, and the program on an element, which is given others besides, leaves
those of what is left of it, and lost ones of `L`, all are accounted for. -/
theorem Custody.onFirst_given {given : Multiset η} (h : ∀ a, Custody account (m a) (own a + given) fun out hs =>
      ∃ lost, hs = out.2.elim 0 own + lost ∧ L out.1 lost) (as : List γ) :
    Custody account (Programs.onFirst picked m as) ((as.map own).sum + given) fun out hs =>
      ∃ lost, hs = (out.2.map own).sum + lost ∧ L out.1 lost := by
  induction as with
  | nil => exact .abort
  | cons a as ih =>
      rw [List.map_cons, List.sum_cons]
      refine .ite (fun _ => ?_) fun _ => ?_
      · rw [add_right_comm]
        refine (h a).bind_frame fun out hs₁ ⟨lost, hheld, hL⟩ => .pure ⟨lost, ?_, hL⟩
        cases hout : out.2 with
        | none =>
            rw [hheld, hout, Option.elim_none, Option.toList_none, List.nil_append]
            abel
        | some b =>
            rw [hheld, hout, Option.elim_some, Option.toList_some, List.singleton_append, List.map_cons, List.sum_cons]
            abel
      · rw [add_assoc, add_comm]
        refine ih.bind_frame fun out hs₁ ⟨lost, hheld, hL⟩ => .pure ⟨lost, ?_, hL⟩
        rw [hheld, List.map_cons, List.sum_cons]
        abel

theorem Custody.onFirst (h : ∀ a, Custody account (m a) (own a) fun out hs =>
      ∃ lost, hs = out.2.elim 0 own + lost ∧ L out.1 lost) (as : List γ) :
    Custody account (Programs.onFirst picked m as) (as.map own).sum fun out hs =>
      ∃ lost, hs = (out.2.map own).sum + lost ∧ L out.1 lost :=
  (Custody.onFirst_given (fun a => (h a).congr (add_zero (own a)).symm) as).congr (add_zero _)

/-- The outcome is that of the program on an element that is picked, and there is one where one is picked. -/
theorem settles_onFirst {ends : Prop} {P : γ → β → Option γ → Prop} {as : List γ}
    (h : ∀ a s, picked a = true → Settles ends (m a) s fun out _ => P a out.1 out.2)
    (hpicked : ends → ∃ a ∈ as, picked a = true) (s : σ) :
    Settles ends (onFirst picked m as) s fun out _ => ∃ before a after left,
      as = before ++ a :: after ∧ picked a = true ∧ P a out.1 left ∧ out.2 = before ++ (left.toList ++ after) := by
  induction as with
  | nil => exact .abort fun hends => by simpa using hpicked hends
  | cons a as ih =>
      refine .ite (fun hhere => ?_) fun hhere => ?_
      · exact (h a s hhere).bind fun out _ hP => .pure ⟨[], a, as, out.2, rfl, hhere, hP, rfl⟩
      · have hlater : ends → ∃ a ∈ as, picked a = true := by
          intro hends
          obtain ⟨b, hmem, hb⟩ := hpicked hends
          rcases List.mem_cons.mp hmem with rfl | hmem
          · exact absurd hb hhere
          · exact ⟨b, hmem, hb⟩
        refine (ih hlater).bind fun out _ ⟨before, a', after, left, has, hthere, hP, hout⟩ => .pure ?_
        exact ⟨a :: before, a', after, left, congrArg (a :: ·) has, hthere, hP, congrArg (a :: ·) hout⟩

theorem ensures_onFirst {P : γ → β → Option γ → Prop} (h : ∀ a s, Ensures (m a) s fun out _ => P a out.1 out.2)
    (as : List γ) (s : σ) :
    Ensures (onFirst picked m as) s fun out _ => ∃ before a after left,
      as = before ++ a :: after ∧ picked a = true ∧ P a out.1 left ∧ out.2 = before ++ (left.toList ++ after) :=
  (settles_onFirst (fun a s _ => ⟨h a s, False.elim⟩) False.elim s).ensures

end Lists

section Owners

variable {ν : Type}

/-- Each of the handles has one owner, and the owners have no others. -/
structure Exclusive (owns : ν → Option η) (live : List η) : Prop where
  mem_iff : ∀ a, a ∈ live ↔ ∃ v, owns v = some a
  unique : ∀ {v v' a}, owns v = some a → owns v' = some a → v = v'

namespace Exclusive

variable {owns : ν → Option η} {live live' : List η} {v : ν} {a : η}

omit [DecidableEq η] in
theorem empty : Exclusive (fun _ : ν => (none : Option η)) [] :=
  ⟨fun a => ⟨fun h => absurd h List.not_mem_nil, fun ⟨_, h⟩ => by cases h⟩, fun h => by cases h⟩

variable [DecidableEq ν]

omit [DecidableEq η] in
theorem take (h : Exclusive owns live) (hv : owns v = none) (ha : a ∉ live) :
    Exclusive (Function.update owns v (some a)) (a :: live) := by
  have hother : ∀ {b v'}, Function.update owns v (some a) v' = some b → v' = v ∧ b = a ∨ v' ≠ v ∧ owns v' = some b := by
    intro b v' hb
    by_cases hv' : v' = v
    · subst hv'
      rw [Function.update_self] at hb
      exact .inl ⟨rfl, (Option.some.inj hb).symm⟩
    · rw [Function.update_of_ne hv'] at hb
      exact .inr ⟨hv', hb⟩
  refine ⟨fun b => ⟨fun hb => ?_, fun ⟨v', hb⟩ => ?_⟩, fun hb hb' => ?_⟩
  · rcases List.mem_cons.mp hb with rfl | hb
    · exact ⟨v, Function.update_self ..⟩
    · obtain ⟨v', hv'⟩ := (h.mem_iff b).mp hb
      have hne : v' ≠ v := by
        rintro rfl
        rw [hv] at hv'
        cases hv'
      exact ⟨v', (Function.update_of_ne hne ..).trans hv'⟩
  · rcases hother hb with ⟨-, rfl⟩ | ⟨-, hb⟩
    · exact List.mem_cons_self
    · exact List.mem_cons_of_mem _ ((h.mem_iff b).mpr ⟨v', hb⟩)
  · rcases hother hb with ⟨hv₁, hb₁⟩ | ⟨-, hold₁⟩ <;> rcases hother hb' with ⟨hv₂, hb₂⟩ | ⟨-, hold₂⟩
    · rw [hv₁, hv₂]
    · exact absurd ((h.mem_iff a).mpr ⟨_, hb₁ ▸ hold₂⟩) ha
    · exact absurd ((h.mem_iff a).mpr ⟨_, hb₂ ▸ hold₁⟩) ha
    · exact h.unique hold₁ hold₂

omit [DecidableEq η] in
theorem give (h : Exclusive owns live) (hv : owns v = some a) (hlive : ∀ b, b ∈ live' ↔ b ∈ live ∧ b ≠ a) :
    Exclusive (Function.update owns v none) live' := by
  have hother : ∀ {b v'}, Function.update owns v none v' = some b ↔ v' ≠ v ∧ owns v' = some b := by
    intro b v'
    by_cases hv' : v' = v
    · simp [hv']
    · simp [hv']
  refine ⟨fun b => ?_, fun hb hb' => h.unique (hother.mp hb).2 (hother.mp hb').2⟩
  rw [hlive, h.mem_iff]
  constructor
  · rintro ⟨⟨v', hv'⟩, hne⟩
    refine ⟨v', hother.mpr ⟨?_, hv'⟩⟩
    rintro rfl
    exact hne (Option.some.inj (hv'.symm.trans hv))
  · rintro ⟨v', hb⟩
    obtain ⟨hne, hb⟩ := hother.mp hb
    exact ⟨⟨v', hb⟩, fun hba => hne (h.unique (hba ▸ hb) hv)⟩

end Exclusive

end Owners

/-- Where every call keeps the handles of the state, but for some that it loses, a run does. What `n` calls may lose is
`L n`. -/
theorem Run.custody {κ ε : Type} {step : κ → σ → Except ε (β × σ)} {allowed : κ → σ → Prop} {start s : σ}
    (account : σ → List (Entry η)) (own : σ → Multiset η) (L : Nat → Multiset η → Prop) {n : κ → β → Nat} (hnone : L 0 0)
    (hadd : ∀ {i j lost lost'}, L i lost → L j lost' → L (i + j) (lost + lost'))
    (hstart : Owns (account start) (own start))
    (hstep : ∀ c s b s' others, allowed c s → step c s = .ok (b, s') → Owns (account s) (own s + others) →
      ∃ lost, Owns (account s') (own s' + lost + others) ∧ L (n c b) lost)
    {history : List (κ × β)} (h : Run step allowed start history s) :
    ∃ lost, Owns (account s) (own s + lost) ∧ L (history.map fun e => n e.1 e.2).sum lost := by
  refine h.traced (I := fun history s => ∃ lost, Owns (account s) (own s + lost) ∧
    L (history.map fun e => n e.1 e.2).sum lost) ⟨0, (add_zero (own start)).symm ▸ hstart, hnone⟩ ?_
  rintro history c s b s' ⟨lost, howns, hlost⟩ hallowed hcall
  obtain ⟨lost', howns', hlost'⟩ := hstep c s b s' lost hallowed hcall howns
  refine ⟨lost' + lost, add_assoc (own s') lost' lost ▸ howns', ?_⟩
  rw [List.map_cons, List.sum_cons]
  exact hadd hlost' hlost

end Programs
