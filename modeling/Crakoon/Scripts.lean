import Mathlib.Tactic.Common

/-!
# Scripts of reads and requests

What a decoder does, in order: it reads words off its input, and it makes requests, which may be refused. A decoder
that stops at the first request that is refused has read its input to the end if and only if the requests before the
last of the input are met (`reads_out_iff`).
-/

namespace Scripts

variable {α : Type}

inductive Act (α : Type) where
  | request
  | read (word : List α)

abbrev Script (α : Type) := List (Act α)

/-- All that is read. -/
@[simp] def word : Script α → List α
  | [] => []
  | .request :: t => word t
  | .read w :: t => w ++ word t

@[simp] def requests : Script α → Nat
  | [] => 0
  | .request :: t => requests t + 1
  | .read _ :: t => requests t

/-- How many requests come before the last of what is read. -/
def needed : Script α → Nat
  | [] => 0
  | .request :: t => if word t = [] then 0 else needed t + 1
  | .read _ :: t => needed t

/-- What is left behind the first request that is refused, if one is. The requests are numbered on from `n`. -/
def stop (met : Nat → Bool) : Nat → Script α → Option (Script α)
  | _, [] => none
  | n, .request :: t => if met n then stop met (n + 1) t else some t
  | n, .read _ :: t => stop met n t

theorem word_append (t t' : Script α) : word (t ++ t') = word t ++ word t' := by
  induction t with
  | nil => rfl
  | cons a t ih =>
      cases a with
      | request => exact ih
      | read w => rw [List.cons_append, word, word, ih, List.append_assoc]

theorem requests_append (t t' : Script α) : requests (t ++ t') = requests t + requests t' := by
  induction t with
  | nil => exact (Nat.zero_add _).symm
  | cons a t ih =>
      cases a with
      | request => rw [List.cons_append, requests, requests, ih, Nat.add_right_comm]
      | read w => exact ih

/-- Requests with nothing to read behind them are not needed. -/
theorem needed_of_silent {t : Script α} (h : word t = []) : needed t = 0 := by
  induction t with
  | nil => rfl
  | cons a t ih =>
      cases a with
      | request =>
          have hrest : word t = [] := h
          rw [needed, if_pos hrest]
      | read w => exact ih (List.append_eq_nil_iff.mp h).2

theorem needed_append (t t' : Script α) :
    needed (t ++ t') = if word t' = [] then needed t else requests t + needed t' := by
  induction t with
  | nil =>
      split_ifs with hsilent
      · exact needed_of_silent hsilent
      · exact (Nat.zero_add _).symm
  | cons a t ih =>
      cases a with
      | request =>
          rw [List.cons_append, needed, needed, requests, word_append, ih]
          by_cases hsilent : word t' = []
          · rw [if_pos hsilent, if_pos hsilent, hsilent, List.append_nil]
          · rw [if_neg hsilent, if_neg hsilent, if_neg fun h => hsilent (List.append_eq_nil_iff.mp h).2]
            omega
      | read w => exact ih

variable {met : Nat → Bool} {n : Nat}

theorem stop_append (t t' : Script α) : stop met n (t ++ t') =
    match stop met n t with
    | none => stop met (n + requests t) t'
    | some left => some (left ++ t') := by
  induction t generalizing n with
  | nil => rfl
  | cons a t ih =>
      cases a with
      | request =>
          rw [List.cons_append, stop, stop, requests]
          by_cases hmet : met n = true
          · rw [if_pos hmet, if_pos hmet, ih, Nat.add_assoc, Nat.add_comm 1]
          · rw [if_neg hmet, if_neg hmet]
      | read w => exact ih

/-- What is left to read is the end of what is read. -/
theorem stop_suffix {t left : Script α} (h : stop met n t = some left) : word left <:+ word t := by
  induction t generalizing n with
  | nil => cases h
  | cons a t ih =>
      cases a with
      | request =>
          rw [stop] at h
          split_ifs at h with hmet
          · exact ih h
          · obtain rfl := Option.some.inj h
            exact List.suffix_rfl
      | read w => exact (ih h).trans (List.suffix_append w (word t))

/-- Nothing is left to read if and only if the requests before the last of it are met. -/
theorem reads_out_iff (t : Script α) : (∀ left, stop met n t = some left → word left = []) ↔
    ∀ i < needed t, met (n + i) = true := by
  induction t generalizing n with
  | nil => exact ⟨fun _ i hi => absurd hi (Nat.not_lt_zero i), fun _ left h => by cases h⟩
  | cons a t ih =>
      cases a with
      | read w => exact ih
      | request =>
          rw [stop, needed]
          by_cases hsilent : word t = []
          · rw [if_pos hsilent]
            refine iff_of_true (fun left h => ?_) fun i hi => absurd hi (Nat.not_lt_zero i)
            split_ifs at h with hmet
            · exact List.suffix_nil.mp (hsilent ▸ stop_suffix h)
            · exact Option.some.inj h ▸ hsilent
          · rw [if_neg hsilent]
            by_cases hmet : met n = true
            · rw [if_pos hmet, ih]
              constructor
              · intro h i hi
                cases i with
                | zero => exact hmet
                | succ i =>
                    have hrest := h i (Nat.lt_of_succ_lt_succ hi)
                    rwa [Nat.add_assoc, Nat.add_comm 1] at hrest
              · intro h i hi
                rw [Nat.add_assoc, Nat.add_comm 1]
                exact h (i + 1) (Nat.succ_lt_succ hi)
            · rw [if_neg hmet]
              exact iff_of_false (fun h => hsilent (h t rfl)) fun h => hmet (h 0 (Nat.succ_pos _))

end Scripts
