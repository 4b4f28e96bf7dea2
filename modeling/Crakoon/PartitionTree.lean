import Mathlib.Data.List.Basic
import Mathlib.Order.Defs.LinearOrder

/-!
# Trees that partition a linear order

An internal node holds a boundary, a leaf holds a value; the leaves cut the order into as many ranges as there are
leaves. A descent asks at every boundary it meets which side to take, and may get no answer. The descent that a key
takes when the answer is the order itself (`orderSide`) ends at the leaf that has as many leaves on its left as there
are boundaries up to the key, provided the boundaries increase from left to right.
-/

universe u v

inductive PartitionTree.Side where
  | left
  | right
  deriving DecidableEq, Repr

inductive PartitionTree (κ : Type u) (α : Type v) where
  | leaf (value : α)
  | node (boundary : κ) (left right : PartitionTree κ α)

namespace PartitionTree

variable {κ : Type u} {α : Type v}

/-- The boundaries, from left to right. -/
def boundaries : PartitionTree κ α → List κ
  | .leaf _ => []
  | .node b l r => l.boundaries ++ b :: r.boundaries

/-- The values of the leaves, from left to right. -/
def leaves : PartitionTree κ α → List α
  | .leaf a => [a]
  | .node _ l r => l.leaves ++ r.leaves

section Descent

variable (side : κ → Option Side)

/-- The leaf a descent ends at, by the number of leaves on its left. -/
def descend : PartitionTree κ α → Option Nat
  | .leaf _ => some 0
  | .node b l r =>
      match side b with
      | none => none
      | some .left => l.descend
      | some .right => r.descend.map (l.leaves.length + ·)

/-- The value of the leaf a descent ends at. -/
def reach : PartitionTree κ α → Option α
  | .leaf a => some a
  | .node b l r =>
      match side b with
      | none => none
      | some .left => l.reach
      | some .right => r.reach

/-- The boundaries a descent asks at. -/
def met : PartitionTree κ α → List κ
  | .leaf _ => []
  | .node b l r =>
      b :: match side b with
        | none => []
        | some .left => l.met
        | some .right => r.met

end Descent

theorem length_leaves (t : PartitionTree κ α) : t.leaves.length = t.boundaries.length + 1 := by
  induction t with
  | leaf => rfl
  | node b l r ihl ihr =>
      simp only [leaves, boundaries, List.length_append, List.length_cons, ihl, ihr]
      omega

theorem descend_lt {side : κ → Option Side} {t : PartitionTree κ α} {i : Nat} (h : t.descend side = some i) :
    i < t.leaves.length := by
  induction t generalizing i with
  | leaf a =>
      obtain rfl : 0 = i := Option.some.inj h
      exact Nat.zero_lt_one
  | node b l r ihl ihr =>
      simp only [leaves, List.length_append]
      cases hb : side b with
      | none => simp [descend, hb] at h
      | some s =>
          cases s with
          | left =>
              simp only [descend, hb] at h
              have := ihl h
              omega
          | right =>
              simp only [descend, hb, Option.map_eq_some_iff] at h
              obtain ⟨j, hj, rfl⟩ := h
              have := ihr hj
              omega

/-- A descent reaches the value of the leaf it ends at. -/
theorem reach_eq (side : κ → Option Side) (t : PartitionTree κ α) :
    t.reach side = (t.descend side).bind (t.leaves[·]?) := by
  induction t with
  | leaf a => rfl
  | node b l r ihl ihr =>
      cases hb : side b with
      | none => simp [reach, descend, hb]
      | some s =>
          cases s with
          | left =>
              simp only [reach, descend, leaves, hb, ihl]
              cases hi : l.descend side with
              | none => rfl
              | some i =>
                  show l.leaves[i]? = (l.leaves ++ r.leaves)[i]?
                  rw [List.getElem?_append_left (descend_lt hi)]
          | right =>
              simp only [reach, descend, leaves, hb, ihr]
              cases r.descend side with
              | none => rfl
              | some i =>
                  show r.leaves[i]? = (l.leaves ++ r.leaves)[l.leaves.length + i]?
                  rw [List.getElem?_append_right (Nat.le_add_right _ _), Nat.add_sub_cancel_left]

/-- Two descents that agree at the boundaries one of them meets are the same. -/
theorem descent_congr {side side' : κ → Option Side} {t : PartitionTree κ α}
    (h : ∀ b ∈ t.met side, side' b = side b) :
    t.descend side' = t.descend side ∧ t.met side' = t.met side := by
  induction t with
  | leaf => exact ⟨rfl, rfl⟩
  | node b l r ihl ihr =>
      have hb : side' b = side b := h b List.mem_cons_self
      simp only [met] at h
      simp only [descend, met, hb]
      cases hs : side b with
      | none => exact ⟨rfl, rfl⟩
      | some s =>
          simp only [hs] at h
          cases s with
          | left =>
              obtain ⟨hd, hm⟩ := ihl fun b' hb' => h b' (List.mem_cons_of_mem _ hb')
              exact ⟨hd, congrArg _ hm⟩
          | right =>
              obtain ⟨hd, hm⟩ := ihr fun b' hb' => h b' (List.mem_cons_of_mem _ hb')
              exact ⟨congrArg (Option.map (l.leaves.length + ·)) hd, congrArg _ hm⟩

/-- Whether two descents part can be told from the boundaries that either of them meets. -/
theorem agree_met_iff (side side' : κ → Option Side) (t : PartitionTree κ α) :
    (∀ b ∈ t.met side, side b = side' b) ↔ ∀ b ∈ t.met side', side b = side' b := by
  constructor
  · intro h
    rw [(descent_congr fun b hb => (h b hb).symm).2]
    exact h
  · intro h
    rw [(descent_congr h).2]
    exact h

section Order

variable [LE κ] [LT κ] [DecidableLE κ] [DecidableLT κ] [Std.IsLinearOrder κ] [Std.LawfulOrderLT κ]

/-- The side on which a key lies of a boundary. -/
def orderSide (k b : κ) : Option Side := some (if k < b then .left else .right)

/-- The number of boundaries up to a key. -/
def rank (k : κ) (t : PartitionTree κ α) : Nat := t.boundaries.countP (· ≤ k)

/-- The boundaries increase from left to right. -/
def Increasing (t : PartitionTree κ α) : Prop := t.boundaries.Pairwise (· ≤ ·)

/-- In an increasing tree the order leads a key to the leaf of its rank. -/
theorem descend_orderSide {t : PartitionTree κ α} (h : t.Increasing) (k : κ) :
    t.descend (orderSide k) = some (t.rank k) := by
  induction t with
  | leaf => rfl
  | node b l r ihl ihr =>
      obtain ⟨hl, hbr, hlb⟩ := List.pairwise_append.mp h
      obtain ⟨hb, hr⟩ := List.pairwise_cons.mp hbr
      simp only [rank, boundaries, List.countP_append, List.countP_cons, decide_eq_true_eq]
      by_cases hk : k < b
      · -- none of the boundaries from `b` on is up to the key
        have hright : r.boundaries.countP (· ≤ k) = 0 := by
          apply List.countP_eq_zero.mpr
          intro b' hb'
          simpa using Std.not_le.mpr (Std.lt_of_lt_of_le hk (hb b' hb'))
        rw [descend, orderSide, if_pos hk, if_neg (Std.not_le.mpr hk), hright]
        exact ihl hl
      · -- all of them up to `b` are
        have hle : b ≤ k := Std.not_lt.mp hk
        have hleft : l.boundaries.countP (· ≤ k) = l.boundaries.length := by
          apply List.countP_eq_length.mpr
          intro b' hb'
          simpa using Std.le_trans (hlb b' hb' b List.mem_cons_self) hle
        rw [descend, orderSide, if_neg hk, if_pos hle, hleft]
        show (r.descend (orderSide k)).map (l.leaves.length + ·) = _
        rw [ihr hr, Option.map_some, length_leaves]
        congr 1
        simp only [rank]
        omega

omit [LT κ] [DecidableLT κ] [Std.LawfulOrderLT κ] in
theorem rank_mono (t : PartitionTree κ α) {k₁ k₂ : κ} (h : k₁ ≤ k₂) : t.rank k₁ ≤ t.rank k₂ := by
  apply List.countP_mono_left
  intro b _ hb
  simpa using Std.le_trans (of_decide_eq_true hb) h

end Order

end PartitionTree
