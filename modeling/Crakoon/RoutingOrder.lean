import Crakoon.PartitionTree
import Crakoon.Routing

/-!
# The lookup of a key and the order of the keys

`_arakoon_nursery_routing_node_lookup` asks `memcmp` for the sign of as many bytes as the key has, whatever the length
of the boundary. Where the key and the boundary differ within both, the sign is that of the byte order. A key that is a
proper prefix of the boundary compares equal to it and goes right, although it is smaller; for a key that is longer than
the boundary and its terminator more bytes are asked for than the block has, wherever the two differ. These are the only
exceptions (`nurseryRoutingSide_eq_iff`), so a lookup whose way down meets neither ends at the leaf that the order of the
keys assigns to it (`lookup_follows_order`).
-/

namespace Crakoon

open PartitionTree

/-- The boundaries and the cluster names of a routing tree. -/
def RoutingNode.partition : RoutingNode → PartitionTree Bytes Bytes
  | .leaf cluster => .leaf cluster
  | .internal boundary left right => .node boundary left.partition right.partition

/-- The child that the lookup of a key goes on with at an internal node. -/
def nurseryRoutingSide (key boundary : Bytes) : Option Side :=
  (memcmp key (boundary ++ [0])).map fun sign => if sign = .lt then .left else .right

/-- The lookup is the descent by `nurseryRoutingSide`. -/
theorem nurseryRoutingNodeLookup_eq (key : Bytes) (node : RoutingNode) :
    nurseryRoutingNodeLookup key node = node.partition.reach (nurseryRoutingSide key) := by
  induction node with
  | leaf cluster => rfl
  | internal boundary left right ihl ihr =>
      simp only [nurseryRoutingNodeLookup, RoutingNode.partition, reach, nurseryRoutingSide]
      cases memcmp key (boundary ++ [0]) with
      | none => rfl
      | some sign => cases sign <;> assumption

/-- The key is no proper prefix of the boundary, and no longer than the boundary with its terminator. -/
structure Comparable (key boundary : Bytes) : Prop where
  reaches : key <+: boundary → key = boundary
  within : key.length ≤ boundary.length + 1

/-- The first difference is that of the byte order if, and only if, the key does not end before it. -/
theorem firstDifference_lt_iff (key boundary : Bytes) :
    (firstDifference key (boundary ++ [0]) = .lt ↔ key < boundary) ↔ (key <+: boundary → key = boundary) := by
  induction key generalizing boundary with
  | nil => cases boundary <;> simp [firstDifference]
  | cons k key ih =>
      cases boundary with
      | nil =>
          by_cases hk : k = 0
          · subst hk
            cases key <;> simp [firstDifference]
          · have hgt : compare k 0 ≠ .lt := by simp [Std.compare_eq_lt]
            simp [firstDifference, hk, hgt]
      | cons b boundary =>
          by_cases hk : k = b
          · subst hk
            have hdifference :
                firstDifference (k :: key) (k :: boundary ++ [0]) = firstDifference key (boundary ++ [0]) := by
              simp [firstDifference]
            rw [hdifference, List.cons_lt_cons_self, ih boundary]
            simp
          · have hlt : compare k b = .lt ↔ k < b := Std.compare_eq_lt
            simp [firstDifference, List.cons_lt_cons_iff, hk, hlt]

/-- The comparison of a node agrees with the order of the keys if, and only if, neither of the two is cut off. -/
theorem nurseryRoutingSide_eq_iff (key boundary : Bytes) :
    nurseryRoutingSide key boundary = orderSide key boundary ↔ Comparable key boundary := by
  have hparts : Comparable key boundary ↔
      (key <+: boundary → key = boundary) ∧ key.length ≤ boundary.length + 1 :=
    ⟨fun h => ⟨h.reaches, h.within⟩, fun h => ⟨h.1, h.2⟩⟩
  rw [hparts, ← firstDifference_lt_iff]
  by_cases hlength : key.length ≤ boundary.length + 1
  · have hside : nurseryRoutingSide key boundary =
        some (if firstDifference key (boundary ++ [0]) = .lt then .left else .right) := by
      simp [nurseryRoutingSide, memcmp, hlength]
    rw [hside, orderSide]
    by_cases hlt : key < boundary
    · simp [hlt, hlength]
    · simp [hlt, hlength]
  · have hside : nurseryRoutingSide key boundary = none := by
      simp [nurseryRoutingSide, memcmp, hlength]
    simp [hside, orderSide, hlength]

namespace RoutingNode

/-- The leaf at which the lookup of a key ends, by the number of leaves on its left. -/
def leafOf (node : RoutingNode) (key : Bytes) : Option Nat := node.partition.descend (nurseryRoutingSide key)

/-- No boundary on the way that the order assigns to the key cuts the comparison off. -/
def Comparable (node : RoutingNode) (key : Bytes) : Prop :=
  ∀ boundary ∈ node.partition.met (orderSide key), Crakoon.Comparable key boundary

/-- At every internal node the lookup comes to, it looks at no byte after the terminator and goes on, with the left
child exactly if the key is smaller than the boundary; and if the boundaries increase, it ends at the leaf whose number
is that of the boundaries up to the key. -/
structure RoutesByOrder (node : RoutingNode) (key : Bytes) : Prop where
  turns : ∀ boundary ∈ node.partition.met (nurseryRoutingSide key),
    ∃ side, nurseryRoutingSide key boundary = some side ∧ (side = .left ↔ key < boundary)
  ends : node.partition.Increasing →
    node.leafOf key = some (node.partition.boundaries.countP (· ≤ key)) ∧
      nurseryRoutingNodeLookup key node = node.partition.leaves[node.partition.boundaries.countP (· ≤ key)]?

/-- The leaf of the smaller key is not on the right of the leaf of the other one. -/
def KeepsOrder (node : RoutingNode) (k₁ k₂ : Bytes) : Prop :=
  node.partition.Increasing → k₁ ≤ k₂ → ∃ i₁ i₂, node.leafOf k₁ = some i₁ ∧ node.leafOf k₂ = some i₂ ∧ i₁ ≤ i₂

/-- A turn by the order, in words. -/
theorem turn_iff (key boundary : Bytes) :
    (∃ side, nurseryRoutingSide key boundary = some side ∧ (side = .left ↔ key < boundary)) ↔
      nurseryRoutingSide key boundary = orderSide key boundary := by
  constructor
  · intro h
    obtain ⟨side, hside, hleft⟩ := h
    rw [hside, orderSide]
    by_cases hlt : key < boundary
    · rw [if_pos hlt, hleft.mpr hlt]
    · rw [if_neg hlt]
      cases side with
      | left => exact absurd (hleft.mp rfl) hlt
      | right => rfl
  · intro h
    refine ⟨_, h, ?_⟩
    by_cases hlt : key < boundary
    · simp [hlt]
    · simp [hlt]

theorem comparable_iff (node : RoutingNode) (key : Bytes) :
    node.Comparable key ↔
      ∀ boundary ∈ node.partition.met (nurseryRoutingSide key),
        ∃ side, nurseryRoutingSide key boundary = some side ∧ (side = .left ↔ key < boundary) := by
  simp only [turn_iff, Comparable, ← nurseryRoutingSide_eq_iff]
  exact (agree_met_iff _ _ _).symm

theorem leafOf_eq {node : RoutingNode} {key : Bytes} (h : node.Comparable key) (hinc : node.partition.Increasing) :
    node.leafOf key = some (node.partition.rank key) := by
  have hdescent := (descent_congr fun boundary hb => (nurseryRoutingSide_eq_iff key boundary).mpr (h boundary hb)).1
  rw [leafOf, hdescent, descend_orderSide hinc]

theorem routesByOrder_iff (node : RoutingNode) (key : Bytes) : node.RoutesByOrder key ↔ node.Comparable key := by
  constructor
  · intro h
    exact (comparable_iff node key).mpr h.turns
  · intro h
    refine ⟨(comparable_iff node key).mp h, fun hinc => ?_⟩
    have hleaf := leafOf_eq h hinc
    refine ⟨hleaf, ?_⟩
    rw [leafOf] at hleaf
    rw [nurseryRoutingNodeLookup_eq, reach_eq, hleaf]
    rfl

end RoutingNode

/-- The lookups of two keys follow the byte order if, and only if, neither of them meets a boundary of which it is a
proper prefix, nor one that is, with its terminator, shorter than the key. -/
theorem lookup_follows_order (node : RoutingNode) (k₁ k₂ : Bytes) :
    (node.RoutesByOrder k₁ ∧ node.RoutesByOrder k₂ ∧ node.KeepsOrder k₁ k₂) ↔
      (node.Comparable k₁ ∧ node.Comparable k₂) := by
  rw [node.routesByOrder_iff k₁, node.routesByOrder_iff k₂]
  constructor
  · intro h
    exact ⟨h.1, h.2.1⟩
  · intro h
    refine ⟨h.1, h.2, fun hinc hle => ?_⟩
    exact ⟨_, _, RoutingNode.leafOf_eq h.1 hinc, RoutingNode.leafOf_eq h.2 hinc, rank_mono _ hle⟩

/-- The clusters `l` and `r` with the boundary `bc` between them. -/
def boundaryNode : RoutingNode := .internal [98, 99] (.leaf [108]) (.leaf [114])

/-- The key `b` is smaller than the boundary and goes right, and so past the larger key `ba`; for the keys `bc\0d` and
`acde` bytes after the terminator are asked for. -/
theorem lookup_prefix_misrouted :
    boundaryNode.partition.Increasing ∧ ([98] : Bytes) < [98, 99] ∧
      nurseryRoutingNodeLookup [98] boundaryNode = some [114] ∧
      nurseryRoutingNodeLookup [98, 99, 0, 100] boundaryNode = none ∧
      nurseryRoutingNodeLookup [97, 99, 100, 101] boundaryNode = none ∧
      ¬ boundaryNode.RoutesByOrder [98] ∧ ¬ boundaryNode.KeepsOrder [98] [98, 97] ∧
      ¬ boundaryNode.RoutesByOrder [98, 99, 0, 100] ∧ ¬ boundaryNode.RoutesByOrder [97, 99, 100, 101] := by
  have hinc : boundaryNode.partition.Increasing := List.pairwise_singleton _ _
  refine ⟨hinc, by decide, by decide, by decide, by decide, ?_, ?_, ?_, ?_⟩
  · intro h
    exact absurd (h.ends hinc).1 (by decide)
  · intro h
    obtain ⟨i₁, i₂, h₁, h₂, hle⟩ := h hinc (by decide)
    have hright : boundaryNode.leafOf [98] = some 1 := by decide
    have hleft : boundaryNode.leafOf [98, 97] = some 0 := by decide
    have hi₁ := Option.some.inj (h₁.symm.trans hright)
    have hi₂ := Option.some.inj (h₂.symm.trans hleft)
    omega
  · intro h
    exact absurd (h.ends hinc).1 (by decide)
  · intro h
    exact absurd (h.ends hinc).1 (by decide)

end Crakoon
