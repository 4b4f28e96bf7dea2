import Mathlib.Data.List.Nodup
import Mathlib.Tactic.Common

/-!
# Chains of cells

A singly linked chain in a store of cells. Each cell has an address, holds an item and may point at a next cell.
`Chain cells p xs` says that from `p` the cells lead to the items `xs`, with their addresses, and to an end; so a
chain has no loop (`Chain.nodup`). The rules put a cell in front of a chain or behind it. `Visits` leaves out the
items: it depends on where the cells point, and on nothing else.
-/

namespace Chains

variable {κ α : Type}

structure Cell (κ α : Type) where
  next : Option κ
  item : α
  deriving DecidableEq

abbrev Cells (κ α : Type) := κ → Option (Cell κ α)

/-- From `p` the cells lead to the items `xs`, given with their addresses, and end there. -/
inductive Chain (cells : Cells κ α) : Option κ → List (κ × α) → Prop where
  | nil : Chain cells none []
  | cons {p : κ} {cell : Cell κ α} {xs : List (κ × α)} (hcell : cells p = some cell)
      (hrest : Chain cells cell.next xs) : Chain cells (some p) ((p, cell.item) :: xs)

namespace Chain

variable {cells cells' : Cells κ α} {p : Option κ} {q r : κ} {x y : α} {xs ys : List (κ × α)}

/-- A chain is determined by where it begins. -/
theorem unique (h : Chain cells p xs) (h' : Chain cells p ys) : xs = ys := by
  induction h generalizing ys with
  | nil =>
      cases h'
      rfl
  | cons hcell _ ih =>
      cases h' with
      | cons hcell' hrest' =>
          obtain rfl := Option.some.inj (hcell.symm.trans hcell')
          rw [ih hrest']

/-- A chain begins at the address of its first item. -/
theorem start (h : Chain cells p xs) : p = xs.head?.map Prod.fst := by
  cases h with
  | nil => rfl
  | cons _ _ => rfl

/-- The first cell of a chain, and what it points at. -/
theorem head (h : Chain cells p ((q, x) :: xs)) :
    p = some q ∧ ∃ next, cells q = some ⟨next, x⟩ ∧ Chain cells next xs := by
  cases h with
  | @cons _ cell _ hcell hrest => exact ⟨rfl, cell.next, hcell, hrest⟩

/-- The part of a chain from one of its items on. -/
theorem suffix (h : Chain cells p (xs ++ (q, x) :: ys)) : Chain cells (some q) ((q, x) :: ys) := by
  induction xs generalizing p with
  | nil =>
      cases h with
      | cons hcell hrest => exact .cons hcell hrest
  | cons _ _ ih =>
      cases h with
      | cons _ hrest => exact ih hrest

/-- No address occurs twice: the chain from its second occurrence on would be the one from its first. -/
theorem nodup (h : Chain cells p xs) : (xs.map Prod.fst).Nodup := by
  induction h with
  | nil => exact List.nodup_nil
  | @cons p cell xs hcell hrest ih =>
      refine List.nodup_cons.mpr ⟨fun hmem => ?_, ih⟩
      obtain ⟨⟨q, x⟩, hx, rfl⟩ := List.mem_map.mp hmem
      obtain ⟨front, back, rfl⟩ := List.append_of_mem hx
      have hagain := congrArg List.length ((Chain.cons hcell hrest).unique hrest.suffix)
      rw [List.length_cons, List.length_append, List.length_cons] at hagain
      omega

/-- A chain depends on its own cells only. -/
theorem congr (h : Chain cells p xs) (hcells : ∀ q ∈ xs.map Prod.fst, cells' q = cells q) : Chain cells' p xs := by
  induction h with
  | nil => exact .nil
  | @cons p cell xs hcell _ ih =>
      refine .cons ((hcells p List.mem_cons_self).trans hcell) (ih fun q hq => hcells q ?_)
      exact List.mem_cons_of_mem _ hq

end Chain

/-- From `p` the cells lead through the addresses `ks`, and end there. -/
def Visits (cells : Cells κ α) (p : Option κ) (ks : List κ) : Prop := ∃ xs, Chain cells p xs ∧ xs.map Prod.fst = ks

namespace Visits

variable {β : Type} {cells : Cells κ α} {cells' : Cells κ β} {cell : Cell κ α} {p : Option κ} {k : κ} {ks ls : List κ}

theorem nil (cells : Cells κ α) : Visits cells none [] := ⟨[], .nil, rfl⟩

theorem cons (hcell : cells k = some cell) (h : Visits cells cell.next ks) : Visits cells (some k) (k :: ks) := by
  obtain ⟨xs, hchain, rfl⟩ := h
  exact ⟨_, .cons hcell hchain, rfl⟩

theorem head (h : Visits cells p (k :: ks)) :
    p = some k ∧ ∃ cell, cells k = some cell ∧ Visits cells cell.next ks := by
  obtain ⟨xs, hchain, hxs⟩ := h
  cases hchain with
  | nil => cases hxs
  | @cons q cell xs hcell hrest =>
      obtain ⟨rfl, hks⟩ := List.cons.inj hxs
      exact ⟨rfl, cell, hcell, xs, hrest, hks⟩

theorem start (h : Visits cells p ks) : p = ks.head? := by
  obtain ⟨xs, hchain, rfl⟩ := h
  rw [hchain.start, List.head?_map]

theorem nodup (h : Visits cells p ks) : ks.Nodup := by
  obtain ⟨xs, hchain, rfl⟩ := h
  exact hchain.nodup

theorem unique (h : Visits cells p ks) (h' : Visits cells p ls) : ks = ls := by
  obtain ⟨xs, hchain, rfl⟩ := h
  obtain ⟨ys, hchain', rfl⟩ := h'
  rw [hchain.unique hchain']

/-- What comes behind one of the addresses. -/
theorem behind (h : Visits cells p (ls ++ k :: ks)) : ∃ cell, cells k = some cell ∧ cell.next = ks.head? := by
  induction ls generalizing p with
  | nil =>
      obtain ⟨-, cell, hcell, hrest⟩ := h.head
      exact ⟨cell, hcell, hrest.start⟩
  | cons l ls ih =>
      obtain ⟨-, cell, -, hrest⟩ := h.head
      exact ih hrest

theorem cell_of_mem (h : Visits cells p ks) (hk : k ∈ ks) : ∃ cell, cells k = some cell := by
  obtain ⟨front, back, rfl⟩ := List.append_of_mem hk
  obtain ⟨cell, hcell, -⟩ := h.behind
  exact ⟨cell, hcell⟩

/-- The cells may be other ones, if they point at the same ones. -/
theorem congr (h : Visits cells p ks) (hnext : ∀ k ∈ ks, (cells' k).map Cell.next = (cells k).map Cell.next) :
    Visits cells' p ks := by
  induction ks generalizing p with
  | nil =>
      obtain rfl : p = none := h.start
      exact nil cells'
  | cons k ks ih =>
      obtain ⟨rfl, cell, hcell, hrest⟩ := h.head
      have hsame := hnext k List.mem_cons_self
      rw [hcell] at hsame
      obtain ⟨cell', hcell', hnext'⟩ := Option.map_eq_some_iff.mp hsame
      exact cons hcell' (hnext' ▸ ih hrest fun l hl => hnext l (List.mem_cons_of_mem _ hl))

end Visits

variable [DecidableEq κ]

/-- The store with a cell written. -/
def Cells.put (cells : Cells κ α) (p : κ) (cell : Cell κ α) : Cells κ α := Function.update cells p (some cell)

/-- The store in which the cell at `p` points at `q`. -/
def Cells.link (cells : Cells κ α) (p q : κ) : Cells κ α :=
  Function.update cells p ((cells p).map fun cell => { cell with next := some q })

namespace Chain

variable {cells : Cells κ α} {p : Option κ} {q r : κ} {x y : α} {xs : List (κ × α)}

/-- A new cell in front of a chain. -/
theorem push_front (h : Chain cells p xs) (hq : q ∉ xs.map Prod.fst) (x : α) :
    Chain (cells.put q ⟨p, x⟩) (some q) ((q, x) :: xs) := by
  refine @Chain.cons _ _ _ q ⟨p, x⟩ _ (Function.update_self ..) (h.congr fun r hr => Function.update_of_ne ?_ ..)
  rintro rfl
  exact hq hr

/-- A new cell behind the last one of a chain. -/
theorem push_back (h : Chain cells p (xs ++ [(q, y)])) (hr : r ∉ (xs ++ [(q, y)]).map Prod.fst) (x : α) :
    Chain ((cells.put r ⟨none, x⟩).link q r) p (xs ++ [(q, y), (r, x)]) := by
  have hnodup := h.nodup
  have hrq : r ≠ q := fun heq => hr (by simp [heq])
  induction xs generalizing p with
  | nil =>
      cases h with
      | @cons _ cell _ hcell hrest =>
          have hlast : (cells.put r ⟨none, x⟩).link q r q = some ⟨some r, cell.item⟩ := by
            simp [Cells.link, Cells.put, Function.update_of_ne hrq.symm, hcell]
          have hnew : (cells.put r ⟨none, x⟩).link q r r = some ⟨none, x⟩ := by
            simp [Cells.link, Cells.put, Function.update_of_ne hrq]
          have hback := Chain.cons hnew .nil
          exact @Chain.cons _ _ _ q ⟨some r, cell.item⟩ _ hlast hback
  | cons z xs ih =>
      cases h with
      | @cons k cell _ hcell hrest =>
          have hkr : k ≠ r := fun heq => hr (by simp [heq])
          have hkq : k ≠ q := by
            rintro rfl
            simp at hnodup
          have hsame : (cells.put r ⟨none, x⟩).link q r k = some cell := by
            simp [Cells.link, Cells.put, Function.update_of_ne hkq, Function.update_of_ne hkr, hcell]
          refine .cons hsame (ih hrest (fun hmem => hr ?_) hnodup.of_cons)
          exact List.mem_cons_of_mem _ hmem

/-- A new cell behind a chain of which the first and the last address are known. -/
theorem append (h : Chain cells p xs) (hr : r ∉ xs.map Prod.fst) (x : α) :
    Chain ((xs.getLast?.map Prod.fst).elim (cells.put r ⟨none, x⟩) fun q => (cells.put r ⟨none, x⟩).link q r)
      (some (p.getD r)) (xs ++ [(r, x)]) := by
  rcases List.eq_nil_or_concat' xs with rfl | ⟨front, ⟨q, y⟩, rfl⟩
  · cases h
    exact @Chain.cons _ _ _ r ⟨none, x⟩ _ (Function.update_self ..) .nil
  · have hfirst : some (p.getD r) = p := by
      cases p with
      | none => exact absurd (h.unique .nil) (by simp)
      | some p => rfl
    rw [hfirst, List.getLast?_concat, List.append_assoc]
    exact h.push_back hr x

end Chain

end Chains
