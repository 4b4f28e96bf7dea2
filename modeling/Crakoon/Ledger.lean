import Mathlib.Data.List.Nodup
import Mathlib.Data.List.Perm.Subperm

/-!
# Accounts of handles

A program is given handles and gives them back. Its account is the list of what it did with them, the latest first;
`held` are the handles it was given and has not given back. The account is `Clean` if every handle that was given back
was held at that time, and `Fresh` if none was given out while it was held. Giving back several handles in a row is
clean if and only if they are among those held, with their multiplicities (`clean_closes_iff`).
-/

namespace Ledger

inductive Entry (η : Type) where
  | opened (h : η)
  | closed (h : η)
  deriving DecidableEq

variable {η : Type} [DecidableEq η]

/-- The handles that are held after an account. -/
def held : List (Entry η) → List η
  | [] => []
  | .opened h :: before => h :: held before
  | .closed h :: before => (held before).erase h

/-- Only handles that are held are given back. -/
def Clean : List (Entry η) → Prop
  | [] => True
  | .opened _ :: before => Clean before
  | .closed h :: before => h ∈ held before ∧ Clean before

/-- No handle is given out that is held. -/
def Fresh : List (Entry η) → Prop
  | [] => True
  | .opened h :: before => h ∉ held before ∧ Fresh before
  | .closed _ :: before => Fresh before

/-- The handles are given back one after the other. -/
def closes (hs : List η) (before : List (Entry η)) : List (Entry η) := hs.reverse.map .closed ++ before

theorem Clean.before {later before : List (Entry η)} (h : Clean (later ++ before)) : Clean before := by
  induction later with
  | nil => exact h
  | cons entry later ih =>
      cases entry with
      | opened a => exact ih h
      | closed a => exact ih h.2

theorem Fresh.before {later before : List (Entry η)} (h : Fresh (later ++ before)) : Fresh before := by
  induction later with
  | nil => exact h
  | cons entry later ih =>
      cases entry with
      | opened a => exact ih h.2
      | closed a => exact ih h

/-- No handle is held twice. -/
theorem Fresh.nodup {account : List (Entry η)} (h : Fresh account) : (held account).Nodup := by
  induction account with
  | nil => exact List.nodup_nil
  | cons entry before ih =>
      cases entry with
      | opened a => exact List.nodup_cons.mpr ⟨h.1, ih h.2⟩
      | closed a => exact (ih h).erase a

/-- What is held after a handle is given back that was held once. -/
theorem mem_held_closed {account : List (Entry η)} (h : (held account).Nodup) {a b : η} :
    b ∈ held (.closed a :: account) ↔ b ≠ a ∧ b ∈ held account := h.mem_erase_iff

omit [DecidableEq η] in
theorem closes_cons (a : η) (hs : List η) (before : List (Entry η)) :
    closes (a :: hs) before = closes hs (.closed a :: before) := by
  simp [closes]

theorem held_closes (hs : List η) (before : List (Entry η)) : held (closes hs before) = (held before).diff hs := by
  induction hs generalizing before with
  | nil => rfl
  | cons a hs ih =>
      rw [closes_cons, ih, List.diff_cons]
      rfl

theorem clean_closes_iff (hs : List η) (before : List (Entry η)) :
    Clean (closes hs before) ↔ hs.Subperm (held before) ∧ Clean before := by
  induction hs generalizing before with
  | nil =>
      have hnil : List.Subperm [] (held before) := List.nil_subperm
      exact ⟨fun h => ⟨hnil, h⟩, fun h => h.2⟩
  | cons a hs ih =>
      rw [closes_cons, ih]
      show hs.Subperm ((held before).erase a) ∧ a ∈ held before ∧ Clean before ↔ _
      constructor
      · intro h
        obtain ⟨hsub, hmem, hclean⟩ := h
        refine ⟨?_, hclean⟩
        exact (List.subperm_cons a |>.mpr hsub).trans (List.perm_cons_erase hmem).symm.subperm
      · intro h
        obtain ⟨hsub, hclean⟩ := h
        have hmem : a ∈ held before := hsub.subset List.mem_cons_self
        refine ⟨?_, hmem, hclean⟩
        exact List.subperm_cons a |>.mp (hsub.trans (List.perm_cons_erase hmem).subperm)

/-- Where the handles `hs` are held and the account goes on freshly, it goes on cleanly and `hs'` are held then. -/
def Leads (account : List (Entry η)) (hs hs' : List η) : Prop :=
  ∀ before, Fresh (account ++ before) → Clean before → (held before).Perm hs →
    Clean (account ++ before) ∧ (held (account ++ before)).Perm hs'

namespace Leads

variable {hs hs' hs'' : List η} {account account' : List (Entry η)}

theorem nil (hs : List η) : Leads [] hs hs := fun _ _ hclean hheld => ⟨hclean, hheld⟩

theorem trans (h : Leads account hs hs') (h' : Leads account' hs' hs'') : Leads (account' ++ account) hs hs'' := by
  intro before hfresh hclean hheld
  rw [List.append_assoc] at hfresh ⊢
  obtain ⟨hclean', hheld'⟩ := h before hfresh.before hclean hheld
  exact h' _ hfresh hclean' hheld'

theorem perm (h : Leads account hs hs') (hp : hs'.Perm hs'') : Leads account hs hs'' := by
  intro before hfresh hclean hheld
  obtain ⟨hclean', hheld'⟩ := h before hfresh hclean hheld
  exact ⟨hclean', hheld'.trans hp⟩

theorem opened (a : η) (hs : List η) : Leads [.opened a] hs (a :: hs) :=
  fun _ _ hclean hheld => ⟨hclean, hheld.cons a⟩

theorem closed {a : η} (h : a ∈ hs) : Leads [.closed a] hs (hs.erase a) :=
  fun _ _ hclean hheld => ⟨⟨hheld.mem_iff.mpr h, hclean⟩, hheld.erase a⟩

/-- Of the handles that are held some are given back. -/
theorem closes {given : List η} (h : given.Subperm hs) : Leads (closes given []) hs (hs.diff given) := by
  intro before _ hclean hheld
  have happend : Ledger.closes given [] ++ before = Ledger.closes given before := by
    simp [Ledger.closes]
  rw [happend, held_closes]
  exact ⟨(clean_closes_iff given before).mpr ⟨h.trans hheld.symm.subperm, hclean⟩, hheld.diff_right given⟩

/-- A whole account, which begins with nothing. -/
theorem whole (h : Leads account [] hs) (hfresh : Fresh account) :
    Clean account ∧ (held account).Perm hs := by
  have hall := h [] (by rwa [List.append_nil]) trivial List.Perm.nil
  rwa [List.append_nil] at hall

end Leads

end Ledger
