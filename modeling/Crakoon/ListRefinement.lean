import Crakoon.Onward
import Crakoon.ValueLists

/-!
# The chains of items are the lists of the model

The operations that decode lists have been given on lists whose items are a value of their own. Here the functions on
chains of items are shown to refine them: memory holds the list (`Stored`), whatever is granted and whatever arrives.
-/

namespace Crakoon

open Programs Chains

section Session

variable {ι α β : Type}

/-- The items are where they were, and no block is handed out a second time. -/
structure Linked.Later (t t' : Linked ι) : Prop where
  cells : t'.cells = t.cells
  next : t.session.heap.next ≤ t'.session.heap.next

theorem Linked.Later.refl (t : Linked ι) : t.Later t := ⟨rfl, Nat.le_refl _⟩

theorem Linked.Later.trans {t t₁ t₂ : Linked ι} (h₁ : t.Later t₁) (h₂ : t₁.Later t₂) : t.Later t₂ :=
  ⟨h₂.cells.trans h₁.cells, Nat.le_trans h₁.next h₂.next⟩

theorem onSession_run (m : SessionM α) (t : Linked ι) :
    (onSession m : LinkedM ι α).run t = (m.run t.session).map fun out => (out.1, { t with session := out.2 }) := rfl

theorem yields_onSession {m : SessionM α} {t : Linked ι} {Q : α → Session → Prop} (h : Yields m t.session Q) :
    Yields (onSession m) t fun a t' => t'.cells = t.cells ∧ Q a t'.session := by
  obtain ⟨a, s', hrun, hQ⟩ := h
  exact ⟨a, { t with session := s' }, by rw [onSession_run, hrun]; rfl, rfl, hQ⟩

theorem refines_onSession {m : SessionM α} {P : α → Prop} (h : Onwards 0 m P) (t : Linked ι) :
    Refines (onSession m) m t t.session fun a t' b s' => a = b ∧ t'.session = s' ∧ t.Later t' := by
  intro a s' hrun
  obtain ⟨-, honward, -⟩ := h t.session (Nat.zero_le _) a s' hrun
  exact ⟨a, { t with session := s' }, by rw [onSession_run, hrun]; rfl, rfl, rfl, rfl, honward.heap.next⟩

theorem refines_memNew (alloc : Nat → Bool) (t : Linked ι) :
    Refines (onSession (memNew alloc)) (memNew alloc) t t.session fun a t' b s' => a = b ∧ t'.session = s' ∧
      t.Later t' ∧ ∀ p, b = some p → p = t.session.heap.next ∧ t'.session.heap.next = p + 1 := by
  intro a s' hrun
  obtain ⟨a', t', hrun', rfl, rfl, hlater⟩ := refines_onSession (onwards_memNew alloc 0) t a s' hrun
  refine ⟨a', t', hrun', rfl, rfl, hlater, ?_⟩
  rintro p rfl
  obtain ⟨hp, hnext⟩ := Prod.mk.inj (Option.some.inj hrun)
  obtain rfl := Heap.malloc_id alloc hp
  refine ⟨rfl, ?_⟩
  rw [← hnext, Heap.malloc]
  split_ifs with h
  · rfl
  · rw [Heap.malloc, if_neg h] at hp
    cases hp

theorem yields_putCell (p : Nat) (cell : Cell Nat ι) (t : Linked ι) :
    Yields (putCell p cell) t fun _ t' => t' = { t with cells := t.cells.put p cell } := ⟨(), _, rfl, rfl⟩

end Session

theorem sizeT_succ (n : Nat) : sizeT (sizeT n + 1) = sizeT (n + 1) := Nat.mod_add_mod n (2 ^ 64) 1

/-- Memory holds the list: its header is `l`, and its items are the chain that `l` points at. -/
structure ValueList.Stored (v : ValueList) (l : ArakoonValueList) (t : Linked Data) : Prop where
  id : l.id = v.id
  size : l.size = sizeT v.items.length
  chain : Chain t.cells l.first (v.items.map fun item => (item.id, item.value))
  last : l.last = v.items.getLast?.map ValueListItem.id
  allocated : ∀ item ∈ v.items, item.id < t.session.heap.next

theorem ValueList.stored_nil (id : Nat) (t : Linked Data) : ValueList.Stored ⟨id, []⟩ ⟨id, 0, none, none⟩ t :=
  ⟨rfl, rfl, .nil, rfl, fun _ hitem => absurd hitem List.not_mem_nil⟩

theorem ValueList.Stored.later {v : ValueList} {l : ArakoonValueList} {t t' : Linked Data} (h : v.Stored l t)
    (hlater : t.Later t') : v.Stored l t' where
  id := h.id
  size := h.size
  chain := hlater.cells ▸ h.chain
  last := h.last
  allocated := fun item hitem => Nat.lt_of_lt_of_le (h.allocated item hitem) hlater.next

/-- A block that is handed out now is not one of the items. -/
theorem ValueList.Stored.fresh {v : ValueList} {l : ArakoonValueList} {t : Linked Data} (h : v.Stored l t) :
    t.session.heap.next ∉ (v.items.map fun item => (item.id, item.value)).map Prod.fst := by
  intro hmem
  obtain ⟨_, hpair, hp⟩ := List.mem_map.mp hmem
  obtain ⟨item, hitem, rfl⟩ := List.mem_map.mp hpair
  exact absurd (h.allocated item hitem) (by rw [← hp]; exact Nat.lt_irrefl _)

/-- An item in front of the others. -/
theorem ValueList.Stored.prepend {v : ValueList} {l : ArakoonValueList} {t t' : Linked Data} (h : v.Stored l t)
    (hlater : t.Later t') (hnext : t.session.heap.next < t'.session.heap.next) (copy : Data) :
    ValueList.Stored ⟨v.id, ⟨t.session.heap.next, copy⟩ :: v.items⟩
      ⟨l.id, sizeT (l.size + 1), some t.session.heap.next, some (l.last.getD t.session.heap.next)⟩
      { t' with cells := t'.cells.put t.session.heap.next ⟨l.first, copy⟩ } where
  id := h.id
  size := by rw [h.size, sizeT_succ, List.length_cons]
  chain := (hlater.cells ▸ h.chain).push_front h.fresh copy
  last := by
    rw [h.last, List.getLast?_cons]
    cases v.items.getLast? <;> rfl
  allocated := by
    intro item hitem
    rcases List.mem_cons.mp hitem with rfl | hold
    · exact hnext
    · exact Nat.lt_trans (h.allocated item hold) hnext

/-- An item behind the others. -/
theorem ValueList.Stored.append {v : ValueList} {l : ArakoonValueList} {t t' : Linked Data} (h : v.Stored l t)
    (hlater : t.Later t') (hnext : t.session.heap.next < t'.session.heap.next) (copy : Data) :
    ValueList.Stored ⟨v.id, v.items ++ [⟨t.session.heap.next, copy⟩]⟩
      ⟨l.id, sizeT (l.size + 1), some (l.first.getD t.session.heap.next), some t.session.heap.next⟩
      { t' with cells := l.last.elim (t'.cells.put t.session.heap.next ⟨none, copy⟩) fun last =>
          (t'.cells.put t.session.heap.next ⟨none, copy⟩).link last t.session.heap.next } where
  id := h.id
  size := by rw [h.size, sizeT_succ, List.length_append, List.length_singleton]
  chain := by
    have hlast : (v.items.map fun item => (item.id, item.value)).getLast?.map Prod.fst = l.last := by
      rw [h.last, List.getLast?_map, Option.map_map]
      rfl
    have hchain := (hlater.cells ▸ h.chain : Chain t'.cells _ _).append h.fresh copy
    rw [hlast] at hchain
    rwa [List.map_append]
  last := by simp
  allocated := by
    intro item hitem
    rcases List.mem_append.mp hitem with hold | hnew
    · exact Nat.lt_trans (h.allocated item hold) hnext
    · obtain rfl := List.mem_singleton.mp hnew
      exact hnext

/-- Two outcomes of a function that works on a list: the same code, and memory holds the list. -/
def SameList (out : ArakoonValueList × ArakoonRc) (t : Linked Data) (out' : ValueList × ArakoonRc) (s : Session) :
    Prop := t.session = s ∧ out.2 = out'.2 ∧ out'.1.Stored out.1 t

section Values

variable (alloc : Nat → Bool)

theorem refines_valueListPrepend {v : ValueList} {l : ArakoonValueList} {t : Linked Data} (h : v.Stored l t)
    (value : Data) :
    Refines (arakoonValueListPrepend alloc l value) (valueListPrepend alloc v value) t t.session SameList := by
  refine (refines_memNew alloc t).bind ?_
  rintro p t₁ _ _ ⟨rfl, rfl, hlater₁, hblock⟩
  cases p with
  | none => exact Refines.pure ⟨rfl, rfl, h.later hlater₁⟩
  | some p =>
      obtain ⟨rfl, hnext⟩ := hblock p rfl
      refine (refines_onSession (onwards_copyValue alloc 0 value) t₁).bind ?_
      rintro copy t₂ _ _ ⟨rfl, rfl, hlater₂⟩
      cases copy with
      | none =>
          refine (refines_onSession (onwards_memFree 0 fun _ _ => Nat.zero_le _) t₂).bind ?_
          rintro _ t₃ _ _ ⟨-, rfl, hlater₃⟩
          exact Refines.pure ⟨rfl, rfl, h.later ((hlater₁.trans hlater₂).trans hlater₃)⟩
      | some copy =>
          refine Refines.after (yields_putCell _ _ t₂) ?_
          rintro _ t₃ rfl
          have hlt : t.session.heap.next < t₂.session.heap.next :=
            Nat.lt_of_lt_of_le (hnext ▸ Nat.lt_succ_self _) hlater₂.next
          exact Refines.pure ⟨rfl, rfl, h.prepend (hlater₁.trans hlater₂) hlt copy⟩

theorem refines_readStrings (cnt : Nat) {v : ValueList} {l : ArakoonValueList} {t : Linked Data} (h : v.Stored l t)
    (rc : ArakoonRc) : Refines (readStringsInto alloc cnt l rc) (readStrings alloc cnt v rc) t t.session SameList := by
  induction cnt generalizing v l t rc with
  | zero => exact Refines.pure ⟨rfl, rfl, h⟩
  | succ cnt ih =>
      refine (refines_onSession (onwards_readNewString alloc 0 rc) t).bind ?_
      rintro ⟨s, rc₁⟩ t₁ _ _ ⟨rfl, rfl, hlater₁⟩
      refine Refines.ite Iff.rfl (fun _ => Refines.pure ⟨rfl, rfl, h.later hlater₁⟩) fun _ => ?_
      refine (refines_valueListPrepend alloc (h.later hlater₁) s).bind ?_
      rintro ⟨l₂, rc₂⟩ t₂ ⟨v₂, _⟩ _ ⟨rfl, rfl, hlist⟩
      refine (refines_onSession (onwards_memMaybeFree 0 fun _ _ => Nat.zero_le _) t₂).bind ?_
      rintro _ t₃ _ _ ⟨-, rfl, hlater₃⟩
      exact Refines.ite Iff.rfl (fun _ => Refines.pure ⟨rfl, rfl, hlist.later hlater₃⟩) fun _ =>
        ih (hlist.later hlater₃) rc₂

theorem refines_readStringList {v : ValueList} {l : ArakoonValueList} {t : Linked Data} (h : v.Stored l t) :
    Refines (readStringListInto alloc l) (readStringList alloc v) t t.session SameList := by
  refine (refines_onSession (onwards_readUInt32 0 0) t).bind ?_
  rintro ⟨cnt, rc⟩ t₁ _ _ ⟨rfl, rfl, hlater₁⟩
  exact Refines.ite Iff.rfl (fun _ => refines_readStrings alloc cnt (h.later hlater₁) rc) fun _ =>
    Refines.pure ⟨rfl, rfl, h.later hlater₁⟩

end Values

/-! ### Lists of pairs, and loops over an iterator -/

/-- Memory holds the list of pairs. -/
structure KeyValueList.Stored (v : KeyValueList) (l : ArakoonKeyValueList) (t : Linked (Data × Data)) : Prop where
  id : l.id = v.id
  size : l.size = sizeT v.items.length
  chain : Chain t.cells l.first (v.items.map fun item => (item.id, item.key, item.value))
  allocated : ∀ item ∈ v.items, item.id < t.session.heap.next

theorem KeyValueList.stored_nil (id : Nat) (t : Linked (Data × Data)) :
    KeyValueList.Stored ⟨id, []⟩ ⟨id, 0, none⟩ t := ⟨rfl, rfl, .nil, fun _ hitem => absurd hitem List.not_mem_nil⟩

theorem KeyValueList.Stored.later {v : KeyValueList} {l : ArakoonKeyValueList} {t t' : Linked (Data × Data)}
    (h : v.Stored l t) (hlater : t.Later t') : v.Stored l t' where
  id := h.id
  size := h.size
  chain := hlater.cells ▸ h.chain
  allocated := fun item hitem => Nat.lt_of_lt_of_le (h.allocated item hitem) hlater.next

theorem KeyValueList.Stored.prepend {v : KeyValueList} {l : ArakoonKeyValueList} {t t' : Linked (Data × Data)}
    (h : v.Stored l t) (hlater : t.Later t') (hnext : t.session.heap.next < t'.session.heap.next)
    (keyCopy valueCopy : Data) :
    KeyValueList.Stored ⟨v.id, ⟨t.session.heap.next, keyCopy, valueCopy⟩ :: v.items⟩
      ⟨l.id, sizeT (l.size + 1), some t.session.heap.next⟩
      { t' with cells := t'.cells.put t.session.heap.next ⟨l.first, (keyCopy, valueCopy)⟩ } where
  id := h.id
  size := by rw [h.size, sizeT_succ, List.length_cons]
  chain := by
    refine (hlater.cells ▸ h.chain : Chain t'.cells _ _).push_front ?_ (keyCopy, valueCopy)
    intro hmem
    obtain ⟨_, hpair, hp⟩ := List.mem_map.mp hmem
    obtain ⟨item, hitem, rfl⟩ := List.mem_map.mp hpair
    exact absurd (h.allocated item hitem) (by rw [← hp]; exact Nat.lt_irrefl _)
  allocated := by
    intro item hitem
    rcases List.mem_cons.mp hitem with rfl | hold
    · exact hnext
    · exact Nat.lt_trans (h.allocated item hold) hnext

/-- Two outcomes of a function that works on a list of pairs. -/
def SamePairs (out : ArakoonKeyValueList × ArakoonRc) (t : Linked (Data × Data)) (out' : KeyValueList × ArakoonRc)
    (s : Session) : Prop := t.session = s ∧ out.2 = out'.2 ∧ out'.1.Stored out.1 t

section Pairs

variable (alloc : Nat → Bool)

theorem refines_keyValueListPrepend {v : KeyValueList} {l : ArakoonKeyValueList} {t : Linked (Data × Data)}
    (h : v.Stored l t) (key value : Data) :
    Refines (arakoonKeyValueListPrepend alloc l key value) (keyValueListPrepend alloc v key value) t t.session
      SamePairs := by
  refine (refines_memNew alloc t).bind ?_
  rintro p t₁ _ _ ⟨rfl, rfl, hlater₁, hblock⟩
  cases p with
  | none => exact Refines.pure ⟨rfl, rfl, h.later hlater₁⟩
  | some p =>
      obtain ⟨rfl, hnext⟩ := hblock p rfl
      refine (refines_onSession (onwards_copyValue alloc 0 key) t₁).bind ?_
      rintro keyCopy t₂ _ _ ⟨rfl, rfl, hlater₂⟩
      cases keyCopy with
      | none =>
          refine (refines_onSession (onwards_memFree 0 fun _ _ => Nat.zero_le _) t₂).bind ?_
          rintro _ t₃ _ _ ⟨-, rfl, hlater₃⟩
          exact Refines.pure ⟨rfl, rfl, h.later ((hlater₁.trans hlater₂).trans hlater₃)⟩
      | some keyCopy =>
          refine (refines_onSession (onwards_copyValue alloc 0 value) t₂).bind ?_
          rintro valueCopy t₃ _ _ ⟨rfl, rfl, hlater₃⟩
          have hlater := (hlater₁.trans hlater₂).trans hlater₃
          cases valueCopy with
          | none =>
              refine (refines_onSession (onwards_memFree 0 fun _ _ => Nat.zero_le _) t₃).bind ?_
              rintro _ t₄ _ _ ⟨-, rfl, hlater₄⟩
              refine (refines_onSession (onwards_memFree 0 fun _ _ => Nat.zero_le _) t₄).bind ?_
              rintro _ t₅ _ _ ⟨-, rfl, hlater₅⟩
              exact Refines.pure ⟨rfl, rfl, h.later ((hlater.trans hlater₄).trans hlater₅)⟩
          | some valueCopy =>
              refine Refines.after (yields_putCell _ _ t₃) ?_
              rintro _ t₄ rfl
              have hlt : t.session.heap.next < t₃.session.heap.next :=
                Nat.lt_of_lt_of_le (hnext ▸ Nat.lt_succ_self _) (hlater₂.trans hlater₃).next
              exact Refines.pure ⟨rfl, rfl, h.prepend hlater hlt keyCopy valueCopy⟩

theorem refines_readStringPairs (cnt : Nat) {v : KeyValueList} {l : ArakoonKeyValueList} {t : Linked (Data × Data)}
    (h : v.Stored l t) (rc : ArakoonRc) :
    Refines (readStringPairsInto alloc cnt l rc) (readStringPairs alloc cnt v rc) t t.session SamePairs := by
  induction cnt generalizing v l t rc with
  | zero => exact Refines.pure ⟨rfl, rfl, h⟩
  | succ cnt ih =>
      refine (refines_onSession (onwards_readNewString alloc 0 rc) t).bind ?_
      rintro ⟨s0, rc₁⟩ t₁ _ _ ⟨rfl, rfl, hlater₁⟩
      refine Refines.ite Iff.rfl (fun _ => Refines.pure ⟨rfl, rfl, h.later hlater₁⟩) fun _ => ?_
      refine (refines_onSession (onwards_readNewString alloc 0 rc₁) t₁).bind ?_
      rintro ⟨s1, rc₂⟩ t₂ _ _ ⟨rfl, rfl, hlater₂⟩
      refine Refines.ite Iff.rfl (fun _ => ?_) fun _ => ?_
      · refine (refines_onSession (onwards_memMaybeFree 0 fun _ _ => Nat.zero_le _) t₂).bind ?_
        rintro _ t₃ _ _ ⟨-, rfl, hlater₃⟩
        exact Refines.pure ⟨rfl, rfl, h.later ((hlater₁.trans hlater₂).trans hlater₃)⟩
      · refine (refines_keyValueListPrepend alloc (h.later (hlater₁.trans hlater₂)) s0 s1).bind ?_
        rintro ⟨l₃, rc₃⟩ t₃ ⟨v₃, _⟩ _ ⟨rfl, rfl, hlist⟩
        refine (refines_onSession (onwards_memMaybeFree 0 fun _ _ => Nat.zero_le _) t₃).bind ?_
        rintro _ t₄ _ _ ⟨-, rfl, hlater₄⟩
        refine (refines_onSession (onwards_memMaybeFree 0 fun _ _ => Nat.zero_le _) t₄).bind ?_
        rintro _ t₅ _ _ ⟨-, rfl, hlater₅⟩
        have hlist₅ := hlist.later (hlater₄.trans hlater₅)
        exact Refines.ite Iff.rfl (fun _ => Refines.pure ⟨rfl, rfl, hlist₅⟩) fun _ => ih hlist₅ rc₃

theorem refines_readStringStringList {v : KeyValueList} {l : ArakoonKeyValueList} {t : Linked (Data × Data)}
    (h : v.Stored l t) :
    Refines (readStringStringListInto alloc l) (readStringStringList alloc v) t t.session SamePairs := by
  refine (refines_onSession (onwards_readUInt32 0 0) t).bind ?_
  rintro ⟨cnt, rc⟩ t₁ _ _ ⟨rfl, rfl, hlater₁⟩
  exact Refines.ite Iff.rfl (fun _ => refines_readStringPairs alloc cnt (h.later hlater₁) rc) fun _ =>
    Refines.pure ⟨rfl, rfl, h.later hlater₁⟩

end Pairs

section Loops

variable {ι β : Type} {nothing : ι} {shown : ι → Bool}

theorem listIterNext_run {id p : Nat} {cell : Cell Nat ι} {t : Linked ι} (hcell : t.cells p = some cell) :
    (listIterNext nothing ⟨id, some p⟩).run t = some ((⟨id, cell.next⟩, cell.item), t) := by
  have hcellAt : (cellAt p).run t = some (cell, t) := by
    change (t.cells p).map _ = _
    rw [hcell]
    rfl
  exact bind_run_eq_some.mpr ⟨cell, t, hcellAt, rfl⟩

/-- A loop whose body writes no items goes over the items of a chain as over a list, if it stops at none of them. -/
theorem forListIter_run {body : ι → β → LinkedM ι (ForInStep β)} {t : Linked ι} {p : Option Nat}
    {xs : List (Nat × ι)} (h : Chain t.cells p xs) (hstop : shown nothing = false)
    (hshown : ∀ x ∈ xs, shown x.2 = true)
    (hbody : ∀ x b t, Ensures (body x b) t fun _ t' => t'.cells = t.cells) {rounds : Nat}
    (hrounds : xs.length < rounds) (id : Nat) (b : β) :
    (forListIter nothing shown body rounds ⟨id, p⟩ b).run t = (forIn (xs.map Prod.snd) b body).run t := by
  induction xs generalizing t p rounds b with
  | nil =>
      cases h
      obtain ⟨rounds, rfl⟩ := Nat.exists_eq_add_one_of_ne_zero (Nat.ne_zero_of_lt hrounds)
      have hend : (listIterNext nothing ⟨id, none⟩).run t = some ((⟨id, none⟩, nothing), t) := rfl
      rw [forListIter, bind_run, hend]
      simp [hstop]
  | cons x xs ih =>
      cases h with
      | @cons p cell _ hcell hrest =>
          obtain ⟨rounds, rfl⟩ := Nat.exists_eq_add_one_of_ne_zero (Nat.ne_zero_of_lt hrounds)
          have hfirst : shown cell.item = true := hshown _ List.mem_cons_self
          rw [forListIter, bind_run, listIterNext_run hcell, Option.bind_some, List.map_cons, List.forIn_cons]
          dsimp only
          rw [if_pos hfirst]
          refine Ensures.bind_congr rfl ((hbody cell.item b t).mono fun step t' hcells => ?_)
          cases step with
          | done b => rfl
          | yield b =>
              refine ih (hcells ▸ hrest) (fun x hx => hshown x (List.mem_cons_of_mem _ hx)) ?_ b
              exact Nat.lt_of_succ_lt_succ hrounds

end Loops

end Crakoon
