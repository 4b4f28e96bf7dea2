import Crakoon.CppBuffer
import Crakoon.KeyValuePrepend
import Crakoon.ListReplies

/-!
# The iterators of the C++ interface

`arakoon::value_list_iterator` and `arakoon::key_value_list_iterator` keep the element they are at in buffers, one step
behind the iterator of the library. The constructor fetches the first element. `reset()` takes the iterator of the
library back to the first element, empties the buffers and fetches nothing: until the next `next()` the iterator is at
its end, whatever the list holds.
-/

namespace Crakoon

open Programs Chains

/-- An iterator of the library, and the buffers for the element before the one it comes to. -/
structure CppListIterator (β : Type) where
  iter : ListIter
  element : β

/-- The calls that move an iterator. -/
inductive IteratorCall where
  | next
  | reset
  deriving DecidableEq

section Iterators

variable {ι β : Type} (nothing : ι) (empty : β) (reset : β → SessionM β) (set : β → ι → SessionM β) (atEnd : β → Bool)

/-- `value_list_iterator::reset` and `key_value_list_iterator::reset`, where `first` is the first item of the list. -/
def cppIteratorReset (first : Option Nat) (it : CppListIterator β) : LinkedM ι (CppListIterator β) := do
  let element ← onSession (reset it.element)
  pure ⟨listIterReset first it.iter, element⟩

def cppIteratorNext (it : CppListIterator β) : LinkedM ι (CppListIterator β) := do
  let (iter, item) ← listIterNext nothing it.iter
  let element ← onSession (set it.element item)
  pure ⟨iter, element⟩

/-- `begin()` of a list; no value where `std::bad_alloc` is thrown. -/
def cppListBegin (alloc : Nat → Bool) (first : Option Nat) : LinkedM ι (Option (CppListIterator β)) := do
  match ← listCreateIter alloc first with
  | none => pure none
  | some iter => do
      let it ← cppIteratorNext nothing set ⟨iter, empty⟩
      pure (some it)

def cppIteratorCall (first : Option Nat) (it : CppListIterator β) : IteratorCall → LinkedM ι (CppListIterator β)
  | .next => cppIteratorNext nothing set it
  | .reset => cppIteratorReset reset first it

/-- The calls one after the other. -/
def cppIteratorCalls (first : Option Nat) : List IteratorCall → CppListIterator β → LinkedM ι (CppListIterator β)
  | [], it => pure it
  | call :: calls, it => do
      let it ← cppIteratorCall nothing reset set first it call
      cppIteratorCalls first calls it

/-- `for(; !it.at_end(); it.next())`, which keeps the elements; `none`: it does not come to its end within so many
rounds. -/
def cppIteratorLoop : Nat → CppListIterator β → List β → LinkedM ι (List β)
  | 0, _, _ => fun _ => none
  | rounds + 1, it, kept =>
      if atEnd it.element then pure kept
      else do
        let it' ← cppIteratorNext nothing set it
        cppIteratorLoop rounds it' (kept ++ [it.element])

end Iterators

abbrev ValueListIterator := CppListIterator Buffer

def valueListIteratorReset (list : ArakoonValueList) (it : ValueListIterator) : LinkedM Data ValueListIterator :=
  cppIteratorReset (Buffer.reset memFree) list.first it

def valueListIteratorSet (value : Buffer) (item : Data) : SessionM Buffer := value.set memFree item false

def valueListIteratorNext (it : ValueListIterator) : LinkedM Data ValueListIterator :=
  cppIteratorNext .null valueListIteratorSet it

def valueAtEnd (value : Buffer) : Bool := value.data.ptr = .null

def valueListBegin (alloc : Nat → Bool) (list : ArakoonValueList) : LinkedM Data (Option ValueListIterator) :=
  cppListBegin .null .empty valueListIteratorSet alloc list.first

def valueListIteratorCalls (list : ArakoonValueList) (calls : List IteratorCall) (it : ValueListIterator) :
    LinkedM Data ValueListIterator :=
  cppIteratorCalls .null (Buffer.reset memFree) valueListIteratorSet list.first calls it

/-- The buffers for the key and for the value. -/
abbrev KeyValueListIterator := CppListIterator (Buffer × Buffer)

def pairBuffersReset (p : Buffer × Buffer) : SessionM (Buffer × Buffer) := do
  let key ← p.1.reset memFree
  let value ← p.2.reset memFree
  pure (key, value)

def keyValueListIteratorReset (list : ArakoonKeyValueList) (it : KeyValueListIterator) :
    LinkedM (Data × Data) KeyValueListIterator := cppIteratorReset pairBuffersReset list.first it

def keyValueListIteratorSet (p : Buffer × Buffer) (item : Data × Data) : SessionM (Buffer × Buffer) := do
  let key ← p.1.set memFree item.1 false
  let value ← p.2.set memFree item.2 false
  pure (key, value)

def keyValueListIteratorNext (it : KeyValueListIterator) : LinkedM (Data × Data) KeyValueListIterator :=
  cppIteratorNext (.null, .null) keyValueListIteratorSet it

def pairAtEnd (p : Buffer × Buffer) : Bool := p.1.data.ptr = .null

def keyValueListBegin (alloc : Nat → Bool) (list : ArakoonKeyValueList) :
    LinkedM (Data × Data) (Option KeyValueListIterator) :=
  cppListBegin (.null, .null) (.empty, .empty) keyValueListIteratorSet alloc list.first

def keyValueListIteratorCalls (list : ArakoonKeyValueList) (calls : List IteratorCall) (it : KeyValueListIterator) :
    LinkedM (Data × Data) KeyValueListIterator :=
  cppIteratorCalls (.null, .null) pairBuffersReset keyValueListIteratorSet list.first calls it

section Moves

variable {ι β γ : Type}

/-- The buffers of an iterator only ever show what the list owns: nothing is freed when they are set or reset. -/
structure Borrows (nothing : ι) (reset : β → SessionM β) (set : β → ι → SessionM β) (atEnd : β → Bool)
    (borrow : ι → β) : Prop where
  reset : ∀ x s, (reset (borrow x)).run s = some (borrow nothing, s)
  set : ∀ x y s, (set (borrow x) y).run s = some (borrow y, s)
  atEnd : atEnd (borrow nothing) = true

/-- The iterator shows some element or nothing, and comes next to the items `xs`. -/
structure CppListIterator.Before (it : CppListIterator β) (borrow : ι → β) (t : Linked ι) (xs : List (Nat × ι)) :
    Prop where
  element : ∃ x, it.element = borrow x
  rest : Chain t.cells it.iter.current xs

/-- The iterator shows the first of the items `xs` and comes next to the others; at its end it shows nothing. -/
structure CppListIterator.On (it : CppListIterator β) (nothing : ι) (borrow : ι → β) (t : Linked ι)
    (xs : List (Nat × ι)) : Prop where
  element : it.element = borrow ((xs.map Prod.snd).head?.getD nothing)
  rest : Chain t.cells it.iter.current xs.tail

theorem CppListIterator.On.before {it : CppListIterator β} {nothing : ι} {borrow : ι → β} {t : Linked ι}
    {xs : List (Nat × ι)} (h : it.On nothing borrow t xs) : it.Before borrow t xs.tail := ⟨⟨_, h.element⟩, h.rest⟩

/-- A step that leaves the session as it is. -/
theorem yields_onSession_same {m : SessionM β} {t : Linked ι} {a : β}
    (h : m.run t.session = some (a, t.session)) : Yields (onSession m) t fun b t' => b = a ∧ t' = t :=
  ⟨a, t, by rw [onSession_run, h]; rfl, rfl, rfl⟩

variable {nothing : ι} {reset : β → SessionM β} {set : β → ι → SessionM β} {atEnd : β → Bool} {borrow : ι → β}
  (laws : Borrows nothing reset set atEnd borrow) {t : Linked ι} {first : Option Nat} {xs : List (Nat × ι)}
include laws

theorem cppIteratorNext_on {it : CppListIterator β} (h : it.Before borrow t xs) :
    Yields (cppIteratorNext nothing set it) t fun it' t' => t' = t ∧ it'.On nothing borrow t xs := by
  obtain ⟨⟨id, current⟩, element⟩ := it
  obtain ⟨⟨x, hx⟩, hrest⟩ := h
  obtain rfl : element = borrow x := hx
  refine Yields.bind (P := fun out t₁ => t₁ = t ∧ out.2 = (xs.map Prod.snd).head?.getD nothing ∧
    Chain t.cells out.1.current xs.tail) ?_ ?_
  · cases hrest with
    | nil => exact Yields.pure ⟨rfl, rfl, .nil⟩
    | cons hcell hrest => exact ⟨_, _, listIterNext_run hcell, rfl, rfl, hrest⟩
  · rintro ⟨iter, item⟩ _ ⟨rfl, rfl, hrest⟩
    refine (yields_onSession_same (laws.set x _ _)).bind fun element' t₂ hset => ?_
    obtain ⟨rfl, rfl⟩ := hset
    exact Yields.pure ⟨rfl, rfl, hrest⟩

/-- After `reset()` the iterator shows nothing, and comes next to the first item. -/
theorem cppIteratorReset_before {it : CppListIterator β} {ys : List (Nat × ι)} (h : it.Before borrow t ys)
    (hfirst : Chain t.cells first xs) :
    Yields (cppIteratorReset reset first it) t fun it' t' =>
      t' = t ∧ it'.element = borrow nothing ∧ it'.Before borrow t xs := by
  obtain ⟨x, hx⟩ := h.element
  refine (yields_onSession_same (hx ▸ laws.reset x _)).bind fun element t₁ hreset => ?_
  obtain ⟨rfl, rfl⟩ := hreset
  exact Yields.pure ⟨rfl, rfl, ⟨nothing, rfl⟩, hfirst⟩

/-- Wherever the calls take an iterator, it comes next to some part of the list. -/
theorem cppIteratorCalls_before (hfirst : Chain t.cells first xs) (calls : List IteratorCall)
    {it : CppListIterator β} {ys : List (Nat × ι)} (h : it.Before borrow t ys) :
    Yields (cppIteratorCalls nothing reset set first calls it) t fun it' t' =>
      t' = t ∧ ∃ zs, it'.Before borrow t zs := by
  induction calls generalizing it ys with
  | nil => exact Yields.pure ⟨rfl, ys, h⟩
  | cons call calls ih =>
      cases call with
      | next =>
          refine (cppIteratorNext_on laws h).bind fun it' t' hnext => ?_
          obtain ⟨rfl, hon⟩ := hnext
          exact ih hon.before
      | reset =>
          refine (cppIteratorReset_before laws h hfirst).bind fun it' t' hreset => ?_
          obtain ⟨rfl, -, hbefore⟩ := hreset
          exact ih hbefore

/-- A loop that begins on the first of some items goes over all of them. -/
theorem cppIteratorLoop_run (hshown : ∀ x ∈ xs, atEnd (borrow x.2) = false) {it : CppListIterator β}
    (h : it.On nothing borrow t xs) {rounds : Nat} (hrounds : xs.length < rounds) (kept : List β) :
    Yields (cppIteratorLoop nothing set atEnd rounds it kept) t fun visited _ =>
      visited = kept ++ xs.map fun x => borrow x.2 := by
  induction xs generalizing it rounds kept with
  | nil =>
      obtain ⟨rounds, rfl⟩ := Nat.exists_eq_add_one_of_ne_zero (Nat.ne_zero_of_lt hrounds)
      have hend : atEnd it.element = true := by
        rw [h.element]
        exact laws.atEnd
      rw [cppIteratorLoop, if_pos hend]
      exact Yields.pure (List.append_nil _).symm
  | cons x xs ih =>
      obtain ⟨rounds, rfl⟩ := Nat.exists_eq_add_one_of_ne_zero (Nat.ne_zero_of_lt hrounds)
      have helement : it.element = borrow x.2 := h.element
      rw [cppIteratorLoop, helement, hshown x List.mem_cons_self, if_neg Bool.false_ne_true]
      refine (cppIteratorNext_on laws h.before).bind fun it' t' hnext => ?_
      obtain ⟨rfl, hon⟩ := hnext
      refine (ih (fun y hy => hshown y (List.mem_cons_of_mem _ hy)) hon (Nat.lt_of_succ_lt_succ hrounds) _).mono ?_
      rintro _ _ rfl
      rw [List.append_assoc, List.map_cons, List.singleton_append]

theorem cppIteratorCalls_reset (hfirst : Chain t.cells first xs) (calls : List IteratorCall)
    {it : CppListIterator β} {ys : List (Nat × ι)} (h : it.Before borrow t ys) :
    Yields (cppIteratorCalls nothing reset set first calls it >>= cppIteratorReset reset first) t fun it' t' =>
      t' = t ∧ it'.element = borrow nothing ∧ it'.Before borrow t xs := by
  refine (cppIteratorCalls_before laws hfirst calls h).bind fun it₁ t₁ hcalls => ?_
  obtain ⟨rfl, zs, hzs⟩ := hcalls
  exact cppIteratorReset_before laws hzs hfirst

end Moves

/-! ### Restarting -/

section Restart

variable {ι β γ : Type}

/-- The iterator is on the first element of the contents, which are seen through `look`. -/
structure Restarted (nothing : ι) (set : β → ι → SessionM β) (atEnd : β → Bool) (look : β → γ) (absent : γ)
    (contents : List γ) (it : CppListIterator β) (t : Linked ι) : Prop where
  ends : atEnd it.element = true ↔ contents = []
  element : look it.element = contents.head?.getD absent
  visits : ∀ rounds, contents.length < rounds →
    Yields (cppIteratorLoop nothing set atEnd rounds it []) t fun visited _ => visited.map look = contents

variable {nothing : ι} {empty : β} {reset : β → SessionM β} {set : β → ι → SessionM β} {atEnd : β → Bool}
  {borrow : ι → β} (laws : Borrows nothing reset set atEnd borrow) {t : Linked ι} {first : Option Nat}
  {xs : List (Nat × ι)} {look : β → γ} {absent : γ} {contents : List γ}
include laws

theorem CppListIterator.On.restarted {it : CppListIterator β} (h : it.On nothing borrow t xs)
    (hshown : ∀ x ∈ xs, atEnd (borrow x.2) = false) (hlook : xs.map (fun x => look (borrow x.2)) = contents)
    (habsent : look (borrow nothing) = absent) : Restarted nothing set atEnd look absent contents it t where
  ends := by
    rw [h.element]
    cases xs with
    | nil => exact ⟨fun _ => hlook.symm, fun _ => laws.atEnd⟩
    | cons x xs =>
        refine ⟨fun hend => ?_, fun hcontents => absurd (hlook.trans hcontents) (List.cons_ne_nil _ _)⟩
        exact absurd ((hshown x List.mem_cons_self).symm.trans hend) Bool.false_ne_true
  element := by
    rw [h.element, ← hlook]
    cases xs with
    | nil => exact habsent
    | cons x xs => rfl
  visits := by
    intro rounds hrounds
    rw [← hlook, List.length_map] at hrounds
    refine (cppIteratorLoop_run laws hshown h hrounds []).mono ?_
    rintro _ _ rfl
    rw [List.nil_append, List.map_map]
    exact hlook

/-- An iterator that `begin()` has made. -/
theorem ensures_cppListBegin (alloc : Nat → Bool) (hempty : empty = borrow nothing) (hfirst : Chain t.cells first xs) :
    Ensures (cppListBegin nothing empty set alloc first) t fun out t' =>
      t.Later t' ∧ ∀ it, out = some it → it.On nothing borrow t' xs := by
  have hcreate : Ensures (listCreateIter alloc first) t fun out t₁ =>
      t.Later t₁ ∧ ∀ iter, out = some iter → iter.current = first := by
    have hnew : Ensures (onSession (memNew alloc)) t fun _ t₁ => t.Later t₁ :=
      ((refines_memNew alloc t _ _ rfl).mono fun _ _ hblock => hblock.2.2.1).ensures
    refine hnew.bind fun p t₁ hlater => ?_
    cases p with
    | none => exact Ensures.pure ⟨hlater, fun _ h => by cases h⟩
    | some id =>
        refine Ensures.pure ⟨hlater, fun iter h => ?_⟩
        obtain rfl := Option.some.inj h
        rfl
  refine hcreate.bind fun out t₁ hiter => ?_
  obtain ⟨hlater, hcurrent⟩ := hiter
  cases out with
  | none => exact Ensures.pure ⟨hlater, fun _ h => by cases h⟩
  | some iter =>
      have hbefore : CppListIterator.Before ⟨iter, empty⟩ borrow t₁ xs :=
        ⟨⟨nothing, hempty⟩, hcurrent iter rfl ▸ hlater.cells ▸ hfirst⟩
      refine (cppIteratorNext_on laws hbefore).ensures.bind fun it t₂ hnext => ?_
      obtain ⟨rfl, hon⟩ := hnext
      refine Ensures.pure ⟨hlater, fun _ h => ?_⟩
      obtain rfl := Option.some.inj h
      exact hon

/-- `reset()` puts an iterator back on the first element where there is none. -/
theorem reset_restarts_iff_nil (hfirst : Chain t.cells first xs)
    (hshown : ∀ x ∈ xs, atEnd (borrow x.2) = false) (hlook : xs.map (fun x => look (borrow x.2)) = contents)
    (habsent : look (borrow nothing) = absent) (calls : List IteratorCall) {it : CppListIterator β}
    {ys : List (Nat × ι)} (h : it.Before borrow t ys) :
    Yields (cppIteratorCalls nothing reset set first calls it >>= cppIteratorReset reset first) t
      (Restarted nothing set atEnd look absent contents) ↔ contents = [] := by
  obtain ⟨it', t', hrun, rfl, helement, hbefore⟩ := cppIteratorCalls_reset laws hfirst calls h
  constructor
  · intro hyields
    have hrestarted := hyields.ensures _ _ hrun
    refine hrestarted.ends.mp ?_
    rw [helement]
    exact laws.atEnd
  · rintro rfl
    obtain rfl : xs = [] := List.map_eq_nil_iff.mp hlook
    have hon : it'.On nothing borrow t' [] := ⟨helement, hbefore.rest⟩
    exact ⟨it', t', hrun, hon.restarted laws hshown hlook habsent⟩

/-- With a `next()` behind it, `reset()` does restart the iterator. -/
theorem reset_next_restarts (hfirst : Chain t.cells first xs)
    (hshown : ∀ x ∈ xs, atEnd (borrow x.2) = false) (hlook : xs.map (fun x => look (borrow x.2)) = contents)
    (habsent : look (borrow nothing) = absent) (calls : List IteratorCall) {it : CppListIterator β}
    {ys : List (Nat × ι)} (h : it.Before borrow t ys) :
    Yields (cppIteratorCalls nothing reset set first calls it >>= cppIteratorReset reset first >>=
      cppIteratorNext nothing set) t (Restarted nothing set atEnd look absent contents) := by
  refine (cppIteratorCalls_reset laws hfirst calls h).bind fun it₁ t₁ hreset => ?_
  obtain ⟨rfl, -, hbefore⟩ := hreset
  refine (cppIteratorNext_on laws hbefore).mono fun it₂ t₂ hnext => ?_
  obtain ⟨rfl, hon⟩ := hnext
  exact hon.restarted laws hshown hlook habsent

end Restart

def lookValue (value : Buffer) : Option Bytes := value.data.value

def lookPair (p : Buffer × Buffer) : Option Bytes × Option Bytes := (lookValue p.1, lookValue p.2)

def borrowPair (item : Data × Data) : Buffer × Buffer := (.borrow item.1, .borrow item.2)

theorem borrows_value : Borrows .null (Buffer.reset memFree) valueListIteratorSet valueAtEnd Buffer.borrow :=
  ⟨Buffer.reset_borrow, Buffer.set_borrow, rfl⟩

theorem borrows_pair :
    Borrows (.null, .null) pairBuffersReset keyValueListIteratorSet pairAtEnd borrowPair :=
  ⟨fun _ _ => rfl, fun _ _ _ => rfl, rfl⟩

/-- `at_end()`, `value()` and a loop over the rest, for an iterator that is on the first of the values. -/
def RestartedValues (values : List Bytes) : ValueListIterator → Linked Data → Prop :=
  Restarted .null valueListIteratorSet valueAtEnd lookValue none (values.map some)

/-- `at_end()`, `key()` and `value()`, and a loop over the rest, for an iterator that is on the first of the pairs. -/
def RestartedPairs (pairs : List (Bytes × Bytes)) : KeyValueListIterator → Linked (Data × Data) → Prop :=
  Restarted (.null, .null) keyValueListIteratorSet pairAtEnd lookPair (none, none) (pairs.map pairContents)

section Lists

variable {v : ValueList} {l : ArakoonValueList} {t : Linked Data} {values : List Bytes}

theorem ValueList.shown_of_contents (hcontents : v.contents = values.map some) :
    ∀ x ∈ v.items.map fun item => (item.id, item.value), valueAtEnd (.borrow x.2) = false := by
  intro x hx
  obtain ⟨item, hitem, rfl⟩ := List.mem_map.mp hx
  obtain ⟨s, hs⟩ := exists_of_map_eq hcontents hitem
  exact decide_eq_false (Data.ptr_ne_null hs)

theorem ValueList.looks_of_contents (hcontents : v.contents = values.map some) :
    ((v.items.map fun item => (item.id, item.value)).map fun x => lookValue (.borrow x.2)) = values.map some := by
  rw [List.map_map, ← hcontents]
  rfl

variable {v' : KeyValueList} {l' : ArakoonKeyValueList} {t' : Linked (Data × Data)} {pairs : List (Bytes × Bytes)}

theorem KeyValueList.shown_of_contents (hcontents : v'.contents = pairs.map pairContents) :
    ∀ x ∈ v'.items.map fun item => (item.id, item.key, item.value), pairAtEnd (borrowPair x.2) = false := by
  intro x hx
  obtain ⟨item, hitem, rfl⟩ := List.mem_map.mp hx
  obtain ⟨p, hp⟩ := exists_of_map_eq hcontents hitem
  exact decide_eq_false (Data.ptr_ne_null (Prod.mk.inj hp).1)

theorem KeyValueList.looks_of_contents (hcontents : v'.contents = pairs.map pairContents) :
    ((v'.items.map fun item => (item.id, item.key, item.value)).map fun x => lookPair (borrowPair x.2)) =
      pairs.map pairContents := by
  rw [List.map_map, ← hcontents]
  rfl

/-- An iterator that `begin()` has made is on the first element. -/
theorem valueListBegin_on (alloc : Nat → Bool) (h : v.Stored l t) {it : ValueListIterator} {t₁ : Linked Data}
    (hbegin : (valueListBegin alloc l).run t = some (some it, t₁)) :
    v.Stored l t₁ ∧ it.On .null .borrow t₁ (v.items.map fun item => (item.id, item.value)) := by
  obtain ⟨hlater, hon⟩ := ensures_cppListBegin borrows_value alloc rfl h.chain _ _ hbegin
  exact ⟨h.later hlater, hon it rfl⟩

theorem keyValueListBegin_on (alloc : Nat → Bool) (h : v'.Stored l' t') {it : KeyValueListIterator}
    {t₁ : Linked (Data × Data)} (hbegin : (keyValueListBegin alloc l').run t' = some (some it, t₁)) :
    v'.Stored l' t₁ ∧
      it.On (.null, .null) borrowPair t₁ (v'.items.map fun item => (item.id, item.key, item.value)) := by
  obtain ⟨hlater, hon⟩ := ensures_cppListBegin borrows_pair alloc rfl h.chain _ _ hbegin
  exact ⟨h.later hlater, hon it rfl⟩

end Lists

/-- Whatever calls have moved an iterator, `reset()` puts it back on the first element if and only if there is none. The
list may be of values or of pairs. -/
theorem iterator_reset_restarts_iff (alloc : Nat → Bool) :
    (∀ (v : ValueList) (l : ArakoonValueList) (t : Linked Data) (values : List Bytes), v.Stored l t →
      v.contents = values.map some → ∀ it t₁, (valueListBegin alloc l).run t = some (some it, t₁) → ∀ calls,
        (Yields (valueListIteratorCalls l calls it >>= valueListIteratorReset l) t₁ (RestartedValues values) ↔
          values = [])) ∧
    (∀ (v : KeyValueList) (l : ArakoonKeyValueList) (t : Linked (Data × Data)) (pairs : List (Bytes × Bytes)),
      v.Stored l t → v.contents = pairs.map pairContents → ∀ it t₁,
        (keyValueListBegin alloc l).run t = some (some it, t₁) → ∀ calls,
          (Yields (keyValueListIteratorCalls l calls it >>= keyValueListIteratorReset l) t₁ (RestartedPairs pairs) ↔
            pairs = [])) := by
  constructor
  · intro v l t values h hcontents it t₁ hbegin calls
    obtain ⟨hstored, hon⟩ := valueListBegin_on alloc h hbegin
    exact (reset_restarts_iff_nil borrows_value hstored.chain (ValueList.shown_of_contents hcontents)
      (ValueList.looks_of_contents hcontents) rfl calls hon.before).trans List.map_eq_nil_iff
  · intro v l t pairs h hcontents it t₁ hbegin calls
    obtain ⟨hstored, hon⟩ := keyValueListBegin_on alloc h hbegin
    exact (reset_restarts_iff_nil borrows_pair hstored.chain (KeyValueList.shown_of_contents hcontents)
      (KeyValueList.looks_of_contents hcontents) rfl calls hon.before).trans List.map_eq_nil_iff

/-- Two calls restart an iterator: `reset()` and the `next()` that it leaves out. -/
theorem iterator_reset_next_restarts (alloc : Nat → Bool) :
    (∀ (v : ValueList) (l : ArakoonValueList) (t : Linked Data) (values : List Bytes), v.Stored l t →
      v.contents = values.map some → ∀ it t₁, (valueListBegin alloc l).run t = some (some it, t₁) → ∀ calls,
        Yields (valueListIteratorCalls l calls it >>= valueListIteratorReset l >>= valueListIteratorNext) t₁
          (RestartedValues values)) ∧
    (∀ (v : KeyValueList) (l : ArakoonKeyValueList) (t : Linked (Data × Data)) (pairs : List (Bytes × Bytes)),
      v.Stored l t → v.contents = pairs.map pairContents → ∀ it t₁,
        (keyValueListBegin alloc l).run t = some (some it, t₁) → ∀ calls,
          Yields (keyValueListIteratorCalls l calls it >>= keyValueListIteratorReset l >>= keyValueListIteratorNext) t₁
            (RestartedPairs pairs)) := by
  constructor
  · intro v l t values h hcontents it t₁ hbegin calls
    obtain ⟨hstored, hon⟩ := valueListBegin_on alloc h hbegin
    exact reset_next_restarts borrows_value hstored.chain (ValueList.shown_of_contents hcontents)
      (ValueList.looks_of_contents hcontents) rfl calls hon.before
  · intro v l t pairs h hcontents it t₁ hbegin calls
    obtain ⟨hstored, hon⟩ := keyValueListBegin_on alloc h hbegin
    exact reset_next_restarts borrows_pair hstored.chain (KeyValueList.shown_of_contents hcontents)
      (KeyValueList.looks_of_contents hcontents) rfl calls hon.before

/-- Memory with the list `["a"]` in it: its header, its item and the copy of the value. -/
def oneValue : Linked Data where
  session := ⟨((((Heap.empty.malloc fun _ => true).2.malloc fun _ => true).2).malloc fun _ => true).2, none, .null⟩
  cells := Cells.put (fun _ => none) 1 ⟨none, .block 2 [97]⟩

theorem oneValue_stored : ValueList.Stored ⟨0, [⟨1, .block 2 [97]⟩]⟩ ⟨0, 1, some 1, some 1⟩ oneValue where
  id := rfl
  size := rfl
  chain := Chain.push_front .nil List.not_mem_nil _
  last := rfl
  allocated := by
    intro item hitem
    obtain rfl := List.mem_singleton.mp hitem
    decide

theorem iterator_reset_restarts_iff_one :
    (∃ it t₁, (valueListBegin (fun _ => true) ⟨0, 1, some 1, some 1⟩).run oneValue = some (some it, t₁) ∧
      ¬Yields (valueListIteratorCalls ⟨0, 1, some 1, some 1⟩ [.next, .reset] it >>=
        valueListIteratorReset ⟨0, 1, some 1, some 1⟩) t₁ (RestartedValues [[97]])) ∧
    ∃ it t₁, (keyValueListBegin (fun _ => true) ⟨0, 0, none⟩).run emptyPairs = some (some it, t₁) ∧
      Yields (keyValueListIteratorCalls ⟨0, 0, none⟩ [.next] it >>= keyValueListIteratorReset ⟨0, 0, none⟩) t₁
        (RestartedPairs []) := by
  refine ⟨⟨_, _, rfl, fun hyields => ?_⟩, _, _, rfl, ?_⟩
  · have hnil := ((iterator_reset_restarts_iff fun _ => true).1 _ _ _ [[97]] oneValue_stored rfl _ _ rfl _).mp hyields
    cases hnil
  · exact ((iterator_reset_restarts_iff fun _ => true).2 _ _ _ [] (KeyValueList.stored_nil 0 emptyPairs) rfl _ _ rfl
      _).mpr rfl

/-- The iterator of a list of one value is at its end as soon as it has been reset. -/
theorem reset_of_one_value_ends :
    ∃ it t₁, (valueListBegin (fun _ => true) ⟨0, 1, some 1, some 1⟩).run oneValue = some (some it, t₁) ∧
      ValueList.Stored ⟨0, [⟨1, .block 2 [97]⟩]⟩ ⟨0, 1, some 1, some 1⟩ t₁ ∧
      ¬Yields (valueListIteratorReset ⟨0, 1, some 1, some 1⟩ it) t₁ (RestartedValues [[97]]) := by
  obtain ⟨hstored, -⟩ := valueListBegin_on (fun _ => true) oneValue_stored rfl
  refine ⟨_, _, rfl, hstored, fun hyields => ?_⟩
  exact absurd ((hyields.ensures _ _ rfl).ends.mp rfl) (List.cons_ne_nil _ _)

end Crakoon
