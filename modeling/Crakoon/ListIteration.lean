import Crakoon.KeyValuePrepend

/-!
# A list of values while it grows

A program adds values to a list at its end (`arakoon_value_list_add`) and at its beginning
(`_arakoon_value_list_prepend`), creates iterators over it, moves them and takes them back, in any order. `ListUse` is
the list with its iterators; `deque` and `walk` say of a history of calls what the list should hold and what an iterator
has shown, and so what it is to show next. The header, the chain of items and every iterator keep to that, whatever
memory is granted.
-/

namespace Crakoon

open Programs Chains

/-- A list in memory, and the iterators in the order in which they were created. -/
structure ListUse where
  list : ArakoonValueList
  memory : Linked Data
  iters : List ListIter

abbrev ListUseM := Program ListUse

inductive ListCall where
  | add (value : Data)
  | prepend (value : Data)
  | createIter
  | next (i : Nat)
  | reset (i : Nat)
  deriving DecidableEq

/-- What a call returns: a code, the number of the new iterator or the value that is shown. -/
inductive ListAnswer where
  | code (rc : ArakoonRc)
  | iter (i : Option Nat)
  | value (value : Data)
  deriving DecidableEq

section Calls

variable (alloc : Nat → Bool)

def onList (m : ArakoonValueList → LinkedM Data (ArakoonValueList × ArakoonRc)) : ListUseM ListAnswer := fun u =>
  ((m u.list).run u.memory).map fun out => (.code out.1.2, { u with list := out.1.1, memory := out.2 })

def createListIter : ListUseM ListAnswer := fun u =>
  ((arakoonValueListCreateIter alloc u.list).run u.memory).map fun out =>
    match out.1 with
    | none => (.iter none, { u with memory := out.2 })
    | some iter => (.iter (some u.iters.length), { u with memory := out.2, iters := u.iters ++ [iter] })

/-- `none`: there is no such iterator. -/
def nextOf (i : Nat) : ListUseM ListAnswer := fun u =>
  match u.iters[i]? with
  | none => none
  | some iter => ((arakoonValueListIterNext iter).run u.memory).map fun out =>
      (.value out.1.2, { u with memory := out.2, iters := u.iters.set i out.1.1 })

def resetOf (i : Nat) : ListUseM ListAnswer := fun u =>
  match u.iters[i]? with
  | none => none
  | some iter => some (.code ArakoonReturnCode.success.rc,
      { u with iters := u.iters.set i (arakoonValueListIterReset u.list iter) })

def ListCall.program : ListCall → ListUseM ListAnswer
  | .add value => onList fun list => arakoonValueListAdd alloc list value
  | .prepend value => onList fun list => arakoonValueListPrepend alloc list value
  | .createIter => createListIter alloc
  | .next i => nextOf i
  | .reset i => resetOf i

/-- A call that returns; one with an iterator that does not exist has no next state. -/
def listStep (call : ListCall) (u : ListUse) : Except Unit (ListAnswer × ListUse) :=
  match (call.program alloc).run u with
  | none => .error ()
  | some out => .ok out

/-- The iterator of the call exists. -/
def ListCall.Valid (u : ListUse) : ListCall → Prop
  | .next i => i < u.iters.length
  | .reset i => i < u.iters.length
  | _ => True

end Calls

/-- The bytes that the list should hold after the calls, the latest of which comes first. -/
def deque : List (ListCall × ListAnswer) → List Bytes
  | [] => []
  | (.add value, .code rc) :: history => if rc = 0 then deque history ++ [value.bytes] else deque history
  | (.prepend value, .code rc) :: history => if rc = 0 then value.bytes :: deque history else deque history
  | _ :: history => deque history

/-- What an iterator has shown since it was created or taken back. -/
structure Walk where
  /-- The list had a first item then. -/
  begun : Bool
  /-- How many items have come to stand in front of that one since. -/
  before : Nat
  /-- The values up to the first null pointer. -/
  shown : List Data
  /-- Nothing is left to show: there was no first item, or the item that was shown last was the last of the list when
  it was shown. What is added to the list later does not change that. -/
  atEnd : Bool
  /-- A null pointer was shown. -/
  ended : Bool

namespace Walk

def start (held : List Bytes) : Walk := ⟨!held.isEmpty, 0, [], held.isEmpty, false⟩

def push (w : Walk) : Walk := { w with before := w.before + 1 }

/-- A value is shown, by a list that holds `held`. -/
def see (w : Walk) (held : List Bytes) (value : Data) : Walk :=
  if w.ended ∨ value = .null then { w with ended := true }
  else { w with shown := w.shown ++ [value], atEnd := decide (w.before + w.shown.length + 1 = held.length) }

/-- What the iterator is to show next, if anything: the item behind those that it has shown. -/
def due (w : Walk) (held : List Bytes) : Option Bytes :=
  if w.atEnd then none else held[w.before + w.shown.length]?

end Walk

/-- The walk of the iterator `i`, if it was created. -/
def walk (i : Nat) : List (ListCall × ListAnswer) → Option Walk
  | [] => none
  | (.prepend _, .code rc) :: history => if rc = 0 then (walk i history).map Walk.push else walk i history
  | (.createIter, .iter j) :: history => if j = some i then some (.start (deque history)) else walk i history
  | (.next j, .value value) :: history =>
      if j = i then (walk i history).map (Walk.see · (deque history) value) else walk i history
  | (.reset j, _) :: history => if j = i then some (.start (deque history)) else walk i history
  | _ :: history => walk i history

section Insertions

variable (alloc : Nat → Bool)

/-- What the two insertions begin with: a block for the item and a copy of the value. -/
def insertItem (value : Data) : LinkedM Data (Option (Nat × Data)) := do
  match ← onSession (memNew alloc) with
  | none => pure none
  | some item => do
      match ← onSession (copyValue alloc value) with
      | none => do
          onSession (memFree (.block item))
          pure none
      | some copy => pure (some (item, copy))

/-- A new item comes to stand in front of the others. -/
def linkFirst (list : ArakoonValueList) : Option (Nat × Data) → LinkedM Data (ArakoonValueList × ArakoonRc)
  | none => pure (list, enomem)
  | some (item, copy) => do
      putCell item ⟨list.first, copy⟩
      pure (⟨list.id, sizeT (list.size + 1), some item, some (list.last.getD item)⟩, ArakoonReturnCode.success.rc)

/-- A new item comes to stand behind the others. -/
def linkLast (list : ArakoonValueList) : Option (Nat × Data) → LinkedM Data (ArakoonValueList × ArakoonRc)
  | none => pure (list, enomem)
  | some (item, copy) => do
      putCell item ⟨none, copy⟩
      match list.last with
      | some last => linkCell last item
      | none => pure ()
      pure (⟨list.id, sizeT (list.size + 1), some (list.first.getD item), some item⟩, ArakoonReturnCode.success.rc)

theorem arakoonValueListPrepend_eq (list : ArakoonValueList) (value : Data) :
    arakoonValueListPrepend alloc list value = insertItem alloc value >>= linkFirst list := by
  rw [arakoonValueListPrepend, insertItem, bind_assoc]
  refine congrArg _ (funext fun item => ?_)
  cases item with
  | none => rfl
  | some item =>
      dsimp only
      rw [bind_assoc]
      refine congrArg _ (funext fun copy => ?_)
      cases copy with
      | none => rfl
      | some copy => rfl

theorem arakoonValueListAppend_eq (list : ArakoonValueList) (value : Data) :
    arakoonValueListAppend alloc list value = insertItem alloc value >>= linkLast list := by
  rw [arakoonValueListAppend, insertItem, bind_assoc]
  refine congrArg _ (funext fun item => ?_)
  cases item with
  | none => rfl
  | some item =>
      dsimp only
      rw [bind_assoc]
      refine congrArg _ (funext fun copy => ?_)
      cases copy with
      | none => rfl
      | some copy =>
          cases hlast : list.last with
          | none => simp [linkLast, hlast]
          | some last => simp [linkLast, hlast]

/-- The items are where they were, and what was obtained in between was given back. -/
structure Linked.Undoes (t t' : Linked Data) : Prop where
  later : t.Later t'
  undone : ∃ events, t'.session.heap.log = t.session.heap.log ++ events ∧ Undone events

theorem Linked.Undoes.refl (t : Linked Data) : t.Undoes t := ⟨.refl t, [], (List.append_nil _).symm, undone_nil⟩

/-- Whether an insertion has got what it needs. -/
inductive Inserting (t t' : Linked Data) (value : Data) : Option (Nat × Data) → Prop where
  | granted (copy : Data) (hcopy : copy.value = some value.bytes) (hlater : t.Later t')
      (hnext : t.session.heap.next < t'.session.heap.next) : Inserting t t' value (some (t.session.heap.next, copy))
  | refused (hundoes : t.Undoes t') : Inserting t t' value none

theorem yields_insertItem (value : Data) (t : Linked Data) :
    Yields (insertItem alloc value) t fun out t' => Inserting t t' value out := by
  refine ((refines_memNew alloc t).yields (logs_memNew alloc t.session)).bind fun p t₁ hnew => ?_
  obtain ⟨_, _, hlogs, rfl, rfl, hlater, hblock⟩ := hnew
  rcases hlogs with ⟨-, id, rfl, hitem⟩ | ⟨-, rfl, hitem⟩
  · obtain ⟨rfl, hnext⟩ := hblock id rfl
    have hcopied :=
      (refines_onSession (onwards_copyValue alloc 0 value) t₁).yields (logs_copyValue alloc value t₁.session)
    refine hcopied.bind fun copy t₂ hcopy => ?_
    obtain ⟨_, _, hcopying, rfl, rfl, hlater₂⟩ := hcopy
    have hlt : t.session.heap.next < t₂.session.heap.next :=
      Nat.lt_of_lt_of_le (hnext ▸ Nat.lt_succ_self _) hlater₂.next
    cases hcopying with
    | empty hsize _ =>
        refine Yields.pure (.granted .zeroLength ?_ (hlater.trans hlater₂) hlt)
        rw [Data.bytes_of_size_zero hsize]
        rfl
    | block id _ _ _ => exact Yields.pure (.granted _ rfl (hlater.trans hlater₂) hlt)
    | refused _ _ hlogs =>
        have hfreed := (refines_onSession (onwards_memFree 0 (p := .block t.session.heap.next) fun _ _ =>
          Nat.zero_le _) t₂).yields (logs_memFree _ t₂.session)
        refine hfreed.bind fun _ t₃ hfree => ?_
        obtain ⟨_, _, hfreeLogs, -, rfl, hlater₃⟩ := hfree
        have hlog := ((hitem.trans hlogs).trans hfreeLogs).log
        exact Yields.pure (.refused ⟨(hlater.trans hlater₂).trans hlater₃, _, hlog, undone_block _⟩)
  · exact Yields.pure (.refused ⟨hlater, [], hitem.log, undone_nil⟩)

/-- The list holds one more item, with a copy of the value, or the call has run out of memory and changed nothing. -/
inductive Inserted (l : ArakoonValueList) (t : Linked Data) (value : Data) (inserted : ValueListItem → ValueList)
    (out : ArakoonValueList × ArakoonRc) (t' : Linked Data) : Prop where
  | done (hrc : out.2 = ArakoonReturnCode.success.rc) (item : ValueListItem)
      (hitem : item.value.value = some value.bytes) (hstored : (inserted item).Stored out.1 t')
  | refused (hrc : out.2 = enomem) (hlist : out.1 = l) (hundoes : t.Undoes t')

theorem inserted_prepend {v : ValueList} {l : ArakoonValueList} {t : Linked Data} (h : v.Stored l t) (value : Data) :
    Yields (arakoonValueListPrepend alloc l value) t
      (Inserted l t value fun item => ⟨v.id, item :: v.items⟩) := by
  rw [arakoonValueListPrepend_eq]
  refine (yields_insertItem alloc value t).bind fun out t₁ hinserting => ?_
  cases hinserting with
  | refused hundoes => exact Yields.pure (.refused rfl rfl hundoes)
  | granted copy hcopy hlater hnext =>
      refine (yields_putCell _ _ t₁).bind fun _ t₂ hput => ?_
      subst hput
      exact Yields.pure (.done rfl _ hcopy (h.prepend hlater hnext copy))

theorem inserted_append {v : ValueList} {l : ArakoonValueList} {t : Linked Data} (h : v.Stored l t) (value : Data) :
    Yields (arakoonValueListAppend alloc l value) t
      (Inserted l t value fun item => ⟨v.id, v.items ++ [item]⟩) := by
  rw [arakoonValueListAppend_eq]
  refine (yields_insertItem alloc value t).bind fun out t₁ hinserting => ?_
  cases hinserting with
  | refused hundoes => exact Yields.pure (.refused rfl rfl hundoes)
  | granted copy hcopy hlater hnext =>
      have hstored := h.append hlater hnext copy
      rw [linkLast]
      refine (yields_putCell _ _ t₁).bind fun _ t₂ hput => ?_
      subst hput
      cases hlast : l.last with
      | none =>
          rw [hlast] at hstored
          exact Yields.pure (.done rfl _ hcopy hstored)
      | some last =>
          rw [hlast] at hstored
          exact ⟨_, _, rfl, .done rfl _ hcopy hstored⟩

end Insertions

/-! ### Iterators and runs -/

/-- Where an iterator is, in a list with these items. -/
inductive Walks (items : List ValueListItem) (w : Walk) (iter : ListIter) : Prop where
  | along (front seen rest : List ValueListItem) (hitems : items = front ++ (seen ++ rest))
      (hbefore : w.before = front.length) (hshown : w.shown = seen.map ValueListItem.value)
      (hbegun : w.begun = false → w.atEnd = true ∧ seen = []) (hended : w.ended = true → w.atEnd = true)
      (hmore : w.atEnd = false → rest ≠ [])
      (hcurrent : iter.current = if w.atEnd then none else rest.head?.map ValueListItem.id)

namespace Walks

variable {items : List ValueListItem} {w : Walk} {iter : ListIter}

/-- An iterator that was created or taken back just now. -/
theorem start {v : ValueList} {l : ArakoonValueList} {t : Linked Data} (h : v.Stored l t) {held : List Bytes}
    (hheld : v.contents = held.map some) (id : Nat) : Walks v.items (.start held) ⟨id, l.first⟩ := by
  have hfirst : l.first = v.items.head?.map ValueListItem.id := by
    rw [h.chain.start]
    cases v.items <;> rfl
  have hsize : v.items.length = held.length := by
    have hlength := congrArg List.length hheld
    simpa [ValueList.contents] using hlength
  cases held with
  | nil =>
      have hnil : v.items = [] := List.eq_nil_of_length_eq_zero hsize
      refine .along [] [] v.items rfl rfl rfl (fun _ => ⟨rfl, rfl⟩) (fun h => by cases h) (fun h => by cases h) ?_
      rw [hfirst, hnil]
      rfl
  | cons bytes held =>
      refine .along [] [] v.items rfl rfl rfl (fun h => by cases h) (fun h => by cases h) (fun _ hnil => ?_) hfirst
      rw [hnil] at hsize
      cases hsize

theorem prepend (h : Walks items w iter) (item : ValueListItem) : Walks (item :: items) w.push iter := by
  obtain ⟨front, seen, rest, hitems, hbefore, hshown, hbegun, hended, hmore, hcurrent⟩ := h
  refine .along (item :: front) seen rest (by rw [hitems]; rfl) ?_ hshown hbegun hended hmore hcurrent
  rw [List.length_cons, ← hbefore]
  rfl

theorem append (h : Walks items w iter) (item : ValueListItem) : Walks (items ++ [item]) w iter := by
  obtain ⟨front, seen, rest, hitems, hbefore, hshown, hbegun, hended, hmore, hcurrent⟩ := h
  refine .along front seen (rest ++ [item]) (by simp [hitems]) hbefore hshown hbegun hended (fun _ => by simp) ?_
  cases hover : w.atEnd with
  | true =>
      rw [hover] at hcurrent
      exact hcurrent
  | false =>
      rw [hover] at hcurrent
      cases rest with
      | nil => exact absurd rfl (hmore hover)
      | cons next rest => exact hcurrent

/-- What an iterator is to show is the value of the item behind those that it has shown. -/
theorem due_at {v : ValueList} {passed rest : List ValueListItem} {item : ValueListItem}
    (hitems : v.items = passed ++ item :: rest) (hplace : w.before + w.shown.length = passed.length)
    (hover : w.atEnd = false) {held : List Bytes} (hheld : v.contents = held.map some) :
    (w.due held).map some = some item.value.value := by
  rw [Walk.due, hover, if_neg Bool.false_ne_true, ← List.getElem?_map, ← hheld, ValueList.contents, hitems, hplace,
    List.map_append, List.map_cons, List.getElem?_append_right (by rw [List.length_map]), List.length_map, Nat.sub_self]
  rfl

/-- It is the last one if nothing is behind it. -/
theorem last_at {v : ValueList} {passed rest : List ValueListItem} {item : ValueListItem}
    (hitems : v.items = passed ++ item :: rest) (hplace : w.before + w.shown.length = passed.length)
    {held : List Bytes} (hheld : v.contents = held.map some) :
    decide (w.before + w.shown.length + 1 = held.length) = rest.isEmpty := by
  have hlength : held.length = passed.length + (rest.length + 1) := by
    have hlength := congrArg List.length hheld
    simpa [ValueList.contents, hitems] using hlength.symm
  rw [hplace, hlength]
  cases rest with
  | nil => exact decide_eq_true rfl
  | cons next rest => exact decide_eq_false (by rw [List.length_cons]; omega)

/-- An iterator that is moved shows what it is to show. -/
theorem next {v : ValueList} {l : ArakoonValueList} {t : Linked Data} (h : v.Stored l t)
    (hwalks : Walks v.items w iter) {held : List Bytes} (hheld : v.contents = held.map some) :
    Yields (arakoonValueListIterNext iter) t fun out t' => t' = t ∧ out.1.id = iter.id ∧
      out.2.value = w.due held ∧ Walks v.items (w.see held out.2) out.1 := by
  obtain ⟨front, seen, rest, hitems, hbefore, hshown, hbegun, hended, hmore, hcurrent⟩ := hwalks
  obtain ⟨id, current⟩ := iter
  cases hover : w.atEnd with
  | true =>
      rw [hover] at hcurrent
      obtain rfl : current = none := hcurrent
      have hsee : w.see held .null = { w with ended := true } := if_pos (.inr rfl)
      refine Yields.pure ⟨rfl, rfl, ?_, ?_⟩
      · rw [Walk.due, hover]
        rfl
      · rw [hsee]
        exact .along front seen rest hitems hbefore hshown hbegun (fun _ => hover) hmore (by rw [hover]; rfl)
  | false =>
      have hopen : ¬w.ended = true := fun h => by rw [hended h] at hover; cases hover
      cases rest with
      | nil => exact absurd rfl (hmore hover)
      | cons item rest =>
          rw [hover] at hcurrent
          obtain rfl : current = some item.id := hcurrent
          have hchain := h.chain
          rw [hitems, ← List.append_assoc, List.map_append, List.map_cons] at hchain
          obtain ⟨-, next, hcell, hrest⟩ := hchain.suffix.head
          have hplace : w.before + w.shown.length = (front ++ seen).length := by
            rw [hbefore, hshown, List.length_map, List.length_append]
          rw [← List.append_assoc] at hitems
          obtain ⟨bytes, hbytes, hvalue⟩ := Option.map_eq_some_iff.mp (due_at hitems hplace hover hheld)
          have hnull : item.value ≠ .null := by
            intro hnull
            rw [hnull] at hvalue
            cases hvalue
          have hsee : w.see held item.value = { w with
              shown := w.shown ++ [item.value]
              atEnd := decide (w.before + w.shown.length + 1 = held.length) } :=
            if_neg fun h => h.elim hopen hnull
          have hover' := last_at hitems hplace hheld
          refine ⟨_, _, listIterNext_run hcell, rfl, rfl, ?_, ?_⟩
          · rw [hbytes, ← hvalue]
          · rw [hsee]
            refine .along front (seen ++ [item]) rest (by simp [hitems]) hbefore (by simp [hshown]) ?_ ?_ ?_ ?_
            · intro hno
              rw [(hbegun hno).1] at hover
              cases hover
            · exact fun h => absurd h hopen
            · intro hleft
              change decide _ = false at hleft
              rw [hover'] at hleft
              intro hnil
              rw [hnil] at hleft
              cases hleft
            · change next = if decide _ = true then none else _
              rw [hover', hrest.start]
              cases rest <;> rfl

end Walks

/-- What an iterator has shown is consecutive: it begins with the item that was first, and goes on from there. A null
pointer was shown only where nothing was left to show, and where something is left the list holds it. -/
structure Walk.Consecutive (w : Walk) (held : List Bytes) : Prop where
  nothing : w.begun = false → w.shown = []
  shown : w.shown.map Data.value <+: (held.drop w.before).map some
  ended : w.ended = true → w.atEnd = true
  more : w.atEnd = false → (w.due held).isSome

/-- A value is inserted, or the call runs out of memory and changes nothing. -/
def ListUse.Inserts (u : ListUse) (answer : ListAnswer) (u' : ListUse) : Prop :=
  answer = .code ArakoonReturnCode.success.rc ∨
    answer = .code enomem ∧ u'.list = u.list ∧ u'.iters = u.iters ∧ u.memory.Undoes u'.memory

/-- What a call returns. A null pointer is not added, and an iterator shows what it is to show. -/
def ListCall.Answered (history : List (ListCall × ListAnswer)) (u : ListUse) (answer : ListAnswer) (u' : ListUse) :
    ListCall → Prop
  | .add value => u.Inserts answer u' ∨ value = .null ∧ answer = .code einval ∧ u' = u
  | .prepend _ => u.Inserts answer u'
  | .createIter => answer = .iter none ∨ answer = .iter (some u.iters.length)
  | .next i => ∃ w value, walk i history = some w ∧ answer = .value value ∧ value.value = w.due (deque history)
  | .reset _ => answer = .code ArakoonReturnCode.success.rc

/-- The list is `v`, which holds what the history says, and so do the iterators. -/
structure ListUse.Holds (history : List (ListCall × ListAnswer)) (u : ListUse) (v : ValueList) : Prop where
  stored : v.Stored u.list u.memory
  contents : v.contents = (deque history).map some
  walks : ∀ i iter, u.iters[i]? = some iter → ∃ w, walk i history = some w ∧ Walks v.items w iter
  others : ∀ i, u.iters[i]? = none → walk i history = none

theorem einval_ne_zero : einval ≠ 0 := by decide

theorem walk_prepend (i : Nat) (value : Data) (history : List (ListCall × ListAnswer)) :
    walk i ((.prepend value, .code ArakoonReturnCode.success.rc) :: history) = (walk i history).map Walk.push :=
  if_pos rfl

/-- A new iterator is at the first item. -/
theorem yields_createIter (alloc : Nat → Bool) (l : ArakoonValueList) (t : Linked Data) :
    Yields (arakoonValueListCreateIter alloc l) t fun out t' =>
      t.Later t' ∧ ∀ iter, out = some iter → ∃ id, iter = ⟨id, l.first⟩ := by
  refine ((refines_onSession (onwards_memNew alloc 0) t).yields (logs_memNew alloc t.session)).bind fun p t₁ hnew => ?_
  obtain ⟨_, _, -, -, -, hlater⟩ := hnew
  cases p with
  | none => exact Yields.pure ⟨hlater, fun iter hiter => by cases hiter⟩
  | some id => exact Yields.pure ⟨hlater, fun iter hiter => ⟨id, (Option.some.inj hiter).symm⟩⟩

namespace ListUse.Holds

variable {alloc : Nat → Bool} {history : List (ListCall × ListAnswer)} {u : ListUse} {v : ValueList}

/-- A call that has no effect on the list or on an iterator. -/
theorem stays (h : u.Holds history v) {t : Linked Data} (hlater : u.memory.Later t) {e : ListCall × ListAnswer}
    (hdeque : deque (e :: history) = deque history) (hwalk : ∀ i, walk i (e :: history) = walk i history) :
    ({ u with memory := t } : ListUse).Holds (e :: history) v where
  stored := h.stored.later hlater
  contents := hdeque ▸ h.contents
  walks := fun i iter hiter => hwalk i ▸ h.walks i iter hiter
  others := fun i hnone => (hwalk i).trans (h.others i hnone)

theorem prepended (h : u.Holds history v) {value : Data} {item : ValueListItem}
    (hitem : item.value.value = some value.bytes) {l : ArakoonValueList} {t : Linked Data}
    (hstored : ValueList.Stored ⟨v.id, item :: v.items⟩ l t) :
    ({ u with list := l, memory := t } : ListUse).Holds ((.prepend value, .code ArakoonReturnCode.success.rc) :: history)
      ⟨v.id, item :: v.items⟩ where
  stored := hstored
  contents := by
    have hdeque : deque ((.prepend value, .code ArakoonReturnCode.success.rc) :: history) =
        value.bytes :: deque history := if_pos rfl
    rw [hdeque, List.map_cons, ← h.contents, ← hitem]
    rfl
  walks := by
    intro i iter hiter
    obtain ⟨w, hw, hwalks⟩ := h.walks i iter hiter
    refine ⟨w.push, ?_, hwalks.prepend item⟩
    rw [walk_prepend, hw]
    rfl
  others := by
    intro i hnone
    rw [walk_prepend, h.others i hnone]
    rfl

theorem added (h : u.Holds history v) {value : Data} {item : ValueListItem}
    (hitem : item.value.value = some value.bytes) {l : ArakoonValueList} {t : Linked Data}
    (hstored : ValueList.Stored ⟨v.id, v.items ++ [item]⟩ l t) :
    ({ u with list := l, memory := t } : ListUse).Holds ((.add value, .code ArakoonReturnCode.success.rc) :: history)
      ⟨v.id, v.items ++ [item]⟩ where
  stored := hstored
  contents := by
    have hdeque : deque ((.add value, .code ArakoonReturnCode.success.rc) :: history) =
        deque history ++ [value.bytes] := if_pos rfl
    rw [hdeque, List.map_append, ← h.contents]
    simp [ValueList.contents, hitem]
  walks := by
    intro i iter hiter
    obtain ⟨w, hw, hwalks⟩ := h.walks i iter hiter
    exact ⟨w, hw, hwalks.append item⟩
  others := h.others

/-- One iterator comes to be somewhere else. -/
theorem moved (h : u.Holds history v) {i : Nat} (hi : i < u.iters.length) {iter : ListIter} {w : Walk}
    (hwalks : Walks v.items w iter) {e : ListCall × ListAnswer} (hdeque : deque (e :: history) = deque history)
    (hw : walk i (e :: history) = some w) (hwalk : ∀ j, j ≠ i → walk j (e :: history) = walk j history) :
    ({ u with iters := u.iters.set i iter } : ListUse).Holds (e :: history) v where
  stored := h.stored
  contents := hdeque ▸ h.contents
  walks := by
    intro j iter' hiter
    change (u.iters.set i iter)[j]? = some iter' at hiter
    by_cases hji : j = i
    · subst hji
      rw [List.getElem?_set_self hi] at hiter
      obtain rfl := Option.some.inj hiter
      exact ⟨w, hw, hwalks⟩
    · rw [List.getElem?_set_ne (Ne.symm hji)] at hiter
      exact hwalk j hji ▸ h.walks j iter' hiter
  others := by
    intro j hnone
    change (u.iters.set i iter)[j]? = none at hnone
    rw [List.getElem?_eq_none_iff, List.length_set] at hnone
    have hji : j ≠ i := fun heq => absurd hi (Nat.not_lt.mpr (heq ▸ hnone))
    exact (hwalk j hji).trans (h.others j (List.getElem?_eq_none_iff.mpr hnone))

/-- An iterator is created. -/
theorem created (h : u.Holds history v) {t : Linked Data} (hlater : u.memory.Later t) (id : Nat) :
    ({ u with memory := t, iters := u.iters ++ [⟨id, u.list.first⟩] } : ListUse).Holds
      ((.createIter, .iter (some u.iters.length)) :: history) v where
  stored := h.stored.later hlater
  contents := h.contents
  walks := by
    intro i iter hiter
    change (u.iters ++ [⟨id, u.list.first⟩])[i]? = some iter at hiter
    by_cases hi : i < u.iters.length
    · rw [List.getElem?_append_left hi] at hiter
      obtain ⟨w, hw, hwalks⟩ := h.walks i iter hiter
      refine ⟨w, ?_, hwalks⟩
      rw [walk, if_neg fun heq => absurd (Option.some.inj heq) (Nat.ne_of_gt hi), hw]
    · have hlast : i = u.iters.length := by
        have hlt := (List.getElem?_eq_some_iff.mp hiter).1
        rw [List.length_append, List.length_singleton] at hlt
        omega
      subst hlast
      rw [List.getElem?_concat_length] at hiter
      obtain rfl := Option.some.inj hiter
      exact ⟨_, if_pos rfl, .start h.stored h.contents id⟩
  others := by
    intro i hnone
    change (u.iters ++ [⟨id, u.list.first⟩])[i]? = none at hnone
    rw [List.getElem?_eq_none_iff, List.length_append, List.length_singleton] at hnone
    rw [walk, if_neg fun heq => absurd (Option.some.inj heq) (by omega)]
    exact h.others i (List.getElem?_eq_none_iff.mpr (by omega))

/-- A call keeps to the history, and does not abort if its iterator exists. -/
theorem step (h : u.Holds history v) {call : ListCall} (hvalid : call.Valid u) :
    Yields (call.program alloc) u fun answer u' =>
      call.Answered history u answer u' ∧ ∃ v', u'.Holds ((call, answer) :: history) v' := by
  cases call with
  | add value =>
      by_cases hvalue : value.ptr = .null
      · obtain rfl : value = .null := by cases value <;> first | rfl | cases hvalue
        refine ⟨.code einval, u, rfl, .inr ⟨rfl, rfl, rfl⟩, v, ?_⟩
        exact h.stays (.refl _) (if_neg einval_ne_zero) fun i => rfl
      · have hadd : arakoonValueListAdd alloc u.list value = arakoonValueListAppend alloc u.list value := if_neg hvalue
        obtain ⟨⟨l, rc⟩, t, hrun, hinserted⟩ := inserted_append alloc h.stored value
        refine ⟨.code rc, { u with list := l, memory := t }, ?_, ?_⟩
        · change Option.map _ ((arakoonValueListAdd alloc u.list value).run u.memory) = _
          rw [hadd, hrun]
          rfl
        · cases hinserted with
          | done hrc item hitem hstored =>
              obtain rfl : rc = ArakoonReturnCode.success.rc := hrc
              exact ⟨.inl (.inl rfl), _, h.added hitem hstored⟩
          | refused hrc hlist hundoes =>
              obtain rfl : rc = enomem := hrc
              obtain rfl : l = u.list := hlist
              refine ⟨.inl (.inr ⟨rfl, rfl, rfl, hundoes⟩), v, ?_⟩
              exact h.stays hundoes.later (if_neg enomem_ne_zero) fun i => rfl
  | prepend value =>
      obtain ⟨⟨l, rc⟩, t, hrun, hinserted⟩ := inserted_prepend alloc h.stored value
      refine ⟨.code rc, { u with list := l, memory := t }, ?_, ?_⟩
      · change Option.map _ ((arakoonValueListPrepend alloc u.list value).run u.memory) = _
        rw [hrun]
        rfl
      · cases hinserted with
        | done hrc item hitem hstored =>
            obtain rfl : rc = ArakoonReturnCode.success.rc := hrc
            exact ⟨.inl rfl, _, h.prepended hitem hstored⟩
        | refused hrc hlist hundoes =>
            obtain rfl : rc = enomem := hrc
            obtain rfl : l = u.list := hlist
            refine ⟨.inr ⟨rfl, rfl, rfl, hundoes⟩, v, ?_⟩
            exact h.stays hundoes.later (if_neg enomem_ne_zero) fun i => if_neg enomem_ne_zero
  | createIter =>
      obtain ⟨iter, t, hrun, hlater, hiter⟩ := yields_createIter alloc u.list u.memory
      cases iter with
      | none =>
          refine ⟨.iter none, { u with memory := t }, ?_, .inl rfl, v, h.stays hlater rfl fun i => rfl⟩
          change Option.map _ ((arakoonValueListCreateIter alloc u.list).run u.memory) = _
          rw [hrun]
          rfl
      | some iter =>
          obtain ⟨id, rfl⟩ := hiter iter rfl
          refine ⟨.iter (some u.iters.length), _, ?_, .inr rfl, v, h.created hlater id⟩
          change Option.map _ ((arakoonValueListCreateIter alloc u.list).run u.memory) = _
          rw [hrun]
          rfl
  | next i =>
      have hiter := List.getElem?_eq_getElem hvalid
      obtain ⟨w, hw, hwalks⟩ := h.walks i _ hiter
      obtain ⟨out, t, hrun, rfl, -, hdue, hwalks'⟩ := hwalks.next h.stored h.contents
      refine ⟨.value out.2, { u with iters := u.iters.set i out.1 }, ?_, ⟨w, out.2, hw, rfl, hdue⟩, v, ?_⟩
      · change (nextOf i) u = _
        rw [nextOf, hiter]
        dsimp only
        rw [hrun]
        rfl
      · refine h.moved hvalid hwalks' rfl ?_ fun j hj => if_neg (Ne.symm hj)
        have hsame : walk i ((.next i, .value out.2) :: history) =
            (walk i history).map (Walk.see · (deque history) out.2) := if_pos rfl
        rw [hsame, hw]
        rfl
  | reset i =>
      have hiter := List.getElem?_eq_getElem hvalid
      refine ⟨.code ArakoonReturnCode.success.rc, { u with iters := u.iters.set i ⟨u.iters[i].id, u.list.first⟩ }, ?_,
        rfl, v, ?_⟩
      · change (resetOf i) u = _
        rw [resetOf, hiter]
        rfl
      · exact h.moved hvalid (.start h.stored h.contents _) rfl (if_pos rfl) fun j hj => if_neg (Ne.symm hj)

end ListUse.Holds

theorem Walks.consecutive {v : ValueList} {w : Walk} {iter : ListIter} (h : Walks v.items w iter) {held : List Bytes}
    (hheld : v.contents = held.map some) : w.Consecutive held := by
  obtain ⟨front, seen, rest, hitems, hbefore, hshown, hbegun, hended, hmore, -⟩ := h
  refine ⟨fun hno => ?_, ?_, hended, fun hover => ?_⟩
  · rw [hshown, (hbegun hno).2]
    rfl
  · rw [List.map_drop, ← hheld, ValueList.contents, hitems, hbefore, hshown, ← List.map_drop, List.drop_left,
      List.map_append, List.map_map]
    exact List.prefix_append _ _
  · have hlength := congrArg List.length hheld
    rw [ValueList.contents, hitems, List.length_map, List.length_map, List.length_append, List.length_append] at hlength
    have hrest := List.length_pos_iff.mpr (hmore hover)
    rw [Walk.due, hover, if_neg Bool.false_ne_true, hbefore, hshown, List.length_map, List.getElem?_eq_getElem (by omega)]
    rfl

section Runs

variable {alloc : Nat → Bool}

theorem listStep_ok {call : ListCall} {u u' : ListUse} {answer : ListAnswer}
    (h : listStep alloc call u = .ok (answer, u')) : (call.program alloc).run u = some (answer, u') := by
  unfold listStep at h
  split at h
  · cases h
  · rename_i out hrun
    rw [hrun, Except.ok.inj h]

/-- A call with an iterator that does not exist does not return. -/
theorem ListCall.valid_of_run {call : ListCall} {u u' : ListUse} {answer : ListAnswer}
    (h : (call.program alloc).run u = some (answer, u')) : call.Valid u := by
  cases call with
  | next i =>
      by_contra hnone
      have hiter : u.iters[i]? = none := List.getElem?_eq_none_iff.mpr (Nat.not_lt.mp hnone)
      change nextOf i u = _ at h
      rw [nextOf, hiter] at h
      cases h
  | reset i =>
      by_contra hnone
      have hiter : u.iters[i]? = none := List.getElem?_eq_none_iff.mpr (Nat.not_lt.mp hnone)
      change resetOf i u = _ at h
      rw [resetOf, hiter] at h
      cases h
  | _ => trivial

/-- The header of a list says how many items there are and which is the last. -/
structure ArakoonValueList.Describes (l : ArakoonValueList) (items : List ValueListItem) : Prop where
  size : l.size = sizeT items.length
  counted : items.length < 2 ^ 64 → l.size = items.length
  last : l.last = items.getLast?.map ValueListItem.id
  first_null : l.first = none ↔ items = []
  last_null : l.last = none ↔ items = []

theorem ValueList.Stored.describes {v : ValueList} {l : ArakoonValueList} {t : Linked Data} (h : v.Stored l t) :
    l.Describes v.items where
  size := h.size
  counted := fun hlt => h.size.trans (Nat.mod_eq_of_lt hlt)
  last := h.last
  first_null := by
    rw [h.chain.start]
    simp
  last_null := by
    rw [h.last]
    simp

/-- However a new list is used: its header and its items are in order, its items hold the values that were inserted with
success as in a double-ended queue, every iterator has shown consecutive ones, and the next call keeps to that: an
iterator shows the item behind those that it has shown, and a null pointer only where nothing is left to show. -/
theorem value_list_runs {t₀ t : Linked Data} {l : ArakoonValueList}
    (hnew : (arakoonValueListNew alloc).run t₀ = some (some l, t)) {history : List (ListCall × ListAnswer)} {u : ListUse}
    (hrun : Run (listStep alloc) (fun _ _ => True) ⟨l, t, []⟩ history u) :
    (∃ v : ValueList, v.Stored u.list u.memory ∧ u.list.Describes v.items ∧ v.contents = (deque history).map some) ∧
    (∀ i w, walk i history = some w → w.Consecutive (deque history)) ∧
    ∀ call : ListCall, call.Valid u →
      Yields (call.program alloc) u fun answer u' => call.Answered history u answer u' := by
  have hheld : ∃ v, u.Holds history v := by
    refine hrun.traced (I := fun history u => ∃ v, u.Holds history v) ?_ fun history call u answer u' hheld _ hstep => ?_
    · obtain ⟨id, t₁, -, hpure⟩ := bind_run_eq_some.mp hnew
      cases id with
      | none => cases hpure
      | some id =>
          obtain ⟨hl, rfl⟩ := Prod.mk.inj (Option.some.inj hpure)
          obtain rfl := Option.some.inj hl
          exact ⟨⟨id, []⟩, ValueList.stored_nil id t₁, rfl, fun i iter hiter => (by cases hiter), fun i _ => rfl⟩
    · obtain ⟨v, hheld⟩ := hheld
      have hreturned := listStep_ok hstep
      exact ((hheld.step (ListCall.valid_of_run hreturned)).ensures answer u' hreturned).2
  obtain ⟨v, hheld⟩ := hheld
  refine ⟨⟨v, hheld.stored, hheld.stored.describes, hheld.contents⟩, fun i w hw => ?_, fun call hvalid => ?_⟩
  · cases hiter : u.iters[i]? with
    | none =>
        rw [hheld.others i hiter] at hw
        cases hw
    | some iter =>
        obtain ⟨w', hw', hwalks⟩ := hheld.walks i iter hiter
        obtain rfl := Option.some.inj (hw.symm.trans hw')
        exact hwalks.consecutive hheld.contents
  · exact (hheld.step hvalid).mono fun answer u' h => h.1

/-- An iterator over one value, before which another is inserted. -/
theorem value_list_runs_one :
    ∃ l t a b c d u, (arakoonValueListNew fun _ => true).run ⟨⟨.empty, none, .null⟩, fun _ => none⟩ = some (some l, t) ∧
      let history : List (ListCall × ListAnswer) :=
        [(.next 0, d), (.prepend (.block 91 [98]), c), (.createIter, b), (.add (.block 90 [97]), a)]
      Run (listStep fun _ => true) (fun _ _ => True) ⟨l, t, []⟩ history u ∧ deque history = [[98], [97]] ∧
        ∃ w, walk 0 history = some w ∧ w.shown = [.block 2 [97]] ∧ w.Consecutive (deque history) := by
  refine ⟨_, _, _, _, _, _, _, rfl, .call (.call (.call (.call .nil trivial rfl) trivial rfl) trivial rfl) trivial rfl,
    rfl, _, rfl, rfl, ?_⟩
  exact (@value_list_runs (fun _ => true) _ _ _ rfl _ _
    (.call (.call (.call (.call .nil trivial rfl) trivial rfl) trivial rfl) trivial rfl)).2.1 0 _ rfl

end Runs

end Crakoon
