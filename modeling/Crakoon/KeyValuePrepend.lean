import Crakoon.Decode
import Crakoon.ListRefinement

/-!
# Undoing a prepend

`_arakoon_key_value_list_prepend` asks for memory up to three times, and not for a key or a value of no bytes. What it
has obtained when a request is refused it gives back. `Session.Logs` keeps the requests and the events of such a piece
of code, and with it the call is compared with an atomic one.
-/

namespace Crakoon

open Programs Chains

/-- Between the two states memory was asked for `n` times, with these events. -/
structure Session.Logs (s s' : Session) (n : Nat) (events : List HeapEvent) : Prop where
  calls : s'.heap.calls = s.heap.calls + n
  log : s'.heap.log = s.heap.log ++ events

theorem Session.Logs.refl (s : Session) : s.Logs s 0 [] := ⟨rfl, (List.append_nil _).symm⟩

theorem Session.Logs.trans {s s₁ s₂ : Session} {m n : Nat} {events events' : List HeapEvent}
    (h₁ : s.Logs s₁ m events) (h₂ : s₁.Logs s₂ n events') : s.Logs s₂ (m + n) (events ++ events') :=
  ⟨by rw [h₂.calls, h₁.calls, Nat.add_assoc], by rw [h₂.log, h₁.log, List.append_assoc]⟩

/-- Every block that was obtained was given back, and no other pointer was. -/
def Undone (events : List HeapEvent) : Prop := ∀ p, releasedIn events p = obtainedIn events p

theorem undone_nil : Undone [] := fun _ => rfl

theorem undone_block (id : Nat) : Undone [.malloc id, .free (.block id)] := by
  intro p
  simp [releasedIn, obtainedIn, HeapEvent.releases, HeapEvent.obtains, eq_comm]

/-- What is undone from the inside out. -/
theorem Undone.around {events : List HeapEvent} (h : Undone events) (id : Nat) :
    Undone ([.malloc id] ++ events ++ [.free (.block id)]) := by
  intro p
  have hinner := h p
  simp only [releasedIn, obtainedIn] at hinner
  simp [releasedIn, obtainedIn, HeapEvent.releases, HeapEvent.obtains, hinner, eq_comm, Nat.add_comm]

theorem logs_memFree (p : Ptr) (s : Session) : Yields (memFree p) s fun _ s' => s.Logs s' 0 [.free p] :=
  ⟨(), _, rfl, rfl, rfl⟩

section Requests

variable (alloc : Nat → Bool)

theorem logs_memNew (s : Session) :
    Yields (memNew alloc) s fun p s' =>
      (alloc s.heap.calls = true ∧ ∃ id, p = some id ∧ s.Logs s' 1 [.malloc id]) ∨
      (alloc s.heap.calls = false ∧ p = none ∧ s.Logs s' 1 []) := by
  cases halloc : alloc s.heap.calls with
  | true =>
      refine ⟨_, _, memNew_granted halloc, .inl ⟨rfl, s.heap.next, rfl, ?_, ?_⟩⟩
      · simp [Heap.malloc, halloc]
      · simp [Heap.malloc, halloc]
  | false =>
      refine ⟨_, _, memNew_refused halloc, .inr ⟨rfl, rfl, ?_, ?_⟩⟩
      · simp [Heap.malloc, halloc]
      · simp [Heap.malloc, halloc]

/-- Whether a copy is made without memory, with a block of its own or not at all. -/
inductive Copying (s s' : Session) (d : Data) : Option Data → Prop where
  | empty (hsize : d.size = 0) (hlogs : s.Logs s' 0 []) : Copying s s' d (some .zeroLength)
  | block (id : Nat) (hsize : d.size ≠ 0) (halloc : alloc s.heap.calls = true) (hlogs : s.Logs s' 1 [.malloc id]) :
      Copying s s' d (some (.block id (d.value.getD [])))
  | refused (hsize : d.size ≠ 0) (halloc : alloc s.heap.calls = false) (hlogs : s.Logs s' 1 []) : Copying s s' d none

theorem logs_copyValue (d : Data) (s : Session) :
    Yields (copyValue alloc d) s fun copy s' => Copying alloc s s' d copy := by
  by_cases hsize : d.size = 0
  · rw [copyValue, if_pos hsize]
    exact Yields.pure (.empty hsize (.refl s))
  · rw [copyValue, if_neg hsize]
    refine (logs_memNew alloc s).bind fun p s₁ hnew => ?_
    rcases hnew with ⟨halloc, id, rfl, hlogs⟩ | ⟨halloc, rfl, hlogs⟩
    · exact Yields.pure (.block id hsize halloc hlogs)
    · exact Yields.pure (.refused hsize halloc hlogs)

end Requests

/-- The bytes that a pointer and a size stand for. -/
def Data.bytes (d : Data) : Bytes := d.value.getD []

theorem Data.bytes_of_size_zero {d : Data} (h : d.size = 0) : d.bytes = [] := by
  cases d with
  | null => rfl
  | zeroLength => rfl
  | block id bytes => exact List.eq_nil_of_length_eq_zero h

section Prepend

variable (alloc : Nat → Bool)

/-- The key takes no memory, the item is granted its block and the value is refused one. -/
def EmptyKeyValueRefused (calls : Nat) (key value : Data) : Prop :=
  key.size = 0 ∧ value.size ≠ 0 ∧ alloc calls = true ∧ alloc (calls + 1) = false

/-- The ways in which a prepend comes to its end. -/
inductive Prepending (s s' : Session) (v : KeyValueList) (key value : Data) : KeyValueList × ArakoonRc → Prop where
  | prepended (item : KeyValueListItem) (hkey : item.key.value = some key.bytes)
      (hvalue : item.value.value = some value.bytes) (hothers : ¬EmptyKeyValueRefused alloc s.heap.calls key value) :
      Prepending s s' v key value (⟨v.id, item :: v.items⟩, 0)
  | undone (n : Nat) (events : List HeapEvent) (hlogs : s.Logs s' n events) (hundone : Undone events)
      (hothers : ¬EmptyKeyValueRefused alloc s.heap.calls key value) : Prepending s s' v key value (v, enomem)
  | placeholder (id : Nat) (hlogs : s.Logs s' 2 [.malloc id, .free .zeroLength, .free (.block id)])
      (hrefused : EmptyKeyValueRefused alloc s.heap.calls key value) : Prepending s s' v key value (v, enomem)

theorem logs_keyValueListPrepend (v : KeyValueList) (key value : Data) (s : Session) :
    Yields (keyValueListPrepend alloc v key value) s fun out s' => Prepending alloc s s' v key value out := by
  refine (logs_memNew alloc s).bind fun p s₁ hnew => ?_
  rcases hnew with ⟨halloc, id, rfl, hitem⟩ | ⟨halloc, rfl, hitem⟩
  swap
  · refine Yields.pure (.undone 1 [] hitem undone_nil ?_)
    rintro ⟨-, -, hgranted, -⟩
    rw [halloc] at hgranted
    cases hgranted
  refine (logs_copyValue alloc key s₁).bind fun keyCopy s₂ hkey => ?_
  cases hkey with
  | refused hsize _ hlogs =>
      refine (logs_memFree (.block id) s₂).bind fun _ s₃ hfree => ?_
      exact Yields.pure (.undone _ _ ((hitem.trans hlogs).trans hfree) (undone_block id) fun h => hsize h.1)
  | empty hsize hkeyLogs =>
      refine (logs_copyValue alloc value s₂).bind fun valueCopy s₃ hvalue => ?_
      have hcalls : s₂.heap.calls = s.heap.calls + 1 := (hitem.trans hkeyLogs).calls
      cases hvalue with
      | empty hvalueSize hlogs =>
          refine Yields.pure (.prepended ⟨id, _, _⟩ ?_ ?_ fun h => h.2.1 hvalueSize)
          · rw [Data.bytes_of_size_zero hsize]
            rfl
          · rw [Data.bytes_of_size_zero hvalueSize]
            rfl
      | block idv hvalueSize hgranted hlogs =>
          refine Yields.pure (.prepended ⟨id, _, _⟩ ?_ rfl ?_)
          · rw [Data.bytes_of_size_zero hsize]
            rfl
          · rintro ⟨-, -, -, hrefused⟩
            rw [← hcalls, hgranted] at hrefused
            cases hrefused
      | refused hvalueSize hrefused hlogs =>
          -- the key is the placeholder, and it is given back like a block
          refine (logs_memFree .zeroLength s₃).bind fun _ s₄ hfirst => ?_
          refine (logs_memFree (.block id) s₄).bind fun _ s₅ hsecond => ?_
          have hlogs' := (((hitem.trans hkeyLogs).trans hlogs).trans hfirst).trans hsecond
          exact Yields.pure (.placeholder id hlogs' ⟨hsize, hvalueSize, halloc, hcalls ▸ hrefused⟩)
  | block idk hsize _ hkeyLogs =>
      refine (logs_copyValue alloc value s₂).bind fun valueCopy s₃ hvalue => ?_
      cases hvalue with
      | empty hvalueSize hlogs =>
          refine Yields.pure (.prepended ⟨id, _, _⟩ rfl ?_ fun h => hsize h.1)
          rw [Data.bytes_of_size_zero hvalueSize]
          rfl
      | block idv hvalueSize _ hlogs => exact Yields.pure (.prepended ⟨id, _, _⟩ rfl rfl fun h => hsize h.1)
      | refused hvalueSize _ hlogs =>
          refine (logs_memFree (.block idk) s₃).bind fun _ s₄ hfirst => ?_
          refine (logs_memFree (.block id) s₄).bind fun _ s₅ hsecond => ?_
          have hlogs' := (((hitem.trans hkeyLogs).trans hlogs).trans hfirst).trans hsecond
          exact Yields.pure (.undone _ _ hlogs' ((undone_block idk).around id) fun h => hsize h.1)

/-- What memory holds determines the header. -/
theorem KeyValueList.Stored.header_unique {v : KeyValueList} {l l' : ArakoonKeyValueList}
    {t t' : Linked (Data × Data)} (h : v.Stored l t) (h' : v.Stored l' t') : l = l' := by
  obtain ⟨hid, hsize, hchain, -⟩ := h
  obtain ⟨hid', hsize', hchain', -⟩ := h'
  obtain ⟨id, size, first⟩ := l
  obtain ⟨id', size', first'⟩ := l'
  obtain rfl : id = id' := hid.trans hid'.symm
  obtain rfl : size = size' := hsize.trans hsize'.symm
  obtain rfl : first = first' := hchain.start.trans hchain'.start.symm
  rfl

/-- Either the pair stands in front of the old contents, or nothing has changed but for requests of memory. -/
inductive Prepended (v : KeyValueList) (l : ArakoonKeyValueList) (key value : Data) (t : Linked (Data × Data))
    (out : ArakoonKeyValueList × ArakoonRc) (t' : Linked (Data × Data)) : Prop where
  | success (hrc : out.2 = ArakoonReturnCode.success.rc) (hsize : out.1.size = sizeT (l.size + 1))
      (item : KeyValueListItem) (hkey : item.key.value = some key.bytes) (hvalue : item.value.value = some value.bytes)
      (hstored : KeyValueList.Stored ⟨v.id, item :: v.items⟩ out.1 t')
  | refused (hrc : out.2 = enomem) (hheader : out.1 = l) (hstored : v.Stored l t') (events : List HeapEvent)
      (hlog : t'.session.heap.log = t.session.heap.log ++ events) (hundone : Undone events)

/-- The prepend is atomic unless the key takes no memory and the value is refused its block. -/
theorem key_value_prepend_atomic_iff {v : KeyValueList} {l : ArakoonKeyValueList} {t : Linked (Data × Data)}
    (h : v.Stored l t) (key value : Data) :
    Yields (arakoonKeyValueListPrepend alloc l key value) t (Prepended v l key value t) ↔
      ¬EmptyKeyValueRefused alloc t.session.heap.calls key value := by
  obtain ⟨⟨l', rc⟩, t', hrun, ⟨v', rc'⟩, s', hout, rfl, hrc, hstored⟩ :=
    (refines_keyValueListPrepend alloc h key value).yields (logs_keyValueListPrepend alloc v key value t.session)
  obtain rfl : rc = rc' := hrc
  constructor
  · intro hyields hrefused
    have hatomic := hyields.ensures _ _ hrun
    cases hout with
    | prepended _ _ _ hothers => exact hothers hrefused
    | undone _ _ _ _ hothers => exact hothers hrefused
    | placeholder id hlogs _ =>
        cases hatomic with
        | success hrc => cases hrc
        | refused _ _ _ events hlog hundone =>
            obtain rfl := List.append_cancel_left (hlogs.log.symm.trans hlog)
            have hplaceholder := hundone .zeroLength
            simp [releasedIn, obtainedIn, HeapEvent.releases, HeapEvent.obtains] at hplaceholder
  · intro hothers
    refine ⟨_, _, hrun, ?_⟩
    cases hout with
    | prepended item hkey hvalue _ =>
        refine .success rfl ?_ item hkey hvalue hstored
        rw [hstored.size, h.size, sizeT_succ, List.length_cons]
    | undone _ events hlogs hundone _ =>
        have hheader : l' = l := hstored.header_unique h
        exact .refused rfl hheader (hheader ▸ hstored) events hlogs.log hundone
    | placeholder _ _ hrefused => exact absurd hrefused hothers

/-- An empty list in memory of which nothing has been used. -/
def emptyPairs : Linked (Data × Data) := ⟨⟨.empty, none, .null⟩, fun _ => none⟩

/-- Memory with the list of the pair `("a", "b")` in it: its header, its item and the copies of the key and the
value. -/
def onePair : Linked (Data × Data) where
  session := ⟨(List.range 4).foldl (fun heap _ => (heap.malloc fun _ => true).2) .empty, none, .null⟩
  cells := Cells.put (fun _ => none) 1 ⟨none, .block 2 [0x61], .block 3 [0x62]⟩

theorem onePair_stored : KeyValueList.Stored ⟨0, [⟨1, .block 2 [0x61], .block 3 [0x62]⟩]⟩ ⟨0, 1, some 1⟩ onePair where
  id := rfl
  size := rfl
  chain := Chain.push_front .nil List.not_mem_nil _
  allocated := by
    intro item hitem
    obtain rfl := List.mem_singleton.mp hitem
    decide

/-- The item and the key are given their blocks, the value is not. -/
theorem key_value_prepend_atomic_iff_refused :
    let given : KeyValueList := ⟨0, [⟨1, .block 2 [0x61], .block 3 [0x62]⟩]⟩
    Yields (arakoonKeyValueListPrepend (fun n => n ≠ 6) ⟨0, 1, some 1⟩ (.block 7 [0x6b]) (.block 8 [0x76])) onePair
      (Prepended given ⟨0, 1, some 1⟩ (.block 7 [0x6b]) (.block 8 [0x76]) onePair) :=
  (key_value_prepend_atomic_iff _ onePair_stored _ _).mpr fun h => absurd h.1 (by decide)

/-- The first request is met and the second is not: with an empty key it is the one for the value. -/
theorem key_value_prepend_frees_placeholder :
    ¬Yields (arakoonKeyValueListPrepend (fun n => n = 0) ⟨0, 0, none⟩ .zeroLength (.block 7 [0x76])) emptyPairs
      (Prepended ⟨0, []⟩ ⟨0, 0, none⟩ .zeroLength (.block 7 [0x76]) emptyPairs) := by
  intro hyields
  cases hyields.ensures _ _ rfl with
  | success hrc => cases hrc
  | refused _ _ _ events hlog hundone =>
      obtain rfl : [.malloc 0, .free .zeroLength, .free (.block 0)] = events := hlog
      exact absurd (hundone .zeroLength) (by decide)

end Prepend

end Crakoon
