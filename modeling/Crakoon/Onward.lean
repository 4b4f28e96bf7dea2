import Crakoon.Connect
import Crakoon.Operation

/-!
# What no request undoes

Whatever memory is granted and whatever happens on the connection, a request and the decoding of its reply give back
no block that was handed out before, and leave the connection closed or further on. `Session.Onward` says so, and the
programs below are shown to move along it, one after the other in the order in which they are built. Their results own
blocks of their own only (`Ptr.Since`). The last error changes in `HANDLE_ERROR` alone.
-/

namespace Crakoon

open Programs

/-- If the pointer is a block, it was handed out after the first `b` ones. -/
def Ptr.Since (b : Nat) (p : Ptr) : Prop := ∀ id, p = .block id → b ≤ id

def Data.Since (b : Nat) (d : Data) : Prop := d.ptr.Since b

/-- Of the blocks handed out before `b`, none was given back from `h` to `h'`. -/
structure Heap.Onward (b : Nat) (h h' : Heap) : Prop where
  next : h.next ≤ h'.next
  spared : ∃ events, h'.log = h.log ++ events ∧ ∀ id < b, releasedIn events (.block id) = 0

/-- The connection has been used further. -/
structure Conn.Onward (c c' : Conn) : Prop where
  peer : c'.peer = c.peer
  sent : c.sent <+: c'.sent

/-- No block handed out before `b` was given back, and the connection is closed or further on. -/
structure Session.Further (b : Nat) (s s' : Session) : Prop where
  heap : s.heap.Onward b s'.heap
  conn : ∀ c', s'.conn = some c' → ∃ c, s.conn = some c ∧ c.Onward c'

/-- The last error has not changed either. -/
structure Session.Onward (b : Nat) (s s' : Session) : Prop extends Session.Further b s s' where
  lastError : s'.lastError = s.lastError

/-- The first `b` blocks have been handed out. -/
def Session.Past (b : Nat) (s : Session) : Prop := b ≤ s.heap.next

theorem releasedIn_append (log events : List HeapEvent) (p : Ptr) :
    releasedIn (log ++ events) p = releasedIn log p + releasedIn events p := by
  simp [releasedIn]

theorem Ptr.since_null (b : Nat) : Ptr.Since b .null := fun _ h => by cases h

theorem Ptr.since_zeroLength (b : Nat) : Ptr.Since b .zeroLength := fun _ h => by cases h

theorem Ptr.since_block {b id : Nat} (h : b ≤ id) : Ptr.Since b (.block id) := by
  intro id' heq
  obtain rfl := Ptr.block.inj heq
  exact h

theorem Data.since_null (b : Nat) : Data.Since b .null := Ptr.since_null b

theorem Data.since_block {b id : Nat} (h : b ≤ id) (bytes : Bytes) : (Data.block id bytes).Since b :=
  Ptr.since_block h

theorem Heap.Onward.refl (b : Nat) (h : Heap) : h.Onward b h :=
  ⟨Nat.le_refl _, [], (List.append_nil _).symm, fun _ _ => rfl⟩

theorem Heap.Onward.trans {b : Nat} {h h₁ h₂ : Heap} (hfirst : h.Onward b h₁) (hsecond : h₁.Onward b h₂) :
    h.Onward b h₂ := by
  obtain ⟨events, hlog, hspared⟩ := hfirst.spared
  obtain ⟨events', hlog', hspared'⟩ := hsecond.spared
  refine ⟨Nat.le_trans hfirst.next hsecond.next, events ++ events', ?_, fun id hid => ?_⟩
  · rw [hlog', hlog, List.append_assoc]
  · rw [releasedIn_append, hspared id hid, hspared' id hid]

theorem Conn.Onward.refl (c : Conn) : c.Onward c := ⟨rfl, List.prefix_rfl⟩

theorem Conn.Onward.trans {c c₁ c₂ : Conn} (h₁ : c.Onward c₁) (h₂ : c₁.Onward c₂) : c.Onward c₂ :=
  ⟨h₂.peer.trans h₁.peer, h₁.sent.trans h₂.sent⟩

instance Session.further_preorder (b : Nat) : IsPreorder Session (Session.Further b) where
  refl := fun s => ⟨.refl b _, fun c hc => ⟨c, hc, .refl c⟩⟩
  trans := by
    intro s s₁ s₂ h₁ h₂
    refine ⟨h₁.heap.trans h₂.heap, fun c₂ hc₂ => ?_⟩
    obtain ⟨c₁, hc₁, honward₂⟩ := h₂.conn c₂ hc₂
    obtain ⟨c, hc, honward₁⟩ := h₁.conn c₁ hc₁
    exact ⟨c, hc, honward₁.trans honward₂⟩

instance Session.onward_preorder (b : Nat) : IsPreorder Session (Session.Onward b) where
  refl := fun s => ⟨refl_of (Session.Further b) s, rfl⟩
  trans := fun _ _ _ h₁ h₂ =>
    ⟨trans_of (Session.Further b) h₁.toFurther h₂.toFurther, h₂.lastError.trans h₁.lastError⟩

/-- A change of the memory alone. -/
theorem Session.onward_heap {b : Nat} {s : Session} {h : Heap} (hheap : s.heap.Onward b h) :
    s.Onward b { s with heap := h } := ⟨⟨hheap, fun c hc => ⟨c, hc, .refl c⟩⟩, rfl⟩

theorem Heap.onward_free {b : Nat} {p : Ptr} (hp : p.Since b) (h : Heap) : h.Onward b (h.free p) := by
  refine ⟨Nat.le_refl _, [.free p], rfl, fun id hid => ?_⟩
  have hother : p ≠ .block id := fun heq => absurd (hp id heq) (by omega)
  simp [releasedIn, HeapEvent.releases, hother]

section Memory

variable (alloc : Nat → Bool) {b : Nat}

theorem Heap.onward_malloc (h : Heap) : h.Onward b (h.malloc alloc).2 := by
  cases halloc : alloc h.calls with
  | false => exact ⟨by simp [Heap.malloc, halloc], [], by simp [Heap.malloc, halloc], fun _ _ => rfl⟩
  | true =>
      refine ⟨by simp [Heap.malloc, halloc], [.malloc h.next], by simp [Heap.malloc, halloc], fun id _ => ?_⟩
      simp [releasedIn, HeapEvent.releases]

theorem Heap.onward_realloc {p : Ptr} (hp : p.Since b) (h : Heap) : h.Onward b (h.realloc alloc p).2 := by
  cases halloc : alloc h.calls with
  | false => exact ⟨by simp [Heap.realloc, halloc], [], by simp [Heap.realloc, halloc], fun _ _ => rfl⟩
  | true =>
      refine ⟨by simp [Heap.realloc, halloc], [.realloc p h.next], by simp [Heap.realloc, halloc], fun id hid => ?_⟩
      have hother : p ≠ .block id := fun heq => absurd (hp id heq) (by omega)
      simp [releasedIn, HeapEvent.releases, hother]

/-- A block that is handed out is the next one. -/
theorem Heap.malloc_id {h : Heap} {id : Nat} (hid : (h.malloc alloc).1 = some id) : id = h.next := by
  unfold Heap.malloc at hid
  split_ifs at hid
  exact (Option.some.inj hid).symm

theorem Heap.realloc_id {h : Heap} {p : Ptr} {id : Nat} (hid : (h.realloc alloc p).1 = some id) : id = h.next := by
  unfold Heap.realloc at hid
  split_ifs at hid
  exact (Option.some.inj hid).symm

end Memory

/-- The program moves a session onward, and its value satisfies `P`. -/
abbrev Onwards {α : Type} (b : Nat) (m : SessionM α) (P : α → Prop) : Prop :=
  Along (Session.Past b) (Session.Onward b) m P

/-- The program moves a session further, and its value satisfies `P`. -/
abbrev Furthers {α : Type} (b : Nat) (m : SessionM α) (P : α → Prop) : Prop :=
  Along (Session.Past b) (Session.Further b) m P

theorem Onwards.furthers {α : Type} {b : Nat} {m : SessionM α} {P : α → Prop} (h : Onwards b m P) : Furthers b m P :=
  fun s hs => (h s hs).mono fun _ _ ⟨hpast, honward, hP⟩ => ⟨hpast, honward.toFurther, hP⟩

section Programs

variable (alloc : Nat → Bool) (b : Nat)

theorem onwards_heap {s : Session} {h : Heap} (hs : s.Past b) (hheap : s.heap.Onward b h) :
    Session.Past b { s with heap := h } ∧ s.Onward b { s with heap := h } :=
  ⟨Nat.le_trans hs hheap.next, Session.onward_heap hheap⟩

theorem onwards_memNew : Onwards b (memNew alloc) fun id => ∀ i, id = some i → b ≤ i := by
  intro s hs id s' hrun
  obtain ⟨rfl, rfl⟩ := Prod.mk.inj (Option.some.inj hrun)
  obtain ⟨hpast, honward⟩ := onwards_heap b hs (Heap.onward_malloc alloc s.heap)
  exact ⟨hpast, honward, fun i hi => Heap.malloc_id alloc hi ▸ hs⟩

theorem onwards_memRealloc {p : Ptr} (hp : p.Since b) :
    Onwards b (memRealloc alloc p) fun id => ∀ i, id = some i → b ≤ i := by
  intro s hs id s' hrun
  obtain ⟨rfl, rfl⟩ := Prod.mk.inj (Option.some.inj hrun)
  obtain ⟨hpast, honward⟩ := onwards_heap b hs (Heap.onward_realloc alloc hp s.heap)
  exact ⟨hpast, honward, fun i hi => Heap.realloc_id alloc hi ▸ hs⟩

theorem onwards_memFree {p : Ptr} (hp : p.Since b) : Onwards b (memFree p) fun _ => True := by
  intro s hs _ s' hrun
  obtain ⟨-, rfl⟩ := Prod.mk.inj (Option.some.inj hrun)
  obtain ⟨hpast, honward⟩ := onwards_heap b hs (Heap.onward_free hp s.heap)
  exact ⟨hpast, honward, trivial⟩

theorem onwards_memMaybeFree {d : Data} (hd : d.Since b) : Onwards b (memMaybeFree d) fun _ => True :=
  .ite (fun _ => onwards_memFree b hd) fun _ => .pure trivial

theorem onwards_utilsMakeString {d : Data} (hd : d.Since b) : Onwards b (utilsMakeString alloc d) (Data.Since b) := by
  refine (onwards_memRealloc alloc b hd).bind fun id hid => ?_
  cases id with
  | none => exact (onwards_memFree b hd).bind fun _ _ => .pure (Ptr.since_null b)
  | some id => exact .pure (Data.since_block (hid id rfl) _)

/-! ### Decoding -/

theorem onwards_clusterNodeDisconnect : Onwards b clusterNodeDisconnect fun _ => True := by
  intro s hs _ s' hrun
  obtain ⟨-, rfl⟩ := Prod.mk.inj (Option.some.inj hrun)
  have hclosed : ∀ c', none = some c' → ∃ c, s.conn = some c ∧ c.Onward c' := fun c' hc' => by cases hc'
  exact ⟨hs, ⟨⟨.refl b _, hclosed⟩, rfl⟩, trivial⟩

theorem onward_networkingPollWrite (bs : Bytes) (c : Conn) : c.Onward (networkingPollWrite bs c).2 := by
  unfold networkingPollWrite
  split
  · exact ⟨rfl, List.prefix_append _ _⟩
  · exact ⟨rfl, List.prefix_append _ _⟩

theorem onward_networkingPollRead (n : Nat) (c : Conn) : c.Onward (networkingPollRead n c).2 := by
  unfold networkingPollRead
  split
  · exact ⟨rfl, List.prefix_rfl⟩
  · split_ifs
    · exact ⟨rfl, List.prefix_rfl⟩
    · exact ⟨rfl, List.prefix_rfl⟩

/-- A call on the connection is a step onward. -/
theorem onward_conn {s : Session} {c c' : Conn} (hc : s.conn = some c) (h : c.Onward c') :
    s.Onward b { s with conn := some c' } := by
  refine ⟨⟨.refl b _, fun found hfound => ?_⟩, rfl⟩
  obtain rfl := Option.some.inj hfound
  exact ⟨c, hc, h⟩

theorem onwards_clusterNodeWriteBytes (bs : Bytes) : Onwards b (clusterNodeWriteBytes bs) fun _ => True := by
  intro s hs rc s' hrun
  simp only [clusterNodeWriteBytes, StateT.run] at hrun
  cases hc : s.conn with
  | none =>
      rw [hc] at hrun
      obtain ⟨-, rfl⟩ := Prod.mk.inj (Option.some.inj hrun)
      exact ⟨hs, refl_of (Session.Onward b) _, trivial⟩
  | some c =>
      rw [hc] at hrun
      obtain ⟨-, rfl⟩ := Prod.mk.inj (Option.some.inj hrun)
      exact ⟨hs, onward_conn b hc (onward_networkingPollWrite bs c), trivial⟩

theorem onwards_writeBytes (bs : Bytes) : Onwards b (writeBytes bs) fun _ => True := by
  refine (onwards_clusterNodeWriteBytes b bs).bind fun rc _ => ?_
  by_cases hrc : rc = 0
  · rw [if_neg (not_ne_iff.mpr hrc)]
    exact .pure trivial
  · rw [if_pos hrc]
    exact (onwards_clusterNodeDisconnect b).bind fun _ _ => .pure trivial

theorem onwards_clusterNodeReadBytes (n : Nat) : Onwards b (clusterNodeReadBytes n) fun _ => True := by
  intro s hs out s' hrun
  simp only [clusterNodeReadBytes, StateT.run] at hrun
  cases hc : s.conn with
  | none =>
      rw [hc] at hrun
      obtain ⟨-, rfl⟩ := Prod.mk.inj (Option.some.inj hrun)
      exact ⟨hs, refl_of (Session.Onward b) _, trivial⟩
  | some c =>
      rw [hc] at hrun
      obtain ⟨-, rfl⟩ := Prod.mk.inj (Option.some.inj hrun)
      exact ⟨hs, onward_conn b hc (onward_networkingPollRead n c), trivial⟩

theorem onwards_readBytes (n : Nat) : Onwards b (readBytes n) fun _ => True := by
  refine (onwards_clusterNodeReadBytes b n).bind fun out _ => ?_
  by_cases hrc : out.1 = 0
  · rw [if_neg (not_ne_iff.mpr hrc)]
    exact .pure trivial
  · rw [if_pos hrc]
    exact (onwards_clusterNodeDisconnect b).bind fun _ _ => .pure trivial

theorem onwards_readUInt32 (r : Nat) : Onwards b (readUInt32 r) fun _ => True :=
  (onwards_readBytes b 4).bind fun _ _ => .ite (fun _ => .pure trivial) fun _ => .pure trivial

theorem onwards_readInt32 (r : Int) : Onwards b (readInt32 r) fun _ => True :=
  (onwards_readBytes b 4).bind fun _ _ => .ite (fun _ => .pure trivial) fun _ => .pure trivial

theorem onwards_readRc : Onwards b readRc fun _ => True :=
  (onwards_readUInt32 b 0).bind fun _ _ => .ite (fun _ => .pure trivial) fun _ => .pure trivial

theorem onwards_readBool : Onwards b readBool fun _ => True :=
  (onwards_readBytes b 1).bind fun _ _ => .ite (fun _ => .pure trivial) fun _ => .pure trivial

theorem onwards_readString (a : Data) (rc : ArakoonRc) :
    Onwards b (readString alloc a rc) fun out => a.Since b → out.1.Since b := by
  refine (onwards_readUInt32 b 0).bind fun l _ => .ite (fun _ => .pure id) fun _ => .ite (fun _ => ?_) fun _ => ?_
  · exact .pure fun _ => Ptr.since_zeroLength b
  · refine (onwards_memNew alloc b).bind fun block hblock => ?_
    cases block with
    | none => exact .pure id
    | some block =>
        have hsince := hblock block rfl
        refine (onwards_readBytes b l.1).bind fun out _ => .ite (fun _ => ?_) fun _ => ?_
        · exact .pure fun _ => Data.since_block hsince _
        · exact (onwards_memFree b (Ptr.since_block hsince)).bind fun _ _ => .pure fun _ => Ptr.since_null b

/-- A string that is read into a variable that held none. -/
theorem onwards_readNewString (rc : ArakoonRc) : Onwards b (readString alloc .null rc) fun out => out.1.Since b :=
  (onwards_readString alloc b .null rc).mono fun _ h => h (Data.since_null b)

theorem onwards_readStringOption (a : Data) (rc : ArakoonRc) :
    Onwards b (readStringOption alloc a rc) fun out => a.Since b → out.1.Since b := by
  refine (onwards_readBytes b 1).bind fun out _ => .ite (fun _ => ?_) fun _ => .ite (fun _ => ?_) fun _ => ?_
  · exact .pure fun _ => Ptr.since_null b
  · exact .pure fun _ => Ptr.since_null b
  · exact onwards_readString alloc b a rc

/-- Every block of the list was handed out after the first `b` ones. -/
structure ValueList.Since (b : Nat) (list : ValueList) : Prop where
  block : b ≤ list.id
  items : ∀ item ∈ list.items, b ≤ item.id ∧ item.value.Since b

structure KeyValueList.Since (b : Nat) (list : KeyValueList) : Prop where
  block : b ≤ list.id
  items : ∀ item ∈ list.items, b ≤ item.id ∧ item.key.Since b ∧ item.value.Since b

theorem onwards_copyValue (value : Data) :
    Onwards b (copyValue alloc value) fun copy => ∀ d, copy = some d → d.Since b := by
  refine .ite (fun _ => .pure fun d hd => ?_) fun _ => (onwards_memNew alloc b).bind fun id hid => ?_
  · obtain rfl := Option.some.inj hd
    exact Ptr.since_zeroLength b
  · cases id with
    | none => exact .pure fun d hd => by cases hd
    | some id =>
        refine .pure fun d hd => ?_
        obtain rfl := Option.some.inj hd
        exact Data.since_block (hid id rfl) _

theorem onwards_valueListNew : Onwards b (valueListNew alloc) fun out => ∀ list, out = some list → list.Since b := by
  refine (onwards_memNew alloc b).bind fun id hid => ?_
  cases id with
  | none => exact .pure fun list hlist => by cases hlist
  | some id =>
      refine .pure fun list hlist => ?_
      obtain rfl := Option.some.inj hlist
      exact ⟨hid id rfl, fun item hitem => by cases hitem⟩

theorem onwards_keyValueListNew :
    Onwards b (keyValueListNew alloc) fun out => ∀ list, out = some list → list.Since b := by
  refine (onwards_memNew alloc b).bind fun id hid => ?_
  cases id with
  | none => exact .pure fun list hlist => by cases hlist
  | some id =>
      refine .pure fun list hlist => ?_
      obtain rfl := Option.some.inj hlist
      exact ⟨hid id rfl, fun item hitem => by cases hitem⟩

theorem onwards_valueListPrepend {list : ValueList} (hlist : list.Since b) (value : Data) :
    Onwards b (valueListPrepend alloc list value) fun out => out.1.Since b := by
  refine (onwards_memNew alloc b).bind fun item hitem => ?_
  cases item with
  | none => exact .pure hlist
  | some item =>
      refine (onwards_copyValue alloc b value).bind fun copy hcopy => ?_
      cases copy with
      | none => exact (onwards_memFree b (Ptr.since_block (hitem item rfl))).bind fun _ _ => .pure hlist
      | some copy =>
          refine .pure ⟨hlist.block, fun found hfound => ?_⟩
          rcases List.mem_cons.mp hfound with rfl | hold
          · exact ⟨hitem item rfl, hcopy copy rfl⟩
          · exact hlist.items found hold

theorem onwards_keyValueListPrepend {list : KeyValueList} (hlist : list.Since b) (key value : Data) :
    Onwards b (keyValueListPrepend alloc list key value) fun out => out.1.Since b := by
  refine (onwards_memNew alloc b).bind fun item hitem => ?_
  cases item with
  | none => exact .pure hlist
  | some item =>
      have hfree := onwards_memFree b (Ptr.since_block (hitem item rfl))
      refine (onwards_copyValue alloc b key).bind fun keyCopy hkey => ?_
      cases keyCopy with
      | none => exact hfree.bind fun _ _ => .pure hlist
      | some keyCopy =>
          refine (onwards_copyValue alloc b value).bind fun valueCopy hvalue => ?_
          cases valueCopy with
          | none => exact (onwards_memFree b (hkey keyCopy rfl)).bind fun _ _ => hfree.bind fun _ _ => .pure hlist
          | some valueCopy =>
              refine .pure ⟨hlist.block, fun found hfound => ?_⟩
              rcases List.mem_cons.mp hfound with rfl | hold
              · exact ⟨hitem item rfl, hkey keyCopy rfl, hvalue valueCopy rfl⟩
              · exact hlist.items found hold

theorem onwards_valueListFree {list : ValueList} (hlist : list.Since b) :
    Onwards b (valueListFree list) fun _ => True := by
  have hitems : ∀ items : List ValueListItem, (∀ item ∈ items, b ≤ item.id ∧ item.value.Since b) →
      Onwards b (valueListItemsFree items) fun _ => True := by
    intro items
    induction items with
    | nil => exact fun _ => .pure trivial
    | cons item items ih =>
        intro h
        obtain ⟨hid, hvalue⟩ := h item List.mem_cons_self
        refine (onwards_memMaybeFree b hvalue).bind fun _ _ => ?_
        refine (onwards_memFree b (Ptr.since_block hid)).bind fun _ _ => ?_
        exact ih fun found hfound => h found (List.mem_cons_of_mem _ hfound)
  exact (hitems list.items hlist.items).bind fun _ _ => onwards_memFree b (Ptr.since_block hlist.block)

theorem onwards_keyValueListFree {list : KeyValueList} (hlist : list.Since b) :
    Onwards b (keyValueListFree list) fun _ => True := by
  have hitems : ∀ items : List KeyValueListItem,
      (∀ item ∈ items, b ≤ item.id ∧ item.key.Since b ∧ item.value.Since b) →
      Onwards b (keyValueListItemsFree items) fun _ => True := by
    intro items
    induction items with
    | nil => exact fun _ => .pure trivial
    | cons item items ih =>
        intro h
        obtain ⟨hid, hkey, hvalue⟩ := h item List.mem_cons_self
        refine (onwards_memMaybeFree b hkey).bind fun _ _ => (onwards_memMaybeFree b hvalue).bind fun _ _ => ?_
        refine (onwards_memFree b (Ptr.since_block hid)).bind fun _ _ => ?_
        exact ih fun found hfound => h found (List.mem_cons_of_mem _ hfound)
  exact (hitems list.items hlist.items).bind fun _ _ => onwards_memFree b (Ptr.since_block hlist.block)

theorem onwards_readStrings (cnt : Nat) {list : ValueList} (hlist : list.Since b) (rc : ArakoonRc) :
    Onwards b (readStrings alloc cnt list rc) fun out => out.1.Since b := by
  induction cnt generalizing list rc with
  | zero => exact .pure hlist
  | succ cnt ih =>
      refine (onwards_readNewString alloc b rc).bind fun s hs => .ite (fun _ => .pure hlist) fun _ => ?_
      refine (onwards_valueListPrepend alloc b hlist s.1).bind fun out hout => ?_
      refine (onwards_memMaybeFree b hs).bind fun _ _ => .ite (fun _ => .pure hout) fun _ => ?_
      exact ih hout out.2

theorem onwards_readStringList {list : ValueList} (hlist : list.Since b) :
    Onwards b (readStringList alloc list) fun out => out.1.Since b :=
  (onwards_readUInt32 b 0).bind fun _ _ =>
    .ite (fun _ => onwards_readStrings alloc b _ hlist _) fun _ => .pure hlist

theorem onwards_readStringPairs (cnt : Nat) {list : KeyValueList} (hlist : list.Since b) (rc : ArakoonRc) :
    Onwards b (readStringPairs alloc cnt list rc) fun out => out.1.Since b := by
  induction cnt generalizing list rc with
  | zero => exact .pure hlist
  | succ cnt ih =>
      refine (onwards_readNewString alloc b rc).bind fun s hs => .ite (fun _ => .pure hlist) fun _ => ?_
      refine (onwards_readNewString alloc b s.2).bind fun t ht => .ite (fun _ => ?_) fun _ => ?_
      · exact (onwards_memMaybeFree b hs).bind fun _ _ => .pure hlist
      · refine (onwards_keyValueListPrepend alloc b hlist s.1 t.1).bind fun out hout => ?_
        refine (onwards_memMaybeFree b hs).bind fun _ _ => (onwards_memMaybeFree b ht).bind fun _ _ => ?_
        exact .ite (fun _ => .pure hout) fun _ => ih hout out.2

theorem onwards_readStringStringList {list : KeyValueList} (hlist : list.Since b) :
    Onwards b (readStringStringList alloc list) fun out => out.1.Since b :=
  (onwards_readUInt32 b 0).bind fun _ _ =>
    .ite (fun _ => onwards_readStringPairs alloc b _ hlist _) fun _ => .pure hlist

/-! ### Operations -/

theorem onwards_assertAllWritten (block : Option Bytes) : Onwards b (assertAllWritten block) fun _ => True := by
  intro s hs bs s' hrun
  cases block with
  | none => cases hrun
  | some bytes =>
      obtain ⟨-, rfl⟩ := Prod.mk.inj (Option.some.inj hrun)
      exact ⟨hs, refl_of (Session.Onward b) _, trivial⟩

theorem onwards_sendBlock {write : Bytes → SessionM ArakoonRc} (hwrite : ∀ bs, Onwards b (write bs) fun _ => True)
    (block : Option Bytes) : Onwards b (sendBlock alloc write block) fun _ => True := by
  refine (onwards_memNew alloc b).bind fun command hcommand => ?_
  cases command with
  | none => exact .pure trivial
  | some command =>
      refine (onwards_assertAllWritten b block).bind fun bs _ => (hwrite bs).bind fun rc _ => ?_
      exact (onwards_memFree b (Ptr.since_block (hcommand command rfl))).bind fun _ _ => .pure trivial

theorem onwards_multiGetKeys (keys : List Bytes) : Onwards b (multiGetKeys keys) fun _ => True := by
  induction keys with
  | nil => exact .pure trivial
  | cons value keys ih =>
      refine (onwards_writeBytes b _).bind fun _ _ => .ite (fun _ => .pure trivial) fun _ => ?_
      exact (onwards_writeBytes b value).bind fun _ _ => .ite (fun _ => .pure trivial) fun _ => ih

theorem onwards_sendMultiGet (options : Option ClientCallOptions) (keys : List Bytes) :
    Onwards b (sendMultiGet alloc options keys) fun _ => True := by
  refine (onwards_sendBlock alloc b (onwards_writeBytes b) _).bind fun _ _ => .ite (fun _ => .pure trivial) fun _ => ?_
  refine (onwards_memNew alloc b).bind fun iter hiter => ?_
  cases iter with
  | none => exact .pure trivial
  | some iter =>
      refine (onwards_multiGetKeys b keys).bind fun _ _ => .ite (fun _ => .pure trivial) fun _ => ?_
      exact (onwards_memFree b (Ptr.since_block (hiter iter rfl))).bind fun _ _ => .pure trivial

theorem onwards_send (op : Operation) : Onwards b (Operation.send alloc op) fun _ => True := by
  have hblock : Onwards b (sendBlock alloc (if op.writesUnchecked then clusterNodeWriteBytes else writeBytes) op.block)
      fun _ => True := by
    refine onwards_sendBlock alloc b (fun bs => ?_) _
    cases op.writesUnchecked with
    | true => exact onwards_clusterNodeWriteBytes b bs
    | false => exact onwards_writeBytes b bs
  cases op with
  | multiGet options keys => exact onwards_sendMultiGet alloc b options keys
  | _ => exact hblock

theorem onwards_decodeString (result : Data) : Onwards b (decodeString alloc result) fun _ => True :=
  (onwards_readString alloc b result 0).bind fun _ _ => .ite (fun _ => .pure trivial) fun _ => .pure trivial

theorem onwards_decodeStringOption (result : Data) : Onwards b (decodeStringOption alloc result) fun _ => True :=
  (onwards_readStringOption alloc b result 0).bind fun _ _ => .ite (fun _ => .pure trivial) fun _ => .pure trivial

theorem onwards_decodeUInt32 (result : Nat) : Onwards b (decodeUInt32 result) fun _ => True :=
  (onwards_readUInt32 b result).bind fun _ _ => .ite (fun _ => .pure trivial) fun _ => .pure trivial

theorem onwards_decodeText : Onwards b (decodeText alloc) fun _ => True := by
  refine (onwards_readNewString alloc b 0).bind fun out hout => .ite (fun _ => .pure trivial) fun _ => ?_
  exact (onwards_utilsMakeString alloc b hout).bind fun _ _ => .ite (fun _ => .pure trivial) fun _ => .pure trivial

theorem onwards_decodeList : Onwards b (decodeList alloc) fun _ => True := by
  refine (onwards_valueListNew alloc b).bind fun list hlist => ?_
  cases list with
  | none => exact .pure trivial
  | some list =>
      refine (onwards_readStringList alloc b (hlist list rfl)).bind fun out hout => .ite (fun _ => ?_) fun _ => ?_
      · exact (onwards_valueListFree b hout).bind fun _ _ => .pure trivial
      · exact .pure trivial

theorem onwards_decodePairs : Onwards b (decodePairs alloc) fun _ => True := by
  refine (onwards_keyValueListNew alloc b).bind fun list hlist => ?_
  cases list with
  | none => exact .pure trivial
  | some list =>
      refine (onwards_readStringStringList alloc b (hlist list rfl)).bind fun out hout => .ite (fun _ => ?_) fun _ => ?_
      · exact (onwards_keyValueListFree b hout).bind fun _ _ => .pure trivial
      · exact .pure trivial

theorem onwards_decodeVersion (result : VersionInfo) : Onwards b (decodeVersion alloc result) fun _ => True := by
  refine (onwards_readInt32 b _).bind fun _ _ => .ite (fun _ => .pure trivial) fun _ => ?_
  refine (onwards_readInt32 b _).bind fun _ _ => .ite (fun _ => .pure trivial) fun _ => ?_
  refine (onwards_readInt32 b _).bind fun _ _ => .ite (fun _ => .pure trivial) fun _ => ?_
  refine (onwards_readNewString alloc b _).bind fun out hout =>
    .ite (fun _ => .pure trivial) fun _ => ?_
  exact (onwards_utilsMakeString alloc b hout).bind fun _ _ => .ite (fun _ => .pure trivial) fun _ => .pure trivial

theorem onwards_decode (op : Operation) (result : op.kind.Out) :
    Onwards b (Operation.decode alloc op result) fun _ => True := by
  cases op with
  | hello clientId clusterId => exact onwards_decodeText alloc b
  | expectProgressPossible => exact (onwards_readBool b).bind fun _ _ => .pure trivial
  | «exists» options key => exact (onwards_readBool b).bind fun _ _ => .pure trivial
  | get options key => exact onwards_decodeString alloc b result
  | multiGet options keys => exact onwards_decodeList alloc b
  | range options bounds => exact onwards_decodeList alloc b
  | keyPrefix options beginKey maxElements => exact onwards_decodeList alloc b
  | rangeEntries options bounds => exact onwards_decodePairs alloc b
  | revRangeEntries options bounds => exact onwards_decodePairs alloc b
  | testAndSet key oldValue newValue => exact onwards_decodeStringOption alloc b result
  | deletePrefix start => exact onwards_decodeUInt32 b result
  | version => exact onwards_decodeVersion alloc b result
  | userFunction name arg => exact (onwards_readStringOption alloc b .null 0).bind fun _ _ => .pure trivial
  | _ => exact .pure trivial

theorem furthers_handleError (rc : ArakoonRc) : Furthers b (handleError alloc rc) fun _ => True := by
  refine .ite (fun _ => ?_) fun _ => .pure trivial
  refine (onwards_readNewString alloc b 0).furthers.bind fun out _ => .ite (fun _ => .pure trivial) fun _ => ?_
  intro s hs _ s' hrun
  obtain ⟨-, rfl⟩ := Prod.mk.inj (Option.some.inj hrun)
  exact ⟨hs, ⟨.refl b _, fun c hc => ⟨c, hc, .refl c⟩⟩, trivial⟩

/-- An operation once its master is known. -/
theorem furthers_clientOperation (op : Operation) (result : op.kind.Out) :
    Furthers b (clientOperation alloc (op.early result) (op.failed result) (Operation.send alloc op)
      (Operation.decode alloc op result)) fun _ => True := by
  refine (onwards_send alloc b op).furthers.bind fun _ _ => .ite (fun _ => .pure trivial) fun _ => ?_
  refine (onwards_readRc b).furthers.bind fun rc _ => (furthers_handleError alloc b rc).bind fun _ _ => ?_
  exact .ite (fun _ => .pure trivial) fun _ => (onwards_decode alloc b op result).furthers

/-- `_arakoon_cluster_node_who_master`: nothing is set, and the name it hands out is in a block of its own. -/
theorem onwards_clusterNodeWhoMaster (master : Data) :
    Onwards b (clusterNodeWhoMaster alloc master) fun out => master.Since b → out.2.Since b := by
  refine (onwards_sendBlock alloc b (onwards_writeBytes b) _).bind fun _ _ => .ite (fun _ => .pure id) fun _ => ?_
  refine (onwards_readRc b).bind fun _ _ => .ite (fun _ => .pure id) fun _ => ?_
  refine (onwards_readStringOption alloc b .null 0).bind fun out hout => ?_
  refine .ite (fun _ => .pure fun _ => Data.since_null b) fun _ => ?_
  refine .ite (fun _ => .pure fun _ => Data.since_null b) fun _ => ?_
  refine (onwards_utilsMakeString alloc b (hout (Data.since_null b))).bind fun name hname => ?_
  exact .ite (fun _ => .pure fun _ => hname) fun _ => .pure fun _ => hname

end Programs

end Crakoon
