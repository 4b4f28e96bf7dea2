import Crakoon.ListRefinement
import Crakoon.ReplyRoundTrip

/-!
# List replies arrive complete and in order

A client that goes over the result of a list reply sees every string of the reply, the last one first. No string is
taken for the end of the list, since an item of length zero is reported with a pointer that is not null.
-/

namespace Crakoon

open Programs Reading Chains

section Walk

variable (alloc : Nat → Bool)

/-- The body of a loop that keeps what it is shown. -/
def keepItem {ι : Type} (x : ι) (kept : List ι) : LinkedM ι (ForInStep (List ι)) := pure (.yield (kept ++ [x]))

/-- A client makes an iterator, goes over a list and keeps what it is shown. -/
def visitItems {ι : Type} (create : LinkedM ι (Option ListIter)) (loop : ListIter → LinkedM ι (List ι)) :
    LinkedM ι (Option (List ι)) := do
  match ← create with
  | none => pure none
  | some iter => do
      let kept ← loop iter
      listIterFree iter
      pure (some kept)

def visitValues (list : ArakoonValueList) (rounds : Nat) : LinkedM Data (Option (List Data)) :=
  visitItems (arakoonValueListCreateIter alloc list) fun iter => forArakoonValueIter keepItem rounds iter []

def visitPairs (list : ArakoonKeyValueList) (rounds : Nat) : LinkedM (Data × Data) (Option (List (Data × Data))) :=
  visitItems (arakoonKeyValueListCreateIter alloc list) fun iter => forArakoonKeyValueIter keepItem rounds iter []

/-- A list reply is decoded into a new list. -/
def decodeStringList : LinkedM Data (Option (ArakoonValueList × ArakoonRc)) := do
  match ← arakoonValueListNew alloc with
  | none => pure none
  | some list => do
      let out ← readStringListInto alloc list
      pure (some out)

/-- A reply of pairs is decoded into a new list. -/
def decodeStringStringList : LinkedM (Data × Data) (Option (ArakoonKeyValueList × ArakoonRc)) := do
  match ← arakoonKeyValueListNew alloc with
  | none => pure none
  | some list => do
      let out ← readStringStringListInto alloc list
      pure (some out)

end Walk

theorem Data.ptr_ne_null {d : Data} {bytes : Bytes} (h : d.value = some bytes) : d.ptr ≠ .null := by
  cases d with
  | null => cases h
  | zeroLength => exact fun hnull => by cases hnull
  | block id bytes => exact fun hnull => by cases hnull

theorem Data.size_of_value {d : Data} {bytes : Bytes} (h : d.value = some bytes) : d.size = bytes.length := by
  cases d with
  | null => cases h
  | zeroLength =>
      obtain rfl := Option.some.inj h
      rfl
  | block id bytes' =>
      obtain rfl := Option.some.inj h
      rfl

theorem Data.shown_eq {d : Data} {bytes : Bytes} (h : d.value = some bytes) :
    (d.size, d.value) = (bytes.length, some bytes) := Prod.ext (Data.size_of_value h) h

theorem exists_of_map_eq {β γ δ : Type} {f : β → δ} {g : γ → δ} {xs : List β} {ys : List γ}
    (h : xs.map f = ys.map g) {x : β} (hx : x ∈ xs) : ∃ y, f x = g y := by
  obtain ⟨y, -, hy⟩ := List.mem_map.mp (h ▸ List.mem_map_of_mem hx : f x ∈ ys.map g)
  exact ⟨y, hy.symm⟩

/-- Two lists that agree item by item agree in whatever follows from that. -/
theorem map_eq_of_map_eq {β γ δ ε : Type} {f : β → δ} {g : γ → δ} {p : β → ε} {q : γ → ε}
    (hfg : ∀ x y, f x = g y → p x = q y) {xs : List β} {ys : List γ} (h : xs.map f = ys.map g) :
    xs.map p = ys.map q := by
  induction xs generalizing ys with
  | nil =>
      obtain rfl : ys = [] := List.map_eq_nil_iff.mp h.symm
      rfl
  | cons x xs ih =>
      cases ys with
      | nil => cases h
      | cons y ys =>
          obtain ⟨hhead, htail⟩ := List.cons.inj h
          rw [List.map_cons, List.map_cons, hfg x y hhead, ih htail]

/-- What a loop that keeps what it is shown has kept. -/
theorem forIn_keeps {ι : Type} (xs kept : List ι) :
    (forIn xs kept keepItem : LinkedM ι (List ι)) = pure (kept ++ xs) := by
  induction xs generalizing kept with
  | nil => rw [List.forIn_nil, List.append_nil]
  | cons x xs ih =>
      rw [List.forIn_cons, keepItem, pure_bind]
      dsimp only
      rw [ih, List.append_assoc, List.singleton_append]

section Replies

variable {alloc : Nat → Bool} (halloc : ∀ n, alloc n = true)
include halloc

theorem yields_onSession_memNew {ι : Type} (t : Linked ι) :
    Yields (onSession (memNew alloc)) t fun p t' => p = some t.session.heap.next ∧ t.Later t' ∧
      t.session.heap.next < t'.session.heap.next ∧ t'.session.conn = t.session.conn := by
  obtain ⟨id, s', hrun, hconn, b, rfl, -⟩ := yields_memNew halloc t.session
  obtain ⟨p, t', hrun', rfl, rfl, hlater, hblock⟩ := refines_memNew alloc t _ _ hrun
  obtain ⟨rfl, hnext⟩ := hblock b rfl
  exact ⟨_, t', hrun', rfl, hlater, hnext ▸ Nat.lt_succ_self _, hconn⟩

theorem yields_arakoonValueListNew (t : Linked Data) :
    Yields (arakoonValueListNew alloc) t fun out t' =>
      ∃ id, out = some ⟨id, 0, none, none⟩ ∧ t.Later t' ∧ t'.session.conn = t.session.conn := by
  refine (yields_onSession_memNew halloc t).bind fun _ t₁ hdone => ?_
  obtain ⟨rfl, hlater, -, hconn⟩ := hdone
  exact Yields.pure ⟨_, rfl, hlater, hconn⟩

theorem yields_arakoonKeyValueListNew (t : Linked (Data × Data)) :
    Yields (arakoonKeyValueListNew alloc) t fun out t' =>
      ∃ id, out = some ⟨id, 0, none⟩ ∧ t.Later t' ∧ t'.session.conn = t.session.conn := by
  refine (yields_onSession_memNew halloc t).bind fun _ t₁ hdone => ?_
  obtain ⟨rfl, hlater, -, hconn⟩ := hdone
  exact Yields.pure ⟨_, rfl, hlater, hconn⟩

/-- A client is shown the items of a chain from the first to the last. -/
theorem yields_visitItems {ι : Type} {nothing : ι} {shown : ι → Bool} {t : Linked ι} {first : Option Nat}
    {xs : List (Nat × ι)} (h : Chain t.cells first xs) (hstop : shown nothing = false)
    (hshown : ∀ x ∈ xs, shown x.2 = true) {rounds : Nat} (hrounds : xs.length < rounds) :
    Yields (visitItems (listCreateIter alloc first) fun iter => forListIter nothing shown keepItem rounds iter []) t
      fun out _ => out = some (xs.map Prod.snd) := by
  refine Yields.bind (P := fun iter t₁ => ∃ id, iter = some ⟨id, first⟩ ∧ t.Later t₁) ?_ ?_
  · refine (yields_onSession_memNew halloc t).bind fun p t₁ hdone => ?_
    obtain ⟨rfl, hlater, -⟩ := hdone
    exact Yields.pure ⟨_, rfl, hlater⟩
  · rintro _ t₁ ⟨id, rfl, hlater⟩
    have hkeep : ∀ (x : ι) (kept : List ι) (t : Linked ι), Ensures (keepItem x kept) t fun _ t' => t'.cells = t.cells :=
      fun x kept t => Ensures.pure rfl
    have hloop := forListIter_run (hlater.cells ▸ h) hstop hshown hkeep hrounds id []
    rw [forIn_keeps, List.nil_append] at hloop
    refine Yields.bind (P := fun kept _ => kept = xs.map Prod.snd) ⟨_, t₁, hloop, rfl⟩ ?_
    rintro _ t₂ rfl
    refine (yields_onSession (yields_memFree (.block id) t₂.session)).bind fun _ _ _ => Yields.pure rfl

/-- What a client finds of a list: its size, and that a loop over it shows the strings in this order, each with its
length and with a pointer that is not null. -/
structure ShowsValues (alloc : Nat → Bool) (list : ArakoonValueList) (t : Linked Data) (strings : List Bytes) :
    Prop where
  size : arakoonValueListSize list = strings.length
  visits : ∀ rounds, strings.length < rounds → Yields (visitValues alloc list rounds) t fun out _ =>
    ∃ values, out = some values ∧
      values.map (fun v => (v.size, v.value)) = strings.map (fun s => (s.length, some s)) ∧
      ∀ v ∈ values, v.ptr ≠ .null

/-- What a client finds of a list of pairs. -/
structure ShowsPairs (alloc : Nat → Bool) (list : ArakoonKeyValueList) (t : Linked (Data × Data))
    (pairs : List (Bytes × Bytes)) : Prop where
  size : arakoonKeyValueListSize list = pairs.length
  visits : ∀ rounds, pairs.length < rounds → Yields (visitPairs alloc list rounds) t fun out _ =>
    ∃ items, out = some items ∧
      items.map (fun p => ((p.1.size, p.1.value), (p.2.size, p.2.value))) =
        pairs.map (fun p => ((p.1.length, some p.1), (p.2.length, some p.2))) ∧
      ∀ p ∈ items, p.1.ptr ≠ .null ∧ p.2.ptr ≠ .null

theorem ValueList.Stored.shows {v : ValueList} {l : ArakoonValueList} {t : Linked Data} {strings : List Bytes}
    (h : v.Stored l t) (hcontents : v.contents = strings.map some) (hlength : strings.length < 2 ^ 64) :
    ShowsValues alloc l t strings := by
  have hlengths : v.items.length = strings.length := by simpa [ValueList.contents] using congrArg List.length hcontents
  have hshown : ∀ item ∈ v.items, item.value.ptr ≠ .null := by
    intro item hitem
    obtain ⟨s, hs⟩ := exists_of_map_eq hcontents hitem
    exact Data.ptr_ne_null hs
  refine ⟨by rw [arakoonValueListSize, h.size, hlengths, sizeT_of_lt hlength], fun rounds hrounds => ?_⟩
  refine (yields_visitItems halloc h.chain (by decide) ?_ (by simpa [hlengths] using hrounds)).mono ?_
  · intro x hx
    obtain ⟨item, hitem, rfl⟩ := List.mem_map.mp hx
    exact decide_eq_true (hshown item hitem)
  · rintro _ _ rfl
    refine ⟨_, rfl, ?_, fun d hd => ?_⟩
    · rw [List.map_map, List.map_map]
      exact map_eq_of_map_eq (fun _ _ hvalue => Data.shown_eq hvalue) hcontents
    · obtain ⟨x, hx, rfl⟩ := List.mem_map.mp hd
      obtain ⟨item, hitem, rfl⟩ := List.mem_map.mp hx
      exact hshown item hitem

theorem KeyValueList.Stored.shows {v : KeyValueList} {l : ArakoonKeyValueList} {t : Linked (Data × Data)}
    {pairs : List (Bytes × Bytes)} (h : v.Stored l t) (hcontents : v.contents = pairs.map pairContents)
    (hlength : pairs.length < 2 ^ 64) : ShowsPairs alloc l t pairs := by
  have hlengths : v.items.length = pairs.length := by simpa [KeyValueList.contents] using congrArg List.length hcontents
  have hshown : ∀ item ∈ v.items, item.key.ptr ≠ .null ∧ item.value.ptr ≠ .null := by
    intro item hitem
    obtain ⟨p, hp⟩ := exists_of_map_eq hcontents hitem
    obtain ⟨hkey, hvalue⟩ := Prod.mk.inj hp
    exact ⟨Data.ptr_ne_null hkey, Data.ptr_ne_null hvalue⟩
  refine ⟨by rw [arakoonKeyValueListSize, h.size, hlengths, sizeT_of_lt hlength], fun rounds hrounds => ?_⟩
  refine (yields_visitItems halloc h.chain (by decide) ?_ (by simpa [hlengths] using hrounds)).mono ?_
  · intro x hx
    obtain ⟨item, hitem, rfl⟩ := List.mem_map.mp hx
    exact decide_eq_true (hshown item hitem)
  · rintro _ _ rfl
    refine ⟨_, rfl, ?_, fun d hd => ?_⟩
    · rw [List.map_map, List.map_map]
      refine map_eq_of_map_eq (fun item p hp => ?_) hcontents
      obtain ⟨hkey, hvalue⟩ := Prod.mk.inj hp
      exact Prod.ext (Data.shown_eq hkey) (Data.shown_eq hvalue)
    · obtain ⟨x, hx, rfl⟩ := List.mem_map.mp hd
      obtain ⟨item, hitem, rfl⟩ := List.mem_map.mp hx
      exact hshown item hitem

end Replies

/-- A reply that is a list is decoded to the end, into a list that shows its elements in reverse. The list may be of
strings or of pairs. -/
theorem list_replies_arrive {alloc : Nat → Bool} (halloc : ∀ n, alloc n = true) {c : Conn} (hprompt : c.Prompt)
    {bs rest : Bytes} (hstream : c.stream = bs ++ rest) :
    (∀ strings, ListField StringField strings bs → ∀ t : Linked Data, t.session.conn = some c →
      Yields (decodeStringList alloc) t fun out t' => ∃ list c', out = some (list, 0) ∧
        t'.session.conn = some c' ∧ c'.stream = rest ∧ ShowsValues alloc list t' strings.reverse) ∧
    (∀ pairs, ListField PairField pairs bs → ∀ t : Linked (Data × Data), t.session.conn = some c →
      Yields (decodeStringStringList alloc) t fun out t' => ∃ list c', out = some (list, 0) ∧
        t'.session.conn = some c' ∧ c'.stream = rest ∧ ShowsPairs alloc list t' pairs.reverse) := by
  constructor
  · intro strings hword t hc
    have hread : (wireList wireString).run c.stream = .ok (strings, rest) := by
      rw [hstream]
      exact (reads_wireList reads_wireString).parses hword rest
    refine (yields_arakoonValueListNew halloc t).bind fun _ t₁ hdone => ?_
    obtain ⟨id, rfl, -, hconn₁⟩ := hdone
    have hdecoded := (follows_readStringList halloc (a := ⟨id, []⟩) (fun _ h => absurd h List.not_mem_nil) t₁.session)
      c (hconn₁.trans hc)
    refine ((refines_readStringList alloc (ValueList.stored_nil id t₁)).yields hdecoded).bind fun out t₂ hdone => ?_
    obtain ⟨⟨v, rc⟩, _, hcases, rfl, rfl, hstored⟩ := hdone
    rcases hcases with ⟨ss, rest', c', hread', hc', hafter, hrc, hcontents, -⟩ | ⟨-, hstuck, -⟩
    · obtain ⟨rfl, rfl⟩ := Prod.mk.inj (Except.ok.inj (hread'.symm.trans hread))
      refine Yields.pure ⟨out.1, c', congrArg some (Prod.ext rfl hrc), hc', hafter.stream, ?_⟩
      have hlength := hword.1
      refine hstored.shows halloc (hcontents.trans (List.append_nil _)) ?_
      rw [List.length_reverse]
      omega
    · exact absurd ⟨hprompt, strings, rest, hread⟩ hstuck
  · intro pairs hword t hc
    have hread : (wireList wirePair).run c.stream = .ok (pairs, rest) := by
      rw [hstream]
      exact (reads_wireList reads_wirePair).parses hword rest
    refine (yields_arakoonKeyValueListNew halloc t).bind fun _ t₁ hdone => ?_
    obtain ⟨id, rfl, -, hconn₁⟩ := hdone
    have hdecoded := (follows_readStringStringList halloc (a := ⟨id, []⟩) (fun _ h => absurd h List.not_mem_nil)
      t₁.session) c (hconn₁.trans hc)
    refine ((refines_readStringStringList alloc (KeyValueList.stored_nil id t₁)).yields hdecoded).bind
      fun out t₂ hdone => ?_
    obtain ⟨⟨v, rc⟩, _, hcases, rfl, rfl, hstored⟩ := hdone
    rcases hcases with ⟨ps, rest', c', hread', hc', hafter, hrc, hcontents, -⟩ | ⟨-, hstuck, -⟩
    · obtain ⟨rfl, rfl⟩ := Prod.mk.inj (Except.ok.inj (hread'.symm.trans hread))
      refine Yields.pure ⟨out.1, c', congrArg some (Prod.ext rfl hrc), hc', hafter.stream, ?_⟩
      have hlength := hword.1
      refine hstored.shows halloc (hcontents.trans (List.append_nil _)) ?_
      rw [List.length_reverse]
      omega
    · exact absurd ⟨hprompt, pairs, rest, hread⟩ hstuck

/-- Two strings of which the second is empty, and a pair of two empty strings. -/
theorem list_replies_arrive_empty :
    let holding := fun bs : Bytes => { Conn.fresh (Peer.answering []) with inbox := bs }
    let strings := holding (le32 2 ++ (writeString [97] ++ writeString []))
    let pairs := holding (le32 1 ++ (writeString [] ++ writeString []))
    (Yields (decodeStringList fun _ => true) ⟨⟨Heap.empty, some strings, .null⟩, fun _ => none⟩ fun out t' =>
      ∃ list c', out = some (list, 0) ∧ t'.session.conn = some c' ∧ c'.stream = [] ∧
        ShowsValues (fun _ => true) list t' [[], [97]]) ∧
    Yields (decodeStringStringList fun _ => true) ⟨⟨Heap.empty, some pairs, .null⟩, fun _ => none⟩ fun out t' =>
      ∃ list c', out = some (list, 0) ∧ t'.session.conn = some c' ∧ c'.stream = [] ∧
        ShowsPairs (fun _ => true) list t' [([], [])] := by
  have hstring : ∀ s : Bytes, s.length < 2 ^ 32 → StringField s (writeString s) := fun s hs => ⟨hs, rfl⟩
  intro holding strings pairs
  constructor
  · refine (list_replies_arrive (fun _ => rfl) (fun _ => rfl) (List.append_nil _).symm).1 [[97], []] ?_ _ rfl
    exact ⟨by decide, _, .cons (hstring _ (by decide)) (.cons (hstring _ (by decide)) .nil), rfl⟩
  · refine (list_replies_arrive (fun _ => rfl) (fun _ => rfl) (List.append_nil _).symm).2 [([], [])] ?_ _ rfl
    exact ⟨by decide, _, .cons ⟨_, _, hstring _ (by decide), hstring _ (by decide), rfl⟩ .nil, rfl⟩

end Crakoon
