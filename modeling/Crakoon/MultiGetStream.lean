import Crakoon.ListReplies
import Crakoon.RequestRoundTrip

/-!
# The request that `arakoon_multi_get` streams

The keys of the request go out in writes of their own, behind a count that was written before. The count is the size
that the list keeps, the keys are what a loop over the list shows, and their lengths are the low halves of the sizes
of its items. For a list that was built by `arakoon_value_list_add` the three agree.
-/

namespace Crakoon

open Programs Reading Chains

/-- Keys that are added to a list one after the other. -/
def addKeys (alloc : Nat → Bool) : List Data → ArakoonValueList → LinkedM Data (ArakoonValueList × ArakoonRc)
  | [], list => pure (list, ArakoonReturnCode.success.rc)
  | value :: values, list => do
      let (list, rc) ← arakoonValueListAdd alloc list value
      if rc ≠ 0 then pure (list, rc) else addKeys alloc values list

/-- A client adds keys to a new list and asks for them. -/
def askForKeys (alloc : Nat → Bool) (options : Option ClientCallOptions) (values : List Data) (rounds : Nat) :
    LinkedM Data (Option ArakoonRc) := do
  match ← arakoonValueListNew alloc with
  | none => pure none
  | some list => do
      let (list, rc) ← addKeys alloc values list
      if rc ≠ 0 then pure (some rc)
      else do
        let rc ← streamMultiGet alloc options list rounds
        pure (some rc)

section Build

variable {alloc : Nat → Bool} (halloc : ∀ n, alloc n = true)
include halloc

theorem yields_onSession_copyValue {d : Data} {bytes : Bytes} (hd : d.value = some bytes) (t : Linked Data) :
    Yields (onSession (copyValue alloc d)) t fun out t' =>
      ∃ copy, out = some copy ∧ copy.value = some bytes ∧ t.Later t' ∧ t'.session.conn = t.session.conn := by
  obtain ⟨out, s', hrun, hconn, copy, rfl, hvalue, -⟩ := yields_copyValue halloc hd t.session
  obtain ⟨p, t', hrun', rfl, rfl, hlater⟩ := refines_onSession (onwards_copyValue alloc 0 d) t _ _ hrun
  exact ⟨_, t', hrun', copy, rfl, hvalue, hlater, hconn⟩

/-- A key that is added comes to stand behind the others. -/
theorem yields_arakoonValueListAdd {v : ValueList} {l : ArakoonValueList} {t : Linked Data} (h : v.Stored l t)
    {d : Data} {bytes : Bytes} (hd : d.value = some bytes) :
    Yields (arakoonValueListAdd alloc l d) t fun out t' => out.2 = 0 ∧ t'.session.conn = t.session.conn ∧
      ∃ item : ValueListItem, item.value.value = some bytes ∧ ValueList.Stored ⟨v.id, v.items ++ [item]⟩ out.1 t' := by
  rw [arakoonValueListAdd, if_neg (Data.ptr_ne_null hd)]
  refine (yields_onSession_memNew halloc t).bind fun _ t₁ hdone => ?_
  obtain ⟨rfl, hlater₁, hnext, hconn₁⟩ := hdone
  refine (yields_onSession_copyValue halloc hd t₁).bind fun _ t₂ hdone => ?_
  obtain ⟨copy, rfl, hvalue, hlater₂, hconn₂⟩ := hdone
  refine (yields_putCell _ _ t₂).bind fun _ t₃ hdone => ?_
  subst hdone
  have hlater := hlater₁.trans hlater₂
  have hstored := h.append hlater (Nat.lt_of_lt_of_le hnext hlater₂.next) copy
  have hconn := hconn₂.trans hconn₁
  cases hlast : l.last with
  | none =>
      rw [hlast] at hstored
      exact Yields.pure ⟨rfl, hconn, ⟨_, copy⟩, hvalue, hstored⟩
  | some last =>
      rw [hlast] at hstored
      exact ⟨_, _, rfl, rfl, hconn, ⟨_, copy⟩, hvalue, hstored⟩

/-- The list holds the keys in the order in which they were added. -/
theorem yields_addKeys {keys : List Bytes} {values : List Data} (hkeys : values.map Data.value = keys.map some)
    {v : ValueList} {l : ArakoonValueList} {t : Linked Data} (h : v.Stored l t) :
    Yields (addKeys alloc values l) t fun out t' => out.2 = 0 ∧ t'.session.conn = t.session.conn ∧
      ∃ v' : ValueList, v'.contents = v.contents ++ keys.map some ∧ v'.Stored out.1 t' := by
  induction values generalizing keys v l t with
  | nil =>
      obtain rfl : keys = [] := List.map_eq_nil_iff.mp hkeys.symm
      exact Yields.pure ⟨rfl, rfl, v, (List.append_nil _).symm, h⟩
  | cons value values ih =>
      cases keys with
      | nil => cases hkeys
      | cons key keys =>
          obtain ⟨hkey, hothers⟩ := List.cons.inj hkeys
          refine (yields_arakoonValueListAdd halloc h hkey).bind fun out t₁ hdone => ?_
          obtain ⟨l₁, _⟩ := out
          obtain ⟨rfl, hconn₁, item, hitem, hstored⟩ := hdone
          refine (ih hothers hstored).mono fun out t' hdone => ?_
          obtain ⟨hrc, hconn, v', hcontents, hstored'⟩ := hdone
          refine ⟨hrc, hconn.trans hconn₁, v', ?_, hstored'⟩
          rw [hcontents]
          simp [ValueList.contents, hitem]

end Build

theorem writeUInt32_sizeT (n : Nat) : writeUInt32 (sizeT n) = writeUInt32 n := by
  simp only [writeUInt32, le32, sizeT, List.cons.injEq, and_true, ← UInt8.toNat_inj, UInt8.toNat_ofNat']
  refine ⟨?_, ?_, ?_, ?_⟩ <;> omega

/-- The header announces as many keys as the list holds. -/
theorem multiGetHeader_eq {options : Option ClientCallOptions} {v : ValueList} {l : ArakoonValueList} {t : Linked Data}
    (h : v.Stored l t) {keys : List Bytes} (hlength : v.items.length = keys.length) :
    multiGetHeader options l = multiGetCommand options keys := by
  rw [multiGetHeader, multiGetCommand, arakoonValueListSize, h.size, writeUInt32_sizeT, hlength]

section Stream

variable (alloc : Nat → Bool)

theorem ensures_multiGetKey (value : Data) (rc : ArakoonRc) (t : Linked Data) :
    Ensures (multiGetKey value rc) t fun _ t' => t'.cells = t.cells := by
  have hwrite : ∀ (bs : Bytes) (t : Linked Data),
      Ensures (onSession (writeBytes bs)) t fun _ t' => t'.cells = t.cells := by
    intro bs t rc t' hrun
    obtain ⟨out, -, hout⟩ := Option.map_eq_some_iff.mp hrun
    rw [← (Prod.mk.inj hout).2]
  refine (hwrite _ t).bind fun rc₁ t₁ hcells₁ => .ite (fun _ => Ensures.pure hcells₁) fun _ => ?_
  refine (hwrite _ t₁).bind fun rc₂ t₂ hcells₂ => ?_
  exact .ite (fun _ => Ensures.pure (hcells₂.trans hcells₁)) fun _ => Ensures.pure (hcells₂.trans hcells₁)

/-- The loop over the items is the loop over the keys that they hold. -/
theorem refines_multiGetKeys {keys : List Bytes} {values : List Data} (hkeys : values.map Data.value = keys.map some)
    (t : Linked Data) :
    Refines (forIn values ArakoonReturnCode.success.rc multiGetKey) (multiGetKeys keys) t t.session
      fun rc t' rc' s' => rc = rc' ∧ t'.session = s' := by
  induction values generalizing keys t with
  | nil =>
      obtain rfl : keys = [] := List.map_eq_nil_iff.mp hkeys.symm
      exact Refines.pure ⟨rfl, rfl⟩
  | cons value values ih =>
      cases keys with
      | nil => cases hkeys
      | cons key keys =>
          obtain ⟨hkey, hothers⟩ := List.cons.inj hkeys
          rw [List.forIn_cons, multiGetKey, hkey, Data.size_of_value hkey, Option.getD_some, bind_assoc]
          refine (refines_onSession (onwards_writeBytes 0 _) t).bind ?_
          rintro rc t₁ _ _ ⟨rfl, rfl, -⟩
          by_cases hrc : rc = 0
          · rw [if_neg (not_ne_iff.mpr hrc), if_neg (not_ne_iff.mpr hrc), bind_assoc]
            refine (refines_onSession (onwards_writeBytes 0 _) t₁).bind ?_
            rintro rc t₂ _ _ ⟨rfl, rfl, -⟩
            by_cases hrc : rc = 0
            · subst hrc
              exact ih hothers t₂
            · rw [if_pos hrc, if_pos hrc]
              exact Refines.pure ⟨rfl, rfl⟩
          · rw [if_pos hrc, if_pos hrc]
            exact Refines.pure ⟨rfl, rfl⟩

/-- What is streamed of a list that memory holds is the request for the keys of the list. -/
theorem refines_streamMultiGet {options : Option ClientCallOptions} {v : ValueList} {l : ArakoonValueList}
    {t : Linked Data} (h : v.Stored l t) {keys : List Bytes} (hcontents : v.contents = keys.map some) {rounds : Nat}
    (hrounds : keys.length < rounds) :
    Refines (streamMultiGet alloc options l rounds) (sendMultiGet alloc options keys) t t.session
      fun rc t' rc' s' => rc = rc' ∧ t'.session = s' := by
  have hlengths : v.items.length = keys.length := by simpa [ValueList.contents] using congrArg List.length hcontents
  have hshown : ∀ x ∈ v.items.map fun item => (item.id, item.value), decide (x.2.ptr ≠ .null) = true := by
    intro x hx
    obtain ⟨item, hitem, rfl⟩ := List.mem_map.mp hx
    obtain ⟨key, hkey⟩ := exists_of_map_eq hcontents hitem
    exact decide_eq_true (Data.ptr_ne_null hkey)
  rw [streamMultiGet, multiGetHeader_eq h hlengths]
  refine (refines_onSession (onwards_sendBlock alloc 0 (onwards_writeBytes 0) _) t).bind ?_
  rintro rc t₁ _ _ ⟨rfl, rfl, hlater₁⟩
  refine Refines.ite Iff.rfl (fun _ => Refines.pure ⟨rfl, rfl⟩) fun hrc => ?_
  obtain rfl : rc = 0 := not_ne_iff.mp hrc
  rw [arakoonValueListCreateIter, listCreateIter, bind_assoc]
  refine (refines_memNew alloc t₁).bind ?_
  rintro p t₂ _ _ ⟨rfl, rfl, hlater₂, -⟩
  cases p with
  | none => exact Refines.pure ⟨rfl, rfl⟩
  | some p =>
      have hloop : (forArakoonValueIter multiGetKey rounds ⟨p, l.first⟩ 0).run t₂ =
          (forIn (v.items.map ValueListItem.value) 0 multiGetKey).run t₂ := by
        have hitems : (v.items.map fun item => (item.id, item.value)).map Prod.snd =
            v.items.map ValueListItem.value := by
          rw [List.map_map]
          rfl
        rw [← hitems]
        exact forListIter_run ((hlater₁.trans hlater₂).cells ▸ h.chain) rfl hshown ensures_multiGetKey
          (by simpa [hlengths] using hrounds) p 0
      have hvalues : (v.items.map ValueListItem.value).map Data.value = keys.map some := by
        rw [List.map_map]
        exact hcontents
      have hkeys : Refines (forArakoonValueIter multiGetKey rounds ⟨p, l.first⟩ 0) (multiGetKeys keys) t₂ t₂.session
          fun rc t' rc' s' => rc = rc' ∧ t'.session = s' :=
        fun rc s' hrun => by
          obtain ⟨a, t', hrun', hQ⟩ := refines_multiGetKeys hvalues t₂ rc s' hrun
          exact ⟨a, t', hloop.trans hrun', hQ⟩
      dsimp only
      rw [pure_bind]
      refine hkeys.bind ?_
      rintro rc t₃ _ _ ⟨rfl, rfl⟩
      refine Refines.ite Iff.rfl (fun _ => Refines.pure ⟨rfl, rfl⟩) fun _ => ?_
      refine (refines_onSession (onwards_memFree 0 fun _ _ => Nat.zero_le _) t₃).bind ?_
      rintro _ t₄ _ _ ⟨-, rfl, -⟩
      exact Refines.pure ⟨rfl, rfl⟩

end Stream

/-- The request for keys, as it is on the wire. -/
def multiGetFrame (options : Option ClientCallOptions) (keys : List Bytes) : Bytes :=
  writeCommand 0x11 0x00 ++ writeBool (readOptions options).allowDirty ++ le32 keys.length ++
    keys.flatMap fun key => le32 key.length ++ key

/-- The frame is read as the request for its keys, in their order. -/
theorem parses_multiGetFrame (options : Option ClientCallOptions) {keys : List Bytes} (hcount : keys.length < 2 ^ 32)
    (hshort : ∀ key ∈ keys, key.length < 2 ^ 32) :
    Parses readRequest (multiGetFrame options keys) (.multiGet (dirtyOf options) keys) := by
  rw [multiGetFrame, List.append_assoc, List.append_assoc]
  refine parses_command 0x11 ((parses_bool _).bind ((parses_u32 () hcount).bind ((Parses.times ?_).map _)))
  exact fun key hkey => parses_lengthPrefixed () (hshort key hkey)

/-- Of a list of keys that was built by `arakoon_value_list_add`, the writes make up the command, the flag, the number
of keys and as many length-prefixed keys, which the reference decoder recovers in the order in which they were
added. -/
theorem multi_get_streamed {alloc : Nat → Bool} (halloc : ∀ n, alloc n = true) (options : Option ClientCallOptions)
    {values : List Data} {keys : List Bytes} (hkeys : values.map Data.value = keys.map some)
    (hcount : keys.length < 2 ^ 32) (hshort : ∀ key ∈ keys, key.length < 2 ^ 32) {t : Linked Data} {c : Conn}
    (hconn : t.session.conn = some c) (hwrites : ∀ n, c.peer.writes n = .complete) {rounds : Nat}
    (hrounds : keys.length < rounds) :
    Yields (askForKeys alloc options values rounds) t (fun out t' => out = some 0 ∧ ∃ c', t'.session.conn = some c' ∧
      c'.writes = c.writes + (1 + 2 * keys.length) ∧ c'.sent = c.sent ++ multiGetFrame options keys) ∧
    Parses readRequest (multiGetFrame options keys) (.multiGet (dirtyOf options) keys) := by
  refine ⟨?_, parses_multiGetFrame options hcount hshort⟩
  refine (yields_arakoonValueListNew halloc t).bind fun _ t₁ hdone => ?_
  obtain ⟨id, rfl, -, hconn₁⟩ := hdone
  refine (yields_addKeys halloc hkeys (ValueList.stored_nil id t₁)).bind fun out t₂ hdone => ?_
  obtain ⟨l, rc⟩ := out
  obtain ⟨rfl, hconn₂, v, hcontents, hstored⟩ := hdone
  have hassembled : (multiGetCommand options keys).assembled = some (multiGetCommand options keys).written :=
    Command.assembled_of_length rfl
  have hsends := yields_sendMultiGet halloc hassembled (hconn₂.trans (hconn₁.trans hconn))
  refine Yields.bind ((refines_streamMultiGet alloc hstored hcontents hrounds).yields hsends) fun rc t₃ hdone => ?_
  obtain ⟨_, _, hsent, rfl, rfl⟩ := hdone
  cases hsent with
  | whole c' hrc hconn' wrote gains =>
      refine Yields.pure ⟨congrArg some hrc, c', hconn', wrote.writes, ?_⟩
      exact wrote.sent
  | closed _ _ _ stopped =>
      obtain ⟨n, -, hstopped⟩ := stopped
      exact absurd (hwrites _) hstopped
  | partly moved failure hleft => cases hleft

/-- A key and an empty key. -/
theorem multi_get_streamed_empty :
    let c := Conn.fresh (Peer.answering [])
    Yields (askForKeys (fun _ => true) none [.block 7 [107], .zeroLength] 3)
      ⟨⟨Heap.empty, some c, .null⟩, fun _ => none⟩ (fun out t' => out = some 0 ∧ ∃ c', t'.session.conn = some c' ∧
        c'.writes = 5 ∧ c'.sent = multiGetFrame none [[107], []]) ∧
      Parses readRequest (multiGetFrame none [[107], []]) (.multiGet (dirtyOf none) [[107], []]) := by
  intro c
  have hkeys : [Data.block 7 [107], .zeroLength].map Data.value = [[107], []].map some := rfl
  have hrounds : ([[107], []] : List Bytes).length < 3 := by decide
  have hwrites : ∀ n, c.peer.writes n = .complete := fun _ => rfl
  exact multi_get_streamed (fun _ => rfl) none hkeys (by decide) (by decide) rfl hwrites hrounds

end Crakoon
