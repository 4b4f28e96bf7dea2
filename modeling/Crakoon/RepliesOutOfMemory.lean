import Crakoon.Connect
import Crakoon.DecodeScripts
import Crakoon.ReplyFraming

/-!
# Replies for which there is not enough memory

An operation that is refused memory while it decodes a reply returns at once, and does not close the connection. What it
has not read of the reply is then what the next operation reads. A reply is read to its end if and only if the
requests for memory that are made before its last byte is read are met (`decoding_in_step_iff`).
-/

namespace Crakoon

open Programs Reading Scripts

section Decoders

variable {alloc : Nat → Bool}

def stringNeeds (bs : Bytes) : Nat := if bs = [] then 0 else 1

/-- The item and the copy of the last string are made when nothing is left to read. -/
def listNeeds : List Bytes → Nat
  | [] => 0
  | s :: ss => if ss = [] then stringNeeds s else stringNeeds s + (1 + stringNeeds s) + listNeeds ss

def pairsNeeds : List (Bytes × Bytes) → Nat
  | [] => 0
  | p :: ps =>
      if ps = [] then stringNeeds p.1 + stringNeeds p.2
      else stringNeeds p.1 + (stringNeeds p.2 + (1 + (stringNeeds p.1 + stringNeeds p.2))) + pairsNeeds ps

/-- The requests for memory that a decoder makes before it reads the last byte of a payload. -/
def ReplyKind.needs : (kind : ReplyKind) → kind.Payload → Nat
  | .nothing, _ => 0
  | .bool, _ => 0
  | .string, s => stringNeeds s
  | .text, s => stringNeeds s
  | .stringOption, o => (Option.map stringNeeds o).getD 0
  | .uint32, _ => 0
  | .version, v => stringNeeds (VersionReply.info v)
  | .list, ss => 1 + listNeeds ss
  | .pairs, ps => 1 + pairsNeeds ps

@[simp] theorem requests_stringScript (bs : Bytes) : requests (stringScript bs) = stringNeeds bs := by
  by_cases h : bs = [] <;> simp [stringScript, stringNeeds, h]

@[simp] theorem requests_copyScript (bs : Bytes) : requests (copyScript bs) = stringNeeds bs := by
  by_cases h : bs = [] <;> simp [copyScript, stringNeeds, h]

@[simp] theorem needed_stringScript (bs : Bytes) : needed (stringScript bs) = stringNeeds bs := by
  by_cases h : bs = [] <;> simp [stringScript, stringNeeds, needed, h]

theorem writeString_ne_nil (s : Bytes) : writeString s ≠ [] :=
  List.append_ne_nil_of_left_ne_nil (List.cons_ne_nil _ _) _

theorem word_itemScript (s : Bytes) : word (itemScript s) = writeString s := by
  rw [itemScript, word_append, word_append, word_stringScript, word_copyScript]
  exact List.append_nil _

theorem needed_items (ss : List Bytes) : needed (ss.flatMap itemScript) = listNeeds ss := by
  induction ss with
  | nil => rfl
  | cons s ss ih =>
      have hsilent : word ([.request] ++ copyScript s) = [] := word_copyScript s
      rw [List.flatMap_cons, needed_append, ih, listNeeds]
      cases ss with
      | nil =>
          have hend : word ([].flatMap itemScript) = [] := rfl
          rw [if_pos hend, if_pos rfl, itemScript, needed_append, if_pos hsilent, needed_stringScript]
      | cons s' ss =>
          have hmore : word ((s' :: ss).flatMap itemScript) ≠ [] := by
            rw [List.flatMap_cons, word_append, word_itemScript]
            exact List.append_ne_nil_of_left_ne_nil (writeString_ne_nil s') _
          rw [if_neg hmore, if_neg (List.cons_ne_nil _ _), itemScript, requests_append, requests_append]
          simp

theorem word_pairScript (p : Bytes × Bytes) : word (pairScript p) = writeString p.1 ++ writeString p.2 := by
  simp only [pairScript, word_append, word_stringScript, word_copyScript, word, List.append_nil]

theorem needed_pairs (ps : List (Bytes × Bytes)) : needed (ps.flatMap pairScript) = pairsNeeds ps := by
  induction ps with
  | nil => rfl
  | cons p ps ih =>
      have hsilent : word ([.request] ++ (copyScript p.1 ++ copyScript p.2)) = [] := by
        simp only [word_append, word_copyScript, word, List.append_nil]
      have hvalue : word (stringScript p.2 ++ ([.request] ++ (copyScript p.1 ++ copyScript p.2))) ≠ [] := by
        rw [word_append, word_stringScript]
        exact List.append_ne_nil_of_left_ne_nil (writeString_ne_nil p.2) _
      rw [List.flatMap_cons, needed_append, ih, pairsNeeds]
      cases ps with
      | nil =>
          have hend : word ([].flatMap pairScript) = [] := rfl
          rw [if_pos hend, if_pos rfl, pairScript, needed_append, if_neg hvalue, needed_append, if_pos hsilent,
            requests_stringScript, needed_stringScript]
      | cons q ps =>
          have hmore : word ((q :: ps).flatMap pairScript) ≠ [] := by
            rw [List.flatMap_cons, word_append, word_pairScript, List.append_assoc]
            exact List.append_ne_nil_of_left_ne_nil (writeString_ne_nil q.1) _
          rw [if_neg hmore, if_neg (List.cons_ne_nil _ _)]
          simp only [pairScript, requests_append, requests_stringScript, requests_copyScript, requests]

theorem word_items {ss : List Bytes} {words : Bytes} (h : Reads.Many StringField ss words) :
    word (ss.flatMap itemScript) = words ∧ ∀ s ∈ ss, Short s := by
  induction h with
  | nil => exact ⟨rfl, fun s hs => by cases hs⟩
  | @cons s ss bs cs first _ ih =>
      obtain ⟨hshort, rfl⟩ := first
      refine ⟨by rw [List.flatMap_cons, word_append, word_itemScript, ih.1], fun s' hs' => ?_⟩
      rcases List.mem_cons.mp hs' with rfl | hs'
      · exact hshort
      · exact ih.2 s' hs'

theorem word_pairs {ps : List (Bytes × Bytes)} {words : Bytes} (h : Reads.Many PairField ps words) :
    word (ps.flatMap pairScript) = words ∧ ∀ p ∈ ps, Short p.1 ∧ Short p.2 := by
  induction h with
  | nil => exact ⟨rfl, fun p hp => by cases hp⟩
  | @cons p ps bs cs first _ ih =>
      obtain ⟨_, _, ⟨hkey, rfl⟩, ⟨hvalue, rfl⟩, rfl⟩ := first
      refine ⟨by rw [List.flatMap_cons, word_append, word_pairScript, ih.1], fun q hq => ?_⟩
      rcases List.mem_cons.mp hq with rfl | hq
      · exact ⟨hkey, hvalue⟩
      · exact ih.2 q hq

/-- The program reads `bs`, and makes `n` requests for memory before the last byte of it. -/
def Scripted {α : Type} (alloc : Nat → Bool) (m : SessionM α) (bs : Bytes) (n : Nat) : Prop :=
  ∃ t, word t = bs ∧ needed t = n ∧ Performs alloc m t (fun _ => True) fun _ => True

theorem Scripted.intro {α : Type} {m : SessionM α} {t : Script UInt8} {bs : Bytes} {n : Nat} (hword : word t = bs)
    (hneeded : needed t = n) (h : Performs alloc m t (fun _ => True) fun _ => True) : Scripted alloc m bs n :=
  ⟨t, hword, hneeded, h⟩

theorem scripted_decodeString (result : Data) {s bs : Bytes} (h : StringField s bs) :
    Scripted alloc (decodeString alloc result) bs (stringNeeds s) := by
  obtain ⟨hshort, rfl⟩ := h
  refine .intro (word_stringScript s) (needed_stringScript s) ((performs_readString hshort result).last ?_ ?_)
  · rintro ⟨d, _⟩ ⟨-, rfl⟩
    exact .pure trivial
  · rintro ⟨d, rc⟩ hrc
    exact .failure hrc (.pure trivial)

theorem needed_stringOptionScript (mark : UInt8) (o : Option Bytes) :
    needed (stringOptionScript mark o) = (o.map stringNeeds).getD 0 := by
  cases o with
  | none => rfl
  | some s => exact needed_stringScript s

theorem scripted_decodeStringOption (result : Data) {o : Option Bytes} {bs : Bytes} (h : StringOptionField o bs) :
    Scripted alloc (decodeStringOption alloc result) bs ((o.map stringNeeds).getD 0) := by
  obtain ⟨mark, hword, hread⟩ := performs_readStringOption alloc result h
  refine .intro hword (needed_stringOptionScript mark o) (hread.last ?_ ?_)
  · rintro ⟨d, rc⟩ ⟨-, hrc⟩
    dsimp only at hrc ⊢
    rw [if_neg (not_ne_iff.mpr hrc)]
    exact .pure trivial
  · rintro ⟨d, rc⟩ hrc
    exact .failure hrc (.pure trivial)

theorem scripted_decodeUserFunction {o : Option Bytes} {bs : Bytes} (h : StringOptionField o bs) :
    Scripted alloc (do
      let (result, rc) ← readStringOption alloc .null 0
      pure (rc, result)) bs ((o.map stringNeeds).getD 0) := by
  obtain ⟨mark, hword, hread⟩ := performs_readStringOption alloc .null h
  exact .intro hword (needed_stringOptionScript mark o) (hread.last (fun _ _ => .pure trivial) fun _ _ => .pure trivial)

theorem performs_utilsMakeString (d : Data) :
    Performs alloc (utilsMakeString alloc d) [.request] (fun _ => True) fun _ => True := by
  refine (performs_memRealloc d.ptr).last ?_ ?_
  · rintro _ ⟨id, rfl⟩
    exact .pure trivial
  · rintro _ rfl
    exact (idle_memFree _).bind fun _ _ => .pure trivial

/-- What is done with a terminated string reads nothing more. -/
theorem performs_terminate {β : Type} (d : Data) {f : Data → SessionM β} (hf : ∀ text, Idle (f text) fun _ => True) :
    Performs alloc (utilsMakeString alloc d >>= f) [.request] (fun _ => True) fun _ => True :=
  (performs_utilsMakeString d).last (fun text _ => hf text) fun text _ => hf text

/-- The terminator needs no byte of the reply. -/
theorem needed_terminated (t : Script UInt8) : needed (t ++ [.request]) = needed t := by
  rw [needed_append]
  exact if_pos rfl

theorem word_terminated (t : Script UInt8) : word (t ++ [.request]) = word t := by
  rw [word_append]
  exact List.append_nil _

theorem scripted_decodeText {s bs : Bytes} (h : StringField s bs) :
    Scripted alloc (decodeText alloc) bs (stringNeeds s) := by
  obtain ⟨hshort, rfl⟩ := h
  refine .intro ((word_terminated _).trans (word_stringScript s)) ((needed_terminated _).trans (needed_stringScript s))
    ((performs_readString hshort .null).bind ?_ ?_)
  · rintro ⟨d, _⟩ ⟨-, rfl⟩
    refine .success ?_
    exact performs_terminate d fun text => by split_ifs <;> exact .pure trivial
  · rintro ⟨d, rc⟩ hrc
    exact .failure hrc (.pure trivial)

theorem scripted_decodeMaster {o : Option Bytes} {bs : Bytes} (h : StringOptionField o bs) :
    Scripted alloc (decodeMaster alloc) bs ((o.map stringNeeds).getD 0) := by
  obtain ⟨mark, hword, hread⟩ := performs_readStringOption alloc .null h
  cases o with
  | none =>
      refine .intro hword (needed_stringOptionScript mark none) (hread.last ?_ ?_)
      · rintro ⟨d, rc⟩ ⟨hvalue, hrc⟩
        obtain rfl : d = .null := by cases d <;> simp [Data.value] at hvalue ⊢
        dsimp only at hrc ⊢
        rw [if_neg (not_ne_iff.mpr hrc), if_pos rfl]
        exact .pure trivial
      · rintro ⟨d, rc⟩ hrc
        exact .failure hrc (.pure trivial)
  | some s =>
      refine .intro ((word_terminated _).trans hword)
        ((needed_terminated _).trans (needed_stringOptionScript mark (some s))) (hread.bind ?_ ?_)
      · rintro ⟨d, rc⟩ ⟨hvalue, hrc⟩
        have hd : d ≠ .null := by
          rintro rfl
          cases hvalue
        dsimp only at hrc ⊢
        rw [if_neg (not_ne_iff.mpr hrc), if_neg hd]
        exact performs_terminate d fun text => by split_ifs <;> exact .pure trivial
      · rintro ⟨d, rc⟩ hrc
        exact .failure hrc (.pure trivial)

theorem scripted_decodeVersion (result : VersionInfo) {v : VersionReply} {bs : Bytes} (h : VersionField v bs) :
    Scripted alloc (decodeVersion alloc result) bs (stringNeeds v.info) := by
  obtain ⟨_, _, _, _, ⟨-, rfl⟩, ⟨-, rfl⟩, ⟨-, rfl⟩, ⟨hshort, rfl⟩, rfl⟩ := h
  have hnumber : ∀ {t : Script UInt8} {n : Int}, word ([.read (writeInt32 n)] ++ t) = writeInt32 n ++ word t :=
    fun {t n} => rfl
  refine .intro (t := [.read (writeInt32 v.major)] ++ ([.read (writeInt32 v.minor)] ++ ([.read (writeInt32 v.patch)] ++
    (stringScript v.info ++ [.request])))) ?_ ?_ ?_
  · rw [hnumber, hnumber, hnumber, word_terminated, word_stringScript]
  · exact (needed_terminated _).trans (needed_stringScript v.info)
  · refine (performs_readInt32 result.major rfl).bind ?_ fun _ h => h.elim
    rintro ⟨major, _⟩ rfl
    refine (performs_readInt32 result.minor rfl).bind ?_ fun _ h => h.elim
    rintro ⟨minor, _⟩ rfl
    refine (performs_readInt32 result.patch rfl).bind ?_ fun _ h => h.elim
    rintro ⟨patch, _⟩ rfl
    refine (performs_readString hshort .null).bind ?_ ?_
    · rintro ⟨d, _⟩ ⟨-, rfl⟩
      refine .success ?_
      exact performs_terminate d fun text => by split_ifs <;> exact .pure trivial
    · rintro ⟨d, rc⟩ hrc
      exact .failure hrc (.pure trivial)

/-- A list that is made, and whose length and items are then read. -/
theorem needed_list (count : Nat) (items : Script UInt8) :
    needed ([.request] ++ ([.read (le32 count)] ++ items)) = 1 + needed items := by
  have hmore : word ([.read (le32 count)] ++ items) ≠ [] := List.append_ne_nil_of_left_ne_nil (List.cons_ne_nil _ _) _
  rw [needed_append, if_neg hmore]
  rfl

theorem performs_valueListNew :
    Performs alloc (valueListNew alloc) [.request] (fun list => ∃ l, list = some l) fun list => list = none := by
  refine performs_memNew.last ?_ ?_
  · rintro _ ⟨id, rfl⟩
    exact .pure ⟨_, rfl⟩
  · rintro _ rfl
    exact .pure rfl

theorem performs_keyValueListNew :
    Performs alloc (keyValueListNew alloc) [.request] (fun list => ∃ l, list = some l) fun list => list = none := by
  refine performs_memNew.last ?_ ?_
  · rintro _ ⟨id, rfl⟩
    exact .pure ⟨_, rfl⟩
  · rintro _ rfl
    exact .pure rfl

/-- A list that could not be read is given back. -/
theorem performs_intoList {L : Type} {read : SessionM (L × ArakoonRc)} {free : L → SessionM Unit} {t : Script UInt8}
    (hread : Performs alloc read t (fun out => out.2 = 0) fun out => out.2 ≠ 0)
    (hfree : ∀ list, Idle (free list) fun _ => True) :
    Performs alloc (do
      let (result, rc) ← read
      if rc ≠ 0 then do
        free result
        pure (rc, none)
      else pure (rc, some result)) t (fun _ => True) fun _ => True := by
  refine hread.last ?_ ?_
  · rintro ⟨list, _⟩ rfl
    exact .success (.pure trivial)
  · rintro ⟨list, rc⟩ hrc
    exact .failure hrc ((hfree list).bind fun _ _ => .pure trivial)

theorem scripted_decodeList {ss : List Bytes} {bs : Bytes} (h : ListField StringField ss bs) :
    Scripted alloc (decodeList alloc) bs (1 + listNeeds ss) := by
  obtain ⟨hlength, words, hmany, rfl⟩ := h
  obtain ⟨rfl, hshort⟩ := word_items hmany
  have hneeded : needed ([.request] ++ ([.read (le32 ss.length)] ++ ss.flatMap itemScript)) = 1 + listNeeds ss := by
    rw [needed_list, needed_items]
  have hread : ∀ list, Performs alloc (readStringList alloc list) ([.read (le32 ss.length)] ++ ss.flatMap itemScript)
      (fun out => out.2 = 0) (fun out => out.2 ≠ 0) := by
    intro list
    refine (performs_readUInt32 0 hlength).bind ?_ fun _ h => h.elim
    rintro _ rfl
    exact performs_readStrings hshort list
  refine .intro rfl hneeded (performs_valueListNew.bind ?_ ?_)
  · rintro _ ⟨list, rfl⟩
    exact performs_intoList (hread list) idle_valueListFree
  · rintro _ rfl
    exact .pure trivial

theorem scripted_decodePairs {ps : List (Bytes × Bytes)} {bs : Bytes} (h : ListField PairField ps bs) :
    Scripted alloc (decodePairs alloc) bs (1 + pairsNeeds ps) := by
  obtain ⟨hlength, words, hmany, rfl⟩ := h
  obtain ⟨rfl, hshort⟩ := word_pairs hmany
  have hneeded : needed ([.request] ++ ([.read (le32 ps.length)] ++ ps.flatMap pairScript)) = 1 + pairsNeeds ps := by
    rw [needed_list, needed_pairs]
  have hread : ∀ list, Performs alloc (readStringStringList alloc list)
      ([.read (le32 ps.length)] ++ ps.flatMap pairScript) (fun out => out.2 = 0) (fun out => out.2 ≠ 0) := by
    intro list
    refine (performs_readUInt32 0 hlength).bind ?_ fun _ h => h.elim
    rintro _ rfl
    exact performs_readStringPairs hshort list
  refine .intro rfl hneeded (performs_keyValueListNew.bind ?_ ?_)
  · rintro _ ⟨list, rfl⟩
    exact performs_intoList (hread list) idle_keyValueListFree
  · rintro _ rfl
    exact .pure trivial

theorem scripted_decodeNothing : Scripted alloc decodeNothing [] 0 := .intro rfl rfl (.pure trivial)

theorem scripted_decodeBool {b : Bool} {bs : Bytes} (h : BoolField b bs) : Scripted alloc decodeBool bs 0 := by
  obtain ⟨mark, rfl, -⟩ := h
  have hread : Performs alloc readBool [.read [mark]] (fun _ => True) fun _ => True := by
    refine (performs_readBytes rfl).last ?_ fun _ h => h.elim
    rintro _ rfl
    exact .pure trivial
  exact .intro rfl rfl (hread.last (fun _ _ => .pure trivial) fun _ _ => .pure trivial)

theorem scripted_decodeUInt32 (result : Nat) {n : Nat} {bs : Bytes} (h : UInt32Field n bs) :
    Scripted alloc (decodeUInt32 result) bs 0 := by
  obtain ⟨hn, rfl⟩ := h
  refine .intro rfl rfl ((performs_readUInt32 result hn).last ?_ fun _ h => h.elim)
  rintro _ rfl
  exact .pure trivial

/-- Every operation reads the payloads of its kind by a script. -/
theorem scripted_decode (op : Operation) (result : op.kind.Out) {p : op.kind.Payload} {bs : Bytes}
    (h : op.kind.Word p bs) : Scripted alloc (Operation.decode alloc op result) bs (op.kind.needs p) := by
  cases op with
  | hello clientId clusterId => exact scripted_decodeText h
  | expectProgressPossible => exact scripted_decodeBool h
  | «exists» options key => exact scripted_decodeBool h
  | get options key => exact scripted_decodeString result h
  | multiGet options keys => exact scripted_decodeList h
  | range options bounds => exact scripted_decodeList h
  | keyPrefix options beginKey maxElements => exact scripted_decodeList h
  | rangeEntries options bounds => exact scripted_decodePairs h
  | revRangeEntries options bounds => exact scripted_decodePairs h
  | testAndSet key oldValue newValue => exact scripted_decodeStringOption result h
  | deletePrefix start => exact scripted_decodeUInt32 result h
  | version => exact scripted_decodeVersion result h
  | userFunction name arg => exact scripted_decodeUserFunction h
  | _ =>
      obtain rfl : bs = [] := h
      exact scripted_decodeNothing

/-! ### Replies and requests -/

/-- The requests for memory that an operation makes before it reads the last byte of a reply. -/
def Reply.needs {kind : ReplyKind} : Reply kind → Nat
  | .error _ message => stringNeeds message
  | .payload p => kind.needs p

theorem performs_handleError {rc : ArakoonRc} (hrc : rc ≠ 0) {message : Bytes} (hshort : Short message) :
    Performs alloc (handleError alloc rc) (stringScript message) (fun _ => True) fun _ => True := by
  rw [handleError, if_pos hrc]
  refine (performs_readString hshort .null).last ?_ ?_
  · rintro ⟨d, _⟩ ⟨-, rfl⟩
    refine .success ?_
    exact fun s => ⟨(), _, rfl, rfl, rfl, trivial⟩
  · rintro ⟨d, errRc⟩ herr
    dsimp only at herr ⊢
    rw [if_pos herr]
    exact .pure trivial

theorem scripted_clientReply {kind : ReplyKind} (failed : kind.Out) {decode : SessionM (ArakoonRc × kind.Out)}
    (hdecode : ∀ {p bs}, kind.Word p bs → Scripted alloc decode bs (kind.needs p)) {r : Reply kind} {bs : Bytes}
    (hr : r.Word bs) : Scripted alloc (clientReply alloc failed decode) bs r.needs := by
  cases r with
  | error code message =>
      obtain ⟨hne, hcode, _, ⟨hshort, rfl⟩, rfl⟩ := hr
      refine .intro (t := [.read (le32 code)] ++ stringScript message) ?_ (needed_stringScript message) ?_
      · rw [word_append, word_stringScript]
        rfl
      · refine (performs_readRc hcode).bind ?_ fun _ h => h.elim
        rintro rc hword
        have hrc : rc ≠ 0 := fun h => hne ((int32_eq_zero hcode).mp (hword.symm.trans h))
        rw [if_pos hrc]
        exact (performs_handleError hrc hshort).last (fun _ _ => .pure trivial) fun _ _ => .pure trivial
  | payload p =>
      obtain ⟨_, hp, rfl⟩ := hr
      obtain ⟨t, rfl, hneeded, hperforms⟩ := hdecode hp
      refine .intro (t := [.read (le32 0)] ++ t) rfl hneeded ((performs_readRc (by decide)).bind ?_ fun _ h => h.elim)
      intro rc hword
      obtain rfl : rc = 0 := hword.trans ((int32_eq_zero (by decide)).mpr rfl)
      have hskip : handleError alloc 0 = pure () := by
        rw [handleError, if_neg (not_ne_iff.mpr rfl)]
      rw [hskip, pure_bind, if_neg (not_ne_iff.mpr rfl)]
      exact hperforms

/-- Of an error, only the code is read. -/
theorem scripted_bareError {α : Type} (failed : α) (decode : SessionM (ArakoonRc × α)) {code : Nat} (hne : code ≠ 0)
    (hcode : code < 2 ^ 32) : Scripted alloc (bareReply failed decode) (le32 code) 0 := by
  refine .intro (t := [.read (le32 code)]) rfl rfl ((performs_readRc hcode).last ?_ fun _ h => h.elim)
  intro rc hword
  have hrc : rc ≠ 0 := fun h => hne ((int32_eq_zero hcode).mp (hword.symm.trans h))
  rw [if_pos hrc]
  exact .pure trivial

theorem scripted_barePayload {α : Type} (failed : α) {decode : SessionM (ArakoonRc × α)} {bs : Bytes} {n : Nat}
    (h : Scripted alloc decode bs n) : Scripted alloc (bareReply failed decode) (le32 0 ++ bs) n := by
  obtain ⟨t, rfl, hneeded, hperforms⟩ := h
  refine .intro (t := [.read (le32 0)] ++ t) rfl hneeded ((performs_readRc (by decide)).bind ?_ fun _ h => h.elim)
  intro rc hword
  obtain rfl : rc = 0 := hword.trans ((int32_eq_zero (by decide)).mpr rfl)
  rw [if_neg (not_ne_iff.mpr rfl)]
  exact hperforms

/-- What is read is the whole of the bytes if and only if the requests before the last of them are met. -/
theorem Scripted.reads_out {α : Type} {m : SessionM α} {bs : Bytes} {n : Nat} (h : Scripted alloc m bs n) {s : Session}
    {c : Conn} (hc : s.conn = some c) (hprompt : c.Prompt) {rest : Bytes} (hstream : c.stream = bs ++ rest) :
    Yields m s fun _ s' => ∃ c', s'.conn = some c' ∧
      (c'.stream = rest ↔ ∀ i < n, alloc (s.heap.calls + i) = true) := by
  obtain ⟨t, rfl, rfl, hperforms⟩ := h
  apply (hperforms s c rest hc hprompt hstream).mono
  intro a s' hout
  rw [← reads_out_iff]
  cases hstop : stop alloc s.heap.calls t with
  | none =>
      rw [hstop] at hout
      obtain ⟨⟨c', hc', hafter⟩, -⟩ := hout
      exact ⟨c', hc', iff_of_true hafter.stream fun left h => by cases h⟩
  | some left =>
      rw [hstop] at hout
      obtain ⟨⟨c', hc', hafter⟩, -⟩ := hout
      refine ⟨c', hc', ?_⟩
      rw [hafter.stream, List.append_left_eq_self]
      exact ⟨fun h left' heq => Option.some.inj heq ▸ h, fun h => h left rfl⟩

theorem ensures_clusterNodeWriteBytes_heap (bs : Bytes) (s : Session) :
    Ensures (clusterNodeWriteBytes bs) s fun _ s' => s'.heap = s.heap := by
  intro rc s' hrun
  cases hc : s.conn with
  | none =>
      simp only [clusterNodeWriteBytes, StateT.run, hc] at hrun
      obtain ⟨-, rfl⟩ := Prod.mk.inj (Option.some.inj hrun)
      rfl
  | some c =>
      simp only [clusterNodeWriteBytes, StateT.run, hc] at hrun
      obtain ⟨-, rfl⟩ := Prod.mk.inj (Option.some.inj hrun)
      rfl

theorem ensures_writeBytes_heap (bs : Bytes) (s : Session) :
    Ensures (writeBytes bs) s fun _ s' => s'.heap = s.heap := by
  refine (ensures_clusterNodeWriteBytes_heap bs s).bind fun rc s₁ hheap => ?_
  split_ifs
  · intro _ s' hrun
    obtain ⟨-, rfl⟩ := Prod.mk.inj (Option.some.inj hrun)
    exact hheap
  · exact .pure hheap

theorem ensures_multiGetKeys_heap (keys : List Bytes) (s : Session) :
    Ensures (multiGetKeys keys) s fun _ s' => s'.heap = s.heap := by
  induction keys generalizing s with
  | nil => exact .pure rfl
  | cons value keys ih =>
      refine (ensures_writeBytes_heap _ s).bind fun rc s₁ hsize => .ite (fun _ => .pure hsize) fun _ => ?_
      refine (ensures_writeBytes_heap _ s₁).bind fun rc s₂ hvalue => ?_
      have hheap : s₂.heap = s.heap := hvalue.trans hsize
      exact .ite (fun _ => .pure hheap) fun _ => (ih s₂).mono fun _ s' hrest => hrest.trans hheap

/-- Memory that is there is handed out as it would be if all memory were. -/
theorem memNew_run_met {s : Session} (h : alloc s.heap.calls = true) :
    (memNew alloc).run s = (memNew fun _ => true).run s := by
  rw [memNew_granted h, memNew_granted rfl]
  simp [Heap.malloc, h]

theorem sendBlock_run_met {s : Session} (h : alloc s.heap.calls = true) (write : Bytes → SessionM ArakoonRc)
    (block : Option Bytes) : (sendBlock alloc write block).run s = (sendBlock (fun _ => true) write block).run s := by
  rw [sendBlock, sendBlock, bind_run, bind_run, memNew_run_met h]

theorem ensures_memNew_calls (s : Session) :
    Ensures (memNew alloc) s fun _ s' => s'.heap.calls = s.heap.calls + 1 := by
  intro id s' hrun
  obtain ⟨-, rfl⟩ := Prod.mk.inj (Option.some.inj hrun)
  by_cases halloc : alloc s.heap.calls = true <;> simp [Heap.malloc, halloc]

/-- A block is one request for memory. -/
theorem ensures_sendBlock_calls {write : Bytes → SessionM ArakoonRc}
    (hwrite : ∀ bs s, Ensures (write bs) s fun _ s' => s'.heap = s.heap) (block : Option Bytes) (s : Session) :
    Ensures (sendBlock alloc write block) s fun _ s' => s'.heap.calls = s.heap.calls + 1 := by
  refine (ensures_memNew_calls s).bind fun id s₁ hcalls => ?_
  cases id with
  | none => exact .pure hcalls
  | some command =>
      cases block with
      | none => exact fun _ _ hrun => by cases hrun
      | some bs =>
          have hblock : assertAllWritten (some bs) = pure bs := rfl
          dsimp only
          rw [hblock, pure_bind]
          refine (hwrite bs s₁).bind fun rc s₂ hheap => ?_
          intro _ s' hrun
          obtain ⟨-, rfl⟩ := Prod.mk.inj (Option.some.inj hrun)
          have hkept : (s₂.heap.free (.block command)).calls = s₂.heap.calls := rfl
          exact hkept.trans (hheap ▸ hcalls)

/-- How many requests for memory send the request. -/
def Operation.sendNeeds : Operation → Nat
  | .multiGet _ _ => 2
  | _ => 1

theorem sendMultiGet_run_met {s : Session} (hblock : alloc s.heap.calls = true)
    (hiter : alloc (s.heap.calls + 1) = true) (options : Option ClientCallOptions) (keys : List Bytes) :
    (sendMultiGet alloc options keys).run s = (sendMultiGet (fun _ => true) options keys).run s := by
  have hsent : Ensures (sendCommand (fun _ => true) (multiGetCommand options keys)) s
      fun _ s₁ => s₁.heap.calls = s.heap.calls + 1 := ensures_sendBlock_calls ensures_writeBytes_heap _ s
  refine Ensures.bind_congr (sendBlock_run_met hblock writeBytes _) (hsent.mono fun rc s₁ hcalls => ?_)
  have hmet : alloc s₁.heap.calls = true := hcalls ▸ hiter
  split_ifs
  · rfl
  · rw [bind_run, bind_run, memNew_run_met hmet]

theorem ensures_sendMultiGet_calls (options : Option ClientCallOptions) (keys : List Bytes) (s : Session) :
    Ensures (sendMultiGet alloc options keys) s fun rc s' => rc = 0 → s'.heap.calls = s.heap.calls + 2 := by
  refine (ensures_sendBlock_calls ensures_writeBytes_heap _ s).bind fun rc s₁ hcalls => ?_
  refine .ite (fun hrc => .pure fun hzero => absurd hzero hrc) fun _ => ?_
  refine (ensures_memNew_calls s₁).bind fun id s₂ hiter => ?_
  cases id with
  | none => exact .pure fun _ => by rw [hiter, hcalls]
  | some iter =>
      refine (ensures_multiGetKeys_heap keys s₂).bind fun rc s₃ hheap => ?_
      refine .ite (fun hrc => .pure fun hzero => absurd hzero hrc) fun _ => ?_
      intro _ s' hrun _
      obtain ⟨-, rfl⟩ := Prod.mk.inj (Option.some.inj hrun)
      have hkept : (s₃.heap.free (.block iter)).calls = s₃.heap.calls := rfl
      rw [hkept, hheap, hiter, hcalls]

/-- With the memory for it and a peer that takes everything, the request is sent. -/
theorem yields_send_met {op : Operation} {frame : Bytes} (hframe : op.frame = some frame) {s : Session} {c : Conn}
    (hc : s.conn = some c) (hwrites : ∀ n < op.writeCount, c.peer.writes (c.writes + n) = .complete)
    (hmet : ∀ i < op.sendNeeds, alloc (s.heap.calls + i) = true) :
    Yields (Operation.send alloc op) s fun rc s' => rc = 0 ∧ s'.heap.calls = s.heap.calls + op.sendNeeds ∧
      ∃ c', s'.conn = some c' ∧ c.Wrote c' frame op.writeCount := by
  have hwrite : ∀ bs s, Ensures ((if op.writesUnchecked then clusterNodeWriteBytes else writeBytes) bs) s
      fun _ s' => s'.heap = s.heap := by
    intro bs s
    split_ifs
    · exact ensures_clusterNodeWriteBytes_heap bs s
    · exact ensures_writeBytes_heap bs s
  obtain ⟨hrun, hcalls⟩ : (Operation.send alloc op).run s = (Operation.send (fun _ => true) op).run s ∧
      Ensures (Operation.send alloc op) s fun rc s' => rc = 0 → s'.heap.calls = s.heap.calls + op.sendNeeds := by
    cases op with
    | multiGet options keys =>
        exact ⟨sendMultiGet_run_met (hmet 0 Nat.zero_lt_two) (hmet 1 Nat.one_lt_two) options keys,
          ensures_sendMultiGet_calls options keys s⟩
    | _ =>
        exact ⟨sendBlock_run_met (hmet 0 Nat.one_pos) _ _,
          (ensures_sendBlock_calls hwrite _ s).mono fun _ _ hcalls _ => hcalls⟩
  obtain ⟨rc, s', hsend, hdispatch⟩ := yields_send (fun _ => rfl) hframe hc
  have hrc : rc = 0 := by
    by_contra hrc
    exact not_unsent hwrites hrc hdispatch
  obtain ⟨c', hconn, hwrote, -⟩ := hdispatch.sent hrc
  exact ⟨rc, s', hrun.trans hsend, hrc, hcalls rc s' (hrun.trans hsend) hrc, c', hconn, hwrote⟩

end Decoders

/-- Nothing is left of a reply: the node is not connected, or what comes next on its connection is what came behind the
reply. -/
def World.ReadPast (w : World) (k : NodeId) (rest : Bytes) : Prop :=
  ∀ c, (w.cluster.node k).conn = some c → c.stream = rest

/-- The outcome of a session that leaves its connection open, on a stream that satisfies `P`. -/
def StreamLeft {α : Type} (m : SessionM α) (s : Session) (P : Bytes → Prop) : Prop :=
  Yields m s fun _ s' => ∃ c', s'.conn = some c' ∧ P c'.stream

section Operations

variable {alloc : Nat → Bool} {w : World} {k : NodeId} (hmaster : w.cluster.master = some k) {c : Conn}
  (hconn : (w.cluster.node k).conn = some c) (hprompt : c.Prompt)

include hmaster hconn in
theorem readPast_of_session {α : Type} {missing : α} {body : SessionM (ArakoonRc × α)} {rest : Bytes} {P : Prop}
    (h : StreamLeft body (w.reset.session k) fun stream => stream = rest ↔ P) :
    ∃ out w', (withMaster missing body).run w = some (out, w') ∧ (w'.ReadPast k rest ↔ P) := by
  obtain ⟨out, s', hrun, c', hc', hstream⟩ := h
  have hnode : ((w.reset.update k s').cluster.node k).conn = some c' := by
    simp [World.update, Cluster.setNode, hc']
  refine ⟨out, w.reset.update k s', ?_, ?_⟩
  · rw [withMaster_some (getMaster_eq_some.mpr ⟨hmaster, c, hconn⟩)]
    change Option.map _ _ = _
    rw [hrun]
    rfl
  · rw [← hstream]
    constructor
    · exact fun hpast => hpast c' hnode
    · rintro hrest c₁ hc₁
      obtain rfl := Option.some.inj (hnode.symm.trans hc₁)
      exact hrest

include hprompt in
theorem streamLeft_operation {op : Operation} (result : op.kind.Out) {frame : Bytes} (hframe : op.frame = some frame)
    {s : Session} (hc : s.conn = some c) (hwrites : ∀ n < op.writeCount, c.peer.writes (c.writes + n) = .complete)
    (hmet : ∀ i < op.sendNeeds, alloc (s.heap.calls + i) = true) {r : Reply op.kind} {bs rest : Bytes}
    (hr : r.Word bs) (hstream : c.inbox ++ c.peer.answers c.turns (c.pending ++ frame) = bs ++ rest) :
    StreamLeft (clientOperation alloc (op.early result) (op.failed result) (Operation.send alloc op)
      (Operation.decode alloc op result)) s
      fun stream => stream = rest ↔ ∀ i < r.needs, alloc (s.heap.calls + op.sendNeeds + i) = true := by
  apply (yields_send_met hframe hc hwrites hmet).bind
  rintro rc s₁ ⟨rfl, hcalls, c₁, hconn₁, hwrote⟩
  have hne : frame ≠ [] := by
    obtain ⟨rest, rfl⟩ := Operation.frame_begins hframe
    exact List.cons_ne_nil _ _
  have hprompt₁ : c₁.Prompt := fun n => hwrote.peer ▸ hprompt n
  rw [if_neg (not_ne_iff.mpr rfl), ← hcalls]
  exact (scripted_clientReply (op.failed result) (scripted_decode op result) hr).reads_out hconn₁ hprompt₁
    ((hwrote.stream hne).trans hstream)

include hprompt in
/-- The message of an error is not read after a request for the master. -/
theorem streamLeft_whoMaster (master : Data) {s : Session} (hc : s.conn = some c)
    (hwrites : c.peer.writes c.writes = .complete) (hmet : alloc s.heap.calls = true) {r : Reply .stringOption}
    {bs rest : Bytes} (hr : r.Word bs)
    (hstream : c.inbox ++ c.peer.answers c.turns (c.pending ++ whoMasterFrame) = bs ++ rest) :
    StreamLeft (clusterNodeWhoMaster alloc master) s
      fun stream => stream = rest ↔ (∃ p, r = .payload p) ∧ ∀ i < r.needs, alloc (s.heap.calls + 1 + i) = true := by
  have hsend : Yields (sendCommand alloc whoMasterCommand) s fun rc s' => rc = 0 ∧
      s'.heap.calls = s.heap.calls + 1 ∧ ∃ c', s'.conn = some c' ∧ c.Wrote c' whoMasterFrame 1 := by
    have hframe : whoMasterCommand.assembled = some whoMasterFrame := rfl
    obtain ⟨rc, s', hrun, hdispatch⟩ :=
      yields_sendBlock (fun _ => rfl) (fun _ => yields_writeBytes whoMasterFrame) hc
    have hcalls : Ensures (sendCommand alloc whoMasterCommand) s fun _ s' => s'.heap.calls = s.heap.calls + 1 :=
      ensures_sendBlock_calls ensures_writeBytes_heap _ s
    have hsent : (sendCommand alloc whoMasterCommand).run s = some (rc, s') := by
      rw [sendCommand, hframe, sendBlock_run_met hmet, hrun]
    have hrc : rc = 0 := by
      by_contra hrc
      cases hdispatch with
      | whole c' hzero => exact hrc hzero
      | closed _ _ _ stopped =>
          obtain ⟨n, hn, hstopped⟩ := stopped
          obtain rfl : n = 0 := Nat.lt_one_iff.mp hn
          exact hstopped hwrites
      | partly moved failure hleft => cases hleft
    obtain ⟨c', hconn, hwrote, -⟩ := hdispatch.sent hrc
    exact ⟨rc, s', hsent, hrc, hcalls rc s' hsent, c', hconn, hwrote⟩
  apply hsend.bind
  rintro rc s₁ ⟨rfl, hcalls, c₁, hconn₁, hwrote⟩
  have hprompt₁ : c₁.Prompt := fun n => hwrote.peer ▸ hprompt n
  have hstream₁ : c₁.stream = bs ++ rest := (hwrote.stream (by decide)).trans hstream
  rw [if_neg (not_ne_iff.mpr rfl), ← hcalls]
  cases r with
  | error code message =>
      obtain ⟨hne, hcode, _, ⟨-, rfl⟩, rfl⟩ := hr
      rw [List.append_assoc] at hstream₁
      have hscript : Scripted alloc (bareReply master (decodeMaster alloc)) (le32 code) 0 :=
        scripted_bareError master _ hne hcode
      apply (hscript.reads_out hconn₁ hprompt₁ hstream₁).mono
      rintro _ s' ⟨c', hc', hleft⟩
      refine ⟨c', hc', iff_of_false (fun hrest => ?_) fun h => by cases h.1.choose_spec⟩
      have hall := hleft.mpr fun i hi => absurd hi (Nat.not_lt_zero i)
      rw [hrest, List.self_eq_append_left] at hall
      exact writeString_ne_nil message hall
  | payload p =>
      obtain ⟨_, hp, rfl⟩ := hr
      apply ((scripted_barePayload master (scripted_decodeMaster hp)).reads_out hconn₁ hprompt₁ hstream₁).mono
      rintro _ s' ⟨c', hc', hleft⟩
      exact ⟨c', hc', hleft.trans ⟨fun h => ⟨⟨p, rfl⟩, h⟩, fun h => h.2⟩⟩

include hmaster hconn hprompt in
/-- When an operation returns that has sent its request, either the connection is closed or the whole reply has been
read, if and only if the requests for memory that are made before the last byte of the reply is read are met. For
`arakoon_who_master` the reply must not be an error either. -/
theorem decoding_in_step_iff :
    (∀ (op : Operation) (result : op.kind.Out) (frame : Bytes) (r : Reply op.kind) (bs rest : Bytes),
      op.frame = some frame → (∀ n < op.writeCount, c.peer.writes (c.writes + n) = .complete) →
      (∀ i < op.sendNeeds, alloc (w.heap.calls + i) = true) → r.Word bs →
      c.inbox ++ c.peer.answers c.turns (c.pending ++ frame) = bs ++ rest →
      ∃ out w', (Operation.run alloc op result).run w = some (out, w') ∧
        (w'.ReadPast k rest ↔ ∀ i < r.needs, alloc (w.heap.calls + op.sendNeeds + i) = true)) ∧
    (∀ (master : Data) (r : Reply .stringOption) (bs rest : Bytes), c.peer.writes c.writes = .complete →
      alloc w.heap.calls = true → r.Word bs →
      c.inbox ++ c.peer.answers c.turns (c.pending ++ whoMasterFrame) = bs ++ rest →
      ∃ out w', (arakoonWhoMaster alloc master).run w = some (out, w') ∧
        (w'.ReadPast k rest ↔ (∃ p, r = .payload p) ∧ ∀ i < r.needs, alloc (w.heap.calls + 1 + i) = true)) := by
  have hsession : (w.reset.session k).conn = some c := hconn
  constructor
  · intro op result frame r bs rest hframe hwrites hmet hr hstream
    rw [Operation.run_eq]
    exact readPast_of_session hmaster hconn
      (streamLeft_operation hprompt result hframe hsession hwrites hmet hr hstream)
  · intro master r bs rest hwrites hmet hr hstream
    exact readPast_of_session hmaster hconn (streamLeft_whoMaster hprompt master hsession hwrites hmet hr hstream)

end Operations

/-- The memory for the message of an error is there. `arakoon_get` reads the whole error, and `arakoon_who_master` its
code only. -/
theorem decoding_in_step_iff_error :
    let w := World.connected sampleName (.answering errorReply)
    (∃ out w', (Operation.run (fun n => decide (n < 2)) (.get none [107]) Data.null).run w = some (out, w') ∧
      w'.ReadPast 0 []) ∧
    ∃ out w', (arakoonWhoMaster (fun n => decide (n < 2)) .null).run w = some (out, w') ∧ ¬w'.ReadPast 0 [] := by
  intro w
  have hconn : (w.cluster.node 0).conn = some (.fresh (.answering errorReply)) := rfl
  have hgranted : ∀ {offset n : Nat}, offset + n ≤ 2 → ∀ i < n, decide (offset + i < 2) = true :=
    fun hle i hi => decide_eq_true (Nat.lt_of_lt_of_le (Nat.add_lt_add_left hi _) hle)
  obtain ⟨hoperation, hwhoMaster⟩ :=
    @decoding_in_step_iff (fun n => decide (n < 2)) w 0 rfl _ hconn fun _ => rfl
  constructor
  · obtain ⟨out, w', hrun, hiff⟩ := hoperation (.get none [107]) Data.null _ (.error 4 [120]) errorReply [] rfl
      (fun _ _ => rfl) (hgranted (by decide)) (errorReply_word _) rfl
    exact ⟨out, w', hrun, hiff.mpr (hgranted (by decide))⟩
  · obtain ⟨out, w', hrun, hiff⟩ := hwhoMaster .null (.error 4 [120]) errorReply [] rfl rfl (errorReply_word _) rfl
    exact ⟨out, w', hrun, fun hpast => by cases (hiff.mp hpast).1.choose_spec⟩

/-- There is no memory for a value of three bytes. `arakoon_get` returns with the connection open and the value on
it. -/
theorem value_left_behind :
    let reply := le32 0 ++ writeString [97, 98, 99]
    let w := World.connected sampleName (.answering reply)
    ∃ w', (arakoonGet (fun n => decide (n ≠ 1)) none [107] .null).run w = some ((enomem, .null), w') ∧
      (Reply.payload [97, 98, 99] : Reply .string).Word reply ∧ ¬w'.ReadPast 0 [] := by
  refine ⟨_, rfl, ⟨_, ⟨by decide, rfl⟩, rfl⟩, fun hpast => ?_⟩
  cases hpast _ rfl

end Crakoon
