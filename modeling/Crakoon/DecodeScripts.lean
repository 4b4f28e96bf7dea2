import Crakoon.Decode
import Crakoon.Scripts

/-!
# What the decoders read and ask for

Requests for memory lie between the reads of every decoder. `Performs` says of one which requests and which reads it
makes, in which order, on a connection on which the bytes that it reads arrive; at the first request that is refused
it stops, with the rest of the bytes unread and the connection open.
-/

namespace Crakoon

open Programs Reading Scripts

section Relation

variable {α β : Type}

/-- The program neither reads nor asks for memory. -/
def Idle (m : SessionM α) (P : α → Prop) : Prop :=
  ∀ s, Yields m s fun a s' => s'.conn = s.conn ∧ s'.heap.calls = s.heap.calls ∧ P a

theorem Idle.pure {a : α} {P : α → Prop} (h : P a) : Idle (Pure.pure a) P := fun _ => Yields.pure ⟨rfl, rfl, h⟩

theorem Idle.failure {rc : ArakoonRc} (hrc : rc ≠ 0) {m m' : SessionM α} {P : α → Prop} (h : Idle m P) :
    Idle (if rc ≠ 0 then m else m') P := by
  rwa [if_pos hrc]

theorem Idle.success {m m' : SessionM α} {P : α → Prop} (h : Idle m' P) :
    Idle (if (0 : ArakoonRc) ≠ 0 then m else m') P := by
  rwa [if_neg (not_ne_iff.mpr rfl)]

theorem Idle.bind {m : SessionM α} {f : α → SessionM β} {P : α → Prop} {Q : β → Prop} (hm : Idle m P)
    (hf : ∀ a, P a → Idle (f a) Q) : Idle (m >>= f) Q := by
  intro s
  apply (hm s).bind
  rintro a s₁ ⟨hconn, hcalls, ha⟩
  apply (hf a ha s₁).mono
  rintro b s' ⟨hconn', hcalls', hb⟩
  exact ⟨hconn'.trans hconn, hcalls'.trans hcalls, hb⟩

/-- On a connection on which the bytes of the script arrive, the program follows it: to its end if every request for
memory is met, and otherwise to the first that is not. -/
def Performs (alloc : Nat → Bool) (m : SessionM α) (t : Script UInt8) (done failed : α → Prop) : Prop :=
  ∀ s c rest, s.conn = some c → c.Prompt → c.stream = word t ++ rest → Yields m s fun a s' =>
    match stop alloc s.heap.calls t with
    | none => (∃ c', s'.conn = some c' ∧ c.After c' rest) ∧ s'.heap.calls = s.heap.calls + requests t ∧ done a
    | some left => (∃ c', s'.conn = some c' ∧ c.After c' (word left ++ rest)) ∧ failed a

variable {alloc : Nat → Bool} {m : SessionM α} {t t' : Script UInt8} {done failed : α → Prop}

theorem Performs.idle (h : Idle m done) : Performs alloc m [] done failed := by
  intro s c rest hc _ hstream
  apply (h s).mono
  rintro a s' ⟨hconn, hcalls, ha⟩
  exact ⟨⟨c, hconn.trans hc, rfl, rfl, hstream, .inr rfl⟩, hcalls, ha⟩

theorem Performs.pure {a : α} (h : done a) : Performs alloc (Pure.pure a) [] done failed := .idle (.pure h)

theorem Performs.success {m' : SessionM α} (h : Performs alloc m' t done failed) :
    Performs alloc (if (0 : ArakoonRc) ≠ 0 then m else m') t done failed := by
  rwa [if_neg (not_ne_iff.mpr rfl)]

theorem Performs.bind {f : α → SessionM β} {done' failed' : β → Prop} (hm : Performs alloc m t done failed)
    (hdone : ∀ a, done a → Performs alloc (f a) t' done' failed') (hfailed : ∀ a, failed a → Idle (f a) failed') :
    Performs alloc (m >>= f) (t ++ t') done' failed' := by
  intro s c rest hc hprompt hstream
  rw [word_append, List.append_assoc] at hstream
  apply (hm s c (word t' ++ rest) hc hprompt hstream).bind
  intro a s₁ hfirst
  rw [stop_append]
  cases hstop : stop alloc s.heap.calls t with
  | none =>
      rw [hstop] at hfirst
      obtain ⟨⟨c₁, hc₁, hafter⟩, hcalls, ha⟩ := hfirst
      have hprompt₁ : c₁.Prompt := fun n => hafter.peer ▸ hprompt n
      apply (hdone a ha s₁ c₁ rest hc₁ hprompt₁ hafter.stream).mono
      intro b s' hrest
      rw [hcalls] at hrest
      dsimp only
      cases hstop' : stop alloc (s.heap.calls + requests t) t' with
      | none =>
          rw [hstop'] at hrest
          obtain ⟨⟨c', hc', hafter'⟩, hcalls', hb⟩ := hrest
          refine ⟨⟨c', hc', hafter.trans hafter'⟩, ?_, hb⟩
          rw [hcalls', requests_append, Nat.add_assoc]
      | some left =>
          rw [hstop'] at hrest
          obtain ⟨⟨c', hc', hafter'⟩, hb⟩ := hrest
          exact ⟨⟨c', hc', hafter.trans hafter'⟩, hb⟩
  | some left =>
      rw [hstop] at hfirst
      obtain ⟨⟨c₁, hc₁, hafter⟩, ha⟩ := hfirst
      apply (hfailed a ha s₁).mono
      rintro b s' ⟨hconn, -, hb⟩
      dsimp only
      rw [word_append, List.append_assoc]
      exact ⟨⟨c₁, hconn.trans hc₁, hafter⟩, hb⟩

theorem Performs.mono {done' failed' : α → Prop} (hm : Performs alloc m t done failed) (hdone : ∀ a, done a → done' a)
    (hfailed : ∀ a, failed a → failed' a) : Performs alloc m t done' failed' := by
  intro s c rest hc hprompt hstream
  apply (hm s c rest hc hprompt hstream).mono
  intro a s'
  cases stop alloc s.heap.calls t with
  | none =>
      rintro ⟨hconn, hcalls, ha⟩
      exact ⟨hconn, hcalls, hdone a ha⟩
  | some left =>
      rintro ⟨hconn, ha⟩
      exact ⟨hconn, hfailed a ha⟩

/-- A program that is the last to read or to ask for memory. -/
theorem Performs.last {f : α → SessionM β} {done' failed' : β → Prop} (hm : Performs alloc m t done failed)
    (hdone : ∀ a, done a → Idle (f a) done') (hfailed : ∀ a, failed a → Idle (f a) failed') :
    Performs alloc (m >>= f) t done' failed' := by
  rw [← List.append_nil t]
  exact hm.bind (fun a ha => .idle (hdone a ha)) hfailed

/-- What neither reads nor asks for memory may come before. -/
theorem Performs.after {l : SessionM β} {f : β → SessionM α} {P : β → Prop} (hl : Idle l P)
    (hf : ∀ b, P b → Performs alloc (f b) t done failed) : Performs alloc (l >>= f) t done failed := by
  have hfirst : Performs alloc l [] P fun _ => False := .idle hl
  exact hfirst.bind hf fun _ h => h.elim

end Relation

theorem idle_memFree (p : Ptr) : Idle (memFree p) fun _ => True := fun _ => ⟨(), _, rfl, rfl, rfl, trivial⟩

theorem idle_memMaybeFree (d : Data) : Idle (memMaybeFree d) fun _ => True := by
  unfold memMaybeFree
  split_ifs
  · exact idle_memFree d.ptr
  · exact .pure trivial

theorem idle_valueListFree (list : ValueList) : Idle (valueListFree list) fun _ => True := by
  have hitems : ∀ items, Idle (valueListItemsFree items) fun _ => True := by
    intro items
    induction items with
    | nil => exact .pure trivial
    | cons item items ih => exact (idle_memMaybeFree item.value).bind fun _ _ => (idle_memFree _).bind fun _ _ => ih
  exact (hitems list.items).bind fun _ _ => idle_memFree _

theorem idle_keyValueListFree (list : KeyValueList) : Idle (keyValueListFree list) fun _ => True := by
  have hitems : ∀ items, Idle (keyValueListItemsFree items) fun _ => True := by
    intro items
    induction items with
    | nil => exact .pure trivial
    | cons item items ih =>
        exact (idle_memMaybeFree item.key).bind fun _ _ =>
          (idle_memMaybeFree item.value).bind fun _ _ => (idle_memFree _).bind fun _ _ => ih
  exact (hitems list.items).bind fun _ _ => idle_memFree _

section Decoders

variable {alloc : Nat → Bool}

theorem performs_memNew :
    Performs alloc (memNew alloc) [.request] (fun id => ∃ b, id = some b) (fun id => id = none) := by
  intro s c rest hc _ hstream
  refine ⟨_, _, rfl, ?_⟩
  rw [stop]
  cases halloc : alloc s.heap.calls with
  | true => exact ⟨⟨c, hc, rfl, rfl, hstream, .inr rfl⟩, by simp [Heap.malloc, halloc], by simp [Heap.malloc, halloc]⟩
  | false => exact ⟨⟨c, hc, rfl, rfl, hstream, .inr rfl⟩, by simp [Heap.malloc, halloc]⟩

theorem performs_memRealloc (p : Ptr) :
    Performs alloc (memRealloc alloc p) [.request] (fun id => ∃ b, id = some b) (fun id => id = none) := by
  intro s c rest hc _ hstream
  refine ⟨_, _, rfl, ?_⟩
  rw [stop]
  cases halloc : alloc s.heap.calls with
  | true => exact ⟨⟨c, hc, rfl, rfl, hstream, .inr rfl⟩, by simp [Heap.realloc, halloc], by simp [Heap.realloc, halloc]⟩
  | false => exact ⟨⟨c, hc, rfl, rfl, hstream, .inr rfl⟩, by simp [Heap.realloc, halloc]⟩

theorem performs_readBytes {n : Nat} {bs : Bytes} (hlength : bs.length = n) :
    Performs alloc (readBytes n) [.read bs] (fun out => out = (0, bs)) fun _ => False := by
  intro s c rest hc hprompt hstream
  rw [word, word, List.append_nil] at hstream
  have hn : n ≤ c.stream.length := by
    rw [hstream, List.length_append]
    omega
  have hpoll : networkingPollRead n c = ((0, c.stream.take n), c.take n) := by
    simp [networkingPollRead, hprompt c.reads, hn, ArakoonReturnCode.rc]
  have htaken : c.stream.take n = bs := by rw [hstream, ← hlength, List.take_left]
  have hrest : c.stream.drop n = rest := by rw [hstream, ← hlength, List.drop_left]
  refine ⟨_, _, readBytes_run hc n, ?_⟩
  rw [hpoll, htaken]
  exact ⟨⟨c.take n, rfl, hrest ▸ c.take_after n⟩, rfl, rfl⟩

theorem performs_readUInt32 (r : Nat) {n : Nat} (hn : n < 2 ^ 32) :
    Performs alloc (readUInt32 r) [.read (le32 n)] (fun out => out = (n, 0)) fun _ => False := by
  refine (performs_readBytes (le32_length n)).last ?_ fun _ h => h.elim
  rintro _ rfl
  refine .pure ?_
  rw [ofLe32_le32_of_lt hn]

theorem performs_readInt32 (r : Int) {bs : Bytes} (hlength : bs.length = 4) :
    Performs alloc (readInt32 r) [.read bs] (fun out => out.2 = 0) fun _ => False := by
  refine (performs_readBytes hlength).last ?_ fun _ h => h.elim
  rintro _ rfl
  exact .pure rfl

theorem performs_readRc {code : Nat} (hcode : code < 2 ^ 32) :
    Performs alloc readRc [.read (le32 code)] (fun rc => rc = int32 code) fun _ => False := by
  refine (performs_readUInt32 0 hcode).last ?_ fun _ h => h.elim
  rintro _ rfl
  exact .pure rfl

/-! ### Strings and lists -/

def stringScript (bs : Bytes) : Script UInt8 := .read (le32 bs.length) :: if bs = [] then [] else [.request, .read bs]

theorem word_stringScript (bs : Bytes) : word (stringScript bs) = writeString bs := by
  by_cases h : bs = []
  · subst h
    rfl
  · simp [stringScript, h, writeString, writeUInt32]

theorem stringScript_of_ne {bs : Bytes} (h : bs ≠ []) :
    stringScript bs = [.read (le32 bs.length)] ++ ([.request] ++ [.read bs]) := by
  rw [stringScript, if_neg h]
  rfl

/-- A string is read behind its length, into a block of its own unless it is empty. -/
theorem performs_readString {bs : Bytes} (hshort : Short bs) (a : Data) :
    Performs alloc (readString alloc a 0) (stringScript bs) (fun out => out.1.value = some bs ∧ out.2 = 0)
      (fun out => out.2 ≠ 0) := by
  by_cases hbs : bs = []
  · subst hbs
    refine (performs_readUInt32 0 hshort).last ?_ fun _ h => h.elim
    rintro _ rfl
    exact .pure ⟨rfl, rfl⟩
  · rw [stringScript_of_ne hbs]
    refine (performs_readUInt32 0 hshort).bind ?_ fun _ h => h.elim
    rintro _ rfl
    dsimp only
    rw [if_neg (not_ne_iff.mpr rfl), if_neg fun hlength => hbs (List.length_eq_zero_iff.mp hlength)]
    refine performs_memNew.bind ?_ ?_
    · rintro _ ⟨id, rfl⟩
      refine (performs_readBytes rfl).last ?_ fun _ h => h.elim
      rintro _ rfl
      exact .pure ⟨rfl, rfl⟩
    · rintro _ rfl
      exact .pure enomem_ne_zero

def stringOptionScript (mark : UInt8) : Option Bytes → Script UInt8
  | none => [.read [mark]]
  | some bs => .read [mark] :: stringScript bs

variable (alloc) in
/-- The optional string behind a mark that says whether there is one. -/
theorem performs_readStringOption (a : Data) {o : Option Bytes} {bs : Bytes} (h : StringOptionField o bs) :
    ∃ mark, word (stringOptionScript mark o) = bs ∧ Performs alloc (readStringOption alloc a 0)
      (stringOptionScript mark o) (fun out => out.1.value = o ∧ out.2 = 0) (fun out => out.2 ≠ 0) := by
  cases o with
  | none =>
      obtain rfl : bs = [boolFalse] := h
      refine ⟨boolFalse, rfl, (performs_readBytes rfl).last ?_ fun _ h => h.elim⟩
      rintro _ rfl
      exact .pure ⟨rfl, rfl⟩
  | some s =>
      obtain ⟨mark, _, hmark, ⟨hshort, rfl⟩, rfl⟩ := h
      refine ⟨mark, congrArg (List.cons mark) (word_stringScript s), ?_⟩
      have hmarked : [mark] ≠ [0] := fun h => hmark (List.singleton_inj.mp h)
      refine Performs.bind (t := [.read [mark]]) (performs_readBytes rfl) ?_ fun _ h => h.elim
      rintro _ rfl
      dsimp only
      rw [if_neg (not_ne_iff.mpr rfl), if_neg hmarked]
      exact performs_readString hshort a

/-- The copy that a list makes of a string. -/
def copyScript (bs : Bytes) : Script UInt8 := if bs = [] then [] else [.request]

theorem word_copyScript (bs : Bytes) : word (copyScript bs) = [] := by
  rw [copyScript]
  split_ifs <;> rfl

theorem performs_copyValue {d : Data} {bs : Bytes} (hd : d.value = some bs) :
    Performs alloc (copyValue alloc d) (copyScript bs) (fun out => ∃ copy, out = some copy)
      (fun out => out = none) := by
  have hsize : d.size = bs.length := by cases d <;> simp_all [Data.value, Data.size]
  by_cases hbs : bs = []
  · rw [copyValue, if_pos (by rw [hsize, hbs]; rfl), copyScript, if_pos hbs]
    exact .pure ⟨_, rfl⟩
  · rw [copyValue, if_neg fun hzero => hbs (List.length_eq_zero_iff.mp (hsize.symm.trans hzero)), copyScript,
      if_neg hbs]
    refine performs_memNew.last ?_ ?_
    · rintro _ ⟨id, rfl⟩
      exact .pure ⟨_, rfl⟩
    · rintro _ rfl
      exact .pure rfl

theorem performs_valueListPrepend (list : ValueList) {d : Data} {bs : Bytes} (hd : d.value = some bs) :
    Performs alloc (valueListPrepend alloc list d) ([.request] ++ copyScript bs) (fun out => out.2 = 0)
      (fun out => out.2 ≠ 0) := by
  refine performs_memNew.bind ?_ ?_
  · rintro _ ⟨item, rfl⟩
    refine (performs_copyValue hd).last ?_ ?_
    · rintro _ ⟨copy, rfl⟩
      exact .pure rfl
    · rintro _ rfl
      exact (idle_memFree _).bind fun _ _ => .pure enomem_ne_zero
  · rintro _ rfl
    exact .pure enomem_ne_zero

theorem performs_keyValueListPrepend (list : KeyValueList) {k v : Data} {key value : Bytes} (hk : k.value = some key)
    (hv : v.value = some value) :
    Performs alloc (keyValueListPrepend alloc list k v) ([.request] ++ (copyScript key ++ copyScript value))
      (fun out => out.2 = 0) (fun out => out.2 ≠ 0) := by
  refine performs_memNew.bind ?_ ?_
  · rintro _ ⟨item, rfl⟩
    refine (performs_copyValue hk).bind ?_ ?_
    · rintro _ ⟨keyCopy, rfl⟩
      refine (performs_copyValue hv).last ?_ ?_
      · rintro _ ⟨valueCopy, rfl⟩
        exact .pure rfl
      · rintro _ rfl
        exact (idle_memFree _).bind fun _ _ => (idle_memFree _).bind fun _ _ => .pure enomem_ne_zero
    · rintro _ rfl
      exact (idle_memFree _).bind fun _ _ => .pure enomem_ne_zero
  · rintro _ rfl
    exact .pure enomem_ne_zero

/-- A string of a list, with the item and the copy that it is put into once it has been read. -/
def itemScript (bs : Bytes) : Script UInt8 := stringScript bs ++ ([.request] ++ copyScript bs)

def pairScript (p : Bytes × Bytes) : Script UInt8 :=
  stringScript p.1 ++ (stringScript p.2 ++ ([.request] ++ (copyScript p.1 ++ copyScript p.2)))

theorem performs_readStrings {ss : List Bytes} (hshort : ∀ s ∈ ss, Short s) (a : ValueList) :
    Performs alloc (readStrings alloc ss.length a 0) (ss.flatMap itemScript) (fun out => out.2 = 0)
      (fun out => out.2 ≠ 0) := by
  induction ss generalizing a with
  | nil => exact .pure rfl
  | cons s ss ih =>
      rw [List.flatMap_cons, itemScript, List.append_assoc]
      refine (performs_readString (hshort s List.mem_cons_self) .null).bind ?_ ?_
      · rintro ⟨d, _⟩ ⟨hvalue, rfl⟩
        refine .success ?_
        refine (performs_valueListPrepend a hvalue).bind ?_ ?_
        · rintro ⟨list, _⟩ rfl
          refine .after (idle_memMaybeFree d) fun _ _ => ?_
          refine .success ?_
          exact ih (fun s' hs' => hshort s' (List.mem_cons_of_mem s hs')) list
        · rintro ⟨list, rc⟩ hrc
          refine (idle_memMaybeFree d).bind fun _ _ => ?_
          rw [if_pos hrc]
          exact .pure hrc
      · rintro ⟨d, rc⟩ hrc
        exact .failure hrc (.pure hrc)

theorem performs_readStringPairs {ps : List (Bytes × Bytes)} (hshort : ∀ p ∈ ps, Short p.1 ∧ Short p.2)
    (a : KeyValueList) :
    Performs alloc (readStringPairs alloc ps.length a 0) (ps.flatMap pairScript) (fun out => out.2 = 0)
      (fun out => out.2 ≠ 0) := by
  induction ps generalizing a with
  | nil => exact .pure rfl
  | cons p ps ih =>
      obtain ⟨hkey, hvalue⟩ := hshort p List.mem_cons_self
      rw [List.flatMap_cons, pairScript, List.append_assoc, List.append_assoc]
      refine (performs_readString hkey .null).bind ?_ ?_
      · rintro ⟨k, _⟩ ⟨hk, rfl⟩
        refine .success ?_
        refine (performs_readString hvalue .null).bind ?_ ?_
        · rintro ⟨v, _⟩ ⟨hv, rfl⟩
          refine .success ?_
          refine (performs_keyValueListPrepend a hk hv).bind ?_ ?_
          · rintro ⟨list, _⟩ rfl
            refine .after (idle_memMaybeFree k) fun _ _ => .after (idle_memMaybeFree v) fun _ _ => ?_
            refine .success ?_
            exact ih (fun q hq => hshort q (List.mem_cons_of_mem p hq)) list
          · rintro ⟨list, rc⟩ hrc
            refine (idle_memMaybeFree k).bind fun _ _ => (idle_memMaybeFree v).bind fun _ _ => ?_
            rw [if_pos hrc]
            exact .pure hrc
        · rintro ⟨v, rc⟩ hrc
          exact .failure hrc ((idle_memMaybeFree k).bind fun _ _ => .pure hrc)
      · rintro ⟨k, rc⟩ hrc
        exact .failure hrc (.pure hrc)

end Decoders

end Crakoon
