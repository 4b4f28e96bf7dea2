import Crakoon.Balance
import Crakoon.CppBuffer
import Crakoon.CppCluster
import Crakoon.TextResults

/-!
# The values that the C++ interface hands out

`arakoon::cluster::get`, `get_no_exc` and `test_and_set` put what the library returns into a buffer that owns it. For an
empty value that is `ARAKOON_ZERO_LENGTH_DATA_PTR`, which no hook has handed out, and the buffer frees it like a block.
-/

namespace Crakoon

open Programs Reading

section Wrapper

variable (alloc : Nat → Bool) (errno : World → Nat)

/-- The free hook. -/
def clientFree (p : Ptr) : ClientM Unit := fun w => some ((), { w with heap := w.heap.free p })

/-- A buffer with the result, unless the code is made an exception of. -/
def ownResult (out : ArakoonRc × Data) : ClientM (Except Outcome Buffer) := do
  match ← clusterRcToError alloc errno out.1 with
  | .returned => pure (.ok ⟨out.2, true⟩)
  | outcome => pure (.error outcome)

/-- `cluster::get` -/
def clusterGet (options : Option ClientCallOptions) (key : Bytes) : ClientM (Except Outcome Buffer) := do
  let out ← arakoonGet alloc options key .null
  ownResult alloc errno out

/-- `cluster::get_no_exc` -/
def clusterGetNoExc (options : Option ClientCallOptions) (key : Bytes) : ClientM (Except Outcome Buffer) := do
  let (rc, result) ← arakoonGet alloc options key .null
  if rc = 0 then pure (.ok ⟨result, true⟩)
  else do
    let outcome ← clusterRcToErrorNoExc alloc rc
    pure (.error outcome)

/-- `cluster::test_and_set` -/
def clusterTestAndSet (key : Bytes) (oldValue newValue : StringOption) : ClientM (Except Outcome Buffer) := do
  let out ← arakoonTestAndSet alloc key oldValue newValue .null
  ownResult alloc errno out

end Wrapper

theorem freesOne_clientFree : FreesOne World.heap clientFree := fun _ _ => ⟨(), _, rfl, rfl⟩

section Values

variable {alloc : Nat → Bool}

/-- Where the program succeeds, its value is null, the placeholder or a block that was obtained meanwhile, and the
ledger has gained that block and nothing else. -/
def HandsValue (m : SessionM (ArakoonRc × Data)) : Prop :=
  ∀ s, Ensures m s fun out s' => out.1 = 0 → ∃ events, s.heap.Adds s'.heap events ∧
    (out.2 = .null ∨ out.2.Placed events) ∧ s'.heap.net = s.heap.net + out.2.net

theorem HandsValue.failure {rc : ArakoonRc} (hrc : rc ≠ 0) (a : Data) : HandsValue (pure (rc, a)) :=
  fun _ => Ensures.pure fun hzero => absurd hzero hrc

theorem HandsValue.after {γ : Type} {l : SessionM γ} {f : γ → SessionM (ArakoonRc × Data)} (hl : GivesSteady alloc l)
    (hsettled : Settled l) (hf : ∀ x, HandsValue (f x)) : HandsValue (l >>= f) := by
  intro s
  have hfirst := (hl.unresized s).outcome.mono fun x s₁ h => And.intro h.2 (hsettled s x s₁ h.1)
  refine hfirst.bind fun x s₁ hdone => (hf x s₁).mono fun out s' hrest hrc => ?_
  obtain ⟨⟨events, hadds, -⟩, hnet⟩ := hdone
  obtain ⟨events', hadds', hplaced, hnet'⟩ := hrest hrc
  refine ⟨events ++ events', hadds.trans hadds', ?_, ?_⟩
  · exact hplaced.imp id fun h => h.mono (List.subset_append_right _ _)
  · rw [hnet', hnet, add_zero]

theorem HandsValue.ite {c : Prop} [Decidable c] {m n : SessionM (ArakoonRc × Data)} (hm : c → HandsValue m)
    (hn : ¬c → HandsValue n) : HandsValue (if c then m else n) :=
  fun s => .ite (fun h => hm h s) fun h => hn h s

theorem handsValue_decodeString (result : Data) : HandsValue (decodeString alloc result) := by
  intro s
  have hread := (ensures_readString_placed result 0 s).outcome.mono fun out s₁ h =>
    And.intro h.2 (owes_readString alloc result 0 s out s₁ h.1)
  refine hread.bind fun out s₁ hdone => .ite (fun hrc => Ensures.pure fun hzero => absurd hzero hrc) fun hrc => ?_
  obtain ⟨⟨events, hadds, -, hplaced⟩, hnet⟩ := hdone
  refine Ensures.pure fun hzero => ⟨events, hadds, .inr (hplaced hzero), ?_⟩
  rw [hnet, stringNet, if_pos hzero]

theorem handsValue_decodeStringOption (result : Data) : HandsValue (decodeStringOption alloc result) := by
  intro s
  have hread := (ensures_readStringOption_placed result s).outcome.mono fun out s₁ h =>
    And.intro h.2 (owes_readStringOption alloc result 0 s out s₁ h.1)
  refine hread.bind fun out s₁ hdone => .ite (fun hrc => Ensures.pure fun hzero => absurd hzero hrc) fun hrc => ?_
  obtain ⟨⟨events, hadds, -, hplaced⟩, hnet⟩ := hdone
  refine Ensures.pure fun hzero => ⟨events, hadds, hplaced hzero, ?_⟩
  rw [hnet, stringNet, if_pos hzero]

theorem handsValue_clientOperation {early failed : Data} {send : SessionM ArakoonRc}
    {decode : SessionM (ArakoonRc × Data)} (hsend : GivesSteady alloc send) (hsettled : Settled send)
    (hdecode : HandsValue decode) : HandsValue (clientOperation alloc early failed send decode) := by
  refine .after hsend hsettled fun rc => .ite (fun hrc => .failure hrc _) fun _ => ?_
  refine .after (@gives_readRc alloc) settled_readRc fun rc => ?_
  by_cases hrc : rc = 0
  · -- no message is read behind the code of a payload
    have hskip : handleError alloc rc = pure () := by
      rw [handleError, if_neg (not_ne_iff.mpr hrc)]
    rw [hskip, pure_bind, if_neg (not_ne_iff.mpr hrc)]
    exact hdecode
  · intro s
    refine Ensures.bind (P := fun _ _ => True) (fun _ _ _ => trivial) fun _ s₁ _ => ?_
    rw [if_pos hrc]
    exact Ensures.pure fun hzero => absurd hzero hrc

end Values

/-- What is no block is never handed out. -/
theorem obtainedIn_eq_zero (events : List HeapEvent) {p : Ptr} (hp : ∀ id, p ≠ .block id) : obtainedIn events p = 0 := by
  have hzero : events.map (HeapEvent.obtains p) = events.map fun _ => 0 :=
    List.map_congr_left fun e _ => by cases e <;> simp [HeapEvent.obtains, hp]
  rw [obtainedIn, hzero, List.map_const', List.sum_replicate_nat, Nat.mul_zero]

/-- The block was handed out between the two. -/
def Heap.Gained (h h' : Heap) (p : Ptr) : Prop := ∃ id, p = .block id ∧ h.next ≤ id ∧ id < h'.next

theorem Heap.Adds.gained_iff {h h' : Heap} {events : List HeapEvent} (hadds : h.Adds h' events) (p : Ptr) :
    h.Gained h' p ↔ obtainedIn events p ≠ 0 := by
  have hlog : h'.log = h.log ++ events := hadds
  cases p with
  | block id =>
      have hbefore := h.once id
      have hafter := h'.once id
      rw [hlog, obtainedIn_append, hbefore] at hafter
      have hiff : h.Gained h' (.block id) ↔ h.next ≤ id ∧ id < h'.next :=
        ⟨fun ⟨_, hid, hrange⟩ => Ptr.block.inj hid ▸ hrange, fun hrange => ⟨id, rfl, hrange⟩⟩
      rw [hiff]
      split_ifs at hafter <;> omega
  | null => exact iff_of_false (fun ⟨_, hid, _⟩ => by cases hid) (not_not_intro (obtainedIn_eq_zero events nofun))
  | zeroLength => exact iff_of_false (fun ⟨_, hid, _⟩ => by cases hid) (not_not_intro (obtainedIn_eq_zero events nofun))

/-- Of the pointers that are not null, the buffer frees none that is no block of the call, but those that are its
caller's to free; and the blocks that the call obtained are freed once each, by the call or by the buffer. -/
inductive FreesOwn (before between after : Heap) (theirs : List Ptr) : Prop where
  | intro (events events' : List HeapEvent) (hcall : before.Adds between events) (hlife : between.Adds after events')
      (hothers : ∀ p, p ≠ .null → obtainedIn events p = 0 → releasedIn events' p ≤ theirs.count p)
      (hblocks : ∀ p, obtainedIn events p ≠ 0 → releasedIn events p + releasedIn events' p = 1)

/-- The block that a value lives in. -/
def Data.blocks : Data → List Ptr
  | .block id _ => [.block id]
  | _ => []

theorem Data.net_eq_count (d : Data) (p : Ptr) : d.net p = d.blocks.count p := by
  cases d with
  | null => rfl
  | zeroLength => rfl
  | block id bytes => by_cases h : p = .block id <;> simp [Data.net, Data.blocks, Ptr.one, h, eq_comm]

theorem Data.Placed.obtained {d : Data} {events : List HeapEvent} (h : d.Placed events) {p : Ptr} (hp : p ∈ d.blocks) :
    obtainedIn events p ≠ 0 := by
  cases h with
  | empty => cases hp
  | block id bytes _ hnew =>
      obtain rfl := List.mem_singleton.mp hp
      exact Nat.ne_of_gt (obtainedIn_pos hnew)

/-- Every block that a call obtained is given back by then or is the one of its value, when the ledger has gained the
value and lost a pointer that was there before. -/
theorem kept_or_released {h h' : Heap} {events : List HeapEvent} (hadds : h.Adds h' events) {d : Data} {old : Ptr}
    (hold : ∀ id, old = .block id → id < h.next) (hnet : h'.net = h.net - Ptr.one old + d.net) {p : Ptr}
    (hp : obtainedIn events p ≠ 0) : releasedIn events p + d.blocks.count p = 1 := by
  obtain ⟨id, rfl, hfirst, hlast⟩ := (hadds.gained_iff p).mpr hp
  have hlog : h'.log = h.log ++ events := hadds
  have hone : Ptr.one old (.block id) = 0 :=
    if_neg fun hid => absurd (hold id hid.1.symm) (Nat.not_lt.mpr hfirst)
  have hbefore := h.once id
  have hafter := h'.once id
  rw [if_neg (Nat.not_lt.mpr hfirst)] at hbefore
  rw [hlog, obtainedIn_append, hbefore, if_pos hlast] at hafter
  have hledger := congrFun hnet (.block id)
  simp only [Pi.add_apply, Pi.sub_apply, Heap.net, reduceCtorEq, if_false, d.net_eq_count, hlog, obtainedIn_append,
    releasedIn_append, hone, hbefore] at hledger
  omega

/-- A buffer that owns the value of a call keeps account if and only if the value is not empty and the caller hands it
to own no block of the call, and no pointer that it does not answer for. -/
theorem freesOwn_iff {w w₁ : World} {events : List HeapEvent} (hadds : w.heap.Adds w₁.heap events) {d : Data}
    (hd : d = .null ∨ d.Placed events)
    (hold : ∀ id, w.cluster.lastError.ptr = .block id → id < w.heap.next)
    (hnet : w₁.heap.net = w.heap.net - Ptr.one w.cluster.lastError.ptr + d.net) (calls : List BufferCall)
    {theirs : List Ptr} (htheirs : theirs.Subperm (calls.flatMap BufferCall.handed)) :
    Yields (bufferLife clientFree calls ⟨d, true⟩) w₁ (fun _ w₂ => FreesOwn w.heap w₁.heap w₂.heap theirs) ↔
      d ≠ .zeroLength ∧ ∀ p ∈ calls.flatMap BufferCall.handed, p ≠ .null →
        ¬w.heap.Gained w₁.heap p ∧ (calls.flatMap BufferCall.handed).count p ≤ theirs.count p := by
  obtain ⟨_, w₂, hrun, hlog⟩ := bufferLife_frees freesOne_clientFree calls ⟨d, true⟩ w₁
  have hfrees : ∀ p, releasedIn ((Buffer.owned ⟨d, true⟩ ++ calls.flatMap BufferCall.handed).map HeapEvent.free) p =
      (calls.flatMap BufferCall.handed).count p + [d.ptr].count p := by
    intro p
    rw [releasedIn_map_free, List.count_append, Nat.add_comm]
    rfl
  have hpointer : ∀ p, d.blocks.count p ≤ [d.ptr].count p := by
    intro p
    cases d <;> simp [Data.blocks, Data.ptr]
  constructor
  · intro hyields
    obtain ⟨events₁, events₂, hcall, hlife, hothers, hblocks⟩ := hyields.ensures _ _ hrun
    obtain rfl := List.append_cancel_left (hadds.symm.trans hcall)
    obtain rfl := List.append_cancel_left (hlog.symm.trans hlife)
    refine ⟨?_, fun p hp hnull => ?_⟩
    · rintro rfl
      have hplaceholder := hothers .zeroLength (by decide) (obtainedIn_eq_zero events nofun)
      have hcount := htheirs.count_le .zeroLength
      rw [hfrees, Data.ptr, List.count_singleton_self] at hplaceholder
      omega
    · have hhanded := List.count_pos_iff.mpr hp
      have hnew : obtainedIn events p = 0 := by
        by_contra hnew
        have htotal := hblocks p hnew
        have hkept := kept_or_released hadds hold hnet hnew
        rw [hfrees] at htotal
        have hle := hpointer p
        omega
      refine ⟨fun hgained => (hadds.gained_iff p).mp hgained hnew, ?_⟩
      have hle := hothers p hnull hnew
      rw [hfrees] at hle
      omega
  · intro h
    obtain ⟨hne, hhanded⟩ := h
    have hptr : ∀ p, p ≠ .null → [d.ptr].count p = d.blocks.count p := by
      intro p hnull
      cases d with
      | null => simp [Data.blocks, Data.ptr, Ne.symm hnull]
      | zeroLength => exact absurd rfl hne
      | block id bytes => rfl
    refine ⟨_, w₂, hrun, events, _, hadds, hlog, fun p hnull hnew => ?_, fun p hnew => ?_⟩
    · have hnone : d.blocks.count p = 0 := by
        refine List.count_eq_zero_of_not_mem fun hmem => ?_
        rcases hd with rfl | hplaced
        · cases hmem
        · exact hplaced.obtained hmem hnew
      rw [hfrees, hptr p hnull, hnone, Nat.add_zero]
      by_cases hmem : p ∈ calls.flatMap BufferCall.handed
      · exact (hhanded p hmem hnull).2
      · rw [List.count_eq_zero_of_not_mem hmem]
        exact Nat.zero_le _
    · have hnull : p ≠ .null := by
        rintro rfl
        exact hnew (obtainedIn_eq_zero events nofun)
      have hmem : p ∉ calls.flatMap BufferCall.handed := fun hmem =>
        (hhanded p hmem hnull).1 ((hadds.gained_iff p).mpr hnew)
      rw [hfrees, hptr p hnull, List.count_eq_zero_of_not_mem hmem, Nat.zero_add]
      exact kept_or_released hadds hold hnet hnew

section Calls

variable {alloc : Nat → Bool} {w : World}

/-- From the calls that are made on it up to its end, the buffer that a call has returned frees what it is to free. -/
def Buffer.KeepsAccount (b : Buffer) (calls : List BufferCall) (w w₁ : World) (theirs : List Ptr) : Prop :=
  Yields (bufferLife clientFree calls b) w₁ fun _ w₂ => FreesOwn w.heap w₁.heap w₂.heap theirs

/-- The caller gets a buffer. It frees only what the call obtained if and only if `holds` and it is handed no pointer
to own; where what it is handed is the caller's to free, if and only if `holds` and that is no block of the call. -/
def HandsBuffer (holds : Prop) (w : World) (out : Except Outcome Buffer) (w₁ : World) : Prop :=
  ∃ b, out = .ok b ∧ ∀ calls : List BufferCall,
    (b.KeepsAccount calls w w₁ [] ↔ holds ∧ ∀ p ∈ calls.flatMap BufferCall.handed, p = .null) ∧
    (b.KeepsAccount calls w w₁ (calls.flatMap BufferCall.handed) ↔
      holds ∧ ∀ p ∈ calls.flatMap BufferCall.handed, ¬w.heap.Gained w₁.heap p)

/-- On a cluster with a master, the last error is given back before that. -/
theorem HandsValue.withMaster {missing : Data} {body : SessionM (ArakoonRc × Data)} (h : HandsValue body) {k : NodeId}
    (hmaster : w.cluster.getMaster = some k) :
    Ensures (Crakoon.withMaster missing body) w fun out w₁ => out.1 = 0 → ∃ events, w.heap.Adds w₁.heap events ∧
      (out.2 = .null ∨ out.2.Placed events) ∧
      w₁.heap.net = w.heap.net - Ptr.one w.cluster.lastError.ptr + out.2.net := by
  intro out w' hrun hrc
  rw [withMaster_some hmaster] at hrun
  obtain ⟨⟨out', s'⟩, hbody, hout⟩ := Option.map_eq_some_iff.mp hrun
  obtain ⟨rfl, rfl⟩ := Prod.mk.inj hout
  obtain ⟨events, hadds, hplaced, hnet⟩ := h _ _ _ hbody hrc
  have hreset : w.heap.Adds (w.reset.session k).heap [.free w.cluster.lastError.ptr] := rfl
  refine ⟨_, hreset.trans hadds, hplaced.imp id fun h => h.mono (List.subset_append_right _ _), ?_⟩
  exact hnet.trans (congrArg (· + out'.2.net) (Heap.net_free _ _))

/-- A value that is not empty is not the placeholder. -/
theorem ne_placeholder_iff {d : Data} {o : Option Bytes} (hvalue : d.value = o) {events : List HeapEvent}
    (hd : d = .null ∨ d.Placed events) : d ≠ .zeroLength ↔ o ≠ some [] := by
  subst hvalue
  rcases hd with rfl | hplaced
  · exact iff_of_true (fun h => by cases h) fun h => by cases h
  · cases hplaced with
    | empty => exact iff_of_false (fun h => h rfl) fun h => h rfl
    | block id bytes hbytes _ => exact iff_of_true (fun h => by cases h) fun h => hbytes (Option.some.inj h)

theorem yields_handsBuffer {m : ClientM (ArakoonRc × Data)} {own : ArakoonRc × Data → ClientM (Except Outcome Buffer)}
    {o : Option Bytes} (hyields : Yields m w fun out _ => out.1 = 0 ∧ out.2.value = o)
    (hhands : Ensures m w fun out w₁ => out.1 = 0 → ∃ events, w.heap.Adds w₁.heap events ∧
      (out.2 = .null ∨ out.2.Placed events) ∧
      w₁.heap.net = w.heap.net - Ptr.one w.cluster.lastError.ptr + out.2.net)
    (hown : ∀ out w₁, out.1 = 0 → (own out).run w₁ = some (.ok ⟨out.2, true⟩, w₁))
    (hold : ∀ id, w.cluster.lastError.ptr = .block id → id < w.heap.next) :
    Yields (m >>= own) w (HandsBuffer (o ≠ some []) w) := by
  obtain ⟨out, w₁, hrun, ⟨hrc, hvalue⟩, hdone⟩ := hyields.and hhands
  obtain ⟨events, hadds, hplaced, hnet⟩ := hdone hrc
  refine ⟨_, w₁, bind_run_eq_some.mpr ⟨out, w₁, hrun, hown out w₁ hrc⟩, _, rfl, fun calls => ?_⟩
  rw [← ne_placeholder_iff hvalue hplaced]
  constructor
  · refine (freesOwn_iff hadds hplaced hold hnet calls List.nil_subperm).trans (and_congr_right fun _ => ?_)
    refine forall₂_congr fun p hp => ⟨fun h => by_contra fun hnull => ?_, fun hnull h => absurd hnull h⟩
    exact absurd (h hnull).2 (Nat.not_le.mpr (List.count_pos_iff.mpr hp))
  · refine (freesOwn_iff hadds hplaced hold hnet calls (List.Subperm.refl _)).trans (and_congr_right fun _ => ?_)
    refine forall₂_congr fun p _ => ⟨fun h hgained => ?_, fun h _ => ⟨h, le_rfl⟩⟩
    have hnull : p ≠ .null := by
      obtain ⟨id, rfl, -⟩ := hgained
      exact Ptr.noConfusion
    exact (h hnull).1 hgained

variable (halloc : ∀ n, alloc n = true) (errno : World → Nat) {k : NodeId} {c : Conn}
  (hmaster : w.cluster.master = some k) (hconn : (w.cluster.node k).conn = some c)
  (hold : ∀ id, w.cluster.lastError.ptr = .block id → id < w.heap.next)
include halloc hmaster hconn hold

/-- The buffer that a call returns keeps account of the memory of the call if and only if the value is not empty and
no pointer is handed to the buffer that is not its to free. -/
theorem value_buffers_free_own_iff :
    (∀ options key value frame bs, (Operation.get options key).frame = some frame →
      (@Reply.payload .string value).Word bs → c.Answers frame bs →
        Yields (clusterGet alloc errno options key) w (HandsBuffer (value ≠ []) w) ∧
        Yields (clusterGetNoExc alloc options key) w (HandsBuffer (value ≠ []) w)) ∧
    (∀ key oldValue newValue value frame bs, (Operation.testAndSet key oldValue newValue).frame = some frame →
      (@Reply.payload .stringOption value).Word bs → c.Answers frame bs →
        Yields (clusterTestAndSet alloc errno key oldValue newValue) w (HandsBuffer (value ≠ some []) w)) := by
  have hgetMaster := getMaster_eq_some.mpr ⟨hmaster, c, hconn⟩
  have hsend : ∀ command : Command, Settled (sendCommand alloc command) := settled_sendCommand alloc
  constructor
  · intro options key value frame bs hframe hbs h
    let op := Operation.get options key
    have hyields := yields_payload halloc op Data.null hmaster hconn hframe rfl hbs h
    have hhands : Ensures (Operation.run alloc op Data.null) w _ :=
      (handsValue_clientOperation (gives_send op) (hsend _) (@handsValue_decodeString alloc .null)).withMaster hgetMaster
    have hvalue : value ≠ [] ↔ some value ≠ some [] := not_congr (Option.some.injEq value []).to_iff.symm
    rw [propext hvalue]
    constructor
    · refine yields_handsBuffer hyields hhands (fun out w₁ hrc => ?_) hold
      obtain ⟨rc, d⟩ := out
      obtain rfl : rc = 0 := hrc
      rfl
    · refine yields_handsBuffer hyields hhands (fun out w₁ hrc => ?_) hold
      obtain ⟨rc, d⟩ := out
      obtain rfl : rc = 0 := hrc
      rfl
  · intro key oldValue newValue value frame bs hframe hbs h
    let op := Operation.testAndSet key oldValue newValue
    have hyields := yields_payload halloc op Data.null hmaster hconn hframe rfl hbs h
    have hhands : Ensures (Operation.run alloc op Data.null) w _ :=
      (handsValue_clientOperation (gives_send op) (hsend _) (handsValue_decodeStringOption .null)).withMaster hgetMaster
    refine yields_handsBuffer hyields hhands (fun out w₁ hrc => ?_) hold
    obtain ⟨rc, d⟩ := out
    obtain rfl : rc = 0 := hrc
    rfl

end Calls

/-- A value of one byte and no value. -/
theorem value_buffers_free_own_iff_one :
    let w := World.connected ⟨[99], by simp⟩ (Peer.answering (le32 0 ++ writeString [97]))
    let w' := World.connected ⟨[99], by simp⟩ (Peer.answering (le32 0 ++ [0]))
    Yields (clusterGet (fun _ => true) (fun _ => 0) none [107]) w (HandsBuffer (([97] : Bytes) ≠ []) w) ∧
      Yields (clusterTestAndSet (fun _ => true) (fun _ => 0) [107] (.null 0) (.null 0)) w'
        (HandsBuffer ((none : Option Bytes) ≠ some []) w') := by
  intro w w'
  have halloc : ∀ n : Nat, (fun _ => true) n = true := fun _ => rfl
  have hanswers : ∀ frame reply, (Conn.fresh (Peer.answering reply)).Answers frame reply :=
    fun frame reply => ⟨rfl, fun _ => rfl, [], (List.append_nil _).symm⟩
  constructor
  · have hword : (@Reply.payload .string [97]).Word (le32 0 ++ writeString [97]) := ⟨_, ⟨by decide, rfl⟩, rfl⟩
    exact ((@value_buffers_free_own_iff _ w halloc (fun _ => 0) _ _ rfl rfl (fun _ h => by cases h)).1 none [107] _ _ _
      rfl hword (hanswers _ _)).1
  · have hword : (@Reply.payload .stringOption none).Word (le32 0 ++ [0]) := ⟨_, rfl, rfl⟩
    exact (@value_buffers_free_own_iff _ w' halloc (fun _ => 0) _ _ rfl rfl (fun _ h => by cases h)).2 [107] (.null 0)
      (.null 0) _ _ _ rfl hword (hanswers _ _)

/-- The buffer with an empty value is destroyed. -/
theorem empty_value_frees_placeholder :
    let w := World.connected ⟨[99], by simp⟩ (Peer.answering (le32 0 ++ writeString []))
    Yields (clusterGet (fun _ => true) (fun _ => 0) none [107]) w fun out w₁ =>
      ∃ b, out = .ok b ∧ ¬b.KeepsAccount [] w w₁ [] := by
  intro w
  refine ⟨_, _, rfl, _, rfl, fun haccount => ?_⟩
  obtain ⟨events, events', hcall, hend, hothers, -⟩ := haccount.ensures _ _ rfl
  obtain rfl : [.free .null, .malloc 0, .free (.block 0)] = events := hcall
  obtain rfl : [.free .zeroLength] = events' := List.append_cancel_left hend
  exact absurd (hothers .zeroLength (by decide) (by decide)) (by decide)

end Crakoon
