import Crakoon.Balance
import Crakoon.LastError
import Crakoon.TextResults

/-!
# What a failing operation leaves in memory

An operation that fails, because one of its writes or reads fails or because the reply is an error, has given back every
block that it obtained and that its caller cannot reach. The exception is `arakoon_multi_get`: a write for one of its
keys that fails leaves the iterator behind.
-/

namespace Crakoon

open Programs Reading

/-- The pointers of the blocks that a result variable leads to. -/
def ReplyKind.held : (kind : ReplyKind) → kind.Out → List Ptr
  | .string, d => [Data.ptr d]
  | .text, d => [Data.ptr d]
  | .stringOption, d => [Data.ptr d]
  | .version, v => [(VersionInfo.info v).ptr]
  | .list, none => []
  | .list, some l =>
      .block (ValueList.id l) :: (ValueList.items l).flatMap fun item => [.block item.id, item.value.ptr]
  | .pairs, none => []
  | .pairs, some l => .block (KeyValueList.id l) ::
      (KeyValueList.items l).flatMap fun item => [.block item.id, item.key.ptr, item.value.ptr]
  | _, _ => []

/-- Every block that was obtained in the meantime was freed once, but for those that are held. -/
inductive NothingLost (h h' : Heap) (held : List Ptr) : Prop where
  | intro (events : List HeapEvent) (hadds : h.Adds h' events)
      (hfreed : ∀ id, 0 < obtainedIn events (.block id) →
        Ptr.block id ∈ held ∨ events.count (.free (.block id)) = 1)

/-- The first write of a request is accepted, and one of the others is not. -/
def KeyUnsent (c : Conn) (count : Nat) : Prop :=
  c.peer.writes c.writes = .complete ∧ ∃ n < count, c.peer.writes (c.writes + n) ≠ .complete

theorem keyUnsent_one (c : Conn) : ¬KeyUnsent c 1 := by
  rintro ⟨hfirst, n, hn, hstopped⟩
  obtain rfl : n = 0 := Nat.lt_one_iff.mp hn
  exact hstopped hfirst

theorem writeCount_of_keys {op : Operation} (h : op.keys = []) : op.writeCount = 1 := by
  rw [Operation.writeCount, h]
  rfl

/-- Without a resize, what is given back is freed. -/
theorem NoResize.released {events : List HeapEvent} (h : NoResize events) (p : Ptr) :
    releasedIn events p = events.count (.free p) := by
  induction events with
  | nil => rfl
  | cons e events ih =>
      have hrest : NoResize events := fun q id hmem => h q id (List.mem_cons_of_mem _ hmem)
      have hcons : releasedIn (e :: events) p = e.releases p + releasedIn events p := by simp [releasedIn]
      rw [hcons, ih hrest, List.count_cons, Nat.add_comm]
      cases e with
      | malloc id => rfl
      | realloc q id => exact absurd List.mem_cons_self (h q id)
      | free q => by_cases hq : q = p <;> simp [HeapEvent.releases, hq]

theorem NothingLost.mono {h h' : Heap} {held held' : List Ptr} (hnothing : NothingLost h h' held)
    (hsub : held ⊆ held') : NothingLost h h' held' := by
  obtain ⟨events, hadds, hfreed⟩ := hnothing
  exact ⟨events, hadds, fun id hid => (hfreed id hid).imp_left fun hmem => hsub hmem⟩

/-- What the ledger says of a block, when a pointer of before was given back and something new is owed. -/
theorem obtained_of_net {h h' : Heap} {events : List HeapEvent} (hadds : h.Adds h' events) (hsteady : NoResize events)
    {old : Ptr} {n : Ptr → Int} (hnet : h'.net = h.net - Ptr.one old + n) {id : Nat} (hfresh : old ≠ .block id) :
    (obtainedIn events (.block id) : Int) = events.count (.free (.block id)) + n (.block id) := by
  have hlog : h'.log = h.log ++ events := hadds
  have hledger := congrFun hnet (.block id)
  have hone : Ptr.one old (.block id) = 0 := if_neg fun hptr => hfresh hptr.1.symm
  simp only [Pi.add_apply, Pi.sub_apply, Heap.net, reduceCtorEq, if_false, hlog, obtainedIn_append,
    releasedIn_append, hone, hsteady.released] at hledger
  omega

/-- A block that is obtained is not one of before. -/
theorem Heap.Adds.obtained_ne {h h' : Heap} {events : List HeapEvent} (hadds : h.Adds h' events) {old : Ptr}
    (hold : ∀ id, old = .block id → id < h.next) {id : Nat} (hid : 0 < obtainedIn events (.block id)) :
    old ≠ .block id := by
  intro heq
  have hbefore := h.once id
  have hle := hadds.obtained_le id
  rw [if_pos (hold id heq)] at hbefore
  omega

/-- A block that was obtained is held, or it is freed or it is the one that is owed. -/
theorem nothingLost_of_net {h h' : Heap} {events : List HeapEvent} (hadds : h.Adds h' events)
    (hsteady : NoResize events) {old : Ptr} (hold : ∀ id, old = .block id → id < h.next) {d : Data}
    (hnet : h'.net = h.net - Ptr.one old + d.net) : NothingLost h h' [d.ptr] := by
  refine ⟨events, hadds, fun id hid => ?_⟩
  have hle := hadds.obtained_le id
  have hledger := obtained_of_net hadds hsteady hnet (hadds.obtained_ne hold hid)
  by_cases hd : Ptr.block id = d.ptr
  · exact .inl (List.mem_singleton.mpr hd)
  · have hzero : d.net (.block id) = 0 := by
      cases d with
      | null => rfl
      | zeroLength => rfl
      | block id' bytes => exact if_neg fun h => hd h.1
    rw [hzero] at hledger
    right
    omega

/-- A new block that is owed and not held is lost. -/
theorem lost_of_net {h h' : Heap} {events : List HeapEvent} (hadds : h.Adds h' events) (hsteady : NoResize events)
    {old : Ptr} (hold : ∀ id, old = .block id → id < h.next) {id : Nat} (hnew : h.next ≤ id)
    (hnet : h'.net = h.net - Ptr.one old + Ptr.one (.block id)) {held : List Ptr} (hheld : Ptr.block id ∉ held) :
    ¬NothingLost h h' held := by
  rintro ⟨events', hadds', hfreed⟩
  obtain rfl := List.append_cancel_left (hadds.symm.trans hadds')
  have hfresh : old ≠ .block id := fun heq => absurd (hold id heq) (Nat.not_lt.mpr hnew)
  have hledger := obtained_of_net hadds hsteady hnet hfresh
  have howed : Ptr.one (.block id) (.block id) = 1 := if_pos ⟨rfl, fun h => by cases h⟩
  have hle := hadds.obtained_le id
  rw [howed] at hledger
  rcases hfreed id (by omega) with hmem | hcount
  · exact hheld hmem
  · omega

theorem settled_multiGetKeys (keys : List Bytes) : Settled (multiGetKeys keys) := by
  induction keys with
  | nil => exact .pure rfl
  | cons value keys ih =>
      refine (settled_writeBytes _).then fun _ => .ite (fun _ => .pure rfl) fun _ => ?_
      exact (settled_writeBytes value).then fun _ => .ite (fun _ => .pure rfl) fun _ => ih

/-- How sending a request ends, and what it leaves in memory. -/
inductive SendsOff (op : Operation) (s : Session) (c : Conn) (rc : ArakoonRc) (s' : Session) : Prop where
  | sent (hrc : rc = 0) (c' : Conn) (hconn : s'.conn = some c') (hkeys : ¬KeyUnsent c op.writeCount)
      (hnet : s'.heap.net = s.heap.net)
  | failed (hrc : rc ≠ 0) (hkeys : ¬KeyUnsent c op.writeCount) (hnet : s'.heap.net = s.heap.net)
  | iterator (hrc : rc ≠ 0) (options : Option ClientCallOptions) (keys : List Bytes) (hop : op = .multiGet options keys)
      (hkeys : KeyUnsent c op.writeCount) (id : Nat) (hnew : s.heap.next ≤ id)
      (hnet : s'.heap.net = s.heap.net + Ptr.one (.block id))

section Failing

variable {alloc : Nat → Bool} (halloc : ∀ n, alloc n = true)
include halloc

/-- The iterator is obtained behind the first write, and not given back where a later one fails. -/
theorem ensures_sendMultiGet_net {options : Option ClientCallOptions} {keys : List Bytes} {bs : Bytes}
    (hbs : (multiGetCommand options keys).assembled = some bs) {s : Session} {c : Conn} (hc : s.conn = some c) :
    Ensures (sendMultiGet alloc options keys) s fun rc s' =>
      s'.heap.net = s.heap.net ∧ (rc ≠ 0 → c.peer.writes c.writes ≠ .complete) ∨
      rc ≠ 0 ∧ c.peer.writes c.writes = .complete ∧
        ∃ id, s.heap.next ≤ id ∧ s'.heap.net = s.heap.net + Ptr.one (.block id) := by
  have hheader : Ensures (sendCommand alloc (multiGetCommand options keys)) s fun rc s₁ =>
      (Dispatch s c bs 1 false rc s₁ ∧ s₁.heap.net = s.heap.net) ∧ s.heap.next ≤ s₁.heap.next := by
    intro rc s₁ hrun
    have hsent : Yields (sendCommand alloc (multiGetCommand options keys)) s (Dispatch s c bs 1 false) := by
      rw [sendCommand, hbs]
      exact yields_sendBlock halloc (fun _ => yields_writeBytes bs) hc
    have honward := (onwards_sendBlock alloc 0 (onwards_writeBytes 0) _ s (Nat.zero_le _) rc s₁ hrun).2.1
    refine ⟨⟨hsent.ensures rc s₁ hrun, ?_⟩, honward.heap.next⟩
    rw [settled_sendCommand alloc _ s rc s₁ hrun, add_zero]
  refine hheader.bind fun rc s₁ hdone => ?_
  obtain ⟨⟨hsent, hnet⟩, hnext⟩ := hdone
  by_cases hrc : rc = 0
  · rw [if_neg (not_ne_iff.mpr hrc)]
    obtain ⟨c₁, -, wrote, -⟩ := hsent.sent hrc
    have hfirst : c.peer.writes c.writes = .complete := wrote.complete 0 Nat.one_pos
    refine ((yields_memNew halloc s₁).ensures.outcome).bind fun _ s₂ hnew => ?_
    obtain ⟨hrun, -, id, rfl, hgains⟩ := hnew
    obtain rfl : s₁.heap.next = id := by
      rw [memNew_granted (halloc _)] at hrun
      exact Option.some.inj (Prod.mk.inj (Option.some.inj hrun)).1
    have hiter := hgains.net
    refine (settled_multiGetKeys keys s₂).bind fun rc₂ s₃ hkeys => .ite (fun hrc₂ => ?_) fun hrc₂ => ?_
    · refine Ensures.pure (.inr ?_)
      refine ⟨hrc₂, hfirst, _, hnext, ?_⟩
      rw [hkeys, hiter, hnet, add_zero]
    · refine (owes_memFree _ s₃).bind fun _ s₄ hfree => Ensures.pure (.inl ⟨?_, fun h => absurd h hrc₂⟩)
      rw [hfree, hkeys, add_zero, hiter, hnet]
      exact add_neg_cancel_right _ _
  · rw [if_pos hrc]
    refine Ensures.pure (.inl ⟨hnet, fun _ hfirst => ?_⟩)
    cases hsent with
    | whole _ hzero => exact hrc hzero
    | closed _ _ _ stopped => exact keyUnsent_one c ⟨hfirst, stopped⟩
    | partly _ _ hleft => cases hleft

theorem ensures_send {op : Operation} {frame : Bytes} (hframe : op.frame = some frame) {s : Session} {c : Conn}
    (hc : s.conn = some c) :
    Ensures (Operation.send alloc op) s fun rc s' => s'.lastError = s.lastError ∧ SendsOff op s c rc s' := by
  intro rc s' hrun
  obtain ⟨-, honward, -⟩ := onwards_send alloc 0 op s (Nat.zero_le _) rc s' hrun
  refine ⟨honward.lastError, ?_⟩
  have hdispatch := (yields_send halloc hframe hc).ensures rc s' hrun
  have hone : op.keys = [] → s'.heap.net = s.heap.net → SendsOff op s c rc s' := by
    intro hkeys hnet
    have hunsent : ¬KeyUnsent c op.writeCount := writeCount_of_keys hkeys ▸ keyUnsent_one c
    by_cases hrc : rc = 0
    · obtain ⟨c', hconn, -⟩ := hdispatch.sent hrc
      exact .sent hrc c' hconn hunsent hnet
    · exact .failed hrc hunsent hnet
  have hblock : op.keys = [] → Settled
      (sendBlock alloc (if op.writesUnchecked then clusterNodeWriteBytes else writeBytes) op.block) := by
    intro _
    refine settled_sendBlock alloc (fun bs => ?_) op.block
    cases op.writesUnchecked with
    | true => exact settled_clusterNodeWriteBytes bs
    | false => exact settled_writeBytes bs
  cases op with
  | multiGet options keys =>
      obtain ⟨bs, hbs, -⟩ := Option.map_eq_some_iff.mp hframe
      rcases ensures_sendMultiGet_net halloc hbs hc rc s' hrun with ⟨hnet, hstopped⟩ | ⟨hrc, hfirst, id, hnew, hnet⟩
      · by_cases hrc : rc = 0
        · obtain ⟨c', hconn, wrote, -⟩ := hdispatch.sent hrc
          refine .sent hrc c' hconn (fun hkeys => ?_) hnet
          obtain ⟨-, n, hn, hincomplete⟩ := hkeys
          exact hincomplete (wrote.complete n hn)
        · exact .failed hrc (fun hkeys => hstopped hrc hkeys.1) hnet
      · refine .iterator hrc options keys rfl ⟨hfirst, ?_⟩ id hnew hnet
        cases hdispatch with
        | whole _ hzero => exact absurd hzero hrc
        | closed _ _ _ stopped => exact stopped
        | partly _ _ hleft => cases hleft
  | _ => exact hone rfl ((hblock rfl s rc s' hrun).trans (add_zero _))

/-- Where the program fails, it has resized nothing. -/
def FailsSteady {α : Type} (m : SessionM (ArakoonRc × α)) : Prop :=
  ∀ s, Ensures m s fun out s' => out.1 ≠ 0 → s.Unresized s'

section Steady

variable {α γ : Type} {m m' : SessionM (ArakoonRc × α)}

omit halloc in
theorem GivesSteady.fails (h : GivesSteady alloc m) : FailsSteady m :=
  fun s => (h.unresized s).mono fun _ _ hsteady _ => hsteady

omit halloc in
theorem FailsSteady.after {l : SessionM γ} {f : γ → SessionM (ArakoonRc × α)} (hl : GivesSteady alloc l)
    (hf : ∀ x, FailsSteady (f x)) : FailsSteady (l >>= f) := by
  intro s
  refine (hl.unresized s).bind fun x s₁ hsteady => (hf x s₁).mono fun out s' hrest hrc => ?_
  exact trans_of Session.Unresized hsteady (hrest hrc)

omit halloc in
theorem FailsSteady.ite {c : Prop} [Decidable c] (hm : c → FailsSteady m) (hm' : ¬c → FailsSteady m') :
    FailsSteady (if c then m else m') := fun s => .ite (fun h => hm h s) fun h => hm' h s

omit halloc in
theorem failsSteady_pure (rc : ArakoonRc) (a : α) : FailsSteady (pure (rc, a) : SessionM (ArakoonRc × α)) :=
  fun s => Ensures.pure fun _ => refl_of Session.Unresized s

/-- A string that was read before is handed out with a terminator, which does not fail. -/
theorem ensures_handOut_succeeds (d : Data) {rc : ArakoonRc} (hrc : rc = 0) (failed handed : Data → α) (s : Session) :
    Ensures (do
      let result ← utilsMakeString alloc d
      if result = .null then pure (enomem, failed result) else pure (rc, handed result)) s fun out _ => out.1 = 0 := by
  have hresized : Ensures (memRealloc alloc d.ptr) s fun out _ => ∃ id, out = some id := by
    intro out s₁ hrun
    obtain ⟨rfl, -⟩ := Prod.mk.inj (Option.some.inj hrun)
    exact ⟨s.heap.next, by simp [Heap.realloc, halloc]⟩
  have hmade : Ensures (utilsMakeString alloc d) s fun result _ => result ≠ .null := by
    refine hresized.bind fun out s₁ hout => ?_
    obtain ⟨id, rfl⟩ := hout
    exact Ensures.pure fun hnull => by cases hnull
  refine hmade.bind fun result s₁ hresult => .ite (fun hnull => absurd hnull hresult) fun _ => ?_
  exact Ensures.pure hrc

theorem failsSteady_handOut (d : Data) {rc : ArakoonRc} (hrc : rc = 0) (failed handed : Data → α) :
    FailsSteady (do
      let result ← utilsMakeString alloc d
      if result = .null then pure (enomem, failed result) else pure (rc, handed result)) :=
  fun s => (ensures_handOut_succeeds halloc d hrc failed handed s).mono fun _ _ hzero hne => absurd hzero hne

theorem failsSteady_decodeText : FailsSteady (decodeText alloc) := by
  refine .after (@gives_readString alloc _ _) fun out => .ite (fun _ => failsSteady_pure _ _) fun hrc => ?_
  exact failsSteady_handOut halloc out.1 (not_ne_iff.mp hrc) _ _

theorem failsSteady_decodeMaster : FailsSteady (decodeMaster alloc) := by
  refine .after (@gives_readStringOption alloc _ _) fun out => .ite (fun _ => failsSteady_pure _ _) fun hrc => ?_
  exact .ite (fun _ => failsSteady_pure _ _) fun _ => failsSteady_handOut halloc out.1 (not_ne_iff.mp hrc) _ _

theorem failsSteady_decodeVersion (result : VersionInfo) : FailsSteady (decodeVersion alloc result) := by
  refine .after (@gives_readInt32 alloc _) fun major => .ite (fun _ => failsSteady_pure _ _) fun _ => ?_
  refine .after (@gives_readInt32 alloc _) fun minor => .ite (fun _ => failsSteady_pure _ _) fun _ => ?_
  refine .after (@gives_readInt32 alloc _) fun patch => .ite (fun _ => failsSteady_pure _ _) fun _ => ?_
  refine .after (@gives_readString alloc _ _) fun out => .ite (fun _ => failsSteady_pure _ _) fun hrc => ?_
  exact failsSteady_handOut halloc out.1 (not_ne_iff.mp hrc) _ _

theorem failsSteady_decode (op : Operation) (result : op.kind.Out) :
    FailsSteady (Operation.decode alloc op result) := by
  cases op with
  | hello clientId clusterId => exact failsSteady_decodeText halloc
  | version => exact failsSteady_decodeVersion halloc result
  | expectProgressPossible => exact (@gives_decodeBool alloc).fails
  | «exists» options key => exact (@gives_decodeBool alloc).fails
  | get options key => exact (gives_decodeString _).fails
  | multiGet options keys => exact gives_decodeList.fails
  | range options bounds => exact gives_decodeList.fails
  | keyPrefix options beginKey maxElements => exact gives_decodeList.fails
  | rangeEntries options bounds => exact gives_decodePairs.fails
  | revRangeEntries options bounds => exact gives_decodePairs.fails
  | testAndSet key oldValue newValue => exact (gives_decodeStringOption _).fails
  | deletePrefix start => exact (@gives_decodeUInt32 alloc _).fails
  | userFunction name arg =>
      exact .after (@gives_readStringOption alloc _ _) fun _ => failsSteady_pure _ _
  | _ => exact failsSteady_pure _ _

theorem failsSteady_operation (op : Operation) (result : op.kind.Out) :
    FailsSteady (clientOperation alloc (op.early result) (op.failed result) (Operation.send alloc op)
      (Operation.decode alloc op result)) := by
  refine .after (gives_send op) fun rc => .ite (fun _ => failsSteady_pure _ _) fun _ => ?_
  refine .after (@gives_readRc alloc) fun rc => .after (gives_handleError rc) fun _ => ?_
  exact .ite (fun _ => failsSteady_pure _ _) fun _ => failsSteady_decode halloc op result

theorem failsSteady_clusterNodeWhoMaster (master : Data) : FailsSteady (clusterNodeWhoMaster alloc master) := by
  refine .after (gives_sendCommand _) fun rc => .ite (fun _ => failsSteady_pure _ _) fun _ => ?_
  refine .after (@gives_readRc alloc) fun rc => .ite (fun _ => failsSteady_pure _ _) fun _ => ?_
  exact failsSteady_decodeMaster halloc

end Steady

/-- A reply that is refused or cut off leaves the message of the refusal, if that is received, and nothing else. -/
theorem ensures_failingReply (op : Operation) (result : op.kind.Out) {s : Session} {c : Conn} (hc : s.conn = some c)
    (hlast : s.lastError = .null) :
    Ensures (clientReply alloc (op.failed result) (Operation.decode alloc op result)) s fun out s' =>
      out.1 ≠ 0 → s'.heap.net = s.heap.net + s'.lastError.net := by
  have hkept : ∀ {s₁ : Session}, s.Gains s₁ 0 → s₁.heap.net = s.heap.net + s₁.lastError.net := by
    intro s₁ hgains
    rw [hgains.net, hgains.lastError, hlast]
    rfl
  refine (follows_readRc s c hc).ensures.bind fun rc s₁ hread => ?_
  rcases hread with ⟨code, rest, c₁, -, hc₁, -, hword, hcode, hgains⟩ | ⟨hnone, -, hrc, hgains⟩
  · by_cases hrc : rc = 0
    · subst hrc
      have hskip : handleError alloc 0 = pure () := if_neg (not_ne_iff.mpr rfl)
      rw [hskip, pure_bind, if_neg (not_ne_iff.mpr rfl)]
      refine (decodes_operation halloc op result s₁ c₁ hc₁).ensures.mono fun out s' hdecoded hne => ?_
      rcases hdecoded with ⟨-, -, -, -, -, -, hzero, -⟩ | ⟨-, -, -, -, hgains'⟩
      · exact absurd hzero hne
      · exact hkept ((hgains.trans hgains').congr (add_zero _))
    · refine (follows_handleError halloc hrc s₁ c₁ hc₁).ensures.bind fun _ s₂ htold => ?_
      rw [if_pos hrc]
      refine Ensures.pure fun _ => ?_
      rcases htold with ⟨-, -, -, -, -, -, -, hnet⟩ | ⟨-, -, hgains'⟩
      · rw [hnet, hgains.net, add_zero]
      · exact hkept ((hgains.trans hgains').congr (add_zero _))
  · refine (yields_handleError_closed hrc hnone).ensures.bind fun _ s₂ hclosed => ?_
    rw [if_pos hrc]
    exact Ensures.pure fun _ => hkept ((hgains.trans hclosed.2).congr (add_zero _))

/-! ### Operations and runs -/

/-- What an operation that fails leaves in memory. -/
inductive FailsOff (op : Operation) (s : Session) (c : Conn) (out : ArakoonRc × op.kind.Out) (s' : Session) : Prop where
  | message (hkeys : ¬KeyUnsent c op.writeCount) (hnet : s'.heap.net = s.heap.net + s'.lastError.net)
  | iterator (hkeys : KeyUnsent c op.writeCount) (hlast : s'.lastError = .null) (hheld : op.kind.held out.2 = [])
      (id : Nat) (hnew : s.heap.next ≤ id) (hnet : s'.heap.net = s.heap.net + Ptr.one (.block id))

theorem ensures_failingOperation (op : Operation) (result : op.kind.Out) {frame : Bytes} (hframe : op.frame = some frame)
    {s : Session} {c : Conn} (hc : s.conn = some c) (hlast : s.lastError = .null) :
    Ensures (clientOperation alloc (op.early result) (op.failed result) (Operation.send alloc op)
      (Operation.decode alloc op result)) s fun out s' => out.1 ≠ 0 → FailsOff op s c out s' := by
  refine (ensures_send halloc hframe hc).bind fun rc s₁ hsend => ?_
  obtain ⟨hlast₁, hsent⟩ := hsend
  rw [hlast] at hlast₁
  cases hsent with
  | sent hrc c₁ hc₁ hkeys hnet =>
      rw [if_neg (not_ne_iff.mpr hrc)]
      refine (ensures_failingReply halloc op result hc₁ hlast₁).mono fun out s' hreply hne => ?_
      exact .message hkeys (hnet ▸ hreply hne)
  | failed hrc hkeys hnet =>
      rw [if_pos hrc]
      refine Ensures.pure fun _ => .message hkeys ?_
      rw [hnet, hlast₁]
      exact (add_zero _).symm
  | iterator hrc options keys hop hkeys id hnew hnet =>
      subst hop
      rw [if_pos hrc]
      exact Ensures.pure fun _ => .iterator hkeys hlast₁ rfl id hnew hnet

/-- `_arakoon_cluster_node_who_master` leaves nothing where it fails. -/
theorem ensures_failingWhoMaster (master : Data) (s : Session) :
    Ensures (clusterNodeWhoMaster alloc master) s fun out s' => out.1 ≠ 0 → s'.heap.net = s.heap.net := by
  refine (settled_sendCommand alloc whoMasterCommand s).bind fun rc s₁ hsend => .ite (fun _ => ?_) fun _ => ?_
  · exact Ensures.pure fun _ => hsend.trans (add_zero _)
  · refine (settled_readRc s₁).bind fun rc s₂ hread => .ite (fun _ => ?_) fun _ => ?_
    · exact Ensures.pure fun _ => (hread.trans (add_zero _)).trans (hsend.trans (add_zero _))
    · have hbefore : s₂.heap.net = s.heap.net := (hread.trans (add_zero _)).trans (hsend.trans (add_zero _))
      refine (owes_readStringOption alloc .null 0 s₂).bind fun out s₃ hstring => .ite (fun hrc => ?_) fun hrc => ?_
      · refine Ensures.pure fun _ => ?_
        rw [hstring, stringNet, if_neg hrc, hbefore, add_zero]
      · refine .ite (fun hnull => Ensures.pure fun hne => absurd hne hrc) fun _ => ?_
        refine (ensures_handOut_succeeds halloc out.1 (not_ne_iff.mp hrc) _ _ s₃).mono fun _ _ hzero hne => ?_
        exact absurd hzero hne

end Failing

/-- The block of the last error is one that was handed out. -/
def World.SlotPlaced (w : World) : Prop := ∀ id, w.cluster.lastError.ptr = .block id → id < w.heap.next

section Runs

variable {alloc : Nat → Bool} {dial : Dialer}

theorem World.slotPlaced_null {w : World} (h : w.cluster.lastError = .null) : w.SlotPlaced := by
  intro id hid
  rw [h] at hid
  cases hid

theorem slotPlaced_clusterStep {call : ClusterCall} {w w' : World} {rc : ArakoonRc} (h : w.SlotPlaced)
    (hstep : clusterStep alloc dial call w = .ok (rc, w')) : w'.SlotPlaced := by
  cases call with
  | operation op result =>
      cases (operation_clusterStep hstep).1 with
      | nothing hlast => exact World.slotPlaced_null hlast
      | blank _ hlast =>
          intro id hid
          rw [hlast] at hid
          cases hid
      | block message id' _ _ hlast _ hlog =>
          intro id hid
          rw [hlast] at hid
          obtain rfl := Ptr.block.inj hid
          obtain ⟨before, hlog⟩ := hlog
          exact Heap.Freed.lt (n := 0) ⟨before, [], hlog, rfl⟩
  | whoMaster master =>
      obtain ⟨out, w₁, hrun, hpure⟩ := bind_run_eq_some.mp (clusterStep_ok hstep)
      obtain ⟨-, rfl⟩ := Prod.mk.inj (Option.some.inj hpure)
      exact World.slotPlaced_null (ensures_whoMaster_reported master w out w₁ hrun).1
  | connectMaster =>
      have honward := onward_connectMaster hstep
      intro id hid
      rw [honward.lastError] at hid
      exact Nat.lt_of_lt_of_le (h id hid) honward.heap.next

/-- The master is connected, and takes the first write of the request but not all. -/
def World.KeyUnsent (w : World) (op : Operation) : Prop :=
  ∃ k c, w.cluster.master = some k ∧ (w.cluster.node k).conn = some c ∧ Crakoon.KeyUnsent c op.writeCount

/-- Of the memory of a world, after a part that started when the last error had been given back. -/
theorem World.adds_reset (w : World) (k : NodeId) {s' : Session} (h : (w.reset.session k).Unresized s') :
    ∃ events, w.heap.Adds s'.heap events ∧ NoResize events := by
  obtain ⟨events, hadds, hsteady⟩ := h
  have hfree : w.heap.Adds (w.reset.session k).heap [.free w.cluster.lastError.ptr] := rfl
  exact ⟨_, hfree.trans hadds, NoResize.append (fun _ _ => by simp) hsteady⟩

theorem World.net_reset (w : World) : w.reset.heap.net = w.heap.net - Ptr.one w.cluster.lastError.ptr :=
  Heap.net_free _ _

/-- Without a connected master nothing is obtained. -/
theorem nothingLost_reset (w : World) (held : List Ptr) : NothingLost w.heap w.reset.heap held :=
  ⟨[.free w.cluster.lastError.ptr], rfl, fun id hid => by simp [obtainedIn, HeapEvent.obtains] at hid⟩

theorem ensures_failingRun (halloc : ∀ n, alloc n = true) {w : World} (hslot : w.SlotPlaced) (op : Operation)
    (result : op.kind.Out) :
    Ensures (Operation.run alloc op result) w fun out w' => out.1 ≠ 0 →
      (NothingLost w.heap w'.heap (op.kind.held out.2 ++ [w'.cluster.lastError.ptr]) ↔ ¬w.KeyUnsent op) := by
  rw [Operation.run_eq]
  refine (ensures_withMaster (Q := fun k c out s' => out.1 ≠ 0 →
    FailsOff op (w.reset.session k) c out s' ∧ (w.reset.session k).Unresized s') ?_).mono ?_
  · intro k c _ hc
    cases hframe : op.frame with
    | none =>
        intro out s' hrun
        rw [clientOperation, bind_run, send_aborts halloc hframe] at hrun
        cases hrun
    | some frame =>
        intro out s' hrun hne
        exact ⟨ensures_failingOperation halloc op result hframe hc rfl out s' hrun hne,
          failsSteady_operation halloc op result _ out s' hrun hne⟩
  · intro out w' hreturned hne
    rcases hreturned with ⟨hnone, rfl⟩ | ⟨k, c, s', hmaster, hc, hfails, rfl⟩
    · refine iff_of_true (nothingLost_reset w _) fun hkeys => ?_
      obtain ⟨k, c, hmaster, hc, -⟩ := hkeys
      rw [getMaster_eq_some.mpr ⟨hmaster, c, hc⟩] at hnone
      cases hnone
    · obtain ⟨hoff, hsteady⟩ := hfails hne
      obtain ⟨events, hadds, hevents⟩ := w.adds_reset k hsteady
      have hsame : w.KeyUnsent op ↔ Crakoon.KeyUnsent c op.writeCount := by
        refine ⟨fun hkeys => ?_, fun hkeys => ⟨k, c, hmaster, hc, hkeys⟩⟩
        obtain ⟨k', c', hmaster', hc', hkeys⟩ := hkeys
        obtain rfl := Option.some.inj (hmaster.symm.trans hmaster')
        obtain rfl := Option.some.inj (hc.symm.trans hc')
        exact hkeys
      cases hoff with
      | message hkeys hnet =>
          refine iff_of_true ?_ (hsame.not.mpr hkeys)
          exact (nothingLost_of_net hadds hevents hslot (w.net_reset ▸ hnet)).mono (List.subset_append_right _ _)
      | iterator hkeys hlast hheld id hnew hnet =>
          refine iff_of_false ?_ (not_not.mpr (hsame.mpr hkeys))
          refine lost_of_net hadds hevents hslot hnew (w.net_reset ▸ hnet) ?_
          change Ptr.block id ∉ op.kind.held out.2 ++ [s'.lastError.ptr]
          rw [hheld, hlast]
          intro hmem
          cases List.mem_singleton.mp hmem

theorem ensures_failingWhoMasterRun (halloc : ∀ n, alloc n = true) {w : World} (hslot : w.SlotPlaced) (master : Data) :
    Ensures (arakoonWhoMaster alloc master) w fun out w' => out.1 ≠ 0 →
      NothingLost w.heap w'.heap [out.2.ptr, w'.cluster.lastError.ptr] := by
  refine (ensures_withMaster (Q := fun k c out s' => out.1 ≠ 0 →
    s'.heap.net = (w.reset.session k).heap.net ∧ (w.reset.session k).Unresized s') ?_).mono ?_
  · intro k c _ _ out s' hrun hne
    exact ⟨ensures_failingWhoMaster halloc master _ out s' hrun hne,
      failsSteady_clusterNodeWhoMaster halloc master _ out s' hrun hne⟩
  · intro out w' hreturned hne
    rcases hreturned with ⟨hnone, rfl⟩ | ⟨k, c, s', -, -, hfails, rfl⟩
    · exact nothingLost_reset w _
    · obtain ⟨hnet, hsteady⟩ := hfails hne
      obtain ⟨events, hadds, hevents⟩ := w.adds_reset k hsteady
      have hledger : s'.heap.net = w.heap.net - Ptr.one w.cluster.lastError.ptr + Data.null.net :=
        (hnet.trans w.net_reset).trans (add_zero _).symm
      obtain ⟨_, hadds', hfreed⟩ := nothingLost_of_net hadds hevents hslot hledger
      refine ⟨_, hadds', fun id hid => .inr ((hfreed id hid).resolve_left fun hmem => ?_)⟩
      cases List.mem_singleton.mp hmem

/-- In every state that calls on a cluster lead to: an operation that fails has lost no block if and only if it is not
a `multi_get` of which the first write is accepted and a later one is not. -/
theorem failing_operations_lose_nothing_iff {granting : Nat → Bool} {start w : World}
    {history : List (ClusterCall × ArakoonRc)} (hstart : start.cluster.lastError = .null)
    (hrun : Run (clusterStep granting dial) (fun _ _ => True) start history w) (halloc : ∀ n, alloc n = true) :
    (∀ op result, Ensures (Operation.run alloc op result) w fun out w' => out.1 ≠ 0 →
      (NothingLost w.heap w'.heap (op.kind.held out.2 ++ [w'.cluster.lastError.ptr]) ↔ ¬w.KeyUnsent op)) ∧
    ∀ master, Ensures (arakoonWhoMaster alloc master) w fun out w' => out.1 ≠ 0 →
      NothingLost w.heap w'.heap [out.2.ptr, w'.cluster.lastError.ptr] := by
  have hslot : w.SlotPlaced := hrun.invariant (World.slotPlaced_null hstart) fun call w rc w' h _ hstep =>
    slotPlaced_clusterStep h hstep
  exact ⟨fun op result => ensures_failingRun halloc hslot op result, fun master =>
    ensures_failingWhoMasterRun halloc hslot master⟩

end Runs

/-- A connection on which the first `n` writes are accepted. -/
def Peer.acceptingWrites (n : Nat) : Peer :=
  { Peer.answering [] with writes := fun i => if i < n then .complete else .stopped 0 (Peer.answering []).ending }

/-- A value that cannot be asked for, and the values of a key that is not sent. -/
theorem failing_operations_lose_nothing_iff_one :
    let w := World.connected sampleName (.acceptingWrites 0)
    let w' := World.connected sampleName (.acceptingWrites 1)
    (∃ out w₁, (Operation.run (fun _ => true) (.get none [107]) Data.null).run w = some (out, w₁) ∧ out.1 ≠ 0 ∧
      NothingLost w.heap w₁.heap [out.2.ptr, w₁.cluster.lastError.ptr]) ∧
    ∃ out w₁, (Operation.run (fun _ => true) (.multiGet none [[107]]) none).run w' = some (out, w₁) ∧ out.1 ≠ 0 ∧
      ¬NothingLost w'.heap w₁.heap (ReplyKind.held .list out.2 ++ [w₁.cluster.lastError.ptr]) := by
  intro w w'
  have hstays : ∀ w₀ : World, Run (clusterStep (fun _ => true) unreachable) (fun _ _ => True) w₀ [] w₀ := fun _ => .nil
  refine ⟨⟨_, _, rfl, by decide, ?_⟩, ⟨_, _, rfl, by decide, fun hnothing => ?_⟩⟩
  · have hiff := (failing_operations_lose_nothing_iff rfl (hstays w) fun _ => rfl).1 (.get none [107]) Data.null _ _ rfl
      (by decide)
    refine hiff.mpr fun hkeys => ?_
    obtain ⟨k, c, -, -, hkeys⟩ := hkeys
    exact keyUnsent_one c hkeys
  · have hiff := (failing_operations_lose_nothing_iff rfl (hstays w') fun _ => rfl).1 (.multiGet none [[107]]) none _ _
      rfl (by decide)
    exact hiff.mp hnothing ⟨0, _, rfl, rfl, rfl, 1, by decide, by decide⟩

/-- The iterator over the keys is not given back where one of them cannot be sent. -/
theorem multi_get_loses_iterator :
    let w := World.connected sampleName (.acceptingWrites 1)
    ∃ out w', (Operation.run (fun _ => true) (.multiGet none [[107]]) none).run w = some (out, w') ∧ out.1 ≠ 0 ∧
      ¬NothingLost w.heap w'.heap (ReplyKind.held .list out.2 ++ [w'.cluster.lastError.ptr]) := by
  refine ⟨_, _, rfl, by decide, fun hnothing => ?_⟩
  obtain ⟨events, hadds, hfreed⟩ := hnothing
  obtain rfl : [.free .null, .malloc 0, .free (.block 0), .malloc 1] = events := hadds
  rcases hfreed 1 (by decide) with hmem | hcount
  · cases List.mem_singleton.mp hmem
  · exact absurd hcount (by decide)

end Crakoon
