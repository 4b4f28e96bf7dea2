import Crakoon.ClientRuns
import Crakoon.ReplyRoundTrip

/-!
# Requests stay in step

What has been sent on an open connection is the prologue and whole requests, over runs of the calls of a client in
any order. A write that fails may stop after any byte, and then the connection has to be closed. `arakoon_hello` and
`arakoon_version` do not close it, and so the runs are those in which no write of these two stops inside of its
request.
-/

namespace Crakoon

open Programs Reading

/-- The bytes of a request, by the kind of reply that it asks for. -/
inductive Asks : ReplyKind → Bytes → Prop where
  | operation {op : Operation} {frame : Bytes} (h : op.frame = some frame) : Asks op.kind frame
  | whoMaster : Asks .stringOption whoMasterFrame
  | config : Asks .string configFrame

/-- What has been sent on a connection is the prologue, with the name of the cluster, and whole requests. -/
def Framed (name : CString) (c : Conn) : Prop :=
  ∃ (prologue : Bytes) (frames : List Bytes), (prologueCommand name).assembled = some prologue ∧
    (∀ frame ∈ frames, ∃ kind, Asks kind frame) ∧ c.sent = prologue ++ frames.flatten

theorem Framed.append {name : CString} {c c' : Conn} {kind : ReplyKind} {frame : Bytes} (h : Framed name c)
    (hframe : Asks kind frame) (hsent : c'.sent = c.sent ++ frame) : Framed name c' := by
  obtain ⟨prologue, frames, hprologue, hframes, hold⟩ := h
  refine ⟨prologue, frames ++ [frame], hprologue, fun f hf => ?_, ?_⟩
  · rcases List.mem_append.mp hf with hf | hf
    · exact hframes f hf
    · exact ⟨kind, List.mem_singleton.mp hf ▸ hframe⟩
  · rw [hsent, hold, List.flatten_append, List.flatten_singleton, List.append_assoc]

/-- The connection is closed, or `bs` has been sent on it, which was `c` before. -/
def SentOrClosed (c : Conn) (bs : Bytes) (conn : Option Conn) : Prop :=
  conn = none ∨ ∃ c', conn = some c' ∧ c'.sent = c.sent ++ bs

/-- A write that the operation does not check is not stopped inside of the request. -/
def Operation.WritesWhole (op : Operation) (c : Conn) : Prop :=
  op.writesUnchecked = true → ∀ frame moved failure, op.frame = some frame →
    c.peer.writes c.writes = .stopped moved failure → frame.length ≤ moved

theorem BareExchange.sentOrClosed {α γ : Type} {p : Reader Unit UInt8 γ} {done : γ → α → Prop} {failed : α}
    {s s' : Session} {c : Conn} {frame : Bytes} {out : ArakoonRc × α}
    (h : BareExchange p done failed s c frame out s') :
    SentOrClosed c frame s'.conn := by
  cases h with
  | unsent _ hconn => exact .inl hconn
  | read r rest c' _ hconn _ sent => exact .inr ⟨c', hconn, sent⟩
  | cut _ hconn => exact .inl hconn

/-- An operation sends its whole request or closes the connection, unless it is one that does not check its write and
this is stopped inside of the request. -/
theorem Exchange.sentOrClosed_iff {op : Operation} {result : op.kind.Out} {s s' : Session} {c : Conn} {frame : Bytes}
    {out : ArakoonRc × op.kind.Out} (h : Exchange op result s c frame out s') (hframe : op.frame = some frame) :
    SentOrClosed c frame s'.conn ↔ op.WritesWhole c := by
  have hcomplete : (∀ n < op.writeCount, c.peer.writes (c.writes + n) = .complete) → op.WritesWhole c := by
    intro hwrites _ frame' moved failure _ hstopped
    have hfirst := hwrites 0 (by rw [Operation.writeCount]; omega)
    rw [Nat.add_zero, hstopped] at hfirst
    cases hfirst
  cases h with
  | unsent hrc hsent =>
      cases hsent with
      | whole c' hzero => exact absurd hzero hrc
      | closed hchecked _ hconn =>
          refine ⟨fun _ hunchecked => ?_, fun _ => .inl hconn⟩
          rw [hchecked] at hunchecked
          cases hunchecked
      | partly moved failure hleft _ hconn stopped =>
          have hsent : (c.accept (frame.take moved)).sent = c.sent ++ frame.take moved := rfl
          constructor
          · intro hcases _ frame' moved' failure' hframe' hstopped'
            rcases hcases with hnone | ⟨c', hc', hwhole⟩
            · rw [hconn] at hnone
              cases hnone
            · obtain rfl := Option.some.inj (hconn.symm.trans hc')
              obtain rfl := Option.some.inj (hframe.symm.trans hframe')
              obtain ⟨rfl, -⟩ := WriteOutcome.stopped.inj (stopped.symm.trans hstopped')
              rw [hsent] at hwhole
              exact List.take_eq_self_iff _ |>.mp (List.append_cancel_left hwhole)
          · intro hwhole
            refine .inr ⟨_, hconn, ?_⟩
            rw [hsent, List.take_of_length_le (hwhole hleft frame moved failure hframe stopped)]
  | answered complete r rest c' _ hconn _ sent =>
      exact ⟨fun _ => hcomplete complete, fun _ => .inr ⟨c', hconn, sent⟩⟩
  | cut complete _ hconn => exact ⟨fun _ => hcomplete complete, fun _ => .inl hconn⟩

theorem Framed.after {name : CString} {c c' : Conn} {kind : ReplyKind} {frame : Bytes} {conn : Option Conn}
    (h : Framed name c) (hframe : Asks kind frame) (hend : SentOrClosed c frame conn) (hopen : conn = some c') :
    Framed name c' := by
  rcases hend with rfl | ⟨c₁, rfl, hsent⟩
  · cases hopen
  · obtain rfl := Option.some.inj hopen
    exact h.append hframe hsent

theorem discipline_framed (dial : Dialer) :
    Discipline dial Framed Framed Operation.WritesWhole fun _ _ => True where
  weaken := id
  dialed := by
    intro n address peer name prologue c' _ hprologue wrote
    refine ⟨prologue, [], hprologue, fun _ h => absurd h List.not_mem_nil, ?_⟩
    rw [wrote.sent, List.flatten_nil, List.append_nil]
    rfl
  ask := fun hframed _ hexchange hopen => hframed.after .whoMaster hexchange.sentOrClosed hopen
  config := fun hframed _ hexchange hopen => hframed.after .config hexchange.sentOrClosed hopen
  operation := fun hframed hwhole hframe hexchange hopen =>
    hframed.after (.operation hframe) ((hexchange.sentOrClosed_iff hframe).mpr hwhole) hopen

/-- The request that a call makes to the master of the keeper. -/
def ClientCall.request : ClientCall → Option Bytes
  | .operation op _ => op.frame
  | .whoMaster _ => some whoMasterFrame
  | .nurseryUpdateRouting _ _ => some configFrame
  | _ => none

section Runs

variable {alloc : Nat → Bool} {dial : Dialer}

variable (alloc dial) in
/-- No unchecked write of the call is stopped inside of its request. -/
def ClientCall.WritesWhole (call : ClientCall) (c : Client) : Prop :=
  call.Allowed alloc dial Operation.WritesWhole (fun _ _ => True) c

variable (halloc : ∀ n, alloc n = true)
include halloc

/-- What a call that makes a request of its own does to the connection of the master. -/
theorem sentOrClosed_clientStep {call : ClientCall} {c c' : Client} {rc : ArakoonRc} {frame : Bytes} {k : NodeId}
    {conn : Conn} (hstep : clientStep alloc dial call c = .ok (rc, c')) (hrequest : call.request = some frame)
    (hmaster : c.keeper.cluster.master = some k) (hconn : (c.keeper.cluster.node k).conn = some conn) :
    SentOrClosed conn frame (c'.keeper.cluster.node k).conn ↔ call.WritesWhole alloc dial c := by
  cases call with
  | operation op result =>
      obtain ⟨s, out, s', hexchange, hafter⟩ := operation_step halloc hmaster hconn hrequest hstep
      rw [hafter, hexchange.sentOrClosed_iff hrequest]
      exact (masterPromised_iff hmaster hconn).symm
  | whoMaster master =>
      obtain rfl := Option.some.inj hrequest
      obtain ⟨s, out, s', hexchange, hafter⟩ := whoMaster_step halloc hmaster hconn hstep
      rw [hafter]
      exact iff_of_true hexchange.sentOrClosed fun _ _ _ _ => trivial
  | nurseryUpdateRouting memory getaddrinfo =>
      obtain rfl := Option.some.inj hrequest
      obtain ⟨s, out, s', hexchange, hafter⟩ := updateRouting_step halloc hmaster hconn hstep
      rw [hafter]
      exact iff_of_true hexchange.sentOrClosed fun _ _ _ _ => trivial
  | _ => cases hrequest

/-- In a run in which no unchecked write is stopped inside of its request, only the prologue and whole requests are
sent on a connection that stays open. Of any single call, a request on an open connection is sent whole, or the
connection is closed, if and only if none of its unchecked writes is stopped so. -/
theorem request_framing :
    (∀ start history c, start.All Framed →
      Run (clientStep alloc dial) (ClientCall.WritesWhole alloc dial) start history c → c.All Framed) ∧
    ∀ call c rc c' frame k conn, clientStep alloc dial call c = .ok (rc, c') → call.request = some frame →
      c.keeper.cluster.master = some k → (c.keeper.cluster.node k).conn = some conn →
      (SentOrClosed conn frame (c'.keeper.cluster.node k).conn ↔ call.WritesWhole alloc dial c) :=
  ⟨fun _ _ _ hstart h => run_all halloc (discipline_framed dial) hstart h,
    fun _ _ _ _ _ _ _ hstep hrequest hmaster hconn => sentOrClosed_clientStep halloc hstep hrequest hmaster hconn⟩

end Runs

/-- A cluster of one node, which is not connected. -/
def World.single (name : CString) : World where
  heap := Heap.empty
  dials := 0
  cluster := arakoonClusterAddNode (arakoonClusterNew .version1 name) (arakoonClusterNodeNew name)

theorem World.single_closed (name : CString) (j : NodeId) : ((World.single name).cluster.node j).conn = none := by
  unfold World.single arakoonClusterAddNode Cluster.setNode
  dsimp only
  split_ifs <;> rfl

/-- A peer that gives its answers in order. -/
def Peer.scripted (replies : List Bytes) : Peer :=
  { Peer.answering [] with answers := fun turn _ => replies.getD turn [] }

/-- A peer that takes three bytes of the write with the number `n`. -/
def Peer.stopping (n : Nat) (replies : List Bytes) : Peer :=
  { Peer.scripted replies with
    writes := fun m =>
      if m = n then .stopped 3 ⟨ArakoonReturnCode.clientNetworkError, clientNetworkError_ne_zero⟩ else .complete }

/-- Every attempt to connect reaches the peer. -/
def reaching (peer : Peer) : Dialer := fun _ _ => .ok peer

def sampleName : CString := ⟨[99], by simp⟩

/-- The answer of a node that the master is `sampleName`. -/
def masterReply : Bytes := le32 0 ++ (1 :: writeString sampleName.bytes)

/-- A write of `arakoon_hello` that stops behind the third byte leaves the connection open. -/
theorem hello_stopped :
    let dial := reaching (.stopping 2 [masterReply])
    let hello := Operation.hello ⟨[97], by simp⟩ sampleName
    ∃ c c' rc conn frame, Run (clientStep (fun _ => true) dial) (fun _ _ => True) ⟨World.single sampleName, none⟩
        [(.connectMaster, 0)] c ∧
      c.keeper.cluster.master = some 0 ∧ (c.keeper.cluster.node 0).conn = some conn ∧ hello.frame = some frame ∧
      clientStep (fun _ => true) dial (.operation hello Data.null) c = .ok (rc, c') ∧
      ¬SentOrClosed conn frame (c'.keeper.cluster.node 0).conn := by
  refine ⟨_, _, _, _, _, .call .nil trivial rfl, rfl, rfl, rfl, rfl, ?_⟩
  intro hcases
  rcases hcases with h | ⟨c', h, hsent⟩
  · cases h
  · obtain rfl := Option.some.inj h
    exact absurd hsent (by decide)

/-- A search for the master and a `hello` request that is written to its end. -/
theorem request_framing_hello :
    let dial := reaching (.scripted [masterReply, le32 0 ++ writeString [118]])
    let hello := Operation.hello ⟨[97], by simp⟩ sampleName
    ∃ c conn, Run (clientStep (fun _ => true) dial) (ClientCall.WritesWhole (fun _ => true) dial)
        ⟨World.single sampleName, none⟩ [(.operation hello Data.null, 0), (.connectMaster, 0)] c ∧
      (c.keeper.cluster.node 0).conn = some conn ∧ Framed sampleName conn := by
  intro dial hello
  have hstart : Client.All Framed ⟨World.single sampleName, none⟩ := Client.all_of_closed (World.single_closed _) rfl
  have hrun : ∃ c conn, Run (clientStep (fun _ => true) dial) (ClientCall.WritesWhole (fun _ => true) dial)
        ⟨World.single sampleName, none⟩ [(.operation hello Data.null, 0), (.connectMaster, 0)] c ∧
        c.keeper.cluster.name = sampleName ∧ (c.keeper.cluster.node 0).conn = some conn := by
    refine ⟨_, _, .call (.call .nil (fun _ _ _ _ _ => trivial) rfl) ?_ rfl, rfl, rfl⟩
    intro k hk conn hconn _ frame moved failure _ hstopped
    obtain rfl := Option.some.inj hk
    obtain rfl := Option.some.inj hconn
    cases hstopped
  obtain ⟨c, conn, hcalls, hname, hconn⟩ := hrun
  have hframed := ((request_framing fun _ => rfl).1 _ _ c hstart hcalls).1 0 conn hconn
  rw [hname] at hframed
  exact ⟨c, conn, hcalls, hconn, hframed⟩

end Crakoon
