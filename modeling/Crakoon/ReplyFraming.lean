import Crakoon.RequestFraming

/-!
# Replies stay in step

Between calls nothing that a server has sent is left on a connection. The server is one that answers every request
with a well-formed reply, of which every byte arrives. The two functions that read a reply without the message of
an error leave this message behind, and so the runs are those in which no request for the master and no request
for a routing table is answered with an error.
-/

namespace Crakoon

open Programs Reading

/-- What goes before a request: nothing, or the prologue on a connection that has just been opened. -/
def Introduces (name : CString) (bs : Bytes) : Prop := bs = [] ∨ (prologueCommand name).assembled = some bs

/-- The peer takes and delivers everything, and its answers are well-formed replies. -/
structure Peer.Serves (name : CString) (peer : Peer) : Prop where
  writes : ∀ n, peer.writes n = .complete
  reads : ∀ n, peer.reads n = none
  answers : ∀ turn intro kind frame, Introduces name intro → Asks kind frame →
    ∃ r : Reply kind, r.Word (peer.answers turn (intro ++ frame))

/-- A connection between calls: all that was sent has been answered, and all answers have been read. -/
structure Resting (name : CString) (c : Conn) : Prop where
  serves : c.peer.Serves name
  inbox : c.inbox = []
  pending : c.pending = []

/-- A connection on which a request may be made: one between calls, or one that has just been opened. -/
structure Ready (name : CString) (c : Conn) : Prop where
  serves : c.peer.Serves name
  inbox : c.inbox = []
  pending : Introduces name c.pending

theorem Resting.ready {name : CString} {c : Conn} (h : Resting name c) : Ready name c :=
  ⟨h.serves, h.inbox, .inl h.pending⟩

theorem Ready.answers {name : CString} {c : Conn} (h : Ready name c) {kind : ReplyKind} {frame : Bytes}
    (hframe : Asks kind frame) : ∃ r : Reply kind, r.Word (c.peer.answers c.turns (c.pending ++ frame)) :=
  h.serves.answers c.turns c.pending kind frame h.pending hframe

/-- The answer to the request has the code of success. -/
def Granted (frame : Bytes) (c : Conn) : Prop := ∃ rest, c.peer.answers c.turns (c.pending ++ frame) = le32 0 ++ rest

/-- Without its message, a reply is read to its end exactly if its code is success. -/
theorem readBare_reply {kind : ReplyKind} {r : Reply kind} {bs : Bytes} (h : r.Word bs) :
    ∃ o rest, (readBare (readPayload kind)).run bs = .ok (o, rest) ∧ (rest = [] ↔ ∃ tail, bs = le32 0 ++ tail) := by
  have hreads := reads_bare (reads_payload kind)
  cases r with
  | error code message =>
      obtain ⟨hne, hcode, word, ⟨-, rfl⟩, rfl⟩ := h
      have hword : BareWord kind.Word none (le32 code) := ⟨code, hne, hcode, rfl⟩
      have hmessage : writeString message ≠ [] := List.append_ne_nil_of_left_ne_nil (List.cons_ne_nil _ _) _
      refine ⟨none, _, hreads.parses hword _, iff_of_false hmessage ?_⟩
      intro hdone
      obtain ⟨tail, heq⟩ := hdone
      have hcodes := (List.append_inj heq rfl).1
      have hzero := congrArg ofLe32 hcodes
      rw [ofLe32_le32_of_lt hcode, ofLe32_le32_of_lt (by decide)] at hzero
      exact hne hzero
  | payload p =>
      obtain ⟨word, hp, rfl⟩ := h
      have hword : BareWord kind.Word (some p) (le32 0 ++ word) := ⟨word, hp, rfl⟩
      have hparse := hreads.parses hword []
      rw [List.append_nil] at hparse
      exact ⟨some p, [], hparse, iff_of_true rfl ⟨word, rfl⟩⟩

/-- After an exchange that does not read the message of an error, the connection is between calls if and only if the
answer was not an error. -/
theorem BareExchange.resting_iff (kind : ReplyKind) {α : Type} {done : kind.Payload → α → Prop} {failed : α}
    {s s' : Session} {name : CString} {c : Conn} {frame : Bytes} {out : ArakoonRc × α}
    (h : BareExchange (readPayload kind) done failed s c frame out s') (hready : Ready name c)
    (hframe : Asks kind frame) :
    (∀ c', s'.conn = some c' → Resting name c') ↔ Granted frame c := by
  obtain ⟨r, hword⟩ := hready.answers hframe
  obtain ⟨o, left, hrun, hleft⟩ := readBare_reply hword
  cases h with
  | unsent _ _ stopped => exact absurd (hready.serves.writes _) stopped
  | read o' rest c' hread hconn peer _ inbox pending =>
      rw [hready.inbox, List.nil_append, hrun] at hread
      obtain ⟨-, rfl⟩ := Prod.mk.inj (Except.ok.inj hread)
      rw [Granted, ← hleft]
      constructor
      · intro hresting
        rw [← inbox]
        exact (hresting c' hconn).inbox
      · intro hnothing c₁ hc₁
        obtain rfl := Option.some.inj (hconn.symm.trans hc₁)
        exact ⟨peer ▸ hready.serves, inbox.trans hnothing, pending⟩
  | cut _ _ stuck =>
      refine absurd ⟨hready.serves.reads, o, left, ?_⟩ stuck
      rw [hready.inbox, List.nil_append]
      exact hrun

/-- After an operation it always is. -/
theorem Exchange.resting {op : Operation} {result : op.kind.Out} {s s' : Session} {name : CString} {c c' : Conn}
    {frame : Bytes} {out : ArakoonRc × op.kind.Out} (h : Exchange op result s c frame out s') (hready : Ready name c)
    (hframe : op.frame = some frame) (hopen : s'.conn = some c') : Resting name c' := by
  obtain ⟨r, hword⟩ := hready.answers (.operation hframe)
  have hrun := readReply_word hword []
  rw [List.append_nil] at hrun
  cases h with
  | unsent hrc hsent => exact absurd hsent (not_unsent (fun n _ => hready.serves.writes _) hrc)
  | answered _ r' rest c₁ hread hconn peer _ inbox pending =>
      rw [hready.inbox, List.nil_append, hrun] at hread
      obtain ⟨-, rfl⟩ := Prod.mk.inj (Except.ok.inj hread)
      obtain rfl := Option.some.inj (hconn.symm.trans hopen)
      exact ⟨peer ▸ hready.serves, inbox, pending⟩
  | cut _ _ hconn =>
      rw [hconn] at hopen
      cases hopen

theorem discipline_resting {dial : Dialer}
    (hdial : ∀ n address peer, dial n address = .ok peer → ∀ name, peer.Serves name) :
    Discipline dial Resting Ready (fun _ _ => True) Granted where
  weaken := Resting.ready
  dialed := by
    intro n address peer name prologue c' hpeer hprologue wrote
    refine ⟨?_, wrote.inbox, .inr ?_⟩
    · rw [wrote.peer]
      exact hdial n address peer hpeer name
    · rw [hprologue, wrote.pending]
      rfl
  ask := fun hready hgranted hexchange hopen =>
    (BareExchange.resting_iff .stringOption hexchange hready .whoMaster).mpr hgranted _ hopen
  config := fun hresting hgranted hexchange hopen =>
    (BareExchange.resting_iff .string hexchange hresting.ready .config).mpr hgranted _ hopen
  operation := fun hresting _ hframe hexchange hopen => hexchange.resting hresting.ready hframe hopen

section Runs

variable {alloc : Nat → Bool} {dial : Dialer}

variable (alloc dial) in
/-- No request for the master and no request for a routing table that the call makes is answered with an error. -/
def ClientCall.Granted (call : ClientCall) (c : Client) : Prop :=
  call.Allowed alloc dial (fun _ _ => True) Crakoon.Granted c

variable (halloc : ∀ n, alloc n = true)
include halloc

/-- What a call that makes a request of its own leaves on the connection of the master. -/
theorem resting_clientStep {call : ClientCall} {c c' : Client} {rc : ArakoonRc} {frame : Bytes}
    {k : NodeId} {conn : Conn} {name : CString} (hstep : clientStep alloc dial call c = .ok (rc, c'))
    (hrequest : call.request = some frame)
    (hmaster : c.keeper.cluster.master = some k) (hconn : (c.keeper.cluster.node k).conn = some conn)
    (hresting : Resting name conn) :
    (∀ conn', (c'.keeper.cluster.node k).conn = some conn' → Resting name conn') ↔ call.Granted alloc dial c := by
  cases call with
  | operation op result =>
      obtain ⟨s, out, s', hexchange, hafter⟩ := operation_step halloc hmaster hconn hrequest hstep
      rw [hafter]
      exact iff_of_true (fun _ hopen => hexchange.resting hresting.ready hrequest hopen) fun _ _ _ _ => trivial
  | whoMaster master =>
      obtain rfl := Option.some.inj hrequest
      obtain ⟨s, out, s', hexchange, hafter⟩ := whoMaster_step halloc hmaster hconn hstep
      rw [hafter, BareExchange.resting_iff .stringOption hexchange hresting.ready .whoMaster]
      exact (masterPromised_iff hmaster hconn).symm
  | nurseryUpdateRouting memory getaddrinfo =>
      obtain rfl := Option.some.inj hrequest
      obtain ⟨s, out, s', hexchange, hafter⟩ := updateRouting_step halloc hmaster hconn hstep
      rw [hafter, BareExchange.resting_iff .string hexchange hresting.ready .config]
      exact (masterPromised_iff hmaster hconn).symm
  | _ => cases hrequest

/-- In a run in which no request for the master or for a routing table is answered with an error, every call leaves
every open connection with all replies read to their end. Of any single request on such a connection, it is left so if
and only if this is not one of these two answered with an error. -/
theorem reply_framing (hdial : ∀ n address peer, dial n address = .ok peer → ∀ name, peer.Serves name) :
    (∀ start history c, start.All Resting →
      Run (clientStep alloc dial) (ClientCall.Granted alloc dial) start history c → c.All Resting) ∧
    ∀ call c rc c' frame k conn name, clientStep alloc dial call c = .ok (rc, c') → call.request = some frame →
      c.keeper.cluster.master = some k → (c.keeper.cluster.node k).conn = some conn → Resting name conn →
      ((∀ conn', (c'.keeper.cluster.node k).conn = some conn' → Resting name conn') ↔ call.Granted alloc dial c) :=
  ⟨fun _ _ _ hstart h => run_all halloc (discipline_resting hdial) hstart h,
    fun _ _ _ _ _ _ _ _ hstep hrequest hmaster hconn hresting =>
      resting_clientStep halloc hstep hrequest hmaster hconn hresting⟩

end Runs

/-- An answer that is an error, whatever was asked. -/
def errorReply : Bytes := le32 4 ++ writeString [120]

theorem errorReply_word (kind : ReplyKind) : (Reply.error 4 [120] : Reply kind).Word errorReply :=
  ⟨by decide, by decide, _, ⟨by decide, rfl⟩, rfl⟩

theorem serves_errors (name : CString) : (Peer.answering errorReply).Serves name where
  writes := fun _ => rfl
  reads := fun _ => rfl
  answers := fun _ _ kind _ _ _ => ⟨.error 4 [120], errorReply_word kind⟩

/-- A node that answers a search for the master with an error leaves the message of the error on the connection. -/
theorem connectMaster_refused :
    let peer := Peer.answering errorReply
    (∀ name, peer.Serves name) ∧ ∃ c conn, Run (clientStep (fun _ => true) (reaching peer)) (fun _ _ => True)
        ⟨World.single sampleName, none⟩ [(.connectMaster, ArakoonReturnCode.clientNetworkError.rc)] c ∧
      (c.keeper.cluster.node 0).conn = some conn ∧ conn.inbox = writeString [120] :=
  ⟨serves_errors, _, _, .call .nil trivial rfl, rfl, rfl⟩

/-- A node that knows the master and refuses everything else. -/
def Peer.naming : Peer :=
  { Peer.answering errorReply with answers := fun _ bs => if bs = whoMasterFrame then masterReply else errorReply }

/-- Of all requests only the one for the master has its bytes. -/
theorem Asks.of_whoMasterFrame {kind : ReplyKind} (h : Asks kind whoMasterFrame) : kind = .stringOption := by
  generalize hframe : whoMasterFrame = frame at h
  cases h with
  | @operation op _ hop =>
      obtain ⟨rest, rfl⟩ := Operation.frame_begins hop
      have hcode : (0x02 : UInt8) = op.code := (List.cons.inj hframe).1
      cases op <;> cases hcode
  | whoMaster => rfl
  | config => cases hframe

theorem serves_naming : Peer.naming.Serves sampleName where
  writes := fun _ => rfl
  reads := fun _ => rfl
  answers := by
    intro turn intro kind frame hintro hasks
    by_cases hbytes : intro ++ frame = whoMasterFrame
    · have hanswer : Peer.naming.answers turn (intro ++ frame) = masterReply := if_pos hbytes
      have hintro' : intro = [] := by
        rcases hintro with rfl | hprologue
        · rfl
        · obtain rfl := Option.some.inj hprologue
          cases hbytes
      subst hintro'
      rw [List.nil_append] at hbytes
      subst hbytes
      obtain rfl := hasks.of_whoMasterFrame
      rw [hanswer]
      exact ⟨.payload (some sampleName.bytes), _, ⟨1, _, by decide, ⟨by decide, rfl⟩, rfl⟩, rfl⟩
    · have hanswer : Peer.naming.answers turn (intro ++ frame) = errorReply := if_neg hbytes
      rw [hanswer]
      exact ⟨.error 4 [120], errorReply_word kind⟩

theorem World.connected_conn {name : CString} {peer : Peer} {j : NodeId} {c : Conn}
    (h : ((World.connected name peer).cluster.node j).conn = some c) : c = Conn.fresh peer := by
  unfold World.connected arakoonClusterAddNode Cluster.setNode at h
  dsimp only at h
  split_ifs at h
  · exact (Option.some.inj h).symm
  · cases h

/-- The name of the master, and a value that is refused. -/
theorem reply_framing_naming :
    ∃ c conn rc, Run (clientStep (fun _ => true) unreachable) (ClientCall.Granted (fun _ => true) unreachable)
        ⟨World.connected sampleName .naming, none⟩
        [(.operation (.get none [107]) Data.null, rc), (.whoMaster .null, 0)] c ∧
      (c.keeper.cluster.node 0).conn = some conn ∧ Resting sampleName conn := by
  have hstart : Client.All Resting ⟨World.connected sampleName .naming, none⟩ := by
    refine ⟨fun k conn hconn => ?_, fun routing htable => by cases htable⟩
    obtain rfl := World.connected_conn hconn
    exact ⟨serves_naming, rfl, rfl⟩
  have hrun : ∃ c conn rc,
      Run (clientStep (fun _ => true) unreachable) (ClientCall.Granted (fun _ => true) unreachable)
        ⟨World.connected sampleName .naming, none⟩
        [(.operation (.get none [107]) Data.null, rc), (.whoMaster .null, 0)] c ∧
        c.keeper.cluster.name = sampleName ∧ (c.keeper.cluster.node 0).conn = some conn := by
    refine ⟨_, _, _, .call (.call .nil ?_ rfl) (fun _ _ _ _ => trivial) rfl, rfl, rfl⟩
    intro k hk conn hconn
    obtain rfl := Option.some.inj hk
    obtain rfl := Option.some.inj hconn
    exact ⟨_, rfl⟩
  obtain ⟨c, conn, rc, hcalls, hname, hconn⟩ := hrun
  have hresting := ((reply_framing (fun _ => rfl) fun _ _ _ h => by cases h).1 _ _ c hstart hcalls).1 0 conn hconn
  rw [hname] at hresting
  exact ⟨c, conn, rc, hcalls, hconn, hresting⟩

end Crakoon
