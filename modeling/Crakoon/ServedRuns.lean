import Crakoon.OperationRequests
import Crakoon.ReplyFraming

/-!
# Operations on a server

A server is a state machine: it takes the requests off the bytes that it receives, one after the other, and answers
each. Over a run of operations on one connection, each operation that is answered returns what the server answers
behind the requests answered before it; the first one that is not answered fails and closes the connection, and all
later ones are refused. What arrives of an answer may be cut short, and any write or read may fail.
-/

namespace Crakoon

open Programs Reading

/-- A server answers requests one after the other. To the request of an operation it gives a well-formed reply. -/
structure Server (σ : Type) where
  exec : Request → σ → Bytes × σ
  replies : ∀ (op : Operation) (s : σ), op.Admissible → ∃ r : Reply op.kind, r.Word (exec op.request s).1

namespace Server

variable {σ : Type} (server : Server σ)

/-- The state behind a request. -/
def next (s : σ) (r : Request) : σ := (server.exec r s).2

/-- In the state `s` the server has received `bs` since it was in `s₀`: whole requests, all of which it has answered. -/
def Received (s₀ : σ) (bs : Bytes) (s : σ) : Prop :=
  ∃ frames : List (Bytes × Request), (∀ f ∈ frames, Parses readRequest f.1 f.2) ∧ bs = frames.flatMap Prod.fst ∧
    s = (frames.map Prod.snd).foldl server.next s₀

variable {server} {s₀ s s' : σ} {bs : Bytes}

theorem received_nil : server.Received s₀ [] s₀ := ⟨[], fun _ h => absurd h List.not_mem_nil, rfl, rfl⟩

theorem Received.append (h : server.Received s₀ bs s) {frame : Bytes} {r : Request}
    (hframe : Parses readRequest frame r) : server.Received s₀ (bs ++ frame) (server.next s r) := by
  obtain ⟨frames, hframes, rfl, rfl⟩ := h
  refine ⟨frames ++ [(frame, r)], fun f hf => ?_, by simp, by simp⟩
  rcases List.mem_append.mp hf with hf | hf
  · exact hframes f hf
  · obtain rfl := List.mem_singleton.mp hf
    exact hframe

theorem readRequest_nil : ¬∃ out, readRequest.run [] = .ok out := by
  intro h
  obtain ⟨out, hrun⟩ := h
  cases hrun

/-- The bytes that a server has received tell the state it is in. -/
theorem Received.unique (h : server.Received s₀ bs s) (h' : server.Received s₀ bs s') : s = s' := by
  obtain ⟨frames, hframes, rfl, rfl⟩ := h
  obtain ⟨frames', hframes', hbs, rfl⟩ := h'
  rw [Parses.words_unique readRequest_nil hframes hframes' hbs]

end Server

/-- What the caller of an operation is told by a reply. -/
def Reply.Told {kind : ReplyKind} (failed : kind.Out) : Reply kind → ArakoonRc × kind.Out → Prop
  | .error code _, out => out = (int32 code, failed)
  | .payload p, out => out.1 = 0 ∧ kind.Decoded p out.2

theorem Reply.Delivered.told {kind : ReplyKind} {r : Reply kind} {failed : kind.Out} {s s' : Session}
    {out : ArakoonRc × kind.Out} (h : r.Delivered failed s out s') : r.Told failed out := by
  cases r with
  | error code message => exact h.1
  | payload p => exact ⟨h.1, h.2.1⟩

section Exchanges

variable {σ : Type} (server : Server σ) (s₀ : σ)

/-- Nothing is left to read on the connection, and on the other side is the server in the state `s`. -/
structure Conn.Abreast (c : Conn) (s : σ) : Prop where
  inbox : c.inbox = []
  received : server.Received s₀ c.sent s

/-- What arrives in answer to the operation is the answer of the server, or a part of it from its beginning. A write
that the operation does not check is not stopped. -/
structure Conn.Speaks (op : Operation) (c : Conn) : Prop where
  admissible : op.Admissible
  answers : ∀ frame s, op.frame = some frame → server.Received s₀ c.sent s →
    c.peer.answers c.turns (c.pending ++ frame) <+: (server.exec op.request s).1
  writes : op.writesUnchecked = true → c.peer.writes c.writes = .complete

variable {server} {s₀}

/-- A reply that is read off the beginning of a reply is all of it. -/
theorem readReply_whole {kind : ReplyKind} {r r' : Reply kind} {bs arrived rest : Bytes} (h : r.Word bs)
    (hfront : arrived <+: bs) (hread : (readReply kind).run arrived = .ok (r', rest)) :
    r' = r ∧ rest = [] ∧ arrived = bs := by
  obtain ⟨word, hword, rfl⟩ := (reads_reply kind _ _ _).mp hread
  have hwords : word <+: bs := (List.prefix_append word rest).trans hfront
  obtain ⟨rfl, rfl⟩ := Parses.eq_of_isPrefix ((reads_reply kind).parses hword) ((reads_reply kind).parses h) hwords
  have hlen := hfront.length_le
  rw [List.length_append] at hlen
  obtain rfl := List.length_eq_zero_iff.mp (show rest.length = 0 by omega)
  exact ⟨rfl, rfl, List.append_nil word⟩

/-- Where no more than a reply arrives, the operation returns it, and nothing of it is left, or the operation fails and
the connection is closed. -/
theorem Exchange.heard {op : Operation} {result : op.kind.Out} {t t' : Session} {c : Conn} {frame word : Bytes}
    {out : ArakoonRc × op.kind.Out} {r : Reply op.kind} (h : Exchange op result t c frame out t')
    (hinbox : c.inbox = []) (hwrites : op.writesUnchecked = true → c.peer.writes c.writes = .complete)
    (hword : r.Word word) (harrived : c.peer.answers c.turns (c.pending ++ frame) <+: word) :
    (r.Told (op.failed result) out ∧ c.peer.answers c.turns (c.pending ++ frame) = word ∧
      ∃ c', t'.conn = some c' ∧ c'.inbox = [] ∧ c'.sent = c.sent ++ frame) ∨
    out.1 ≠ 0 ∧ t'.conn = none := by
  cases h with
  | unsent hrc sent =>
      cases sent with
      | whole c' hzero => exact absurd hzero hrc
      | closed _ _ hconn => exact .inr ⟨hrc, hconn⟩
      | partly moved failure hunchecked _ _ stopped =>
          rw [hwrites hunchecked] at stopped
          cases stopped
  | answered _ r' rest c' hread hconn _ sent inbox _ delivered =>
      rw [hinbox, List.nil_append] at hread
      obtain ⟨rfl, rfl, hall⟩ := readReply_whole hword harrived hread
      exact .inl ⟨delivered.told, hall, c', hconn, inbox, sent⟩
  | cut _ hrc hconn => exact .inr ⟨hrc, hconn⟩

/-- An operation is answered by the server, which has then received its request, or it fails and the connection is
closed. -/
theorem Exchange.served {op : Operation} {result : op.kind.Out} {t t' : Session} {c : Conn} {s : σ} {frame : Bytes}
    {out : ArakoonRc × op.kind.Out} (h : Exchange op result t c frame out t') (hframe : op.frame = some frame)
    (habreast : c.Abreast server s₀ s) (hspeaks : c.Speaks server s₀ op) :
    (∃ r : Reply op.kind, r.Word (server.exec op.request s).1 ∧ r.Told (op.failed result) out ∧
      ∃ c', t'.conn = some c' ∧ c'.Abreast server s₀ (server.next s op.request)) ∨
    out.1 ≠ 0 ∧ t'.conn = none := by
  obtain ⟨r, hword⟩ := server.replies op s hspeaks.admissible
  obtain ⟨frame', hframe', hparses⟩ := Operation.parses_frame hspeaks.admissible
  obtain rfl := Option.some.inj (hframe.symm.trans hframe')
  have harrived := hspeaks.answers frame s hframe habreast.received
  rcases h.heard habreast.inbox hspeaks.writes hword harrived with ⟨htold, -, c', hconn, hinbox, hsent⟩ | hfailed
  · refine .inl ⟨r, hword, htold, c', hconn, hinbox, ?_⟩
    rw [hsent]
    exact habreast.received.append hparses
  · exact .inr hfailed

end Exchanges

/-- An operation with what its result variables hold. -/
abbrev OperationCall := (op : Operation) × op.kind.Out

/-- What an operation leaves in its result variables, behind its code. -/
abbrev Returned := (kind : ReplyKind) × (ArakoonRc × kind.Out)

section Calls

variable {σ : Type} (server : Server σ) (s₀ : σ)

/-- An operation as the server explains it. While the connection is live, an operation is answered, and then it returns
what the server answers in the state in which it is, or it fails and the connection is not live any more. -/
inductive ServedOne (op : Operation) (result : op.kind.Out) :
    Bool → σ → ArakoonRc × op.kind.Out → Bool → σ → Prop where
  | answered {s : σ} {out : ArakoonRc × op.kind.Out} (r : Reply op.kind) (word : r.Word (server.exec op.request s).1)
      (told : r.Told (op.failed result) out) : ServedOne op result true s out true (server.next s op.request)
  | failed {s : σ} {out : ArakoonRc × op.kind.Out} (hrc : out.1 ≠ 0) : ServedOne op result true s out false s
  | refused {s : σ} :
      ServedOne op result false s (ArakoonReturnCode.clientNotConnected.rc, op.notConnected result) false s

/-- The master of the cluster is the node `k`, and while the connection to it is live, the server is behind it in the
state `s`. -/
def Cluster.Abreast (k : NodeId) (live : Bool) (s : σ) (cluster : Cluster) : Prop :=
  cluster.master = some k ∧
    if live then ∃ c, (cluster.node k).conn = some c ∧ c.Abreast server s₀ s else (cluster.node k).conn = none

variable {server} {s₀} {alloc : Nat → Bool} (halloc : ∀ n, alloc n = true)
include halloc

theorem ensures_operation_served (op : Operation) (result : op.kind.Out) {w : World} {k : NodeId} {live : Bool} {s : σ}
    (habreast : w.cluster.Abreast server s₀ k live s) (hspeaks : w.MasterPromised (Conn.Speaks server s₀ op)) :
    Ensures (Operation.run alloc op result) w fun out w' => w'.cluster.name = w.cluster.name ∧
      ∃ live' s', ServedOne server op result live s out live' s' ∧ w'.cluster.Abreast server s₀ k live' s' := by
  intro out w' hrun
  obtain ⟨hmaster, hconn⟩ := habreast
  cases live with
  | false =>
      have hclosed : (w.cluster.node k).conn = none := hconn
      have hget : w.cluster.getMaster = none := by simp [Cluster.getMaster, hmaster, hclosed]
      rw [Operation.run_eq, withMaster_none hget] at hrun
      obtain ⟨rfl, rfl⟩ := Prod.mk.inj (Option.some.inj hrun)
      exact ⟨rfl, false, s, .refused, hmaster, hclosed⟩
  | true =>
      obtain ⟨c, hc, habreast⟩ := hconn
      rcases ensures_operation halloc op result w out w' hrun with ⟨hnone, -⟩ |
        ⟨j, d, t', hj, hd, ⟨frame, hframe, hexchange⟩, rfl⟩
      · rw [getMaster_eq_some.mpr ⟨hmaster, c, hc⟩] at hnone
        cases hnone
      · obtain rfl := Option.some.inj (hmaster.symm.trans hj)
        obtain rfl := Option.some.inj (hc.symm.trans hd)
        have hself := World.update_conn_self w.reset k t'
        refine ⟨rfl, ?_⟩
        rcases hexchange.served hframe habreast (hspeaks k hmaster c hc) with ⟨r, hword, htold, c', hopen, hafter⟩ |
          ⟨hrc, hclosed⟩
        · exact ⟨true, _, .answered r hword htold, hmaster, c', hself.trans hopen, hafter⟩
        · exact ⟨false, s, .failed hrc, hmaster, hself.trans hclosed⟩

end Calls

/-! ### Runs -/

/-- An operation that returns; one that aborts has no next state. -/
def operationStep (alloc : Nat → Bool) (call : OperationCall) (w : World) : Except Unit (Returned × World) :=
  match (Operation.run alloc call.1 call.2).run w with
  | none => .error ()
  | some (out, w') => .ok (⟨call.1.kind, out⟩, w')

theorem operationStep_ok {alloc : Nat → Bool} {call : OperationCall} {w w' : World} {b : Returned}
    (h : operationStep alloc call w = .ok (b, w')) :
    ∃ out, b = ⟨call.1.kind, out⟩ ∧ (Operation.run alloc call.1 call.2).run w = some (out, w') := by
  unfold operationStep at h
  split at h
  · cases h
  · rename_i out w₁ hrun
    obtain ⟨rfl, rfl⟩ := Prod.mk.inj (Except.ok.inj h)
    exact ⟨out, rfl, hrun⟩

section Runs

variable {σ : Type} (server : Server σ) (s₀ s : σ)

/-- The calls, the latest first, as a server that was in the state `s` explains them. -/
inductive Served : List (OperationCall × Returned) → Bool → σ → Prop where
  | start : Served [] true s
  | call {history : List (OperationCall × Returned)} {live live' : Bool} {s₁ s' : σ} {call : OperationCall}
      {out : ArakoonRc × call.1.kind.Out} (before : Served history live s₁)
      (one : ServedOne server call.1 call.2 live s₁ out live' s') :
      Served ((call, ⟨call.1.kind, out⟩) :: history) live' s'

/-- On the master, where it is connected, the peer speaks for the server. -/
def OperationCall.Speaks (call : OperationCall) (w : World) : Prop :=
  w.MasterPromised (Conn.Speaks server s₀ call.1)

variable {server} {s₀} {s} {alloc : Nat → Bool}

/-- A run of operations on the connection to a server is a run of that server, up to the first operation that is not
answered. This one fails, and behind it all are refused. -/
theorem operations_served (halloc : ∀ n, alloc n = true) {start w : World} {k : NodeId}
    (hstart : start.cluster.Abreast server s₀ k true s) {history : List (OperationCall × Returned)}
    (h : Run (operationStep alloc) (OperationCall.Speaks server s₀) start history w) :
    ∃ live s', Served server s history live s' ∧ w.cluster.Abreast server s₀ k live s' := by
  refine h.traced (I := fun history w =>
    ∃ live s', Served server s history live s' ∧ w.cluster.Abreast server s₀ k live s') ⟨true, s, .start, hstart⟩ ?_
  intro history call w b w' hbefore hspeaks hstep
  obtain ⟨live, s₁, hserved, habreast⟩ := hbefore
  obtain ⟨out, rfl, hrun⟩ := operationStep_ok hstep
  obtain ⟨-, live', s', hone, habreast'⟩ :=
    ensures_operation_served halloc call.1 call.2 habreast hspeaks out w' hrun
  exact ⟨live', s', .call hserved hone, habreast'⟩

end Runs

/-- What a server of a map answers to the requests that read and write it; it refuses all others. -/
def mapExec : Request → (Bytes → Option Bytes) → Bytes × (Bytes → Option Bytes)
  | .get _ key, m =>
      match m key with
      | some value => (if Short value then le32 0 ++ writeString value else errorReply, m)
      | none => (errorReply, m)
  | .set key value, m => (le32 0, Function.update m key (some value))
  | .delete key, m => (le32 0, Function.update m key none)
  | _, m => (errorReply, m)

theorem mapExec_replies (op : Operation) (m : Bytes → Option Bytes) (_ : op.Admissible) :
    ∃ r : Reply op.kind, r.Word (mapExec op.request m).1 := by
  have hrefused : ∀ kind : ReplyKind, ∃ r : Reply kind, r.Word errorReply := fun kind => ⟨_, errorReply_word kind⟩
  have hdone : ∃ r : Reply .nothing, r.Word (le32 0) := ⟨.payload (), [], rfl, rfl⟩
  cases op with
  | get options key =>
      cases hkey : m key with
      | none =>
          have hanswer : (mapExec (Operation.get options key).request m).1 = errorReply := by
            simp [Operation.request, mapExec, hkey]
          rw [hanswer]
          exact hrefused .string
      | some value =>
          by_cases hshort : Short value
          · have hanswer : (mapExec (Operation.get options key).request m).1 = le32 0 ++ writeString value := by
              simp [Operation.request, mapExec, hkey, hshort]
            rw [hanswer]
            exact ⟨.payload value, _, ⟨hshort, rfl⟩, rfl⟩
          · have hanswer : (mapExec (Operation.get options key).request m).1 = errorReply := by
              simp [Operation.request, mapExec, hkey, hshort]
            rw [hanswer]
            exact hrefused .string
  | set key value => exact hdone
  | delete key => exact hdone
  | _ => exact hrefused _

def mapServer : Server (Bytes → Option Bytes) := ⟨mapExec, mapExec_replies⟩

/-- A connection that has just been opened stands before a server of the empty map. -/
theorem abreast_connected (name : CString) (peer : Peer) :
    (World.connected name peer).cluster.Abreast mapServer (fun _ => none) 0 true (fun _ => none) :=
  ⟨rfl, _, rfl, rfl, Server.received_nil⟩

theorem Conn.Speaks.of_received {σ : Type} {server : Server σ} {s₀ s : σ} {op : Operation} {c : Conn} {frame : Bytes}
    (hop : op.Admissible) (hframe : op.frame = some frame) (hreceived : server.Received s₀ c.sent s)
    (hanswer : c.peer.answers c.turns (c.pending ++ frame) <+: (server.exec op.request s).1)
    (hwrites : ∀ n, c.peer.writes n = .complete) : c.Speaks server s₀ op where
  admissible := hop
  answers := by
    intro frame' s' hframe' hreceived'
    obtain rfl := Option.some.inj (hframe.symm.trans hframe')
    obtain rfl := hreceived.unique hreceived'
    exact hanswer
  writes := fun _ => hwrites _

def sampleSet : OperationCall := ⟨.set [107] [118], ()⟩

def sampleGet : OperationCall := ⟨.get none [107], Data.null⟩

def sampleSetFrame : Bytes := [0x09, 0x00, 0xff, 0xb1] ++ writeString [107] ++ writeString [118]

def sampleGetFrame : Bytes := [0x08, 0x00, 0xff, 0xb1] ++ [boolFalse] ++ writeString [107]

theorem parses_sampleSet : Parses readRequest sampleSetFrame (.set [107] [118]) := by
  have hop : sampleSet.1.Admissible := ⟨by decide, by decide⟩
  obtain ⟨frame, hframe, hparses⟩ := Operation.parses_frame hop
  obtain rfl : sampleSetFrame = frame := Option.some.inj hframe
  exact hparses

theorem parses_sampleGet : Parses readRequest sampleGetFrame (.get false [107]) := by
  have hop : sampleGet.1.Admissible := show Short [107] by decide
  obtain ⟨frame, hframe, hparses⟩ := Operation.parses_frame hop
  obtain rfl : sampleGetFrame = frame := Option.some.inj hframe
  exact hparses

/-- A value that is stored and read, and a reply that is cut short. -/
theorem operations_served_get :
    ∃ w rc value live s, Run (operationStep fun _ => true) (OperationCall.Speaks mapServer fun _ => none)
        (World.connected sampleName (.scripted [le32 0, le32 0 ++ writeString [118], le32 0]))
        [(sampleGet, ⟨.string, rc, Data.null⟩), (sampleGet, ⟨.string, 0, value⟩), (sampleSet, ⟨.nothing, 0, ()⟩)] w ∧
      value.value = some [118] ∧ rc ≠ 0 ∧
      Served mapServer (fun _ => none)
        [(sampleGet, ⟨.string, rc, Data.null⟩), (sampleGet, ⟨.string, 0, value⟩), (sampleSet, ⟨.nothing, 0, ()⟩)]
        live s ∧
      w.cluster.Abreast mapServer (fun _ => none) 0 live s := by
  have hset : sampleSet.1.Admissible := ⟨by decide, by decide⟩
  have hget : sampleGet.1.Admissible := show Short [107] by decide
  have hreceived : mapServer.Received (fun _ => none) [] fun _ => none := Server.received_nil
  have hrun : ∃ w rc value, Run (operationStep fun _ => true) (OperationCall.Speaks mapServer fun _ => none)
        (World.connected sampleName (.scripted [le32 0, le32 0 ++ writeString [118], le32 0]))
        [(sampleGet, ⟨.string, rc, Data.null⟩), (sampleGet, ⟨.string, 0, value⟩), (sampleSet, ⟨.nothing, 0, ()⟩)] w ∧
      value.value = some [118] ∧ rc ≠ 0 := by
    refine ⟨_, _, _, .call (.call (.call .nil ?_ rfl) ?_ rfl) ?_ rfl, rfl, ?_⟩
    · intro k hk c hc
      obtain rfl := Option.some.inj hk
      obtain rfl := Option.some.inj hc
      exact .of_received hset rfl hreceived List.prefix_rfl fun _ => rfl
    · intro k hk c hc
      obtain rfl := Option.some.inj hk
      obtain rfl := Option.some.inj hc
      exact .of_received hget rfl (hreceived.append parses_sampleSet) List.prefix_rfl fun _ => rfl
    · intro k hk c hc
      obtain rfl := Option.some.inj hk
      obtain rfl := Option.some.inj hc
      exact .of_received hget rfl ((hreceived.append parses_sampleSet).append parses_sampleGet)
        (List.prefix_append _ _) fun _ => rfl
    · decide
  obtain ⟨w, rc, value, hrun, hvalue, hrc⟩ := hrun
  obtain ⟨live, s, hserved, habreast⟩ := operations_served (fun _ => rfl) (abreast_connected sampleName _) hrun
  exact ⟨w, rc, value, live, s, hrun, hvalue, hrc, hserved, habreast⟩

end Crakoon
