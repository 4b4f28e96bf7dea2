import Crakoon.Exchange

/-!
# Replies are decoded exactly or not at all

Two statements about a reply to a request that was sent completely. If all of it arrives, the operation
returns what it says, consumes exactly its bytes and leaves the connection open. If the stream ends anywhere
before its end, the operation fails and closes the connection, hands out no list and gives back every block
it was given.
-/

namespace Crakoon

open Programs Reading

/-- The word that a reply starts with. -/
def Reply.code {kind : ReplyKind} : Reply kind → Nat
  | .error code _ => code
  | .payload _ => 0

/-- What the caller of an operation gets to see of a reply. -/
def Reply.Returned {kind : ReplyKind} : Reply kind → ArakoonRc × kind.Out → Data → Prop
  | .error code message, out, lastError => out.1 = code ∧ lastError.value = some message
  | .payload p, out, _ => out.1 = 0 ∧ kind.Decoded p out.2

theorem int32_of_lt {n : Nat} (h : n < 2 ^ 31) : int32 n = n := by
  have hcast : ((2 ^ 32 : Nat) : Int) = 4294967296 := rfl
  unfold int32 Int.bmod
  rw [hcast]
  dsimp only
  split_ifs <;> omega

theorem Reply.Delivered.returned {kind : ReplyKind} {r : Reply kind} (hr : r.code < 2 ^ 31) {failed : kind.Out}
    {s s' : Session} {out : ArakoonRc × kind.Out} (h : r.Delivered failed s out s') :
    r.Returned out s'.lastError := by
  cases r with
  | error code message =>
      obtain ⟨hout, hmessage⟩ := h
      have hcode : int32 code = code := int32_of_lt hr
      refine ⟨?_, hmessage⟩
      rw [hout, hcode]
  | payload p => exact ⟨h.1, h.2.1⟩

/-- A string of bytes that starts with a reply is read as that reply. -/
theorem readReply_word {kind : ReplyKind} {r : Reply kind} {bs : Bytes} (h : r.Word bs) (rest : Bytes) :
    (readReply kind).run (bs ++ rest) = .ok (r, rest) :=
  (reads_reply kind).parses h rest

/-- No proper prefix of a reply starts with a reply. -/
theorem readReply_cut {kind : ReplyKind} {r : Reply kind} {bs arrived : Bytes} (h : r.Word bs)
    (hfront : arrived <+: bs) (hshort : arrived.length < bs.length) :
    ¬∃ r' rest, (readReply kind).run arrived = .ok (r', rest) := by
  intro hdone
  obtain ⟨r', rest, hread⟩ := hdone
  obtain ⟨word, hword, rfl⟩ := (reads_reply kind _ _ _).mp hread
  have hword_front : word <+: bs := (List.prefix_append word rest).trans hfront
  obtain ⟨-, rfl⟩ := Parses.eq_of_isPrefix ((reads_reply kind).parses hword) ((reads_reply kind).parses h) hword_front
  rw [List.length_append] at hshort
  omega

/-- A request is sent when none of its writes fails. -/
theorem not_unsent {op : Operation} {s s' : Session} {c : Conn} {frame : Bytes} {rc : ArakoonRc}
    (hwrites : ∀ n < op.writeCount, c.peer.writes (c.writes + n) = .complete) (hrc : rc ≠ 0) :
    ¬Dispatch s c frame op.writeCount op.writesUnchecked rc s' := by
  intro h
  cases h with
  | whole c' hzero => exact hrc hzero
  | closed _ _ _ hstopped =>
      obtain ⟨n, hn, hne⟩ := hstopped
      exact hne (hwrites n hn)
  | partly moved failure _ _ _ hstopped =>
      have hcomplete := hwrites 0 (by rw [Operation.writeCount]; omega)
      rw [Nat.add_zero, hstopped] at hcomplete
      cases hcomplete

/-- A peer that accepts everything and gives one answer. -/
def Peer.answering (answer : Bytes) : Peer where
  writes := fun _ => .complete
  reads := fun _ => none
  answers := fun _ _ => answer
  ending := ⟨ArakoonReturnCode.clientNetworkError, clientNetworkError_ne_zero⟩

/-- A client whose only node is connected to the peer and is the master. -/
def World.connected (name : CString) (peer : Peer) : World where
  heap := Heap.empty
  dials := 0
  cluster :=
    { arakoonClusterAddNode (arakoonClusterNew .version1 name)
        { arakoonClusterNodeNew name with conn := some (Conn.fresh peer) } with master := some 0 }

section

variable {alloc : Nat → Bool} (halloc : ∀ n, alloc n = true) {op : Operation} (result : op.kind.Out) {w : World}
  {k : NodeId} (hmaster : w.cluster.master = some k) {c : Conn} (hconn : (w.cluster.node k).conn = some c)
  {frame : Bytes} (hframe : op.frame = some frame)
  (hwrites : ∀ n < op.writeCount, c.peer.writes (c.writes + n) = .complete) {r : Reply op.kind} {bs : Bytes}
  (hr : r.Word bs)
include halloc hmaster hconn hframe hwrites hr

/-- Of a well-formed reply, whatever follows it, the operation returns the code, and the payload or the message. It
consumes exactly the bytes of the reply and leaves the connection open. -/
theorem reply_round_trip (hprompt : c.Prompt) (hcode : r.code < 2 ^ 31) {rest : Bytes}
    (hstream : c.inbox ++ c.peer.answers c.turns (c.pending ++ frame) = bs ++ rest) :
    ∃ out w', (Operation.run alloc op result).run w = some (out, w') ∧ r.Returned out w'.cluster.lastError ∧
      ∃ c', (w'.cluster.node k).conn = some c' ∧ c'.inbox = rest ∧ c'.pending = [] ∧ c'.sent = c.sent ++ frame := by
  have hread := readReply_word hr rest
  rw [← hstream] at hread
  obtain ⟨out, w', hrun, s', rfl, hexchange⟩ := yields_operation halloc result hmaster hconn hframe
  refine ⟨out, w.reset.update k s', hrun, ?_⟩
  have hnode : ((w.reset.update k s').cluster.node k).conn = s'.conn := by
    simp [World.update, Cluster.setNode]
  cases hexchange with
  | unsent hrc hsent => exact absurd hsent (not_unsent hwrites hrc)
  | answered _ r' rest' c' hread' hconn' peer sent inbox pending delivered =>
      obtain ⟨rfl, rfl⟩ := Prod.mk.inj (Except.ok.inj (hread'.symm.trans hread))
      exact ⟨delivered.returned hcode, c', hnode.trans hconn', inbox, pending, sent⟩
  | cut _ hrc hconn' cleared gains stuck => exact absurd ⟨hprompt, r, rest, hread⟩ stuck

end

/-- A value of three bytes, with a byte behind the reply. -/
theorem reply_round_trip_get :
    let w := World.connected ⟨[99], by simp⟩ (Peer.answering (le32 0 ++ writeString [97, 98, 99] ++ [7]))
    ∃ out w', (arakoonGet (fun _ => true) none [107] .null).run w = some (out, w') ∧
      (out.1 = 0 ∧ out.2.value = some [97, 98, 99]) ∧
      ∃ c', (w'.cluster.node 0).conn = some c' ∧ c'.inbox = [7] ∧ c'.pending = [] ∧
        c'.sent = [8, 0, 0xff, 0xb1, 0, 1, 0, 0, 0, 107] := by
  intro w
  let op := Operation.get none [107]
  let r : Reply op.kind := .payload ([97, 98, 99] : Bytes)
  have hr : r.Word (le32 0 ++ writeString [97, 98, 99]) := ⟨_, ⟨by decide, rfl⟩, rfl⟩
  have hconn : (w.cluster.node 0).conn = some (.fresh (.answering (le32 0 ++ writeString [97, 98, 99] ++ [7]))) := rfl
  have hcode : r.code < 2 ^ 31 := Nat.two_pow_pos 31
  let result : op.kind.Out := Data.null
  exact reply_round_trip (fun _ => rfl) result rfl hconn (rfl : op.frame = _) (fun _ _ => rfl) hr (fun _ => rfl)
    hcode rfl

/-- A block that is handed out while the ledger does not change has been given back once. -/
theorem released_of_net {h h' : Heap} {p : Ptr} {id : Nat} (hnet : h'.net = h.net - Ptr.one p)
    (hp : p ≠ .block id) (hnew : h.next ≤ id) (hold : id < h'.next) :
    h'.released (.block id) = h.released (.block id) + 1 := by
  have hledger := congrFun hnet (.block id)
  have hbefore := h.once id
  have hafter := h'.once id
  rw [if_neg (Nat.not_lt.mpr hnew)] at hbefore
  rw [if_pos hold] at hafter
  simp only [Heap.net, Ptr.one, Pi.sub_apply, reduceCtorEq, if_false, Ne.symm hp, false_and, hbefore, hafter]
    at hledger
  simp only [Heap.released]
  omega

section

variable {alloc : Nat → Bool} (halloc : ∀ n, alloc n = true) {op : Operation} (result : op.kind.Out) {w : World}
  {k : NodeId} (hmaster : w.cluster.master = some k) {c : Conn} (hconn : (w.cluster.node k).conn = some c)
  {frame : Bytes} (hframe : op.frame = some frame)
  (hwrites : ∀ n < op.writeCount, c.peer.writes (c.writes + n) = .complete) {r : Reply op.kind} {bs : Bytes}
  (hr : r.Word bs)
include halloc hmaster hconn hframe hwrites hr

/-- If the stream ends before the end of the reply, the operation fails and closes the connection. It hands out
no list, and every block it was given has been given back exactly once. -/
theorem reply_cut (hlast : ∀ id, w.cluster.lastError.ptr = .block id → id < w.heap.next) {arrived : Bytes}
    (hfront : arrived <+: bs) (hshort : arrived.length < bs.length)
    (hstream : c.inbox ++ c.peer.answers c.turns (c.pending ++ frame) = arrived) :
    ∃ out w', (Operation.run alloc op result).run w = some (out, w') ∧ out.1 ≠ 0 ∧
      (w'.cluster.node k).conn = none ∧ op.kind.Cleared out.2 ∧
      ∀ id, w.heap.next ≤ id → id < w'.heap.next →
        w'.heap.released (.block id) = w.heap.released (.block id) + 1 := by
  have hstuck := readReply_cut hr hfront hshort
  rw [← hstream] at hstuck
  obtain ⟨out, w', hrun, s', rfl, hexchange⟩ := yields_operation halloc result hmaster hconn hframe
  refine ⟨out, w.reset.update k s', hrun, ?_⟩
  have hnode : ((w.reset.update k s').cluster.node k).conn = s'.conn := by
    simp [World.update, Cluster.setNode]
  cases hexchange with
  | unsent hrc hsent => exact absurd hsent (not_unsent hwrites hrc)
  | answered _ r' rest' c' hread' => exact absurd ⟨r', rest', hread'⟩ hstuck
  | cut _ hrc hconn' cleared gains stuck =>
      refine ⟨hrc, hnode.trans hconn', cleared, fun id hnew hold => ?_⟩
      have hnet : s'.heap.net = w.heap.net - Ptr.one w.cluster.lastError.ptr := by
        rw [gains.net, add_zero]
        exact Heap.net_free _ _
      refine released_of_net hnet (fun hptr => ?_) hnew hold
      exact Nat.not_lt.mpr hnew (hlast id hptr)

end

/-- The reply to `multi_get` ends behind the length of its first string. -/
theorem reply_cut_multi_get :
    let w := World.connected ⟨[99], by simp⟩ (Peer.answering (le32 0 ++ (le32 1 ++ le32 1)))
    ∃ out w', (arakoonMultiGet (fun _ => true) none [[107]] none).run w = some (out, w') ∧ out.1 ≠ 0 ∧
      (w'.cluster.node 0).conn = none ∧ out.2 = none ∧
      ∀ id, 0 ≤ id → id < w'.heap.next → w'.heap.released (.block id) = w.heap.released (.block id) + 1 := by
  intro w
  let op := Operation.multiGet none [[107]]
  let r : Reply op.kind := .payload ([[97]] : List Bytes)
  have hr : r.Word (le32 0 ++ (le32 1 ++ writeString [97])) :=
    ⟨_, ⟨by decide, _, .cons ⟨by decide, rfl⟩ .nil, rfl⟩, rfl⟩
  have hconn : (w.cluster.node 0).conn = some (.fresh (.answering (le32 0 ++ (le32 1 ++ le32 1)))) := rfl
  let result : op.kind.Out := (none : Option ValueList)
  exact reply_cut (fun _ => rfl) result rfl hconn (rfl : op.frame = _) (fun _ _ => rfl) hr
    (fun _ h => by cases h) ⟨[97], rfl⟩ (by decide) rfl

end Crakoon
