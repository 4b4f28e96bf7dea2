import Crakoon.Basic

/-!
# Connections

A connection as the operations above the transfer loops see it: `_arakoon_networking_poll_write`
either hands over a whole block or stops part of the way, `_arakoon_networking_poll_read` either
fills its buffer or fails. The other side is a `Peer`: the outcomes of the calls on the connection
and what it sends back when the client, having written, turns to reading.
-/

namespace Crakoon

/-- How a write ends: with every byte accepted, or with a failure after some of them. -/
inductive WriteOutcome where
  | complete
  | stopped (moved : Nat) (rc : Failure)
  deriving DecidableEq

/-- What happens on a connection. The calls of each kind are numbered from `0`. -/
structure Peer where
  /-- How the writes end. -/
  writes : Nat → WriteOutcome
  /-- The reads that fail although the bytes they ask for have arrived. -/
  reads : Nat → Option Failure
  /-- What arrives in answer to the bytes written since the last answer. -/
  answers : Nat → Bytes → Bytes
  /-- What a read reports when fewer bytes arrive than it asks for: end of stream, an error or a time-out. -/
  ending : Failure

/-- An open connection. -/
structure Conn where
  peer : Peer
  writes : Nat
  reads : Nat
  turns : Nat
  /-- Every byte the peer has accepted, from the beginning. -/
  sent : Bytes
  /-- The bytes written that have not been answered yet. -/
  pending : Bytes
  /-- The bytes that have arrived and have not been read. -/
  inbox : Bytes

/-- A connection that has just been opened. -/
def Conn.fresh (peer : Peer) : Conn := ⟨peer, 0, 0, 0, [], [], []⟩

def Conn.accept (c : Conn) (bs : Bytes) : Conn :=
  { c with writes := c.writes + 1, sent := c.sent ++ bs, pending := c.pending ++ bs }

/-- `_arakoon_networking_poll_write` -/
def networkingPollWrite (bs : Bytes) (c : Conn) : ArakoonRc × Conn :=
  match c.peer.writes c.writes with
  | .complete => (ArakoonReturnCode.success, c.accept bs)
  | .stopped moved rc => (rc, c.accept (bs.take moved))

/-- What there is to read: once something has been written, also the answer to it. -/
def Conn.stream (c : Conn) : Bytes :=
  if c.pending = [] then c.inbox else c.inbox ++ c.peer.answers c.turns c.pending

/-- The connection once the answer to what was written has arrived. -/
def Conn.turn (c : Conn) : Conn :=
  { c with
    turns := if c.pending = [] then c.turns else c.turns + 1
    pending := []
    inbox := c.stream }

/-- The connection after a read that was granted and took `bs`. -/
def Conn.take (c : Conn) (n : Nat) : Conn := { c.turn with reads := c.reads + 1, inbox := c.stream.drop n }

/-- `_arakoon_networking_poll_read` -/
def networkingPollRead (n : Nat) (c : Conn) : (ArakoonRc × Bytes) × Conn :=
  match c.peer.reads c.reads with
  | some rc => ((rc, []), { c.turn with reads := c.reads + 1 })
  | none =>
    if n ≤ c.stream.length then
      ((ArakoonReturnCode.success, c.stream.take n), c.take n)
    else
      ((c.peer.ending, []), { c.turn with reads := c.reads + 1, inbox := [] })

end Crakoon
