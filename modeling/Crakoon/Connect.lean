import Crakoon.Client

/-!
# Finding the master

The functions that open the connections of a cluster: `_arakoon_cluster_node_connect` with its prologue,
`_arakoon_cluster_node_who_master`, and the search of `arakoon_cluster_connect_master`. What
`_arakoon_networking_connect` gives on each call is a parameter: a connection to some peer, or a failure.
-/

namespace Crakoon

open Programs

/-- What the calls of `_arakoon_networking_connect` give, by their number and the addresses tried. -/
abbrev Dialer := Nat → List Address → Except Failure Peer

section Bare

variable {α : Type} (alloc : Nat → Bool)

/-- A reply that is read without `HANDLE_ERROR`: where the code is not success, the message is left unread. -/
def bareReply (failed : α) (decode : SessionM (ArakoonRc × α)) : SessionM (ArakoonRc × α) := do
  let rc ← readRc
  if rc ≠ 0 then pure (rc, failed) else decode

/-- A request of the two functions that read their replies so; `failed` is what the result variables hold when
they return early. -/
def bareOperation (failed : α) (command : Command) (decode : SessionM (ArakoonRc × α)) :
    SessionM (ArakoonRc × α) := do
  let rc ← sendCommand alloc command
  if rc ≠ 0 then pure (rc, failed) else bareReply failed decode

/-- The name of a master, if there is one, as a string. -/
def decodeMaster : SessionM (ArakoonRc × Data) := do
  let (result, rc) ← readStringOption alloc .null 0
  if rc ≠ 0 then pure (rc, .null)
  else if result = .null then pure (rc, .null)
  else do
    let master ← utilsMakeString alloc result
    if master = .null then pure (enomem, master) else pure (rc, master)

/-- The routing table that the reply to `arakoon_nursery_update_routing` holds. When it cannot be read, the pointer that
is freed is the one to the new table, which is null. -/
def decodeConfig : SessionM (ArakoonRc × Data) := do
  let (routingData, rc) ← readString alloc .null 0
  if rc ≠ 0 then do
    memFree .null
    pure (rc, routingData)
  else pure (rc, routingData)

/-- `_arakoon_cluster_node_who_master`; `master` is what the caller's variable holds. -/
def clusterNodeWhoMaster (master : Data) : SessionM (ArakoonRc × Data) :=
  bareOperation alloc master whoMasterCommand (decodeMaster alloc)

def arakoonWhoMaster (master : Data) : ClientM (ArakoonRc × Data) :=
  withMaster master (clusterNodeWhoMaster alloc master)

end Bare

section Connect

variable (alloc : Nat → Bool) (dial : Dialer)

/-- The node has a new connection. -/
def World.dialed (w : World) (k : NodeId) (peer : Peer) : World where
  heap := w.heap
  dials := w.dials + 1
  cluster := w.cluster.setNode k { w.cluster.node k with conn := some (.fresh peer) }

/-- `_arakoon_cluster_node_connect`. The descriptor is kept when there is no memory for the prologue. -/
def clusterNodeConnect (k : NodeId) : ClientM ArakoonRc := fun w =>
  match (w.cluster.node k).conn with
  | some _ => some (ArakoonReturnCode.success.rc, w)
  | none =>
    match dial w.dials (w.cluster.node k).address with
    | .error rc => some (rc.1, { w with dials := w.dials + 1 })
    | .ok peer => (onNode k (sendCommand alloc (prologueCommand w.cluster.name))).run (w.dialed k peer)

/-- The string that a block holds up to its terminator. -/
def Data.cString (d : Data) : CString := .ofBytes (d.value.getD [])

/-- `arakoon_mem_free` on a string of the search. -/
def freeString (d : Data) : ClientM Unit := fun w => some ((), { w with heap := w.heap.free d.ptr })

def setMaster (k : NodeId) : ClientM Unit := fun w =>
  some ((), { w with cluster := { w.cluster with master := some k } })

/-- The loop over the nodes: the first one that can be asked and knows a master, if there is one, and what the
variable `master` holds in the end. -/
def findNode : List NodeId → Data → ClientM (Option NodeId × Data)
  | [], master => pure (none, master)
  | k :: ks, master => do
      let rc ← clusterNodeConnect alloc dial k
      if rc = 0 then do
        let (rc, master) ← onNode k (clusterNodeWhoMaster alloc master)
        if rc = 0 ∧ master ≠ .null then pure (some k, master) else findNode ks master
      else findNode ks master

/-- The part of the search that connects to the node that is said to be the master and asks it. -/
def validateMaster (j : NodeId) (master : Data) : ClientM ArakoonRc := do
  let rc ← clusterNodeConnect alloc dial j
  if rc ≠ 0 then pure rc
  else do
    let (rc, master) ← onNode j (clusterNodeWhoMaster alloc master)
    if rc ≠ 0 then pure rc
    else do
      let w ← get
      if master = .null ∨ (w.cluster.node j).name ≠ master.cString then do
        freeString master
        pure ArakoonReturnCode.clientMasterNotFound.rc
      else do
        setMaster j
        freeString master
        pure ArakoonReturnCode.success.rc

/-- `arakoon_cluster_connect_master` -/
def arakoonClusterConnectMaster : ClientM ArakoonRc := do
  let w ← get
  let (node, master) ← findNode alloc dial w.cluster.nodes .null
  match node with
  | none => pure ArakoonReturnCode.clientNetworkError.rc
  | some k => do
      let w ← get
      if (w.cluster.node k).name = master.cString then do
        setMaster k
        freeString master
        pure ArakoonReturnCode.success.rc
      else do
        let found := w.cluster.nodes.find? fun j => (w.cluster.node j).name = master.cString
        freeString master
        match found with
        | none => pure ArakoonReturnCode.clientUnknownNode.rc
        | some j => validateMaster alloc dial j master

end Connect

end Crakoon
