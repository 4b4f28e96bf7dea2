import Crakoon.Chains
import Crakoon.NodeScripts

/-!
# Nodes and clusters in memory

The nodes of all clusters as they are linked in memory: a cluster points at its first node, a node at the next one, at
its cluster and, by its number, at a descriptor. The functions of `arakoon-cluster.c` and `arakoon-cluster-node.c` that
follow or change these pointers are given on this memory, and what they do with descriptors is kept in a log. Addresses
and the contents of other blocks are left out; what comes from outside (`Outside`) is the memory that is granted, the
descriptors that `_arakoon_networking_connect` gives and how reads and writes end.
-/

namespace Crakoon

open Programs Chains

abbrev NodePtr := Nat

abbrev ClusterPtr := Nat

/-- `struct ArakoonClusterNode`, less its addresses; its pointer to the next node is in the cell. -/
structure NetNode where
  name : CString
  cluster : Option ClusterPtr
  /-- `none`: the descriptor is `-1`. -/
  fd : Option Nat

/-- `struct ArakoonCluster`, less what does not point at nodes. -/
structure NetCluster where
  name : CString
  nodes : Option NodePtr
  master : Option NodePtr

/-- What is done with a descriptor, and the node it is done for. -/
inductive SocketEvent where
  | opened (p : NodePtr) (fd : Nat)
  /-- A read, a write or a poll. -/
  | used (p : NodePtr) (fd : Nat)
  | closed (p : NodePtr) (fd : Nat)
  deriving DecidableEq

structure Network where
  cells : Cells NodePtr NetNode
  clusters : ClusterPtr → Option NetCluster
  /-- The nodes whose memory was given back, the first of them first. -/
  released : List NodePtr
  /-- The latest event first. -/
  log : List SocketEvent
  /-- How often something was asked of the outside. -/
  turn : Nat

namespace Network

/-- Memory with no nodes and no clusters. -/
def empty : Network := ⟨fun _ => none, fun _ => none, [], [], 0⟩

end Network

/-- What comes from outside, by the number of times that something was asked before. -/
structure Outside where
  malloc : Nat → Option Nat
  realloc : Nat → Ptr → Option Nat
  write : Nat → Bytes → ArakoonRc
  read : Nat → Nat → ArakoonRc × Bytes
  dial : Nat → List SocketEvent → Except Failure Nat

abbrev NetM := Program Network

section Pointers

/-- `none`: there is no node at the address. -/
def nodeAt (p : NodePtr) : NetM (Cell NodePtr NetNode) := fun u => (u.cells p).map fun cell => (cell, u)

def putNode (p : NodePtr) (cell : Cell NodePtr NetNode) : NetM Unit := fun u =>
  some ((), { u with cells := u.cells.put p cell })

def clusterAt (c : ClusterPtr) : NetM NetCluster := fun u => (u.clusters c).map fun cluster => (cluster, u)

def putCluster (c : ClusterPtr) (cluster : Option NetCluster) : NetM Unit := fun u =>
  some ((), { u with clusters := Function.update u.clusters c cluster })

def record (e : SocketEvent) : NetM Unit := fun u => some ((), { u with log := e :: u.log })

/-- The next answer from outside. -/
def askOutside {α : Type} (answer : Nat → List SocketEvent → α) : NetM α := fun u =>
  some (answer u.turn u.log, { u with turn := u.turn + 1 })

/-- `arakoon_mem_free` on a node. -/
def releaseNode (p : NodePtr) : NetM Unit := fun u =>
  some ((), { u with cells := Function.update u.cells p none, released := u.released ++ [p] })

end Pointers

section Nodes

/-- `_arakoon_cluster_node_get_next` -/
def nodeGetNext (p : NodePtr) : NetM (Option NodePtr) := do
  let cell ← nodeAt p
  pure cell.next

/-- `_arakoon_cluster_node_set_next` -/
def nodeSetNext (p : NodePtr) (next : Option NodePtr) : NetM Unit := do
  let cell ← nodeAt p
  putNode p { cell with next := next }

/-- `_arakoon_cluster_node_set_cluster` -/
def nodeSetCluster (p : NodePtr) (c : ClusterPtr) : NetM ArakoonRc := do
  let cell ← nodeAt p
  if cell.item.cluster.isSome then pure einval
  else do
    putNode p { cell with item := { cell.item with cluster := some c } }
    pure ArakoonReturnCode.success.rc

def nodeSetFd (p : NodePtr) (fd : Option Nat) : NetM Unit := do
  let cell ← nodeAt p
  putNode p { cell with item := { cell.item with fd := fd } }

/-- `_arakoon_cluster_node_disconnect` -/
def nodeDisconnect (p : NodePtr) : NetM Unit := do
  let cell ← nodeAt p
  match cell.item.fd with
  | some fd => do
      record (.closed p fd)
      nodeSetFd p none
  | none => nodeSetFd p none

/-- `arakoon_cluster_node_free` -/
def nodeFree (p : NodePtr) : NetM Unit := do
  let cell ← nodeAt p
  if cell.item.fd.isSome then do
    nodeDisconnect p
    releaseNode p
  else releaseNode p

variable (outside : Outside)

/-- What a command does to the node at `p`. Reads and writes end at once where the descriptor is negative. -/
def performOn (p : NodePtr) : (c : NodeCommand) → NetM c.Answer
  | .malloc => askOutside fun turn _ => outside.malloc turn
  | .realloc q => askOutside fun turn _ => outside.realloc turn q
  | .free _ => pure ()
  | .write bs => do
      let cell ← nodeAt p
      match cell.item.fd with
      | none => pure ArakoonReturnCode.clientNotConnected.rc
      | some fd => do
          record (.used p fd)
          askOutside fun turn _ => outside.write turn bs
  | .read n => do
      let cell ← nodeAt p
      match cell.item.fd with
      | none => pure (ArakoonReturnCode.clientNotConnected.rc, ([] : Bytes))
      | some fd => do
          record (.used p fd)
          askOutside fun turn _ => outside.read turn n
  | .disconnect => nodeDisconnect p
  | .setLastError _ => pure ()
  | .abort => fun _ => none

def onNodeAt {α : Type} (p : NodePtr) (script : NodeScript α) : NetM α := script.run (performOn outside p)

/-- The first part of `_arakoon_cluster_node_connect`: the code that it returns, or `none` where there is a new
descriptor. -/
def nodeOpen (p : NodePtr) : NetM (Option ArakoonRc) := do
  let cell ← nodeAt p
  if cell.item.fd.isSome then pure (some ArakoonReturnCode.success.rc)
  else do
    match ← askOutside outside.dial with
    | .error rc => do
        nodeSetFd p none
        pure (some rc.1)
    | .ok fd => do
        record (.opened p fd)
        nodeSetFd p (some fd)
        pure none

/-- The second part: the prologue. It holds the name of the cluster of the node, which there has to be. -/
def nodeIntroduce (p : NodePtr) : NetM ArakoonRc := do
  let cell ← nodeAt p
  match cell.item.cluster with
  | none => fun _ => none
  | some c => do
      let cluster ← clusterAt c
      onNodeAt outside p (.prologue cluster.name)

/-- `_arakoon_cluster_node_connect` -/
def nodeConnect (p : NodePtr) : NetM ArakoonRc := do
  match ← nodeOpen outside p with
  | some rc => pure rc
  | none => nodeIntroduce outside p

/-- `_arakoon_cluster_node_who_master` -/
def nodeWhoMaster (p : NodePtr) (master : Data) : NetM (ArakoonRc × Data) := onNodeAt outside p (.whoMaster master)

end Nodes

/-! ### Clusters and calls -/

section Clusters

/-- `arakoon_cluster_add_node` -/
def clusterAddNodeAt (c : ClusterPtr) (p : NodePtr) : NetM ArakoonRc := do
  let cluster ← clusterAt c
  let rc ← nodeSetCluster p c
  if rc ≠ 0 then pure rc
  else do
    nodeSetNext p cluster.nodes
    putCluster c (some { cluster with nodes := some p })
    pure ArakoonReturnCode.success.rc

/-- The loops of `arakoon_cluster_connect_master`: nodes are visited from `p` on until one is what is looked for;
`none`: the loop does not come to its end within so many rounds. -/
def whileNode {β : Type} (visit : NodePtr → β → NetM (Bool × β)) :
    Nat → Option NodePtr → β → NetM (Option NodePtr × β)
  | 0, _, _ => fun _ => none
  | _ + 1, none, b => pure (none, b)
  | rounds + 1, some p, b => do
      let out ← visit p b
      if out.1 then pure (some p, out.2)
      else do
        let next ← nodeGetNext p
        whileNode visit rounds next out.2

/-- The loop of `arakoon_cluster_free`. -/
def freeNodes : Nat → Option NodePtr → NetM Unit
  | 0, _ => fun _ => none
  | _ + 1, none => pure ()
  | rounds + 1, some p => do
      let next ← nodeGetNext p
      nodeDisconnect p
      nodeFree p
      freeNodes rounds next

variable (rounds : Nat)

/-- `arakoon_cluster_free` -/
def clusterFree (c : ClusterPtr) : NetM Unit := do
  let cluster ← clusterAt c
  freeNodes rounds cluster.nodes
  putCluster c none

variable (outside : Outside)

/-- Connects to a node and asks it for the master, whose name is kept. -/
def askNode (p : NodePtr) (master : Data) : NetM (Bool × Data) := do
  let rc ← nodeConnect outside p
  if rc = 0 then do
    let out ← nodeWhoMaster outside p master
    pure (out.1 = 0 ∧ out.2 ≠ .null, out.2)
  else pure (false, master)

def isNamed (name : CString) (p : NodePtr) (_ : Unit) : NetM (Bool × Unit) := do
  let cell ← nodeAt p
  pure (cell.item.name = name, ())

def clusterSetMaster (c : ClusterPtr) (p : NodePtr) : NetM Unit := do
  let cluster ← clusterAt c
  putCluster c (some { cluster with master := some p })

/-- The last part of the search: the node that is said to be the master is asked itself. -/
def confirmMaster (c : ClusterPtr) (p : NodePtr) (master : Data) : NetM ArakoonRc := do
  let rc ← nodeConnect outside p
  if rc ≠ 0 then pure rc
  else do
    let out ← nodeWhoMaster outside p master
    if out.1 ≠ 0 then pure out.1
    else do
      let cell ← nodeAt p
      if out.2 = .null ∨ cell.item.name ≠ out.2.cString then pure ArakoonReturnCode.clientMasterNotFound.rc
      else do
        clusterSetMaster c p
        pure ArakoonReturnCode.success.rc

/-- `arakoon_cluster_connect_master` -/
def clusterConnectMaster (c : ClusterPtr) : NetM ArakoonRc := do
  let cluster ← clusterAt c
  let found ← whileNode (askNode outside) rounds cluster.nodes .null
  match found.1 with
  | none => pure ArakoonReturnCode.clientNetworkError.rc
  | some p => do
      let cell ← nodeAt p
      if cell.item.name = found.2.cString then do
        clusterSetMaster c p
        pure ArakoonReturnCode.success.rc
      else do
        let cluster ← clusterAt c
        let named ← whileNode (isNamed found.2.cString) rounds cluster.nodes ()
        match named.1 with
        | none => pure ArakoonReturnCode.clientUnknownNode.rc
        | some q => confirmMaster outside c q found.2

/-- An operation: what it does to the node of the master, if that is connected. -/
def clusterOperation (c : ClusterPtr) (script : NodeScript ArakoonRc) : NetM ArakoonRc := do
  let cluster ← clusterAt c
  match cluster.master with
  | none => pure ArakoonReturnCode.clientNotConnected.rc
  | some p => do
      let cell ← nodeAt p
      if cell.item.fd.isSome then onNodeAt outside p script else pure ArakoonReturnCode.clientNotConnected.rc

end Clusters

/-- What a program does with nodes and clusters. New ones are at addresses that `malloc` gives. -/
inductive NetCall where
  | nodeNew (p : NodePtr) (name : CString)
  | clusterNew (c : ClusterPtr) (name : CString)
  | addNode (c : ClusterPtr) (p : NodePtr)
  | connectMaster (c : ClusterPtr)
  | operation (c : ClusterPtr) (script : NodeScript ArakoonRc)
  | clusterFree (c : ClusterPtr)
  | nodeFree (p : NodePtr)

/-- The calls that the interface allows: memory that is in use is not given out again, a name is in memory and so leaves
room in the address space for the twelve bytes that a prologue has besides, and a node that a cluster owns is not
freed. -/
def NetCall.Allowed : NetCall → Network → Prop
  | .nodeNew p _, u => u.cells p = none
  | .clusterNew c name, u => u.clusters c = none ∧ name.bytes.length + 12 < 2 ^ 64
  | .nodeFree p, u => ∀ cell, u.cells p = some cell → cell.item.cluster = none
  | _, _ => True

section Calls

variable (outside : Outside) (rounds : Nat)

def NetCall.program : NetCall → NetM ArakoonRc
  | .nodeNew p name => do
      putNode p ⟨none, name, none, none⟩
      pure ArakoonReturnCode.success.rc
  | .clusterNew c name => do
      putCluster c (some ⟨name, none, none⟩)
      pure ArakoonReturnCode.success.rc
  | .addNode c p => clusterAddNodeAt c p
  | .connectMaster c => clusterConnectMaster rounds outside c
  | .operation c script => clusterOperation outside c script
  | .clusterFree c => do
      Crakoon.clusterFree rounds c
      pure ArakoonReturnCode.success.rc
  | .nodeFree p => do
      Crakoon.nodeFree p
      pure ArakoonReturnCode.success.rc

/-- A call that returns. One that aborts or uses memory that is not there has no next state. -/
def netStep (call : NetCall) (u : Network) : Except Unit (ArakoonRc × Network) :=
  match (call.program outside rounds).run u with
  | none => .error ()
  | some out => .ok out

end Calls

end Crakoon
