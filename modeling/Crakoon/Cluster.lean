import Crakoon.Connection
import Crakoon.Memory

/-!
# Clusters and their nodes

The structures behind `ArakoonCluster` and `ArakoonClusterNode` and the functions that build them. A
cluster owns its nodes; within it a node is known by the number of nodes that were added before it.
-/

namespace Crakoon

inductive ArakoonProtocolVersion where
  | version1
  deriving DecidableEq, Repr

/-- One address that `getaddrinfo` returned. -/
abbrev Address := Nat

/-- A node; its descriptor is not negative while it has a connection. -/
structure ClusterNode where
  name : CString
  address : List Address
  conn : Option Conn

abbrev NodeId := Nat

structure Cluster where
  version : ArakoonProtocolVersion
  name : CString
  lastError : Data
  /-- The list of nodes, from its head. -/
  nodes : List NodeId
  node : NodeId → ClusterNode
  master : Option NodeId

/-- `arakoon_cluster_node_new` -/
def arakoonClusterNodeNew (name : CString) : ClusterNode := ⟨name, [], none⟩

/-- `arakoon_cluster_new` -/
def arakoonClusterNew (version : ArakoonProtocolVersion) (name : CString) : Cluster where
  version := version
  name := name
  lastError := .null
  nodes := []
  node := fun _ => arakoonClusterNodeNew ⟨[], by simp⟩
  master := none

def Cluster.setNode (cluster : Cluster) (k : NodeId) (node : ClusterNode) : Cluster :=
  { cluster with node := fun j => if j = k then node else cluster.node j }

/-- `arakoon_cluster_add_node`, for a node that no cluster has yet: it becomes the head of the list. -/
def arakoonClusterAddNode (cluster : Cluster) (node : ClusterNode) : Cluster :=
  { cluster.setNode cluster.nodes.length node with nodes := cluster.nodes.length :: cluster.nodes }

/-- `arakoon_cluster_node_add_address`: the chain goes to the end of the one that is there. -/
def arakoonClusterNodeAddAddress (node : ClusterNode) (address : List Address) : ClusterNode :=
  { node with address := node.address ++ address }

/-- `arakoon_cluster_node_add_address_tcp`, with what `getaddrinfo` returns for the host and the service. -/
def arakoonClusterNodeAddAddressTcp (getaddrinfo : CString → CString → Option (List Address))
    (node : ClusterNode) (host service : CString) : ArakoonRc × ClusterNode :=
  match getaddrinfo host service with
  | none => (ArakoonReturnCode.clientNetworkError, node)
  | some result => (ArakoonReturnCode.success, arakoonClusterNodeAddAddress node result)

/-- The nodes of a cluster, from the head of its list. -/
def Cluster.nodeList (cluster : Cluster) : List ClusterNode := cluster.nodes.map cluster.node

/-- The numbers of the nodes run from the latest one down to `0`. -/
structure Cluster.Numbered (cluster : Cluster) : Prop where
  nodes : cluster.nodes = (List.range cluster.nodes.length).reverse

theorem numbered_new (version : ArakoonProtocolVersion) (name : CString) :
    (arakoonClusterNew version name).Numbered := ⟨rfl⟩

theorem numbered_addNode {cluster : Cluster} (h : cluster.Numbered) (node : ClusterNode) :
    (arakoonClusterAddNode cluster node).Numbered := by
  constructor
  change cluster.nodes.length :: cluster.nodes = (List.range (cluster.nodes.length + 1)).reverse
  rw [List.range_succ, List.reverse_append, ← h.nodes]
  rfl

/-- A node that is added comes to stand before the others, which stay what they are. -/
theorem nodeList_addNode {cluster : Cluster} (h : cluster.Numbered) (node : ClusterNode) :
    (arakoonClusterAddNode cluster node).nodeList = node :: cluster.nodeList := by
  have hold : ∀ k ∈ cluster.nodes, k ≠ cluster.nodes.length := by
    intro k hk
    rw [h.nodes, List.mem_reverse, List.mem_range] at hk
    exact Nat.ne_of_lt hk
  simp only [Cluster.nodeList, arakoonClusterAddNode, Cluster.setNode, List.map_cons, if_true, List.cons.injEq,
    true_and]
  exact List.map_congr_left fun k hk => if_neg (hold k hk)

end Crakoon
