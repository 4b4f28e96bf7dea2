import Crakoon.Cluster
import Mathlib.Data.Nat.Digits.Defs

/-!
# The routing table of a nursery

The table, the parser that builds it from the bytes a server sends, and the lookup of the cluster that holds a key. The
parser moves a cursor over the block the bytes are in; a `Reader` holds what is left from the cursor to the end of the
block, so a look at a byte that is not there is an `inputOverrun`. Its requests for memory are counted, and `memory` says
which of them are granted. Nothing bounds the cursor, and few of the requests are checked.
-/

namespace Crakoon

open Reading

/-- `ArakoonNurseryRoutingNode`. The strings are the contents of their blocks, less the terminator. -/
inductive RoutingNode where
  | leaf (cluster : Bytes)
  | internal (boundary : Bytes) (left right : RoutingNode)
  deriving DecidableEq, Repr

/-- `ArakoonNurseryRouting`. The clusters are those in front of the first null pointer of the array. -/
structure NurseryRouting where
  root : RoutingNode
  clusters : List Cluster

/-- A step of a clean-up. -/
inductive CleanupEvent where
  | inspectSlot (slot : Nat)
  | freeCluster (slot : Nat)
  | freeArray
  /-- A store through the pointer to the array after the array was freed. -/
  | storeFreedArray
  | freeTree
  deriving DecidableEq, Repr

/-- A clean-up of an array of `count` slots and a terminator, of which the first `written` slots have been written. -/
structure Cleanup where
  count : Nat
  written : Nat
  steps : List CleanupEvent
  deriving DecidableEq, Repr

/-- What stops the parser before it returns. -/
inductive ParseFault where
  | inputOverrun
  /-- A store behind the end of a block of characters or of slots; a block that was refused has no room at all. -/
  | blockOverrun
  /-- A store in a structure for which no memory was granted. -/
  | nullStruct
  /-- The clean-up that stores in an array that has been freed. -/
  | cleanup (cleanup : Cleanup)
  /-- The recursion is deeper than the fuel it was given. -/
  | fuel
  deriving DecidableEq, Repr

/-- The state is the number of requests for memory so far. -/
abbrev Parser := StateT Nat (Reader ParseFault UInt8)

/-- The slots up to the first null pointer. -/
def visible {α : Type} : List (Option α) → List α
  | some a :: slots => a :: visible slots
  | _ => []

/-- The loop that frees the clusters of an array up to a slot that holds a null pointer. A slot that has
never been written holds anything; the loop is followed up to the first such slot. -/
def freeClusters (clusters : Nat) : List CleanupEvent :=
  (List.range clusters).flatMap (fun slot => [.inspectSlot slot, .freeCluster slot]) ++ [.inspectSlot clusters]

/-- `_read_bool` -/
def routingReadBool : Parser ArakoonBool := do
  let b ← StateT.lift (token .inputOverrun)
  pure (if b = boolFalse then boolFalse else boolTrue)

/-- `_read_uint32` -/
def routingReadUInt32 : Parser Nat := StateT.lift (u32 .inputOverrun)

def uint32MaxLength : Nat := 10

/-- The decimal digits of a number, as text. -/
def decimal (n : Nat) : Bytes := (Nat.toDigits 10 n).map fun c => UInt8.ofNat c.toNat

/-- What `snprintf(service, sizeof(service), "%u", port)` leaves in `service`, less the terminator. -/
def serviceOf (port : Nat) : CString := .ofBytes ((decimal port).take uint32MaxLength)

/-- The characters or slots in a block for `n` of them and a terminator. The number is computed in 32 bits. -/
def blockSize (granted : Bool) (n : Nat) : Nat := if granted then (n + 1) % 2 ^ 32 else 0

section Parse

variable (memory : Nat → Bool)

/-- A request for memory, and whether it is granted. -/
def requestBlock : Parser Bool := fun n => pure (memory n, n + 1)

/-- `_read_string`. The copy and the terminator are stored whether or not there is room for them. -/
def routingReadString : Parser Bytes := do
  let length ← routingReadUInt32
  let granted ← requestBlock memory
  if blockSize granted length < length + 1 then StateT.lift (fail .blockOverrun)
  else StateT.lift (take .inputOverrun length)

/-- `arakoon_nursery_routing_node_new`. The block is cleared whether or not it is there. -/
def routingNodeNew : Parser Unit := do
  let granted ← requestBlock memory
  if granted then pure () else StateT.lift (fail .nullStruct)

/-- `arakoon_nursery_routing_parse_node` -/
def routingParseNode : Nat → Parser RoutingNode
  | 0 => StateT.lift (fail .fuel)
  | fuel + 1 => do
      let isLeaf ← routingReadBool
      routingNodeNew memory
      if isLeaf ≠ boolFalse then do
        let cluster ← routingReadString memory
        pure (.leaf cluster)
      else do
        let boundary ← routingReadString memory
        let left ← routingParseNode fuel
        let right ← routingParseNode fuel
        pure (.internal boundary left right)

/-- The memory of `arakoon_cluster_new` and of `arakoon_cluster_node_new`, a block for the object and one for its name:
a null pointer where either is refused. -/
def objectNew {α : Type} (object : α) : Parser (Option α) := do
  let granted ← requestBlock memory
  if granted then do
    let named ← requestBlock memory
    pure (if named then some object else none)
  else pure none

variable (getaddrinfo : Nat → CString → CString → Option (List Address))
variable (version : ArakoonProtocolVersion)

/-- The loop over the nodes of a cluster: whether it comes to its end, the cluster and the number of address lookups
made so far. Where it does not come to its end it is a `goto failure`. -/
def routingParseNodes : Nat → Nat → Option Cluster → Parser (Bool × Option Cluster × Nat)
  | 0, lookups, cluster => pure (true, cluster, lookups)
  | j + 1, lookups, cluster => do
      let nodeId ← routingReadString memory
      let ip ← routingReadString memory
      let port ← routingReadUInt32
      match ← objectNew memory (arakoonClusterNodeNew (.ofBytes nodeId)) with
      | none => pure (false, cluster, lookups)
      | some node => do
          let out := arakoonClusterNodeAddAddressTcp (getaddrinfo lookups) node (.ofBytes ip) (serviceOf port)
          if out.1 ≠ 0 then pure (false, cluster, lookups + 1)
          else
            match cluster with
            -- `arakoon_cluster_add_node` refuses a null pointer
            | none => pure (false, none, lookups + 1)
            | some cluster => routingParseNodes j (lookups + 1) (some (arakoonClusterAddNode cluster out.2))

/-- The loop over the clusters: whether it comes to its end, and the slots of the array that have been written, in
order. The result of `arakoon_cluster_new` is stored unchecked. -/
def routingParseClusterLoop : Nat → Nat → List (Option Cluster) → Parser (Bool × List (Option Cluster))
  | 0, _, ret => pure (true, ret)
  | i + 1, lookups, ret => do
      let clusterId ← routingReadString memory
      let clusterSize ← routingReadUInt32
      let cluster ← objectNew memory (arakoonClusterNew version (.ofBytes clusterId))
      let out ← routingParseNodes memory getaddrinfo clusterSize lookups cluster
      if out.1 then routingParseClusterLoop i out.2.2 (ret ++ [out.2.1]) else pure (false, ret ++ [out.2.1])

/-- `arakoon_nursery_routing_parse_clusters`: the slots of the array, less its terminator, which is stored in the slot
`count`. Behind the label `failure` the array is freed, and then a null pointer is stored in it. -/
def routingParseClusters : Parser (List (Option Cluster)) := do
  let count ← routingReadUInt32
  let granted ← requestBlock memory
  if blockSize granted count < count + 1 then StateT.lift (fail .blockOverrun)
  else do
    let out ← routingParseClusterLoop memory getaddrinfo version count 0 []
    if out.1 then pure out.2
    else StateT.lift (fail (.cleanup
      ⟨count, out.2.length, freeClusters (visible out.2).length ++ [.freeArray, .storeFreedArray]⟩))

/-- What the parser returns, and the clean-up that it makes first. -/
structure ParseOutcome where
  rc : ArakoonRc
  routing : Option NurseryRouting
  cleanup : Option Cleanup

/-- `_arakoon_nursery_routing_parse`. The branches behind a failure of `arakoon_nursery_routing_parse_clusters` are not
reached: its clean-up has stored in a block that is not its own. -/
def nurseryRoutingParse (length : Nat) (data : Bytes) : Except ParseFault ParseOutcome := do
  let ((root, requests), iter) ← ((routingParseNode memory (data.length + 1)).run 0).run data
  let ((clusters, requests), iter) ← ((routingParseClusters memory getaddrinfo version).run requests).run iter
  if data.length - iter.length ≠ length then
    pure ⟨ArakoonReturnCode.clientNurseryInvalidRouting, none,
      some ⟨clusters.length, clusters.length, .freeTree :: freeClusters (visible clusters).length ++ [.freeArray]⟩⟩
  else if memory requests then pure ⟨ArakoonReturnCode.success, some ⟨root, visible clusters⟩, none⟩
  else .error .nullStruct

end Parse

/-- The first difference between two blocks decides. -/
def firstDifference : Bytes → Bytes → Ordering
  | k :: key, b :: block => if k = b then firstDifference key block else compare k b
  | _, _ => .eq

/-- The sign of `memcmp` over as many bytes as the key has. `memcmp` may read all of them, also behind the first
difference; there is no value when the block has fewer. -/
def memcmp (key block : Bytes) : Option Ordering :=
  if key.length ≤ block.length then some (firstDifference key block) else none

/-- `_arakoon_nursery_routing_node_lookup`. The block of a boundary ends with its terminator. -/
def nurseryRoutingNodeLookup (key : Bytes) : RoutingNode → Option Bytes
  | .leaf cluster => some cluster
  | .internal boundary left right =>
      match memcmp key (boundary ++ [0]) with
      | none => none
      | some .lt => nurseryRoutingNodeLookup key left
      | some _ => nurseryRoutingNodeLookup key right

/-- The first cluster with the name, and its slot. -/
def nurseryRoutingFind (clusterName : Bytes) (clusters : List Cluster) : Option (Cluster × Nat) :=
  clusters.zipIdx.find? fun slot => slot.1.name = CString.ofBytes clusterName

/-- `_arakoon_nursery_routing_lookup`, for a table that is there. -/
def nurseryRoutingLookup (routing : NurseryRouting) (key : Bytes) : Option (Option (Cluster × Nat)) := do
  let clusterName ← nurseryRoutingNodeLookup key routing.root
  pure (nurseryRoutingFind clusterName routing.clusters)

end Crakoon
