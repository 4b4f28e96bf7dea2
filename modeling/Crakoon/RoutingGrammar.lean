import Crakoon.Routing

/-!
# The words of the routing format

The language of a routing table: a tree, the number of clusters, and the clusters with their nodes. The parser checks no
bounds and does not survive a failure, so it returns on exactly the inputs that begin with a word of this language whose
address lookups all succeed, if it has the memory for it.
-/

namespace Crakoon

open Reading

/-- A string behind its length, short enough for the size of its block to be computed in 32 bits. -/
def StringWord (s bs : Bytes) : Prop := s.length + 1 < 2 ^ 32 ∧ bs = le32 s.length ++ s

/-- A leaf is any byte other than `0` and the name of a cluster, an inner node a byte `0`, its boundary
and its two subtrees. -/
inductive NodeWord : RoutingNode → Bytes → Prop where
  | leaf {mark : UInt8} {cluster bs : Bytes} (hmark : mark ≠ boolFalse) (hcluster : StringWord cluster bs) :
      NodeWord (.leaf cluster) (mark :: bs)
  | internal {boundary bs ls rs : Bytes} {left right : RoutingNode} (hboundary : StringWord boundary bs)
      (hleft : NodeWord left ls) (hright : NodeWord right rs) :
      NodeWord (.internal boundary left right) (boolFalse :: (bs ++ (ls ++ rs)))

/-- A node of a cluster, as it is sent. -/
structure NodeEntry where
  id : Bytes
  host : Bytes
  port : Nat
  deriving DecidableEq

/-- A cluster of a routing table, as it is sent. -/
structure ClusterEntry where
  id : Bytes
  nodes : List NodeEntry
  deriving DecidableEq

def EntryWord (e : NodeEntry) (bs : Bytes) : Prop :=
  ∃ ids hosts, StringWord e.id ids ∧ StringWord e.host hosts ∧ e.port < 2 ^ 32 ∧
    bs = ids ++ (hosts ++ le32 e.port)

/-- The name of a cluster and the number of its nodes. -/
def HeaderWord (id : Bytes) (size : Nat) (bs : Bytes) : Prop :=
  ∃ ids, StringWord id ids ∧ size < 2 ^ 32 ∧ bs = ids ++ le32 size

def ClusterWord (c : ClusterEntry) (bs : Bytes) : Prop :=
  ∃ header nodes, HeaderWord c.id c.nodes.length header ∧ Reads.Many EntryWord c.nodes nodes ∧
    bs = header ++ nodes

/-- A word of the format: the tree, the number of clusters and the clusters. -/
def TableWord (root : RoutingNode) (clusters : List ClusterEntry) (bs : Bytes) : Prop :=
  ∃ tree list, NodeWord root tree ∧ clusters.length + 1 < 2 ^ 32 ∧ Reads.Many ClusterWord clusters list ∧
    bs = tree ++ (le32 clusters.length ++ list)

section Lookups

variable (getaddrinfo : Nat → CString → CString → Option (List Address))

/-- The `k`-th address lookup, made for the node `e`. -/
def lookupEntry (k : Nat) (e : NodeEntry) : Option (List Address) :=
  getaddrinfo k (.ofBytes e.host) (serviceOf e.port)

/-- The lookups for the nodes succeed, the first one being the `k`-th. -/
def Resolves : Nat → List NodeEntry → Prop
  | _, [] => True
  | k, e :: es => (lookupEntry getaddrinfo k e).isSome ∧ Resolves (k + 1) es

def ResolvesAll : Nat → List ClusterEntry → Prop
  | _, [] => True
  | k, c :: cs => Resolves getaddrinfo k c.nodes ∧ ResolvesAll (k + c.nodes.length) cs

/-- The node that is built for an entry. -/
def nodeOf (k : Nat) (e : NodeEntry) : ClusterNode where
  name := .ofBytes e.id
  address := (lookupEntry getaddrinfo k e).getD []
  conn := none

/-- The cluster after the nodes have been added to it. -/
def addEntries : Nat → Cluster → List NodeEntry → Cluster
  | _, cluster, [] => cluster
  | k, cluster, e :: es => addEntries (k + 1) (arakoonClusterAddNode cluster (nodeOf getaddrinfo k e)) es

variable (version : ArakoonProtocolVersion)

/-- The cluster that is built for an entry, its first address lookup being the `k`-th. -/
def clusterOf (k : Nat) (c : ClusterEntry) : Cluster :=
  addEntries getaddrinfo k (arakoonClusterNew version (.ofBytes c.id)) c.nodes

def clustersOf : Nat → List ClusterEntry → List Cluster
  | _, [] => []
  | k, c :: cs => clusterOf getaddrinfo version k c :: clustersOf (k + c.nodes.length) cs

end Lookups

section Memory

variable (memory : Nat → Bool)

/-- The `k` requests from the `n`-th on are granted. -/
def GrantedFrom (n k : Nat) : Prop := ∀ i < k, memory (n + i) = true

theorem granted_zero (n : Nat) : GrantedFrom memory n 0 := fun _ h => absurd h (Nat.not_lt_zero _)

theorem granted_one {n : Nat} : GrantedFrom memory n 1 ↔ memory n = true := by
  refine ⟨fun h => h 0 Nat.one_pos, fun h i hi => ?_⟩
  obtain rfl : i = 0 := by omega
  exact h

theorem granted_add {n j k : Nat} :
    GrantedFrom memory n (j + k) ↔ GrantedFrom memory n j ∧ GrantedFrom memory (n + j) k := by
  constructor
  · intro h
    refine ⟨fun i hi => h i (by omega), fun i hi => ?_⟩
    rw [Nat.add_assoc]
    exact h (j + i) (by omega)
  · rintro ⟨hfirst, hsecond⟩ i hi
    by_cases hij : i < j
    · exact hfirst i hij
    · have hlast := hsecond (i - j) (by omega)
      rwa [Nat.add_assoc, Nat.add_sub_cancel' (Nat.le_of_not_lt hij)] at hlast

/-- The requests that are made for a tree. -/
def RoutingNode.requests : RoutingNode → Nat
  | .leaf _ => 2
  | .internal _ left right => 2 + (left.requests + right.requests)

/-- The block of an object and that of its name are granted. -/
def objectGranted (n : Nat) : Bool := memory n && memory (n + 1)

/-- The requests that are made for an object, the first being the `n`-th. -/
def objectRequests (n : Nat) : Nat := if memory n then 2 else 1

/-- The requests that are made for a cluster: its name as a string, the cluster itself, and four for each node. -/
def clusterRequests (n : Nat) (c : ClusterEntry) : Nat := 1 + (objectRequests memory (n + 1) + 4 * c.nodes.length)

variable (getaddrinfo : Nat → CString → CString → Option (List Address))

/-- What the loop over the clusters needs, from the `n`-th request and the `k`-th address lookup on: all lookups
succeed, and all requests are granted but for that of a cluster without nodes. -/
def Supplied : Nat → Nat → List ClusterEntry → Prop
  | _, _, [] => True
  | n, k, c :: cs => (memory n = true ∧ (c.nodes ≠ [] → objectGranted memory (n + 1) = true) ∧
      GrantedFrom memory (n + 1 + objectRequests memory (n + 1)) (4 * c.nodes.length) ∧ Resolves getaddrinfo k c.nodes) ∧
      Supplied (n + clusterRequests memory n c) (k + c.nodes.length) cs

variable (version : ArakoonProtocolVersion)

/-- The slots of the array behind the loop. -/
def slotsOf : Nat → Nat → List ClusterEntry → List (Option Cluster)
  | _, _, [] => []
  | n, k, c :: cs => (if objectGranted memory (n + 1) then some (clusterOf getaddrinfo version k c) else none) ::
      slotsOf (n + clusterRequests memory n c) (k + c.nodes.length) cs

/-- The requests that are made for the clusters. -/
def clustersRequests : Nat → List ClusterEntry → Nat
  | _, [] => 0
  | n, c :: cs => clusterRequests memory n c + clustersRequests (n + clusterRequests memory n c) cs

@[simp] theorem slotsOf_length (n k : Nat) (cs : List ClusterEntry) :
    (slotsOf memory getaddrinfo version n k cs).length = cs.length := by
  induction cs generalizing n k with
  | nil => rfl
  | cons c cs ih => simp [slotsOf, ih]

section GrantedFrom

variable {memory} (hmemory : ∀ n, memory n = true)
include hmemory

theorem objectGranted_of_memory (n : Nat) : objectGranted memory n = true := by
  rw [objectGranted, hmemory, hmemory]
  rfl

/-- With memory enough only the lookups count. -/
theorem supplied_iff (n k : Nat) (cs : List ClusterEntry) :
    Supplied memory getaddrinfo n k cs ↔ ResolvesAll getaddrinfo k cs := by
  induction cs generalizing n k with
  | nil => exact Iff.rfl
  | cons c cs ih =>
      rw [Supplied, ResolvesAll, ih]
      refine and_congr_left' ⟨fun h => h.2.2.2, fun h => ⟨hmemory n, fun _ => objectGranted_of_memory hmemory _,
        fun i _ => hmemory _, h⟩⟩

/-- With memory enough every slot holds a cluster. -/
theorem slotsOf_eq (n k : Nat) (cs : List ClusterEntry) :
    slotsOf memory getaddrinfo version n k cs = (clustersOf getaddrinfo version k cs).map some := by
  induction cs generalizing n k with
  | nil => rfl
  | cons c cs ih => rw [slotsOf, if_pos (objectGranted_of_memory hmemory _), ih, clustersOf, List.map_cons]

end GrantedFrom

end Memory

@[simp] theorem visible_map_some {α : Type} (as : List α) : visible (as.map some) = as := by
  induction as with
  | nil => rfl
  | cons a as ih => simp [visible, ih]

/-! ### The parser recognises the language -/

theorem reads_uint32 (n : Nat) :
    ReadsFrom n routingReadUInt32 fun m n' bs => (m < 2 ^ 32 ∧ bs = le32 m) ∧ n' = n :=
  ReadsFrom.lift (reads_u32 _)

theorem reads_bool (n : Nat) : ReadsFrom n routingReadBool fun b n' bs =>
    ((b = boolFalse ∧ bs = [boolFalse]) ∨ (b = boolTrue ∧ ∃ mark, mark ≠ boolFalse ∧ bs = [mark])) ∧ n' = n := by
  apply ((ReadsFrom.lift (Reads.token _)).map fun b => if b = boolFalse then boolFalse else boolTrue).congr
  intro b n' bs
  constructor
  · rintro ⟨mark, ⟨rfl, rfl⟩, rfl⟩
    refine ⟨?_, rfl⟩
    by_cases h : mark = boolFalse
    · simp [h]
    · exact .inr ⟨if_neg h, mark, h, rfl⟩
  · rintro ⟨⟨rfl, rfl⟩ | ⟨rfl, mark, hmark, rfl⟩, rfl⟩
    · exact ⟨boolFalse, ⟨rfl, rfl⟩, rfl⟩
    · exact ⟨mark, ⟨rfl, rfl⟩, (if_neg hmark).symm⟩

/-- The number of inner nodes on the longest path from the root. -/
def RoutingNode.depth : RoutingNode → Nat
  | .leaf _ => 0
  | .internal _ left right => max left.depth right.depth + 1

theorem NodeWord.depth_lt {t : RoutingNode} {bs : Bytes} (h : NodeWord t bs) : t.depth < bs.length := by
  induction h with
  | leaf hmark hcluster => simp [RoutingNode.depth]
  | internal hboundary hleft hright ihleft ihright =>
      simp only [RoutingNode.depth, List.length_cons, List.length_append]
      omega

section Parse

variable (memory : Nat → Bool)

theorem reads_request (n : Nat) :
    ReadsFrom n (requestBlock memory) fun granted n' bs => (granted = memory n ∧ n' = n + 1) ∧ bs = [] :=
  (Reads.pure (memory n, n + 1)).congr fun out bs => by rw [Prod.ext_iff]

theorem reads_string (n : Nat) : ReadsFrom n (routingReadString memory) fun s n' bs =>
    StringWord s bs ∧ memory n = true ∧ n' = n + 1 := by
  apply ((reads_uint32 n).bind fun length _ => (reads_request memory _).bind fun granted _ =>
    ReadsFrom.ite (ReadsFrom.fail _) (ReadsFrom.lift (Reads.take _ length))).congr
  intro s n' bs
  constructor
  · rintro ⟨length, m, _, _, ⟨⟨hlength, rfl⟩, rfl⟩, ⟨granted, _, _, _, ⟨⟨rfl, rfl⟩, rfl⟩, hrest, rfl⟩, rfl⟩
    split_ifs at hrest with hsize
    obtain ⟨⟨rfl, rfl⟩, rfl⟩ := hrest
    by_cases hgranted : memory m = true
    · rw [blockSize, if_pos hgranted] at hsize
      exact ⟨⟨by omega, rfl⟩, hgranted, rfl⟩
    · rw [blockSize, if_neg hgranted] at hsize
      omega
  · rintro ⟨⟨hs, rfl⟩, hgranted, rfl⟩
    refine ⟨s.length, n, _, s, ⟨⟨by omega, rfl⟩, rfl⟩, ⟨memory n, n + 1, [], s, ⟨⟨rfl, rfl⟩, rfl⟩, ?_, rfl⟩, rfl⟩
    rw [blockSize, if_pos hgranted, if_neg (by omega)]
    exact ⟨⟨rfl, rfl⟩, rfl⟩

theorem reads_nodeNew (n : Nat) : ReadsFrom n (routingNodeNew memory) fun _ n' bs =>
    (memory n = true ∧ n' = n + 1) ∧ bs = [] := by
  apply ((reads_request memory n).bind fun granted _ => ReadsFrom.ite (ReadsFrom.pure ()) (ReadsFrom.fail _)).congr
  intro _ n' bs
  constructor
  · rintro ⟨granted, _, _, _, ⟨⟨rfl, rfl⟩, rfl⟩, hrest, rfl⟩
    split_ifs at hrest with hgranted
    obtain ⟨⟨-, rfl⟩, rfl⟩ := hrest
    exact ⟨⟨hgranted, rfl⟩, rfl⟩
  · rintro ⟨⟨hgranted, rfl⟩, rfl⟩
    refine ⟨memory n, n + 1, [], [], ⟨⟨rfl, rfl⟩, rfl⟩, ?_, rfl⟩
    rw [if_pos hgranted]
    exact ⟨⟨rfl, rfl⟩, rfl⟩

theorem granted_leaf {n : Nat} {cluster : Bytes} :
    GrantedFrom memory n (RoutingNode.leaf cluster).requests ↔ memory n = true ∧ memory (n + 1) = true := by
  rw [RoutingNode.requests, show 2 = 1 + 1 from rfl, granted_add, granted_one, granted_one]

theorem granted_internal {n : Nat} {boundary : Bytes} {left right : RoutingNode} :
    GrantedFrom memory n (RoutingNode.internal boundary left right).requests ↔ memory n = true ∧ memory (n + 1) = true ∧
      GrantedFrom memory (n + 1 + 1) left.requests ∧ GrantedFrom memory (n + 1 + 1 + left.requests) right.requests := by
  rw [RoutingNode.requests, show 2 = 1 + 1 from rfl, granted_add, granted_add, granted_one, granted_one, granted_add,
    and_assoc, Nat.add_assoc n 1 1]

/-- The recursive descent reads the words of the trees that are not too deep for its fuel. -/
theorem reads_parseNode (fuel n : Nat) : ReadsFrom n (routingParseNode memory fuel) fun t n' bs =>
    (NodeWord t bs ∧ t.depth < fuel) ∧ GrantedFrom memory n t.requests ∧ n' = n + t.requests := by
  induction fuel generalizing n with
  | zero => exact (ReadsFrom.fail _).congr fun t n' bs => by simp
  | succ fuel ih =>
      refine ((reads_bool n).bind fun isLeaf _ => (reads_nodeNew memory _).bind fun _ _ =>
        ReadsFrom.ite ((reads_string memory _).map _) ((reads_string memory _).bind fun boundary _ =>
          (ih _).bind fun left _ => (ih _).map _)).congr fun t n' bs => ?_
      constructor
      · rintro ⟨isLeaf, _, cs, ds, ⟨hbool, rfl⟩, ⟨_, _, _, _, ⟨⟨hnode, rfl⟩, rfl⟩, hrest, rfl⟩, rfl⟩
        rcases hbool with ⟨rfl, rfl⟩ | ⟨rfl, mark, hmark, rfl⟩
        · rw [if_neg (by decide)] at hrest
          obtain ⟨boundary, _, bs, _, ⟨hboundary, hstring, rfl⟩, ⟨left, _, ls, rs, ⟨⟨hleft, hl⟩, hlgranted, rfl⟩,
            ⟨right, ⟨⟨hright, hr⟩, hrgranted, rfl⟩, rfl⟩, rfl⟩, rfl⟩ := hrest
          rw [List.singleton_append]
          refine ⟨⟨.internal hboundary hleft hright, by simp only [RoutingNode.depth]; omega⟩,
            (granted_internal memory).mpr ⟨hnode, hstring, hlgranted, hrgranted⟩, ?_⟩
          simp only [RoutingNode.requests]
          omega
        · rw [if_pos (by decide)] at hrest
          obtain ⟨cluster, ⟨hcluster, hstring, rfl⟩, rfl⟩ := hrest
          exact ⟨⟨.leaf hmark hcluster, by simp [RoutingNode.depth]⟩, (granted_leaf memory).mpr ⟨hnode, hstring⟩, rfl⟩
      · rintro ⟨⟨hword, hdepth⟩, hgranted, rfl⟩
        cases hword with
        | @leaf mark cluster bs hmark hcluster =>
            obtain ⟨hnode, hstring⟩ := (granted_leaf memory).mp hgranted
            refine ⟨boolTrue, n, [mark], bs, ⟨.inr ⟨rfl, mark, hmark, rfl⟩, rfl⟩,
              ⟨(), n + 1, [], bs, ⟨⟨hnode, rfl⟩, rfl⟩, ?_, rfl⟩, rfl⟩
            rw [if_pos (by decide)]
            exact ⟨cluster, ⟨hcluster, hstring, rfl⟩, rfl⟩
        | @internal boundary bs ls rs left right hboundary hleft hright =>
            obtain ⟨hnode, hstring, hlgranted, hrgranted⟩ := (granted_internal memory).mp hgranted
            simp only [RoutingNode.depth] at hdepth
            refine ⟨boolFalse, n, [boolFalse], _, ⟨.inl ⟨rfl, rfl⟩, rfl⟩,
              ⟨(), n + 1, [], _, ⟨⟨hnode, rfl⟩, rfl⟩, ?_, rfl⟩, rfl⟩
            rw [if_neg (by decide)]
            refine ⟨boundary, _, bs, _, ⟨hboundary, hstring, rfl⟩, ⟨left, _, ls, rs, ⟨⟨hleft, by omega⟩, hlgranted, rfl⟩,
              ⟨right, ⟨⟨hright, by omega⟩, hrgranted, ?_⟩, rfl⟩, rfl⟩, rfl⟩
            simp only [RoutingNode.requests]
            omega

theorem reads_object {α : Type} (object : α) (n : Nat) : ReadsFrom n (objectNew memory object) fun o n' bs =>
    (o = (if objectGranted memory n then some object else none) ∧ n' = n + objectRequests memory n) ∧ bs = [] := by
  apply ((reads_request memory n).bind fun granted _ => ReadsFrom.ite
    ((reads_request memory _).map fun named => if named then some object else none) (ReadsFrom.pure none)).congr
  intro o n' bs
  have hcases : (∃ b, ((b = memory (n + 1) ∧ n' = n + 1 + 1) ∧ bs = []) ∧ o = if b then some object else none) ↔
      (o = (if memory (n + 1) then some object else none) ∧ n' = n + 2) ∧ bs = [] := by
    constructor
    · rintro ⟨_, ⟨⟨rfl, rfl⟩, rfl⟩, rfl⟩
      exact ⟨⟨rfl, rfl⟩, rfl⟩
    · rintro ⟨⟨rfl, rfl⟩, rfl⟩
      exact ⟨_, ⟨⟨rfl, rfl⟩, rfl⟩, rfl⟩
  constructor
  · rintro ⟨granted, _, _, ds, ⟨⟨rfl, rfl⟩, rfl⟩, hrest, rfl⟩
    by_cases hgranted : memory n = true
    · rw [if_pos hgranted] at hrest
      simpa [objectGranted, objectRequests, hgranted] using hcases.mp hrest
    · rw [if_neg hgranted] at hrest
      simpa [objectGranted, objectRequests, hgranted] using hrest
  · intro h
    refine ⟨memory n, n + 1, [], bs, ⟨⟨rfl, rfl⟩, rfl⟩, ?_, rfl⟩
    by_cases hgranted : memory n = true
    · rw [if_pos hgranted]
      exact hcases.mpr (by simpa [objectGranted, objectRequests, hgranted] using h)
    · rw [if_neg hgranted]
      simpa [objectGranted, objectRequests, hgranted] using h

variable (getaddrinfo : Nat → CString → CString → Option (List Address))

/-- The node of an entry is built with the addresses of the lookup, if there are any. -/
theorem addAddressTcp_entry (k : Nat) (e : NodeEntry) :
    arakoonClusterNodeAddAddressTcp (getaddrinfo k) (arakoonClusterNodeNew (.ofBytes e.id)) (.ofBytes e.host)
        (serviceOf e.port) =
      if (lookupEntry getaddrinfo k e).isSome then (ArakoonReturnCode.success.rc, nodeOf getaddrinfo k e)
      else (ArakoonReturnCode.clientNetworkError.rc, arakoonClusterNodeNew (.ofBytes e.id)) := by
  cases h : getaddrinfo k (.ofBytes e.host) (serviceOf e.port) with
  | none => simp [arakoonClusterNodeAddAddressTcp, lookupEntry, h]
  | some result =>
      simp [arakoonClusterNodeAddAddressTcp, arakoonClusterNodeAddAddress, arakoonClusterNodeNew, lookupEntry,
        nodeOf, h]

/-- The three fields of a node, in order. -/
def routingReadEntry : Parser NodeEntry := do
  let nodeId ← routingReadString memory
  let ip ← routingReadString memory
  let port ← routingReadUInt32
  pure ⟨nodeId, ip, port⟩

/-- What a turn of the loop over the nodes does with an entry that has been read and the node that has been made. -/
def routingAddEntry (j lookups : Nat) (cluster : Option Cluster) (e : NodeEntry) :
    Option ClusterNode → Parser (Bool × Option Cluster × Nat)
  | none => pure (false, cluster, lookups)
  | some node => do
      let out := arakoonClusterNodeAddAddressTcp (getaddrinfo lookups) node (.ofBytes e.host) (serviceOf e.port)
      if out.1 ≠ 0 then pure (false, cluster, lookups + 1)
      else
        match cluster with
        | none => pure (false, none, lookups + 1)
        | some cluster =>
            routingParseNodes memory getaddrinfo j (lookups + 1) (some (arakoonClusterAddNode cluster out.2))

theorem parseNodes_succ (j k : Nat) (cluster : Option Cluster) :
    routingParseNodes memory getaddrinfo (j + 1) k cluster = routingReadEntry memory >>= fun e =>
      objectNew memory (arakoonClusterNodeNew (.ofBytes e.id)) >>= routingAddEntry memory getaddrinfo j k cluster e := by
  simp only [routingReadEntry, bind_assoc, pure_bind]
  rfl

theorem addEntry_missing {k : Nat} {e : NodeEntry} (h : lookupEntry getaddrinfo k e = none) (j : Nat)
    (cluster : Option Cluster) : routingAddEntry memory getaddrinfo j k cluster e
      (some (arakoonClusterNodeNew (.ofBytes e.id))) = pure (false, cluster, k + 1) := by
  unfold routingAddEntry
  dsimp only
  rw [addAddressTcp_entry, h]
  rfl

theorem addEntry_null {k : Nat} {e : NodeEntry} (h : (lookupEntry getaddrinfo k e).isSome) (j : Nat) :
    routingAddEntry memory getaddrinfo j k none e (some (arakoonClusterNodeNew (.ofBytes e.id))) =
      pure (false, none, k + 1) := by
  rw [routingAddEntry, addAddressTcp_entry, if_pos h]
  rfl

theorem addEntry_found {k : Nat} {e : NodeEntry} (h : (lookupEntry getaddrinfo k e).isSome) (j : Nat)
    (cluster : Cluster) :
    routingAddEntry memory getaddrinfo j k (some cluster) e (some (arakoonClusterNodeNew (.ofBytes e.id))) =
      routingParseNodes memory getaddrinfo j (k + 1) (some (arakoonClusterAddNode cluster (nodeOf getaddrinfo k e))) := by
  rw [routingAddEntry, addAddressTcp_entry, if_pos h]
  rfl

theorem reads_entry (n : Nat) : ReadsFrom n (routingReadEntry memory) fun e n' bs =>
    EntryWord e bs ∧ GrantedFrom memory n 2 ∧ n' = n + 2 := by
  have hgranted : GrantedFrom memory n 2 ↔ memory n = true ∧ memory (n + 1) = true := by
    rw [show 2 = 1 + 1 from rfl, granted_add, granted_one, granted_one]
  apply ((reads_string memory n).bind fun id _ => (reads_string memory _).bind fun host _ =>
    (reads_uint32 _).map _).congr
  intro e n' bs
  rw [hgranted]
  constructor
  · rintro ⟨id, _, ids, _, ⟨hid, hfirst, rfl⟩, ⟨host, _, hosts, _, ⟨hhost, hsecond, rfl⟩, ⟨port, ⟨⟨hport, rfl⟩, rfl⟩,
      rfl⟩, rfl⟩, rfl⟩
    exact ⟨⟨ids, hosts, hid, hhost, hport, rfl⟩, ⟨hfirst, hsecond⟩, rfl⟩
  · rintro ⟨⟨ids, hosts, hid, hhost, hport, rfl⟩, ⟨hfirst, hsecond⟩, rfl⟩
    exact ⟨e.id, _, ids, _, ⟨hid, hfirst, rfl⟩, ⟨e.host, _, hosts, _, ⟨hhost, hsecond, rfl⟩,
      ⟨e.port, ⟨⟨hport, rfl⟩, rfl⟩, rfl⟩, rfl⟩, rfl⟩

theorem granted_node {n : Nat} (k : Nat) : GrantedFrom memory n (4 * (k + 1)) ↔
    (GrantedFrom memory n 2 ∧ objectGranted memory (n + 2) = true) ∧ GrantedFrom memory (n + 4) (4 * k) := by
  have hobject : objectGranted memory (n + 2) = true ↔ GrantedFrom memory (n + 2) 2 := by
    rw [show 2 = 1 + 1 from rfl, granted_add, granted_one, granted_one, objectGranted, Bool.and_eq_true]
  rw [show 4 * (k + 1) = 2 + 2 + 4 * k by omega, granted_add, granted_add, hobject]

theorem objectRequests_granted {n : Nat} (h : objectGranted memory n = true) : objectRequests memory n = 2 :=
  if_pos (Bool.and_eq_true_iff.mp h).1

/-- What the loop over the nodes comes to where it comes to its end: all of them are added. -/
def NodesResult (n j k : Nat) (cluster : Option Cluster) (out : Bool × Option Cluster × Nat) (n' : Nat)
    (bs : Bytes) : Prop :=
  ∃ es, es.length = j ∧ Reads.Many EntryWord es bs ∧
    (GrantedFrom memory n (4 * j) ∧ Resolves getaddrinfo k es ∧ (es ≠ [] → cluster.isSome)) ∧
    out = (true, cluster.map (addEntries getaddrinfo k · es), k + j) ∧ n' = n + 4 * j

/-- The part of a turn behind the strings, if the rest of the loop is read. -/
theorem reads_addEntry {j k m' : Nat} {cluster : Option Cluster} (e : NodeEntry) (m : Nat)
    (hrest : ∀ c, ReadsWhen (fun out => out.1 = true) m' (routingParseNodes memory getaddrinfo j (k + 1) c)
      (NodesResult memory getaddrinfo m' j (k + 1) c))
    {node : Option ClusterNode}
    (hnode : node = if objectGranted memory m then some (arakoonClusterNodeNew (.ofBytes e.id)) else none) :
    ReadsWhen (fun out => out.1 = true) m' (routingAddEntry memory getaddrinfo j k cluster e node) fun out n' bs =>
      objectGranted memory m = true ∧ (lookupEntry getaddrinfo k e).isSome ∧ ∃ c, cluster = some c ∧
        NodesResult memory getaddrinfo m' j (k + 1)
          (some (arakoonClusterAddNode c (nodeOf getaddrinfo k e))) out n' bs := by
  have hfailed : ∀ {c : Option Cluster} {l : Nat}, ReadsWhen (fun out => out.1 = true) m'
      (pure (false, c, l) : Parser (Bool × Option Cluster × Nat)) fun _ _ _ => False := by
    intro c l
    refine ReadsWhen.none (ReadsFrom.pure _) ?_
    rintro b s' bs ⟨⟨rfl, -⟩, -⟩
    exact Bool.false_ne_true
  by_cases hgranted : objectGranted memory m = true
  · rw [if_pos hgranted] at hnode
    subst hnode
    by_cases hfound : (lookupEntry getaddrinfo k e).isSome
    · cases cluster with
      | none =>
          rw [addEntry_null memory getaddrinfo hfound]
          exact hfailed.congr fun out n' bs _ => by simp
      | some c =>
          rw [addEntry_found memory getaddrinfo hfound]
          exact (hrest _).congr fun out n' bs _ => by simp [hgranted, hfound]
    · rw [addEntry_missing memory getaddrinfo (by simpa using hfound)]
      exact hfailed.congr fun out n' bs _ => by simp [hfound]
  · rw [if_neg hgranted] at hnode
    subst hnode
    rw [routingAddEntry]
    exact hfailed.congr fun out n' bs _ => by simp [hgranted]

theorem reads_parseNodes (j k n : Nat) (cluster : Option Cluster) :
    ReadsWhen (fun out => out.1 = true) n (routingParseNodes memory getaddrinfo j k cluster)
      (NodesResult memory getaddrinfo n j k cluster) := by
  induction j generalizing k n cluster with
  | zero =>
      apply ((ReadsFrom.pure _).when _).congr
      intro out n' bs _
      constructor
      · rintro ⟨⟨rfl, rfl⟩, rfl⟩
        exact ⟨[], rfl, .nil, ⟨granted_zero memory _, trivial, fun h => absurd rfl h⟩, by simp [addEntries], rfl⟩
      · rintro ⟨es, hlen, hmany, -, rfl, rfl⟩
        obtain rfl := List.eq_nil_of_length_eq_zero hlen
        cases hmany
        exact ⟨⟨by simp [addEntries], rfl⟩, rfl⟩
  | succ j ih =>
      rw [parseNodes_succ]
      refine (ReadsWhen.after (reads_entry memory n) fun e m _ _ => ReadsWhen.after (reads_object memory _ m)
        fun node m' _ hnode => reads_addEntry memory getaddrinfo e m (ih (k + 1) m') hnode.1.1).congr fun out n' bs _ => ?_
      constructor
      · rintro ⟨e, m, cs, _, ⟨hentry, hfields, rfl⟩, ⟨node, m', _, ds, ⟨⟨-, rfl⟩, rfl⟩, ⟨hobject, hfound, c, rfl, es, rfl,
          hmany, ⟨hgranted, hes, -⟩, rfl, rfl⟩, rfl⟩, rfl⟩
        rw [objectRequests_granted memory hobject] at hgranted ⊢
        refine ⟨e :: es, rfl, hmany.cons hentry, ⟨(granted_node memory _).mpr ⟨⟨hfields, hobject⟩, hgranted⟩,
          ⟨hfound, hes⟩, fun _ => rfl⟩, ?_, by omega⟩
        simp [addEntries, Nat.add_assoc, Nat.add_comm 1]
      · rintro ⟨es, hlen, hmany, ⟨hgranted, hes, hsome⟩, rfl, rfl⟩
        obtain ⟨e, es, rfl⟩ := List.exists_cons_of_length_eq_add_one hlen
        obtain ⟨c, rfl⟩ := Option.isSome_iff_exists.mp (hsome (List.cons_ne_nil e es))
        obtain ⟨hfound, hes⟩ := hes
        obtain ⟨⟨hfields, hobject⟩, hgranted⟩ := (granted_node memory j).mp hgranted
        have hrequests := objectRequests_granted memory hobject
        cases hmany with
        | cons hentry hothers =>
            refine ⟨e, _, _, _, ⟨hentry, hfields, rfl⟩, ⟨_, _, [], _, ⟨⟨rfl, rfl⟩, rfl⟩, ⟨hobject, hfound, c, rfl, es,
              by simpa using hlen, hothers, ⟨?_, hes, fun _ => rfl⟩, ?_, ?_⟩, rfl⟩, rfl⟩
            · rw [hrequests]
              exact hgranted
            · simp [addEntries, Nat.add_assoc, Nat.add_comm 1]
            · rw [hrequests]
              omega

variable (version : ArakoonProtocolVersion)

/-- What the loop over the clusters comes to where it comes to its end. -/
def ClustersResult (n i k : Nat) (ret : List (Option Cluster)) (out : Bool × List (Option Cluster)) (n' : Nat)
    (bs : Bytes) : Prop :=
  ∃ cs, cs.length = i ∧ Reads.Many ClusterWord cs bs ∧ Supplied memory getaddrinfo n k cs ∧
    out = (true, ret ++ slotsOf memory getaddrinfo version n k cs) ∧ n' = n + clustersRequests memory n cs

theorem clusterRequests_eq (n : Nat) (c : ClusterEntry) :
    n + 1 + objectRequests memory (n + 1) + 4 * c.nodes.length = n + clusterRequests memory n c := by
  simp only [clusterRequests]
  omega

/-- The slot of the first cluster is what the loop over its nodes leaves. -/
theorem slotsOf_cons (n k : Nat) (c : ClusterEntry) (cs : List ClusterEntry) :
    slotsOf memory getaddrinfo version n k (c :: cs) =
      (if objectGranted memory (n + 1) then some (arakoonClusterNew version (.ofBytes c.id)) else none).map
        (addEntries getaddrinfo k · c.nodes) ::
        slotsOf memory getaddrinfo version (n + clusterRequests memory n c) (k + c.nodes.length) cs := by
  by_cases hgranted : objectGranted memory (n + 1) = true
  · simp [slotsOf, clusterOf, hgranted]
  · simp [slotsOf, hgranted]

theorem reads_clusterLoop (i k n : Nat) (ret : List (Option Cluster)) :
    ReadsWhen (fun out => out.1 = true) n (routingParseClusterLoop memory getaddrinfo version i k ret)
      (ClustersResult memory getaddrinfo version n i k ret) := by
  induction i generalizing k n ret with
  | zero =>
      apply ((ReadsFrom.pure _).when _).congr
      intro out n' bs _
      constructor
      · rintro ⟨⟨rfl, rfl⟩, rfl⟩
        exact ⟨[], rfl, .nil, trivial, by simp [slotsOf], rfl⟩
      · rintro ⟨cs, hlen, hmany, -, rfl, rfl⟩
        obtain rfl := List.eq_nil_of_length_eq_zero hlen
        cases hmany
        exact ⟨⟨by simp [slotsOf], rfl⟩, rfl⟩
  | succ i ih =>
      have hrest : ∀ (nodes : Bool × Option Cluster × Nat) m, nodes.1 = true → ReadsWhen (fun out => out.1 = true) m
          (if nodes.1 then routingParseClusterLoop memory getaddrinfo version i nodes.2.2 (ret ++ [nodes.2.1])
            else pure (false, ret ++ [nodes.2.1]))
          (ClustersResult memory getaddrinfo version m i nodes.2.2 (ret ++ [nodes.2.1])) := by
        intro nodes m hnodes
        rw [if_pos hnodes]
        exact ih _ _ _
      have hlost : ∀ (nodes : Bool × Option Cluster × Nat) m, ¬nodes.1 = true → ReadsWhen (fun out => out.1 = true) m
          (if nodes.1 then routingParseClusterLoop memory getaddrinfo version i nodes.2.2 (ret ++ [nodes.2.1])
            else pure (false, ret ++ [nodes.2.1])) fun _ _ _ => False := by
        intro nodes m hnodes
        rw [if_neg hnodes]
        refine ReadsWhen.none (ReadsFrom.pure _) ?_
        rintro b s' bs ⟨⟨rfl, -⟩, -⟩
        exact Bool.false_ne_true
      refine (ReadsWhen.after (reads_string memory n) fun id m₁ _ _ => ReadsWhen.after (reads_uint32 m₁)
        fun size m₂ _ _ => ReadsWhen.after (reads_object memory _ m₂) fun cluster m₃ _ _ =>
          ReadsWhen.bind (reads_parseNodes memory getaddrinfo size k m₃ cluster) (fun nodes m₄ _ h _ => hrest nodes m₄ h)
            hlost).congr fun out n' bs _ => ?_
      constructor
      · rintro ⟨id, m₁, ids, _, ⟨hid, hstring, rfl⟩, ⟨size, m₂, _, _, ⟨⟨hsize, rfl⟩, rfl⟩, ⟨cluster, m₃, _, _,
          ⟨⟨rfl, rfl⟩, rfl⟩, ⟨nodes, m₄, bs, ds, ⟨-, es, rfl, hmany, ⟨hgranted, hes, hsome⟩, rfl, rfl⟩, ⟨cs, rfl, hlist,
          hcs, rfl, rfl⟩, rfl⟩, rfl⟩, rfl⟩, rfl⟩
        have hcluster : ClusterWord ⟨id, es⟩ (ids ++ le32 es.length ++ bs) :=
          ⟨_, bs, ⟨ids, hid, hsize, rfl⟩, hmany, rfl⟩
        have hnext := clusterRequests_eq memory n ⟨id, es⟩
        dsimp only at hnext
        rw [hnext] at hcs ⊢
        refine ⟨⟨id, es⟩ :: cs, rfl, ?_, ⟨⟨hstring, fun hne => ?_, hgranted, hes⟩, hcs⟩, ?_, ?_⟩
        · simpa using hlist.cons hcluster
        · by_contra hrefused
          rw [if_neg hrefused] at hsome
          exact absurd (hsome hne) Bool.false_ne_true
        · rw [slotsOf_cons, List.append_assoc, List.singleton_append]
        · simp only [clustersRequests]
          omega
      · rintro ⟨cs, hlen, hmany, hcs, rfl, rfl⟩
        obtain ⟨c, cs, rfl⟩ := List.exists_cons_of_length_eq_add_one hlen
        obtain ⟨⟨hstring, hobject, hgranted, hes⟩, hcs⟩ := hcs
        cases hmany with
        | cons hcluster hothers =>
            obtain ⟨header, nodes, ⟨ids, hid, hsize, rfl⟩, hnodes, rfl⟩ := hcluster
            refine ⟨c.id, _, ids, _, ⟨hid, hstring, rfl⟩, ⟨c.nodes.length, _, _, _, ⟨⟨hsize, rfl⟩, rfl⟩, ⟨_, _, [], _,
              ⟨⟨rfl, rfl⟩, rfl⟩, ⟨_, _, nodes, _, ⟨rfl, c.nodes, rfl, hnodes, ⟨hgranted, hes, fun hne => ?_⟩, rfl, rfl⟩,
              ⟨cs, by simpa using hlen, hothers, ?_, ?_, ?_⟩, rfl⟩, rfl⟩, rfl⟩, by simp⟩
            · rw [if_pos (hobject hne)]
              rfl
            · rw [clusterRequests_eq]
              exact hcs
            · rw [clusterRequests_eq, slotsOf_cons, List.append_assoc, List.singleton_append]
            · rw [clusterRequests_eq]
              simp only [clustersRequests]
              omega

theorem reads_parseClusters (n : Nat) :
    ReadsFrom n (routingParseClusters memory getaddrinfo version) fun slots n' bs => ∃ cs list,
      cs.length + 1 < 2 ^ 32 ∧ Reads.Many ClusterWord cs list ∧ bs = le32 cs.length ++ list ∧ memory n = true ∧
      Supplied memory getaddrinfo (n + 1) 0 cs ∧ slots = slotsOf memory getaddrinfo version (n + 1) 0 cs ∧
      n' = n + 1 + clustersRequests memory (n + 1) cs := by
  have hloop : ∀ count m, ReadsWhen (fun _ => True) m (do
      let out ← routingParseClusterLoop memory getaddrinfo version count 0 []
      if out.1 then pure out.2
      else StateT.lift (fail (.cleanup
        ⟨count, out.2.length, freeClusters (visible out.2).length ++ [.freeArray, .storeFreedArray]⟩)) :
        Parser (List (Option Cluster))) fun slots n' bs => ∃ cs, cs.length = count ∧ Reads.Many ClusterWord cs bs ∧
          Supplied memory getaddrinfo m 0 cs ∧ slots = slotsOf memory getaddrinfo version m 0 cs ∧
          n' = m + clustersRequests memory m cs := by
    intro count m
    refine (ReadsWhen.bind (reads_clusterLoop memory getaddrinfo version count 0 m [])
      (S := fun out m' slots n' bs => (slots = out.2 ∧ n' = m') ∧ bs = []) (fun out m' _ hout _ => ?_)
      fun out m' hout => ?_).congr fun slots n' bs _ => ?_
    · rw [if_pos hout]
      exact (ReadsFrom.pure _).when _
    · rw [if_neg hout]
      exact (ReadsFrom.fail _).when _
    · constructor
      · rintro ⟨out, _, cs, _, ⟨-, es, hlen, hmany, hserved, rfl, rfl⟩, ⟨⟨rfl, rfl⟩, rfl⟩, rfl⟩
        exact ⟨es, hlen, by simpa using hmany, hserved, rfl, rfl⟩
      · rintro ⟨es, hlen, hmany, hserved, rfl, rfl⟩
        exact ⟨_, _, bs, [], ⟨rfl, es, hlen, hmany, hserved, rfl, rfl⟩, ⟨⟨rfl, rfl⟩, rfl⟩, by simp⟩
  have hguard : ∀ count granted m, ReadsWhen (fun _ => True) m
      (if blockSize granted count < count + 1 then StateT.lift (fail .blockOverrun)
      else do
        let out ← routingParseClusterLoop memory getaddrinfo version count 0 []
        if out.1 then pure out.2
        else StateT.lift (fail (.cleanup
          ⟨count, out.2.length, freeClusters (visible out.2).length ++ [.freeArray, .storeFreedArray]⟩)) :
        Parser (List (Option Cluster))) fun slots n' bs => ¬blockSize granted count < count + 1 ∧
          ∃ cs, cs.length = count ∧ Reads.Many ClusterWord cs bs ∧ Supplied memory getaddrinfo m 0 cs ∧
            slots = slotsOf memory getaddrinfo version m 0 cs ∧ n' = m + clustersRequests memory m cs := by
    intro count granted m
    by_cases hsize : blockSize granted count < count + 1
    · rw [if_pos hsize]
      exact ((ReadsFrom.fail _).when _).congr fun _ _ _ _ => iff_of_false id fun h => h.1 hsize
    · rw [if_neg hsize]
      exact (hloop count m).congr fun _ _ _ _ => (and_iff_right hsize).symm
  have hall := (ReadsWhen.after (reads_uint32 n) fun count m _ _ =>
    ReadsWhen.after (reads_request memory m) fun granted m' _ _ => hguard count granted m')
  intro input out rest
  refine (hall input out.1 out.2 rest trivial).trans (exists_congr fun bs => and_congr_left' ?_)
  constructor
  · rintro ⟨count, m, _, _, ⟨⟨hcount, rfl⟩, rfl⟩, ⟨granted, m', _, list, ⟨⟨rfl, rfl⟩, rfl⟩, ⟨hsize, cs, rfl, hmany,
      hserved, hslots, hn⟩, rfl⟩, rfl⟩
    by_cases hgranted : memory m = true
    · rw [blockSize, if_pos hgranted] at hsize
      exact ⟨cs, _, by omega, hmany, rfl, hgranted, hserved, hslots, hn⟩
    · rw [blockSize, if_neg hgranted] at hsize
      omega
  · rintro ⟨cs, list, hcount, hmany, rfl, hgranted, hserved, hslots, hn⟩
    refine ⟨cs.length, n, _, list, ⟨⟨by omega, rfl⟩, rfl⟩, ⟨memory n, n + 1, [], list, ⟨⟨rfl, rfl⟩, rfl⟩, ⟨?_, cs, rfl,
      hmany, hserved, hslots, hn⟩, rfl⟩, rfl⟩
    rw [blockSize, if_pos hgranted]
    omega

/-! ### What the parser returns -/

/-- The parse of a table has the memory that it needs, and its address lookups succeed. -/
def TableSupplied (root : RoutingNode) (clusters : List ClusterEntry) : Prop :=
  GrantedFrom memory 0 root.requests ∧ memory root.requests = true ∧
    Supplied memory getaddrinfo (root.requests + 1) 0 clusters

/-- The requests of a parse before the last one, which is made for the table itself. -/
def tableRequests (root : RoutingNode) (clusters : List ClusterEntry) : Nat :=
  root.requests + 1 + clustersRequests memory (root.requests + 1) clusters

/-- The slots of the array at the end of a parse. -/
def tableSlots (root : RoutingNode) (clusters : List ClusterEntry) : List (Option Cluster) :=
  slotsOf memory getaddrinfo version (root.requests + 1) 0 clusters

/-- What is done with a tree and an array that have been read: they are kept if the cursor has reached the end. -/
def finishParse (root : RoutingNode) (slots : List (Option Cluster)) (atEnd granted : Prop) [Decidable atEnd]
    [Decidable granted] : Except ParseFault ParseOutcome :=
  if atEnd then
    if granted then .ok ⟨ArakoonReturnCode.success, some ⟨root, visible slots⟩, none⟩ else .error .nullStruct
  else .ok ⟨ArakoonReturnCode.clientNurseryInvalidRouting, none,
    some ⟨slots.length, slots.length, .freeTree :: freeClusters (visible slots).length ++ [.freeArray]⟩⟩

section Finish

variable {memory} {root : RoutingNode} {slots : List (Option Cluster)} {atEnd granted : Prop} [Decidable atEnd]
  [Decidable granted]

theorem finishParse_end (h : atEnd) (hgranted : granted) : finishParse root slots atEnd granted =
    .ok ⟨ArakoonReturnCode.success, some ⟨root, visible slots⟩, none⟩ := by
  rw [finishParse, if_pos h, if_pos hgranted]

theorem finishParse_refused (h : atEnd) (hrefused : ¬granted) :
    finishParse root slots atEnd granted = .error .nullStruct := by
  rw [finishParse, if_pos h, if_neg hrefused]

theorem finishParse_left (h : ¬atEnd) : finishParse root slots atEnd granted =
    .ok ⟨ArakoonReturnCode.clientNurseryInvalidRouting, none,
      some ⟨slots.length, slots.length, .freeTree :: freeClusters (visible slots).length ++ [.freeArray]⟩⟩ := by
  rw [finishParse, if_neg h]

end Finish

/-- On an input that begins with a table. -/
theorem nurseryRoutingParse_word {root : RoutingNode} {clusters : List ClusterEntry} {bs : Bytes}
    (hword : TableWord root clusters bs) (hserved : TableSupplied memory getaddrinfo root clusters) (rest : Bytes)
    (length : Nat) : nurseryRoutingParse memory getaddrinfo version length (bs ++ rest) =
      finishParse root (tableSlots memory getaddrinfo version root clusters) (bs.length = length)
        (memory (tableRequests memory root clusters) = true) := by
  obtain ⟨tree, list, htree, hcount, hlist, rfl⟩ := hword
  obtain ⟨hgranted, harray, hclusters⟩ := hserved
  have hdepth : root.depth < (tree ++ (le32 clusters.length ++ list) ++ rest).length + 1 := by
    have hlt := htree.depth_lt
    simp only [List.length_append]
    omega
  have hnode : ((routingParseNode memory ((tree ++ (le32 clusters.length ++ list) ++ rest).length + 1)).run 0).run
      (tree ++ (le32 clusters.length ++ list) ++ rest) =
        .ok ((root, root.requests), le32 clusters.length ++ list ++ rest) :=
    (reads_parseNode memory _ 0 _ (root, root.requests) _).mpr
      ⟨tree, ⟨⟨htree, hdepth⟩, hgranted, (Nat.zero_add _).symm⟩, by simp⟩
  have hparsed := (reads_parseClusters memory getaddrinfo version root.requests _ (_, _) rest).mpr
    ⟨_, ⟨clusters, list, hcount, hlist, rfl, harray, hclusters, rfl, rfl⟩, rfl⟩
  have hlength : (tree ++ (le32 clusters.length ++ list) ++ rest).length - rest.length =
      (tree ++ (le32 clusters.length ++ list)).length := by
    rw [List.length_append, Nat.add_sub_cancel]
  simp only [nurseryRoutingParse, hnode, hparsed, ok_bind, hlength, tableSlots, tableRequests]
  unfold finishParse
  by_cases hend : (tree ++ (le32 clusters.length ++ list)).length = length
  · rw [if_neg (not_ne_iff.mpr hend), if_pos hend]
    rfl
  · rw [if_pos hend, if_neg hend]
    rfl

/-- The parser returns only on inputs that begin with a table, and only where it is served. -/
theorem nurseryRoutingParse_ok {length : Nat} {data : Bytes} {outcome : ParseOutcome}
    (h : nurseryRoutingParse memory getaddrinfo version length data = .ok outcome) :
    ∃ root clusters bs rest, TableWord root clusters bs ∧ data = bs ++ rest ∧
      TableSupplied memory getaddrinfo root clusters := by
  simp only [nurseryRoutingParse, bind_eq_ok, Prod.exists] at h
  obtain ⟨root, n, iter, hnode, slots, n', rest, hclusters, -⟩ := h
  obtain ⟨tree, ⟨⟨htree, -⟩, hgranted, hn⟩, rfl⟩ := (reads_parseNode memory _ _ _ _ _).mp hnode
  obtain ⟨_, ⟨clusters, list, hcount, hlist, rfl, harray, hserved, -⟩, rfl⟩ :=
    (reads_parseClusters memory getaddrinfo version _ _ _ _).mp hclusters
  obtain rfl : n = root.requests := by simpa using hn
  exact ⟨root, clusters, tree ++ (le32 clusters.length ++ list), rest, ⟨tree, list, htree, hcount, hlist, rfl⟩, by simp,
    hgranted, harray, hserved⟩

/-- The input is a word of the format. -/
def IsTable (data : Bytes) : Prop := ∃ root clusters, TableWord root clusters data

theorem never_request (n : Nat) : Never ParseFault.fuel ((requestBlock memory).run n) := .pure _ _

theorem never_readUInt32 (n : Nat) : Never ParseFault.fuel (routingReadUInt32.run n) :=
  .run_lift ((Never.take (by decide) 4).bind fun _ => .pure _ _) n

theorem never_readString (n : Nat) : Never ParseFault.fuel ((routingReadString memory).run n) :=
  (never_readUInt32 n).run_bind fun _ n => (never_request memory n).run_bind fun _ n =>
    .run_ite (.run_lift (.fail (by decide)) n) (.run_lift (.take (by decide) _) n)

theorem never_nodeNew (n : Nat) : Never ParseFault.fuel ((routingNodeNew memory).run n) :=
  (never_request memory n).run_bind fun _ n => .run_ite (.pure _ _) (.run_lift (.fail (by decide)) n)

theorem never_object {α : Type} (object : α) (n : Nat) : Never ParseFault.fuel ((objectNew memory object).run n) :=
  (never_request memory n).run_bind fun _ n =>
    .run_ite ((never_request memory n).run_bind fun _ _ => .pure _ _) (.pure _ _)

/-- The recursion has fuel enough: every level of it has read a byte. -/
theorem parseNode_ne_fuel {fuel n : Nat} {input : Bytes} (h : input.length < fuel) :
    ((routingParseNode memory fuel).run n).run input ≠ .error .fuel := by
  induction fuel generalizing n input with
  | zero => omega
  | succ fuel ih =>
      intro hrun
      have hstep : ∀ {α β : Type} (p : Parser α) (f : α → Parser β) (n : Nat) (input : Bytes),
          ((p >>= f).run n).run input =
            ((p.run n).run input >>= fun out => ((f out.1.1).run out.1.2).run out.2) := fun _ _ _ _ => rfl
      rw [routingParseNode, hstep, bind_eq_error] at hrun
      obtain hrun | ⟨⟨⟨isLeaf, n₁⟩, input₁⟩, hbool, hrun⟩ := hrun
      · exact ((Never.run_lift (.token (by decide)) n).run_bind fun _ _ => .pure _ _) input hrun
      · obtain ⟨bs, ⟨hmark, -⟩, rfl⟩ := (reads_bool n _ _ _).mp hbool
        have hbs : bs.length = 1 := by
          rcases hmark with ⟨-, rfl⟩ | ⟨-, mark, -, rfl⟩ <;> rfl
        rw [List.length_append, hbs] at h
        rw [hstep, bind_eq_error] at hrun
        obtain hrun | ⟨⟨⟨⟨⟩, n₂⟩, input₂⟩, hnode, hrun⟩ := hrun
        · exact never_nodeNew memory n₁ input₁ hrun
        · obtain ⟨ns, ⟨-, rfl⟩, rfl⟩ := (reads_nodeNew memory n₁ _ _ _).mp hnode
          dsimp only at hrun
          split_ifs at hrun with hleaf
          · exact ((never_readString memory n₂).run_bind fun _ _ => .pure _ _) _ hrun
          · rw [hstep, bind_eq_error] at hrun
            obtain hrun | ⟨⟨⟨boundary, n₃⟩, input₃⟩, hboundary, hrun⟩ := hrun
            · exact never_readString memory n₂ _ hrun
            · obtain ⟨ws, -, rfl⟩ := (reads_string memory n₂ _ _ _).mp hboundary
              rw [List.length_append] at h
              rw [hstep, bind_eq_error] at hrun
              obtain hrun | ⟨⟨⟨left, n₄⟩, input₄⟩, hleft, hrun⟩ := hrun
              · exact ih (by dsimp only; omega) hrun
              · obtain ⟨ls, -, rfl⟩ := (reads_parseNode memory fuel n₃ _ _ _).mp hleft
                rw [List.length_append] at h
                rw [hstep, bind_eq_error] at hrun
                obtain hrun | ⟨⟨⟨right, n₅⟩, input₅⟩, -, hrun⟩ := hrun
                · exact ih (by dsimp only; omega) hrun
                · cases hrun

theorem never_parseNodes (j k n : Nat) (cluster : Option Cluster) :
    Never ParseFault.fuel ((routingParseNodes memory getaddrinfo j k cluster).run n) := by
  induction j generalizing k n cluster with
  | zero => exact .pure _ _
  | succ j ih =>
      refine (never_readString memory n).run_bind fun _ n => (never_readString memory n).run_bind fun _ n =>
        (never_readUInt32 n).run_bind fun _ n => (never_object memory _ n).run_bind fun node n => ?_
      cases node with
      | none => exact .pure _ _
      | some node =>
          refine .run_ite (.pure _ _) ?_
          cases cluster with
          | none => exact .pure _ _
          | some cluster => exact ih _ _ _

theorem never_clusterLoop (i k n : Nat) (ret : List (Option Cluster)) :
    Never ParseFault.fuel ((routingParseClusterLoop memory getaddrinfo version i k ret).run n) := by
  induction i generalizing k n ret with
  | zero => exact .pure _ _
  | succ i ih =>
      exact (never_readString memory n).run_bind fun _ n => (never_readUInt32 n).run_bind fun _ n =>
        (never_object memory _ n).run_bind fun _ n => (never_parseNodes memory getaddrinfo _ _ n _).run_bind fun _ n =>
          .run_ite (ih _ n _) (.pure _ _)

theorem never_parseClusters (n : Nat) :
    Never ParseFault.fuel ((routingParseClusters memory getaddrinfo version).run n) :=
  (never_readUInt32 n).run_bind fun _ n => (never_request memory n).run_bind fun _ n =>
    .run_ite (.run_lift (.fail (by decide)) n) ((never_clusterLoop memory getaddrinfo version _ _ n _).run_bind fun _ n =>
      .run_ite (.pure _ _) (.run_lift (.fail (by simp)) n))

/-- The recursion comes to an end on every input: where the parser does not return, it has done what it may not. -/
theorem nurseryRoutingParse_ne_fuel (length : Nat) (data : Bytes) :
    nurseryRoutingParse memory getaddrinfo version length data ≠ .error .fuel := by
  intro hrun
  rw [nurseryRoutingParse, bind_eq_error] at hrun
  obtain hrun | ⟨⟨⟨root, n⟩, iter⟩, -, hrun⟩ := hrun
  · exact parseNode_ne_fuel memory (Nat.lt_succ_self _) hrun
  · rw [bind_eq_error] at hrun
    obtain hrun | ⟨⟨⟨slots, n'⟩, iter'⟩, -, hrun⟩ := hrun
    · exact never_parseClusters memory getaddrinfo version n iter hrun
    · dsimp only at hrun
      split_ifs at hrun <;> cases hrun

end Parse

end Crakoon
