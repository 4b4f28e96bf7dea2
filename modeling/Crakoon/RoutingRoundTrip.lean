import Crakoon.RoutingGrammar

/-!
# What the routing parser returns

On which inputs the parser stays inside of its input, and the round trip of a routing table: the tree
comes back as it is, the clusters in the order they were sent, and the nodes of each in the reverse of
that order.
-/

namespace Crakoon

open Reading

variable (memory : Nat → Bool) (getaddrinfo : Nat → CString → CString → Option (List Address))
  (version : ArakoonProtocolVersion)

/-- The input begins with a table, and the parse of it is served; if nothing is left over, this goes for the last request,
too, that for the table itself. -/
def BeginsSupplied (data : Bytes) : Prop :=
  ∃ root clusters bs rest, TableWord root clusters bs ∧ data = bs ++ rest ∧
    TableSupplied memory getaddrinfo root clusters ∧ (rest = [] → memory (tableRequests memory root clusters) = true)

/-- The parser returns, with an error and no table unless the input is a table, exactly on the inputs that begin with a
complete table, if the address lookups succeed and memory is granted. On every other input it looks at a byte behind the
end of the input, stores one behind the end of a block or through a null pointer, or stores in an array that it has
freed. -/
theorem nurseryRoutingParse_within_input (data : Bytes) :
    (∃ outcome, nurseryRoutingParse memory getaddrinfo version data.length data = .ok outcome ∧
      (¬IsTable data → outcome.routing = none ∧
        (outcome.rc = ArakoonReturnCode.clientNurseryInvalidRouting ∨
          (outcome.rc = ArakoonReturnCode.clientNetworkError ∧
            ∃ k host service, getaddrinfo k host service = none)))) ↔
      BeginsSupplied memory getaddrinfo data := by
  constructor
  · rintro ⟨outcome, hparse, -⟩
    obtain ⟨root, clusters, bs, rest, hword, rfl, hserved⟩ := nurseryRoutingParse_ok memory getaddrinfo version hparse
    refine ⟨root, clusters, bs, rest, hword, rfl, hserved, fun hrest => ?_⟩
    rw [nurseryRoutingParse_word memory getaddrinfo version hword hserved] at hparse
    by_contra hrefused
    rw [finishParse_refused (by rw [hrest, List.append_nil]) hrefused] at hparse
    cases hparse
  · rintro ⟨root, clusters, bs, rest, hword, rfl, hserved, hlast⟩
    rw [nurseryRoutingParse_word memory getaddrinfo version hword hserved]
    by_cases hrest : rest = []
    · refine ⟨_, finishParse_end (by rw [hrest, List.append_nil]) (hlast hrest), fun hnone =>
        absurd ⟨root, clusters, ?_⟩ hnone⟩
      rwa [hrest, List.append_nil]
    · have hmore : bs.length ≠ (bs ++ rest).length := by
        have hpos := List.length_pos_iff.mpr hrest
        rw [List.length_append]
        omega
      exact ⟨_, finishParse_left hmore, fun _ => ⟨rfl, .inl rfl⟩⟩

/-- A leaf that announces five bytes of which one is there. -/
theorem nurseryRoutingParse_truncated :
    ¬∃ outcome, nurseryRoutingParse (fun _ => true) (fun _ _ _ => some []) .version1 6 [1, 5, 0, 0, 0, 0x61] =
      .ok outcome := by
  rintro ⟨outcome, h⟩
  have hfault : nurseryRoutingParse (fun _ => true) (fun _ _ _ => some []) .version1 6 [1, 5, 0, 0, 0, 0x61] =
      .error .inputOverrun := rfl
  rw [hfault] at h
  cases h

/-- The strings of the tree are short. -/
def RoutingNode.Short : RoutingNode → Prop
  | .leaf cluster => cluster.length + 1 < 2 ^ 32
  | .internal boundary left right => boundary.length + 1 < 2 ^ 32 ∧ left.Short ∧ right.Short

/-- The strings and numbers of the entry fit their fields, and the strings are C strings. -/
def NodeEntry.Fits (e : NodeEntry) : Prop :=
  e.id.length + 1 < 2 ^ 32 ∧ e.host.length + 1 < 2 ^ 32 ∧ e.port < 2 ^ 32 ∧ 0 ∉ e.id ∧ 0 ∉ e.host

def ClusterEntry.Fits (c : ClusterEntry) : Prop :=
  c.id.length + 1 < 2 ^ 32 ∧ c.nodes.length < 2 ^ 32 ∧ 0 ∉ c.id ∧ ∀ e ∈ c.nodes, e.Fits

/-- The node was looked up under the host and the decimal text of the port of its entry. -/
def NodeHolds (k : Nat) (e : NodeEntry) (node : ClusterNode) : Prop :=
  node.name.bytes = e.id ∧ node.conn = none ∧ ∃ host service : CString, host.bytes = e.host ∧
    service.bytes = decimal e.port ∧ getaddrinfo k host service = some node.address

def NodesHold : Nat → List NodeEntry → List ClusterNode → Prop
  | _, [], [] => True
  | k, e :: es, node :: nodes => NodeHolds getaddrinfo k e node ∧ NodesHold (k + 1) es nodes
  | _, _, _ => False

/-- The clusters are the ones of the entries, in the same order, each with its nodes in the reverse order. -/
def ClustersHold : Nat → List ClusterEntry → List Cluster → Prop
  | _, [], [] => True
  | k, c :: cs, cluster :: clusters =>
      cluster.name.bytes = c.id ∧ NodesHold getaddrinfo k c.nodes cluster.nodeList.reverse ∧
        ClustersHold (k + c.nodes.length) cs clusters
  | _, _, _ => False

theorem StringWord.intro {s : Bytes} (h : s.length + 1 < 2 ^ 32) : StringWord s (le32 s.length ++ s) := ⟨h, rfl⟩

theorem RoutingNode.Short.word {t : RoutingNode} (h : t.Short) : ∃ bs, NodeWord t bs := by
  induction t with
  | leaf cluster => exact ⟨_, .leaf (show boolTrue ≠ boolFalse by decide) (.intro h)⟩
  | internal boundary left right ihleft ihright =>
      obtain ⟨hboundary, hleft, hright⟩ := h
      obtain ⟨ls, hls⟩ := ihleft hleft
      obtain ⟨rs, hrs⟩ := ihright hright
      exact ⟨_, .internal (.intro hboundary) hls hrs⟩

theorem NodeEntry.Fits.word {e : NodeEntry} (h : e.Fits) : ∃ bs, EntryWord e bs :=
  ⟨_, _, _, .intro h.1, .intro h.2.1, h.2.2.1, rfl⟩

theorem ClusterEntry.Fits.word {c : ClusterEntry} (h : c.Fits) : ∃ bs, ClusterWord c bs := by
  obtain ⟨nodes, hnodes⟩ := Reads.Many.exists fun e he => (h.2.2.2 e he).word
  exact ⟨_, _, nodes, ⟨_, .intro h.1, h.2.1, rfl⟩, hnodes, rfl⟩

/-- Every table whose strings and counts fit their fields has an encoding. -/
theorem tableWord_exists {root : RoutingNode} {clusters : List ClusterEntry} (hroot : root.Short)
    (hcount : clusters.length + 1 < 2 ^ 32) (hclusters : ∀ c ∈ clusters, c.Fits) :
    ∃ blob, TableWord root clusters blob := by
  obtain ⟨tree, htree⟩ := hroot.word
  obtain ⟨list, hlist⟩ := Reads.Many.exists fun c hc => (hclusters c hc).word
  exact ⟨_, tree, list, htree, hcount, hlist, rfl⟩

/-- Ten characters hold every 32-bit number, so the text of a port is complete. -/
theorem serviceOf_bytes {port : Nat} (h : port < 2 ^ 32) : (serviceOf port).bytes = decimal port := by
  have hlen : (decimal port).length ≤ uint32MaxLength := by
    rw [decimal, List.length_map]
    exact Nat.toDigits_length 10 port 10 (by decide) (h.trans (by decide))
  have hnul : 0 ∉ decimal port := by
    intro hzero
    obtain ⟨c, hc, hbyte⟩ := List.mem_map.mp hzero
    have hdigit := Nat.isDigit_of_mem_toDigits (by decide) (by decide) hc
    simp only [Char.isDigit, ge_iff_le, Bool.and_eq_true, decide_eq_true_eq] at hdigit
    have hlow : 48 ≤ c.toNat := hdigit.1
    have hhigh : c.toNat ≤ 57 := hdigit.2
    have hmod : c.toNat % 2 ^ 8 = 0 := by simpa using congrArg UInt8.toNat hbyte
    omega
  rw [serviceOf, List.take_of_length_le hlen, CString.ofBytes_bytes hnul]

/-- The nodes of the entries, in the order they were sent. -/
def nodesOf : Nat → List NodeEntry → List ClusterNode
  | _, [] => []
  | k, e :: es => nodeOf getaddrinfo k e :: nodesOf (k + 1) es

theorem addEntries_name (k : Nat) (cluster : Cluster) (es : List NodeEntry) :
    (addEntries getaddrinfo k cluster es).name = cluster.name := by
  induction es generalizing k cluster with
  | nil => rfl
  | cons e es ih => exact ih (k + 1) _

/-- Every node goes to the front of the list, so the list is the reverse of the order they were sent in. -/
theorem addEntries_nodeList {cluster : Cluster} (h : cluster.Numbered) (k : Nat) (es : List NodeEntry) :
    (addEntries getaddrinfo k cluster es).nodeList.reverse = cluster.nodeList.reverse ++ nodesOf getaddrinfo k es := by
  induction es generalizing k cluster with
  | nil => simp [addEntries, nodesOf]
  | cons e es ih =>
      rw [addEntries, ih (numbered_addNode h _), nodeList_addNode h, List.reverse_cons, List.append_assoc]
      rfl

theorem nodesHold_nodesOf {es : List NodeEntry} (hes : ∀ e ∈ es, e.Fits) {k : Nat}
    (hfound : Resolves getaddrinfo k es) :
    NodesHold getaddrinfo k es (nodesOf getaddrinfo k es) := by
  induction es generalizing k with
  | nil => trivial
  | cons e es ih =>
      obtain ⟨hid, hhost, hport, hidNul, hhostNul⟩ := hes e List.mem_cons_self
      obtain ⟨address, haddress⟩ := Option.isSome_iff_exists.mp hfound.1
      refine ⟨⟨CString.ofBytes_bytes hidNul, rfl, _, _, CString.ofBytes_bytes hhostNul, serviceOf_bytes hport, ?_⟩,
        ih (fun x hx => hes x (List.mem_cons_of_mem e hx)) hfound.2⟩
      change lookupEntry getaddrinfo k e = some ((lookupEntry getaddrinfo k e).getD [])
      rw [haddress, Option.getD_some]

theorem clustersHold_clustersOf {cs : List ClusterEntry} (hfits : ∀ c ∈ cs, c.Fits) {k : Nat}
    (hfound : ResolvesAll getaddrinfo k cs) :
    ClustersHold getaddrinfo k cs (clustersOf getaddrinfo version k cs) := by
  induction cs generalizing k with
  | nil => trivial
  | cons c cs ih =>
      obtain ⟨-, -, hnul, hnodes⟩ := hfits c List.mem_cons_self
      refine ⟨?_, ?_, ih (fun x hx => hfits x (List.mem_cons_of_mem c hx)) hfound.2⟩
      · rw [clusterOf, addEntries_name]
        exact CString.ofBytes_bytes hnul
      · rw [clusterOf, addEntries_nodeList getaddrinfo (numbered_new version _)]
        exact nodesHold_nodesOf getaddrinfo hnodes hfound.1

theorem resolves_of_found (hfound : ∀ k host service, (getaddrinfo k host service).isSome) (k : Nat)
    (es : List NodeEntry) : Resolves getaddrinfo k es := by
  induction es generalizing k with
  | nil => trivial
  | cons e es ih => exact ⟨hfound _ _ _, ih (k + 1)⟩

theorem resolvesAll_of_found (hfound : ∀ k host service, (getaddrinfo k host service).isSome) (k : Nat)
    (cs : List ClusterEntry) : ResolvesAll getaddrinfo k cs := by
  induction cs generalizing k with
  | nil => trivial
  | cons c cs ih => exact ⟨resolves_of_found getaddrinfo hfound k c.nodes, ih _⟩

/-- Every table has an encoding, and every encoding of it is parsed to the tree and its clusters; with
anything behind it, it is refused. -/
theorem routing_round_trip (hmemory : ∀ n, memory n = true)
    (hfound : ∀ k host service, (getaddrinfo k host service).isSome) {root : RoutingNode}
    {clusters : List ClusterEntry} (hroot : root.Short) (hcount : clusters.length + 1 < 2 ^ 32)
    (hclusters : ∀ c ∈ clusters, c.Fits) :
    (∃ blob, TableWord root clusters blob) ∧
    ∀ blob, TableWord root clusters blob →
      (∃ parsed, nurseryRoutingParse memory getaddrinfo version blob.length blob =
          .ok ⟨ArakoonReturnCode.success, some ⟨root, parsed⟩, none⟩ ∧ ClustersHold getaddrinfo 0 clusters parsed) ∧
      ∀ extra, extra ≠ [] → ∃ cleanup,
        nurseryRoutingParse memory getaddrinfo version (blob ++ extra).length (blob ++ extra) =
          .ok ⟨ArakoonReturnCode.clientNurseryInvalidRouting, none, cleanup⟩ := by
  refine ⟨tableWord_exists hroot hcount hclusters, fun blob hblob => ?_⟩
  have hcs := resolvesAll_of_found getaddrinfo hfound 0 clusters
  have hserved : TableSupplied memory getaddrinfo root clusters :=
    ⟨fun i _ => hmemory _, hmemory _, (supplied_iff getaddrinfo hmemory _ _ _).mpr hcs⟩
  constructor
  · refine ⟨clustersOf getaddrinfo version 0 clusters, ?_, clustersHold_clustersOf getaddrinfo version hclusters hcs⟩
    have hparse := nurseryRoutingParse_word memory getaddrinfo version hblob hserved [] blob.length
    rw [List.append_nil] at hparse
    rw [hparse, finishParse_end rfl (hmemory _), tableSlots, slotsOf_eq getaddrinfo version hmemory, visible_map_some]
  · intro extra hextra
    have hmore : blob.length ≠ (blob ++ extra).length := by
      have hpos := List.length_pos_iff.mpr hextra
      rw [List.length_append]
      omega
    exact ⟨_, (nurseryRoutingParse_word memory getaddrinfo version hblob hserved extra _).trans (finishParse_left hmore)⟩

/-- Two clusters behind one inner node, the first with two nodes. -/
theorem routing_round_trip_two_clusters :
    let root : RoutingNode := .internal [0x6d] (.leaf [0x61]) (.leaf [])
    let clusters : List ClusterEntry := [⟨[0x61], [⟨[0x6e], [0x68], 4000⟩, ⟨[0x6f], [], 0⟩]⟩, ⟨[], []⟩]
    (∃ blob, TableWord root clusters blob) ∧
    ∀ blob, TableWord root clusters blob →
      (∃ parsed, nurseryRoutingParse (fun _ => true) (fun k _ _ => some [k]) .version1 blob.length blob =
          .ok ⟨0, some ⟨root, parsed⟩, none⟩ ∧ ClustersHold (fun k _ _ => some [k]) 0 clusters parsed) ∧
      ∀ extra, extra ≠ [] → ∃ cleanup,
        nurseryRoutingParse (fun _ => true) (fun k _ _ => some [k]) .version1 (blob ++ extra).length (blob ++ extra) =
          .ok ⟨ArakoonReturnCode.clientNurseryInvalidRouting, none, cleanup⟩ :=
  routing_round_trip (fun _ => true) (fun k _ _ => some [k]) .version1 (fun _ => rfl) (fun _ _ _ => rfl)
    (by simp [RoutingNode.Short]) (by decide) (by simp [ClusterEntry.Fits, NodeEntry.Fits])

end Crakoon
