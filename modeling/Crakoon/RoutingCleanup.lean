import Crakoon.RoutingGrammar

/-!
# The clean-up of a routing parse that fails

A parse that is refused since bytes are left over gives back what it has built. One that is given up at an address
lookup does not: it leaves the tree, and stores a null pointer in the array that it has just freed. So of a complete
blob the clean-up is right if and only if all lookups succeed.
-/

namespace Crakoon

open Reading

/-- The step needs the array of the clusters. -/
def CleanupEvent.OnArray : CleanupEvent → Prop
  | .freeTree => False
  | _ => True

/-- A clean-up as it should be, where every slot that was written holds a cluster. -/
structure Cleanup.Proper (cleanup : Cleanup) : Prop where
  /-- It looks at slots that were written only, or at the terminator. -/
  looks : ∀ slot, .inspectSlot slot ∈ cleanup.steps → slot < cleanup.written ∨ slot = cleanup.count
  /-- It releases every cluster once, and nothing else. -/
  releases : ∀ slot, cleanup.steps.count (.freeCluster slot) = if slot < cleanup.written then 1 else 0
  /-- It does not touch the array after it has freed it. -/
  leaves : ∀ before after, cleanup.steps = before ++ .freeArray :: after → ∀ e ∈ after, ¬e.OnArray
  tree : cleanup.steps.count .freeTree = 1

theorem freeClusters_succ (n : Nat) : freeClusters (n + 1) =
    (List.range n).flatMap (fun slot => [.inspectSlot slot, .freeCluster slot]) ++
      [.inspectSlot n, .freeCluster n, .inspectSlot (n + 1)] := by
  simp [freeClusters, List.range_succ]

theorem freeClusters_looks (n : Nat) {slot : Nat} (h : .inspectSlot slot ∈ freeClusters n) : slot ≤ n := by
  rcases List.mem_append.mp h with hloop | hlast
  · obtain ⟨k, hk, hmem⟩ := List.mem_flatMap.mp hloop
    have hslot : slot = k := by simpa using hmem
    exact hslot ▸ Nat.le_of_lt (List.mem_range.mp hk)
  · have hslot : slot = n := by simpa using hlast
    exact Nat.le_of_eq hslot

theorem freeClusters_releases (n slot : Nat) :
    (freeClusters n).count (.freeCluster slot) = if slot < n then 1 else 0 := by
  induction n with
  | zero => rfl
  | succ n ih =>
      have hlast : (freeClusters n).count (.freeCluster slot) =
          ((List.range n).flatMap fun slot => [CleanupEvent.inspectSlot slot, .freeCluster slot]).count
            (.freeCluster slot) := by
        simp [freeClusters]
      rw [freeClusters_succ, List.count_append, ← hlast, ih]
      by_cases h : slot = n
      · simp [h]
      · have hlt : slot < n + 1 ↔ slot < n := by omega
        simp [hlt, Ne.symm h]

theorem freeClusters_keeps {n : Nat} {e : CleanupEvent} (h : e ∈ freeClusters n) : e ≠ .freeArray ∧ e ≠ .freeTree := by
  rcases List.mem_append.mp h with hloop | hlast
  · obtain ⟨k, -, hmem⟩ := List.mem_flatMap.mp hloop
    rcases List.mem_cons.mp hmem with rfl | hmem
    · simp
    · obtain rfl := List.mem_singleton.mp hmem
      simp
  · obtain rfl := List.mem_singleton.mp hlast
    simp

/-- The clean-up of an array that has been filled. -/
theorem proper_filled (count : Nat) :
    Cleanup.Proper ⟨count, count, .freeTree :: freeClusters count ++ [.freeArray]⟩ where
  looks := by
    intro slot h
    have hmem : .inspectSlot slot ∈ freeClusters count := by simpa using h
    exact Nat.lt_or_eq_of_le (freeClusters_looks count hmem)
  releases := by
    intro slot
    rw [List.count_append, List.count_cons, freeClusters_releases]
    simp
  leaves := by
    intro before after h e he
    -- the array is freed by the last step
    rcases List.eq_nil_or_concat after with rfl | ⟨front, last, rfl⟩
    · cases he
    · have hsplit : .freeTree :: freeClusters count ++ [.freeArray] = (before ++ .freeArray :: front) ++ [last] := by
        simpa using h
      obtain ⟨hfront, -⟩ := List.append_inj' hsplit rfl
      have hmem : .freeArray ∈ CleanupEvent.freeTree :: freeClusters count := by simp [hfront]
      rcases List.mem_cons.mp hmem with hcase | hcase
      · cases hcase
      · exact absurd rfl (freeClusters_keeps hcase).1
  tree := by
    have hnone : (freeClusters count).count .freeTree = 0 :=
      List.count_eq_zero.mpr fun hmem => (freeClusters_keeps hmem).2 rfl
    simp [List.count_append, hnone]

/-- A store in the array that has been freed is no part of a clean-up. -/
theorem not_proper_stored (count written n : Nat) :
    ¬Cleanup.Proper ⟨count, written, freeClusters n ++ [.freeArray, .storeFreedArray]⟩ := by
  intro h
  exact h.leaves (freeClusters n) [.storeFreedArray] rfl _ List.mem_cons_self trivial

section Loops

variable {memory : Nat → Bool} (hmemory : ∀ n, memory n = true)
  (getaddrinfo : Nat → CString → CString → Option (List Address)) (version : ArakoonProtocolVersion)
include hmemory

theorem objectNew_run {α : Type} (object : α) (n : Nat) (input : Bytes) :
    ((objectNew memory object).run n).run input = .ok ((some object, n + 2), input) := by
  refine (reads_object memory object n input (some object, n + 2) input).mpr ⟨[], ⟨⟨?_, ?_⟩, rfl⟩, rfl⟩
  · rw [if_pos (objectGranted_of_memory hmemory n)]
  · rw [objectRequests_granted memory (objectGranted_of_memory hmemory n)]

/-- The loop over the nodes stops at the first lookup that fails, and comes to its end if there is none. -/
theorem parseNodes_runs {es : List NodeEntry} {nodes : Bytes} (h : Reads.Many EntryWord es nodes) (k n : Nat)
    (cluster : Cluster) (rest : Bytes) :
    ∃ out n' iter, ((routingParseNodes memory getaddrinfo es.length k (some cluster)).run n).run (nodes ++ rest) =
        .ok ((out, n'), iter) ∧ out.2.1.isSome ∧ (out.1 = true ↔ Resolves getaddrinfo k es) ∧
      (out.1 = true → iter = rest ∧ out.2.2 = k + es.length) := by
  have hstep : ∀ {α β : Type} (p : Parser α) (f : α → Parser β) (n : Nat) (input : Bytes),
      ((p >>= f).run n).run input = ((p.run n).run input >>= fun out => ((f out.1.1).run out.1.2).run out.2) :=
    fun _ _ _ _ => rfl
  induction h generalizing k n cluster with
  | nil => exact ⟨_, n, rest, rfl, rfl, iff_of_true rfl trivial, fun _ => ⟨rfl, rfl⟩⟩
  | @cons e es bs cs first others ih =>
      have hentry : ((routingReadEntry memory).run n).run (bs ++ (cs ++ rest)) = .ok ((e, n + 2), cs ++ rest) :=
        (reads_entry memory n _ (e, n + 2) _).mpr ⟨bs, ⟨first, fun i _ => hmemory _, rfl⟩, rfl⟩
      rw [List.length_cons, parseNodes_succ, List.append_assoc, hstep, hentry, ok_bind, hstep,
        objectNew_run hmemory, ok_bind]
      by_cases hfound : (lookupEntry getaddrinfo k e).isSome
      · obtain ⟨out, n', iter, hrun, hsome, hresolves, hdone⟩ :=
          ih (k + 1) (n + 2 + 2) (arakoonClusterAddNode cluster (nodeOf getaddrinfo k e))
        refine ⟨out, n', iter, ?_, hsome, ?_, fun hend => ?_⟩
        · rw [addEntry_found memory getaddrinfo hfound, hrun]
        · rw [hresolves, Resolves]
          exact (and_iff_right hfound).symm
        · obtain ⟨hiter, hcount⟩ := hdone hend
          exact ⟨hiter, by rw [hcount]; omega⟩
      · refine ⟨(false, some cluster, k + 1), n + 2 + 2, cs ++ rest, ?_, rfl,
          iff_of_false Bool.false_ne_true fun hall => hfound hall.1, fun hend => absurd hend Bool.false_ne_true⟩
        rw [addEntry_missing memory getaddrinfo (by simpa using hfound)]
        rfl

/-- The loop over the clusters fills the slots up to the cluster with the first lookup that fails, or all of them. -/
theorem clusterLoop_runs {cs : List ClusterEntry} {list : Bytes} (h : Reads.Many ClusterWord cs list) (k n : Nat)
    (ret : List (Option Cluster)) (rest : Bytes) :
    ∃ out n' iter, ((routingParseClusterLoop memory getaddrinfo version cs.length k ret).run n).run (list ++ rest) =
        .ok ((out, n'), iter) ∧ (out.1 = true ↔ ResolvesAll getaddrinfo k cs) := by
  have hstep : ∀ {α β : Type} (p : Parser α) (f : α → Parser β) (n : Nat) (input : Bytes),
      ((p >>= f).run n).run input = ((p.run n).run input >>= fun out => ((f out.1.1).run out.1.2).run out.2) :=
    fun _ _ _ _ => rfl
  induction h generalizing k n ret with
  | nil => exact ⟨_, n, rest, rfl, iff_of_true rfl trivial⟩
  | @cons c cs bs ds first others ih =>
      obtain ⟨header, nodes, ⟨ids, hid, hsize, rfl⟩, hnodes, rfl⟩ := first
      have hname : ∀ rest, ((routingReadString memory).run n).run (ids ++ rest) = .ok ((c.id, n + 1), rest) :=
        fun rest => (reads_string memory n _ (c.id, n + 1) _).mpr ⟨ids, ⟨hid, hmemory n, rfl⟩, rfl⟩
      have hcount : ∀ rest, (routingReadUInt32.run (n + 1)).run (le32 c.nodes.length ++ rest) =
          .ok ((c.nodes.length, n + 1), rest) :=
        fun rest => (reads_uint32 (n + 1) _ (c.nodes.length, n + 1) _).mpr ⟨_, ⟨⟨hsize, rfl⟩, rfl⟩, rfl⟩
      obtain ⟨out, n', iter, hrun, -, hresolves, hdone⟩ := parseNodes_runs hmemory getaddrinfo hnodes k (n + 1 + 2)
        (arakoonClusterNew version (.ofBytes c.id)) (ds ++ rest)
      simp only [List.length_cons, routingParseClusterLoop, List.append_assoc, hstep, hname, hcount,
        objectNew_run hmemory, hrun, ok_bind]
      by_cases hend : out.1 = true
      · obtain ⟨rfl, hlookups⟩ := hdone hend
        obtain ⟨out', m, iter', hrun', hresolves'⟩ := ih out.2.2 n' (ret ++ [out.2.1])
        refine ⟨out', m, iter', ?_, ?_⟩
        · rw [if_pos hend, hrun']
        · rw [hresolves', hlookups, ResolvesAll]
          exact (and_iff_right (hresolves.mp hend)).symm
      · refine ⟨(false, ret ++ [out.2.1]), n', iter, ?_, ?_⟩
        · rw [if_neg hend]
          rfl
        · exact iff_of_false Bool.false_ne_true fun hall => hend (hresolves.mpr hall.1)

/-- Where a lookup fails the parser ends in its clean-up. -/
theorem parseClusters_fails {cs : List ClusterEntry} {list : Bytes} (hcount : cs.length + 1 < 2 ^ 32)
    (h : Reads.Many ClusterWord cs list) (hfails : ¬ResolvesAll getaddrinfo 0 cs) (n : Nat) (rest : Bytes) :
    ∃ written clusters, ((routingParseClusters memory getaddrinfo version).run n).run
        (le32 cs.length ++ list ++ rest) =
      .error (.cleanup ⟨cs.length, written, freeClusters clusters ++ [.freeArray, .storeFreedArray]⟩) := by
  obtain ⟨out, n', iter, hrun, hresolves⟩ := clusterLoop_runs hmemory getaddrinfo version h 0 (n + 1) [] rest
  have hfield : (routingReadUInt32.run n).run (le32 cs.length ++ (list ++ rest)) =
      .ok ((cs.length, n), list ++ rest) :=
    (reads_uint32 n _ (cs.length, n) _).mpr ⟨_, ⟨⟨by omega, rfl⟩, rfl⟩, rfl⟩
  have hslots : ¬blockSize (memory n) cs.length < cs.length + 1 := by
    rw [blockSize, if_pos (hmemory n)]
    omega
  have hstep : ∀ {α β : Type} (p : Parser α) (f : α → Parser β) (n : Nat) (input : Bytes),
      ((p >>= f).run n).run input = ((p.run n).run input >>= fun out => ((f out.1.1).run out.1.2).run out.2) :=
    fun _ _ _ _ => rfl
  have hrequest : ∀ input, ((requestBlock memory).run n).run input = .ok ((memory n, n + 1), input) := fun _ => rfl
  refine ⟨out.2.length, (visible out.2).length, ?_⟩
  simp only [routingParseClusters, List.append_assoc, hstep, hfield, hrequest, ok_bind]
  rw [if_neg hslots, hstep, hrun, ok_bind]
  dsimp only
  rw [if_neg (hresolves.not.mpr hfails)]
  rfl

end Loops

/-- On a complete blob, whatever stands behind it and whatever length is given, the parser returns, and where it returns
an error the clean-up is as it should be, if and only if all address lookups succeed. Otherwise it ends in a clean-up
that is not. -/
theorem routing_cleanup {memory : Nat → Bool} (hmemory : ∀ n, memory n = true)
    (getaddrinfo : Nat → CString → CString → Option (List Address)) (version : ArakoonProtocolVersion)
    {root : RoutingNode} {clusters : List ClusterEntry} {blob : Bytes} (hblob : TableWord root clusters blob)
    (rest : Bytes) (length : Nat) :
    ((∃ outcome, nurseryRoutingParse memory getaddrinfo version length (blob ++ rest) = .ok outcome ∧
        (outcome.rc ≠ 0 → ∃ cleanup, outcome.cleanup = some cleanup ∧ cleanup.count = clusters.length ∧
          cleanup.Proper)) ↔ ResolvesAll getaddrinfo 0 clusters) ∧
      (¬ResolvesAll getaddrinfo 0 clusters → ∃ cleanup,
        nurseryRoutingParse memory getaddrinfo version length (blob ++ rest) = .error (.cleanup cleanup) ∧
          cleanup.count = clusters.length ∧ ¬cleanup.Proper) := by
  have hfails : ¬ResolvesAll getaddrinfo 0 clusters → ∃ cleanup,
      nurseryRoutingParse memory getaddrinfo version length (blob ++ rest) = .error (.cleanup cleanup) ∧
        cleanup.count = clusters.length ∧ ¬cleanup.Proper := by
    intro hfailing
    obtain ⟨tree, list, htree, hcount, hlist, rfl⟩ := hblob
    have hdepth : root.depth < (tree ++ (le32 clusters.length ++ list) ++ rest).length + 1 := by
      have hlt := htree.depth_lt
      simp only [List.length_append]
      omega
    have hnode : ((routingParseNode memory ((tree ++ (le32 clusters.length ++ list) ++ rest).length + 1)).run 0).run
        (tree ++ (le32 clusters.length ++ list) ++ rest) =
          .ok ((root, root.requests), le32 clusters.length ++ list ++ rest) :=
      (reads_parseNode memory _ 0 _ (root, root.requests) _).mpr
        ⟨tree, ⟨⟨htree, hdepth⟩, fun i _ => hmemory _, (Nat.zero_add _).symm⟩, by simp⟩
    obtain ⟨written, freed, hrun⟩ :=
      parseClusters_fails hmemory getaddrinfo version hcount hlist hfailing root.requests rest
    refine ⟨_, ?_, rfl, not_proper_stored _ written freed⟩
    simp only [nurseryRoutingParse, hnode, ok_bind, hrun]
    rfl
  refine ⟨⟨fun hreturns => ?_, fun hall => ?_⟩, hfails⟩
  · by_contra hfailing
    obtain ⟨outcome, hreturns, -⟩ := hreturns
    obtain ⟨cleanup, hfault, -⟩ := hfails hfailing
    cases hreturns.symm.trans hfault
  · have hserved : TableSupplied memory getaddrinfo root clusters :=
      ⟨fun i _ => hmemory _, hmemory _, (supplied_iff getaddrinfo hmemory _ _ _).mpr hall⟩
    rw [nurseryRoutingParse_word memory getaddrinfo version hblob hserved]
    by_cases hend : blob.length = length
    · exact ⟨_, finishParse_end hend (hmemory _), fun hrc => absurd rfl hrc⟩
    · refine ⟨_, finishParse_left hend, fun _ => ⟨_, rfl, slotsOf_length .., ?_⟩⟩
      simp only [tableSlots, slotsOf_eq getaddrinfo version hmemory, visible_map_some, List.length_map]
      exact proper_filled _

/-- A leaf and two clusters, the first with one node. -/
def twoClusters : List ClusterEntry := [⟨[97], [⟨[110], [104], 1⟩]⟩, ⟨[98], []⟩]

def twoClustersBlob : Bytes :=
  (1 :: (le32 1 ++ [97])) ++ (le32 2 ++ (((le32 1 ++ [97]) ++ le32 1) ++ (((le32 1 ++ [110]) ++
    ((le32 1 ++ [104]) ++ le32 1)) ++ []) ++ ((((le32 1 ++ [98]) ++ le32 0) ++ []) ++ [])))

theorem twoClusters_word : TableWord (.leaf [97]) twoClusters twoClustersBlob := by
  have hname : ∀ b : UInt8, StringWord [b] (le32 1 ++ [b]) := fun b => ⟨by simp, rfl⟩
  have hnode : EntryWord ⟨[110], [104], 1⟩ ((le32 1 ++ [110]) ++ ((le32 1 ++ [104]) ++ le32 1)) :=
    ⟨_, _, hname 110, hname 104, by decide, rfl⟩
  have hfirst : ClusterWord ⟨[97], [⟨[110], [104], 1⟩]⟩ (((le32 1 ++ [97]) ++ le32 1) ++
      (((le32 1 ++ [110]) ++ ((le32 1 ++ [104]) ++ le32 1)) ++ [])) :=
    ⟨_, _, ⟨_, hname 97, by decide, rfl⟩, .cons hnode .nil, rfl⟩
  have hsecond : ClusterWord ⟨[98], []⟩ (((le32 1 ++ [98]) ++ le32 0) ++ []) :=
    ⟨_, _, ⟨_, hname 98, by decide, rfl⟩, .nil, rfl⟩
  exact ⟨_, _, .leaf (by decide) (hname 97), by decide, .cons hfirst (.cons hsecond .nil), rfl⟩

/-- The first lookup fails: the clean-up looks at the slot of the second cluster, which has not been written, leaves the
tree, and stores in the array that it has freed. -/
theorem failed_lookup_cleanup :
    ∃ cleanup, nurseryRoutingParse (fun _ => true) (fun _ _ _ => none) .version1 twoClustersBlob.length
        twoClustersBlob = .error (.cleanup cleanup) ∧ cleanup.count = 2 ∧ cleanup.written = 1 ∧
      cleanup.steps = [.inspectSlot 0, .freeCluster 0, .inspectSlot 1, .freeArray, .storeFreedArray] ∧
      ¬cleanup.Proper := by
  refine ⟨⟨2, 1, freeClusters 1 ++ [.freeArray, .storeFreedArray]⟩, rfl, rfl, rfl, rfl, ?_⟩
  exact not_proper_stored 2 1 1

/-- With both lookups made on the blob and a byte behind it. -/
theorem routing_cleanup_trailing :
    let parse := nurseryRoutingParse (fun _ => true) (fun _ _ _ => some []) .version1
      (twoClustersBlob ++ [0]).length (twoClustersBlob ++ [0])
    ((∃ outcome, parse = .ok outcome ∧ (outcome.rc ≠ 0 → ∃ cleanup, outcome.cleanup = some cleanup ∧
        cleanup.count = 2 ∧ cleanup.Proper)) ↔ ResolvesAll (fun _ _ _ => some []) 0 twoClusters) ∧
      (¬ResolvesAll (fun _ _ _ => some []) 0 twoClusters → ∃ cleanup, parse = .error (.cleanup cleanup) ∧
        cleanup.count = 2 ∧ ¬cleanup.Proper) :=
  routing_cleanup (fun _ => rfl) (fun _ _ _ => some []) .version1 twoClusters_word [0] _

end Crakoon
