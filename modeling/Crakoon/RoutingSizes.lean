import Crakoon.LoggedReader
import Crakoon.Routing

/-!
# The sizes of the blocks of a routing table

The parser allocates one character more than a string has, and one slot more than there are clusters, and computes both
numbers in 32 bits. `routingFields` walks over the input as the parser does, with numbers that do not wrap and blocks
that are never too small, and lists the lengths and the count that it meets, with the outcome of the request for memory
that is made there. A block is too small for what is stored in it exactly where the number is the largest one of 32 bits
or the request is refused.
-/

namespace Crakoon

open Reading

/-- A number, and whether a block has been granted for as many characters or slots. -/
abbrev Field := Nat × Bool

abbrev FieldWalk := Logged Nat ParseFault UInt8 Field

section Walk

variable (memory : Nat → Bool)

/-- A string behind its length. -/
def walkString : FieldWalk Bytes := do
  let length ← Logged.silent routingReadUInt32
  let granted ← Logged.silent (requestBlock memory)
  Logged.note (length, granted)
  Logged.silent (StateT.lift (take .inputOverrun length))

def walkNode : Nat → FieldWalk RoutingNode
  | 0 => Logged.silent (StateT.lift (fail .fuel))
  | fuel + 1 => do
      let isLeaf ← Logged.silent routingReadBool
      Logged.silent (routingNodeNew memory)
      if isLeaf ≠ boolFalse then do
        let cluster ← walkString memory
        pure (.leaf cluster)
      else do
        let boundary ← walkString memory
        let left ← walkNode fuel
        let right ← walkNode fuel
        pure (.internal boundary left right)

variable (getaddrinfo : Nat → CString → CString → Option (List Address)) (version : ArakoonProtocolVersion)

/-- The nodes of a cluster, up to the first that fails. -/
def walkNodes : Nat → Nat → Option Cluster → FieldWalk (Bool × Option Cluster × Nat)
  | 0, lookups, cluster => pure (true, cluster, lookups)
  | j + 1, lookups, cluster => do
      let nodeId ← walkString memory
      let ip ← walkString memory
      let port ← Logged.silent routingReadUInt32
      match ← Logged.silent (objectNew memory (arakoonClusterNodeNew (.ofBytes nodeId))) with
      | none => pure (false, cluster, lookups)
      | some node => do
          let out := arakoonClusterNodeAddAddressTcp (getaddrinfo lookups) node (.ofBytes ip) (serviceOf port)
          if out.1 ≠ 0 then pure (false, cluster, lookups + 1)
          else
            match cluster with
            | none => pure (false, none, lookups + 1)
            | some cluster => walkNodes j (lookups + 1) (some (arakoonClusterAddNode cluster out.2))

def walkClusterLoop : Nat → Nat → List (Option Cluster) → FieldWalk (Bool × List (Option Cluster))
  | 0, _, ret => pure (true, ret)
  | i + 1, lookups, ret => do
      let clusterId ← walkString memory
      let clusterSize ← Logged.silent routingReadUInt32
      let cluster ← Logged.silent (objectNew memory (arakoonClusterNew version (.ofBytes clusterId)))
      let out ← walkNodes memory getaddrinfo clusterSize lookups cluster
      if out.1 then walkClusterLoop i out.2.2 (ret ++ [out.2.1]) else pure (false, ret ++ [out.2.1])

def walkClusters : FieldWalk (List (Option Cluster)) := do
  let count ← Logged.silent routingReadUInt32
  let granted ← Logged.silent (requestBlock memory)
  Logged.note (count, granted)
  let out ← walkClusterLoop memory getaddrinfo version count 0 []
  if out.1 then pure out.2
  else Logged.silent (StateT.lift (fail (.cleanup
    ⟨count, out.2.length, freeClusters (visible out.2).length ++ [.freeArray, .storeFreedArray]⟩)))

def walkTable (fuel : Nat) : FieldWalk (RoutingNode × List (Option Cluster)) := do
  let root ← walkNode memory fuel
  let clusters ← walkClusters memory getaddrinfo version
  pure (root, clusters)

/-- The lengths of the strings and the number of clusters, as they are met. -/
def routingFields (data : Bytes) : List Field := (walkTable memory getaddrinfo version (data.length + 1) 0 data).2

end Walk

/-- There is a block, and one more than the number is still a number of 32 bits. -/
def FieldFits (field : Field) : Prop := field.2 = true ∧ field.1 + 1 < 2 ^ 32

/-- The block is too small if it was refused or its size has wrapped. -/
theorem blockSize_lt_iff {n : Nat} {granted : Bool} : blockSize granted n < n + 1 ↔ ¬FieldFits (n, granted) := by
  unfold FieldFits blockSize
  cases granted with
  | false => simp
  | true =>
      rw [if_pos rfl]
      simp only [true_and]
      omega

section Walk

variable (memory : Nat → Bool)

theorem givesUp_string : GivesUp .blockOverrun FieldFits (routingReadString memory) (walkString memory) :=
  (GivesUp.silent _).bind fun _ => (GivesUp.silent _).bind fun _ => .guard blockSize_lt_iff (.silent _)

theorem givesUp_node (fuel : Nat) :
    GivesUp .blockOverrun FieldFits (routingParseNode memory fuel) (walkNode memory fuel) := by
  induction fuel with
  | zero => exact .silent _
  | succ fuel ih =>
      refine (GivesUp.silent _).bind fun isLeaf => (GivesUp.silent _).bind fun _ => .ite ?_ ?_
      · exact (givesUp_string memory).bind fun _ => .pure _
      · exact (givesUp_string memory).bind fun boundary => ih.bind fun left => ih.bind fun right => .pure _

variable (getaddrinfo : Nat → CString → CString → Option (List Address)) (version : ArakoonProtocolVersion)

theorem givesUp_nodes (n lookups : Nat) (cluster : Option Cluster) : GivesUp .blockOverrun FieldFits
    (routingParseNodes memory getaddrinfo n lookups cluster) (walkNodes memory getaddrinfo n lookups cluster) := by
  induction n generalizing lookups cluster with
  | zero => exact .pure _
  | succ n ih =>
      refine (givesUp_string memory).bind fun nodeId => (givesUp_string memory).bind fun ip =>
        (GivesUp.silent _).bind fun port => (GivesUp.silent _).bind fun node => ?_
      cases node with
      | none => exact .pure _
      | some node =>
          refine .ite (.pure _) ?_
          cases cluster with
          | none => exact .pure _
          | some cluster => exact ih _ _

theorem givesUp_clusterLoop (n lookups : Nat) (ret : List (Option Cluster)) :
    GivesUp .blockOverrun FieldFits (routingParseClusterLoop memory getaddrinfo version n lookups ret)
      (walkClusterLoop memory getaddrinfo version n lookups ret) := by
  induction n generalizing lookups ret with
  | zero => exact .pure _
  | succ n ih =>
      refine (givesUp_string memory).bind fun clusterId => (GivesUp.silent _).bind fun clusterSize =>
        (GivesUp.silent _).bind fun cluster => ?_
      exact (givesUp_nodes memory getaddrinfo _ _ _).bind fun out => .ite (ih _ _) (.pure _)

theorem givesUp_clusters : GivesUp .blockOverrun FieldFits (routingParseClusters memory getaddrinfo version)
    (walkClusters memory getaddrinfo version) :=
  (GivesUp.silent _).bind fun count => (GivesUp.silent _).bind fun _ => .guard blockSize_lt_iff
    ((givesUp_clusterLoop memory getaddrinfo version count 0 []).bind fun _ => .ite (.pure _) (.silent _))

theorem walkWord_never : (Logged.silent routingReadUInt32 : FieldWalk Nat).Never .blockOverrun :=
  .silent fun n => .run_lift ((Never.take (by decide) 4).bind fun _ => .pure _ _) n

theorem walkRequest_never : (Logged.silent (requestBlock memory) : FieldWalk Bool).Never .blockOverrun :=
  .silent fun _ => .pure _ _

theorem walkString_never : (walkString memory).Never .blockOverrun :=
  walkWord_never.bind fun _ => (walkRequest_never memory).bind fun _ => (Logged.Never.note _ _).bind fun _ =>
    .silent fun n => .run_lift (.take (by decide) _) n

theorem walkNode_never (fuel : Nat) : (walkNode memory fuel).Never .blockOverrun := by
  induction fuel with
  | zero => exact .silent fun n => .run_lift (.fail (by decide)) n
  | succ fuel ih =>
      refine (Logged.Never.silent fun n => (Never.run_lift (.token (by decide)) n).run_bind fun _ _ =>
        .pure _ _).bind fun isLeaf => (Logged.Never.silent fun n => ?_).bind fun _ => .ite ?_ ?_
      · exact Never.run_bind (Never.pure _ _) fun _ n => .run_ite (.pure _ _) (.run_lift (.fail (by decide)) n)
      · exact (walkString_never memory).bind fun _ => .pure _ _
      · exact (walkString_never memory).bind fun _ => ih.bind fun _ => ih.bind fun _ => .pure _ _

theorem walkObject_never {α : Type} (object : α) :
    (Logged.silent (objectNew memory object) : FieldWalk (Option α)).Never .blockOverrun :=
  .silent fun _ => Never.run_bind (Never.pure _ _) fun _ _ =>
    .run_ite (Never.run_bind (Never.pure _ _) fun _ _ => .pure _ _) (.pure _ _)

theorem walkNodes_never (n lookups : Nat) (cluster : Option Cluster) :
    (walkNodes memory getaddrinfo n lookups cluster).Never .blockOverrun := by
  induction n generalizing lookups cluster with
  | zero => exact .pure _ _
  | succ n ih =>
      refine (walkString_never memory).bind fun _ => (walkString_never memory).bind fun _ => walkWord_never.bind fun _ =>
        (walkObject_never memory _).bind fun node => ?_
      cases node with
      | none => exact .pure _ _
      | some node =>
          refine .ite (.pure _ _) ?_
          cases cluster with
          | none => exact .pure _ _
          | some cluster => exact ih _ _

theorem walkClusterLoop_never (n lookups : Nat) (ret : List (Option Cluster)) :
    (walkClusterLoop memory getaddrinfo version n lookups ret).Never .blockOverrun := by
  induction n generalizing lookups ret with
  | zero => exact .pure _ _
  | succ n ih =>
      refine (walkString_never memory).bind fun _ => walkWord_never.bind fun _ => ?_
      refine (walkObject_never memory _).bind fun _ => ?_
      exact (walkNodes_never memory getaddrinfo _ _ _).bind fun _ => .ite (ih _ _) (.pure _ _)

theorem walkTable_never (fuel : Nat) : (walkTable memory getaddrinfo version fuel).Never .blockOverrun := by
  refine (walkNode_never memory fuel).bind fun _ => Logged.Never.bind ?_ fun _ => .pure _ _
  refine walkWord_never.bind fun _ => (walkRequest_never memory).bind fun _ => (Logged.Never.note _ _).bind fun _ => ?_
  exact (walkClusterLoop_never memory getaddrinfo version _ _ _).bind fun _ =>
    .ite (.pure _ _) (.silent fun n => .run_lift (.fail (by simp)) n)

/-- On any blob, whatever stands behind it in memory and whichever requests are granted: every block has room for its
string with the terminator, or for the slots with theirs, and every byte and slot is stored inside of the block that was
allocated for it, if and only if at no string and at the array the request is refused or the number is the largest one of
32 bits. -/
theorem routing_blocks_fit (blob behind : Bytes) :
    ((∀ field ∈ routingFields memory getaddrinfo version (blob ++ behind), blockSize field.2 field.1 = field.1 + 1) ∧
      nurseryRoutingParse memory getaddrinfo version blob.length (blob ++ behind) ≠ .error .blockOverrun) ↔
    ∀ field ∈ routingFields memory getaddrinfo version (blob ++ behind), field.2 = true ∧ field.1 + 1 < 2 ^ 32 := by
  have htable : GivesUp .blockOverrun FieldFits (do
      let root ← routingParseNode memory ((blob ++ behind).length + 1)
      let clusters ← routingParseClusters memory getaddrinfo version
      pure (root, clusters)) (walkTable memory getaddrinfo version ((blob ++ behind).length + 1)) :=
    (givesUp_node memory _).bind fun _ => (givesUp_clusters memory getaddrinfo version).bind fun _ => .pure _
  have hfails := htable.eq_error_iff (walkTable_never memory getaddrinfo version _) 0 (blob ++ behind)
  have hparse : nurseryRoutingParse memory getaddrinfo version blob.length (blob ++ behind) = .error .blockOverrun ↔
      ((do
        let root ← routingParseNode memory ((blob ++ behind).length + 1)
        let clusters ← routingParseClusters memory getaddrinfo version
        pure (root, clusters) : Parser (RoutingNode × List (Option Cluster))).run 0).run (blob ++ behind) =
          .error .blockOverrun := by
    simp only [nurseryRoutingParse, GivesUp.run_bind, bind_eq_error]
    refine or_congr Iff.rfl (exists_congr fun node => and_congr Iff.rfl (or_congr Iff.rfl ?_))
    refine exists_congr fun out => and_congr Iff.rfl ?_
    split_ifs
    · exact iff_of_false (fun h => by cases h) fun h => by cases h
    · exact iff_of_false (fun h => by cases h) fun h => by cases h
    · exact iff_of_false (fun h => by cases h) fun h => by cases h
  have hfits : nurseryRoutingParse memory getaddrinfo version blob.length (blob ++ behind) ≠ .error .blockOverrun ↔
      ∀ field ∈ routingFields memory getaddrinfo version (blob ++ behind), field.2 = true ∧ field.1 + 1 < 2 ^ 32 := by
    rw [Ne, hparse, hfails]
    simp only [not_exists, not_and, not_not]
    exact Iff.rfl
  rw [hfits]
  refine and_iff_right_of_imp fun h field hfield => ?_
  obtain ⟨hgranted, hsize⟩ := h field hfield
  rw [blockSize, if_pos hgranted, Nat.mod_eq_of_lt hsize]

end Walk

/-- A leaf whose name is announced to have 2^32 - 1 bytes. -/
theorem string_size_wraps :
    nurseryRoutingParse (fun _ => true) (fun _ _ _ => none) .version1 5 [1, 0xff, 0xff, 0xff, 0xff] =
      .error .blockOverrun := rfl

end Crakoon
