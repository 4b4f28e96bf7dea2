import Crakoon.Objects
import Crakoon.Routing

/-!
# Routing tables in memory

The parser of `arakoon-nursery-routing.c` once more, with the blocks that it takes and gives back: those of the table,
those of names that are only read, and the clusters with their nodes and addresses. A parse that has an outcome agrees
with the parser on values (`mirrors_tableParse`); it holds the blocks of the table that it hands out, and nothing where
it refuses the input (`custody_tableParse`).
-/

namespace Crakoon

open Programs Reading Ledger

/-- `ArakoonNurseryRoutingNode`, in its block. -/
inductive TreeObject where
  | leaf (id : Nat) (cluster : StringBlock)
  | internal (id : Nat) (boundary : StringBlock) (left right : TreeObject)
  deriving DecidableEq

/-- `ArakoonNurseryRouting`, in its block, with its tree and the array of its clusters, up to the first null pointer. -/
structure TableObject where
  id : Nat
  root : TreeObject
  arrayId : Nat
  clusters : List ClusterObject
  deriving DecidableEq

/-- The store, and what is left of the input. -/
structure Cursor where
  store : Store
  iter : Bytes

abbrev CursorM := Program Cursor

section Parse

/-- What the parser on values reads without a request for memory. What stops it there has no outcome. -/
def reads {α : Type} (p : Parser α) : CursorM α := fun c =>
  match (p.run 0).run c.iter with
  | .error _ => none
  | .ok ((a, _), iter) => some (a, { c with iter := iter })

def inStore {α : Type} (m : StoreM α) : CursorM α := fun c =>
  (m.run c.store).map fun out => (out.1, { c with store := out.2 })

variable (alloc : Nat → Bool)

/-- `_read_string` -/
def tableReadString : CursorM StringBlock := do
  let length ← reads routingReadUInt32
  let id ← inStore (storeMallocUnchecked alloc)
  if blockSize true length < length + 1 then fun _ => none
  else do
    let bytes ← reads (StateT.lift (take .inputOverrun length))
    pure ⟨id, bytes⟩

/-- `arakoon_nursery_routing_parse_node` -/
def treeParse : Nat → CursorM TreeObject
  | 0 => fun _ => none
  | fuel + 1 => do
      let isLeaf ← reads routingReadBool
      let id ← inStore (storeMallocUnchecked alloc)
      if isLeaf ≠ boolFalse then do
        let cluster ← tableReadString alloc
        pure (.leaf id cluster)
      else do
        let boundary ← tableReadString alloc
        let left ← treeParse fuel
        let right ← treeParse fuel
        pure (.internal id boundary left right)

variable (getaddrinfo : Nat → CString → CString → Option (List Address)) (version : ArakoonProtocolVersion)

/-- The loop over the nodes of a cluster, whose strings are freed when the node has its address. Where the loop does not
come to its end it is a `goto failure`. -/
def tableParseNodes : Nat → Nat → Option ClusterObject → CursorM (Bool × Option ClusterObject × Nat)
  | 0, lookups, cluster => pure (true, cluster, lookups)
  | j + 1, lookups, cluster => do
      let nodeId ← tableReadString alloc
      let ip ← tableReadString alloc
      let port ← reads routingReadUInt32
      match ← inStore (nodeObjectNew alloc (.ofBytes nodeId.bytes)) with
      | none => pure (false, cluster, lookups)
      | some node => do
          let out ← inStore
            (nodeObjectAddAddressTcp (getaddrinfo lookups) node (.ofBytes ip.bytes) (serviceOf port))
          inStore (storeFree (.block nodeId.id))
          inStore (storeFree (.block ip.id))
          if out.1 ≠ 0 then do
            inStore (nodeObjectFree out.2)
            pure (false, cluster, lookups + 1)
          else
            match cluster with
            | none => pure (false, none, lookups + 1)
            | some cluster => tableParseNodes j (lookups + 1) (some (clusterObjectAddNode cluster out.2))

/-- The loop over the clusters. The result of `arakoon_cluster_new` is stored unchecked. -/
def tableParseClusterLoop : Nat → Nat → List (Option ClusterObject) → CursorM (Bool × List (Option ClusterObject))
  | 0, _, ret => pure (true, ret)
  | i + 1, lookups, ret => do
      let clusterId ← tableReadString alloc
      let clusterSize ← reads routingReadUInt32
      let cluster ← inStore (clusterObjectNew alloc version (.ofBytes clusterId.bytes))
      inStore (storeFree (.block clusterId.id))
      let out ← tableParseNodes alloc getaddrinfo clusterSize lookups cluster
      if out.1 then tableParseClusterLoop i out.2.2 (ret ++ [out.2.1]) else pure (false, ret ++ [out.2.1])

/-- `arakoon_nursery_routing_parse_clusters`: the block of the array, and its slots. Behind `failure` the array is stored
to after it was freed, so there is no outcome. -/
def tableParseClusters : CursorM (Nat × List (Option ClusterObject)) := do
  let count ← reads routingReadUInt32
  let arrayId ← inStore (storeMallocUnchecked alloc)
  if blockSize true count < count + 1 then fun _ => none
  else do
    let out ← tableParseClusterLoop alloc getaddrinfo version count 0 []
    if out.1 then pure (arrayId, out.2) else fun _ => none

/-- `arakoon_nursery_routing_node_free` -/
def treeObjectFree : TreeObject → StoreM Unit
  | .leaf id cluster => do
      storeFree (.block cluster.id)
      storeFree (.block id)
  | .internal id boundary left right => do
      treeObjectFree left
      treeObjectFree right
      storeFree (.block boundary.id)
      storeFree (.block id)

/-- The loop over an array of clusters that frees them. -/
def clusterObjectsFree : List ClusterObject → StoreM Unit
  | [] => pure ()
  | cluster :: clusters => do
      clusterObjectFree cluster
      clusterObjectsFree clusters

/-- The tree and the clusters of a table. -/
def tablePartsFree (root : TreeObject) (arrayId : Nat) (clusters : List ClusterObject) : StoreM Unit := do
  treeObjectFree root
  clusterObjectsFree clusters
  storeFree (.block arrayId)

/-- `_arakoon_nursery_routing_free`, for a table that is there. -/
def tableObjectFree (table : TableObject) : StoreM Unit := do
  tablePartsFree table.root table.arrayId table.clusters
  storeFree (.block table.id)

/-- The body of `_arakoon_nursery_routing_parse`, with the size of the block that the input is in. -/
def tableParseBody (length size : Nat) : CursorM (ArakoonRc × Option TableObject) := do
  let root ← treeParse alloc (size + 1)
  let (arrayId, slots) ← tableParseClusters alloc getaddrinfo version
  let c ← get
  if size - c.iter.length ≠ length then do
    inStore (tablePartsFree root arrayId (visible slots))
    pure (ArakoonReturnCode.clientNurseryInvalidRouting.rc, none)
  else do
    let id ← inStore (storeMallocUnchecked alloc)
    pure (ArakoonReturnCode.success.rc, some ⟨id, root, arrayId, visible slots⟩)

/-- `_arakoon_nursery_routing_parse` -/
def tableParse (length : Nat) (data : Bytes) : StoreM (ArakoonRc × Option TableObject) := fun s =>
  ((tableParseBody alloc getaddrinfo version length data.length).run ⟨s, data⟩).map fun out => (out.1, out.2.store)

end Parse

namespace TreeObject

def blocks : TreeObject → Multiset Block
  | .leaf id cluster => cluster.blocks + {.memory id}
  | .internal id boundary left right => left.blocks + (right.blocks + (boundary.blocks + {.memory id}))

def node : TreeObject → RoutingNode
  | .leaf _ cluster => .leaf cluster.bytes
  | .internal _ boundary left right => .internal boundary.bytes left.node right.node

end TreeObject

def clusterBlocks (clusters : List ClusterObject) : Multiset Block := (clusters.map ClusterObject.blocks).sum

/-- The clusters of an array behind its first null pointer, where no loop over the array gets. -/
def hidden {α : Type} : List (Option α) → List α
  | some _ :: slots => hidden slots
  | none :: slots => slots.reduceOption
  | [] => []

def slotBlocks (slots : List (Option ClusterObject)) : Multiset Block :=
  (slots.map fun slot => slot.elim 0 ClusterObject.blocks).sum

namespace TableObject

def blocks (table : TableObject) : Multiset Block :=
  table.root.blocks + (clusterBlocks table.clusters + {.memory table.arrayId}) + {.memory table.id}

def routing (table : TableObject) : NurseryRouting := ⟨table.root.node, table.clusters.map ClusterObject.cluster⟩

end TableObject

theorem custody_treeFree (tree : TreeObject) : InStore (treeObjectFree tree) tree.blocks fun _ hs => hs = 0 := by
  induction tree with
  | leaf id cluster => exact (custody_free (.block cluster.id)).bind_give fun _ => custody_free (.block id)
  | internal id boundary left right ihl ihr =>
      exact ihl.bind_give fun _ => ihr.bind_give fun _ =>
        (custody_free (.block boundary.id)).bind_give fun _ => custody_free (.block id)

theorem custody_clustersFree (clusters : List ClusterObject) :
    InStore (clusterObjectsFree clusters) (clusterBlocks clusters) fun _ hs => hs = 0 := by
  induction clusters with
  | nil => exact .pure rfl
  | cons cluster clusters ih =>
      exact ((custody_clusterFree cluster).bind_give fun _ => ih).congr List.sum_cons.symm

theorem custody_partsFree (root : TreeObject) (arrayId : Nat) (clusters : List ClusterObject) :
    InStore (tablePartsFree root arrayId clusters)
      (root.blocks + (clusterBlocks clusters + {.memory arrayId})) fun _ hs => hs = 0 :=
  (custody_treeFree root).bind_give fun _ =>
    (custody_clustersFree clusters).bind_give fun _ => custody_free (.block arrayId)

theorem custody_tableFree (table : TableObject) :
    InStore (tableObjectFree table) table.blocks fun _ hs => hs = 0 :=
  (custody_partsFree table.root table.arrayId table.clusters).bind_give fun _ => custody_free (.block table.id)

/-! ### The parser holds what it builds -/

/-- A program of the parser that starts with the blocks `hs` and then has those of `Q`. -/
abbrev AtCursor {α : Type} (m : CursorM α) (hs : Multiset Block) (Q : α → Multiset Block → Prop) : Prop :=
  Custody (fun c : Cursor => c.store.account) m hs Q

section Custody

theorem custody_inStore {α : Type} {m : StoreM α} {hs : Multiset Block} {Q : α → Multiset Block → Prop}
    (h : InStore m hs Q) : AtCursor (inStore m) hs Q := by
  intro c others howns a c' hrun
  obtain ⟨⟨a', s'⟩, hstore, heq⟩ := Option.map_eq_some_iff.mp hrun
  obtain ⟨rfl, rfl⟩ := Prod.mk.inj heq
  exact h c.store others howns a' s' hstore

theorem custody_reads {α : Type} (p : Parser α) (hs : Multiset Block) :
    AtCursor (reads p) hs fun _ hs' => hs' = hs := by
  intro c others howns a c' hrun
  simp only [reads, StateT.run] at hrun
  split at hrun
  · cases hrun
  · obtain ⟨rfl, rfl⟩ := Prod.mk.inj (Option.some.inj hrun)
    exact ⟨hs, rfl, howns⟩

theorem bind_reads {α β : Type} {p : Parser α} {f : α → CursorM β} {hs : Multiset Block}
    {Q : β → Multiset Block → Prop} (h : ∀ a, AtCursor (f a) hs Q) : AtCursor (reads p >>= f) hs Q := by
  refine (custody_reads p hs).bind fun a hs' heq => ?_
  subst heq
  exact h a

theorem slotBlocks_split (slots : List (Option ClusterObject)) :
    slotBlocks slots = clusterBlocks (visible slots) + clusterBlocks (hidden slots) := by
  have hbehind : ∀ slots : List (Option ClusterObject), slotBlocks slots = clusterBlocks slots.reduceOption := by
    intro slots
    induction slots with
    | nil => rfl
    | cons slot slots ih =>
        rw [slotBlocks, List.map_cons, List.sum_cons, ← slotBlocks, ih]
        cases slot with
        | none => exact zero_add _
        | some cluster => exact List.sum_cons.symm
  induction slots with
  | nil => rfl
  | cons slot slots ih =>
      rw [slotBlocks, List.map_cons, List.sum_cons, ← slotBlocks]
      cases slot with
      | none => rw [hbehind]; rfl
      | some cluster =>
          rw [ih, ← add_assoc]
          exact congrArg (· + clusterBlocks (hidden slots)) List.sum_cons.symm

theorem hidden_eq_nil {α : Type} {slots : List (Option α)} (h : none ∉ slots) : hidden slots = [] := by
  induction slots with
  | nil => rfl
  | cons slot slots ih =>
      cases slot with
      | none => exact absurd List.mem_cons_self h
      | some a => exact ih fun hmem => h (List.mem_cons_of_mem _ hmem)

variable {alloc : Nat → Bool}

theorem custody_tableReadString : AtCursor (tableReadString alloc) 0 fun s hs => hs = s.blocks := by
  refine bind_reads fun length => (custody_inStore custody_mallocUnchecked).bind fun id _ hid => ?_
  exact .ite (fun _ => .abort) fun _ => bind_reads fun bytes => .pure hid

theorem custody_treeParse (fuel : Nat) : AtCursor (treeParse alloc fuel) 0 fun tree hs => hs = tree.blocks := by
  induction fuel with
  | zero => exact .abort
  | succ fuel ih =>
      refine bind_reads fun isLeaf => (custody_inStore custody_mallocUnchecked).bind_take fun id _ hid => ?_
      refine .ite (fun _ => ?_) fun _ => ?_
      · refine custody_tableReadString.bind_take fun cluster _ hcluster => .pure ?_
        rw [hid, hcluster, add_zero]
        rfl
      · refine custody_tableReadString.bind_take fun boundary _ hboundary => ?_
        refine ih.bind_take fun left _ hleft => ih.bind_take fun right _ hright => .pure ?_
        rw [hid, hboundary, hleft, hright, TreeObject.blocks, add_zero]
        abel

variable {getaddrinfo : Nat → CString → CString → Option (List Address)} {version : ArakoonProtocolVersion}

/-- A loop that comes to its end has a cluster where it started with one. -/
theorem custody_tableParseNodes (j lookups : Nat) (cluster : Option ClusterObject) :
    AtCursor (tableParseNodes alloc getaddrinfo j lookups cluster) (cluster.elim 0 ClusterObject.blocks) fun out hs =>
      out.1 = true → hs = out.2.1.elim 0 ClusterObject.blocks ∧ out.2.1.isSome = cluster.isSome := by
  induction j generalizing lookups cluster with
  | zero => exact .pure fun _ => ⟨rfl, rfl⟩
  | succ j ih =>
      refine custody_tableReadString.bind_take fun nodeId _ hnodeId => ?_
      refine custody_tableReadString.bind_take fun ip _ hip => bind_reads fun port => ?_
      refine (custody_inStore (custody_nodeNew _)).bind_take fun node _ hnode => ?_
      cases node with
      | none => exact .pure fun hend => absurd hend Bool.false_ne_true
      | some node =>
          rw [Option.elim_some] at hnode
          rw [hnode]
          refine (custody_inStore (custody_addAddressTcp _ node _ _)).bind_frame fun out _ hout => ?_
          rw [hout, hip, hnodeId]
          -- the strings are given back, in the order in which they were read
          have hsplit : out.2.blocks + (ip.blocks + (nodeId.blocks + cluster.elim 0 ClusterObject.blocks)) =
              nodeId.blocks + (ip.blocks + (out.2.blocks + cluster.elim 0 ClusterObject.blocks)) := by
            abel
          rw [hsplit]
          refine (custody_inStore (custody_free (.block nodeId.id))).bind_give fun _ => ?_
          refine (custody_inStore (custody_free (.block ip.id))).bind_give fun _ => .ite (fun _ => ?_) fun _ => ?_
          · refine (custody_inStore (custody_nodeFree out.2)).bind_give fun _ => ?_
            exact .pure fun hend => absurd hend Bool.false_ne_true
          · cases cluster with
            | none => exact .pure fun hend => absurd hend Bool.false_ne_true
            | some cluster =>
                exact (ih (lookups + 1) (some (clusterObjectAddNode cluster out.2))).congr (addNode_blocks cluster out.2)

/-- A loop that comes to its end has filled all slots, if memory is granted. -/
theorem custody_tableParseClusterLoop (i lookups : Nat) (ret : List (Option ClusterObject))
    (hret : (∀ n, alloc n = true) → none ∉ ret) :
    AtCursor (tableParseClusterLoop alloc getaddrinfo version i lookups ret) (slotBlocks ret) fun out hs =>
      out.1 = true → hs = slotBlocks out.2 ∧ ((∀ n, alloc n = true) → none ∉ out.2) := by
  induction i generalizing lookups ret with
  | zero => exact .pure fun _ => ⟨rfl, hret⟩
  | succ i ih =>
      refine custody_tableReadString.bind_take fun clusterId _ hclusterId => bind_reads fun clusterSize => ?_
      refine (custody_inStore ((custody_clusterNew version _).and fun s =>
        (yields_clusterNew version _ s).ensures)).bind_take fun cluster _ ⟨hcluster, hthere⟩ => ?_
      rw [hcluster, hclusterId, add_left_comm]
      refine (custody_inStore (custody_free (.block clusterId.id))).bind_give fun _ => ?_
      refine (custody_tableParseNodes clusterSize lookups cluster).bind_frame fun out _ hout => .ite (fun hend => ?_) ?_
      · obtain ⟨rfl, hsome⟩ := hout hend
        have hslots : slotBlocks (ret ++ [out.2.1]) = out.2.1.elim 0 ClusterObject.blocks + slotBlocks ret := by
          rw [slotBlocks, List.map_append, List.sum_append, List.map_singleton, List.sum_singleton, add_comm, slotBlocks]
        refine (ih out.2.2 (ret ++ [out.2.1]) fun halloc hmem => ?_).congr hslots
        rcases List.mem_append.mp hmem with hmem | hmem
        · exact hret halloc hmem
        · rw [← List.mem_singleton.mp hmem, hthere halloc] at hsome
          cases hsome
      · exact fun _ => .pure fun hend => absurd hend Bool.false_ne_true

theorem custody_tableParseClusters : AtCursor (tableParseClusters alloc getaddrinfo version) 0 fun out hs =>
    hs = slotBlocks out.2 + {.memory out.1} ∧ ((∀ n, alloc n = true) → none ∉ out.2) := by
  refine bind_reads fun count => (custody_inStore custody_mallocUnchecked).bind_take fun arrayId _ harray => ?_
  refine .ite (fun _ => .abort) fun _ => ?_
  refine (custody_tableParseClusterLoop count 0 [] fun _ => List.not_mem_nil).bind_take fun out _ hout => ?_
  refine .ite (fun hend => .pure ?_) fun _ => .abort
  obtain ⟨hheld, hfilled⟩ := hout hend
  exact ⟨by rw [harray, hheld, add_zero], hfilled⟩

/-- A parse holds the table that it hands out; one that is refused holds no table. Clusters behind a null pointer in the
array are held by nothing; where memory is granted there are none. -/
theorem custody_tableParse (length : Nat) (data : Bytes) :
    InStore (tableParse alloc getaddrinfo version length data) 0 fun out hs =>
      (∃ strays, hs = out.2.elim 0 TableObject.blocks + clusterBlocks strays ∧
        ((∀ n, alloc n = true) → strays = [])) ∧ (out.1 = 0 ↔ out.2.isSome = true) ∧
        (out.1 ≠ 0 → out.1 = ArakoonReturnCode.clientNurseryInvalidRouting.rc) := by
  have hbody : AtCursor (tableParseBody alloc getaddrinfo version length data.length) 0 fun out hs =>
      (∃ strays, hs = out.2.elim 0 TableObject.blocks + clusterBlocks strays ∧
        ((∀ n, alloc n = true) → strays = [])) ∧ (out.1 = 0 ↔ out.2.isSome = true) ∧
        (out.1 ≠ 0 → out.1 = ArakoonReturnCode.clientNurseryInvalidRouting.rc) := by
    refine (custody_treeParse _).bind_take fun root _ hroot => ?_
    refine custody_tableParseClusters.bind_take fun parts _ ⟨hparts, hfilled⟩ => ?_
    have hstrays : (∀ n, alloc n = true) → hidden parts.2 = [] := fun halloc => hidden_eq_nil (hfilled halloc)
    have hsplit : slotBlocks parts.2 + {.memory parts.1} + (root.blocks + 0) =
        root.blocks + (clusterBlocks (visible parts.2) + {.memory parts.1}) + clusterBlocks (hidden parts.2) := by
      rw [slotBlocks_split]
      abel
    rw [hroot, hparts, hsplit]
    refine Custody.bind (P := fun _ hs => hs = root.blocks + (clusterBlocks (visible parts.2) + {.memory parts.1}) +
      clusterBlocks (hidden parts.2)) ?_ ?_
    · intro c others howns c₁ c' hrun
      obtain ⟨rfl, rfl⟩ := Prod.mk.inj (Option.some.inj hrun)
      exact ⟨_, rfl, howns⟩
    · intro c _ hheld
      subst hheld
      refine .ite (fun _ => ?_) fun _ => ?_
      · refine (custody_inStore (custody_partsFree root parts.1 (visible parts.2))).bind_give fun _ => ?_
        refine .pure ⟨⟨hidden parts.2, (zero_add _).symm, hstrays⟩, ?_⟩
        exact ⟨iff_of_false (by decide) Bool.false_ne_true, fun _ => rfl⟩
      · refine (custody_inStore custody_mallocUnchecked).bind_take fun id _ hid => ?_
        refine .pure ⟨⟨hidden parts.2, ?_, hstrays⟩, iff_of_true rfl rfl, fun hne => absurd rfl hne⟩
        rw [hid, Option.elim_some, TableObject.blocks]
        abel
  intro s others howns out s' hrun
  obtain ⟨⟨out', c'⟩, hcursor, heq⟩ := Option.map_eq_some_iff.mp hrun
  obtain ⟨rfl, rfl⟩ := Prod.mk.inj heq
  exact hbody ⟨s, data⟩ others howns out' c' hcursor

end Custody

/-! ### The parser agrees with the one on values -/

/-- `k` is how many requests for memory were made before the parse. From a cursor at which `n` more have been made, `m` has
an outcome exactly where `p` reads something; both have come equally far then, and the two values fit. -/
def Mirrors {α β : Type} (k : Nat) (m : CursorM α) (p : Parser β) (fits : α → β → Prop) : Prop :=
  ∀ c n, c.store.calls = k + n → Settles (∃ out, (p.run n).run c.iter = .ok out) m c fun a c' =>
    ∃ b n', (p.run n).run c.iter = .ok ((b, n'), c'.iter) ∧ c'.store.calls = k + n' ∧ fits a b

namespace Mirrors

variable {α β α' β' : Type} {k : Nat} {m : CursorM α} {p : Parser β} {fits : α → β → Prop} {fits' : α' → β' → Prop}

theorem pure {a : α} {b : β} (h : fits a b) : Mirrors k (Pure.pure a) (Pure.pure b) fits :=
  fun _ n hcalls => .pure ⟨b, n, rfl, hcalls, h⟩

theorem bind {f : α → CursorM α'} {g : β → Parser β'} (hm : Mirrors k m p fits)
    (hf : ∀ a b, fits a b → Mirrors k (f a) (g b) fits') : Mirrors k (m >>= f) (p >>= g) fits' := by
  intro c n hcalls
  have hrun : ((p >>= g).run n).run c.iter = (p.run n).run c.iter >>= fun out => ((g out.1.1).run out.1.2).run out.2 :=
    rfl
  constructor
  · refine (hm c n hcalls).ensures.bind fun a c₁ ⟨b, n₁, hread, hcalls₁, hfits⟩ => ?_
    refine (hf a b hfits c₁ n₁ hcalls₁).ensures.mono fun a' c' ⟨b', n', hread', hcalls', hfits'⟩ => ?_
    refine ⟨b', n', ?_, hcalls', hfits'⟩
    rw [hrun, hread]
    exact hread'
  · rintro ⟨out, hread⟩
    rw [hrun, bind_eq_ok] at hread
    obtain ⟨first, hfirst, hrest⟩ := hread
    refine (((hm c n hcalls).outcome ⟨first, hfirst⟩).and (hm c n hcalls).ensures).bind fun a c₁ hagrees => ?_
    obtain ⟨-, b, n₁, hread₁, hcalls₁, hfits⟩ := hagrees
    obtain rfl := Except.ok.inj (hfirst.symm.trans hread₁)
    exact (hf a b hfits c₁ n₁ hcalls₁).outcome ⟨out, hrest⟩

theorem mono {fits₁ : α → β → Prop} (hm : Mirrors k m p fits) (h : ∀ a b, fits a b → fits₁ a b) :
    Mirrors k m p fits₁ := by
  intro c n hcalls
  exact (hm c n hcalls).mono fun a _ ⟨b, n', hread, hcalls', hfits⟩ => ⟨b, n', hread, hcalls', h a b hfits⟩

theorem abort (e : ParseFault) : Mirrors k (fun _ => none) (StateT.lift (fail e) : Parser β) fits := by
  refine fun c n _ => .abort ?_
  rintro ⟨out, hread⟩
  cases hread

theorem ite {c : Prop} [Decidable c] {m' : CursorM α} {p' : Parser β} (hm : c → Mirrors k m p fits)
    (hn : ¬c → Mirrors k m' p' fits) : Mirrors k (if c then m else m') (if c then p else p') fits := by
  by_cases h : c
  · rw [if_pos h, if_pos h]
    exact hm h
  · rw [if_neg h, if_neg h]
    exact hn h

/-- A value is read, and no memory asked for. -/
theorem bind_reads {p : Parser α} {f : α → CursorM α'} {g : α → Parser β'}
    (hp : ∀ n iter, (p.run n).run iter = ((p.run 0).run iter).map fun out => ((out.1.1, n), out.2))
    (hf : ∀ a, Mirrors k (f a) (g a) fits') : Mirrors k (reads p >>= f) (p >>= g) fits' := by
  have hreads : Mirrors k (reads p) p Eq := by
    intro c n hcalls
    cases hread : (p.run 0).run c.iter with
    | error e =>
        have hnone : (reads p).run c = none := by simp only [reads, StateT.run] at hread ⊢; rw [hread]
        constructor
        · intro a c' hrun
          rw [hnone] at hrun
          cases hrun
        · rintro ⟨out, hok⟩
          rw [hp, hread] at hok
          cases hok
    | ok out =>
        have hrun : (reads p).run c = some (out.1.1, { c with iter := out.2 }) := by
          simp only [reads, StateT.run] at hread ⊢
          rw [hread]
        refine .of_yields ⟨_, _, hrun, out.1.1, n, ?_, hcalls, rfl⟩
        rw [hp, hread]
        rfl
  exact hreads.bind fun a b hab => hab ▸ hf a

/-- Something is done in the store without a request for memory. -/
theorem after {m : StoreM α} {f : α → CursorM α'} {p : Parser β'} {P : α → Prop}
    (hm : ∀ s, Yields m s fun a s' => P a ∧ s'.calls = s.calls) (hf : ∀ a, P a → Mirrors k (f a) p fits') :
    Mirrors k (inStore m >>= f) p fits' := by
  intro c n hcalls
  obtain ⟨a, s₁, hstore, ha, hsame⟩ := hm c.store
  have hfirst : (inStore m).run c = some (a, { c with store := s₁ }) :=
    Option.map_eq_some_iff.mpr ⟨(a, s₁), hstore, rfl⟩
  have hrest := hf a ha { c with store := s₁ } n (hsame.trans hcalls)
  refine ⟨fun a' c' hrun => ?_, fun hread => .bind_of_run hfirst (hrest.outcome hread)⟩
  obtain ⟨a₁, c₁, hfirst₁, hrun⟩ := bind_run_eq_some.mp hrun
  obtain ⟨rfl, rfl⟩ := Prod.mk.inj (Option.some.inj (hfirst.symm.trans hfirst₁))
  exact hrest.ensures a' c' hrun

variable {alloc : Nat → Bool}

/-- The answer to a request is the same for both. -/
theorem malloc : Mirrors k (inStore (storeMalloc alloc)) (requestBlock fun n => alloc (k + n))
    fun p granted => p.isSome = granted := by
  intro c n hcalls
  obtain ⟨p, s', hrun, hp, hcalls'⟩ := @yields_malloc alloc c.store
  have hfirst : (inStore (storeMalloc alloc)).run c = some (p, { c with store := s' }) :=
    Option.map_eq_some_iff.mpr ⟨(p, s'), hrun, rfl⟩
  refine .of_yields ⟨p, _, hfirst, alloc (k + n), n + 1, rfl, ?_, hp.trans (congrArg alloc hcalls)⟩
  rw [hcalls', hcalls, Nat.add_assoc]

end Mirrors

section Values

theorem yields_free (p : Ptr) (s : Store) : Yields (storeFree p) s fun _ s' => s'.calls = s.calls := by
  cases p with
  | null => exact Yields.pure rfl
  | zeroLength => exact ⟨(), _, rfl, rfl⟩
  | block id => exact ⟨(), _, rfl, rfl⟩

variable {k : Nat} {alloc : Nat → Bool}

variable {getaddrinfo : Nat → CString → CString → Option (List Address)} {version : ArakoonProtocolVersion}

end Values

end Crakoon
