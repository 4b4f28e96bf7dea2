import Crakoon.Cluster
import Crakoon.Custody
import Crakoon.Memory
import Crakoon.Sequence

/-!
# Objects in memory

Sequences, nodes and clusters with the blocks that they live in, and the functions that build, change and free them.
Every block that is taken from a memory hook and every chain of addresses that `getaddrinfo` gives is entered in the
account of the `Store`, and so is whatever is given back. An object has its blocks (`blocks`) and what it holds for the
rest of the library (`sequence`, `node`, `cluster`); the functions on objects are shown to keep both.
-/

namespace Crakoon

open Programs Ledger

/-- What is given back: a block, `ARAKOON_ZERO_LENGTH_DATA_PTR`, which nobody was given, or a chain of addresses. -/
inductive Block where
  | memory (id : Nat)
  | zeroLength
  | addresses (id : Nat)
  deriving DecidableEq

/-- Blocks and chains are numbered in the order in which they are handed out. -/
def Block.number : Block → Nat
  | .memory id => id
  | .zeroLength => 0
  | .addresses id => id

structure Store where
  /-- What was handed out and given back, the latest first. -/
  account : List (Entry Block)
  /-- How many times memory was asked for. -/
  calls : Nat
  /-- How many blocks and chains were handed out. -/
  next : Nat
  numbers : ∀ b ∈ held account, b.number < next
  fresh : Fresh account

namespace Store

def empty : Store := ⟨[], 0, 0, fun _ h => absurd h List.not_mem_nil, trivial⟩

/-- The next block or chain is handed out. -/
def handOut (s : Store) (b : Block) (hb : b.number = s.next) : Store where
  account := .opened b :: s.account
  calls := s.calls
  next := s.next + 1
  numbers := by
    intro b' hb'
    rcases List.mem_cons.mp hb' with rfl | hold
    · exact hb ▸ Nat.lt_succ_self s.next
    · exact Nat.lt_succ_of_lt (s.numbers b' hold)
  fresh := ⟨fun hheld => Nat.lt_irrefl s.next (hb ▸ s.numbers b hheld), s.fresh⟩

def giveBack (s : Store) (b : Block) : Store where
  account := .closed b :: s.account
  calls := s.calls
  next := s.next
  numbers := fun b' hb' => s.numbers b' (List.mem_of_mem_erase hb')
  fresh := s.fresh

end Store

abbrev StoreM := Program Store

section Hooks

variable (alloc : Nat → Bool)

/-- `arakoon_mem_malloc`, `arakoon_mem_new` -/
def storeMalloc : StoreM (Option Nat) := fun s =>
  if alloc s.calls then some (some s.next, { s.handOut (.memory s.next) rfl with calls := s.calls + 1 })
  else some (none, { s with calls := s.calls + 1 })

/-- `arakoon_mem_free` -/
def storeFree : Ptr → StoreM Unit
  | .null => pure ()
  | .zeroLength => fun s => some ((), s.giveBack .zeroLength)
  | .block id => fun s => some ((), s.giveBack (.memory id))

/-- A chain of addresses from `getaddrinfo`. -/
def takeAddresses : StoreM Nat := fun s => some (s.next, s.handOut (.addresses s.next) rfl)

/-- `freeaddrinfo` on chains that have been joined. -/
def freeaddrinfo : List Nat → StoreM Unit
  | [] => pure ()
  | id :: ids => do
      fun s => some ((), s.giveBack (.addresses id))
      freeaddrinfo ids

/-- Memory that is used without a look at the pointer: there is no outcome where there is none. -/
def storeMallocUnchecked : StoreM Nat := do
  match ← storeMalloc alloc with
  | none => fun _ => none
  | some id => pure id

end Hooks

/-- A string in a block of its own. -/
structure StringBlock where
  id : Nat
  bytes : Bytes
  deriving DecidableEq

/-- The data of an `ArakoonSequenceItem`. -/
inductive ItemData where
  | set (key value : StringBlock)
  | delete (key : StringBlock)
  | assert (key : StringBlock) (value : Option StringBlock)
  | assertExists (key : StringBlock)
  deriving DecidableEq

/-- `ArakoonSequenceItem`, in its block. -/
structure ItemObject where
  id : Nat
  data : ItemData
  deriving DecidableEq

/-- `ArakoonSequence`, in its block, with its items from `sequence->item` on. -/
structure SequenceObject where
  id : Nat
  items : List ItemObject
  deriving DecidableEq

section Sequences

variable (alloc : Nat → Bool)

/-- `COPY_STRING`, which aborts where memory is refused. -/
def copyString (bs : Bytes) : StoreM StringBlock := do
  let id ← storeMallocUnchecked alloc
  pure ⟨id, bs⟩

/-- `COPY_STRING_OPTION` -/
def copyStringOption : StringOption → StoreM (Option StringBlock)
  | .null size => if size ≠ 0 then fun _ => none else pure none
  | .data value => do
      let copy ← copyString alloc value
      pure (some copy)

/-- What an `arakoon_sequence_add_*` call copies. -/
def SequenceAdd.copy : SequenceAdd → StoreM ItemData
  | .set key value => do
      let key ← copyString alloc key
      let value ← copyString alloc value
      pure (.set key value)
  | .delete key => do
      let key ← copyString alloc key
      pure (.delete key)
  | .assert key value => do
      let key ← copyString alloc key
      let value ← copyStringOption alloc value
      pure (.assert key value)
  | .assertExists key => do
      let key ← copyString alloc key
      pure (.assertExists key)

/-- `arakoon_sequence_new` -/
def sequenceObjectNew : StoreM (Option SequenceObject) := do
  match ← storeMalloc alloc with
  | none => pure none
  | some id => pure (some ⟨id, []⟩)

/-- An `arakoon_sequence_add_*` call: the item is taken first, and put in front when its strings are copied. -/
def sequenceObjectAdd (sequence : SequenceObject) (add : SequenceAdd) : StoreM (ArakoonRc × SequenceObject) := do
  match ← storeMalloc alloc with
  | none => pure (enomem, sequence)
  | some id => do
      let data ← add.copy alloc
      pure (ArakoonReturnCode.success.rc, ⟨sequence.id, ⟨id, data⟩ :: sequence.items⟩)

/-- The pointer to a string that may not be there. -/
def optionPtr : Option StringBlock → Ptr
  | none => .null
  | some s => .block s.id

/-- `arakoon_sequence_item_free` -/
def itemObjectFree (item : ItemObject) : StoreM Unit := do
  match item.data with
  | .set key value => do
      storeFree (.block key.id)
      storeFree (.block value.id)
  | .delete key => storeFree (.block key.id)
  | .assert key value => do
      storeFree (.block key.id)
      storeFree (optionPtr value)
  | .assertExists key => storeFree (.block key.id)
  storeFree (.block item.id)

/-- The loop of `arakoon_sequence_free`. -/
def itemObjectsFree : List ItemObject → StoreM Unit
  | [] => pure ()
  | item :: items => do
      itemObjectFree item
      itemObjectsFree items

/-- `arakoon_sequence_free` -/
def sequenceObjectFree (sequence : SequenceObject) : StoreM Unit := do
  itemObjectsFree sequence.items
  storeFree (.block sequence.id)

end Sequences

/-- `ArakoonClusterNode`, in its block, with the block of its name and the chains of addresses that have been joined. -/
structure NodeObject where
  id : Nat
  nameId : Nat
  name : CString
  address : List (Nat × List Address)
  deriving DecidableEq

/-- `ArakoonCluster`, in its block, with the block of its name and its nodes from the head on. -/
structure ClusterObject where
  id : Nat
  nameId : Nat
  version : ArakoonProtocolVersion
  name : CString
  lastError : Data
  nodes : List NodeObject
  deriving DecidableEq

section Clusters

variable (alloc : Nat → Bool)

/-- An object in a block of its own, with its name in another. There is none where either is refused. -/
def namedObjectNew {γ : Type} (build : Nat → Nat → γ) : StoreM (Option γ) := do
  match ← storeMalloc alloc with
  | none => pure none
  | some id => do
      match ← storeMalloc alloc with
      | none => do
          storeFree .null
          storeFree (.block id)
          pure none
      | some nameId => pure (some (build id nameId))

/-- `arakoon_cluster_node_new` -/
def nodeObjectNew (name : CString) : StoreM (Option NodeObject) :=
  namedObjectNew alloc fun id nameId => ⟨id, nameId, name, []⟩

/-- `arakoon_cluster_node_add_address`, with a chain that the caller hands over. -/
def nodeObjectAddAddress (node : NodeObject) (chain : Nat × List Address) : NodeObject :=
  { node with address := node.address ++ [chain] }

/-- `arakoon_cluster_node_add_address_tcp` -/
def nodeObjectAddAddressTcp (getaddrinfo : CString → CString → Option (List Address)) (node : NodeObject)
    (host service : CString) : StoreM (ArakoonRc × NodeObject) := do
  match getaddrinfo host service with
  | none => pure (ArakoonReturnCode.clientNetworkError.rc, node)
  | some result => do
      let id ← takeAddresses
      pure (ArakoonReturnCode.success.rc, nodeObjectAddAddress node (id, result))

/-- `arakoon_cluster_node_free`, less the descriptor. -/
def nodeObjectFree (node : NodeObject) : StoreM Unit := do
  storeFree (.block node.nameId)
  freeaddrinfo (node.address.map Prod.fst)
  storeFree (.block node.id)

/-- `arakoon_cluster_new` -/
def clusterObjectNew (version : ArakoonProtocolVersion) (name : CString) : StoreM (Option ClusterObject) :=
  namedObjectNew alloc fun id nameId => ⟨id, nameId, version, name, .null, []⟩

/-- `arakoon_cluster_add_node`, for a node that no cluster has yet. -/
def clusterObjectAddNode (cluster : ClusterObject) (node : NodeObject) : ClusterObject :=
  { cluster with nodes := node :: cluster.nodes }

/-- What an operation does to the blocks of the cluster: the last error is reset, and there is a new one where the
server answers with an error and its message. -/
def clusterObjectOperation (message : Option Bytes) (cluster : ClusterObject) : StoreM ClusterObject := do
  storeFree cluster.lastError.ptr
  match message with
  | none => pure { cluster with lastError := .null }
  | some bs =>
      if bs = [] then pure { cluster with lastError := .zeroLength }
      else do
        match ← storeMalloc alloc with
        | none => pure { cluster with lastError := .null }
        | some id => pure { cluster with lastError := .block id bs }

/-- The loop of `arakoon_cluster_free`. -/
def nodeObjectsFree : List NodeObject → StoreM Unit
  | [] => pure ()
  | node :: nodes => do
      nodeObjectFree node
      nodeObjectsFree nodes

/-- `arakoon_cluster_free` -/
def clusterObjectFree (cluster : ClusterObject) : StoreM Unit := do
  storeFree (.block cluster.nameId)
  storeFree cluster.lastError.ptr
  nodeObjectsFree cluster.nodes
  storeFree (.block cluster.id)

end Clusters

/-! ### What the objects hold -/

def Ptr.blocks : Ptr → Multiset Block
  | .null => 0
  | .zeroLength => {.zeroLength}
  | .block id => {.memory id}

def StringBlock.blocks (s : StringBlock) : Multiset Block := {.memory s.id}

namespace ItemData

def blocks : ItemData → Multiset Block
  | .set key value => key.blocks + value.blocks
  | .delete key => key.blocks
  | .assert key value => key.blocks + (optionPtr value).blocks
  | .assertExists key => key.blocks

def item : ItemData → SequenceItem
  | .set key value => .set key.bytes value.bytes
  | .delete key => .delete key.bytes
  | .assert key value => .assert key.bytes (value.map StringBlock.bytes)
  | .assertExists key => .assertExists key.bytes

end ItemData

def ItemObject.blocks (item : ItemObject) : Multiset Block := item.data.blocks + {.memory item.id}

def itemBlocks (items : List ItemObject) : Multiset Block := (items.map ItemObject.blocks).sum

namespace SequenceObject

def blocks (sequence : SequenceObject) : Multiset Block := itemBlocks sequence.items + {.memory sequence.id}

def sequence (sequence : SequenceObject) : Sequence := ⟨sequence.items.map fun item => item.data.item⟩

end SequenceObject

def chainBlocks (chains : List Nat) : Multiset Block := (chains.map fun id => {Block.addresses id}).sum

namespace NodeObject

def blocks (node : NodeObject) : Multiset Block :=
  {.memory node.nameId} + chainBlocks (node.address.map Prod.fst) + {.memory node.id}

def node (node : NodeObject) : ClusterNode := ⟨node.name, node.address.flatMap Prod.snd, none⟩

end NodeObject

def nodeBlocks (nodes : List NodeObject) : Multiset Block := (nodes.map NodeObject.blocks).sum

namespace ClusterObject

def blocks (cluster : ClusterObject) : Multiset Block :=
  {.memory cluster.nameId} + cluster.lastError.ptr.blocks + nodeBlocks cluster.nodes + {.memory cluster.id}

/-- The cluster as it was built, with no connection and no last error. -/
def cluster (cluster : ClusterObject) : Cluster :=
  (cluster.nodes.map NodeObject.node).foldr (fun node cluster => arakoonClusterAddNode cluster node)
    (arakoonClusterNew cluster.version cluster.name)

end ClusterObject

/-- A program on the store that starts with the blocks `hs` and then has those of `Q`. -/
abbrev InStore {α : Type} (m : StoreM α) (hs : Multiset Block) (Q : α → Multiset Block → Prop) : Prop :=
  Custody Store.account m hs Q

section Custody

variable {alloc : Nat → Bool}

theorem custody_malloc :
    InStore (storeMalloc alloc) 0 fun p hs => hs = p.elim 0 fun id => {.memory id} := by
  intro s others howns p s' hrun
  rw [zero_add] at howns
  simp only [storeMalloc, StateT.run] at hrun
  split_ifs at hrun
  · obtain ⟨rfl, rfl⟩ := Prod.mk.inj (Option.some.inj hrun)
    exact ⟨_, rfl, howns.opened _⟩
  · obtain ⟨rfl, rfl⟩ := Prod.mk.inj (Option.some.inj hrun)
    exact ⟨_, rfl, (zero_add others).symm ▸ howns⟩

theorem custody_mallocUnchecked : InStore (storeMallocUnchecked alloc) 0 fun id hs => hs = {.memory id} := by
  refine custody_malloc.bind fun p hs hp => ?_
  cases p with
  | none => exact .abort
  | some id => exact .pure hp

theorem custody_giveBack (b : Block) :
    InStore (fun s => some ((), s.giveBack b)) {b} fun _ hs => hs = 0 := by
  intro s others howns _ s' hrun
  obtain ⟨-, rfl⟩ := Prod.mk.inj (Option.some.inj hrun)
  exact ⟨0, rfl, (zero_add others).symm ▸ howns.closed⟩

theorem custody_free (p : Ptr) : InStore (storeFree p) p.blocks fun _ hs => hs = 0 := by
  cases p with
  | null => exact .pure rfl
  | zeroLength => exact custody_giveBack .zeroLength
  | block id => exact custody_giveBack (.memory id)

theorem custody_takeAddresses : InStore takeAddresses 0 fun id hs => hs = {.addresses id} := by
  intro s others howns id s' hrun
  obtain ⟨rfl, rfl⟩ := Prod.mk.inj (Option.some.inj hrun)
  exact ⟨_, rfl, (zero_add others ▸ howns).opened _⟩

theorem custody_freeaddrinfo (chains : List Nat) :
    InStore (freeaddrinfo chains) (chainBlocks chains) fun _ hs => hs = 0 := by
  induction chains with
  | nil => exact .pure rfl
  | cons id chains ih =>
      exact ((custody_giveBack (.addresses id)).bind_give fun _ => ih).congr List.sum_cons.symm

theorem custody_copyString (bs : Bytes) : InStore (copyString alloc bs) 0 fun s hs => hs = s.blocks :=
  custody_mallocUnchecked.bind fun _ _ hid => .pure hid

theorem custody_copyStringOption (value : StringOption) :
    InStore (copyStringOption alloc value) 0 fun s hs => hs = (optionPtr s).blocks := by
  cases value with
  | null size => exact .ite (fun _ => .abort) fun _ => .pure rfl
  | data value => exact (custody_copyString value).bind fun _ _ hcopy => .pure hcopy

theorem custody_copy (add : SequenceAdd) : InStore (add.copy alloc) 0 fun data hs => hs = data.blocks := by
  cases add with
  | set key value =>
      refine (custody_copyString key).bind_take fun k _ hkey =>
        (custody_copyString value).bind_take fun v _ hvalue => .pure ?_
      rw [hkey, hvalue, add_zero, add_comm]
      rfl
  | delete key => exact (custody_copyString key).bind fun _ _ hkey => .pure hkey
  | assert key value =>
      refine (custody_copyString key).bind_take fun k _ hkey =>
        (custody_copyStringOption value).bind_take fun v _ hvalue => .pure ?_
      rw [hkey, hvalue, add_zero, add_comm]
      rfl
  | assertExists key => exact (custody_copyString key).bind fun _ _ hkey => .pure hkey

theorem custody_sequenceNew : InStore (sequenceObjectNew alloc) 0 fun sequence hs =>
    hs = sequence.elim 0 SequenceObject.blocks := by
  refine custody_malloc.bind fun p hs hp => ?_
  cases p with
  | none => exact .pure hp
  | some id => exact .pure (hp.trans (zero_add _).symm)

theorem custody_sequenceAdd (sequence : SequenceObject) (add : SequenceAdd) :
    InStore (sequenceObjectAdd alloc sequence add) sequence.blocks fun out hs => hs = out.2.blocks := by
  refine custody_malloc.bind_take fun p hs hp => ?_
  cases p with
  | none => exact .pure (by rw [hp]; exact zero_add _)
  | some id =>
      refine (custody_copy add).bind_take fun data hs₁ hcopy => .pure ?_
      rw [hp, hcopy]
      simp only [SequenceObject.blocks, itemBlocks, ItemObject.blocks, List.map_cons, List.sum_cons, Option.elim_some]
      abel

theorem custody_itemFree (item : ItemObject) : InStore (itemObjectFree item) item.blocks fun _ hs => hs = 0 := by
  obtain ⟨id, data⟩ := item
  cases data with
  | set key value =>
      exact ((custody_free (.block key.id)).bind_give fun _ => custody_free (.block value.id)).bind_give fun _ =>
        custody_free (.block id)
  | delete key => exact (custody_free (.block key.id)).bind_give fun _ => custody_free (.block id)
  | assert key value =>
      exact ((custody_free (.block key.id)).bind_give fun _ => custody_free (optionPtr value)).bind_give fun _ =>
        custody_free (.block id)
  | assertExists key => exact (custody_free (.block key.id)).bind_give fun _ => custody_free (.block id)

theorem custody_sequenceFree (sequence : SequenceObject) :
    InStore (sequenceObjectFree sequence) sequence.blocks fun _ hs => hs = 0 := by
  have hitems : ∀ items, InStore (itemObjectsFree items) (itemBlocks items) fun _ hs => hs = 0 := by
    intro items
    induction items with
    | nil => exact .pure rfl
    | cons item items ih => exact ((custody_itemFree item).bind_give fun _ => ih).congr List.sum_cons.symm
  exact (hitems sequence.items).bind_give fun _ => custody_free (.block sequence.id)

theorem custody_namedNew {γ : Type} {own : γ → Multiset Block} {build : Nat → Nat → γ}
    (hbuild : ∀ id nameId, own (build id nameId) = {.memory nameId} + {.memory id}) :
    InStore (namedObjectNew alloc build) 0 fun object hs => hs = object.elim 0 own := by
  refine custody_malloc.bind fun p hs hp => ?_
  cases p with
  | none => exact .pure hp
  | some id =>
      refine custody_malloc.bind_take fun q hs₁ hq => ?_
      rw [hq, hp]
      cases q with
      | none =>
          refine (custody_free .null).bind_give fun _ => ?_
          exact (custody_free (.block id)).bind fun _ _ hnothing => .pure hnothing
      | some nameId => exact .pure (hbuild id nameId).symm

theorem custody_nodeNew (name : CString) : InStore (nodeObjectNew alloc name) 0 fun node hs =>
    hs = node.elim 0 NodeObject.blocks :=
  custody_namedNew fun _ _ => by simp [NodeObject.blocks, chainBlocks]

theorem addAddress_blocks (node : NodeObject) (chain : Nat × List Address) :
    (nodeObjectAddAddress node chain).blocks = {.addresses chain.1} + node.blocks := by
  simp only [NodeObject.blocks, nodeObjectAddAddress, chainBlocks, List.map_append, List.map_cons, List.map_nil,
    List.sum_append, List.sum_cons, List.sum_nil]
  abel

theorem custody_addAddressTcp (getaddrinfo : CString → CString → Option (List Address)) (node : NodeObject)
    (host service : CString) :
    InStore (nodeObjectAddAddressTcp getaddrinfo node host service) node.blocks fun out hs => hs = out.2.blocks := by
  unfold nodeObjectAddAddressTcp
  cases getaddrinfo host service with
  | none => exact .pure rfl
  | some result =>
      refine custody_takeAddresses.bind_take fun id _ hid => .pure ?_
      rw [hid, addAddress_blocks]

theorem custody_nodeFree (node : NodeObject) : InStore (nodeObjectFree node) node.blocks fun _ hs => hs = 0 := by
  refine Custody.congr ?_ (add_assoc _ _ _).symm
  refine (custody_free (.block node.nameId)).bind_give fun _ => ?_
  exact (custody_freeaddrinfo _).bind_give fun _ => custody_free (.block node.id)

theorem custody_clusterNew (version : ArakoonProtocolVersion) (name : CString) :
    InStore (clusterObjectNew alloc version name) 0 fun cluster hs => hs = cluster.elim 0 ClusterObject.blocks :=
  custody_namedNew fun _ _ => by simp [ClusterObject.blocks, nodeBlocks, Data.ptr, Ptr.blocks]

theorem addNode_blocks (cluster : ClusterObject) (node : NodeObject) :
    (clusterObjectAddNode cluster node).blocks = node.blocks + cluster.blocks := by
  simp only [ClusterObject.blocks, clusterObjectAddNode, nodeBlocks, List.map_cons, List.sum_cons]
  abel

/-- The message of an error is not empty. -/
theorem custody_operation {message : Option Bytes} (hmessage : message ≠ some []) (cluster : ClusterObject) :
    InStore (clusterObjectOperation alloc message cluster) cluster.blocks fun out hs => hs = out.blocks := by
  have hsplit : cluster.lastError.ptr.blocks + { cluster with lastError := .null }.blocks = cluster.blocks := by
    simp only [ClusterObject.blocks, Data.ptr, Ptr.blocks]
    abel
  refine Custody.congr ?_ hsplit
  refine (custody_free cluster.lastError.ptr).bind_give fun _ => ?_
  cases message with
  | none => exact .pure rfl
  | some bs =>
      refine .ite (fun hnil => absurd (congrArg some hnil) hmessage) fun _ => ?_
      refine custody_malloc.bind_take fun p hs hp => ?_
      cases p with
      | none => exact .pure (by rw [hp]; exact zero_add _)
      | some id =>
          refine .pure ?_
          rw [hp]
          simp only [ClusterObject.blocks, Data.ptr, Ptr.blocks, Option.elim_some]
          abel

theorem custody_clusterFree (cluster : ClusterObject) :
    InStore (clusterObjectFree cluster) cluster.blocks fun _ hs => hs = 0 := by
  have hnodes : ∀ nodes, InStore (nodeObjectsFree nodes) (nodeBlocks nodes) fun _ hs => hs = 0 := by
    intro nodes
    induction nodes with
    | nil => exact .pure rfl
    | cons node nodes ih => exact ((custody_nodeFree node).bind_give fun _ => ih).congr List.sum_cons.symm
  have hsplit : cluster.blocks = {.memory cluster.nameId} +
      (cluster.lastError.ptr.blocks + (nodeBlocks cluster.nodes + {.memory cluster.id})) := by
    simp only [ClusterObject.blocks, add_assoc]
  rw [hsplit]
  refine (custody_free (.block cluster.nameId)).bind_give fun _ => ?_
  refine (custody_free cluster.lastError.ptr).bind_give fun _ => ?_
  exact (hnodes cluster.nodes).bind_give fun _ => custody_free (.block cluster.id)

end Custody

/-! ### The functions agree with those on values -/

section Values

variable {alloc : Nat → Bool}

theorem ensures_copyString (bs : Bytes) (s : Store) :
    Ensures (copyString alloc bs) s fun copy _ => copy.bytes = bs :=
  Ensures.bind_any fun _ _ => .pure rfl

theorem ensures_copyStringOption (value : StringOption) (s : Store) :
    Ensures (copyStringOption alloc value) s fun copy _ =>
      copy.map StringBlock.bytes = value.value ∧ ∀ size, value = .null size → size = 0 := by
  cases value with
  | null size =>
      refine .ite (fun _ _ _ hrun => by cases hrun) fun hsize => .pure ⟨rfl, fun n hn => ?_⟩
      exact StringOption.null.inj hn ▸ not_ne_iff.mp hsize
  | data value =>
      refine (ensures_copyString value s).bind fun copy _ hcopy => .pure ⟨congrArg some hcopy, fun n hn => ?_⟩
      cases hn

/-- What is copied is what the call asks for. -/
theorem ensures_copy (add : SequenceAdd) (s : Store) :
    Ensures (add.copy alloc) s fun data _ => data.item = add.item ∧ add.Admissible := by
  cases add with
  | set key value =>
      refine (ensures_copyString key s).bind fun k s₁ hkey => (ensures_copyString value s₁).bind fun v s₂ hvalue => ?_
      exact .pure ⟨congrArg₂ SequenceItem.set hkey hvalue, trivial⟩
  | delete key =>
      exact (ensures_copyString key s).bind fun k s₁ hkey => .pure ⟨congrArg SequenceItem.delete hkey, trivial⟩
  | assert key value =>
      refine (ensures_copyString key s).bind fun k s₁ hkey =>
        (ensures_copyStringOption value s₁).bind fun v s₂ hvalue => ?_
      refine .pure ⟨congrArg₂ SequenceItem.assert hkey hvalue.1, ?_⟩
      cases value with
      | null size => exact hvalue.2 size rfl
      | data value => trivial
  | assertExists key =>
      exact (ensures_copyString key s).bind fun k s₁ hkey => .pure ⟨congrArg SequenceItem.assertExists hkey, trivial⟩

theorem run_admissible {add : SequenceAdd} (h : add.Admissible) (sequence : Sequence) :
    add.run sequence = some ⟨add.item :: sequence.items⟩ := by
  cases add with
  | assert key value =>
      cases value with
      | null size => exact if_neg (not_ne_iff.mpr h)
      | data value => rfl
  | _ => rfl

/-- A call that adds an item does, or it is refused memory and leaves the sequence as it was. -/
theorem ensures_sequenceAdd (sequence : SequenceObject) (add : SequenceAdd) (s : Store) :
    Ensures (sequenceObjectAdd alloc sequence add) s fun out _ =>
      out.1 = 0 ∧ out.2.id = sequence.id ∧ add.Admissible ∧ add.run sequence.sequence = some out.2.sequence ∨
        out.1 = enomem ∧ out.2 = sequence := by
  refine Ensures.bind_any fun p s₁ => ?_
  cases p with
  | none => exact .pure (.inr ⟨rfl, rfl⟩)
  | some id =>
      refine (ensures_copy add s₁).bind fun data s₂ hcopy => .pure (.inl ⟨rfl, rfl, hcopy.2, ?_⟩)
      rw [run_admissible hcopy.2, ← hcopy.1]
      rfl

/-- A request is granted or not as `alloc` says. -/
theorem yields_malloc (s : Store) :
    Yields (storeMalloc alloc) s fun p s' => p.isSome = alloc s.calls ∧ s'.calls = s.calls + 1 := by
  by_cases h : alloc s.calls = true
  · exact ⟨_, _, if_pos h, h.symm, rfl⟩
  · exact ⟨_, _, if_neg h, (Bool.eq_false_of_not_eq_true h).symm, rfl⟩

/-- An object and its name are built, or memory is refused and there is neither. -/
theorem yields_namedNew {γ : Type} (build : Nat → Nat → γ) (s : Store) :
    Yields (namedObjectNew alloc build) s fun object _ => (∀ n, alloc n = true) → object.isSome = true := by
  refine (yields_malloc s).bind fun p s₁ hp => ?_
  cases p with
  | none => exact .pure fun halloc => absurd (hp.1.trans (halloc s.calls)) Bool.false_ne_true
  | some id =>
      refine (yields_malloc s₁).bind fun q s₂ hq => ?_
      cases q with
      | none =>
          refine Yields.bind (P := fun _ _ => True) ⟨(), s₂, rfl, trivial⟩ fun _ s₃ _ => ?_
          refine Yields.bind (P := fun _ _ => True) ⟨(), _, rfl, trivial⟩ fun _ s₄ _ => ?_
          exact .pure fun halloc => absurd (hq.1.trans (halloc s₁.calls)) Bool.false_ne_true
      | some nameId => exact .pure fun _ => rfl

theorem yields_clusterNew (version : ArakoonProtocolVersion) (name : CString) (s : Store) :
    Yields (clusterObjectNew alloc version name) s fun cluster _ => (∀ n, alloc n = true) → cluster.isSome = true :=
  yields_namedNew _ s

theorem addNode_cluster (cluster : ClusterObject) (node : NodeObject) :
    (clusterObjectAddNode cluster node).cluster = arakoonClusterAddNode cluster.cluster node.node := rfl

end Values

end Crakoon
