import Crakoon.Descriptors
import Crakoon.Introduced
import Crakoon.Lines
import Crakoon.ReadySockets

/-!
# A cluster on descriptors

A cluster whose nodes have descriptors, with all its calls down to the system calls: the search for the master, which
opens connections, the requests for the master and the operations. Whatever the system calls of a run give, there is a
dialer with whose connections the same run has the same results (`cluster_on_host`): what is proved of clusters on
connections, for every dialer and every peer, holds for every schedule of system calls.
-/

namespace Crakoon

open Programs Networking

/-- `ArakoonClusterNode`, with all that was written on its descriptor. -/
structure HostNode where
  name : CString
  address : List Address
  fd : Int
  sent : Bytes

/-- `ArakoonCluster`, with what its calls work on. -/
structure Host where
  heap : Heap
  kernel : Kernel
  /-- The variable of the time limit. -/
  timeout : Int
  name : CString
  nodes : List NodeId
  node : NodeId → HostNode
  master : Option NodeId
  lastError : Data

namespace Host

/-- What a function that is given the node `k` works on. -/
def line (h : Host) (k : NodeId) : Line := ⟨h.heap, (h.node k).fd, h.lastError, h.timeout, h.kernel, (h.node k).sent⟩

def put (h : Host) (k : NodeId) (l : Line) : Host :=
  { h with
    heap := l.heap
    kernel := l.kernel
    timeout := l.timeout
    node := fun j => if j = k then { h.node k with fd := l.fd, sent := l.sent } else h.node j
    lastError := l.lastError }

/-- `_arakoon_cluster_get_master` -/
def getMaster (h : Host) : Option NodeId :=
  match h.master with
  | none => none
  | some k => if 0 ≤ (h.node k).fd then some k else none

end Host

abbrev HostM := Program Host

section Calls

variable (alloc : Nat → Bool) {α : Type}

def onHostNode (k : NodeId) (m : Program Line α) : HostM α := fun h =>
  (m.run (h.line k)).map fun out => (out.1, h.put k out.2)

/-- What a call of `_arakoon_networking_connect` leaves: the descriptor of the node, and the time limit. -/
def Host.connected (h : Host) (k : NodeId) (out : Connected) (kernel : Kernel) : Host :=
  { h with
    kernel := kernel
    timeout := out.timeout
    node := fun j => if j = k then { h.node k with fd := if out.rc = 0 then out.fd else -1, sent := [] } else h.node j }

/-- The call of `_arakoon_networking_connect` for a node. -/
def hostDial (k : NodeId) : HostM ArakoonRc := fun h =>
  ((connect (h.node k).address (h.node k).fd h.timeout).run h.kernel).map fun out =>
    (out.1.rc, h.connected k out.1 out.2)

/-- `_arakoon_cluster_node_connect` -/
def hostConnect (k : NodeId) : HostM ArakoonRc := fun h =>
  if 0 ≤ (h.node k).fd then some (ArakoonReturnCode.success.rc, h)
  else
    match (hostDial k).run h with
    | none => none
    | some (rc, h) =>
        if rc ≠ 0 then some (rc, h)
        else (onHostNode k ((NodeScript.prologue h.name).run (performOnLine alloc))).run h

/-- `_arakoon_cluster_node_who_master` -/
def hostWhoMaster (k : NodeId) (master : Data) : HostM (ArakoonRc × Data) :=
  onHostNode k ((NodeScript.whoMaster master).run (performOnLine alloc))

/-- `arakoon_mem_free` on a string of the search. -/
def hostFree (d : Data) : HostM Unit := fun h => some ((), { h with heap := h.heap.free d.ptr })

def hostSetMaster (k : NodeId) : HostM Unit := fun h => some ((), { h with master := some k })

/-- The loop over the nodes. -/
def hostFindNode : List NodeId → Data → HostM (Option NodeId × Data)
  | [], master => pure (none, master)
  | k :: ks, master => do
      let rc ← hostConnect alloc k
      if rc = 0 then do
        let (rc, master) ← hostWhoMaster alloc k master
        if rc = 0 ∧ master ≠ .null then pure (some k, master) else hostFindNode ks master
      else hostFindNode ks master

/-- The part of the search that connects to the node that is said to be the master and asks it. -/
def hostValidateMaster (j : NodeId) (master : Data) : HostM ArakoonRc := do
  let rc ← hostConnect alloc j
  if rc ≠ 0 then pure rc
  else do
    let (rc, master) ← hostWhoMaster alloc j master
    if rc ≠ 0 then pure rc
    else do
      let h ← get
      if master = .null ∨ (h.node j).name ≠ master.cString then do
        hostFree master
        pure ArakoonReturnCode.clientMasterNotFound.rc
      else do
        hostSetMaster j
        hostFree master
        pure ArakoonReturnCode.success.rc

/-- What the search does with the node that it has found, and with the name that this has given. -/
def hostSettleMaster (k : NodeId) (master : Data) : HostM ArakoonRc := do
  let h ← get
  if (h.node k).name = master.cString then do
    hostSetMaster k
    hostFree master
    pure ArakoonReturnCode.success.rc
  else do
    let found := h.nodes.find? fun j => (h.node j).name = master.cString
    hostFree master
    match found with
    | none => pure ArakoonReturnCode.clientUnknownNode.rc
    | some j => hostValidateMaster alloc j master

/-- `arakoon_cluster_connect_master`, once the variable of the time limit is set. -/
def hostConnectMaster : HostM ArakoonRc := do
  let h ← get
  let (node, master) ← hostFindNode alloc h.nodes .null
  match node with
  | none => pure ArakoonReturnCode.clientNetworkError.rc
  | some k => hostSettleMaster alloc k master

/-- The variable of the time limit is set. -/
def hostTimeout (timeout : Int) : HostM Unit := fun h => some ((), { h with timeout := timeout })

/-- `_arakoon_cluster_reset_last_error` -/
def hostResetLastError : HostM Unit := fun h =>
  some ((), { h with heap := h.heap.free h.lastError.ptr, lastError := .null })

/-- `ARAKOON_CLUSTER_GET_MASTER` after the reset of the last error. -/
def hostWithMaster (notConnected : α) (body : Program Line (ArakoonRc × α)) : HostM (ArakoonRc × α) := do
  hostResetLastError
  let h ← get
  match h.getMaster with
  | none => pure (ArakoonReturnCode.clientNotConnected.rc, notConnected)
  | some k => onHostNode k body

end Calls

/-- What a program does with a cluster. -/
inductive WorldCall where
  | operation (call : OperationCall)
  | whoMaster (master : Data)
  | connectMaster

/-- What it gets. -/
inductive WorldResult where
  | returned (out : Returned)
  | named (out : ArakoonRc × Data)
  | code (rc : ArakoonRc)

section Steps

variable (alloc : Nat → Bool)

def WorldCall.program (dial : Dialer) : WorldCall → ClientM WorldResult
  | .operation call => do
      let out ← Operation.run alloc call.1 call.2
      pure (.returned ⟨call.1.kind, out⟩)
  | .whoMaster master => do
      let out ← arakoonWhoMaster alloc master
      pure (.named out)
  | .connectMaster => do
      let rc ← arakoonClusterConnectMaster alloc dial
      pure (.code rc)

/-- A call that returns; one that aborts has no next state. -/
def worldStep (dial : Dialer) (call : WorldCall) (w : World) : Except Unit (WorldResult × World) :=
  match (call.program alloc dial).run w with
  | none => .error ()
  | some out => .ok out

/-- The same, with the time limit of the options. -/
inductive HostCall where
  | operation (call : LineCall alloc)
  | whoMaster (timeout : Int) (master : Data)
  | connectMaster (timeout : Int)

variable {alloc}

def HostCall.call : HostCall alloc → WorldCall
  | .operation call => .operation call.call
  | .whoMaster _ master => .whoMaster master
  | .connectMaster _ => .connectMaster

def HostCall.program : HostCall alloc → HostM WorldResult
  | .operation call => do
      hostTimeout call.timeout
      let out ← hostWithMaster (call.call.1.notConnected call.call.2) (call.script.run (performOnLine alloc))
      pure (.returned ⟨call.call.1.kind, out⟩)
  | .whoMaster timeout master => do
      hostTimeout timeout
      let out ← hostWithMaster master ((NodeScript.whoMaster master).run (performOnLine alloc))
      pure (.named out)
  | .connectMaster timeout => do
      hostTimeout timeout
      let rc ← hostConnectMaster alloc
      pure (.code rc)

def hostStep (call : HostCall alloc) (h : Host) : Except Unit (WorldResult × Host) :=
  match call.program.run h with
  | none => .error ()
  | some out => .ok out

end Steps

/-- The world shows what the host holds. -/
structure Host.Shows (h : Host) (w : World) : Prop where
  heap : w.heap = h.heap
  lastError : w.cluster.lastError = h.lastError
  name : w.cluster.name = h.name
  nodes : w.cluster.nodes = h.nodes
  master : w.cluster.master = h.master
  names : ∀ k, (w.cluster.node k).name = (h.node k).name
  addresses : ∀ k, (w.cluster.node k).address = (h.node k).address
  closed : ∀ k, (w.cluster.node k).conn = none → (h.node k).fd < 0
  opened : ∀ k c, (w.cluster.node k).conn = some c → 0 ≤ (h.node k).fd ∧ c.sent = (h.node k).sent

/-- What is to come: the peers of the connections that are open go on as planned, and the next connections are these. -/
structure Outlook where
  plan : NodeId → Plan
  dials : Nat → Except Failure Peer

/-- The world shows what the host holds, its peers go on as planned, and so does the dialer. -/
structure Host.Fits (waiting : NodeId → Bool) (outlook : Outlook) (h : Host) (t : World × Dialer) : Prop where
  shows : h.Shows t.1
  keeps : ∀ k, (t.1.session k).Keeps (waiting k) (outlook.plan k)
  dials : ∀ i address, t.2 (t.1.dials + i) address = outlook.dials i

section Shows

variable {h : Host} {w : World} {waiting : NodeId → Bool} {outlook : Outlook} {t : World × Dialer} {k : NodeId}

theorem Host.Shows.meets (hshows : h.Shows w) (k : NodeId) : (h.line k).Meets (w.session k) where
  heap := hshows.heap
  lastError := hshows.lastError
  closed := hshows.closed k
  opened := hshows.opened k

theorem Host.Shows.fd_iff (hshows : h.Shows w) (k : NodeId) :
    0 ≤ (h.node k).fd ↔ (w.cluster.node k).conn.isSome = true := (hshows.meets k).fd_iff

theorem Host.Shows.getMaster (hshows : h.Shows w) : w.cluster.getMaster = h.getMaster := by
  rw [Cluster.getMaster, Host.getMaster, hshows.master]
  cases h.master with
  | none => rfl
  | some k => exact if_congr (hshows.fd_iff k).symm rfl rfl

/-- What a function on the node `k` has left. -/
theorem Host.Shows.put {l : Line} {s : Session} (hshows : h.Shows w) (hmeets : l.Meets s) :
    (h.put k l).Shows (w.update k s) where
  heap := hmeets.heap
  lastError := hmeets.lastError
  name := hshows.name
  nodes := hshows.nodes
  master := hshows.master
  names := by
    intro j
    by_cases hj : j = k <;> simp [World.update, Cluster.setNode, Host.put, hj, hshows.names]
  addresses := by
    intro j
    by_cases hj : j = k <;> simp [World.update, Cluster.setNode, Host.put, hj, hshows.addresses]
  closed := by
    intro j hconn
    by_cases hj : j = k
    · subst hj
      rw [World.update_conn_self] at hconn
      simpa [Host.put] using hmeets.closed hconn
    · rw [World.update_conn_other hj] at hconn
      simpa [Host.put, hj] using hshows.closed j hconn
  opened := by
    intro j c hconn
    by_cases hj : j = k
    · subst hj
      rw [World.update_conn_self] at hconn
      simpa [Host.put] using hmeets.opened c hconn
    · rw [World.update_conn_other hj] at hconn
      simpa [Host.put, hj] using hshows.opened j c hconn

theorem Host.Fits.put {l : Line} {s : Session} {wait : Bool} {plan : Plan} (hshows : h.Shows t.1)
    (hothers : ∀ j, j ≠ k → (t.1.session j).Keeps (waiting j) (outlook.plan j))
    (hdials : ∀ i address, t.2 (t.1.dials + i) address = outlook.dials i) (hline : l.Fits wait plan s) :
    (h.put k l).Fits (Function.update waiting k wait)
      { outlook with plan := Function.update outlook.plan k plan } (t.1.update k s, t.2) where
  shows := hshows.put hline.1
  keeps := by
    intro j c hconn
    by_cases hj : j = k
    · subst hj
      have hself : s.conn = some c := (World.update_conn_self t.1 j s).symm.trans hconn
      simpa using hline.2 c hself
    · have hother : (t.1.cluster.node j).conn = some c := (World.update_conn_other hj t.1 s).symm.trans hconn
      simpa [hj] using hothers j hj c hother
  dials := hdials

end Shows

/-! ### Programs on both levels -/

section Programs

variable {alloc : Nat → Bool} {α β : Type} {k : NodeId}

theorem foretells_onHostNode {n : Program Line α} {m : SessionM α} (h : Foretells Line.Fits n m) :
    Foretells Host.Fits (onHostNode k n) (beside fun _ => onNode k m) := by
  intro s a s' hrun waiting
  obtain ⟨⟨b, l'⟩, hline, hout⟩ := Option.map_eq_some_iff.mp hrun
  obtain ⟨rfl, rfl⟩ := Prod.mk.inj hout
  obtain ⟨wait', hback⟩ := h _ _ _ hline (waiting k)
  refine ⟨Function.update waiting k wait', fun outlook' => ?_⟩
  obtain ⟨plan, hforth⟩ := hback (outlook'.plan k)
  refine ⟨{ outlook' with plan := Function.update outlook'.plan k plan }, fun t hfits => ?_⟩
  have hk : (t.1.session k).Keeps (waiting k) plan := by simpa using hfits.keeps k
  obtain ⟨s'', hsession, hfits'⟩ := hforth (t.1.session k) ⟨hfits.shows.meets k, hk⟩
  refine ⟨(t.1.update k s'', t.2), ?_, ?_⟩
  · change ((((m.run (t.1.session k)).map fun out => (out.1, t.1.update k out.2))).map
      fun out => (out.1, (out.2, t.2))) = _
    rw [hsession]
    rfl
  · have hothers : ∀ j, j ≠ k → (t.1.session j).Keeps (waiting j) (outlook'.plan j) := fun j hj => by
      simpa [hj] using hfits.keeps j
    have hput := Host.Fits.put hfits.shows hothers hfits.dials hfits'
    simpa using hput

/-- A program that changes neither the nodes nor the dialer. -/
theorem foretells_aside {n : HostM α} {m : ClientM α}
    (hsame : ∀ h a h', n.run h = some (a, h') → h'.node = h.node ∧ ∀ w, h.Shows w →
      ∃ w', m.run w = some (a, w') ∧ h'.Shows w' ∧ w'.dials = w.dials ∧
        ∀ k, (w'.cluster.node k).conn = (w.cluster.node k).conn) :
    Foretells Host.Fits n (beside fun _ => m) := by
  intro h a h' hrun waiting
  obtain ⟨hnode, hworld⟩ := hsame h a h' hrun
  refine ⟨waiting, fun outlook => ⟨outlook, fun t hfits => ?_⟩⟩
  obtain ⟨w', hrun', hshows, hdials, hconn⟩ := hworld t.1 hfits.shows
  refine ⟨(w', t.2), ?_, hshows, fun k c hc => hfits.keeps k c ((hconn k).symm.trans hc), ?_⟩
  · change ((m.run t.1).map _) = _
    rw [hrun']
    rfl
  · rw [hdials]
    exact hfits.dials

end Programs

theorem ensures_connectLoop_chosen (limit : Option (Int × Timespec)) (rounds : Nat) (fds : List Int) (now : Timespec)
    (k : Kernel) : Ensures (connectLoop limit rounds fds now) k fun out _ => out.rc = 0 → 0 ≤ out.theSocket := by
  induction rounds generalizing fds now k with
  | zero => exact fun out k' hrun => by cases hrun
  | succ rounds ih =>
      have hchecked : Ensures (checkTime limit now) k fun out _ => ∀ rc, out.1 = .error rc → rc ≠ 0 := by
        cases limit with
        | none => exact .pure fun rc h => by cases h
        | some limit =>
            refine Ensures.bind_any fun r _ => ?_
            cases r with
            | error e => exact .pure fun rc h => Except.error.inj h ▸ e.rc_ne_zero
            | ok now =>
                exact .ite (fun _ => .pure fun rc h => Except.error.inj h ▸ timedOut.2) fun _ =>
                  .pure fun rc h => (by cases h)
      refine hchecked.bind fun out k₁ hout => ?_
      obtain ⟨checked, now⟩ := out
      cases checked with
      | error rc => exact .pure fun hrc => absurd hrc (hout rc rfl)
      | ok left =>
          refine .ite (fun _ => .pure fun hrc => absurd hrc networkError.2) fun _ => ?_
          refine Ensures.bind_any fun r k₂ => ?_
          cases r with
          | error e => exact .pure fun hrc => absurd hrc e.rc_ne_zero
          | ok found =>
              refine .ite (fun _ => .pure fun hrc => absurd hrc timedOut.2) fun _ => ?_
              refine Ensures.bind_any fun scanned k₃ => .ite (fun hsock => ?_) fun _ => ih _ _ k₃
              exact Ensures.bind_any fun restored k₄ => .ite (fun _ => .pure fun _ => hsock) fun _ => ih _ _ k₄

/-- A connection that is handed out has a descriptor. -/
theorem ensures_connect_fd (addresses : List Address) (fd timeout : Int) (k : Kernel) :
    Ensures (connect addresses fd timeout) k fun out _ => out.rc = 0 → 0 ≤ out.fd := by
  refine .ite (fun _ => .pure fun hrc => absurd hrc timedOut.2) fun _ => Ensures.bind_any fun r k₁ => ?_
  cases r with
  | error e => exact .pure fun hrc => absurd hrc e.rc_ne_zero
  | ok start =>
      have hsettle : ∀ limit, Ensures (settle addresses limit) k₁ fun out _ => out.rc = 0 → 0 ≤ out.theSocket := by
        intro limit
        refine Ensures.bind_any fun opened k₂ => .ite (fun hsock => .pure fun _ => hsock) fun _ => ?_
        exact ensures_connectLoop_chosen limit _ _ _ k₂
      refine (hsettle _).bind fun settled k₂ hchosen => Ensures.bind_any fun _ k₃ => ?_
      have hfound : settled.rc = 0 → 0 ≤ if settled.rc = 0 then settled.theSocket else -1 := by
        intro hrc
        rw [if_pos hrc]
        exact hchosen hrc
      refine .ite (fun _ => .pure hfound) fun _ => Ensures.bind_any fun r k₄ => ?_
      cases r with
      | ok now => exact .pure hfound
      | error e =>
          refine .ite (fun _ => ?_) fun _ => .pure fun hrc => absurd hrc e.rc_ne_zero
          exact Ensures.bind_any fun _ k₅ => .pure fun hrc => absurd hrc e.rc_ne_zero

section Fresh

variable {alloc : Nat → Bool} {l l' : Line} {rc : ArakoonRc}

/-- Nothing has arrived on a new connection. -/
def Plan.fresh (plan : Plan) : Plan := { plan with front := [] }

theorem Plan.fresh_fits {plan : Plan} (hfront : plan.front = []) (hfd : 0 ≤ l.fd) (hsent : l.sent = []) :
    l.Fits false plan ⟨l.heap, some (.fresh plan.peer), l.lastError⟩ := by
  have hfits := plan.fits l
  rw [hfront, Line.session, if_pos hfd, hsent] at hfits
  exact hfits

/-- Where there is nothing to read, it does not matter what has arrived. -/
theorem Session.Keeps.of_fresh {s : Session} {plan : Plan} (h : s.Keeps true plan.fresh) : s.Keeps true plan := by
  intro c hc
  obtain ⟨hwaiting, hkeeps⟩ := h c hc
  refine ⟨hwaiting, hkeeps.writes, hkeeps.reads, hkeeps.answers, ?_⟩
  rw [if_neg (hwaiting.mpr rfl)]
  exact hkeeps.inbox.trans (if_neg (hwaiting.mpr rfl))

/-- What is written first on a new connection is written whole, or the connection is closed. -/
theorem writeBytes_fresh {bs : Bytes} (hbs : bs ≠ []) (hfd : 0 ≤ l.fd) (hsent : l.sent = [])
    (hrun : ((NodeScript.writeBytes bs).run (performOnLine alloc)).run l = some (rc, l')) :
    ∃ waiting', ∀ plan', ∃ peer s', (writeBytes bs).run ⟨l.heap, some (.fresh peer), l.lastError⟩ = some (rc, s') ∧
      l'.Fits waiting' plan' s' := by
  have hask : (NodeScript.write bs).run (performOnLine alloc) = performOnLine alloc (.write bs) :=
    Commands.run_ask (performOnLine alloc) (NodeCommand.write bs)
  rw [NodeScript.writeBytes, Commands.run_do, hask] at hrun
  obtain ⟨r, l₁, hwrite, hrest⟩ := bind_run_eq_some.mp hrun
  obtain ⟨moved, hmoved, hwhole, hfd₁, hforth⟩ := write_on_line hfd hwrite
  have hstart : ∀ plan' : Plan, (plan'.fresh.write (.of r moved.length) moved).front = [] := fun _ => ite_self _
  by_cases hr : r = 0
  · rw [if_neg (not_ne_iff.mpr hr)] at hrest
    obtain ⟨rfl, rfl⟩ := Prod.mk.inj (Option.some.inj hrest)
    refine ⟨true, fun plan' => ?_⟩
    obtain ⟨s', hsession, hfits⟩ := hforth false plan'.fresh _ (Plan.fresh_fits (hstart plan') hfd hsent)
    have hwaiting : (false || decide (moved ≠ [])) = true := by
      rw [hwhole hr]
      simpa using hbs
    rw [hwaiting] at hfits
    refine ⟨(plan'.fresh.write (.of r moved.length) moved).peer, s', ?_, hfits.1, hfits.2.of_fresh⟩
    refine bind_run_eq_some.mpr ⟨r, s', hsession, ?_⟩
    rw [if_neg (not_ne_iff.mpr hr)]
    rfl
  · rw [if_pos hr, Commands.run_do] at hrest
    obtain ⟨u, l₂, hclose, hpure⟩ := bind_run_eq_some.mp hrest
    obtain ⟨rfl, rfl⟩ := Prod.mk.inj (Option.some.inj hpure)
    have hdisconnect : NodeScript.disconnect.run (performOnLine alloc) = performOnLine alloc .disconnect :=
      Commands.run_ask (performOnLine alloc) NodeCommand.disconnect
    rw [hdisconnect] at hclose
    refine ⟨false, fun plan' => ?_⟩
    obtain ⟨s₁, hsession, hfits⟩ := hforth false plan'.fresh _ (Plan.fresh_fits (hstart plan') hfd hsent)
    obtain ⟨s', hclosed, hmeets, hnone⟩ := disconnect_on_line hclose hfits.1
    refine ⟨(plan'.fresh.write (.of r moved.length) moved).peer, s', ?_, hmeets, fun c hc => ?_⟩
    · refine bind_run_eq_some.mpr ⟨r, s₁, hsession, ?_⟩
      rw [if_pos hr]
      exact bind_run_eq_some.mpr ⟨u, s', hclosed, rfl⟩
    · rw [hnone] at hc
      cases hc

variable (halloc : ∀ n, alloc n = true)
include halloc

/-- A command that is the first on a new connection. -/
theorem sendCommand_fresh {c : Command} (hc : ∀ {bs}, c.assembled = some bs → bs ≠ []) (hfd : 0 ≤ l.fd)
    (hsent : l.sent = []) (hrun : ((NodeScript.sendCommand c).run (performOnLine alloc)).run l = some (rc, l')) :
    ∃ waiting', ∀ plan', ∃ peer s',
      (sendCommand alloc c).run ⟨l.heap, some (.fresh peer), l.lastError⟩ = some (rc, s') ∧
        l'.Fits waiting' plan' s' := by
  rw [NodeScript.sendCommand, Commands.run_do] at hrun
  obtain ⟨command, l₁, hmalloc, hrest⟩ := bind_run_eq_some.mp hrun
  have hgranted : alloc l.heap.calls = true := halloc _
  have hmalloc' : some ((l.heap.malloc alloc).1, { l with heap := (l.heap.malloc alloc).2 }) = some (command, l₁) :=
    hmalloc
  obtain ⟨rfl, rfl⟩ := Prod.mk.inj (Option.some.inj hmalloc')
  have hsome : (l.heap.malloc alloc).1 = some l.heap.next := by simp [Heap.malloc, hgranted]
  rw [hsome] at hrest
  cases hassembled : c.assembled with
  | none =>
      simp only [hassembled] at hrest
      cases hrest
  | some bs =>
      simp only [hassembled, Commands.run_do] at hrest
      obtain ⟨r, l₂, hwrite, htail⟩ := bind_run_eq_some.mp hrest
      obtain ⟨waiting₁, hforth⟩ :=
        writeBytes_fresh (l := { l with heap := (l.heap.malloc alloc).2 }) (hc hassembled) hfd hsent hwrite
      have hfree : Foretells Line.Fits
          ((do NodeScript.free (.block l.heap.next); pure r : NodeScript ArakoonRc).run (performOnLine alloc))
          ((do NodeScript.free (.block l.heap.next); pure r : NodeScript ArakoonRc).run (NodeCommand.perform alloc)) :=
        .commands foretells_command _
      obtain ⟨waiting', hback⟩ := hfree l₂ rc l' htail waiting₁
      refine ⟨waiting', fun plan' => ?_⟩
      obtain ⟨plan₁, htail'⟩ := hback plan'
      obtain ⟨peer, s₁, hwrite', hfits⟩ := hforth plan₁
      obtain ⟨s', hfreed, hfits'⟩ := htail' s₁ hfits
      refine ⟨peer, s', ?_, hfits'⟩
      rw [sendCommand, sendBlock, hassembled, bind_run, memNew_granted hgranted]
      exact bind_run_eq_some.mpr ⟨bs, _, rfl, bind_run_eq_some.mpr ⟨r, s₁, hwrite', hfreed⟩⟩

end Fresh

section Connecting

variable {alloc : Nat → Bool} {h : Host} {w : World} {k : NodeId}

/-- A connection has been opened for the node `k`. -/
theorem Host.Shows.dialed (hshows : h.Shows w) {out : Connected} (kernel : Kernel) (hrc : out.rc = 0)
    (hfd : 0 ≤ out.fd) (peer : Peer) : (h.connected k out kernel).Shows (w.dialed k peer) where
  heap := hshows.heap
  lastError := hshows.lastError
  name := hshows.name
  nodes := hshows.nodes
  master := hshows.master
  names := by
    intro j
    by_cases hj : j = k <;> simp [World.dialed, Cluster.setNode, Host.connected, hj, hshows.names]
  addresses := by
    intro j
    by_cases hj : j = k <;> simp [World.dialed, Cluster.setNode, Host.connected, hj, hshows.addresses]
  closed := by
    intro j hconn
    by_cases hj : j = k
    · simp [World.dialed, Cluster.setNode, hj] at hconn
    · simp only [World.dialed, Cluster.setNode, if_neg hj] at hconn
      simpa [Host.connected, hj] using hshows.closed j hconn
  opened := by
    intro j c hconn
    by_cases hj : j = k
    · subst hj
      simp only [World.dialed, Cluster.setNode, if_pos] at hconn
      obtain rfl := Option.some.inj hconn
      simpa [Host.connected, hrc] using ⟨hfd, rfl⟩
    · simp only [World.dialed, Cluster.setNode, if_neg hj] at hconn
      simpa [Host.connected, hj] using hshows.opened j c hconn

/-- No connection has been opened for the node `k`, and there was none. -/
theorem Host.Shows.undialed (hshows : h.Shows w) (hfd : (h.node k).fd < 0) {out : Connected} (kernel : Kernel)
    (hrc : out.rc ≠ 0) : (h.connected k out kernel).Shows { w with dials := w.dials + 1 } where
  heap := hshows.heap
  lastError := hshows.lastError
  name := hshows.name
  nodes := hshows.nodes
  master := hshows.master
  names := by
    intro j
    by_cases hj : j = k <;> simp [Host.connected, hj, hshows.names]
  addresses := by
    intro j
    by_cases hj : j = k <;> simp [Host.connected, hj, hshows.addresses]
  closed := by
    intro j hconn
    by_cases hj : j = k
    · simp [Host.connected, hj, hrc]
    · simpa [Host.connected, hj] using hshows.closed j hconn
  opened := by
    intro j c hconn
    by_cases hj : j = k
    · subst hj
      have hopen := (hshows.opened j c hconn).1
      omega
    · simpa [Host.connected, hj] using hshows.opened j c hconn

theorem onNode_run {α : Type} (m : SessionM α) (w : World) :
    (onNode k m).run w = (m.run (w.session k)).map fun out => (out.1, w.update k out.2) := rfl

theorem clusterNodeConnect_dialed {dial : Dialer} {peer : Peer} (hclosed : (w.cluster.node k).conn = none)
    (hdial : dial w.dials (w.cluster.node k).address = .ok peer) : (clusterNodeConnect alloc dial k).run w =
      (onNode k (sendCommand alloc (prologueCommand w.cluster.name))).run (w.dialed k peer) := by
  simp only [StateT.run, clusterNodeConnect, hclosed, hdial]

theorem clusterNodeConnect_failed {dial : Dialer} {failure : Failure} (hclosed : (w.cluster.node k).conn = none)
    (hdial : dial w.dials (w.cluster.node k).address = .error failure) :
    (clusterNodeConnect alloc dial k).run w = some (failure.1, { w with dials := w.dials + 1 }) := by
  simp only [StateT.run, clusterNodeConnect, hclosed, hdial]

/-- Behind a dial, the others come as planned. -/
theorem Host.Fits.dials_next {h : Host} {waiting : NodeId → Bool} {outlook : Outlook} {t : World × Dialer}
    {result : Except Failure Peer}
    (hfits : h.Fits waiting { outlook with dials := ahead result outlook.dials } t) (i : Nat) (address : List Address) :
    t.2 (t.1.dials + 1 + i) address = outlook.dials i := by
  have hnext := hfits.dials (i + 1) address
  rw [← Nat.add_assoc, Nat.add_right_comm] at hnext
  exact hnext

/-- An attempt to connect is a call of the dialer, with the prologue on the connection that it gives. -/
theorem foretells_hostConnect (halloc : ∀ n, alloc n = true) (k : NodeId) :
    Foretells Host.Fits (hostConnect alloc k) (beside fun dial => clusterNodeConnect alloc dial k) := by
  intro h rc h' hrun waiting
  simp only [hostConnect, hostDial, StateT.run] at hrun
  by_cases hfd : 0 ≤ (h.node k).fd
  · rw [if_pos hfd] at hrun
    obtain ⟨rfl, rfl⟩ := Prod.mk.inj (Option.some.inj hrun)
    refine ⟨waiting, fun outlook => ⟨outlook, fun t hfits => ⟨t, ?_, hfits⟩⟩⟩
    obtain ⟨c, hc⟩ := Option.isSome_iff_exists.mp ((hfits.shows.fd_iff k).mp hfd)
    simp [beside, StateT.run, clusterNodeConnect, hc]
  · rw [if_neg hfd] at hrun
    have hclosed : ∀ {outlook t}, h.Fits waiting outlook t → (t.1.cluster.node k).conn = none := fun hfits =>
      Option.not_isSome_iff_eq_none.mp fun hsome => hfd ((hfits.shows.fd_iff k).mpr hsome)
    cases hconnect : (connect (h.node k).address (h.node k).fd h.timeout).run h.kernel with
    | none =>
        simp only [StateT.run] at hconnect
        simp only [hconnect] at hrun
        cases hrun
    | some out =>
        obtain ⟨out, kernel⟩ := out
        have hfound := ensures_connect_fd _ _ _ _ out kernel hconnect
        simp only [StateT.run] at hconnect
        simp only [hconnect, Option.map_some] at hrun
        by_cases hrc : out.rc = 0
        · rw [if_neg (not_ne_iff.mpr hrc)] at hrun
          obtain ⟨⟨rc', l'⟩, hline, hout⟩ := Option.map_eq_some_iff.mp hrun
          obtain ⟨rfl, rfl⟩ := Prod.mk.inj hout
          have hopen : 0 ≤ ((h.connected k out kernel).line k).fd := by
            simpa [Host.line, Host.connected, hrc] using hfound hrc
          have hempty : ((h.connected k out kernel).line k).sent = [] := by simp [Host.line, Host.connected]
          obtain ⟨wait', hforth⟩ := sendCommand_fresh halloc prologue_ne_nil hopen hempty hline
          refine ⟨Function.update waiting k wait', fun outlook' => ?_⟩
          obtain ⟨peer, s', hsend, hfits'⟩ := hforth (outlook'.plan k)
          refine ⟨{ outlook' with dials := ahead (.ok peer) outlook'.dials }, fun t hfits => ?_⟩
          have hshows := hfits.shows.dialed (k := k) kernel hrc (hfound hrc) peer
          have hothers : ∀ j, j ≠ k → ((t.1.dialed k peer).session j).Keeps (waiting j) (outlook'.plan j) := by
            intro j hj c hc
            have hother : (t.1.cluster.node j).conn = some c := by
              simpa [World.session, World.dialed, Cluster.setNode, hj] using hc
            exact hfits.keeps j c hother
          have hput := Host.Fits.put (t := (t.1.dialed k peer, t.2)) hshows hothers hfits.dials_next hfits'
          rw [Function.update_eq_self] at hput
          refine ⟨((t.1.dialed k peer).update k s', t.2), ?_, hput⟩
          refine beside_run.mpr ⟨(clusterNodeConnect_dialed (hclosed hfits) (hfits.dials 0 _)).trans ?_, rfl⟩
          have hsession : (t.1.dialed k peer).session k = ⟨h.heap, some (.fresh peer), h.lastError⟩ := by
            rw [World.session, World.dialed, hfits.shows.heap]
            simp [Cluster.setNode, hfits.shows.lastError]
          rw [hfits.shows.name, onNode_run, hsession]
          exact congrArg (Option.map fun out => (out.1, (t.1.dialed k peer).update k out.2)) hsend
        · rw [if_pos hrc] at hrun
          obtain ⟨rfl, rfl⟩ := Prod.mk.inj (Option.some.inj hrun)
          refine ⟨waiting, fun outlook' =>
            ⟨{ outlook' with dials := ahead (.error ⟨out.rc, hrc⟩) outlook'.dials }, fun t hfits => ?_⟩⟩
          refine ⟨({ t.1 with dials := t.1.dials + 1 }, t.2), ?_,
            hfits.shows.undialed (by omega) kernel hrc, hfits.keeps, hfits.dials_next⟩
          exact beside_run.mpr ⟨clusterNodeConnect_failed (hclosed hfits) (hfits.dials 0 _), rfl⟩

end Connecting

/-! ### The search -/

/-- What a search on connections does with the node that it has found. -/
def settleMaster (alloc : Nat → Bool) (dial : Dialer) (k : NodeId) (master : Data) : ClientM ArakoonRc := do
  let w ← get
  if (w.cluster.node k).name = master.cString then do
    setMaster k
    freeString master
    pure ArakoonReturnCode.success.rc
  else do
    let found := w.cluster.nodes.find? fun j => (w.cluster.node j).name = master.cString
    freeString master
    match found with
    | none => pure ArakoonReturnCode.clientUnknownNode.rc
    | some j => validateMaster alloc dial j master

section Search

variable {alloc : Nat → Bool} {α : Type} {k : NodeId}

theorem foretells_script {m : SessionM α} (script : NodeScript α) (hscript : script.run (NodeCommand.perform alloc) = m) :
    Foretells Host.Fits (onHostNode k (script.run (performOnLine alloc))) (beside fun _ => onNode k m) :=
  foretells_onHostNode (hscript ▸ .commands foretells_command script)

theorem foretells_pure (a : α) : Foretells Host.Fits (pure a) (beside fun _ => pure a) := .pure a

theorem foretells_hostFree (d : Data) : Foretells Host.Fits (hostFree d) (beside fun _ => freeString d) := by
  refine foretells_aside fun h a h' hrun => ?_
  obtain ⟨rfl, rfl⟩ := Prod.mk.inj (Option.some.inj hrun)
  refine ⟨rfl, fun w hshows => ⟨_, rfl, { hshows with heap := ?_ }, rfl, fun _ => rfl⟩⟩
  exact congrArg (fun heap => heap.free d.ptr) hshows.heap

theorem foretells_hostSetMaster (k : NodeId) : Foretells Host.Fits (hostSetMaster k) (beside fun _ => setMaster k) := by
  refine foretells_aside fun h a h' hrun => ?_
  obtain ⟨rfl, rfl⟩ := Prod.mk.inj (Option.some.inj hrun)
  exact ⟨rfl, fun w hshows => ⟨_, rfl, { hshows with master := rfl }, rfl, fun _ => rfl⟩⟩

variable (halloc : ∀ n, alloc n = true)
include halloc

theorem foretells_hostFindNode (ks : List NodeId) (master : Data) :
    Foretells Host.Fits (hostFindNode alloc ks master) (beside fun dial => findNode alloc dial ks master) := by
  induction ks generalizing master with
  | nil => exact foretells_pure _
  | cons k ks ih =>
      simp only [hostFindNode, findNode, beside_bind]
      refine (foretells_hostConnect halloc k).bind fun rc => ?_
      by_cases hrc : rc = 0
      · simp only [if_pos hrc, beside_bind]
        refine (foretells_script (NodeScript.whoMaster master) (run_whoMaster alloc master)).bind fun out => ?_
        by_cases hout : out.1 = 0 ∧ out.2 ≠ .null
        · simp only [if_pos hout]
          exact foretells_pure _
        · simp only [if_neg hout]
          exact ih out.2
      · simp only [if_neg hrc]
        exact ih master

theorem foretells_hostValidateMaster (j : NodeId) (master : Data) :
    Foretells Host.Fits (hostValidateMaster alloc j master)
      (beside fun dial => validateMaster alloc dial j master) := by
  simp only [hostValidateMaster, validateMaster, beside_bind]
  refine (foretells_hostConnect halloc j).bind fun rc => ?_
  by_cases hrc : rc ≠ 0
  · simp only [if_pos hrc]
    exact foretells_pure rc
  · simp only [if_neg hrc, beside_bind]
    refine (foretells_script (NodeScript.whoMaster master) (run_whoMaster alloc master)).bind fun out => ?_
    by_cases hout : out.1 ≠ 0
    · simp only [if_pos hout]
      exact foretells_pure out.1
    · simp only [if_neg hout]
      refine Foretells.read (fun h : Host => (h.node j).name) (fun t : World × Dialer => (t.1.cluster.node j).name)
        (fun hfits => (hfits.shows.names j).symm)
        (f := fun name =>
          if out.2 = .null ∨ name ≠ out.2.cString then do
            hostFree out.2
            pure ArakoonReturnCode.clientMasterNotFound.rc
          else do
            hostSetMaster j
            hostFree out.2
            pure ArakoonReturnCode.success.rc)
        (g := fun name => beside fun _ =>
          if out.2 = .null ∨ name ≠ out.2.cString then do
            freeString out.2
            pure ArakoonReturnCode.clientMasterNotFound.rc
          else do
            setMaster j
            freeString out.2
            pure ArakoonReturnCode.success.rc) fun name => ?_
      by_cases hname : out.2 = .null ∨ name ≠ out.2.cString
      · simp only [if_pos hname, beside_bind]
        exact (foretells_hostFree out.2).bind fun _ => foretells_pure _
      · simp only [if_neg hname, beside_bind]
        exact (foretells_hostSetMaster j).bind fun _ => (foretells_hostFree out.2).bind fun _ => foretells_pure _

theorem foretells_hostSettleMaster (k : NodeId) (master : Data) :
    Foretells Host.Fits (hostSettleMaster alloc k master) (beside fun dial => settleMaster alloc dial k master) := by
  have hfound : ∀ {waiting outlook h t}, Host.Fits waiting outlook h t →
      h.nodes.find? (fun j => decide ((h.node j).name = master.cString)) =
        t.1.cluster.nodes.find? fun j => decide ((t.1.cluster.node j).name = master.cString) := by
    intro waiting outlook h t hfits
    simp only [hfits.shows.nodes, hfits.shows.names]
  refine Foretells.read
    (fun h : Host => ((h.node k).name, h.nodes.find? fun j => (h.node j).name = master.cString))
    (fun t : World × Dialer =>
      ((t.1.cluster.node k).name, t.1.cluster.nodes.find? fun j => (t.1.cluster.node j).name = master.cString))
    (fun hfits => Prod.ext (hfits.shows.names k).symm (hfound hfits))
    (f := fun look =>
      if look.1 = master.cString then do
        hostSetMaster k
        hostFree master
        pure ArakoonReturnCode.success.rc
      else do
        hostFree master
        match look.2 with
        | none => pure ArakoonReturnCode.clientUnknownNode.rc
        | some j => hostValidateMaster alloc j master)
    (g := fun look => beside fun dial =>
      if look.1 = master.cString then do
        setMaster k
        freeString master
        pure ArakoonReturnCode.success.rc
      else do
        freeString master
        match look.2 with
        | none => pure ArakoonReturnCode.clientUnknownNode.rc
        | some j => validateMaster alloc dial j master) fun look => ?_
  obtain ⟨name, found⟩ := look
  by_cases hname : name = master.cString
  · simp only [if_pos hname, beside_bind]
    exact (foretells_hostSetMaster k).bind fun _ => (foretells_hostFree master).bind fun _ => foretells_pure _
  · simp only [if_neg hname, beside_bind]
    refine (foretells_hostFree master).bind fun _ => ?_
    cases found with
    | none => exact foretells_pure _
    | some j => exact foretells_hostValidateMaster halloc j master

/-- The search on descriptors is a search on connections. -/
theorem foretells_hostConnectMaster :
    Foretells Host.Fits (hostConnectMaster alloc) (beside fun dial => arakoonClusterConnectMaster alloc dial) := by
  refine Foretells.read (fun h : Host => h.nodes) (fun t : World × Dialer => t.1.cluster.nodes)
    (fun hfits => hfits.shows.nodes.symm)
    (f := fun nodes => hostFindNode alloc nodes .null >>= fun out =>
      match out.1 with
      | none => pure ArakoonReturnCode.clientNetworkError.rc
      | some k => hostSettleMaster alloc k out.2)
    (g := fun nodes => beside fun dial => findNode alloc dial nodes .null >>= fun out =>
      match out.1 with
      | none => pure ArakoonReturnCode.clientNetworkError.rc
      | some k => settleMaster alloc dial k out.2) fun nodes => ?_
  rw [beside_bind]
  refine (foretells_hostFindNode halloc nodes .null).bind fun out => ?_
  obtain ⟨node, master⟩ := out
  cases node with
  | none => exact foretells_pure _
  | some k => exact foretells_hostSettleMaster halloc k master

end Search

/-! ### Calls and runs -/

section Calls

variable {alloc : Nat → Bool} {α : Type}

/-- The time limit is only in the variable. -/
theorem foretells_timed (timeout : Int) {n : HostM α} {m : Dialer → ClientM α} (h : Foretells Host.Fits n (beside m)) :
    Foretells Host.Fits (do hostTimeout timeout; n) (beside m) := by
  have htimeout : Foretells Host.Fits (hostTimeout timeout) (pure () : Program (World × Dialer) Unit) := by
    refine foretells_aside (m := pure ()) fun h a h' hrun => ?_
    obtain ⟨rfl, rfl⟩ := Prod.mk.inj (Option.some.inj hrun)
    exact ⟨rfl, fun w hshows => ⟨w, rfl, { hshows with }, rfl, fun _ => rfl⟩⟩
  have hboth := htimeout.bind fun _ => h
  rwa [pure_bind] at hboth

theorem foretells_hostResetLastError :
    Foretells Host.Fits hostResetLastError (beside fun _ => clusterResetLastError) := by
  refine foretells_aside fun h a h' hrun => ?_
  obtain ⟨rfl, rfl⟩ := Prod.mk.inj (Option.some.inj hrun)
  refine ⟨rfl, fun w hshows => ⟨_, rfl, { hshows with heap := ?_, lastError := rfl }, rfl, fun _ => rfl⟩⟩
  change w.heap.free w.cluster.lastError.ptr = _
  rw [hshows.heap, hshows.lastError]

theorem foretells_hostWithMaster (missing : α) {body : Program Line (ArakoonRc × α)}
    {body' : SessionM (ArakoonRc × α)} (h : Foretells Line.Fits body body') :
    Foretells Host.Fits (hostWithMaster missing body) (beside fun _ => withMaster missing body') := by
  have hmaster : withMaster missing body' = clusterResetLastError >>= fun _ => fun w =>
      ((match w.cluster.getMaster with
        | none => pure (ArakoonReturnCode.clientNotConnected.rc, missing)
        | some k => onNode k body' : ClientM (ArakoonRc × α))).run w := by
    rw [withMaster]
    refine congrArg _ (funext fun _ => funext fun w => ?_)
    cases w.cluster.getMaster <;> rfl
  rw [hmaster, beside_bind]
  refine foretells_hostResetLastError.bind fun _ => ?_
  refine Foretells.read Host.getMaster (fun t : World × Dialer => t.1.cluster.getMaster)
    (fun hfits => hfits.shows.getMaster.symm)
    (f := fun master => match master with
      | none => pure (ArakoonReturnCode.clientNotConnected.rc, missing)
      | some k => onHostNode k body)
    (g := fun master => beside fun _ => match master with
      | none => pure (ArakoonReturnCode.clientNotConnected.rc, missing)
      | some k => onNode k body') fun master => ?_
  cases master with
  | none => exact foretells_pure _
  | some k => exact foretells_onHostNode h

theorem hostStep_ok {call : HostCall alloc} {h h' : Host} {b : WorldResult} (hok : hostStep call h = .ok (b, h')) :
    call.program.run h = some (b, h') := by
  unfold hostStep at hok
  split at hok
  · cases hok
  · rename_i out hrun
    rw [hrun, Except.ok.inj hok]

variable (halloc : ∀ n, alloc n = true)
include halloc

theorem foretells_call (call : HostCall alloc) :
    Foretells Host.Fits call.program (beside fun dial => call.call.program alloc dial) := by
  cases call with
  | operation call =>
      have hscript : Foretells Line.Fits (call.script.run (performOnLine alloc))
          (call.script.run (NodeCommand.perform alloc)) := .commands foretells_command call.script
      rw [call.performs] at hscript
      refine foretells_timed call.timeout ?_
      simp only [HostCall.call, WorldCall.program, beside_bind, Operation.run_eq]
      exact (foretells_hostWithMaster _ hscript).bind fun out => foretells_pure _
  | whoMaster timeout master =>
      have hscript : Foretells Line.Fits ((NodeScript.whoMaster master).run (performOnLine alloc))
          ((NodeScript.whoMaster master).run (NodeCommand.perform alloc)) := .commands foretells_command _
      rw [run_whoMaster] at hscript
      refine foretells_timed timeout ?_
      simp only [HostCall.call, WorldCall.program, beside_bind, arakoonWhoMaster]
      exact (foretells_hostWithMaster _ hscript).bind fun out => foretells_pure _
  | connectMaster timeout =>
      refine foretells_timed timeout ?_
      simp only [HostCall.call, WorldCall.program, beside_bind]
      exact (foretells_hostConnectMaster halloc).bind fun rc => foretells_pure _

/-- Whatever the system calls give in a run of searches, requests for the master and operations on a cluster that is
not connected, there is a dialer with which the run is one on connections: all calls return the same, and in the end
memory, the last error, the master, which nodes are connected and what was written on their connections are the same. -/
theorem cluster_on_host {start h : Host} (hstart : ∀ k, (start.node k).fd < 0)
    {history : List (HostCall alloc × WorldResult)} (hrun : Run hostStep (fun _ _ => True) start history h) :
    ∃ dial, ∀ w : World, w.dials = 0 → start.Shows w →
      ∃ w', Run (worldStep alloc dial) (fun _ _ => True) w (history.map (Prod.map HostCall.call id)) w' ∧
        h.Shows w' := by
  have hstep : ∀ (call : HostCall alloc) s b s', hostStep call s = .ok (b, s') → ∀ past, ∃ past', ∀ future', ∃ future,
      ∀ t, Host.Fits past future s t →
        ∃ t', besideStep (worldStep alloc) call.call t = .ok (id b, t') ∧ Host.Fits past' future' s' t' := by
    intro call s b s' hok past
    obtain ⟨past', hback⟩ := foretells_call halloc call s b s' (hostStep_ok hok) past
    refine ⟨past', fun future' => ?_⟩
    obtain ⟨future, hforth⟩ := hback future'
    refine ⟨future, fun t hfits => ?_⟩
    obtain ⟨t', hrun', hfits'⟩ := hforth t hfits
    obtain ⟨hworld, hsame⟩ := beside_run.mp hrun'
    exact ⟨t', besideStep_ok.mpr ⟨by rw [worldStep, hworld]; rfl, hsame⟩, hfits'⟩
  obtain ⟨waiting, hback⟩ :=
    Run.foretold HostCall.call id (fun _ _ => True) (fun _ _ => trivial) hstep hrun fun _ => false
  obtain ⟨outlook, hforth⟩ :=
    hback ⟨fun _ => ⟨fun _ => .complete, fun _ => none, fun _ => [], []⟩, fun _ => .error networkError⟩
  refine ⟨fun n _ => outlook.dials n, fun w hdials hshows => ?_⟩
  have hclosed : ∀ k, (w.cluster.node k).conn = none := fun k =>
    Option.not_isSome_iff_eq_none.mp fun hsome => absurd ((hshows.fd_iff k).mpr hsome) (not_le.mpr (hstart k))
  have hfits : start.Fits (fun _ => false) outlook (w, fun n _ => outlook.dials n) := by
    refine ⟨hshows, fun k c hc => ?_, fun i _ => ?_⟩
    · cases (hclosed k).symm.trans hc
    · rw [hdials, Nat.zero_add]
  obtain ⟨t', hrun', hfits'⟩ := hforth _ hfits
  exact ⟨t'.1, (@Run.of_beside _ _ _ _ _ (worldStep alloc) (fun _ _ => True) _ _ _ hrun').1, hfits'.shows⟩

end Calls

/-- The socket is connected after a while. The prologue is written in two pieces, the answer of the node is read in
four, and the request is answered. -/
def sampleHost : Host where
  heap := Heap.empty
  kernel :=
    { answers :=
        [.clock .start (.ok ⟨0, 0⟩), .socket (.ok 5), .fcntl (.ok ()), .fcntl (.ok ()),
          .connect (.error einprogress), .poll (.ok (1, [onlyWritable])), .fcntl (.ok ()),
          .write (.ok 5), .write (.ok 8), .write (.ok 4), .read (.ok [0, 0, 0, 0]), .read (.ok [1]),
          .read (.ok [1, 0, 0, 0]), .read (.ok [99]), .write (.ok 14), .read (.ok [0, 0, 0, 0])]
      log := [] }
  timeout := 0
  name := sampleName
  nodes := [0]
  node := fun _ => ⟨sampleName, [0], -1, []⟩
  master := none
  lastError := .null

/-- The descriptor of the node, once the kernel has given as many answers. -/
def sampleHostLine (heap : Heap) (used : Nat) (sent : Bytes) : Line where
  heap := heap
  fd := 5
  lastError := .null
  timeout := infiniteTimeout
  kernel := ⟨sampleHost.kernel.answers.drop used, [.poll [5] (-1), .socket 5]⟩
  sent := sent

/-- The heap after a command. -/
def sampleCommand (heap : Heap) : Heap := (heap.malloc fun _ => true).2.free (.block heap.next)

/-- The heap when the node has been asked: the block of its name was the third, and is now the fourth. -/
def sampleHeapAsked : Heap :=
  (((sampleCommand (sampleCommand Heap.empty)).malloc fun _ => true).2.realloc (fun _ => true) (.block 2)).2

theorem script_do {α β : Type} {p : NodeScript α} {f : α → NodeScript β} {l l' : Line} {a : α} {out : β × Line}
    (hp : (p.run (performOnLine fun _ => true)).run l = some (a, l'))
    (hf : ((f a).run (performOnLine fun _ => true)).run l' = some out) :
    ((p >>= f).run (performOnLine fun _ => true)).run l = some out := by
  rw [Commands.run_do]
  exact bind_run_eq_some.mpr ⟨a, l', hp, hf⟩

theorem sampleHostLine_prologue :
    ((NodeScript.prologue sampleName).run (performOnLine fun _ => true)).run (sampleHostLine Heap.empty 7 []) =
      some (0, sampleHostLine (sampleCommand Heap.empty) 9 (prologueCommand sampleName).written) := rfl

theorem sampleHostLine_readRc (used : Nat) (hused : used = 10 ∨ used = 15) (heap : Heap) (sent : Bytes) :
    (NodeScript.readRc.run (performOnLine fun _ => true)).run (sampleHostLine heap used sent) =
      some (0, sampleHostLine heap (used + 1) sent) := by
  have hread : ((NodeScript.readUInt32 0).run (performOnLine fun _ => true)).run (sampleHostLine heap used sent) =
      some ((0, 0), sampleHostLine heap (used + 1) sent) := by
    obtain rfl | rfl := hused <;> rfl
  exact script_do hread rfl

theorem sampleHostLine_whoMaster (sent : Bytes) :
    ((NodeScript.whoMaster .null).run (performOnLine fun _ => true)).run
        (sampleHostLine (sampleCommand Heap.empty) 9 sent) =
      some ((0, .block 3 [99, 0]), sampleHostLine sampleHeapAsked 14 (sent ++ whoMasterFrame)) := by
  have hsend : ((NodeScript.sendCommand whoMasterCommand).run (performOnLine fun _ => true)).run
      (sampleHostLine (sampleCommand Heap.empty) 9 sent) =
        some (0, sampleHostLine (sampleCommand (sampleCommand Heap.empty)) 10 (sent ++ whoMasterFrame)) := rfl
  have hname : ((NodeScript.readStringOption .null 0).run (performOnLine fun _ => true)).run
      (sampleHostLine (sampleCommand (sampleCommand Heap.empty)) 11 (sent ++ whoMasterFrame)) =
        some ((.block 2 [99], 0), sampleHostLine ((sampleCommand (sampleCommand Heap.empty)).malloc fun _ => true).2
          14 (sent ++ whoMasterFrame)) := rfl
  refine script_do hsend ?_
  refine script_do (sampleHostLine_readRc 10 (.inl rfl) _ _) ?_
  exact script_do hname rfl

theorem sampleHostLine_set (heap : Heap) (sent : Bytes) :
    (sampleCall.script.run (performOnLine fun _ => true)).run (sampleHostLine heap 14 sent) =
      some ((0, ()), sampleHostLine (sampleCommand heap) 16 (sent ++ sampleSetFrame)) := by
  have hsend : ((NodeScript.sendCommand (setCommand [107] [118])).run (performOnLine fun _ => true)).run
      (sampleHostLine heap 14 sent) = some (0, sampleHostLine (sampleCommand heap) 15 (sent ++ sampleSetFrame)) := rfl
  refine script_do hsend ?_
  exact script_do (sampleHostLine_readRc 15 (.inr rfl) _ _) rfl

theorem onHostNode_run {α : Type} {m : Program Line α} {h : Host} {k : NodeId} {a : α} {l : Line}
    (hrun : m.run (h.line k) = some (a, l)) : (onHostNode k m).run h = some (a, h.put k l) := by
  change (m.run (h.line k)).map _ = _
  rw [hrun]
  rfl

theorem cluster_on_host_set :
    ∃ h, Run hostStep (fun _ _ => True) sampleHost
        [(.operation sampleCall, .returned ⟨.nothing, 0, ()⟩), (.connectMaster infiniteTimeout, .code 0)] h ∧
      ∃ dial, ∀ w : World, w.dials = 0 → sampleHost.Shows w →
        ∃ w', Run (worldStep (fun _ => true) dial) (fun _ _ => True) w
            [(.operation sampleSet, .returned ⟨.nothing, 0, ()⟩), (.connectMaster, .code 0)] w' ∧ h.Shows w' := by
  have hrun : ∃ h, Run hostStep (fun _ _ => True) sampleHost
      [(.operation sampleCall, .returned ⟨.nothing, 0, ()⟩), (.connectMaster infiniteTimeout, .code 0)] h := by
    let kernel : Kernel := ⟨sampleHost.kernel.answers.drop 7, [.poll [5] (-1), .socket 5]⟩
    let name : Data := .block 3 [99, 0]
    let sent := (prologueCommand sampleName).written
    -- The states of the host: the time limit is set, the node is connected, it has been asked, it is the master.
    let h₀ : Host := { sampleHost with timeout := infiniteTimeout }
    let h₁ := (h₀.connected 0 ⟨0, 5, infiniteTimeout⟩ kernel).put 0
      (sampleHostLine (sampleCommand Heap.empty) 9 sent)
    let h₂ := h₁.put 0 (sampleHostLine sampleHeapAsked 14 (sent ++ whoMasterFrame))
    let h₃ : Host := { h₂ with master := some 0, heap := sampleHeapAsked.free name.ptr }
    let h₄ : Host := { h₃ with heap := h₃.heap.free .null }
    have hdial : (hostDial 0).run h₀ = some (0, h₀.connected 0 ⟨0, 5, infiniteTimeout⟩ kernel) := rfl
    have hconnect : (hostConnect (fun _ => true) 0).run h₀ = some (0, h₁) := by
      change (match (hostDial 0).run h₀ with
        | none => none
        | some (rc, h) =>
            if rc ≠ 0 then some (rc, h)
            else (onHostNode 0 ((NodeScript.prologue h.name).run (performOnLine fun _ => true))).run h) = _
      rw [hdial]
      exact onHostNode_run sampleHostLine_prologue
    have hasked : (hostWhoMaster (fun _ => true) 0 .null).run h₁ = some ((0, name), h₂) :=
      onHostNode_run (sampleHostLine_whoMaster sent)
    have hfind : (hostFindNode (fun _ => true) [0] .null).run h₀ = some ((some 0, name), h₂) :=
      bind_run_eq_some.mpr ⟨0, h₁, hconnect, bind_run_eq_some.mpr ⟨_, h₂, hasked, rfl⟩⟩
    have hsettle : (hostSettleMaster (fun _ => true) 0 name).run h₂ = some (0, h₃) := rfl
    have hsearch : (hostConnectMaster fun _ => true).run h₀ = some (0, h₃) :=
      bind_run_eq_some.mpr ⟨h₀, h₀, rfl, bind_run_eq_some.mpr ⟨_, h₂, hfind, hsettle⟩⟩
    have hfirst : (HostCall.connectMaster infiniteTimeout : HostCall fun _ => true).program.run sampleHost =
        some (.code 0, h₃) :=
      bind_run_eq_some.mpr ⟨(), h₀, rfl, bind_run_eq_some.mpr ⟨0, h₃, hsearch, rfl⟩⟩
    have hset : (hostWithMaster () (sampleCall.script.run (performOnLine fun _ => true))).run h₃ =
        some ((0, ()), _) :=
      bind_run_eq_some.mpr ⟨(), h₄, rfl, bind_run_eq_some.mpr ⟨h₄, h₄, rfl, onHostNode_run (sampleHostLine_set _ _)⟩⟩
    have hsecond : (HostCall.operation sampleCall).program.run h₃ = some (.returned ⟨.nothing, 0, ()⟩, _) :=
      bind_run_eq_some.mpr ⟨(), h₃, rfl, bind_run_eq_some.mpr ⟨(0, ()), _, hset, rfl⟩⟩
    exact ⟨_, .call (.call .nil trivial (by rw [hostStep, hfirst])) trivial (by rw [hostStep, hsecond])⟩
  obtain ⟨h, hrun⟩ := hrun
  have hclosed : ∀ k, (sampleHost.node k).fd < 0 := fun _ => show (-1 : Int) < 0 by decide
  exact ⟨h, hrun, cluster_on_host (fun _ => rfl) hclosed hrun⟩

end Crakoon
