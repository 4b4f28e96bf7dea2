import Crakoon.MasterSearch
import Crakoon.ServedRuns

/-!
# Clients that share a server

Any number of clients, each with a cluster of its own, make operations on one server, search for its master again
after a failure, and ask for it, in any order. A request of a call that fails may have reached the server, may reach it
at any later time, or never. Such a run is a run of the server alone: the requests it takes are those of all calls that
succeed, in their order, each once, and some of those that failed, each at most once; and what a call returns is the
answer of the server behind the requests that it took before.
-/

namespace Crakoon

open Programs Reading

namespace Server

variable {σ : Type} (server : Server σ) (s : σ)

/-- The state behind the requests, of which the latest stands first. -/
def behind (taken : List Request) : σ := taken.foldr (fun r s => server.next s r) s

end Server

/-- A step of the clients and their server. The request of an operation is `taken` when the call is made, or it stays on
its way; the last step is the arrival of one that is on its way. -/
inductive SharedCall (ι : Type) where
  | operation (i : ι) (call : OperationCall) (taken : Bool)
  | whoMaster (i : ι) (master : Data)
  | connectMaster (i : ι)
  | arrival (n : Nat)

inductive SharedResult where
  | returned (out : Returned)
  | code (rc : ArakoonRc)
  | arrived

abbrev SharedHistory (ι : Type) := List (SharedCall ι × SharedResult)

namespace SharedHistory

variable {ι : Type}

/-- The requests of all operations, the latest first. -/
def asked : SharedHistory ι → List Request
  | (.operation _ call _, _) :: history => call.1.request :: asked history
  | _ :: history => asked history
  | [] => []

/-- The requests of the operations that returned success, the latest first. -/
def succeeded : SharedHistory ι → List Request
  | (.operation _ call _, .returned out) :: history =>
      if out.2.1 = 0 then call.1.request :: succeeded history else succeeded history
  | _ :: history => succeeded history
  | [] => []

end SharedHistory

section Explained

variable {ι σ : Type} (server : Server σ) (s : σ)

/-- The calls, the latest first, as a server explains them that was in the state `s`: the requests that it has taken,
the latest first, and those that are on their way to it. -/
inductive Explained : SharedHistory ι → List Request → List Request → Prop where
  | start : Explained [] [] []
  | answered {history : SharedHistory ι} {taken inFlight : List Request} {i : ι} {call : OperationCall}
      {out : ArakoonRc × call.1.kind.Out} (before : Explained history taken inFlight) (r : Reply call.1.kind)
      (word : r.Word (server.exec call.1.request (server.behind s taken)).1)
      (told : r.Told (call.1.failed call.2) out) :
      Explained ((.operation i call true, .returned ⟨call.1.kind, out⟩) :: history) (call.1.request :: taken) inFlight
  | lost {history : SharedHistory ι} {taken inFlight : List Request} {i : ι} {call : OperationCall}
      {out : ArakoonRc × call.1.kind.Out} (before : Explained history taken inFlight) (hrc : out.1 ≠ 0) :
      Explained ((.operation i call true, .returned ⟨call.1.kind, out⟩) :: history) (call.1.request :: taken) inFlight
  | unheard {history : SharedHistory ι} {taken inFlight : List Request} {i : ι} {call : OperationCall}
      {out : ArakoonRc × call.1.kind.Out} (before : Explained history taken inFlight) (hrc : out.1 ≠ 0) :
      Explained ((.operation i call false, .returned ⟨call.1.kind, out⟩) :: history) taken (call.1.request :: inFlight)
  | refused {history : SharedHistory ι} {taken inFlight : List Request} {i : ι} {call : OperationCall} {now : Bool}
      (before : Explained history taken inFlight) :
      Explained ((.operation i call now, .returned ⟨call.1.kind, ArakoonReturnCode.clientNotConnected.rc,
        call.1.notConnected call.2⟩) :: history) taken inFlight
  | whoMaster {history : SharedHistory ι} {taken inFlight : List Request} {i : ι} {master : Data} {rc : ArakoonRc}
      (before : Explained history taken inFlight) :
      Explained ((.whoMaster i master, .code rc) :: history) taken inFlight
  | connectMaster {history : SharedHistory ι} {taken inFlight : List Request} {i : ι} {rc : ArakoonRc}
      (before : Explained history taken inFlight) : Explained ((.connectMaster i, .code rc) :: history) taken inFlight
  | arrival {history : SharedHistory ι} {taken inFlight : List Request} {n : Nat} {r : Request}
      (before : Explained history taken inFlight) (hr : inFlight[n]? = some r) :
      Explained ((.arrival n, .arrived) :: history) (r :: taken) (inFlight.eraseIdx n)

variable {server} {s} {history : SharedHistory ι} {taken inFlight : List Request}

/-- The server takes the requests of all calls that succeed, in their order. -/
theorem Explained.succeeded_sublist (h : Explained server s history taken inFlight) :
    history.succeeded.Sublist taken := by
  induction h with
  | start => exact .slnil
  | answered before r word told ih =>
      rw [SharedHistory.succeeded]
      split_ifs
      · exact ih.cons_cons _
      · exact ih.cons _
  | lost before hrc ih =>
      rw [SharedHistory.succeeded, if_neg hrc]
      exact ih.cons _
  | unheard before hrc ih =>
      rw [SharedHistory.succeeded, if_neg hrc]
      exact ih
  | refused before ih =>
      have hrefused : ArakoonReturnCode.clientNotConnected.rc ≠ 0 := by decide
      rw [SharedHistory.succeeded, if_neg hrefused]
      exact ih
  | whoMaster before ih => exact ih
  | connectMaster before ih => exact ih
  | arrival before hr ih => exact ih.cons _

/-- It takes no request that no call has made, and none more often than calls have made it. -/
theorem Explained.subperm_asked (h : Explained server s history taken inFlight) :
    (taken ++ inFlight).Subperm history.asked := by
  induction h with
  | start => exact .refl _
  | answered before r word told ih => exact (List.subperm_cons _).mpr ih
  | lost before hrc ih => exact (List.subperm_cons _).mpr ih
  | unheard before hrc ih => exact List.perm_middle.subperm.trans ((List.subperm_cons _).mpr ih)
  | refused before ih => exact ih.cons_right _
  | whoMaster before ih => exact ih
  | connectMaster before ih => exact ih
  | @arrival history taken inFlight n r before hr ih =>
      obtain ⟨hn, rfl⟩ := List.getElem?_eq_some_iff.mp hr
      have hmoved : (inFlight[n] :: taken ++ inFlight.eraseIdx n).Perm (taken ++ inFlight) :=
        List.perm_middle.symm.trans ((List.getElem_cons_eraseIdx_perm hn).append_left taken)
      exact hmoved.subperm.trans ih

end Explained

/-- The clients, the state of the server, and the requests on their way to it. -/
structure Shared (ι σ : Type) where
  clients : ι → World
  state : σ
  inFlight : List Request

section Asking

variable {ι σ : Type} (server : Server σ)

/-- A client asks something of the server. Without a connection to the master nothing is sent. -/
def Shared.asks (w : Shared ι σ) (i : ι) (request : Request) (taken : Bool) : Shared ι σ :=
  if (w.clients i).cluster.getMaster = none then w
  else if taken then { w with state := server.next w.state request }
  else { w with inFlight := request :: w.inFlight }

theorem Shared.asks_clients (w : Shared ι σ) (i : ι) (request : Request) (taken : Bool) :
    (w.asks server i request taken).clients = w.clients := by
  unfold Shared.asks
  split_ifs <;> rfl

/-- What arrives in answer to the operation is the answer of the server in this state, or a part of it from its
beginning; and nothing, while the request has not been taken. -/
structure Conn.Hears (state : σ) (op : Operation) (taken : Bool) (c : Conn) : Prop where
  admissible : op.Admissible
  answers : ∀ frame, op.frame = some frame →
    c.peer.answers c.turns (c.pending ++ frame) <+: if taken then (server.exec op.request state).1 else []
  writes : op.writesUnchecked = true → c.peer.writes c.writes = .complete

/-- What arrives in answer to the request for the master is a reply that is not an error, or a part of it from its
beginning. -/
def Conn.GrantsMaster (c : Conn) : Prop :=
  ∃ (master : Option Bytes) (word : Bytes), (Reply.payload master : Reply .stringOption).Word word ∧ c.answer <+: word

/-- Between calls nothing is left to read on any connection of any client. -/
def Shared.Quiet (w : Shared ι σ) : Prop := ∀ i, (w.clients i).cluster.All fun _ c => c.inbox = []

end Asking

section Steps

variable {ι σ : Type} [DecidableEq ι] (alloc : Nat → Bool) (dial : ι → Dialer) (server : Server σ)

def Shared.onClient (w : Shared ι σ) (i : ι) (w' : World) : Shared ι σ :=
  { w with clients := Function.update w.clients i w' }

/-- A call of a client on its own cluster, of which the code is returned. -/
def Shared.calls {α : Type} (w : Shared ι σ) (i : ι) (m : ClientM α) (rc : α → ArakoonRc) :
    Except Unit (SharedResult × Shared ι σ) :=
  match m.run (w.clients i) with
  | none => .error ()
  | some (out, w') => .ok (.code (rc out), w.onClient i w')

def sharedStep : SharedCall ι → Shared ι σ → Except Unit (SharedResult × Shared ι σ)
  | .operation i call taken, w =>
      match operationStep alloc call (w.clients i) with
      | .error () => .error ()
      | .ok (out, w') => .ok (.returned out, (w.asks server i call.1.request taken).onClient i w')
  | .whoMaster i master, w => w.calls i (arakoonWhoMaster alloc master) Prod.fst
  | .connectMaster i, w => w.calls i (arakoonClusterConnectMaster alloc (dial i)) id
  | .arrival n, w =>
      match w.inFlight[n]? with
      | none => .error ()
      | some r => .ok (.arrived, { w with state := server.next w.state r, inFlight := w.inFlight.eraseIdx n })

end Steps

section Allowed

variable {ι σ : Type} (alloc : Nat → Bool) (dial : ι → Dialer) (server : Server σ)

/-- The peers of the call speak for the server. -/
def SharedCall.Allowed : SharedCall ι → Shared ι σ → Prop
  | .operation i call taken, w => (w.clients i).MasterPromised (Conn.Hears server w.state call.1 taken)
  | .whoMaster i _, w => (w.clients i).MasterPromised Conn.GrantsMaster
  | .connectMaster i, w => ∀ k w', SearchAsks alloc (dial i) k w' (w.clients i) → w'.Promised Conn.GrantsMaster k
  | .arrival _, _ => True

end Allowed

/-! ### Calls and runs -/

/-- A reply to the request for the master that is not an error leaves nothing behind. -/
theorem discipline_quiet (dial : Dialer) :
    Discipline dial (fun _ c => c.inbox = []) (fun _ c => c.inbox = []) (fun _ _ => False)
      (fun bs c => bs = whoMasterFrame ∧ c.GrantsMaster) where
  weaken := fun h => h
  dialed := fun _ _ wrote => wrote.inbox
  ask := by
    intro name s c master out s' c' hquiet hgrants hexchange hopen
    obtain ⟨-, p, word, hword, harrived⟩ := hgrants
    cases hexchange with
    | unsent _ hconn _ =>
        rw [hconn] at hopen
        cases hopen
    | read r rest c₁ hread hconn _ _ inbox _ _ =>
        obtain rfl := Option.some.inj (hconn.symm.trans hopen)
        rw [hquiet, List.nil_append] at hread
        have hreads := reads_bare reads_wireStringOption
        obtain ⟨front, hfront, hanswer⟩ : ∃ front, BareWord _ r front ∧ c.answer = front ++ rest :=
          (hreads _ _ _).mp hread
        rw [hanswer] at harrived
        have hwhole : BareWord (ReplyKind.Word .stringOption) (some p) word := hword
        have hprefix : front <+: word := (List.prefix_append front rest).trans harrived
        obtain ⟨-, rfl⟩ := Parses.eq_of_isPrefix (hreads.parses hfront) (hreads.parses hwhole) hprefix
        have hlen := harrived.length_le
        rw [List.length_append] at hlen
        rw [inbox]
        exact List.length_eq_zero_iff.mp (by omega)
    | cut _ hconn _ =>
        rw [hconn] at hopen
        cases hopen
  config := fun _ hgrants => absurd hgrants.1 (by decide)
  operation := fun _ hnever => hnever.elim

section OnClient

variable {ι σ : Type} [DecidableEq ι]

theorem Shared.Quiet.onClient {w v : Shared ι σ} (hclients : v.clients = w.clients) (h : w.Quiet) {i : ι} {w' : World}
    (hw' : w'.cluster.All fun _ c => c.inbox = []) : (v.onClient i w').Quiet := by
  intro j
  by_cases hj : j = i
  · subst hj
    simpa [Shared.onClient] using hw'
  · simpa [Shared.onClient, hj, hclients] using h j

/-- A call on a cluster that leaves nothing to read changes nothing but this cluster. -/
theorem Shared.calls_ok {α : Type} {w w' : Shared ι σ} {i : ι} {m : ClientM α} {rc : α → ArakoonRc} {b : SharedResult}
    (h : w.calls i m rc = .ok (b, w')) (hquiet : w.Quiet)
    (hm : Ensures m (w.clients i) fun _ w₁ => (w.clients i).Keeps (fun _ c => c.inbox = []) w₁) :
    ∃ code, b = .code code ∧ w'.state = w.state ∧ w'.inFlight = w.inFlight ∧ w'.Quiet := by
  unfold Shared.calls at h
  split at h
  · cases h
  · rename_i out w₁ hrun
    obtain ⟨rfl, rfl⟩ := Prod.mk.inj (Except.ok.inj h)
    exact ⟨_, rfl, rfl, rfl, hquiet.onClient rfl (hm out w₁ hrun).2⟩

end OnClient

section Calls

variable {ι σ : Type} {alloc : Nat → Bool} {dial : ι → Dialer} {server : Server σ}

/-- An operation returns the answer of the server, which has taken its request, or fails. -/
theorem Exchange.shared {op : Operation} {result : op.kind.Out} {t t' : Session} {c : Conn} {frame : Bytes} {state : σ}
    {taken : Bool} {out : ArakoonRc × op.kind.Out} (h : Exchange op result t c frame out t')
    (hframe : op.frame = some frame) (hquiet : c.inbox = []) (hhears : c.Hears server state op taken) :
    ((∃ r : Reply op.kind, taken = true ∧ r.Word (server.exec op.request state).1 ∧ r.Told (op.failed result) out) ∨
      out.1 ≠ 0) ∧ ∀ c', t'.conn = some c' → c'.inbox = [] := by
  obtain ⟨r, hword⟩ := server.replies op state hhears.admissible
  have harrived := hhears.answers frame hframe
  cases taken with
  | true =>
      rcases h.heard hquiet hhears.writes hword harrived with ⟨htold, -, c', hconn, hinbox, -⟩ | ⟨hrc, hclosed⟩
      · refine ⟨.inl ⟨r, rfl, hword, htold⟩, fun c₁ hc₁ => ?_⟩
        obtain rfl := Option.some.inj (hconn.symm.trans hc₁)
        exact hinbox
      · refine ⟨.inr hrc, fun c₁ hc₁ => ?_⟩
        rw [hclosed] at hc₁
        cases hc₁
  | false =>
      have hnothing : c.peer.answers c.turns (c.pending ++ frame) = [] := List.prefix_nil.mp harrived
      have hfront : c.peer.answers c.turns (c.pending ++ frame) <+: (server.exec op.request state).1 := by
        rw [hnothing]
        exact List.nil_prefix
      rcases h.heard hquiet hhears.writes hword hfront with ⟨-, hall, -⟩ | ⟨hrc, hclosed⟩
      · -- A reply has four bytes at least.
        have hlen := hword.length
        rw [← hall, hnothing] at hlen
        simp at hlen
      · refine ⟨.inr hrc, fun c₁ hc₁ => ?_⟩
        rw [hclosed] at hc₁
        cases hc₁

variable (halloc : ∀ n, alloc n = true)
include halloc

theorem shared_operation {i : ι} {call : OperationCall} {taken : Bool} {s : σ} {w : Shared ι σ} {w' : World}
    {out : ArakoonRc × call.1.kind.Out} {history : SharedHistory ι} {log : List Request} (hquiet : w.Quiet)
    (hallowed : (w.clients i).MasterPromised (Conn.Hears server w.state call.1 taken))
    (hrun : (Operation.run alloc call.1 call.2).run (w.clients i) = some (out, w'))
    (hexplained : Explained server s history log w.inFlight) (hstate : w.state = server.behind s log) :
    ∃ log', Explained server s ((.operation i call taken, .returned ⟨call.1.kind, out⟩) :: history) log'
        (w.asks server i call.1.request taken).inFlight ∧
      (w.asks server i call.1.request taken).state = server.behind s log' ∧
      w'.cluster.All fun _ c => c.inbox = [] := by
  rcases ensures_operation halloc call.1 call.2 _ _ _ hrun with ⟨hnone, rfl⟩ |
    ⟨k, c, t', hmaster, hc, ⟨frame, hframe, hexchange⟩, rfl⟩
  · rw [Operation.run_eq, withMaster_none hnone] at hrun
    obtain ⟨rfl, -⟩ := Prod.mk.inj (Option.some.inj hrun)
    rw [Shared.asks, if_pos hnone]
    exact ⟨log, .refused hexplained, hstate, hquiet i⟩
  · have hasked : (w.clients i).cluster.getMaster ≠ none := by
      rw [getMaster_eq_some.mpr ⟨hmaster, c, hc⟩]
      exact Option.some_ne_none k
    obtain ⟨htold, hleft⟩ := hexchange.shared hframe (hquiet i k c hc) (hallowed k hmaster c hc)
    have hquiet' := (keeps_update (P := fun _ c => c.inbox = []) (w := (w.clients i).reset) (k := k) (s := t')
      (fun j _ => hquiet i j) hleft).2
    rw [Shared.asks, if_neg hasked]
    cases taken with
    | true =>
        refine ⟨call.1.request :: log, ?_, congrArg (server.next · call.1.request) hstate, hquiet'⟩
        rcases htold with ⟨r, -, hword, htold⟩ | hrc
        · rw [hstate] at hword
          exact .answered hexplained r hword htold
        · exact .lost hexplained hrc
    | false =>
        refine ⟨log, ?_, hstate, hquiet'⟩
        rcases htold with ⟨r, hnever, -⟩ | hrc
        · cases hnever
        · exact .unheard hexplained hrc

variable [DecidableEq ι]

/-- A call, as the server explains it. -/
theorem sharedStep_explained {call : SharedCall ι} {w w' : Shared ι σ} {b : SharedResult} {s : σ}
    {history : SharedHistory ι} {log : List Request} (hquiet : w.Quiet)
    (hallowed : call.Allowed alloc dial server w) (hstep : sharedStep alloc dial server call w = .ok (b, w'))
    (hexplained : Explained server s history log w.inFlight) (hstate : w.state = server.behind s log) :
    w'.Quiet ∧ ∃ log', Explained server s ((call, b) :: history) log' w'.inFlight ∧
      w'.state = server.behind s log' := by
  cases call with
  | operation i call taken =>
      simp only [sharedStep] at hstep
      split at hstep
      · cases hstep
      · rename_i b₁ w₁ hcall
        obtain ⟨rfl, rfl⟩ := Prod.mk.inj (Except.ok.inj hstep)
        obtain ⟨out, rfl, hrun⟩ := operationStep_ok hcall
        obtain ⟨log', hexplained', hstate', hleft⟩ :=
          shared_operation halloc hquiet hallowed hrun hexplained hstate
        exact ⟨hquiet.onClient (w.asks_clients server i _ taken) hleft, log', hexplained', hstate'⟩
  | whoMaster i master =>
      have hkeeps := ensures_whoMaster_keeps halloc (discipline_quiet (dial i)) master (hquiet i)
        fun k hk c hc => ⟨rfl, hallowed k hk c hc⟩
      obtain ⟨code, rfl, hsame, hflight, hquiet'⟩ := Shared.calls_ok hstep hquiet hkeeps
      rw [hsame, hflight]
      exact ⟨hquiet', log, .whoMaster hexplained, hstate⟩
  | connectMaster i =>
      have hkeeps := ensures_connectMaster halloc (discipline_quiet (dial i)) (hquiet i)
        fun k w₁ hasks c hc => ⟨rfl, hallowed k w₁ hasks c hc⟩
      obtain ⟨code, rfl, hsame, hflight, hquiet'⟩ := Shared.calls_ok hstep hquiet hkeeps
      rw [hsame, hflight]
      exact ⟨hquiet', log, .connectMaster hexplained, hstate⟩
  | arrival n =>
      simp only [sharedStep] at hstep
      split at hstep
      · cases hstep
      · rename_i r hr
        obtain ⟨rfl, rfl⟩ := Prod.mk.inj (Except.ok.inj hstep)
        exact ⟨hquiet, r :: log, .arrival hexplained hr, congrArg (server.next · r) hstate⟩

/-- Whatever calls the clients make in whatever order, the server takes the requests of those that succeed in their
order, and each request at most once; and every call that is answered returns the answer of the server behind the
requests it has taken before. -/
theorem clients_share_server {start w : Shared ι σ} (hstart : start.Quiet) (hidle : start.inFlight = [])
    {history : SharedHistory ι}
    (h : Run (sharedStep alloc dial server) (SharedCall.Allowed alloc dial server) start history w) :
    w.Quiet ∧ ∃ log, Explained server start.state history log w.inFlight ∧
      w.state = server.behind start.state log ∧ history.succeeded.Sublist log ∧
      (log ++ w.inFlight).Subperm history.asked := by
  have hbegin : Explained server start.state ([] : SharedHistory ι) [] start.inFlight := by
    rw [hidle]
    exact .start
  have hinv := h.traced (I := fun history w => w.Quiet ∧
    ∃ log, Explained server start.state history log w.inFlight ∧ w.state = server.behind start.state log)
    ⟨hstart, [], hbegin, rfl⟩ fun history call w b w' hbefore hallowed hstep => by
      obtain ⟨hquiet, log, hexplained, hstate⟩ := hbefore
      exact sharedStep_explained halloc hquiet hallowed hstep hexplained hstate
  obtain ⟨hquiet, log, hexplained, hstate⟩ := hinv
  exact ⟨hquiet, log, hexplained, hstate, hexplained.succeeded_sublist, hexplained.subperm_asked⟩

end Calls

/-- The next request on the connection to the master is answered so. -/
def World.Replying (reply : Bytes) (w : World) : Prop :=
  w.cluster.getMaster ≠ none ∧
    w.MasterPromised fun c => (∀ bs, c.peer.answers c.turns bs = reply) ∧ ∀ n, c.peer.writes n = .complete

section Replying

variable {ι σ : Type} [DecidableEq ι] {alloc : Nat → Bool} {dial : ι → Dialer} {server : Server σ} {w : Shared ι σ}
  {i : ι} {reply : Bytes} {call : OperationCall}

theorem World.Replying.hears {u : World} (h : u.Replying reply) {state : σ} {op : Operation} {taken : Bool}
    (hop : op.Admissible) (hreply : reply = if taken then (server.exec op.request state).1 else []) :
    u.MasterPromised (Conn.Hears server state op taken) := by
  intro k hk c hc
  obtain ⟨hanswers, hwrites⟩ := h.2 k hk c hc
  refine ⟨hop, fun frame _ => ?_, fun _ => hwrites _⟩
  simp only [hanswers, ← hreply, List.prefix_rfl]

theorem sharedStep_operation {u : World} {out : Returned} (taken : Bool) (hreplying : (w.clients i).Replying reply)
    (hrun : operationStep alloc call (w.clients i) = .ok (out, u)) :
    sharedStep alloc dial server (.operation i call taken) w = .ok (.returned out,
      { clients := Function.update w.clients i u
        state := if taken then server.next w.state call.1.request else w.state
        inFlight := if taken then w.inFlight else call.1.request :: w.inFlight }) := by
  rw [sharedStep, hrun, Shared.asks, if_neg hreplying.1]
  cases taken <;> rfl

theorem sharedStep_arrival {n : Nat} {r : Request} (hr : w.inFlight[n]? = some r) :
    sharedStep alloc dial server (.arrival n) w = .ok (.arrived,
      { w with state := server.next w.state r, inFlight := w.inFlight.eraseIdx n }) := by
  rw [sharedStep, hr]

theorem sharedStep_connectMaster {u₀ u : World} {rc : ArakoonRc} (hclient : w.clients i = u₀)
    (hrun : (arakoonClusterConnectMaster alloc (dial i)).run u₀ = some (rc, u)) :
    sharedStep alloc dial server (.connectMaster i) w = .ok (.code rc, w.onClient i u) := by
  rw [sharedStep, Shared.calls, hclient, hrun]
  rfl

end Replying

/-- The answers to a client that stores a value and reads it twice. -/
def sampleAnswers : List Bytes := [le32 0, le32 0 ++ writeString [118], le32 0 ++ writeString [119]]

/-- A client that the server answers, one that it does not answer, and clients that are not connected. -/
def sampleShared : Shared Nat (Bytes → Option Bytes) where
  clients := fun
    | 0 => World.connected sampleName (.scripted sampleAnswers)
    | 1 => World.connected sampleName (.scripted [])
    | _ => World.single sampleName
  state := fun _ => none
  inFlight := []

theorem World.connected_quiet (name : CString) (peer : Peer) :
    (World.connected name peer).cluster.All fun _ c => c.inbox = [] := by
  intro j c hc
  simp only [World.connected, arakoonClusterAddNode, Cluster.setNode] at hc
  split_ifs at hc
  · obtain rfl := Option.some.inj hc
    rfl
  · cases hc

theorem World.single_quiet (name : CString) : (World.single name).cluster.All fun _ c => c.inbox = [] := by
  intro j c hc
  rw [World.single_closed] at hc
  cases hc

theorem sampleShared_quiet : sampleShared.Quiet
  | 0 => World.connected_quiet _ _
  | 1 => World.connected_quiet _ _
  | _ + 2 => World.single_quiet _

def sampleOtherSet : OperationCall := ⟨.set [107] [119], ()⟩

/-- The search for the master of a client that is not connected is answered with the name of its node. -/
theorem single_grantsMaster {k : NodeId} {w' : World}
    (h : SearchAsks (fun _ => true) (reaching (.answering masterReply)) k w' (World.single sampleName)) :
    w'.Promised Conn.GrantsMaster k := by
  intro c hc
  cases h with
  | find h =>
      cases h with
      | ask hconnect =>
          obtain ⟨-, rfl⟩ := Prod.mk.inj (Option.some.inj hconnect)
          obtain rfl := Option.some.inj hc
          exact ⟨some sampleName.bytes, masterReply, ⟨_, ⟨1, _, by decide, ⟨by decide, rfl⟩, rfl⟩, rfl⟩,
            List.prefix_rfl⟩
      | unconnected _ _ rest => cases rest
      | unnamed _ _ _ rest => cases rest
  | validate hfind hother =>
      obtain ⟨hout, rfl⟩ := Prod.mk.inj (Option.some.inj hfind)
      obtain ⟨hj, rfl⟩ := Prod.mk.inj hout
      obtain rfl := Option.some.inj hj
      exact absurd rfl hother

/-- What the first client does: it stores a value and reads it twice. -/
theorem sampleAnswers_runs : ∃ u₁ u₂ u₃ first second,
    operationStep (fun _ => true) sampleSet (World.connected sampleName (.scripted sampleAnswers)) =
      .ok (⟨.nothing, 0, ()⟩, u₁) ∧
    operationStep (fun _ => true) sampleGet u₁ = .ok (⟨.string, 0, first⟩, u₂) ∧
    operationStep (fun _ => true) sampleGet u₂ = .ok (⟨.string, 0, second⟩, u₃) ∧
    first.value = some [118] ∧ second.value = some [119] ∧
    u₁.Replying (le32 0 ++ writeString [118]) ∧ u₂.Replying (le32 0 ++ writeString [119]) := by
  refine ⟨_, _, _, _, _, rfl, rfl, rfl, rfl, rfl, ⟨Option.some_ne_none 0, ?_⟩, Option.some_ne_none 0, ?_⟩
  · intro k hk c hc
    obtain rfl := Option.some.inj hk
    obtain rfl := Option.some.inj hc
    exact ⟨fun _ => rfl, fun _ => rfl⟩
  · intro k hk c hc
    obtain rfl := Option.some.inj hk
    obtain rfl := Option.some.inj hc
    exact ⟨fun _ => rfl, fun _ => rfl⟩

/-- A client stores and reads a value. What another one stores does not reach the server before it gives up; it does so
before the value is read again. -/
theorem clients_share_server_late :
    let dial : Nat → Dialer := fun _ => reaching (.answering masterReply)
    ∃ rc first second log, ∃ w : Shared Nat (Bytes → Option Bytes),
      let history : SharedHistory Nat :=
        [(.connectMaster 2, .code 0), (.operation 0 sampleGet true, .returned ⟨.string, 0, second⟩),
          (.arrival 0, .arrived), (.operation 0 sampleGet true, .returned ⟨.string, 0, first⟩),
          (.operation 1 sampleOtherSet false, .returned ⟨.nothing, rc, ()⟩),
          (.operation 0 sampleSet true, .returned ⟨.nothing, 0, ()⟩)]
      Run (sharedStep (fun _ => true) dial mapServer) (SharedCall.Allowed (fun _ => true) dial mapServer) sampleShared
        history w ∧
      rc ≠ 0 ∧ first.value = some [118] ∧ second.value = some [119] ∧
      w.Quiet ∧ Explained mapServer sampleShared.state history log w.inFlight ∧
      w.state = mapServer.behind sampleShared.state log ∧ history.succeeded.Sublist log ∧
      (log ++ w.inFlight).Subperm history.asked := by
  intro dial
  have hset : ∀ value, Short value → (Operation.set [107] value).Admissible := fun _ h => ⟨by decide, h⟩
  have hget : sampleGet.1.Admissible := show Short [107] by decide
  have hanswer : ∀ {state : Bytes → Option Bytes} {value : Bytes}, Short value → state [107] = some value →
      le32 0 ++ writeString value = (mapServer.exec sampleGet.1.request state).1 := by
    intro state value hshort hvalue
    simp [mapServer, mapExec, sampleGet, Operation.request, hvalue, hshort]
  obtain ⟨u₁, u₂, u₃, first, second, hfirst, hsecond, hthird, hold, hnew, hreplying₁, hreplying₂⟩ := sampleAnswers_runs
  have hreplying₀ : (World.connected sampleName (.scripted sampleAnswers)).Replying (le32 0) := by
    refine ⟨Option.some_ne_none 0, fun k hk c hc => ?_⟩
    obtain rfl := Option.some.inj hk
    obtain rfl := Option.some.inj hc
    exact ⟨fun _ => rfl, fun _ => rfl⟩
  have hsilent : (World.connected sampleName (.scripted [])).Replying [] := by
    refine ⟨Option.some_ne_none 0, fun k hk c hc => ?_⟩
    obtain rfl := Option.some.inj hk
    obtain rfl := Option.some.inj hc
    exact ⟨fun _ => rfl, fun _ => rfl⟩
  have hother : ∃ rc v, operationStep (fun _ => true) sampleOtherSet (World.connected sampleName (.scripted [])) =
      .ok (⟨.nothing, rc, ()⟩, v) ∧ rc ≠ 0 := ⟨_, _, rfl, by decide⟩
  obtain ⟨rc, v, hother, hrc⟩ := hother
  have hsearch : ∃ u, (arakoonClusterConnectMaster (fun _ => true) (dial 2)).run (World.single sampleName) =
      some (0, u) := ⟨_, rfl⟩
  obtain ⟨u, hsearch⟩ := hsearch
  have hrun : ∃ w, Run (sharedStep (fun _ => true) dial mapServer) (SharedCall.Allowed (fun _ => true) dial mapServer)
      sampleShared
      [(.connectMaster 2, .code 0), (.operation 0 sampleGet true, .returned ⟨.string, 0, second⟩),
        (.arrival 0, .arrived), (.operation 0 sampleGet true, .returned ⟨.string, 0, first⟩),
        (.operation 1 sampleOtherSet false, .returned ⟨.nothing, rc, ()⟩),
        (.operation 0 sampleSet true, .returned ⟨.nothing, 0, ()⟩)] w := by
    refine ⟨_, .call (.call (.call (.call (.call (.call .nil ?_ (sharedStep_operation true hreplying₀ hfirst)) ?_
      (sharedStep_operation false hsilent hother)) ?_ (sharedStep_operation true hreplying₁ hsecond)) trivial
      (sharedStep_arrival (r := sampleOtherSet.1.request) rfl)) ?_
      (sharedStep_operation true hreplying₂ hthird)) ?_ (sharedStep_connectMaster rfl hsearch)⟩
    · exact hreplying₀.hears (hset _ (by decide)) rfl
    · exact hsilent.hears (hset _ (by decide)) rfl
    · exact hreplying₁.hears hget (hanswer (by decide) rfl)
    · exact hreplying₂.hears hget (hanswer (by decide) rfl)
    · exact fun k w' hasks => single_grantsMaster hasks
  obtain ⟨w, hrun⟩ := hrun
  have hshared := clients_share_server (fun _ => rfl) sampleShared_quiet rfl hrun
  obtain ⟨hquiet, log, hexplained⟩ := hshared
  exact ⟨rc, first, second, log, w, hrun, hrc, hold, hnew, hquiet, hexplained⟩

end Crakoon
