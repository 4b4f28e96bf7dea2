import Crakoon.Nursery

/-!
# When a routing table is there

The operations on keys follow the pointer to the routing table without looking whether it is null. It is not
null exactly when the latest update since the nursery was made has returned success, because an update drops
the old table before it asks for the new one. So the operations are safe in exactly those runs.
-/

namespace Crakoon

open Programs Reading

/-- The latest update since the nursery was made has returned success. -/
def Installed : List (ClientCall × ArakoonRc) → Prop
  | [] => False
  | (.nurseryUpdateRouting _ _, rc) :: _ => rc = 0
  | (.nurseryNew, _) :: _ => False
  | (.nurseryFree, _) :: _ => False
  | _ :: history => Installed history

section Never

variable {α : Type} (alloc : Nat → Bool) (dial : Dialer)

theorem never_onKeeper (m : ClientM α) : Never Fault.nullRouting (onKeeper m) := by
  intro c h
  cases hrun : m.run c.keeper with
  | none => simp [onKeeper, StateT.run, show m c.keeper = none from hrun] at h
  | some out => simp [onKeeper, StateT.run, show m c.keeper = some out from hrun] at h

theorem never_getNursery : Never Fault.nullRouting getNursery := by
  intro c h
  cases hnursery : c.nursery with
  | none => simp [getNursery, StateT.run, hnursery] at h
  | some nursery => simp [getNursery, StateT.run, hnursery] at h

theorem never_updateRouting (memory : Nat → Bool) (getaddrinfo : Nat → CString → CString → Option (List Address)) :
    Never Fault.nullRouting (arakoonNurseryUpdateRouting alloc memory getaddrinfo) := by
  refine never_getNursery.bind fun _ => Never.bind (fun c h => by cases h) fun _ => ?_
  refine (never_onKeeper _).bind fun out => .ite (.pure _ _) (Never.bind (fun c h => by cases h) fun c => ?_)
  split
  · exact fun c h => by cases h
  · exact .ite (.pure _ _) ((never_onKeeper _).bind fun _ => Never.bind (fun c h => by cases h) fun _ => .pure _ _)

/-- A call that is not on a key does not look at the table. -/
theorem never_program {call : ClientCall} (h : call.key = none) :
    Never Fault.nullRouting (call.program alloc dial) := by
  cases call with
  | operation op result => exact never_onKeeper _
  | whoMaster master => exact never_onKeeper _
  | connectMaster => exact never_onKeeper _
  | nurseryNew =>
      intro c h
      simp only [ClientCall.program, StateT.run, arakoonNurseryNew] at h
      split at h <;> cases h
  | nurseryFree => exact never_getNursery.bind fun _ c h => by cases h
  | nurseryUpdateRouting memory getaddrinfo => exact never_updateRouting alloc memory getaddrinfo
  | nurseryGet options key result => cases h
  | nurserySet key value => cases h
  | nurseryDelete key => cases h
  | nurseryReconnectMaster key => cases h

end Never

section Table

variable {α : Type} {alloc : Nat → Bool} {dial : Dialer}

/-- A parse that succeeds yields a table. -/
theorem nurseryRoutingParse_table {memory : Nat → Bool}
    {getaddrinfo : Nat → CString → CString → Option (List Address)} {version : ArakoonProtocolVersion} {length : Nat}
    {data : Bytes} {outcome : ParseOutcome}
    (h : nurseryRoutingParse memory getaddrinfo version length data = .ok outcome) (hrc : outcome.rc = 0) :
    outcome.routing.isSome := by
  simp only [nurseryRoutingParse, bind_eq_ok] at h
  obtain ⟨⟨⟨root, n⟩, iter⟩, -, ⟨⟨slots, n'⟩, rest⟩, -, h⟩ := h
  dsimp only at h
  split_ifs at h with hlength hgranted
  · obtain rfl := Except.ok.inj h
    cases hrc
  · obtain rfl := Except.ok.inj h
    rfl

/-- An update leaves a table behind exactly if it returns success. -/
theorem updateRouting_table {memory : Nat → Bool}
    {getaddrinfo : Nat → CString → CString → Option (List Address)} {c c' : Client} {rc : ArakoonRc}
    (h : (arakoonNurseryUpdateRouting alloc memory getaddrinfo).run c = .ok (rc, c')) :
    rc = 0 ↔ c'.table.isSome := by
  obtain ⟨nursery, out, w, -, -, -, hend⟩ := updateRoutingWith_ok h
  rcases hend with ⟨hrc, hdropped⟩ | ⟨hrc, outcome, hparse, hparsed, hinstalled⟩
  · simp [Client.table, hdropped, hrc]
  · have htable := nurseryRoutingParse_table hparse hparsed
    simp [Client.table, hinstalled, hrc, htable]

/-- A call on a key returns only where there is a table, and leaves one. -/
theorem nurseryOperation_table {key : Bytes} {missing : α} {m : ClientM (ArakoonRc × α)} {c c' : Client}
    {rc : ArakoonRc} (h : (onlyRc (nurseryOperation key missing m)).run c = .ok (rc, c')) :
    c.table.isSome ∧ c'.table.isSome := by
  simp only [onlyRc, nurseryOperation, run_bind, bind_eq_ok] at h
  obtain ⟨⟨out, c₂⟩, ⟨⟨slot, c₁⟩, hlookup, hslot⟩, hpure⟩ := h
  obtain ⟨rfl, routing, htable, -⟩ := nurseryLookup_ok hlookup
  obtain ⟨-, rfl⟩ := Prod.mk.inj (Except.ok.inj hpure)
  refine ⟨by rw [htable]; rfl, ?_⟩
  cases slot with
  | none =>
      obtain ⟨-, rfl⟩ := Prod.mk.inj (Except.ok.inj hslot)
      rw [htable]
      rfl
  | some slot =>
      obtain ⟨w, -, -, hafter⟩ := onSlot_ok hslot
      rw [hafter, htable]
      rfl

/-- A table is installed exactly where the latest update has returned success. -/
theorem installed_iff {keeper : World} {history : List (ClientCall × ArakoonRc)} {c : Client}
    {allowed : ClientCall → Client → Prop} (h : Run (clientStep alloc dial) allowed ⟨keeper, none⟩ history c) :
    Installed history ↔ c.table.isSome := by
  induction h with
  | nil => simp [Installed, Client.table]
  | @call history c c' call rc before hallowed hstep ih =>
      cases call with
      | operation op result | whoMaster master | connectMaster =>
          change Installed history ↔ _
          rw [ih, Client.table, Client.table, (onKeeper_ok hstep).2]
      | nurseryUpdateRouting memory getaddrinfo => exact updateRouting_table hstep
      | nurseryNew =>
          simp only [clientStep, ClientCall.program, arakoonNurseryNew, StateT.run] at hstep
          split at hstep <;> obtain ⟨-, rfl⟩ := Prod.mk.inj (Except.ok.inj hstep) <;> simp [Installed, Client.table]
      | nurseryFree =>
          simp only [clientStep, ClientCall.program, arakoonNurseryFree, run_bind, bind_eq_ok] at hstep
          obtain ⟨⟨nursery, c₁⟩, -, hfree⟩ := hstep
          obtain ⟨-, rfl⟩ := Prod.mk.inj (Except.ok.inj hfree)
          simp [Installed, Client.table]
      | nurseryGet _ _ _ | nurserySet _ _ | nurseryDelete _ | nurseryReconnectMaster _ =>
          obtain ⟨hbefore, hafter⟩ := nurseryOperation_table hstep
          change Installed history ↔ _
          rw [ih, hbefore, hafter]

theorem program_of_key (alloc : Nat → Bool) (dial : Dialer) {call : ClientCall} {key : Bytes}
    (h : call.key = some key) :
    ∃ (α : Type) (missing : α) (m : ClientM (ArakoonRc × α)),
      call.program alloc dial = onlyRc (nurseryOperation key missing m) := by
  cases call with
  | nurseryGet options k result =>
      obtain rfl := Option.some.inj h
      exact ⟨Data, result, _, rfl⟩
  | nurserySet k value =>
      obtain rfl := Option.some.inj h
      exact ⟨Unit, (), _, rfl⟩
  | nurseryDelete k =>
      obtain rfl := Option.some.inj h
      exact ⟨Unit, (), _, rfl⟩
  | nurseryReconnectMaster k =>
      obtain rfl := Option.some.inj h
      exact ⟨Unit, (), _, rfl⟩
  | _ => cases h

/-- Without a table the lookup follows a null pointer. -/
theorem nurseryOperation_missing {key : Bytes} {missing : α} {m : ClientM (ArakoonRc × α)} {c : Client} {id : Nat}
    (h : c.nursery = some ⟨id, none⟩) : (onlyRc (nurseryOperation key missing m)).run c = .error .nullRouting := by
  have hget : getNursery.run c = .ok (⟨id, none⟩, c) := by simp [getNursery, StateT.run, h]
  have hlookup : (nurseryLookup key).run c = .error .nullRouting := by
    rw [nurseryLookup, run_bind, hget]
    rfl
  rw [onlyRc, nurseryOperation, run_bind, run_bind, hlookup]
  rfl

/-- With a table it does not. -/
theorem nurseryOperation_installed {key : Bytes} {missing : α} {m : ClientM (ArakoonRc × α)} {c : Client}
    (h : c.table.isSome) : (onlyRc (nurseryOperation key missing m)).run c ≠ .error .nullRouting := by
  obtain ⟨routing, htable⟩ := Option.isSome_iff_exists.mp h
  obtain ⟨nursery, hnursery, hrouting⟩ := Option.bind_eq_some_iff.mp htable
  have hget : getNursery.run c = .ok (nursery, c) := by simp [getNursery, StateT.run, hnursery]
  intro hrun
  simp only [onlyRc, nurseryOperation, nurseryLookup, run_bind, hget, bind_eq_error] at hrun
  rcases hrun with ((hnone | ⟨found, hfound, hlookup⟩) | ⟨⟨slot, c₁⟩, -, hslot⟩) | ⟨out, -, hpure⟩
  · cases hnone
  · obtain rfl := Except.ok.inj hfound
    simp only [hrouting] at hlookup
    split at hlookup <;> cases hlookup
  · cases slot with
    | none => cases hslot
    | some slot =>
        dsimp only at hslot
        simp only [onSlot, StateT.run] at hslot
        split at hslot <;> cases hslot
  · cases hpure

/-- In every run, a call does not take a null pointer for a table, and reports that there is no table where there
is none, if and only if it is not a call on a key or the latest update has returned success. -/
theorem nursery_lookup_iff {keeper : World} {history : List (ClientCall × ArakoonRc)} {c : Client}
    (h : Run (clientStep alloc dial) (fun _ _ => True) ⟨keeper, none⟩ history c) (call : ClientCall) :
    (clientStep alloc dial call c ≠ .error .nullRouting ∧
      (call.key.isSome → c.nursery.isSome → c.table = none →
        ∃ c', clientStep alloc dial call c = .ok (ArakoonReturnCode.clientNurseryInvalidConfig.rc, c'))) ↔
    (call.key.isSome → c.nursery.isSome → Installed history) := by
  cases hkey : call.key with
  | none =>
      refine ⟨fun _ hsome => ?_, fun _ => ⟨never_program alloc dial hkey c, fun hsome => ?_⟩⟩
      · cases hsome
      · cases hsome
  | some key =>
      obtain ⟨α, missing, m, hprogram⟩ := program_of_key alloc dial hkey
      rw [installed_iff h, clientStep, hprogram]
      constructor
      · intro hdone _ hnursery
        obtain ⟨hsafe, -⟩ := hdone
        obtain ⟨⟨id, routing⟩, hnursery⟩ := Option.isSome_iff_exists.mp hnursery
        cases routing with
        | none => exact absurd (nurseryOperation_missing hnursery) hsafe
        | some routing => simp [Client.table, hnursery]
      · intro hinstalled
        refine ⟨fun hfault => ?_, fun _ hnursery htable => ?_⟩
        · cases hnursery : c.nursery with
          | none =>
              have hget : getNursery.run c = .error .noNursery := by simp [getNursery, StateT.run, hnursery]
              rw [onlyRc, nurseryOperation, nurseryLookup, run_bind, run_bind, run_bind, hget] at hfault
              cases hfault
          | some nursery => exact nurseryOperation_installed (hinstalled rfl (by rw [hnursery]; rfl)) hfault
        · have hthere := hinstalled rfl hnursery
          rw [htable] at hthere
          cases hthere

end Table

/-- A keeper without a connection. -/
def World.unconnected : World := ⟨Heap.empty, 0, arakoonClusterNew .version1 ⟨[97], by simp⟩⟩

/-- No server can be reached. -/
def unreachable : Dialer := fun _ _ => .error ⟨ArakoonReturnCode.clientNetworkError, clientNetworkError_ne_zero⟩

/-- An update that fails since the keeper is not connected. -/
theorem run_update_unconnected :
    Run (clientStep (fun _ => true) unreachable) (fun _ _ => True) ⟨World.unconnected, none⟩
      [(.nurseryUpdateRouting (fun _ => true) fun _ _ _ => none, ArakoonReturnCode.clientNotConnected), (.nurseryNew, 0)]
      ⟨{ World.unconnected with heap := (Heap.empty.malloc fun _ => true).2 }, some ⟨0, none⟩⟩ :=
  .call (.call .nil trivial rfl) trivial rfl

/-- After a failed update the next call on a key follows a null pointer. -/
theorem nurseryGet_without_table :
    ∃ c, Run (clientStep (fun _ => true) unreachable) (fun _ _ => True) ⟨World.unconnected, none⟩
        [(.nurseryUpdateRouting (fun _ => true) fun _ _ _ => none, ArakoonReturnCode.clientNotConnected),
          (.nurseryNew, 0)] c ∧
      c.table = none ∧
        clientStep (fun _ => true) unreachable (.nurseryGet none [107] .null) c = .error .nullRouting :=
  ⟨_, run_update_unconnected, rfl, rfl⟩

/-- So the condition of the theorem does not hold there. -/
theorem nursery_lookup_iff_unconnected :
    let c : Client := ⟨{ World.unconnected with heap := (Heap.empty.malloc fun _ => true).2 }, some ⟨0, none⟩⟩
    let call := ClientCall.nurseryGet none [107] .null
    ¬(clientStep (fun _ => true) unreachable call c ≠ .error .nullRouting ∧
      (call.key.isSome → c.nursery.isSome → c.table = none → ∃ c', clientStep (fun _ => true) unreachable call c =
        .ok (ArakoonReturnCode.clientNurseryInvalidConfig.rc, c'))) := by
  intro c call h
  have hrc := (nursery_lookup_iff run_update_unconnected call).mp h rfl rfl
  cases hrc

end Crakoon
