import Crakoon.NurserySafety
import Crakoon.RequestFraming

/-!
# Updates of the routing table that fail

An update gives the old table back before it asks for the new one. So on every way out with an error the nursery is
left without a table, whatever it was that failed: the keeper, its reply, the memory or the parser.
-/

namespace Crakoon

open Programs Reading

variable {alloc : Nat → Bool}

/-- After an update that fails there is no table, so no lookup finds a cluster for any key. -/
theorem failed_update_drops_table {parse : ArakoonProtocolVersion → Nat → Bytes → Except ParseFault ParseOutcome}
    {c c' : Client} {rc : ArakoonRc} (h : (nurseryUpdateRoutingWith alloc parse).run c = .ok (rc, c')) (hrc : rc ≠ 0) :
    (∃ nursery, c.nursery = some nursery ∧ c'.nursery = some { nursery with routing := none }) ∧
      ∀ key found c'', (nurseryLookup key).run c' ≠ .ok (found, c'') := by
  obtain ⟨nursery, out, w, hnursery, -, -, hend⟩ := updateRoutingWith_ok h
  have hdropped : c'.nursery = some { nursery with routing := none } := by
    rcases hend with ⟨-, hdropped⟩ | ⟨hsuccess, -⟩
    · exact hdropped
    · exact absurd hsuccess hrc
  refine ⟨⟨nursery, hnursery, hdropped⟩, fun key found c'' hlookup => ?_⟩
  obtain ⟨-, routing, htable, -⟩ := nurseryLookup_ok hlookup
  rw [Client.table, hdropped] at htable
  cases htable

/-- A table of one leaf that names the only cluster, which has no nodes. -/
def leafTable : Bytes := 1 :: (writeString [97] ++ (le32 1 ++ (writeString [97] ++ le32 0)))

/-- The keeper sends the table once and nothing more. -/
def Client.keeping : Client := ⟨World.connected sampleName (.scripted [le32 0 ++ writeString leafTable]), none⟩

/-- No address is found. -/
def nowhere : Nat → CString → CString → Option (List Address) := fun _ _ _ => none

/-- The first update installs a table under which the cluster `a` holds the key; the second one fails while it reads
the reply, and the table is gone. -/
theorem update_loses_table :
    ∃ c c' table cluster, Run (clientStep (fun _ => true) unreachable) (fun _ _ => True) .keeping
        [(.nurseryUpdateRouting (fun _ => true) nowhere, 0), (.nurseryNew, 0)] c ∧
      c.table = some table ∧ (nurseryLookup [107]).run c = .ok (some (cluster, 0), c) ∧
      (arakoonNurseryUpdateRouting (fun _ => true) (fun _ => true) nowhere).run c =
        .ok (ArakoonReturnCode.clientNetworkError.rc, c') ∧ c'.table ≠ some table := by
  refine ⟨_, _, _, _, .call (.call .nil trivial rfl) trivial rfl, rfl, rfl, rfl, fun h => ?_⟩
  cases h

/-- With a parser that finds no memory. -/
theorem failed_update_drops_table_unparsed :
    ∃ c', (nurseryUpdateRoutingWith (fun _ => true) fun _ _ _ => .ok ⟨enomem, none, none⟩).run
        ⟨Client.keeping.keeper, some ⟨0, some ⟨.leaf [97], []⟩⟩⟩ = .ok (enomem, c') ∧
      ((∃ nursery, (some ⟨0, some ⟨.leaf [97], []⟩⟩ : Option Nursery) = some nursery ∧
        c'.nursery = some { nursery with routing := none }) ∧
      ∀ key found c'', (nurseryLookup key).run c' ≠ .ok (found, c'')) := by
  have hrun : ∃ c', (nurseryUpdateRoutingWith (fun _ => true) fun _ _ _ => .ok ⟨enomem, none, none⟩).run
      ⟨Client.keeping.keeper, some ⟨0, some ⟨.leaf [97], []⟩⟩⟩ = .ok (enomem, c') := ⟨_, rfl⟩
  obtain ⟨c', hrun⟩ := hrun
  exact ⟨c', hrun, failed_update_drops_table hrun (by decide)⟩

end Crakoon
