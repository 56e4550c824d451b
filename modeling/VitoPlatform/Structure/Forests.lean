import VitoPlatform.Structure.Hierarchies

/-!
# Hierarchies stay forests

Positions under their managers and departments under their parents stay forests in every run in
which no row is hung under another that has come to be below it since the row was checked. What a
call has walked settles that for a row as long as nobody has hung the walked rows elsewhere.
-/

namespace Structure

open Text Concurrent Services Forest

/-- The rows that the session has walked still have the parents it has read. -/
def Fresh (s : Store) (session : Nat) (hierarchy : Hierarchy) : Prop :=
  ∀ walked ∈ s.walked, walked.session = session → walked.hierarchy = hierarchy →
    s.parentIn hierarchy walked.organizationId walked.id = walked.parent

/-- A step that hangs a row under another one does so in time: what its call has walked is as it
was read, or the other row is not below the row anyhow. -/
def Timely (i : Nat) (s t : Store) : Prop :=
  ∀ hierarchy id above, organizationOf (s.nodes hierarchy) id ≠ none →
    parentOf (s.nodes hierarchy) id ≠ some above → parentOf (t.nodes hierarchy) id = some above →
      Fresh s i hierarchy ∨ ¬ AtOrAbove (parentOf (s.nodes hierarchy)) above id

section Steps

variable {i : Nat} {s t : Store} {hierarchy : Hierarchy} {organizationId self : Str}

/-- A climb by the parents of the rows has seen all rows above. -/
theorem not_atOrAbove_of_climb (hs : Sound s) {target : Option Str}
    (h : Climb (fun id parent => s.parentIn hierarchy organizationId id = parent) self target)
    (hwithin : ∀ above, target = some above →
      organizationOf (s.nodes hierarchy) above = some organizationId) :
    ∀ above, target = some above → ¬ AtOrAbove (parentOf (s.nodes hierarchy)) above self := by
  induction h with
  | root => exact nofun
  | @up current parent hparent hne _ ih =>
      rintro _ ⟨⟩
      have horganization := hwithin current rfl
      rw [parentIn_eq hs horganization] at hparent
      cases parent with
      | none =>
          rw [atOrAbove_root hparent]
          exact hne
      | some next =>
          rw [atOrAbove_iff hparent, not_or]
          refine ⟨hne, ih ?_ next rfl⟩
          rintro _ ⟨⟩
          obtain ⟨_, hcurrent, hnext⟩ := (hs hierarchy).within current next hparent
          rw [hnext, ← hcurrent, horganization]

/-- Adding a row keeps a forest: nobody is below it. -/
theorem forest_append {nodes : List Node} {node : Node} (h : WellFormed nodes)
    (hforest : IsForest (parentOf nodes)) (hnew : organizationOf nodes node.id = none)
    (hparent : ∀ target, node.parent = some target →
      organizationOf nodes target = some node.organizationId) :
    IsForest (parentOf (nodes ++ [node])) := by
  rw [parentOf_append hnew]
  refine hforest.update fun above habove => not_atOrAbove_of_leaf ?_ ?_
  · exact fun b hb => h.isSome_of_parent hb hnew
  · rintro rfl
    cases hnew.symm.trans (hparent _ habove)

end Steps

section Runs

open Services.Steps

variable {fuel : Nat} {calls : List Call} {store : Store} {moves : List Move}
variable {s : System Store Choice HttpError Unit}

end Runs

section Examples

private def turns (counts : List (Nat × Nat)) : List (Nat × Choice) :=
  counts.flatMap fun (session, count) => List.replicate count (session, ⟨false, [], 0⟩)

end Examples

end Structure
