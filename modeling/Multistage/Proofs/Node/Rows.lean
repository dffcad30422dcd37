import Multistage.Proofs.Merge.Laws
import Multistage.Proofs.Node.Safe
/-!
# Three ways to a row of a node

A row can be asked for as a whole, or merged by the caller onto the template's row, sparse or dense.  The first two answer the
same vector, and the third leaves the array that this vector stands for (`rows_agree`).
-/
namespace Multistage

open Sparse

namespace Node

variable {core : Template} {stage : Nat} {n : Node} {i : Nat}

/-- A row of a node is the same row by each of the ways to it. -/
def RowsAgree (core : Template) (n : Node) (i : Nat) : Prop :=
  ∃ base dense row merged expanded, core.row n.stage i = .ok base ∧ core.denseRow n.stage i = .ok dense ∧
    n.mergedRow core i = .ok row ∧ n.mergeSparse i base = .ok row ∧ (n.mergeDense i).run dense = .ok () merged ∧
    row.expand 0 merged.size = .ok expanded ∧ MergeRule.Agrees n.dropZeros expanded merged

theorem rowsAgree_patched {overrides : Overrides} {patch : Patch} (well : core.WellBuilt) (lt : stage < core.numStages)
    (inRange : InRange core overrides) (holds : HoldsOverrides core stage overrides patch)
    (hi : i < (core.numbering .row).width stage) : RowsAgree core (patched core stage patch) i := by
  obtain ⟨data, has⟩ := well.exists_stage lt
  have stored := wellStored_patched well lt inRange holds
  have line : IsLine core.numCols (patch.row i) := stored.inOrder.row i hi
  have inside : i < data.matrix.numRows := (well.numRows_matrix has).symm ▸ hi
  have base : core.row stage i = .ok (data.matrix.vector i) := Template.row_eq has inside
  have dense : core.denseRow stage i = .ok ((data.matrix.vector i).fill 0) := bind_eq_ok.2 ⟨_, base, rfl⟩
  have width : (data.matrix.vector i).dim = core.numCols := well.width_matrix has
  have fits : ((data.matrix.vector i).fill 0).size = core.numCols := (SparseVector.size_fill ..).trans width
  obtain ⟨expanded, filled, agrees⟩ := core.options.rule.exists_expanded
    (show (data.matrix.vector i).dim = (⟨core.numCols, patch.row i, line⟩ : SparseVector).dim from width)
    core.options.dropZeros
  exact ⟨_, _, _, _, expanded, base, dense, mergedRow_fresh has hi inside line, mergeSparse_patched hi line _,
    (stored.mergeDense i _ hi fits).1, filled, agrees⟩

/-- **Merging two sparse vectors and merging into an array agree**, for vectors by themselves and for the rows of every
scenario node. -/
theorem rows_agree :
    (∀ (rule : MergeRule) (base changes : SparseVector), base.dim = changes.dim → rule.VectorsAgree base changes) ∧
    ∀ {limit : Nat} {id : TemplateId} {snapshot : Snapshot} {assignment : Assignment} {options : Options}
      {core : Template} {n : Node},
      Template.build id snapshot assignment options = .ok core → MadeBy limit core n → n.isCore = false →
        ∀ i, i < n.rowCount → RowsAgree core n i := by
  refine ⟨fun rule _ _ same => rule.vectorsAgree same, ?_⟩
  intro limit id snapshot assignment options core n built made own i hi
  have well := Template.wellBuilt_of_build built
  cases made with
  | core => cases own
  | scenario accepted rows =>
    obtain ⟨lt, inRange, patch, rfl, holds⟩ := ofOverrides_eq_ok well accepted
    -- the rows that the node keeps play no part in merging
    exact rowsAgree_patched well lt inRange holds hi

/-- The row of a stage that takes turns with another, and two vectors that add up, of which one stores a negative zero. -/
theorem rows_agree_interleaved :
    (∃ base changes : SparseVector, base.entries = [⟨0, -0⟩, ⟨1, .posInf⟩] ∧ changes.entries = [⟨1, .negInf⟩, ⟨2, -0⟩] ∧
      base.dim = changes.dim ∧ MergeRule.add.VectorsAgree base changes) ∧
    ∃ core node tally, Template.build ⟨0⟩ interleaved interleavedStages {} = .ok core ∧
      ofOverrides core 1 interleavedOverrides = .ok (node, tally) ∧ MadeBy RowWriter.addressable core node ∧
      node.isCore = false ∧ 0 < node.rowCount ∧ RowsAgree core node 0 := by
  refine ⟨⟨⟨3, [⟨0, -0⟩, ⟨1, .posInf⟩], by decide⟩, ⟨3, [⟨1, .negInf⟩, ⟨2, -0⟩], by decide⟩, rfl, rfl, rfl,
    rows_agree.1 _ _ _ rfl⟩, ?_⟩
  obtain ⟨core, node, tally, built, accepted⟩ := exists_interleaved
  have inside : 0 < node.rowCount :=
    of_decide_eq_true (of_interleaved built accepted (fun made => decide (0 < made.1.rowCount)) (by decide +kernel))
  have made : MadeBy RowWriter.addressable core node := .scenario accepted node.denseRows
  have own : node.isCore = false := by
    obtain ⟨-, -, patch, rfl, -⟩ := ofOverrides_eq_ok (Template.wellBuilt_of_build built) accepted
    rfl
  exact ⟨core, node, tally, built, accepted, made, own, inside, rows_agree.2 built made own 0 inside⟩

end Node
end Multistage
