import Multistage.Node.Reconstruct
import Multistage.Proofs.Node
import Multistage.Proofs.Template.Cut
/-!
# Core nodes stand for their stage

A core node answers whatever it is asked as its template does, also after rows of it were kept in dense form: a node keeps
only what it would compute again (`Faithful`), whether it is a core node or not.

`cutFrom_of_build` puts this together with the cut: a template is its snapshot, cut and renumbered, and its core nodes are
the template.
-/
namespace Multistage

open Sparse

namespace Node

variable {core : Template} {stage : Nat} {n : Node}

/-! ## Rows that are kept -/

/-- The dense rows that a node keeps are those of its stored rows. -/
def Faithful (core : Template) (n : Node) : Prop :=
  ∀ row dense, n.denseRows[row]? = some dense → ∃ entries, n.storedRow core row = .ok entries ∧ entries.fill 0 = dense

theorem faithful_of_empty (none : n.denseRows = ∅) : n.Faithful core := by
  intro row dense kept
  simp [none] at kept

theorem faithful_fresh (core : Template) (stage : Nat) (content : Content) : (fresh core stage content).Faithful core :=
  faithful_of_empty rfl

/-- A row that cannot be read is not among those that are kept, so that asking for it fails. -/
theorem run_denseRow_error (faithful : n.Faithful core) {row : Nat} {e : Error}
    (failed : n.storedRow core row = .error e) : (denseRow core row).run n = .error e n := by
  cases anchor : n.checkAnchor core with
  | error d =>
    have first : n.storedRow core row = .error d := by rw [storedRow, anchor]; rfl
    obtain rfl := Except.error.inj (first.symm.trans failed)
    rw [denseRow, run_bind_get, anchor, run_bind_error (run_attempt_error ..)]
  | ok =>
    cases kept : n.denseRows[row]? with
    | some dense =>
      obtain ⟨entries, stored, -⟩ := faithful row dense kept
      rw [failed] at stored
      cases stored
    | none =>
      rw [denseRow, run_bind_get, anchor, run_bind_ok (run_attempt_ok ..), kept, failed]
      rfl

/-- A row that can be read is answered in dense form, from what is kept or not, and is kept from then on. -/
theorem run_denseRow_ok (faithful : n.Faithful core) {row : Nat} {v : SparseVector}
    (stored : n.storedRow core row = .ok v) :
    ∃ rows, (denseRow core row).run n = .ok (v.fill 0) { n with denseRows := rows } ∧
      ({ n with denseRows := rows } : Node).Faithful core ∧ ∀ r, r ∈ rows ↔ r = row ∨ r ∈ n.denseRows := by
  obtain ⟨⟨⟩, anchor, -⟩ := bind_eq_ok.1 stored
  rw [denseRow, run_bind_get, anchor, run_bind_ok (run_attempt_ok ..)]
  cases kept : n.denseRows[row]? with
  | some dense =>
    obtain ⟨entries, read, rfl⟩ := faithful row dense kept
    obtain rfl := Except.ok.inj (read.symm.trans stored)
    refine ⟨n.denseRows, rfl, faithful, fun r => ⟨.inr, ?_⟩⟩
    rintro (rfl | before)
    · exact Std.TreeMap.mem_iff_isSome_getElem?.2 (Option.isSome_of_eq_some kept)
    · exact before
  | none =>
    rw [stored]
    refine ⟨n.denseRows.insert row (v.fill 0), rfl, fun r dense found => ?_, fun r => ?_⟩
    · rw [Std.TreeMap.getElem?_insert] at found
      split at found
      · rename_i same
        obtain rfl : row = r := by simpa using same
        exact ⟨v, stored, Option.some.inj found⟩
      · exact faithful r dense found
    · rw [Std.TreeMap.mem_insert, Std.LawfulEqCmp.compare_eq_iff_eq, eq_comm]

/-- Asking for a row answers the stored row in dense form, and changes nothing but the rows that are kept. -/
theorem denseRow_of_faithful (faithful : n.Faithful core) (row : Nat) :
    answered (denseRow core row) n = (n.storedRow core row).map (·.fill 0) ∧
      ∃ rows, stateAfter (denseRow core row) n = { n with denseRows := rows } ∧
        ({ n with denseRows := rows } : Node).Faithful core := by
  rw [answered, stateAfter]
  cases stored : n.storedRow core row with
  | error e =>
    rw [run_denseRow_error faithful stored]
    exact ⟨rfl, n.denseRows, rfl, faithful⟩
  | ok v =>
    obtain ⟨rows, ran, faithful, -⟩ := run_denseRow_ok faithful stored
    rw [ran]
    exact ⟨rfl, rows, rfl, faithful⟩

/-- The node after some of its rows were asked for in dense form. -/
def afterRows (core : Template) (n : Node) (rows : List Nat) : Node :=
  rows.foldl (fun n row => stateAfter (denseRow core row) n) n

theorem faithful_afterRows : ∀ (asked : List Nat) {n : Node}, n.Faithful core →
    ∃ rows, n.afterRows core asked = { n with denseRows := rows } ∧ ({ n with denseRows := rows } : Node).Faithful core
  | [], n, faithful => ⟨n.denseRows, rfl, faithful⟩
  | row :: asked, n, faithful => by
    obtain ⟨-, rows, step, faithful⟩ := denseRow_of_faithful faithful row
    obtain ⟨rows', rest, faithful⟩ := faithful_afterRows asked faithful
    refine ⟨rows', ?_, faithful⟩
    rw [afterRows, List.foldl_cons, step]
    exact rest

/-! ## Core nodes -/

/-- A node answers as the template does for a stage. -/
structure StandsFor (core : Template) (stage : Nat) (n : Node) : Prop where
  fillField : ∀ f buffer, (n.fillField core f).run buffer = (core.fillField stage f).run buffer
  storedRow : ∀ row, n.storedRow core row = core.row stage row
  storedSize : n.storedSize core = core.matrixSize stage
  mergedRow : ∀ row, n.mergedRow core row = core.row stage row
  mergedMatrix : n.mergedMatrix core = core.matrix stage
  denseRow : ∀ row, answered (denseRow core row) n = core.denseRow stage row

/-- A node checks a row as its template does. -/
theorem checkRow_row {data : StageData} (has : core.stages[stage]? = some data)
    (rowCount : n.rowCount = data.matrix.numRows) (row : Nat) :
    (n.checkRow row >>= fun _ => core.row stage row) = core.row stage row := by
  have checked : core.row stage row = (n.checkRow row >>= fun _ => pure (data.matrix.vector row)) := by
    rw [Template.row, Template.matrix_eq has, checkRow, rowCount]
    rfl
  rw [checked]
  cases n.checkRow row <;> rfl

theorem standsFor_core {data : StageData} (has : core.stages[n.stage]? = some data) (own : n.content = .core)
    (template : core.id = n.template) (rowCount : n.rowCount = data.matrix.numRows) (faithful : n.Faithful core) :
    StandsFor core n.stage n := by
  have anchor : n.checkAnchor core = .ok () := if_pos template
  have isCore : n.isCore = true := by rw [Node.isCore, own]
  have storedRow : ∀ row, n.storedRow core row = core.row n.stage row := fun row => by
    rw [Node.storedRow, anchor, own]
    exact checkRow_row has rowCount row
  exact {
    storedRow
    fillField := fun f buffer => by
      rw [Node.fillField, anchor, run_bind_ok (run_attempt_ok ..), own]
      cases ran : (core.fillField n.stage f).run buffer with
      | ok _ filled =>
        rw [run_bind_ok ran]
        rfl
      | error _ left => rw [run_bind_error ran]
    storedSize := by
      rw [Node.storedSize, anchor, own]
      rfl
    mergedRow := fun row => by
      rw [Node.mergedRow, anchor, isCore]
      show (core.row n.stage row >>= fun base => pure base) = core.row n.stage row
      cases core.row n.stage row <;> rfl
    mergedMatrix := by
      rw [Node.mergedMatrix, anchor, isCore]
      rfl
    denseRow := fun row => by
      rw [(denseRow_of_faithful faithful row).1, storedRow, Template.denseRow]
      cases core.row n.stage row <;> rfl }

end Node

namespace Template

/-- A template is a snapshot, cut and renumbered. -/
structure CutFrom (core : Template) (snapshot : Snapshot) (assignment : Assignment) (options : Options) : Prop where
  sameOptions : core.options = options
  stage : ∀ stage, stage < core.numStages → ∃ data, core.stage stage = .ok data ∧ StageCut core snapshot stage data
  /-- A cell of the snapshot is in the slice of its row's stage and in no other. -/
  slice : ∀ c ∈ snapshot.matrix.cells, ∃ stage, assignment.rowStages[c.row]? = some stage ∧
    ∀ s, core.InSlice s c ↔ s = stage
  size : ∃ sizes, (List.range core.numStages).mapM core.matrixSize = .ok sizes ∧
    sizes.foldr (· + ·) 0 = snapshot.matrix.size
  /-- In whatever parts the matrix is given, its cells are those that the parts store. -/
  compressed : ∀ {order starts indices values}, Matrix.ofCompressed? order snapshot.numRows snapshot.numCols starts
    indices values = .ok snapshot.matrix → snapshot.matrix.size = indices.length ∧
      ∀ c : Matrix.Cell, snapshot.matrix.get? c.row c.col = some c.value ↔
        Matrix.StoredAt starts indices values (c.split order).1 (c.split order).2
  coreNode : ∀ stage, stage < core.numStages → ∃ n, Node.core core stage = .ok n ∧
    ∀ asked, Node.StandsFor core stage (n.afterRows core asked)

variable {core : Template} {snapshot : Snapshot} {assignment : Assignment} {options : Options} {id : TemplateId}

theorem mapM_matrixSize (built : core.WellBuilt) :
    (List.range core.numStages).mapM core.matrixSize = .ok (core.stages.toList.map (·.matrix.size)) := by
  rw [mapM_eq_ok, List.length_map, Array.length_toList, List.length_range]
  refine ⟨built.size_stages, fun i stage hi => ?_⟩
  obtain ⟨lt, rfl⟩ := List.getElem?_eq_some_iff.1 hi
  rw [List.getElem_range, List.length_range] at *
  obtain ⟨data, has⟩ := built.exists_stage lt
  refine ⟨data.matrix.size, ?_, bind_eq_ok.2 ⟨_, matrix_eq has, rfl⟩⟩
  rw [List.getElem?_map, Array.getElem?_toList, has]
  rfl

/-- **A template is exactly its snapshot, cut and renumbered**, and its core nodes answer as it does. -/
theorem cutFrom_of_build (built : build id snapshot assignment options = .ok core) :
    core.CutFrom snapshot assignment options := by
  have well := wellBuilt_of_build built
  exact {
    sameOptions := (build_eq_ok built).2.1
    stage := fun stage lt => by
      obtain ⟨data, has⟩ := well.exists_stage lt
      exact ⟨data, stage_eq_ok.2 has, stageCut_of_build built has⟩
    slice := fun c hc => by
      obtain ⟨stage, owned⟩ := exists_owner built hc
      have assigned : assignment.rowStages[c.row]? = some stage :=
        (congrArg (·[c.row]?) (numbering_of_build built .row).1).symm.trans owned
      refine ⟨stage, assigned, fun s => ⟨fun held => ?_, fun same => ?_⟩⟩
      · exact Option.some.inj ((of_inSlice built held).2.symm.trans owned)
      · exact same ▸ inSlice_of_mem built hc owned
    size := ⟨_, mapM_matrixSize well, sum_size_stages built⟩
    compressed := fun parts => ⟨Matrix.size_ofCompressed parts, fun c => by
      rw [← Matrix.mem_cells, Matrix.mem_cells_ofCompressed parts]⟩
    coreNode := fun stage lt => by
      obtain ⟨data, has⟩ := well.exists_stage lt
      refine ⟨_, (Node.anchored_eq_ok well).2 ⟨lt, rfl⟩, fun asked => ?_⟩
      obtain ⟨kept, after, faithful⟩ := Node.faithful_afterRows asked (Node.faithful_fresh core stage .core)
      rw [after]
      exact Node.standsFor_core has rfl rfl (well.numRows_matrix has).symm faithful }

/-- In every field a number that is beyond the infinity of a program, in column fields also one below its negative. -/
def beyondInfinity : FieldTable (Array Binary64) := .ofFn fun f => match f.axis with
  | .row => #[0, ⟨0x7fe0000000000000⟩]
  | .column => #[⟨0x7fe0000000000000⟩, ⟨0x7fe0000000000000⟩, ⟨0xffe0000000000000⟩]

/-- The small program with its matrix kept by column, in parts that do not start at zero, and numbers beyond infinity. -/
theorem cutFrom_interleaved : ∃ matrix core,
    Matrix.ofCompressed? .byColumn 2 3 [5, 6, 7, 9] [0, 1, 0, 1] [.posInf, .negInf, .posInf, 0] = .ok matrix ∧
      build ⟨0⟩ { interleaved with matrix, fields := beyondInfinity } interleavedStages {} = .ok core ∧
      core.stages[1]?.map (·.fields.get .colUpper) = some #[.posInf, .negInf] ∧
      core.stages[1]?.map (·.fields.get .objective) = some #[⟨0x7fe0000000000000⟩, ⟨0xffe0000000000000⟩] ∧
      core.CutFrom { interleaved with matrix, fields := beyondInfinity } interleavedStages {} := by
  have accepted : ((Matrix.ofCompressed? .byColumn 2 3 [5, 6, 7, 9] [0, 1, 0, 1]
      [.posInf, .negInf, .posInf, 0]).mapError Error.malformed |>.bind fun matrix =>
        build ⟨0⟩ { interleaved with matrix, fields := beyondInfinity } interleavedStages {}).isOk = true := by
    decide +kernel
  have fields : ((Matrix.ofCompressed? .byColumn 2 3 [5, 6, 7, 9] [0, 1, 0, 1]
      [.posInf, .negInf, .posInf, 0]).mapError Error.malformed |>.bind fun matrix =>
        build ⟨0⟩ { interleaved with matrix, fields := beyondInfinity } interleavedStages {}).toOption.all fun core =>
          decide (core.stages[1]?.map (·.fields.get .colUpper) = some #[.posInf, .negInf] ∧
            core.stages[1]?.map (·.fields.get .objective) =
              some #[⟨0x7fe0000000000000⟩, ⟨0xffe0000000000000⟩]) := by decide +kernel
  obtain ⟨core, accepted⟩ := exists_of_isOk accepted
  rw [accepted] at fields
  obtain ⟨colUpper, objective⟩ := of_decide_eq_true fields
  obtain ⟨matrix, parts, built⟩ := bind_eq_ok.1 accepted
  exact ⟨matrix, core, mapError_eq_ok.1 parts, built, colUpper, objective, cutFrom_of_build built⟩

end Template
end Multistage
