import Multistage.Proofs.Partition.Integers
/-!
# Where the look-ups of a partition are defined

A look-up takes an index of an axis, a stage or a place within a stage, and each has a bound of its own.  Below the bound it
answers with what its table holds there, so no table is read beyond its end; from the bound on it refuses, and the error names
what was given and what there is (`DefinedBelow`).  The first number of a stage can be asked for one past the last stage too.

Integrality is asked of a stage and a place, and of the two only the stage is checked.  Beyond a stage the answer is a plain
no (`Partition.DefinedOn`), also to a caller who gives the internal number of an integer column for its place
(`isInteger_beyondStage`).
-/
namespace Multistage

/-! ## Look-ups with one bound -/

/-- A look-up answers below a bound, with what is read there, and refuses everything else. -/
structure DefinedBelow {α : Type} (lookUp : Nat → Except Error α) (bound : Nat) (refusal : Nat → Error)
    (Reads : Nat → α → Prop) : Prop where
  answers : ∀ k, k < bound → ∃ a, lookUp k = .ok a ∧ Reads k a
  refuses : ∀ k, bound ≤ k → lookUp k = .error (refusal k)

section LookUps

variable {α β : Type} {lookUp : Nat → Except Error α} {bound : Nat} {refusal : Nat → Error} {Reads : Nat → α → Prop}

theorem definedBelow_checked {check : Nat → Except Error Unit} {read : Nat → α}
    (checks : ∀ k, check k = if k < bound then .ok () else .error (refusal k)) (inside : ∀ k, k < bound → Reads k (read k)) :
    DefinedBelow (fun k => do check k; return read k) bound refusal Reads where
  answers k hk := by
    refine ⟨read k, ?_, inside k hk⟩
    rw [checks, if_pos hk]
    rfl
  refuses k hk := by
    rw [checks, if_neg (Nat.not_lt.2 hk)]
    rfl

theorem definedBelow_getElem? {table : Array α} (found : ∀ k a, table[k]? = some a → lookUp k = .ok a)
    (missing : ∀ k, table[k]? = none → lookUp k = .error (refusal k)) :
    DefinedBelow lookUp table.size refusal fun k a => table[k]? = some a where
  answers k hk := by
    have there : table[k]? = some table[k] := Array.getElem?_eq_getElem hk
    exact ⟨table[k], found k _ there, there⟩
  refuses k hk := missing k (Array.getElem?_eq_none hk)

theorem DefinedBelow.map {Gives : Nat → β → Prop} {f : α → β} (h : DefinedBelow lookUp bound refusal Reads)
    (carries : ∀ k a, Reads k a → Gives k (f a)) :
    DefinedBelow (fun k => do return f (← lookUp k)) bound refusal Gives where
  answers k hk := by
    obtain ⟨a, answer, read⟩ := h.answers k hk
    refine ⟨f a, ?_, carries k a read⟩
    rw [answer]
    rfl
  refuses k hk := by
    rw [h.refuses k hk]
    rfl

end LookUps

/-! ## Of an axis -/

namespace Numbering

/-- The look-ups of an axis that has so many indices and so many stages. -/
structure DefinedOn (n : Numbering) (axis : Axis) (size numStages : Nat) : Prop where
  internal : DefinedBelow n.internal size (.indexOutOfRange axis · size) fun e i => n.toInternal[e]? = some i
  external : DefinedBelow n.external size (.indexOutOfRange axis · size) fun i e => n.toExternal[i]? = some e
  stage : DefinedBelow n.stage size (.indexOutOfRange axis · size) fun e t => n.stageOf[e]? = some t
  owner : DefinedBelow n.owner size (.indexOutOfRange axis · size) n.OwnedBy
  count : DefinedBelow n.count numStages (.unknownStage · numStages) fun t c => n.counts[t]? = some c
  range : DefinedBelow n.range numStages (.unknownStage · numStages) fun t r =>
    n.starts[t]? = some r.1 ∧ n.starts[t + 1]? = some r.2
  start : DefinedBelow n.start (numStages + 1) (.unknownStage · numStages) fun t s => n.starts[t]? = some s

variable {n : Numbering}

theorem owner_eq_ok {i t : Nat} :
    n.owner i = .ok t ↔ i < n.size ∧ bisect (fun t => n.first t ≤ i) 0 n.starts.size - 1 = t := by
  simp only [owner, bind_eq_ok, pure_eq_ok, checkIndex_eq_ok, exists_const]

theorem Coherent.definedOn (h : n.Coherent) (zero : n.first 0 = 0) : n.DefinedOn n.axis n.size n.numStages where
  internal := definedBelow_checked (fun _ => rfl) fun e he => Coherent.getElem?_toInternal he
  external := definedBelow_checked (fun _ => rfl) fun i hi => h.getElem?_toExternal hi
  stage := definedBelow_checked (fun _ => rfl) fun e he => getElem?_eq_getD (h.size_stageOf.symm ▸ he) 0
  owner := definedBelow_checked (fun _ => rfl) fun i hi => by
    -- the search ends behind the first stage, so one can be taken off
    obtain ⟨t, -, owned⟩ := h.ownedBy zero hi
    obtain ⟨-, rfl⟩ := owner_eq_ok.1 owned.owner
    exact owned
  count := definedBelow_getElem? (fun t c there => by rw [count, there]) fun t missing => by rw [count, missing]
  range := definedBelow_checked (fun _ => rfl) fun t ht => ⟨h.getElem?_starts (Nat.le_of_lt ht), h.getElem?_starts ht⟩
  start := by
    -- there is a start more than there are stages
    rw [← h.size_starts]
    exact definedBelow_getElem? (fun t s there => by rw [start, there]) fun t missing => by rw [start, missing]

/-- **The look-ups of a numbered axis are defined on the indices and the stages that it was numbered for.** -/
theorem definedOn_of_ofStages {axis : Axis} {stages : Array Nat} {numStages : Nat}
    (numbered : ofStages axis stages numStages = .ok n) : n.DefinedOn axis stages.size numStages := by
  obtain ⟨bounded, rfl⟩ := ofStages_eq_ok.1 numbered
  have defined := (coherent_layOut axis bounded).definedOn (first_zero_layOut axis stages numStages)
  rwa [size_layOut axis bounded, numStages_layOut] at defined

end Numbering

/-! ## Of a partition -/

namespace Partition

/-- The look-ups of a partition that has so many rows, columns and stages. -/
structure DefinedOn (p : Partition) (numRows numCols numStages : Nat) : Prop where
  rows : p.rows.DefinedOn .row numRows numStages
  cols : p.cols.DefinedOn .column numCols numStages
  integerCols : DefinedBelow p.integerColsOf numStages (.unknownStage · numStages) fun t l => p.integerCols[t]? = some l
  /-- Whatever the place is, only the stage is checked. -/
  isInteger : ∀ place, DefinedBelow (p.isInteger · place) numStages (.unknownStage · numStages) fun t b =>
    ∃ l, p.integerCols[t]? = some l ∧ (b = true ↔ place ∈ l)
  beyondStage : ∀ t c place, p.cols.count t = .ok c → c ≤ place → p.isInteger t place = .ok false

theorem PlacesOf.lt_width {cols : Numbering} {listed : List Nat} {t : Nat} {l : List Nat} (h : cols.Coherent)
    (places : PlacesOf cols listed t l) {k : Nat} (hk : k ∈ l) : k < cols.width t := by
  obtain ⟨j, -, owned, rfl⟩ := (places.mem_iff k).1 hk
  exact h.localPlace_lt owned

section Built

variable {numRows numCols : Nat} {assignment : Assignment} {listed : List Nat} {p : Partition}
  (built : build numRows numCols assignment listed = .ok p)
include built

theorem size_integerCols_of_build : p.integerCols.size = p.numStages := by
  obtain ⟨-, -, -, -, numStages, stored, -⟩ := build_eq_ok built
  rw [stored, integerPlaces, Array.size_map, size_buckets, numStages]

theorem placesOf_of_build {t : Nat} {l : List Nat} (there : p.integerCols[t]? = some l) : PlacesOf p.cols listed t l := by
  obtain ⟨-, -, -, numbered, numStages, stored, -⟩ := build_eq_ok built
  have ht : t < assignment.numStages := by
    rw [← numStages, ← size_integerCols_of_build built]
    exact (Array.getElem?_eq_some_iff.1 there).1
  have places := placesOf_integerPlaces (Numbering.coherent_of_ofStages numbered) (listed_lt_of_build built) ht
  rwa [← stored, Array.getD_eq_getD_getElem?, there, Option.getD_some] at places

theorem definedBelow_integerColsOf : DefinedBelow p.integerColsOf p.numStages (.unknownStage · p.numStages)
    fun t l => p.integerCols[t]? = some l :=
  definedBelow_checked (fun _ => rfl) fun _ ht => getElem?_eq_getD (size_integerCols_of_build built ▸ ht) []

theorem definedBelow_isInteger (place : Nat) :
    DefinedBelow (p.isInteger · place) p.numStages (.unknownStage · p.numStages)
      fun t b => ∃ l, p.integerCols[t]? = some l ∧ (b = true ↔ place ∈ l) :=
  (definedBelow_integerColsOf built).map fun _ l there =>
    ⟨l, there, containsAscending_eq_true (placesOf_of_build built there).ascending⟩

theorem isInteger_of_width_le {t place : Nat} (ht : t < p.numStages) (beyond : p.cols.width t ≤ place) :
    p.isInteger t place = .ok false := by
  obtain ⟨b, answer, l, there, integer⟩ := (definedBelow_isInteger built place).answers t ht
  -- the places in a list are those of columns of the stage
  have coherent := Numbering.coherent_of_ofStages (numbered_of_build built .column)
  have outside : place ∉ l := fun member =>
    Nat.not_lt.2 beyond ((placesOf_of_build built there).lt_width coherent member)
  rw [answer, Bool.eq_false_iff.2 (outside ∘ integer.1)]

end Built

/-- **A look-up of a partition is defined on its domain and refuses everything else**, but for integrality, which is
defined at every place, also where the stage has ended. -/
theorem definedOn_of_build {numRows numCols : Nat} {assignment : Assignment} {listed : List Nat} {p : Partition}
    (built : build numRows numCols assignment listed = .ok p) : p.DefinedOn numRows numCols assignment.numStages := by
  obtain ⟨rowCount, colCount, rows, cols, numStages, -⟩ := build_eq_ok built
  have stages : p.cols.numStages = p.numStages := numStages_of_build built .column
  rw [← rowCount, ← colCount]
  exact {
    rows := Numbering.definedOn_of_ofStages rows
    cols := Numbering.definedOn_of_ofStages cols
    integerCols := numStages ▸ definedBelow_integerColsOf built
    isInteger := fun place => numStages ▸ definedBelow_isInteger built place
    beyondStage := fun t c place counted beyond => by
      obtain ⟨ht, rfl⟩ := Numbering.count_eq_ok.1 counted
      exact isInteger_of_width_le built (stages ▸ ht) beyond }

/-- The first and the last of four stages have nothing, and the second has one row and one column. -/
theorem definedOn_withEmptyStages : ∃ p, build 3 2 ⟨4, #[2, 1, 2], #[1, 2]⟩ [1, 0, 1] = .ok p ∧ p.DefinedOn 3 2 4 := by
  obtain ⟨p, built⟩ := exists_of_isOk
    (show (build 3 2 ⟨4, #[2, 1, 2], #[1, 2]⟩ [1, 0, 1]).isOk = true by decide +kernel)
  exact ⟨p, built, definedOn_of_build built⟩

/-- The second column is the integer column of the second stage.  The first stage, which ends in front of it, is asked for it
by its internal number, and the answer is no. -/
theorem isInteger_beyondStage : ∃ p, build 1 2 ⟨2, #[0], #[0, 1]⟩ [1] = .ok p ∧
    p.cols.count 0 = .ok 1 ∧ p.cols.external 1 = .ok 1 ∧ p.isInteger 1 0 = .ok true ∧ p.isInteger 0 1 = .ok false ∧
    ¬ ∀ t place, (∃ b, p.isInteger t place = .ok b) ↔ t < p.numStages ∧ ∃ c, p.cols.count t = .ok c ∧ place < c := by
  obtain ⟨p, built⟩ := exists_of_isOk
    (show (build 1 2 ⟨2, #[0], #[0, 1]⟩ [1]).isOk = true by decide +kernel)
  have outcomes : (build 1 2 ⟨2, #[0], #[0, 1]⟩ [1]).toOption.all fun p =>
      decide (p.cols.count 0 = .ok 1 ∧ p.cols.external 1 = .ok 1 ∧ p.isInteger 1 0 = .ok true ∧
        p.isInteger 0 1 = .ok false) := by decide +kernel
  rw [built] at outcomes
  obtain ⟨counted, external, integer, beyond⟩ := of_decide_eq_true outcomes
  refine ⟨p, built, counted, external, integer, beyond, fun refused => ?_⟩
  obtain ⟨-, c, counted', inside⟩ := (refused 0 1).1 ⟨false, beyond⟩
  obtain rfl : 1 = c := Except.ok.inj (counted.symm.trans counted')
  exact Nat.lt_irrefl 1 inside

end Partition
end Multistage
