import Mathlib.Data.List.Dedup
import Multistage.Proofs.Partition.Lookup
import Multistage.Proofs.Runs
/-!
# Integer columns by stage and place

A caller lists integer columns in any order, and may list one more than once.  A partition has for each stage the places of its
listed columns, sorted and without repetitions.  Within a stage columns and places correspond (`localPlace`, `member`), so nothing
is lost: a place of a stage is found in the stage's list exactly if the column there was listed, and the lists are together as
long as the list that was given, each column counted once (`listsIntegers_of_build`).
-/
namespace Multistage

namespace Partition

/-! ## Sorting, without repetitions -/

@[simp] theorem mem_withoutRepeats {l : List Nat} {x : Nat} : x ∈ withoutRepeats l ↔ x ∈ l := by
  fun_induction withoutRepeats l with
  | case1 => rfl
  | case2 y => rfl
  | case3 y l ih =>
    rw [ih]
    exact ⟨List.mem_cons_of_mem y, fun hx => (List.mem_cons.1 hx).elim (· ▸ List.mem_cons_self ..) id⟩
  | case4 y z l apart ih => rw [List.mem_cons, ih, List.mem_cons (a := x) (b := y)]

theorem ascending_withoutRepeats {l : List Nat} (climbing : l.Pairwise (· ≤ ·)) : (withoutRepeats l).Pairwise (· < ·) := by
  fun_induction withoutRepeats l with
  | case1 => exact .nil
  | case2 y => exact List.pairwise_singleton ..
  | case3 y l ih => exact ih climbing.of_cons
  | case4 y z l apart ih =>
    obtain ⟨first, rest⟩ := List.pairwise_cons.1 climbing
    have step : y < z := Nat.lt_of_le_of_ne (first z (List.mem_cons_self ..)) apart
    refine List.pairwise_cons.2 ⟨fun x hx => ?_, ih rest⟩
    rcases List.mem_cons.1 (mem_withoutRepeats.1 hx) with rfl | later
    · exact step
    · exact Nat.lt_of_lt_of_le step (List.rel_of_pairwise_cons rest later)

/-! ## The places of one stage -/

/-- What the list of a stage says of the columns that were listed. -/
structure PlacesOf (cols : Numbering) (listed : List Nat) (t : Nat) (l : List Nat) : Prop where
  ascending : l.Pairwise (· < ·)
  mem_iff : ∀ k, k ∈ l ↔ ∃ j ∈ listed, cols.stageOf[j]? = some t ∧ cols.localPlace t j = k

section Places

variable {cols : Numbering} {listed : List Nat} {t : Nat} {l : List Nat}

theorem placesOf_integerPlaces (h : cols.Coherent) (inside : ∀ j ∈ listed, j < cols.size) {numStages : Nat}
    (ht : t < numStages) : PlacesOf cols listed t ((integerPlaces cols numStages listed).getD t []) := by
  obtain ⟨items, dealt⟩ : ∃ items, items = listed.map fun j =>
      (cols.stageOf.getD j 0, cols.localPlace (cols.stageOf.getD j 0) j) := ⟨_, rfl⟩
  have read : (integerPlaces cols numStages listed).getD t [] = withoutRepeats (itemsAt t items).mergeSort := by
    rw [integerPlaces, ← dealt, Array.getD_eq_getD_getElem?, Array.getElem?_map, buckets_getElem?, if_pos ht]
    rfl
  have climbing : (itemsAt t items).mergeSort.Pairwise (· ≤ ·) :=
    (List.pairwise_mergeSort (fun a b c => by simpa using Nat.le_trans) (fun a b => by simpa using Nat.le_total a b) _).imp
      of_decide_eq_true
  refine read ▸ ⟨ascending_withoutRepeats climbing, fun k => ?_⟩
  rw [mem_withoutRepeats, List.mem_mergeSort, mem_itemsAt, dealt, List.mem_map]
  refine exists_congr fun j => and_congr_right fun hj => ?_
  have there : cols.stageOf[j]? = some (cols.stageOf.getD j 0) := getElem?_eq_getD (h.size_stageOf ▸ inside j hj) 0
  rw [there, Option.some.injEq, Prod.mk.injEq]
  exact and_congr_right fun same => by rw [same]

/-- The list of a stage is as long as the listed columns of the stage are many. -/
theorem PlacesOf.length_eq (h : cols.Coherent) (places : PlacesOf cols listed t l) :
    l.length = (listed.dedup.filter fun j => cols.stageOf[j]? = some t).length := by
  have mem : ∀ j, j ∈ listed.dedup.filter (fun j => cols.stageOf[j]? = some t) ↔
      j ∈ listed ∧ cols.stageOf[j]? = some t := fun j => by
    rw [List.mem_filter, List.mem_dedup, decide_eq_true_eq]
  -- two columns of a stage are at different places of it
  have nodup : ((listed.dedup.filter fun j => cols.stageOf[j]? = some t).map (cols.localPlace t)).Nodup :=
    List.Nodup.map_on (fun i hi j hj same => by
      rw [← h.member_localPlace ((mem i).1 hi).2, same, h.member_localPlace ((mem j).1 hj).2])
      ((List.nodup_dedup _).filter _)
  have perm : l.Perm ((listed.dedup.filter fun j => cols.stageOf[j]? = some t).map (cols.localPlace t)) :=
    (List.perm_ext_iff_of_nodup (places.ascending.imp Nat.ne_of_lt) nodup).2 fun k => by
      rw [places.mem_iff, List.mem_map]
      exact exists_congr fun j => by rw [mem, and_assoc]
  rw [perm.length_eq, List.length_map]

/-- A place of a stage is in the list exactly if the column at it was listed. -/
theorem PlacesOf.mem_iff_member (h : cols.Coherent) (places : PlacesOf cols listed t l) (ht : t < cols.numStages) {k : Nat}
    (hk : k < cols.width t) : k ∈ l ↔ cols.member t k ∈ listed := by
  rw [places.mem_iff]
  constructor
  · rintro ⟨j, hj, owned, rfl⟩
    rwa [h.member_localPlace owned]
  · exact fun hj => ⟨_, hj, h.stageOf_member ht hk, h.localPlace_member ht hk⟩

end Places

/-! ## Of a partition -/

theorem integerColsOf_eq_ok {p : Partition} {t : Nat} {l : List Nat} :
    p.integerColsOf t = .ok l ↔ t < p.numStages ∧ p.integerCols.getD t [] = l := by
  simp only [integerColsOf, bind_eq_ok, pure_eq_ok, checkStage_eq_ok, exists_const]

theorem isInteger_eq_ok {p : Partition} {t k : Nat} {b : Bool} :
    p.isInteger t k = .ok b ↔ ∃ l, p.integerColsOf t = .ok l ∧ containsAscending l k = b := by
  simp only [isInteger, bind_eq_ok, pure_eq_ok]

theorem listed_lt_of_build {numRows numCols : Nat} {assignment : Assignment} {listed : List Nat} {p : Partition}
    (built : build numRows numCols assignment listed = .ok p) : ∀ j ∈ listed, j < p.cols.size := by
  obtain ⟨-, colCount, -, numbered, -, -, inside⟩ := build_eq_ok built
  obtain ⟨bounded, laidOut⟩ := Numbering.ofStages_eq_ok.1 numbered
  rw [laidOut, Numbering.size_layOut .column bounded, colCount]
  exact inside

/-- Over all stages every listed column is counted once, in the list of its stage. -/
theorem total_integerCols {p : Partition} {listed : List Nat} (h : p.cols.Coherent)
    (stages : p.cols.numStages = p.numStages) (inside : ∀ j ∈ listed, j < p.cols.size)
    (list : ∀ t, t < p.numStages → ∃ l, p.integerColsOf t = .ok l ∧ PlacesOf p.cols listed t l) :
    ∃ lists, (List.range p.numStages).mapM p.integerColsOf = .ok lists ∧
      total (lists.map List.length) = listed.dedup.length := by
  obtain ⟨lists, read⟩ := exists_mapM_eq_ok (f := p.integerColsOf) (l := List.range p.numStages) fun t ht =>
    (list t (List.mem_range.1 ht)).imp fun _ => And.left
  obtain ⟨length, each⟩ := mapM_eq_ok.1 read
  have lengths : lists.map List.length = (List.range p.numStages).map fun t =>
      (listed.dedup.filter fun j => p.cols.stageOf[j]? = some t).length := by
    refine List.ext_getElem (by rw [List.length_map, List.length_map, length]) fun t ht _ => ?_
    rw [List.length_map] at ht
    have lt : t < p.numStages := by rwa [length, List.length_range] at ht
    obtain ⟨l, here, own⟩ := each t t (List.getElem?_range lt)
    obtain ⟨l', own', places⟩ := list t lt
    obtain rfl : l' = l := Except.ok.inj (own'.symm.trans own)
    rw [List.getElem_map, List.getElem_map, List.getElem_range, ← places.length_eq h]
    exact congrArg List.length (Option.some.inj ((List.getElem?_eq_getElem ht).symm.trans here))
  -- a listed column has a stage, and only one
  have owned : ∀ j ∈ listed.dedup, ∃ t, p.cols.stageOf[j]? = some t ∧ t < p.numStages := fun j hj => by
    have there := Array.getElem?_eq_getElem (h.size_stageOf.symm ▸ inside j (List.mem_dedup.1 hj))
    exact ⟨_, there, stages ▸ h.stage_lt there⟩
  exact ⟨lists, read, by rw [lengths, total_parts owned]⟩

/-- The integer columns of each stage, as they are read. -/
structure ListsIntegers (p : Partition) (listed : List Nat) : Prop where
  /-- No column lies in front of the first one of its stage. -/
  start_le : ∀ j t s i, p.cols.stage j = .ok t → p.cols.start t = .ok s → p.cols.internal j = .ok i → s ≤ i
  places : ∀ t, t < p.numStages → ∃ l s, p.integerColsOf t = .ok l ∧ p.cols.start t = .ok s ∧ l.Pairwise (· < ·) ∧
    ∀ k, k ∈ l ↔ ∃ j ∈ listed, ∃ i, p.cols.stage j = .ok t ∧ p.cols.internal j = .ok i ∧ k = i - s
  isInteger : ∀ t c k, p.cols.count t = .ok c → k < c → ∃ s e b, p.cols.start t = .ok s ∧ p.cols.external (s + k) = .ok e ∧
    p.isInteger t k = .ok b ∧ (b = true ↔ e ∈ listed)
  distinct : ∃ lists, (List.range p.numStages).mapM p.integerColsOf = .ok lists ∧
    total (lists.map List.length) = listed.dedup.length

/-- **The integer columns are the listed ones**, in whatever order and however often they were listed. -/
theorem listsIntegers_of_build {numRows numCols : Nat} {assignment : Assignment} {listed : List Nat} {p : Partition}
    (built : build numRows numCols assignment listed = .ok p) : p.ListsIntegers listed := by
  have h : p.cols.Coherent := Numbering.coherent_of_ofStages (numbered_of_build built .column)
  have stages : p.cols.numStages = p.numStages := numStages_of_build built .column
  obtain ⟨-, -, -, -, numStages, stored, -⟩ := build_eq_ok built
  have inside : ∀ j ∈ listed, j < p.cols.size := listed_lt_of_build built
  have list : ∀ t, t < p.numStages → ∃ l, p.integerColsOf t = .ok l ∧ PlacesOf p.cols listed t l := fun t ht =>
    ⟨_, integerColsOf_eq_ok.2 ⟨ht, rfl⟩, stored ▸ placesOf_integerPlaces h inside (numStages ▸ ht)⟩
  exact {
    start_le := fun j t s i owned starts placed => by
      obtain ⟨-, rfl⟩ := h.start_eq_ok.1 starts
      obtain ⟨-, rfl⟩ := Numbering.internal_eq_ok.1 placed
      exact h.first_le (h.stage_eq_ok.1 owned)
    places := fun t ht => by
      obtain ⟨l, read, places⟩ := list t ht
      refine ⟨l, _, read, h.start_eq_ok.2 ⟨stages.symm ▸ Nat.le_of_lt ht, rfl⟩, places.ascending, fun k => ?_⟩
      simp only [places.mem_iff, h.stage_eq_ok, Numbering.internal_eq_ok]
      refine exists_congr fun j => and_congr_right fun hj => ⟨?_, ?_⟩
      · rintro ⟨owned, rfl⟩
        exact ⟨_, owned, ⟨inside j hj, rfl⟩, rfl⟩
      · rintro ⟨_, owned, ⟨-, rfl⟩, rfl⟩
        exact ⟨owned, rfl⟩
    isInteger := fun t c k counted hk => by
      obtain ⟨ht, rfl⟩ := Numbering.count_eq_ok.1 counted
      obtain ⟨l, read, places⟩ := list t (stages ▸ ht)
      refine ⟨_, _, _, h.start_eq_ok.2 ⟨Nat.le_of_lt ht, rfl⟩, Numbering.external_eq_ok.2 ⟨h.first_add_lt ht hk, rfl⟩,
        isInteger_eq_ok.2 ⟨l, read, rfl⟩, ?_⟩
      rw [containsAscending_eq_true places.ascending]
      exact places.mem_iff_member h ht hk
    distinct := total_integerCols h stages inside list }

/-- Columns of two stages out of four, in turns, that are listed backwards and more than once. -/
theorem listsIntegers_repeated : ∃ p, build 1 5 ⟨4, #[2], #[3, 1, 3, 1, 3]⟩ [4, 1, 4, 0, 1] = .ok p ∧
    p.ListsIntegers [4, 1, 4, 0, 1] := by
  obtain ⟨p, built⟩ := exists_of_isOk
    (show (build 1 5 ⟨4, #[2], #[3, 1, 3, 1, 3]⟩ [4, 1, 4, 0, 1]).isOk = true by decide +kernel)
  exact ⟨p, built, listsIntegers_of_build built⟩

end Partition
end Multistage
