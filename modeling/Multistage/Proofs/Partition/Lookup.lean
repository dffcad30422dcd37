import Multistage.Proofs.Partition
/-!
# Looking things up in a partition

Each look-up of a numbering checks its number and then reads an array, so it succeeds exactly if the array has the place
(`stage_eq_ok` and its like).  The stage of an internal number is searched for instead: it is the last one that starts at the
number or before it.  Empty stages share their start with the next one that is not empty, and the last of them is taken;
behind the last internal number nothing is searched, so the empty stages at the end are not met (`Coherent.ownedBy`).
-/
namespace Multistage

namespace Numbering

variable {n : Numbering}

theorem internal_eq_ok {e i : Nat} : n.internal e = .ok i ↔ e < n.size ∧ n.place e = i := by
  simp only [internal, bind_eq_ok, pure_eq_ok, checkIndex_eq_ok, exists_const]

theorem external_eq_ok {i e : Nat} : n.external i = .ok e ↔ i < n.size ∧ n.origin i = e := by
  simp only [external, bind_eq_ok, pure_eq_ok, checkIndex_eq_ok, exists_const]

theorem Coherent.stage_eq_ok (h : n.Coherent) {e t : Nat} : n.stage e = .ok t ↔ n.stageOf[e]? = some t := by
  simp only [stage, bind_eq_ok, pure_eq_ok, checkIndex_eq_ok, exists_const]
  rw [Array.getElem?_eq_some_iff, ← h.size_stageOf]
  constructor
  · rintro ⟨inside, read⟩
    exact ⟨inside, (Array.getElem_eq_getD 0).trans read⟩
  · rintro ⟨inside, read⟩
    exact ⟨inside, (Array.getElem_eq_getD 0).symm.trans read⟩

theorem Coherent.start_eq_ok (h : n.Coherent) {t s : Nat} : n.start t = .ok s ↔ t ≤ n.numStages ∧ n.first t = s := by
  unfold start
  by_cases inside : t ≤ n.numStages
  · rw [h.getElem?_starts inside, Except.ok.injEq]
    exact (and_iff_right inside).symm
  · rw [Array.getElem?_eq_none (by rw [h.size_starts]; omega)]
    exact iff_of_false nofun fun both => inside both.1

/-! ## The owner of an internal number -/

/-- How an internal number leads to its stage. -/
structure OwnedBy (n : Numbering) (i t : Nat) : Prop where
  owner : n.owner i = .ok t
  /-- The search ends behind the first stage, so that one can be taken off. -/
  found : 0 < bisect (fun t => n.first t ≤ i) 0 n.starts.size
  external : ∃ e, n.toExternal[i]? = some e ∧ n.stageOf[e]? = some t
  within : ∀ u : Nat, (∃ s s', n.starts[u]? = some s ∧ n.starts[u + 1]? = some s' ∧ s ≤ i ∧ i < s') ↔ u = t

/-- An internal number is in the range of one stage at most. -/
theorem Coherent.stage_unique (h : n.Coherent) {i t u : Nat} (ht : t < n.numStages) (hu : u < n.numStages)
    (inT : n.first t ≤ i ∧ i < n.first (t + 1)) (inU : n.first u ≤ i ∧ i < n.first (u + 1)) : u = t := by
  rcases Nat.lt_trichotomy u t with before | same | behind
  · have := h.first_mono (show u + 1 ≤ t from before) (Nat.le_of_lt ht)
    omega
  · exact same
  · have := h.first_mono (show t + 1 ≤ u from behind) (Nat.le_of_lt hu)
    omega

/-- **The search finds the one stage whose range has the number**, if the first stage starts at zero. -/
theorem Coherent.ownedBy (h : n.Coherent) (zero : n.first 0 = 0) {i : Nat} (hi : i < n.size) :
    ∃ t, t < n.numStages ∧ n.OwnedBy i t := by
  have starts := h.size_starts
  have mono : ∀ t u, t ≤ u → u < n.starts.size → decide (n.first u ≤ i) → decide (n.first t ≤ i) :=
    fun t u htu hu below =>
      decide_eq_true (Nat.le_trans (h.first_mono htu (by omega)) (of_decide_eq_true below))
  obtain ⟨k, stop⟩ : ∃ k, bisect (fun t => n.first t ≤ i) 0 n.starts.size = k := ⟨_, rfl⟩
  have before : ∀ u, u < k → n.first u ≤ i := fun u hu =>
    of_decide_eq_true (lt_bisect mono (Nat.zero_le u) (stop ▸ hu))
  have behind : ∀ u, k ≤ u → u < n.starts.size → i < n.first u := fun u hu lt =>
    Nat.lt_of_not_le (of_decide_eq_false (bisect_le mono (stop ▸ hu) lt))
  have found : 0 < k := Nat.pos_of_ne_zero fun none => by
    have := behind 0 (by omega) (by omega)
    omega
  -- the last start is behind every internal number, so the search does not end behind it
  have inside : k ≤ n.numStages := Nat.le_of_not_lt fun beyond => by
    have := before n.numStages beyond
    rw [h.first_last] at this
    omega
  obtain ⟨t, rfl⟩ : ∃ t, k = t + 1 := ⟨k - 1, by omega⟩
  have start : n.first t ≤ i := before t (Nat.lt_succ_self t)
  have next : i < n.first (t + 1) := behind (t + 1) (Nat.le_refl _) (by omega)
  have width := h.first_succ (show t < n.numStages from inside)
  refine ⟨t, inside, ⟨?_, stop ▸ found, ⟨n.origin i, h.getElem?_toExternal hi, ?_⟩, fun u => ⟨?_, ?_⟩⟩⟩
  · simp only [owner, bind_eq_ok, pure_eq_ok, checkIndex_eq_ok, exists_const]
    exact ⟨hi, by rw [stop, Nat.add_sub_cancel]⟩
  · have owned := h.stageOf_member (t := t) (p := i - n.first t) inside (by omega)
    rwa [member, Nat.add_sub_cancel' start] at owned
  · rintro ⟨s, s', hs, hs', le, lt⟩
    have hu : u < n.numStages := by
      have := (Array.getElem?_eq_some_iff.1 hs').1
      omega
    obtain rfl := Option.some.inj ((h.getElem?_starts (Nat.le_of_lt hu)).symm.trans hs)
    obtain rfl := Option.some.inj ((h.getElem?_starts hu).symm.trans hs')
    exact h.stage_unique inside hu ⟨start, next⟩ ⟨le, lt⟩
  · rintro rfl
    exact ⟨_, _, h.getElem?_starts (Nat.le_of_lt inside), h.getElem?_starts inside, start, next⟩

end Numbering

namespace Partition

theorem numStages_of_build {numRows numCols : Nat} {assignment : Assignment} {integerCols : List Nat} {p : Partition}
    (built : build numRows numCols assignment integerCols = .ok p) (axis : Axis) :
    (p.axis axis).numStages = p.numStages := by
  rw [(Numbering.ofStages_eq_ok.1 (numbered_of_build built axis)).2, Numbering.numStages_layOut,
    (build_eq_ok built).2.2.2.2.1]

/-- **The stage of an internal number is found by binary search**, wherever there are empty stages; a number that no index
has is an error. -/
theorem owner_of_build {numRows numCols : Nat} {assignment : Assignment} {integerCols : List Nat} {p : Partition}
    (built : build numRows numCols assignment integerCols = .ok p) (axis : Axis) :
    (p.axis axis).size = (assignment.stages axis).size ∧
      (∀ i, i < (p.axis axis).size → ∃ t, t < p.numStages ∧ (p.axis axis).OwnedBy i t) ∧
      ∀ i, (p.axis axis).size ≤ i → (p.axis axis).owner i = .error (.indexOutOfRange axis i (p.axis axis).size) := by
  obtain ⟨bounded, laidOut⟩ := Numbering.ofStages_eq_ok.1 (numbered_of_build built axis)
  have zero : (p.axis axis).first 0 = 0 := by
    rw [laidOut, Numbering.first_layOut axis _ _ (Nat.zero_le _)]
    rfl
  refine ⟨by rw [laidOut, Numbering.size_layOut axis bounded], fun i hi => ?_, fun i beyond => ?_⟩
  · exact numStages_of_build built axis ▸ (Numbering.coherent_of_ofStages (numbered_of_build built axis)).ownedBy zero hi
  · have own : (p.axis axis).axis = axis := by rw [laidOut]; rfl
    rw [Numbering.owner, checkIndex, if_neg (Nat.not_lt.2 beyond), own]
    rfl

/-- Two of six stages have rows; one in front of them is empty, two between them and one behind. -/
theorem owner_withEmptyStages : ∃ p, build 3 1 ⟨6, #[4, 1, 4], #[5]⟩ [] = .ok p ∧ p.rows.starts = #[0, 0, 1, 1, 1, 3, 3] ∧
    ((p.axis .row).size = 3 ∧ (∀ i, i < (p.axis .row).size → ∃ t, t < p.numStages ∧ (p.axis .row).OwnedBy i t) ∧
      ∀ i, (p.axis .row).size ≤ i →
        (p.axis .row).owner i = .error (.indexOutOfRange .row i (p.axis .row).size)) := by
  obtain ⟨p, built⟩ := exists_of_isOk
    (show (build 3 1 ⟨6, #[4, 1, 4], #[5]⟩ []).isOk = true by decide +kernel)
  have starts : ((build 3 1 ⟨6, #[4, 1, 4], #[5]⟩ []).toOption.map fun p => p.rows.starts) = some #[0, 0, 1, 1, 1, 3, 3] := by
    decide +kernel
  rw [built] at starts
  exact ⟨p, built, Option.some.inj starts, owner_of_build built .row⟩

end Partition
end Multistage
