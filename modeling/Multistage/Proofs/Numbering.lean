import Multistage.Numbering
/-!
# What a numbering of one axis guarantees

A numbering keeps five arrays about one thing, the external indices dealt out to their stages.  `Coherent` says
how they agree: the internal numbers of a stage are a range as wide as the stage has indices, and `localPlace` and
`member` go back and forth between the indices of a stage and the places of that range.  Everything about stages uses
`Coherent`; only the proof that numbering leads to such arrays looks at how they are filled.
-/
namespace Multistage

variable {α : Type}

/-- In front of its end an array holds what is read there, whatever is read beyond. -/
theorem getElem?_eq_getD {a : Array α} {i : Nat} (h : i < a.size) (beyond : α) : a[i]? = some (a.getD i beyond) := by
  rw [Array.getD_eq_getD_getElem?, Array.getElem?_eq_getElem h, Option.getD_some]

namespace Numbering

/-- How many indices a stage has. -/
def width (n : Numbering) (stage : Nat) : Nat := n.counts.getD stage 0

/-- The external index at a place of a stage. -/
def member (n : Numbering) (stage place : Nat) : Nat := n.origin (n.first stage + place)

theorem count_eq_ok {n : Numbering} {stage k : Nat} :
    n.count stage = .ok k ↔ stage < n.numStages ∧ n.width stage = k := by
  rw [count, width, Array.getD_eq_getD_getElem?, numStages]
  cases h : n.counts[stage]? with
  | none =>
    have := Array.getElem?_eq_none_iff.1 h
    simp only [reduceCtorEq, false_iff, not_and]
    omega
  | some c =>
    have := (Array.getElem?_eq_some_iff.1 h).1
    simp [this]

/-- The arrays of a numbering agree with each other. -/
structure Coherent (n : Numbering) : Prop where
  size_stageOf : n.stageOf.size = n.size
  size_toExternal : n.toExternal.size = n.size
  stage_lt : ∀ {e t : Nat}, n.stageOf[e]? = some t → t < n.numStages
  size_starts : n.starts.size = n.numStages + 1
  /-- The stages lie behind one another, without gaps. -/
  first_succ : ∀ {t : Nat}, t < n.numStages → n.first (t + 1) = n.first t + n.width t
  first_last : n.first n.numStages = n.size
  /-- An index of a stage has its internal number in the range of the stage. -/
  first_le : ∀ {e t : Nat}, n.stageOf[e]? = some t → n.first t ≤ n.place e
  localPlace_lt : ∀ {e t : Nat}, n.stageOf[e]? = some t → n.localPlace t e < n.width t
  origin_place : ∀ {e : Nat}, e < n.size → n.origin (n.place e) = e
  place_origin : ∀ {i : Nat}, i < n.size → n.place (n.origin i) = i
  /-- Every place of a stage is taken by an index of the stage. -/
  stageOf_member : ∀ {t p : Nat}, t < n.numStages → p < n.width t → n.stageOf[n.member t p]? = some t
  localPlace_member : ∀ {t p : Nat}, t < n.numStages → p < n.width t → n.localPlace t (n.member t p) = p

namespace Coherent

variable {n : Numbering} (h : n.Coherent)
include h

theorem first_mono {t u : Nat} (htu : t ≤ u) (hu : u ≤ n.numStages) : n.first t ≤ n.first u := by
  induction u with
  | zero => obtain rfl : t = 0 := by omega
            exact Nat.le_refl _
  | succ u ih =>
    rcases Nat.lt_or_eq_of_le htu with htu | rfl
    · have := ih (by omega) (by omega)
      have := h.first_succ (show u < n.numStages by omega)
      omega
    · exact Nat.le_refl _

theorem first_add_lt {t p : Nat} (ht : t < n.numStages) (hp : p < n.width t) : n.first t + p < n.size := by
  have := h.first_succ ht
  have := h.first_mono (show t + 1 ≤ n.numStages from ht) (Nat.le_refl _)
  have := h.first_last
  omega

theorem getElem?_members {t : Nat} (ht : t < n.numStages) (p : Nat) :
    (n.members t)[p]? = if p < n.width t then some (n.member t p) else none := by
  rw [members, Array.getElem?_extract, h.size_toExternal, h.first_succ ht]
  have := h.first_mono (show t + 1 ≤ n.numStages from ht) (Nat.le_refl _)
  have := h.first_succ ht
  have := h.first_last
  by_cases hp : p < n.width t
  · have inside : n.first t + p < n.toExternal.size := h.size_toExternal ▸ h.first_add_lt ht hp
    rw [if_pos (by omega), if_pos hp, getElem?_eq_getD inside 0]
    rfl
  · rw [if_neg (by omega), if_neg hp]

@[simp] theorem size_members {t : Nat} (ht : t < n.numStages) : (n.members t).size = n.width t := by
  have := h.first_mono (show t + 1 ≤ n.numStages from ht) (Nat.le_refl _)
  have := h.first_succ ht
  have := h.first_last
  rw [members, Array.size_extract, h.size_toExternal]
  omega

/-- An index of a stage is the member at its place. -/
theorem member_localPlace {e t : Nat} (he : n.stageOf[e]? = some t) : n.member t (n.localPlace t e) = e := by
  have size := h.size_stageOf ▸ (Array.getElem?_eq_some_iff.1 he).1
  rw [member, localPlace, Nat.add_sub_cancel' (h.first_le he), h.origin_place size]

theorem place_lt {e : Nat} (he : e < n.size) : n.place e < n.size := by
  have owned := Array.getElem?_eq_getElem (h.size_stageOf ▸ he)
  have := h.first_add_lt (h.stage_lt owned) (h.localPlace_lt owned)
  rw [localPlace] at this
  omega

end Coherent

end Numbering
end Multistage
