import Multistage.Proofs.Outcome
/-!
# Which error a computation fails with

What speaks against a request can be listed in an order, all of it, whether or not anything comes to look at it.  A
computation that makes its checks in that order fails with the first objection of the list, and succeeds if the list is empty
(`StopsAtFirst`).  The rules follow the text of a computation: objections to its steps are put behind one another.
-/
namespace Multistage

variable {ε α β : Type} {e : ε} {k l : List ε} {x : Except ε α}

/-- A computation fails with the first of the objections, if there are any. -/
inductive StopsAtFirst : Except ε α → List ε → Prop
  | clear (a : α) : StopsAtFirst (.ok a) []
  | stopped (e : ε) (later : List ε) : StopsAtFirst (.error e) (e :: later)

/-- The objection that something does not hold. -/
def ifNot (p : Prop) [Decidable p] (e : ε) : List ε := if p then [] else [e]

@[simp] theorem ifNot_eq_nil {p : Prop} [Decidable p] : ifNot p e = [] ↔ p := by
  unfold ifNot
  split <;> simp [*]

theorem mem_ifNot {p : Prop} [Decidable p] {d : ε} : d ∈ ifNot p e ↔ ¬ p ∧ d = e := by
  unfold ifNot
  split <;> simp [*]

namespace StopsAtFirst

theorem ok_iff (h : StopsAtFirst x l) : (∃ a, x = .ok a) ↔ l = [] := by
  cases h with
  | clear a => simp
  | stopped e later => simp

theorem error_iff (h : StopsAtFirst x l) : x = .error e ↔ l.head? = some e := by
  cases h with
  | clear a => simp
  | stopped d later => simp

/-- A step that fails with the first objection to it, and what goes on from where it leads. -/
theorem bind {f : α → Except ε β} (h : StopsAtFirst x k) (go : ∀ a, x = .ok a → StopsAtFirst (f a) l) :
    StopsAtFirst (x >>= f) (k ++ l) := by
  cases h with
  | clear a => exact go a rfl
  | stopped e later => exact .stopped e (later ++ l)

/-- A step that nothing speaks against. -/
theorem ok_bind {f : α → Except ε β} {a : α} (step : x = .ok a) (go : StopsAtFirst (f a) l) : StopsAtFirst (x >>= f) l := by
  subst step
  exact go

theorem of_ok {a : α} (h : x = .ok a) : StopsAtFirst x [] := by
  subst h
  exact .clear a

theorem forM {ι : Type} {f : ι → Except ε Unit} {against : ι → List ε} (h : ∀ i, StopsAtFirst (f i) (against i)) :
    ∀ items : List ι, StopsAtFirst (items.forM f) (items.flatMap against)
  | [] => .clear ()
  | i :: items => (h i).bind fun _ _ => forM h items

end StopsAtFirst

/-! ## The checks -/

theorem stopsAtFirst_checkLength (what : Measured) (expected actual : Nat) :
    StopsAtFirst (checkLength what expected actual)
      (ifNot (actual = expected) (.lengthMismatch what expected actual)) := by
  unfold checkLength ifNot
  split
  · exact .clear ()
  · exact .stopped _ _

theorem stopsAtFirst_checkIndex (axis : Axis) (index count : Nat) :
    StopsAtFirst (checkIndex axis index count) (ifNot (index < count) (.indexOutOfRange axis index count)) := by
  unfold checkIndex ifNot
  split
  · exact .clear ()
  · exact .stopped _ _

theorem stopsAtFirst_checkStage (stage numStages : Nat) :
    StopsAtFirst (checkStage stage numStages) (ifNot (stage < numStages) (.unknownStage stage numStages)) := by
  unfold checkStage ifNot
  split
  · exact .clear ()
  · exact .stopped _ _

/-- A search for the first member that is objected to. -/
theorem stopsAtFirst_find? {ι : Type} {p : ι → Bool} {items : List ι} {object : ι → ε} {a : α}
    (found : ∀ i, items.find? p = some i → x = .error (object i)) (none : items.find? p = none → x = .ok a) :
    StopsAtFirst x ((items.filter p).map object) := by
  rw [← List.head?_filter] at found none
  cases against : items.filter p with
  | nil =>
    rw [none (by rw [against]; rfl)]
    exact .clear a
  | cons i later =>
    rw [found i (by rw [against]; rfl)]
    exact .stopped _ _

end Multistage
