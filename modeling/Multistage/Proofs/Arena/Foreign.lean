import Multistage.Proofs.Arena.Safety
/-!
# Which templates a node can be used with

A node knows its template by handle, and what it is given is compared with that handle only.  Handles number the
templates of one arena, so within an arena a node works with the very template that it was built from and with no other
(`turnsAway_of_foreign`).

They do not name the arena.  A template of another arena is turned away exactly if its number differs from that of the
node's own; with the same number it passes for it, and the node's entries are merged onto values of a program that they
were not made for (`mixes_acrossArenas`).
-/
namespace Multistage

open Sparse

namespace Node

/-- Whatever is asked of a node with a template, the answer is that the template is not its own. -/
structure TurnsAway (n : Node) (other : Template) : Prop extends n.Refuses other where
  storedLength : ∀ row, (n.storedRow other row).map (·.entries.length) =
    .error (.foreignTemplate n.template other.id)

variable {n : Node} {t : Template}

theorem turnsAway_of_ne (foreign : t.id ≠ n.template) : n.TurnsAway t where
  toRefuses := refuses_of_ne foreign
  storedLength row := by
    rw [(refuses_of_ne foreign).storedRow]
    rfl

/-- A node takes a template for its own if the handles agree: what it stores is counted, whatever the template. -/
theorem storedSize_of_anchor (own : t.id = n.template) :
    n.storedSize t ≠ .error (.foreignTemplate n.template t.id) := by
  have anchor : n.checkAnchor t = .ok () := if_pos own
  intro refused
  rw [storedSize, anchor] at refused
  cases content : n.content with
  | scenario patch =>
    rw [content] at refused
    cases refused
  | core =>
    rw [content] at refused
    replace refused : t.matrixSize n.stage = .error (.foreignTemplate n.template t.id) := refused
    -- a core node counts what the template has; at worst that has no such stage
    rw [Template.matrixSize, Template.matrix, Template.stage] at refused
    cases has : t.stages[n.stage]? <;> rw [has] at refused <;> cases refused

theorem turnsAway_iff : n.TurnsAway t ↔ t.id ≠ n.template :=
  ⟨fun away own => storedSize_of_anchor own away.storedSize, turnsAway_of_ne⟩

end Node

namespace Arena

variable {host : Host}

/-- Which templates of its arena, and of another one, a node works with. -/
structure WorksWith (limit : Nat) (a other : Arena) (n : Node) (core : Template) : Prop where
  own : a.template n.template = .ok core
  made : n.MadeBy limit core
  answers : n.Answers core
  sibling : ∀ k t, a.template k = .ok t → (n.TurnsAway t ↔ t ≠ core)
  /-- What is told apart of another arena's templates is their numbers. -/
  stranger : ∀ k t, other.template k = .ok t → (n.TurnsAway t ↔ k ≠ n.template)

/-- **A node of an arena is turned away by every template of it but the one that the node was built from**, and by those
templates of any other arena that have another number. -/
theorem turnsAway_of_foreign (host : Host) (calls calls' : List Call) {id : NodeId} {n : Node}
    (live : (after host calls).node id = .ok n) :
    ∃ core, WorksWith host.limit (after host calls) (after host calls') n core := by
  have sound : Sound host (after host calls) := sound_after calls
  have named : ∀ (calls : List Call) {k : TemplateId} {t : Template}, (after host calls).template k = .ok t →
      t.id = k := fun calls k t there => by
    have sound : Sound host (after host calls) := sound_after calls
    exact (sound.template (template_eq_ok.1 there)).1
  obtain ⟨o, found, rfl⟩ := node_eq_ok.1 live
  obtain ⟨core, there, made⟩ := allMade_after calls found
  have own := template_eq_ok.2 there
  refine ⟨core, {
    own, made
    answers := (Node.safe_of_madeBy (sound.template there).2 made).2.1
    sibling := fun k t given => ?_
    stranger := fun k t given => ?_ }⟩
  · rw [Node.turnsAway_iff, named calls given]
    refine ⟨fun other same => ?_, fun other same => ?_⟩
    · subst same
      exact other ((named calls given).symm.trans (named calls own))
    · subst same
      exact other (Except.ok.inj (given.symm.trans own))
  · rw [Node.turnsAway_iff, named calls' given]

theorem turnsAway_reusing : ∃ n, (after colliding reusingCalls).node ⟨2, 1⟩ = .ok n ∧
    ∃ core, WorksWith colliding.limit (after colliding reusingCalls) (after colliding reusingCalls) n core := by
  obtain ⟨n, live⟩ := exists_of_isOk
    (show ((after colliding reusingCalls).node ⟨2, 1⟩).isOk = true by decide +kernel)
  exact ⟨n, live, turnsAway_of_foreign colliding reusingCalls reusingCalls live⟩

/-! ## Two arenas -/

/-- The first template of an arena, and a node that bounds the second column of it by zero. -/
def boundedCalls (upper : Array Binary64) : List Call := [
  .addTemplate (columnsOnly upper) (oneStage upper.size) {},
  .addNode ⟨0⟩ 0 (({} : Overrides).set .colUpper 1 0)]

/-- A node that is asked with the first template of another arena mixes the bounds of the two programs, and with a
shorter one it writes where nothing is. -/
theorem mixes_acrossArenas : ∃ n patch core other shorter,
    (after colliding (boundedCalls #[.posInf, .posInf])).node ⟨1, 0⟩ = .ok n ∧ n.patch? = some patch ∧
    (after colliding (boundedCalls #[.posInf, .posInf])).template n.template = .ok core ∧
    (after colliding (boundedCalls #[.negInf, .negInf])).template ⟨0⟩ = .ok other ∧
    (after colliding (boundedCalls #[.negInf])).template ⟨0⟩ = .ok shorter ∧
    (n.fillField core .colUpper).run #[0, 0] = .ok () #[.posInf, 0] ∧
    (n.fillField other .colUpper).run #[0, 0] = .ok () #[.negInf, 0] ∧
    n.checkAnchor shorter = .ok () ∧ (shorter.fillField n.stage .colUpper).run #[0] = .ok () #[.negInf] ∧
    ⟨1, 0⟩ ∈ patch.field .colUpper := by
  obtain ⟨n, live⟩ := exists_of_isOk (show ((after colliding (boundedCalls #[.posInf, .posInf])).node
    ⟨1, 0⟩).isOk = true by decide +kernel)
  obtain ⟨core, own⟩ := exists_of_isOk (show ((after colliding (boundedCalls #[.posInf, .posInf])).template
    ⟨0⟩).isOk = true by decide +kernel)
  obtain ⟨other, given⟩ := exists_of_isOk (show ((after colliding (boundedCalls #[.negInf, .negInf])).template
    ⟨0⟩).isOk = true by decide +kernel)
  obtain ⟨shorter, short⟩ := exists_of_isOk (show ((after colliding (boundedCalls #[.negInf])).template
    ⟨0⟩).isOk = true by decide +kernel)
  have outcomes :
      ((after colliding (boundedCalls #[.posInf, .posInf])).node ⟨1, 0⟩).toOption.all fun n =>
      ((after colliding (boundedCalls #[.posInf, .posInf])).template ⟨0⟩).toOption.all fun core =>
      ((after colliding (boundedCalls #[.negInf, .negInf])).template ⟨0⟩).toOption.all fun other =>
      ((after colliding (boundedCalls #[.negInf])).template ⟨0⟩).toOption.all fun shorter =>
      decide ((n.patch?.any fun patch => decide (⟨1, 0⟩ ∈ patch.field .colUpper)) = true ∧ n.template = ⟨0⟩ ∧
        (answered (n.fillField core .colUpper) #[0, 0] = .ok () ∧
          stateAfter (n.fillField core .colUpper) #[0, 0] = #[.posInf, 0]) ∧
        (answered (n.fillField other .colUpper) #[0, 0] = .ok () ∧
          stateAfter (n.fillField other .colUpper) #[0, 0] = #[.negInf, 0]) ∧
        n.checkAnchor shorter = .ok () ∧
        answered (shorter.fillField n.stage .colUpper) #[0] = .ok () ∧
          stateAfter (shorter.fillField n.stage .colUpper) #[0] = #[.negInf]) := by decide +kernel
  rw [live, own, given, short] at outcomes
  obtain ⟨bounds, anchor, filled, mixed, taken, fits⟩ := of_decide_eq_true outcomes
  obtain ⟨patch, content, bound⟩ := (Option.any_eq_true _ _).1 bounds
  exact ⟨n, patch, core, other, shorter, live, content, anchor ▸ own, given, short, run_eq_ok filled.1 filled.2,
    run_eq_ok mixed.1 mixed.2, taken, run_eq_ok fits.1 fits.2, of_decide_eq_true bound⟩

end Arena
end Multistage
