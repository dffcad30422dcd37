import Multistage.Proofs.Arena.History
/-!
# What a failure leaves behind

A request to an arena may change the arena, or a buffer that the caller brings along, or nothing at all.  If it fails
it has changed neither (`unchanged_of_error`): every check comes in front of the first write, also where a write is
followed by something that could fail by its type, such as the core nodes of a new template.  For the calls this is read
off `Step`; for what fills a buffer it follows the text of the action.
-/
namespace Multistage

/-! ## Filling a buffer -/

theorem BufferM.atomic_copyFrom (source : Array Binary64) : Atomic (copyFrom source) :=
  .get_bind fun _ => .attempt_bind fun _ _ => (infallible_set source).atomic

theorem Template.atomic_fillField (t : Template) (stage : Nat) (f : Field) : Atomic (t.fillField stage f) :=
  .attempt_bind fun _ _ => BufferM.atomic_copyFrom _

theorem MergeRule.atomic_mergeDense (rule : MergeRule) (changes : SparseVector) : Atomic (rule.mergeDense changes) :=
  .get_bind fun _ => .attempt_bind fun _ _ => (infallible_modify _).atomic

namespace Node

variable (n : Node) (core : Template)

/-- The overrides are written after the template's values, and nothing is left to fail then. -/
theorem atomic_fillField (f : Field) : Atomic (n.fillField core f) := by
  refine .attempt_bind fun _ _ => (core.atomic_fillField n.stage f).bind fun _ => ?_
  cases n.content with
  | core => exact infallible_pure _
  | scenario patch => exact infallible_modify _

theorem atomic_mergeDense (row : Nat) : Atomic (n.mergeDense row) :=
  .attempt_bind fun _ _ => .get_bind fun _ => .attempt_bind fun _ _ => (infallible_modify _).atomic

theorem atomic_denseRow (row : Nat) : Atomic (denseRow core row) := by
  refine .get_bind fun n => .attempt_bind fun _ _ => ?_
  cases n.denseRows[row]? with
  | some dense => exact (infallible_pure dense).atomic
  | none => exact .attempt_bind fun entries _ => ((infallible_set _).bind fun _ => infallible_pure _).atomic

end Node

namespace Arena

variable {host : Host} {a : Arena}

theorem atomic_fillField (a : Arena) (id : NodeId) (core? : Option TemplateId) (f : Field) :
    Atomic (a.fillField id core? f) :=
  .attempt_bind fun r _ => r.1.atomic_fillField r.2 f

/-! ## Calls -/

theorem updateOccupant_self {id : NodeId} {o : Occupant} (live : a.occupant? id = some o)
    {change : Occupant → Occupant} (same : change o = o) : a.updateOccupant id change = a := by
  have kept : a.slots.modify id.index (fun slot => { slot with occupant? := slot.occupant?.map fun o => o }) =
      a.slots := Array.ext (Array.size_modify ..) fun i hi _ => by simp [Array.getElem_modify]
  rw [updateOccupant_congr (g := fun o => o) live same, updateOccupant, kept]

theorem atomic_denseRow (id : NodeId) (core? : Option TemplateId) (row : Nat) : Atomic (denseRow id core? row) := by
  intro a e b failed
  cases resolved : a.resolve id core? with
  | error d =>
    rw [run_denseRow_unresolved resolved] at failed
    cases failed
    rfl
  | ok r =>
    obtain ⟨n, t⟩ := r
    obtain ⟨o, live, rfl, -⟩ := resolve_eq_ok.1 resolved
    obtain ⟨rows, ⟨dense, ended⟩ | ⟨d, ended⟩⟩ := denseRow_cases t row o.node
    · rw [run_denseRow_ok live resolved ended] at failed
      cases failed
    -- the node is written back after the failure, and it is the one that was there
    · have same := Node.atomic_denseRow t row o.node d _ ended
      rw [run_denseRow_error live resolved ended] at failed
      cases failed
      exact updateOccupant_self live (by rw [same])

/-- **A call that is refused leaves the arena as it was.** -/
theorem atomic_perform (host : Host) (c : Call) : Atomic (perform host c) := by
  intro a e b failed
  have step := step_perform host a c
  rw [answer, next, failed] at step
  -- a step may leave other rows with a node that refuses to be read, so reading is shown for itself
  cases c with
  | denseRow id core? row => exact (atomic_denseRow id core? row).bind (fun _ => infallible_pure _) a e b failed
  | addTemplate | addNode | internNode | retain | release =>
    cases step
    rfl

end Arena

/-! ## Requests -/

/-- An arena, and a buffer that a caller brings along. -/
structure Desk where
  arena : Arena
  buffer : Array Binary64

/-- What can be asked of an arena, of its live nodes, of a template and of a merge rule, and what is answered. -/
inductive Request : Type → Type where
  | call (c : Call) : Request Answer
  | templateField (t : Template) (stage : Nat) (f : Field) : Request Unit
  | nodeField (id : NodeId) (core? : Option TemplateId) (f : Field) : Request Unit
  | mergedRow (id : NodeId) (core? : Option TemplateId) (row : Nat) : Request SparseVector
  | mergedMatrix (id : NodeId) (core? : Option TemplateId) : Request Matrix
  | mergeSparse (id : NodeId) (row : Nat) (base : SparseVector) : Request SparseVector
  | mergeDense (id : NodeId) (row : Nat) : Request Unit
  | merge (rule : MergeRule) (changes : SparseVector) : Request Unit

namespace Desk

variable {σ α : Type}

/-- An action on a part of the state. -/
def onPart (read : Desk → σ) (write : Desk → σ → Desk) (x : EStateM Error σ α) : EStateM Error Desk α := fun s =>
  match x.run (read s) with
  | .ok y t => .ok y (write s t)
  | .error e t => .error e (write s t)

def onArena : ArenaM α → EStateM Error Desk α := onPart Desk.arena fun s arena => { s with arena }

def onBuffer : BufferM α → EStateM Error Desk α := onPart Desk.buffer fun s buffer => { s with buffer }

def perform (host : Host) : Request α → EStateM Error Desk α
  | .call c => onArena (Arena.perform host c)
  | .templateField t stage f => onBuffer (t.fillField stage f)
  | .nodeField id core? f => do onBuffer ((← get).arena.fillField id core? f)
  | .mergedRow id core? row => do attempt ((← get).arena.mergedRow id core? row)
  | .mergedMatrix id core? => do attempt ((← get).arena.mergedMatrix id core?)
  | .mergeSparse id row base => do
    let n ← attempt ((← get).arena.node id)
    attempt (n.mergeSparse row base)
  | .mergeDense id row => do
    let n ← attempt ((← get).arena.node id)
    onBuffer (n.mergeDense row)
  | .merge rule changes => onBuffer (rule.mergeDense changes)

theorem atomic_onPart {read : Desk → σ} {write : Desk → σ → Desk} (same : ∀ s, write s (read s) = s)
    {x : EStateM Error σ α} (hx : Atomic x) : Atomic (onPart read write x) := by
  intro s e s' failed
  rw [EStateM.run, onPart] at failed
  split at failed
  · cases failed
  · rename_i e₁ t ran
    cases failed
    rw [hx _ _ _ ran, same]

theorem atomic_onArena {x : ArenaM α} (hx : Atomic x) : Atomic (onArena x) := atomic_onPart (fun _ => rfl) hx

theorem atomic_onBuffer {x : BufferM α} (hx : Atomic x) : Atomic (onBuffer x) := atomic_onPart (fun _ => rfl) hx

theorem atomic_perform (host : Host) : ∀ r : Request α, Atomic (perform host r)
  | .call c => atomic_onArena (Arena.atomic_perform host c)
  | .templateField t stage f => atomic_onBuffer (t.atomic_fillField stage f)
  | .nodeField id core? f => .get_bind fun s => atomic_onBuffer (s.arena.atomic_fillField id core? f)
  | .mergedRow .. => .get_bind fun _ => atomic_attempt _
  | .mergedMatrix .. => .get_bind fun _ => atomic_attempt _
  | .mergeSparse .. => .get_bind fun _ => .attempt_bind fun _ _ => atomic_attempt _
  | .mergeDense _ row => .get_bind fun _ => .attempt_bind fun n _ => atomic_onBuffer (n.atomic_mergeDense row)
  | .merge rule changes => atomic_onBuffer (rule.atomic_mergeDense changes)

/-- **A request that fails changes nothing**, neither the arena nor the buffer, whatever the host. -/
theorem unchanged_of_error {host : Host} {r : Request α} {s s' : Desk} {e : Error}
    (failed : (perform host r).run s = .error e s') : s' = s := atomic_perform host r s e s' failed

/-- After the small history the live node has rows to merge, but not onto a buffer that is too short. -/
theorem unchanged_reusing : ∃ e s', (perform Arena.colliding (.mergeDense ⟨2, 1⟩ 0)).run
    ⟨Arena.after Arena.colliding Arena.reusingCalls, #[0]⟩ = .error e s' ∧
      s' = ⟨Arena.after Arena.colliding Arena.reusingCalls, #[0]⟩ := by
  have failed : (match (perform Arena.colliding (.mergeDense ⟨2, 1⟩ 0)).run
      ⟨Arena.after Arena.colliding Arena.reusingCalls, #[0]⟩ with
    | .ok .. => false
    | .error e _ => e == .lengthMismatch .coreRow 3 1) = true := by decide +kernel
  split at failed
  · cases failed
  · rename_i e s' ran
    exact ⟨e, s', ran, unchanged_of_error ran⟩

end Desk
end Multistage
