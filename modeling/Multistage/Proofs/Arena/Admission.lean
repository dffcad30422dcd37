import Multistage.Proofs.Arena.History
import Multistage.Proofs.Node.Accepted
import Multistage.Proofs.Template.Accepted
/-!
# What an arena lets in

A template is added if its snapshot and its assignment fit each other, a scenario node if all that its overrides name exists,
and what is not let in is answered with the first objection to it (`decidesTemplate`, `admits_after`).  Nothing that the arena
does afterwards fails: the core nodes of a template go in whatever the arena has become by then.
-/
namespace Multistage

open Sparse

namespace Arena

variable {host : Host} {a : Arena}

/-! ## Templates -/

/-- Which snapshots an arena takes for a template, and how it answers to the others. -/
structure DecidesTemplate (a : Arena) (snapshot : Snapshot) (assignment : Assignment) (options : Options) : Prop where
  accepted : (∃ id b, (addTemplate snapshot assignment options).run a = .ok id b) ↔
    snapshot.Consistent ∧ assignment.Fits snapshot.numRows snapshot.numCols
  rejected : ∀ e, (∃ b, (addTemplate snapshot assignment options).run a = .error e b) ↔
    (snapshot.objections ++ assignment.objections snapshot.numRows snapshot.numCols).head? = some e
  unchanged : ∀ e b, (addTemplate snapshot assignment options).run a = .error e b → b = a
  wellFormed : ∀ e b fault, (addTemplate snapshot assignment options).run a = .error e b → e ≠ .malformed fault
  /-- A row is renumbered and sorted, and it is a line then. -/
  sorted : ∀ core, Template.build ⟨a.templates.size⟩ snapshot assignment options = .ok core → ∀ stage data,
    core.stage stage = .ok data → ∀ i, i < data.matrix.numRows →
      data.matrix.line i = sorted ((snapshot.matrix.byRow.line ((core.numbering .row).member stage i)).map
        (Template.renumberEntry (core.numbering .column))) ∧ IsLine snapshot.numCols (data.matrix.line i)
  /-- When the template is there its core nodes go in, whatever the arena has become. -/
  inserted : ∀ core, Template.build ⟨a.templates.size⟩ snapshot assignment options = .ok core → ∀ stage,
    stage < core.numStages → ∀ b, ∃ id b', (addCore core stage).run b = .ok id b'

/-- A template is added exactly if it is built. -/
theorem run_addTemplate_cases (a : Arena) (snapshot : Snapshot) (assignment : Assignment) (options : Options) :
    (∃ core, Template.build ⟨a.templates.size⟩ snapshot assignment options = .ok core ∧
      (addTemplate snapshot assignment options).run a = .ok ⟨a.templates.size⟩ (a.withTemplate core)) ∨
    ∃ e, Template.build ⟨a.templates.size⟩ snapshot assignment options = .error e ∧
      (addTemplate snapshot assignment options).run a = .error e a := by
  cases built : Template.build ⟨a.templates.size⟩ snapshot assignment options with
  | ok core => exact .inl ⟨core, rfl, run_addTemplate built⟩
  | error e => exact .inr ⟨e, rfl, run_addTemplate_refused built⟩

/-- **An arena takes exactly the snapshots that are consistent**, with stages that exist. -/
theorem decidesTemplate (a : Arena) (snapshot : Snapshot) (assignment : Assignment) (options : Options) :
    DecidesTemplate a snapshot assignment options := by
  have decided := Template.stopsAtFirst_build ⟨a.templates.size⟩ snapshot assignment options
  have added := a.run_addTemplate_cases snapshot assignment options
  have refused : ∀ {e b}, (addTemplate snapshot assignment options).run a = .error e b →
      b = a ∧ Template.build ⟨a.templates.size⟩ snapshot assignment options = .error e := by
    intro e b failed
    rcases added with ⟨core, -, ran⟩ | ⟨d, built, ran⟩
    · rw [ran] at failed
      cases failed
    · rw [ran] at failed
      cases failed
      exact ⟨rfl, built⟩
  exact {
    accepted := by
      have buildable : (∃ core, Template.build ⟨a.templates.size⟩ snapshot assignment options = .ok core) ↔ _ :=
        Template.exists_build_iff
      rw [← buildable]
      constructor
      · rintro ⟨id, b, ran⟩
        rcases added with ⟨core, built, -⟩ | ⟨e, -, failed⟩
        · exact ⟨core, built⟩
        · rw [failed] at ran
          cases ran
      · rintro ⟨core, built⟩
        exact ⟨_, _, run_addTemplate built⟩
    rejected := fun e => by
      rw [← decided.error_iff]
      exact ⟨fun ⟨b, failed⟩ => (refused failed).2, fun built => ⟨a, run_addTemplate_refused built⟩⟩
    unchanged := fun e b failed => (refused failed).1
    wellFormed := fun e b fault failed =>
      Template.not_malformed (List.mem_of_mem_head? (decided.error_iff.1 (refused failed).2)) fault
    sorted := fun core built stage data found i hi => by
      have has := Template.stage_eq_ok.1 found
      have line := data.matrix.isLine_line i
      have width := (Template.stageCut_of_build built has).numCols
      rw [Matrix.numCols, (Template.stageCut_of_build built has).order] at width
      exact ⟨Template.line_eq_sorted built has hi, width ▸ line⟩
    inserted := fun core built stage lt b => ⟨_, _, run_addCore (Template.wellBuilt_of_build built) lt⟩ }

/-! ## Scenario nodes -/

/-- What speaks against making overrides into a node of a stage of a template. -/
def objections (a : Arena) (k : TemplateId) (stage : Nat) (overrides : Overrides) : List Error :=
  match a.templates[k.index]? with
  | some core => Node.objections core stage overrides
  | none => [.unknownTemplate k]

/-- Which overrides a call makes into a node, or finds a node for, and how it answers to the others. -/
structure Admits (host : Host) (a : Arena) (k : TemplateId) (stage : Nat) (overrides : Overrides) (c : Call) :
    Prop where
  accepted : (∃ id tally, answer host a c = .ok (.node id tally)) ↔
    ∃ core, a.template k = .ok core ∧ stage < core.numStages ∧ Node.InRange core overrides
  rejected : ∀ e, answer host a c = .error e ↔ (a.objections k stage overrides).head? = some e
  causes : ∀ e, answer host a c = .error e → e = .unknownTemplate k ∨ (∃ numStages, e = .unknownStage stage numStages) ∨
    ∃ axis index count, e = .indexOutOfRange axis index count ∧ count ≤ index

variable {k : TemplateId} {stage : Nat} {overrides : Overrides} {c : Call}

theorem template_eq_error (unknown : a.templates[k.index]? = none) : a.template k = .error (.unknownTemplate k) := by
  rw [template, unknown]

/-- Building a node fails with the first objection. -/
theorem stopsAtFirst_build (well : ∀ core, a.templates[k.index]? = some core → core.WellBuilt)
    (room : ∀ core, a.templates[k.index]? = some core → Node.HasRoom host.limit core stage overrides) :
    StopsAtFirst (a.template k >>= fun core => Node.ofOverridesBy host.limit core stage overrides)
      (a.objections k stage overrides) := by
  unfold objections
  cases found : a.templates[k.index]? with
  | none =>
    rw [template_eq_error found]
    exact .stopped _ []
  | some core => exact .ok_bind (template_eq_ok.2 found) (Node.stopsAtFirst_ofOverrides (well core found) (room core found))

/-- A call that is to make a node is refused as building it is. -/
theorem answer_of_refused (host : Host) {e : Error}
    (asked : c = .addNode k stage overrides ∨ c = .internNode k stage overrides)
    (refused : (a.template k >>= fun core => Node.ofOverridesBy host.limit core stage overrides) = .error e) :
    answer host a c = .error e := by
  have failed : (buildNode host.limit k stage overrides).run a = .error e a := by
    rw [buildNode, run_bind_get]
    cases found : a.template k with
    | error d =>
      rw [found] at refused
      cases refused
      rw [run_bind_error (run_attempt_error ..)]
    | ok core =>
      rw [found] at refused
      have rejected : Node.ofOverridesBy host.limit core stage overrides = .error e := refused
      rw [run_bind_ok (run_attempt_ok ..), rejected, run_attempt_error]
  rcases asked with rfl | rfl
  · have ran : (addNodeBy host k stage overrides).run a = .error e a := run_bind_error failed
    have ran : (perform host (.addNode k stage overrides)).run a = .error e a := run_bind_error ran
    rw [answer, ran]
  · have ran : (internNodeBy host k stage overrides).run a = .error e a := run_bind_error failed
    have ran : (perform host (.internNode k stage overrides)).run a = .error e a := run_bind_error ran
    rw [answer, ran]

/-- Where the node is built the call goes through: it is put in, or a node that is alike gets another holder. -/
theorem answer_of_built (host : Host) {node : Node} {tally : Tally}
    (asked : c = .addNode k stage overrides ∨ c = .internNode k stage overrides)
    (built : (a.template k >>= fun core => Node.ofOverridesBy host.limit core stage overrides) = .ok (node, tally)) :
    ∃ id, answer host a c = .ok (.node id tally) := by
  obtain ⟨core, found, accepted⟩ := bind_eq_ok.1 built
  have found := template_eq_ok.1 found
  rcases asked with rfl | rfl
  · have ran : (addNodeBy host k stage overrides).run a = _ := run_addNode found accepted
    have ran : (perform host (.addNode k stage overrides)).run a = .ok (.node _ tally) _ := run_bind_ok ran
    exact ⟨_, by rw [answer, ran]⟩
  · cases first : a.findAlike (node.key host.hash) node with
    | none =>
      have ran := run_internNode_created found accepted first
      have ran : (perform host (.internNode k stage overrides)).run a = .ok (.node _ tally) _ := run_bind_ok ran
      exact ⟨_, by rw [answer, ran]⟩
    | some id =>
      obtain ⟨-, o, live, same⟩ := findAlike_eq_some first
      have ran := run_internNode_shared found accepted first live same
      have ran : (perform host (.internNode k stage overrides)).run a = .ok (.node _ tally) _ := run_bind_ok ran
      exact ⟨_, by rw [answer, ran]⟩

theorem objections_eq_nil : a.objections k stage overrides = [] ↔
    ∃ core, a.template k = .ok core ∧ stage < core.numStages ∧ Node.InRange core overrides := by
  unfold objections
  simp only [template_eq_ok]
  cases a.templates[k.index]? with
  | none => simp
  | some core => simp [Node.objections_eq_nil]

theorem mem_objections {e : Error} (h : e ∈ a.objections k stage overrides) : e = .unknownTemplate k ∨
    (∃ numStages, e = .unknownStage stage numStages) ∨
      ∃ axis index count, e = .indexOutOfRange axis index count ∧ count ≤ index := by
  unfold objections at h
  split at h
  · rcases Node.mem_objections h with rfl | named
    · exact .inr (.inl ⟨_, rfl⟩)
    · exact .inr (.inr named)
  · exact .inl (List.mem_singleton.1 h)

/-- **Overrides are let in exactly if all that they name exists**, along every history and whatever the host. -/
theorem admits_after (host : Host) (calls : List Call)
    (asked : c = .addNode k stage overrides ∨ c = .internNode k stage overrides)
    (room : ∀ core, (after host calls).template k = .ok core → Node.HasRoom host.limit core stage overrides) :
    Admits host (after host calls) k stage overrides c := by
  have sound : Sound host (after host calls) := sound_after calls
  have decided := stopsAtFirst_build (fun core found => (sound.template found).2)
    fun core found => room core (template_eq_ok.2 found)
  have rejected : ∀ e, answer host (after host calls) c = .error e ↔
      ((after host calls).objections k stage overrides).head? = some e := by
    intro e
    rw [← decided.error_iff]
    refine ⟨fun failed => ?_, answer_of_refused host asked⟩
    cases built : (after host calls).template k >>= fun core => Node.ofOverridesBy host.limit core stage overrides with
    | ok r =>
      obtain ⟨id, went⟩ := answer_of_built host asked built
      rw [went] at failed
      cases failed
    | error d =>
      rw [answer_of_refused host asked built] at failed
      cases failed
      rfl
  exact {
    rejected
    accepted := by
      rw [← objections_eq_nil, ← decided.ok_iff]
      constructor
      · rintro ⟨id, tally, went⟩
        cases built : (after host calls).template k >>= fun core => Node.ofOverridesBy host.limit core stage overrides with
        | ok r => exact ⟨r, rfl⟩
        | error e =>
          rw [answer_of_refused host asked built] at went
          cases went
      · rintro ⟨r, built⟩
        obtain ⟨id, went⟩ := answer_of_built host asked built
        exact ⟨id, r.2, went⟩
    causes := fun e failed => mem_objections (List.mem_of_mem_head? ((rejected e).1 failed)) }

/-- Columns that do not exist, in a cell of a row of the other stage and in a field. -/
def strayOverrides : Overrides where
  matrix := [⟨0, 1, .posInf⟩, ⟨1, 3, .nan⟩]
  fields := (FieldTable.ofFn fun _ => []).update .colUpper fun _ => [⟨2, 0⟩, ⟨7, 0⟩]

/-- After the small history the stray overrides are refused for the cell, though the stage would not have taken it. -/
theorem admits_stray :
    (∀ core, (after colliding reusingCalls).template ⟨0⟩ = .ok core → Node.HasRoom colliding.limit core 1 strayOverrides) ∧
      Admits colliding (after colliding reusingCalls) ⟨0⟩ 1 strayOverrides (.internNode ⟨0⟩ 1 strayOverrides) ∧
      answer colliding (after colliding reusingCalls) (.internNode ⟨0⟩ 1 strayOverrides) =
        .error (.indexOutOfRange .column 3 3) := by
  have narrow : ((after colliding reusingCalls).template ⟨0⟩).toOption.all (fun core =>
      decide ((core.numbering .row).width 1 + 1 < colliding.limit)) = true := by decide +kernel
  have room : ∀ core, (after colliding reusingCalls).template ⟨0⟩ = .ok core →
      Node.HasRoom colliding.limit core 1 strayOverrides := by
    intro core found
    rw [found] at narrow
    exact ⟨by decide +kernel, of_decide_eq_true narrow⟩
  have admits := admits_after colliding reusingCalls (.inr rfl) room
  have first : ((after colliding reusingCalls).objections ⟨0⟩ 1 strayOverrides).head? =
      some (.indexOutOfRange .column 3 3) := by decide +kernel
  exact ⟨room, admits, (admits.rejected _).2 first⟩

end Arena
end Multistage
