import Multistage.Proofs.Arena.Catalog
import Multistage.Proofs.Node
/-!
# What a call does to the arena

`Step` says of every call what it may answer and what the arena is afterwards: one case for each way a call can end,
with the reason why it ends that way.  `step_perform` is the one proof that runs the actions; whatever is shown of all
calls is shown by going through the cases of `Step`.
-/
namespace Multistage

/-- The calls that an arena can change in. -/
inductive Call where
  | addTemplate (snapshot : Snapshot) (assignment : Assignment) (options : Options)
  | addNode (template : TemplateId) (stage : Nat) (overrides : Overrides)
  | internNode (template : TemplateId) (stage : Nat) (overrides : Overrides)
  | retain (id : NodeId)
  | release (id : NodeId)
  | denseRow (id : NodeId) (core? : Option TemplateId) (row : Nat)

inductive Answer where
  | template (id : TemplateId)
  | node (id : NodeId) (tally : Tally)
  | holders (count : Nat)
  | freed (last : Bool)
  | row (values : Array Binary64)

namespace Arena

def perform (host : Host) : Call → ArenaM Answer
  | .addTemplate snapshot assignment options => return .template (← addTemplate snapshot assignment options)
  | .addNode template stage overrides => do
    let (id, tally) ← addNodeBy host template stage overrides
    return .node id tally
  | .internNode template stage overrides => do
    let (id, tally) ← internNodeBy host template stage overrides
    return .node id tally
  | .retain id => return .holders (← retain id)
  | .release id => return .freed (← release id)
  | .denseRow id core? row => return .row (← denseRow id core? row)

def answer (host : Host) (a : Arena) (c : Call) : Except Error Answer :=
  match (perform host c).run a with
  | .ok x _ => .ok x
  | .error e _ => .error e

/-- The arena after a call. -/
def next (host : Host) (a : Arena) (c : Call) : Arena :=
  match (perform host c).run a with
  | .ok _ b => b
  | .error _ b => b

/-! ## The changes that calls make -/

/-- The core node of a stage as it is put in. -/
def coreOccupant (t : Template) (stage : Nat) : Occupant where
  node := Node.fresh t stage .core
  holders := 1
  key? := none

def insertCores (t : Template) : List Nat → Arena → List NodeId × Arena
  | [], a => ([], a)
  | stage :: stages, a =>
    let (id, a) := a.insert (coreOccupant t stage)
    let (ids, a) := insertCores t stages a
    (id :: ids, a)

def coreIds (a : Arena) (t : Template) : List NodeId := (insertCores t (List.range t.numStages) a).1

def withTemplate (a : Arena) (t : Template) : Arena :=
  let b := (insertCores t (List.range t.numStages) a).2
  { b with templates := b.templates.push t, coreNodes := b.coreNodes.push (a.coreIds t).toArray }

def newId (a : Arena) (key : UInt64) (node : Node) : NodeId :=
  (a.insert { node, holders := 1, key? := some key }).1

def withNode (a : Arena) (key : UInt64) (node : Node) : Arena :=
  (a.insert { node, holders := 1, key? := some key }).2.enroll key (a.newId key node)

/-- Takes a node out, and off its list if it is on one. -/
def remove (a : Arena) (id : NodeId) : Option UInt64 → Arena
  | some key => (a.vacate id.index).strike key id
  | none => a.vacate id.index

def setHolders (a : Arena) (id : NodeId) (holders : Nat) : Arena := a.updateOccupant id ({ · with holders })

def setRows (a : Arena) (id : NodeId) (denseRows : Std.TreeMap Nat (Array Binary64)) : Arena :=
  a.updateOccupant id fun o => { o with node := { o.node with denseRows } }

/-- Why a call is refused. -/
inductive Refused (limit : Nat) (a : Arena) : Call → Error → Prop
  | invalid {snapshot assignment options e}
      (built : Template.build ⟨a.templates.size⟩ snapshot assignment options = .error e) :
      Refused limit a (.addTemplate snapshot assignment options) e
  | unknownTemplate {c k stage overrides} (asked : c = .addNode k stage overrides ∨ c = .internNode k stage overrides)
      (unknown : a.templates[k.index]? = none) : Refused limit a c (.unknownTemplate k)
  | rejected {c k stage overrides core e}
      (asked : c = .addNode k stage overrides ∨ c = .internNode k stage overrides)
      (found : a.templates[k.index]? = some core) (rejected : Node.ofOverridesBy limit core stage overrides = .error e) :
      Refused limit a c e
  | unknownNode {c id} (asked : c = .retain id ∨ c = .release id) (unknown : a.occupant? id = none) :
      Refused limit a c (.unknownNode id)
  | coreRelease {id o} (live : a.occupant? id = some o) (core : o.node.isCore = true) :
      Refused limit a (.release id) (.coreRelease o.node.stage)

/-- The ways a call can end. -/
inductive Step (host : Host) (a : Arena) : Call → Except Error Answer → Arena → Prop
  | refused {c e} (reason : a.Refused host.limit c e) : Step host a c (.error e) a
  | template {snapshot assignment options t}
      (built : Template.build ⟨a.templates.size⟩ snapshot assignment options = .ok t) :
      Step host a (.addTemplate snapshot assignment options) (.ok (.template ⟨a.templates.size⟩)) (a.withTemplate t)
  | created {c k stage overrides core node tally} (found : a.templates[k.index]? = some core)
      (accepted : Node.ofOverridesBy host.limit core stage overrides = .ok (node, tally))
      (asked : c = .addNode k stage overrides ∨
        c = .internNode k stage overrides ∧ a.findAlike (node.key host.hash) node = none) :
      Step host a c (.ok (.node (a.newId (node.key host.hash) node) tally)) (a.withNode (node.key host.hash) node)
  | shared {k stage overrides core node tally id o} (found : a.templates[k.index]? = some core)
      (accepted : Node.ofOverridesBy host.limit core stage overrides = .ok (node, tally))
      (first : a.findAlike (node.key host.hash) node = some id) (live : a.occupant? id = some o)
      (same : alike o.node node = true) :
      Step host a (.internNode k stage overrides) (.ok (.node id tally)) (a.setHolders id (o.holders + 1))
  | retained {id o} (live : a.occupant? id = some o) (own : o.node.isCore = false) :
      Step host a (.retain id) (.ok (.holders (o.holders + 1))) (a.setHolders id (o.holders + 1))
  | counted {id o} (live : a.occupant? id = some o) (core : o.node.isCore = true) :
      Step host a (.retain id) (.ok (.holders o.holders)) a
  | dropped {id o} (live : a.occupant? id = some o) (own : o.node.isCore = false) (more : 1 < o.holders) :
      Step host a (.release id) (.ok (.freed false)) (a.setHolders id (o.holders - 1))
  | freed {id o} (live : a.occupant? id = some o) (own : o.node.isCore = false) (last : o.holders ≤ 1) :
      Step host a (.release id) (.ok (.freed true)) (a.remove id o.key?)
  | unread {id core? row e} : Step host a (.denseRow id core? row) (.error e) a
  | read {id core? row o rows r} (live : a.occupant? id = some o) :
      Step host a (.denseRow id core? row) r (a.setRows id rows)

/-! ## Running the actions -/

variable {host : Host} {a : Arena}

theorem occupant_eq_ok {id : NodeId} {o : Occupant} : a.occupant id = .ok o ↔ a.occupant? id = some o := by
  unfold occupant
  cases a.occupant? id <;> simp

theorem occupant_eq_error {id : NodeId} (dead : a.occupant? id = none) : a.occupant id = .error (.unknownNode id) := by
  rw [occupant, dead]

theorem template_eq_ok {k : TemplateId} {t : Template} : a.template k = .ok t ↔ a.templates[k.index]? = some t := by
  unfold template
  cases a.templates[k.index]? <;> simp

/-- A change that does the same to what a handle finds is the same change. -/
theorem updateOccupant_congr {id : NodeId} {o : Occupant} (live : a.occupant? id = some o)
    {f g : Occupant → Occupant} (same : f o = g o) : a.updateOccupant id f = a.updateOccupant id g := by
  have stands := (occupant?_eq_some.1 live).2
  unfold updateOccupant
  congr 1
  refine Array.ext (by simp) fun i hi _ => ?_
  rw [Array.getElem_modify, Array.getElem_modify]
  split
  · rename_i here
    subst here
    rw [at?, Array.getElem?_eq_getElem (by simpa using hi), Option.bind_some] at stands
    rw [stands, Option.map_some, Option.map_some, same]
  · rfl

theorem run_addCore {t : Template} (built : t.WellBuilt) {stage : Nat} (lt : stage < t.numStages) :
    (addCore t stage).run a = .ok (a.insert (coreOccupant t stage)).1 (a.insert (coreOccupant t stage)).2 := by
  have core : Node.core t stage = .ok (Node.fresh t stage .core) := (Node.anchored_eq_ok built).2 ⟨lt, rfl⟩
  rw [addCore, core, run_bind_ok (run_attempt_ok ..)]
  rfl

theorem run_addCores {t : Template} (built : t.WellBuilt) : ∀ (stages : List Nat) (a : Arena),
    (∀ stage ∈ stages, stage < t.numStages) →
      (stages.mapM (addCore t)).run a = .ok (insertCores t stages a).1 (insertCores t stages a).2
  | [], a, _ => rfl
  | stage :: stages, a, lt => by
    obtain ⟨lt, rest⟩ := List.forall_mem_cons.1 lt
    rw [List.mapM_cons, run_bind_ok (run_addCore built lt), run_bind_ok (run_addCores built stages _ rest)]
    rfl

theorem run_addTemplate {snapshot : Snapshot} {assignment : Assignment} {options : Options} {t : Template}
    (built : Template.build ⟨a.templates.size⟩ snapshot assignment options = .ok t) :
    (addTemplate snapshot assignment options).run a = .ok ⟨a.templates.size⟩ (a.withTemplate t) := by
  have cores := run_addCores (Template.wellBuilt_of_build built) (List.range t.numStages) a
    fun _ h => List.mem_range.1 h
  rw [addTemplate, run_bind_get]
  dsimp only
  rw [built, run_bind_ok (run_attempt_ok ..), run_bind_ok cores]
  rfl

theorem run_addTemplate_refused {snapshot : Snapshot} {assignment : Assignment} {options : Options} {e : Error}
    (refused : Template.build ⟨a.templates.size⟩ snapshot assignment options = .error e) :
    (addTemplate snapshot assignment options).run a = .error e a := by
  rw [addTemplate, run_bind_get]
  dsimp only
  rw [refused, run_bind_error (run_attempt_error ..)]

theorem run_buildNode {limit : Nat} {k : TemplateId} {stage : Nat} {overrides : Overrides} {core : Template}
    (found : a.templates[k.index]? = some core) {r : Node × Tally}
    (accepted : Node.ofOverridesBy limit core stage overrides = .ok r) :
    (buildNode limit k stage overrides).run a = .ok r a := by
  rw [buildNode, run_bind_get, template_eq_ok.2 found, run_bind_ok (run_attempt_ok ..), accepted]
  rfl

/-- A scenario node is built, or the call is refused. -/
theorem buildNode_cases (limit : Nat) (a : Arena) (k : TemplateId) (stage : Nat) (overrides : Overrides) :
    (∃ core node tally, a.templates[k.index]? = some core ∧
      Node.ofOverridesBy limit core stage overrides = .ok (node, tally)) ∨
    ∃ e, (buildNode limit k stage overrides).run a = .error e a ∧
      ∀ c, c = .addNode k stage overrides ∨ c = .internNode k stage overrides → a.Refused limit c e := by
  cases found : a.templates[k.index]? with
  | none =>
    have failed : a.template k = .error (.unknownTemplate k) := by rw [template, found]
    refine .inr ⟨.unknownTemplate k, ?_, fun c asked => .unknownTemplate asked found⟩
    rw [buildNode, run_bind_get, failed, run_bind_error (run_attempt_error ..)]
  | some core =>
    cases accepted : Node.ofOverridesBy limit core stage overrides with
    | ok r => exact .inl ⟨core, r.1, r.2, rfl, accepted⟩
    | error e =>
      refine .inr ⟨e, ?_, fun c asked => .rejected asked found accepted⟩
      rw [buildNode, run_bind_get, template_eq_ok.2 found, run_bind_ok (run_attempt_ok ..), accepted, run_attempt_error]

theorem findAlike_eq_some {key : UInt64} {node : Node} {id : NodeId} (found : a.findAlike key node = some id) :
    id ∈ a.listed key ∧ ∃ o, a.occupant? id = some o ∧ alike o.node node = true := by
  have some := List.find?_some found
  rw [Option.any_eq_true] at some
  exact ⟨List.mem_of_find?_eq_some found, some⟩

theorem alike_eq_true {m n : Node} : alike m n = true ↔
    n.isCore = false ∧ m.template = n.template ∧ m.stage = n.stage ∧ m.content = n.content := by
  unfold alike Node.isCore
  cases m.content <;> cases n.content <;> simp [and_assoc]

theorem isCore_of_alike {m n : Node} (same : alike m n = true) : m.isCore = false := by
  obtain ⟨own, -, -, content⟩ := alike_eq_true.1 same
  rw [Node.isCore, content]
  exact own

theorem run_retain {id : NodeId} {o : Occupant} (live : a.occupant? id = some o) (own : o.node.isCore = false) :
    (retain id).run a = .ok (o.holders + 1) (a.setHolders id (o.holders + 1)) := by
  rw [retain, run_bind_get, occupant_eq_ok.2 live, run_bind_ok (run_attempt_ok ..), own, setHolders,
    ← updateOccupant_congr live (f := fun o => { o with holders := o.holders + 1 }) rfl]
  rfl

theorem run_admitNode (key : UInt64) (node : Node) :
    (admitNode key node).run a = .ok (a.newId key node) (a.withNode key node) := rfl

theorem run_addNode {k : TemplateId} {stage : Nat} {overrides : Overrides} {core : Template} {node : Node}
    {tally : Tally} (found : a.templates[k.index]? = some core)
    (accepted : Node.ofOverridesBy host.limit core stage overrides = .ok (node, tally)) :
    (addNodeBy host k stage overrides).run a =
      .ok (a.newId (node.key host.hash) node, tally) (a.withNode (node.key host.hash) node) := by
  rw [addNodeBy, run_bind_ok (run_buildNode found accepted), run_bind_ok (run_admitNode ..)]
  rfl

theorem run_release_core {id : NodeId} {o : Occupant} (live : a.occupant? id = some o) (core : o.node.isCore = true) :
    (release id).run a = .error (.coreRelease o.node.stage) a := by
  rw [release, run_bind_get, occupant_eq_ok.2 live, run_bind_ok (run_attempt_ok ..), core]
  rfl

theorem run_release_last {id : NodeId} {o : Occupant} (live : a.occupant? id = some o) (own : o.node.isCore = false)
    (last : o.holders ≤ 1) : (release id).run a = .ok true (a.remove id o.key?) := by
  rw [release, run_bind_get, occupant_eq_ok.2 live, run_bind_ok (run_attempt_ok ..), own, if_neg Bool.false_ne_true,
    if_neg (Nat.not_lt.2 last)]
  cases o.key? <;> rfl

theorem run_internNode_shared {k : TemplateId} {stage : Nat} {overrides : Overrides} {core : Template} {node : Node}
    {tally : Tally} (found : a.templates[k.index]? = some core)
    (accepted : Node.ofOverridesBy host.limit core stage overrides = .ok (node, tally)) {id : NodeId} {o : Occupant}
    (first : a.findAlike (node.key host.hash) node = some id) (live : a.occupant? id = some o)
    (same : alike o.node node = true) : (internNodeBy host k stage overrides).run a =
      .ok (id, tally) (a.setHolders id (o.holders + 1)) := by
  rw [internNodeBy, run_bind_ok (run_buildNode found accepted)]
  dsimp only
  rw [run_bind_get, first]
  dsimp only
  rw [run_bind_ok (run_retain live (isCore_of_alike same))]
  rfl

theorem run_internNode_created {k : TemplateId} {stage : Nat} {overrides : Overrides} {core : Template} {node : Node}
    {tally : Tally} (found : a.templates[k.index]? = some core)
    (accepted : Node.ofOverridesBy host.limit core stage overrides = .ok (node, tally))
    (nothing : a.findAlike (node.key host.hash) node = none) : (internNodeBy host k stage overrides).run a =
      .ok (a.newId (node.key host.hash) node, tally) (a.withNode (node.key host.hash) node) := by
  rw [internNodeBy, run_bind_ok (run_buildNode found accepted)]
  dsimp only
  rw [run_bind_get, nothing]
  dsimp only
  rw [run_bind_ok (run_admitNode ..)]
  rfl

/-! ## Every call takes a step -/

theorem step_of_run_ok {c : Call} {x : Answer} {b : Arena} (ran : (perform host c).run a = .ok x b)
    (step : Step host a c (.ok x) b) : Step host a c (answer host a c) (next host a c) := by
  rw [answer, next, ran]
  exact step

theorem step_of_run_error {c : Call} {e : Error} {b : Arena} (ran : (perform host c).run a = .error e b)
    (step : Step host a c (.error e) b) : Step host a c (answer host a c) (next host a c) := by
  rw [answer, next, ran]
  exact step

theorem step_addTemplate (snapshot : Snapshot) (assignment : Assignment) (options : Options) :
    Step host a (.addTemplate snapshot assignment options)
      (answer host a (.addTemplate snapshot assignment options))
      (next host a (.addTemplate snapshot assignment options)) := by
  cases built : Template.build ⟨a.templates.size⟩ snapshot assignment options with
  | error e => exact step_of_run_error (run_bind_error (run_addTemplate_refused built)) (.refused (.invalid built))
  | ok t => exact step_of_run_ok (run_bind_ok (run_addTemplate built)) (.template built)

theorem step_addNode (k : TemplateId) (stage : Nat) (overrides : Overrides) :
    Step host a (.addNode k stage overrides) (answer host a (.addNode k stage overrides))
      (next host a (.addNode k stage overrides)) := by
  rcases a.buildNode_cases host.limit k stage overrides with ⟨core, node, tally, found, accepted⟩ | ⟨e, failed, refused⟩
  · exact step_of_run_ok (run_bind_ok (run_addNode found accepted)) (.created found accepted (.inl rfl))
  · have ran : (addNodeBy host k stage overrides).run a = .error e a := run_bind_error failed
    exact step_of_run_error (run_bind_error ran) (.refused (refused _ (.inl rfl)))

theorem step_internNode (k : TemplateId) (stage : Nat) (overrides : Overrides) :
    Step host a (.internNode k stage overrides) (answer host a (.internNode k stage overrides))
      (next host a (.internNode k stage overrides)) := by
  rcases a.buildNode_cases host.limit k stage overrides with ⟨core, node, tally, found, accepted⟩ | ⟨e, failed, refused⟩
  · cases first : a.findAlike (node.key host.hash) node with
    | none =>
      have ran : (internNodeBy host k stage overrides).run a = _ := run_internNode_created found accepted first
      exact step_of_run_ok (run_bind_ok ran) (.created found accepted (.inr ⟨rfl, first⟩))
    | some id =>
      obtain ⟨-, o, live, same⟩ := findAlike_eq_some first
      have ran : (internNodeBy host k stage overrides).run a = _ :=
        run_internNode_shared found accepted first live same
      exact step_of_run_ok (run_bind_ok ran) (.shared found accepted first live same)
  · have ran : (internNodeBy host k stage overrides).run a = .error e a := run_bind_error failed
    exact step_of_run_error (run_bind_error ran) (.refused (refused _ (.inr rfl)))

theorem step_retain (id : NodeId) :
    Step host a (.retain id) (answer host a (.retain id)) (next host a (.retain id)) := by
  cases live : a.occupant? id with
  | none =>
    have ran : (retain id).run a = .error (.unknownNode id) a := by
      rw [retain, run_bind_get, occupant_eq_error live, run_bind_error (run_attempt_error ..)]
    exact step_of_run_error (run_bind_error ran) (.refused (.unknownNode (.inl rfl) live))
  | some o =>
    cases own : o.node.isCore with
    | true =>
      have ran : (retain id).run a = .ok o.holders a := by
        rw [retain, run_bind_get, occupant_eq_ok.2 live, run_bind_ok (run_attempt_ok ..), own]
        rfl
      exact step_of_run_ok (run_bind_ok ran) (.counted live own)
    | false => exact step_of_run_ok (run_bind_ok (run_retain live own)) (.retained live own)

theorem step_release (id : NodeId) :
    Step host a (.release id) (answer host a (.release id)) (next host a (.release id)) := by
  cases live : a.occupant? id with
  | none =>
    have ran : (release id).run a = .error (.unknownNode id) a := by
      rw [release, run_bind_get, occupant_eq_error live, run_bind_error (run_attempt_error ..)]
    exact step_of_run_error (run_bind_error ran) (.refused (.unknownNode (.inr rfl) live))
  | some o =>
    cases own : o.node.isCore with
    | true =>
      exact step_of_run_error (run_bind_error (run_release_core live own)) (.refused (.coreRelease live own))
    | false =>
      by_cases more : 1 < o.holders
      · have ran : (release id).run a = .ok false (a.setHolders id (o.holders - 1)) := by
          rw [release, run_bind_get, occupant_eq_ok.2 live, run_bind_ok (run_attempt_ok ..), own,
            if_neg Bool.false_ne_true, if_pos more, setHolders,
            ← updateOccupant_congr live (f := fun o => { o with holders := o.holders - 1 }) rfl]
          rfl
        exact step_of_run_ok (run_bind_ok ran) (.dropped live own more)
      · have last := Nat.le_of_not_lt more
        exact step_of_run_ok (run_bind_ok (run_release_last live own last)) (.freed live own last)

/-- Reading a row changes nothing of a node but the rows that it keeps. -/
theorem denseRow_cases (core : Template) (row : Nat) (n : Node) : ∃ rows,
    (∃ dense, (Node.denseRow core row).run n = .ok dense { n with denseRows := rows }) ∨
      ∃ e, (Node.denseRow core row).run n = .error e { n with denseRows := rows } := by
  cases anchor : n.checkAnchor core with
  | error e =>
    refine ⟨n.denseRows, .inr ⟨e, ?_⟩⟩
    rw [Node.denseRow, run_bind_get, anchor, run_bind_error (run_attempt_error ..)]
  | ok u =>
    cases kept : n.denseRows[row]? with
    | some dense =>
      refine ⟨n.denseRows, .inl ⟨dense, ?_⟩⟩
      rw [Node.denseRow, run_bind_get, anchor, run_bind_ok (run_attempt_ok ..), kept]
      rfl
    | none =>
      cases stored : n.storedRow core row with
      | error e =>
        refine ⟨n.denseRows, .inr ⟨e, ?_⟩⟩
        rw [Node.denseRow, run_bind_get, anchor, run_bind_ok (run_attempt_ok ..), kept, stored]
        rfl
      | ok entries =>
        refine ⟨n.denseRows.insert row (entries.fill 0), .inl ⟨entries.fill 0, ?_⟩⟩
        rw [Node.denseRow, run_bind_get, anchor, run_bind_ok (run_attempt_ok ..), kept, stored]
        rfl

theorem node_eq_ok {id : NodeId} {n : Node} : a.node id = .ok n ↔ ∃ o, a.occupant? id = some o ∧ o.node = n := by
  simp only [node, bind_eq_ok, pure_eq_ok, occupant_eq_ok]

theorem resolve_eq_ok {id : NodeId} {core? : Option TemplateId} {n : Node} {t : Template} :
    a.resolve id core? = .ok (n, t) ↔
      ∃ o, a.occupant? id = some o ∧ o.node = n ∧ a.templates[(core?.getD n.template).index]? = some t := by
  simp only [resolve, node, bind_eq_ok, pure_eq_ok, occupant_eq_ok, template_eq_ok, Prod.mk.injEq]
  constructor
  · rintro ⟨_, ⟨o, live, rfl⟩, _, found, rfl, rfl⟩
    exact ⟨o, live, rfl, found⟩
  · rintro ⟨o, live, rfl, found⟩
    exact ⟨_, ⟨o, live, rfl⟩, _, found, rfl, rfl⟩

theorem run_denseRow_unresolved {id : NodeId} {core? : Option TemplateId} {e : Error} (failed : a.resolve id core? = .error e)
    (row : Nat) : (denseRow id core? row).run a = .error e a := by
  rw [denseRow, run_bind_get, failed, run_bind_error (run_attempt_error ..)]

/-- A node that was read is put back with the rows that it keeps now. -/
theorem setRows_eq {id : NodeId} {o : Occupant} (live : a.occupant? id = some o)
    (rows : Std.TreeMap Nat (Array Binary64)) :
    a.updateOccupant id ({ · with node := { o.node with denseRows := rows } }) = a.setRows id rows :=
  updateOccupant_congr live rfl

theorem run_denseRow_ok {id : NodeId} {core? : Option TemplateId} {row : Nat} {o : Occupant} {t : Template}
    {dense : Array Binary64} {rows : Std.TreeMap Nat (Array Binary64)} (live : a.occupant? id = some o)
    (resolved : a.resolve id core? = .ok (o.node, t))
    (ended : (Node.denseRow t row).run o.node = .ok dense { o.node with denseRows := rows }) :
    (denseRow id core? row).run a = .ok dense (a.setRows id rows) := by
  rw [denseRow, run_bind_get, resolved, run_bind_ok (run_attempt_ok ..)]
  dsimp only
  rw [onNode, ended, ← setRows_eq live]
  rfl

theorem run_denseRow_error {id : NodeId} {core? : Option TemplateId} {row : Nat} {o : Occupant} {t : Template}
    {e : Error} {rows : Std.TreeMap Nat (Array Binary64)} (live : a.occupant? id = some o)
    (resolved : a.resolve id core? = .ok (o.node, t))
    (ended : (Node.denseRow t row).run o.node = .error e { o.node with denseRows := rows }) :
    (denseRow id core? row).run a = .error e (a.setRows id rows) := by
  rw [denseRow, run_bind_get, resolved, run_bind_ok (run_attempt_ok ..)]
  dsimp only
  rw [onNode, ended, ← setRows_eq live]
  rfl

theorem step_denseRow (id : NodeId) (core? : Option TemplateId) (row : Nat) :
    Step host a (.denseRow id core? row) (answer host a (.denseRow id core? row))
      (next host a (.denseRow id core? row)) := by
  cases resolved : a.resolve id core? with
  | error e => exact step_of_run_error (run_bind_error (run_denseRow_unresolved resolved row)) .unread
  | ok r =>
    obtain ⟨n, t⟩ := r
    obtain ⟨o, live, rfl, -⟩ := resolve_eq_ok.1 resolved
    obtain ⟨rows, ⟨dense, ended⟩ | ⟨e, ended⟩⟩ := denseRow_cases t row o.node
    · exact step_of_run_ok (run_bind_ok (run_denseRow_ok live resolved ended)) (.read live)
    · exact step_of_run_error (run_bind_error (run_denseRow_error live resolved ended)) (.read live)

/-- **Every call takes a step.** -/
theorem step_perform (host : Host) (a : Arena) : ∀ c, Step host a c (answer host a c) (next host a c)
  | .addTemplate snapshot assignment options => step_addTemplate snapshot assignment options
  | .addNode k stage overrides => step_addNode k stage overrides
  | .internNode k stage overrides => step_internNode k stage overrides
  | .retain id => step_retain id
  | .release id => step_release id
  | .denseRow id core? row => step_denseRow id core? row

end Arena
end Multistage
