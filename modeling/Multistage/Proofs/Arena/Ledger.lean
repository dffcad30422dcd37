import Multistage.Proofs.Arena.History
/-!
# The arena as a ledger of records

What a caller can tell of an arena is a ledger: the templates with their core nodes, the handles that were given out,
and a record for each that is live.  `Ledger.Step` says what each call does to the ledger, with no mention of slots,
generations or hashes.  `ledger_step`: every call on an arena is such a step.
-/
namespace Multistage

/-- What is known of a live node. -/
structure Record where
  template : TemplateId
  stage : Nat
  content : Node.Content
  holders : Nat

def Record.Stores (r : Record) (k : TemplateId) (stage : Nat) (content : Node.Content) : Prop :=
  r.template = k ∧ r.stage = stage ∧ r.content = content

def Occupant.record (o : Occupant) : Record where
  template := o.node.template
  stage := o.node.stage
  content := o.node.content
  holders := o.holders

/-- The records of the live nodes by handle. -/
abbrev Table := NodeId → Option Record

def Table.set (table : Table) (id : NodeId) (r? : Option Record) : Table := fun i => if i = id then r? else table i

@[ext]
structure Ledger where
  templates : Array Template
  coreNodes : Array (Array NodeId)
  /-- The handles that were given out, those of nodes taken out since among them. -/
  issued : NodeId → Prop
  table : Table

namespace Ledger

/-- Why a call is refused. -/
inductive Refused (limit : Nat) (l : Ledger) : Call → Error → Prop
  | invalid {snapshot assignment options e}
      (built : Template.build ⟨l.templates.size⟩ snapshot assignment options = .error e) :
      Refused limit l (.addTemplate snapshot assignment options) e
  | unknownTemplate {c k stage overrides} (asked : c = .addNode k stage overrides ∨ c = .internNode k stage overrides)
      (unknown : l.templates[k.index]? = none) : Refused limit l c (.unknownTemplate k)
  | rejected {c k stage overrides core e}
      (asked : c = .addNode k stage overrides ∨ c = .internNode k stage overrides)
      (found : l.templates[k.index]? = some core) (rejected : Node.ofOverridesBy limit core stage overrides = .error e) :
      Refused limit l c e
  | unknownNode {c id} (asked : c = .retain id ∨ c = .release id) (unknown : l.table id = none) :
      Refused limit l c (.unknownNode id)
  | coreRelease {id r} (live : l.table id = some r) (core : r.content = .core) :
      Refused limit l (.release id) (.coreRelease r.stage)

/-- What a call answers and does to the ledger. -/
inductive Step (limit : Nat) (l : Ledger) : Call → Except Error Answer → Ledger → Prop
  | refused {c e} (reason : l.Refused limit c e) : Step limit l c (.error e) l
  | template {snapshot assignment options t} {ids : List NodeId} {table : Table}
      (built : Template.build ⟨l.templates.size⟩ snapshot assignment options = .ok t)
      (length : ids.length = t.numStages) (nodup : ids.Nodup) (fresh : ∀ id ∈ ids, ¬ l.issued id)
      (cores : ∀ {stage : Nat} {id : NodeId}, ids[stage]? = some id →
        table id = some ⟨⟨l.templates.size⟩, stage, .core, 1⟩)
      (others : ∀ id ∉ ids, table id = l.table id) :
      Step limit l (.addTemplate snapshot assignment options) (.ok (.template ⟨l.templates.size⟩)) {
        templates := l.templates.push t
        coreNodes := l.coreNodes.push ids.toArray
        issued := fun i => i ∈ ids ∨ l.issued i
        table }
  | created {c k stage overrides core node tally id} (found : l.templates[k.index]? = some core)
      (accepted : Node.ofOverridesBy limit core stage overrides = .ok (node, tally))
      (asked : c = .addNode k stage overrides ∨
        c = .internNode k stage overrides ∧ ∀ i r, l.table i = some r → ¬ r.Stores k stage node.content)
      (fresh : ¬ l.issued id) :
      Step limit l c (.ok (.node id tally)) { l with
        issued := fun i => i = id ∨ l.issued i
        table := l.table.set id (some ⟨k, stage, node.content, 1⟩) }
  | shared {k stage overrides core node tally id r} (found : l.templates[k.index]? = some core)
      (accepted : Node.ofOverridesBy limit core stage overrides = .ok (node, tally))
      (live : l.table id = some r) (same : r.Stores k stage node.content) :
      Step limit l (.internNode k stage overrides) (.ok (.node id tally)) { l with
        table := l.table.set id (some { r with holders := r.holders + 1 }) }
  | retained {id r} (live : l.table id = some r) (own : r.content ≠ .core) :
      Step limit l (.retain id) (.ok (.holders (r.holders + 1))) { l with
        table := l.table.set id (some { r with holders := r.holders + 1 }) }
  | counted {id r} (live : l.table id = some r) (core : r.content = .core) :
      Step limit l (.retain id) (.ok (.holders r.holders)) l
  | dropped {id r} (live : l.table id = some r) (own : r.content ≠ .core) (more : 1 < r.holders) :
      Step limit l (.release id) (.ok (.freed false)) { l with
        table := l.table.set id (some { r with holders := r.holders - 1 }) }
  | freed {id r} (live : l.table id = some r) (own : r.content ≠ .core) (last : r.holders = 1) :
      Step limit l (.release id) (.ok (.freed true)) { l with table := l.table.set id none }
  | read {id core? row r} : Step limit l (.denseRow id core? row) r l

/-- A step may be stated up to what the ledger it leads to holds. -/
theorem Step.congr {limit : Nat} {l m n : Ledger} {c : Call} {r : Except Error Answer} (step : Step limit l c r m)
    (templates : m.templates = n.templates) (coreNodes : m.coreNodes = n.coreNodes)
    (issued : ∀ i, m.issued i ↔ n.issued i) (table : ∀ i, m.table i = n.table i) : Step limit l c r n := by
  obtain rfl : m = n := Ledger.ext templates coreNodes (funext fun i => propext (issued i)) (funext table)
  exact step

end Ledger

theorem Node.isCore_eq_true {n : Node} : n.isCore = true ↔ n.content = .core := by
  unfold Node.isCore
  split <;> simp [*]

theorem Node.isCore_eq_false {n : Node} : n.isCore = false ↔ n.content ≠ .core := by
  rw [ne_eq, ← Node.isCore_eq_true, Bool.not_eq_true]

namespace Arena

def table (a : Arena) : Table := fun id => (a.occupant? id).map (·.record)

variable {host : Host} {a b : Arena} {id : NodeId} {o : Occupant}

theorem table_eq_some {r : Record} : a.table id = some r ↔ ∃ o, a.occupant? id = some o ∧ o.record = r :=
  Option.map_eq_some_iff

theorem table_of_live (live : a.occupant? id = some o) : a.table id = some o.record :=
  table_eq_some.2 ⟨o, live, rfl⟩

theorem table_eq_none : a.table id = none ↔ ¬ a.Live id := by
  rw [table, Option.map_eq_none_iff]
  constructor
  · exact not_finds
  · intro dead
    cases live : a.occupant? id with
    | none => rfl
    | some o => exact absurd (.of live trivial) dead

theorem table_updateOccupant (live : a.occupant? id = some o) (change : Occupant → Occupant) (i : NodeId) :
    (a.updateOccupant id change).table i = a.table.set id (some (change o).record) i := by
  rw [table, occupant?_updateOccupant live, Table.set]
  split <;> rfl

theorem table_setHolders (live : a.occupant? id = some o) (holders : Nat) (i : NodeId) :
    (a.setHolders id holders).table i = a.table.set id (some { o.record with holders }) i :=
  table_updateOccupant live ..

theorem table_setRows (live : a.occupant? id = some o) (rows : Std.TreeMap Nat (Array Binary64)) (i : NodeId) :
    (a.setRows id rows).table i = a.table i := by
  rw [setRows, table_updateOccupant live, Table.set]
  split
  · rename_i here
    rw [here, table_of_live live]
    rfl
  · rfl

theorem table_withNode (h : a.FreeListed) (key : UInt64) (node : Node) (i : NodeId) :
    (a.withNode key node).table i =
      a.table.set (a.newId key node) (some ⟨node.template, node.stage, node.content, 1⟩) i := by
  rw [table, (occupant?_withNode h key node).2, Table.set]
  split <;> rfl

theorem table_remove (live : a.occupant? id = some o) (key? : Option UInt64) (i : NodeId) :
    (a.remove id key?).table i = a.table.set id none i := by
  rw [table, occupant?_remove live, Table.set]
  split <;> rfl

def ledger (a : Arena) (issued : NodeId → Prop) : Ledger where
  templates := a.templates
  coreNodes := a.coreNodes
  issued := issued
  table := a.table

theorem refused_ledger {limit : Nat} {c : Call} {e : Error} (reason : a.Refused limit c e) (issued : NodeId → Prop) :
    (a.ledger issued).Refused limit c e := by
  cases reason with
  | invalid built => exact .invalid built
  | unknownTemplate asked unknown => exact .unknownTemplate asked unknown
  | rejected asked found rejected => exact .rejected asked found rejected
  | unknownNode asked unknown => exact .unknownNode asked (table_eq_none.2 (not_finds unknown))
  | @coreRelease id o live core => exact .coreRelease (r := o.record) (table_of_live live) (Node.isCore_eq_true.1 core)

/-! ## Steps of the arena are steps of the ledger -/

theorem live_withTemplate {t : Template} (added : TemplateAdded t a) (i : NodeId) :
    (a.withTemplate t).Live i ↔ i ∈ a.coreIds t ∨ a.Live i := by
  simp only [Live, added.finds, and_true, List.mem_iff_getElem?]

theorem live_withNode (h : a.FreeListed) (key : UInt64) (node : Node) (i : NodeId) :
    (a.withNode key node).Live i ↔ i = a.newId key node ∨ a.Live i := by
  simp only [Live, finds_withNode h, and_true]

/-- Where nothing begins to be live, nothing is given out. -/
theorem issued_of_live {issued : NodeId → Prop} (kept : ∀ i, a.Live i → issued i) (old : ∀ i, b.Live i → a.Live i)
    (i : NodeId) : issued i ↔ b.Live i ∨ issued i :=
  ⟨.inr, fun h => h.elim (fun live => kept i (old i live)) id⟩

/-- What begins to be live is given out. -/
theorem issued_of_enter {issued entered : NodeId → Prop} (kept : ∀ i, a.Live i → issued i)
    (live : ∀ i, b.Live i ↔ entered i ∨ a.Live i) (i : NodeId) : entered i ∨ issued i ↔ b.Live i ∨ issued i := by
  rw [live, or_assoc]
  exact ⟨Or.imp_right .inr, fun h => h.imp_right fun h => h.elim (kept i) id⟩

variable {issued : NodeId → Prop} (kept : ∀ i, a.Live i → issued i)

section
include kept

theorem Sound.ledger_template (h : Sound host a) {snapshot : Snapshot} {assignment : Assignment} {options : Options}
    {t : Template} (built : Template.build ⟨a.templates.size⟩ snapshot assignment options = .ok t)
    (fresh : ∀ i, ¬ a.Live i → (a.withTemplate t).Live i → ¬ issued i) :
    (a.ledger issued).Step host.limit (.addTemplate snapshot assignment options) (.ok (.template ⟨a.templates.size⟩))
      ((a.withTemplate t).ledger fun i => (a.withTemplate t).Live i ∨ issued i) := by
  have added := h.freeListed.withTemplate t
  have new : ∀ i ∈ a.coreIds t, ¬ issued i := fun i hi =>
    fresh i (not_finds (added.fresh i hi)) ((live_withTemplate added i).2 (.inl hi))
  have cores : ∀ {stage : Nat} {i : NodeId}, (a.coreIds t)[stage]? = some i →
      (a.withTemplate t).table i = some ⟨⟨a.templates.size⟩, stage, .core, 1⟩ := fun hs => by
    rw [table_of_live (added.found hs), ← (Template.build_eq_ok built).1]
    rfl
  have others : ∀ i ∉ a.coreIds t, (a.withTemplate t).table i = a.table i := fun i hi => by
    rw [table, added.other i hi, table]
  exact (Ledger.Step.template built added.length added.nodup new cores others).congr added.templates.symm
    added.coreNodes.symm (issued_of_enter kept (live_withTemplate added)) fun _ => rfl

theorem Sound.ledger_created (h : Sound host a) {c : Call} {k : TemplateId} {stage : Nat} {overrides : Overrides}
    {core : Template} {node : Node} {tally : Tally} (found : a.templates[k.index]? = some core)
    (accepted : Node.ofOverridesBy host.limit core stage overrides = .ok (node, tally))
    (asked : c = .addNode k stage overrides ∨
      c = .internNode k stage overrides ∧ a.findAlike (node.key host.hash) node = none)
    (fresh : ∀ i, ¬ a.Live i → (a.withNode (node.key host.hash) node).Live i → ¬ issued i) :
    (a.ledger issued).Step host.limit c (.ok (.node (a.newId (node.key host.hash) node) tally))
      ((a.withNode (node.key host.hash) node).ledger fun i => (a.withNode (node.key host.hash) node).Live i ∨ issued i) := by
  obtain ⟨rfl, -, patch, rfl⟩ := h.accepted found accepted
  have entered := live_withNode h.freeListed ((Node.patched core stage patch).key host.hash) (Node.patched core stage patch)
  have unused := (occupant?_withNode h.freeListed ((Node.patched core stage patch).key host.hash)
    (Node.patched core stage patch)).1
  have new := fresh _ (not_finds unused) ((entered _).2 (.inl rfl))
  refine (Ledger.Step.created found accepted ?_ new).congr (templates_withNode ..).symm (coreNodes_withNode ..).symm
    (issued_of_enter kept entered) fun i => (table_withNode h.freeListed ..).symm
  rcases asked with asked | ⟨asked, none⟩
  · exact .inl asked
  · refine .inr ⟨asked, fun i r live stores => ?_⟩
    obtain ⟨o, found, rfl⟩ := table_eq_some.1 live
    exact h.not_alike none i (.of found (alike_eq_true.2 ⟨rfl, stores⟩))

/-- **A step of a sound arena is a step of its ledger**, if what begins to be live has not been given out before. -/
theorem Sound.ledger_step (h : Sound host a) {c : Call} {r : Except Error Answer} (step : Step host a c r b)
    (fresh : ∀ i, ¬ a.Live i → b.Live i → ¬ issued i) :
    (a.ledger issued).Step host.limit c r (b.ledger fun i => b.Live i ∨ issued i) := by
  have unmoved := issued_of_live (b := a) kept fun _ => id
  have changed : ∀ {id : NodeId} {o : Occupant} (live : a.occupant? id = some o) (change : Occupant → Occupant),
      ∀ i, issued i ↔ (a.updateOccupant id change).Live i ∨ issued i := fun live change =>
    issued_of_live kept fun i => (finds_updateOccupant live Iff.rfl i).1
  cases step with
  | refused reason => exact (Ledger.Step.refused (refused_ledger reason issued)).congr rfl rfl unmoved fun _ => rfl
  | template built => exact h.ledger_template kept built fresh
  | created found accepted asked => exact h.ledger_created kept found accepted asked fresh
  | @shared k stage overrides core node tally id o found accepted first live same =>
    obtain ⟨rfl, -, patch, rfl⟩ := h.accepted found accepted
    have stores : o.record.Stores _ _ _ := (alike_eq_true.1 same).2
    have step : (a.ledger issued).Step host.limit _ _ _ :=
      .shared found accepted (table_of_live live) stores
    exact step.congr rfl rfl (changed live _) fun i => (table_setHolders live ..).symm
  | retained live own =>
    have step : (a.ledger issued).Step host.limit _ _ _ :=
      .retained (table_of_live live) (Node.isCore_eq_false.1 own)
    exact step.congr rfl rfl (changed live _) fun i => (table_setHolders live ..).symm
  | counted live core =>
    have step : (a.ledger issued).Step host.limit _ _ _ :=
      .counted (table_of_live live) (Node.isCore_eq_true.1 core)
    exact step.congr rfl rfl unmoved fun _ => rfl
  | dropped live own more =>
    have step : (a.ledger issued).Step host.limit _ _ _ :=
      .dropped (table_of_live live) (Node.isCore_eq_false.1 own) more
    exact step.congr rfl rfl (changed live _) fun i => (table_setHolders live ..).symm
  | @freed id o live own last =>
    obtain ⟨templates, coreNodes⟩ := a.templates_remove id o.key?
    have single := Nat.le_antisymm last (h.proper live).held
    have step : (a.ledger issued).Step host.limit _ _ _ :=
      .freed (table_of_live live) (Node.isCore_eq_false.1 own) single
    have old : ∀ i, (a.remove id o.key?).Live i → a.Live i := fun i left => ((finds_remove live i).1 left).2
    exact step.congr templates.symm coreNodes.symm (issued_of_live kept old) fun i => (table_remove live ..).symm
  | unread => exact Ledger.Step.read.congr rfl rfl unmoved fun _ => rfl
  | read live => exact Ledger.Step.read.congr rfl rfl (changed live _) fun i => (table_setRows live ..).symm

end

end Arena
end Multistage
