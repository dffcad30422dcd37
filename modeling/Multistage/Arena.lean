import Multistage.Node.Reconstruct
/-!
# The arena

The arena owns the templates and all nodes, and hands out handles.  A node lives in a slot; when its last holder lets
go the slot is emptied, its generation moves on and it is used again, the one freed last first.  A handle
names a slot *and* a generation, so a handle of a freed node finds nothing (`occupant?`).

Scenario nodes are also listed in a catalog under a hash of their content.  The hash only narrows the
search: nodes are shared when their contents are equal.  The hash, and how much storage there is for a patch, come from
the host that an arena runs on.  Everything that depends on the host takes it as an argument, so that what is proved
of it holds however badly the hash does and whenever the storage runs out.

An action may fail, and the arena is there after a failure too: that failures leave it as it was is a statement
about the actions, and not a matter of the type.
-/
namespace Multistage

/-- What an arena runs on. -/
structure Host where
  hash : Patch → UInt64
  /-- No storage is had for as many entries of a patch, or starts of its rows. -/
  limit : Nat

/-- The host of a program that knows nothing of the memory at hand. -/
def Host.plain : Host := ⟨Patch.fingerprint, RowWriter.addressable⟩

structure Occupant where
  node : Node
  /-- The tree positions that hold the node. -/
  holders : Nat
  /-- The catalog key; core nodes are not in the catalog. -/
  key? : Option UInt64

structure Slot where
  /-- How often the slot has been freed. -/
  generation : UInt32
  occupant? : Option Occupant

structure Arena where
  templates : Array Template := #[]
  /-- For each template the core node of every stage. -/
  coreNodes : Array (Array NodeId) := #[]
  slots : Array Slot := #[]
  /-- The empty slots, the one freed last in front. -/
  free : List Nat := []
  /-- The scenario nodes under each hash, the oldest in front. -/
  catalog : Std.TreeMap UInt64 (List NodeId) := ∅

abbrev ArenaM := EStateM Error Arena

namespace Arena

def empty : Arena := {}

/-! ## Looking things up -/

/-- What a handle names: the occupant of its slot, if the slot is still in the handle's generation. -/
def occupant? (a : Arena) (id : NodeId) : Option Occupant :=
  match a.slots[id.index]? with
  | some slot => if slot.generation = id.generation then slot.occupant? else none
  | none => none

def occupant (a : Arena) (id : NodeId) : Except Error Occupant :=
  match a.occupant? id with
  | some o => .ok o
  | none => .error (.unknownNode id)

def template (a : Arena) (id : TemplateId) : Except Error Template :=
  match a.templates[id.index]? with
  | some t => .ok t
  | none => .error (.unknownTemplate id)

def coreNode (a : Arena) (template : TemplateId) (stage : Nat) : Except Error NodeId :=
  match a.coreNodes[template.index]? with
  | some ids =>
    match ids[stage]? with
    | some id => .ok id
    | none => .error (.unknownStage stage ids.size)
  | none => .error (.unknownTemplate template)

def node (a : Arena) (id : NodeId) : Except Error Node := return (← a.occupant id).node

def holders (a : Arena) (id : NodeId) : Except Error Nat := return (← a.occupant id).holders

/-- A node and a template to use it with: the one asked for, or else its own. -/
def resolve (a : Arena) (id : NodeId) (core? : Option TemplateId) : Except Error (Node × Template) := do
  let node ← a.node id
  let core ← a.template (core?.getD node.template)
  return (node, core)

def liveNodes (a : Arena) : Nat := a.slots.countP (·.occupant?.isSome)

def nodeSlots (a : Arena) : Nat := a.slots.size

def numTemplates (a : Arena) : Nat := a.templates.size

/-! ## Slots and catalog -/

/-- Puts a node into the slot freed last, or into a new one if none is free. -/
def insert (a : Arena) (o : Occupant) : NodeId × Arena :=
  match a.free with
  | index :: free =>
    let generation := (a.slots[index]?.map (·.generation)).getD 0
    (⟨index, generation⟩,
      { a with free, slots := a.slots.modify index fun slot => { slot with occupant? := some o } })
  | [] => (⟨a.slots.size, 0⟩, { a with slots := a.slots.push ⟨0, some o⟩ })

def updateOccupant (a : Arena) (id : NodeId) (change : Occupant → Occupant) : Arena :=
  { a with slots := a.slots.modify id.index fun slot => { slot with occupant? := slot.occupant?.map change } }

def vacate (a : Arena) (index : Nat) : Arena :=
  { a with
    slots := a.slots.modify index fun slot => { generation := slot.generation + 1, occupant? := none }
    free := index :: a.free }

/-- Lists a handle under a key, behind those that are there. -/
def enroll (a : Arena) (key : UInt64) (id : NodeId) : Arena :=
  { a with catalog := a.catalog.insert key (a.catalog.getD key [] ++ [id]) }

/-- Takes a handle off the list of a key, and the list out of the catalog if it was the last one. -/
def strike (a : Arena) (key : UInt64) (id : NodeId) : Arena :=
  match (a.catalog.getD key []).filter (· ≠ id) with
  | [] => { a with catalog := a.catalog.erase key }
  | ids => { a with catalog := a.catalog.insert key ids }

/-- Whether two nodes are of the same stage of the same template and store the same. -/
def alike (m n : Node) : Bool :=
  match m.content, n.content with
  | .scenario p, .scenario q => m.template = n.template && m.stage = n.stage && decide (p = q)
  | _, _ => false

/-- The oldest node listed under a key that stores the same. -/
def findAlike (a : Arena) (key : UInt64) (node : Node) : Option NodeId :=
  (a.catalog.getD key []).find? fun id => (a.occupant? id).any fun o => alike o.node node

/-! ## Actions -/

def addCore (template : Template) (stage : Nat) : ArenaM NodeId := do
  let node ← attempt (Node.core template stage)
  modifyGet fun a => a.insert { node, holders := 1, key? := none }

def addTemplate (snapshot : Snapshot) (assignment : Assignment) (options : Options) : ArenaM TemplateId := do
  let id : TemplateId := ⟨(← get).templates.size⟩
  let template ← attempt (Template.build id snapshot assignment options)
  let ids ← (List.range template.numStages).mapM (addCore template)
  modify fun a => { a with
    templates := a.templates.push template
    coreNodes := a.coreNodes.push ids.toArray }
  return id

/-- Adds one holder and returns how many there are; a core node has its template as only holder. -/
def retain (id : NodeId) : ArenaM Nat := do
  let o ← attempt ((← get).occupant id)
  if o.node.isCore then return o.holders
  else
    modify (·.updateOccupant id fun o => { o with holders := o.holders + 1 })
    return o.holders + 1

/-- Takes one holder off; with the last one the node is freed. -/
def release (id : NodeId) : ArenaM Bool := do
  let o ← attempt ((← get).occupant id)
  if o.node.isCore then throw (.coreRelease o.node.stage)
  else if 1 < o.holders then
    modify (·.updateOccupant id fun o => { o with holders := o.holders - 1 })
    return false
  else
    modify (·.vacate id.index)
    match o.key? with
    | some key => modify (·.strike key id)
    | none => pure ()
    return true

def buildNode (limit : Nat) (template : TemplateId) (stage : Nat) (overrides : Overrides) : ArenaM (Node × Tally) := do
  let core ← attempt ((← get).template template)
  attempt (Node.ofOverridesBy limit core stage overrides)

def admitNode (key : UInt64) (node : Node) : ArenaM NodeId := do
  let id ← modifyGet fun a => a.insert { node, holders := 1, key? := some key }
  modify (·.enroll key id)
  return id

def addNodeBy (host : Host) (template : TemplateId) (stage : Nat) (overrides : Overrides) :
    ArenaM (NodeId × Tally) := do
  let (node, tally) ← buildNode host.limit template stage overrides
  return (← admitNode (node.key host.hash) node, tally)

/-- Adds a holder to the oldest node that stores the same, or adds a node if there is none. -/
def internNodeBy (host : Host) (template : TemplateId) (stage : Nat) (overrides : Overrides) :
    ArenaM (NodeId × Tally) := do
  let (node, tally) ← buildNode host.limit template stage overrides
  match (← get).findAlike (node.key host.hash) node with
  | some id =>
    let _ ← retain id
    return (id, tally)
  | none => return (← admitNode (node.key host.hash) node, tally)

def addNode : TemplateId → Nat → Overrides → ArenaM (NodeId × Tally) := addNodeBy .plain

def internNode : TemplateId → Nat → Overrides → ArenaM (NodeId × Tally) := internNodeBy .plain

/-! ## Reconstruction by handle -/

def fillField (a : Arena) (id : NodeId) (core? : Option TemplateId) (f : Field) : BufferM Unit := do
  let (node, core) ← attempt (a.resolve id core?)
  node.fillField core f

def onNode {α : Type} (id : NodeId) (node : Node) (action : EStateM Error Node α) : ArenaM α :=
  match action.run node with
  | .ok x node => do modify (·.updateOccupant id ({ · with node })); return x
  | .error e node => do modify (·.updateOccupant id ({ · with node })); throw e

/-- A row of a node in dense form, kept by the node from then on. -/
def denseRow (id : NodeId) (core? : Option TemplateId) (row : Nat) : ArenaM (Array Binary64) := do
  let (node, core) ← attempt ((← get).resolve id core?)
  onNode id node (Node.denseRow core row)

def mergedRow (a : Arena) (id : NodeId) (core? : Option TemplateId) (row : Nat) :
    Except Error SparseVector := do
  let (node, core) ← a.resolve id core?
  node.mergedRow core row

def mergedMatrix (a : Arena) (id : NodeId) (core? : Option TemplateId) : Except Error Matrix := do
  let (node, core) ← a.resolve id core?
  node.mergedMatrix core

end Arena
end Multistage
