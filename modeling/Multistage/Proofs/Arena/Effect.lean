import Multistage.Proofs.Arena.Step
/-!
# What each change does to every handle

The changes of `Step`, seen through `occupant?`, `listed` and `generation`.  Each is stated for all handles at once, so
that a handle that is not named in the change is left alone by the same statement.  `Finds` says the same of the
properties of what a handle finds: which handles gain one by a change, and which lose one.
-/
namespace Multistage
namespace Arena

variable {a : Arena} {id : NodeId} {o : Occupant} {P : Occupant → Prop}

/-- A handle finds something with a property. -/
def Finds (a : Arena) (P : Occupant → Prop) (i : NodeId) : Prop := ∃ o, a.occupant? i = some o ∧ P o

theorem Finds.of (live : a.occupant? id = some o) (h : P o) : a.Finds P id := ⟨o, live, h⟩

theorem finds_iff (live : a.occupant? id = some o) : a.Finds P id ↔ P o := by
  constructor
  · rintro ⟨p, found, h⟩
    obtain rfl : o = p := Option.some.inj (live.symm.trans found)
    exact h
  · exact .of live

theorem not_finds (dead : a.occupant? id = none) : ¬ a.Finds P id := by
  rintro ⟨p, found, -⟩
  rw [dead] at found
  cases found

theorem finds_congr {b : Arena} {i : NodeId} (same : b.occupant? i = a.occupant? i) : b.Finds P i ↔ a.Finds P i := by
  rw [Finds, same, Finds]

/-! ## A node is changed -/

theorem finds_updateOccupant (live : a.occupant? id = some o) {change : Occupant → Occupant}
    (same : P (change o) ↔ P o) (i : NodeId) : (a.updateOccupant id change).Finds P i ↔ a.Finds P i := by
  by_cases hi : i = id
  · have changed : (a.updateOccupant id change).occupant? id = some (change o) := by
      rw [occupant?_updateOccupant live, if_pos rfl]
    rw [hi, finds_iff changed, finds_iff live, same]
  · exact finds_congr (by rw [occupant?_updateOccupant live, if_neg hi])

@[simp] theorem templates_insert (a : Arena) (o : Occupant) : (a.insert o).2.templates = a.templates := by
  unfold insert
  split <;> rfl

@[simp] theorem coreNodes_insert (a : Arena) (o : Occupant) : (a.insert o).2.coreNodes = a.coreNodes := by
  unfold insert
  split <;> rfl

@[simp] theorem catalog_insert (a : Arena) (o : Occupant) : (a.insert o).2.catalog = a.catalog := by
  unfold insert
  split <;> rfl

/-! ## A scenario node is put in -/

theorem occupant?_withNode (h : a.FreeListed) (key : UInt64) (node : Node) :
    a.occupant? (a.newId key node) = none ∧ ∀ i, (a.withNode key node).occupant? i =
      if i = a.newId key node then some { node, holders := 1, key? := some key } else a.occupant? i :=
  h.occupant?_insert _

theorem finds_withNode (h : a.FreeListed) {key : UInt64} {node : Node} (i : NodeId) : (a.withNode key node).Finds P i ↔
    (i = a.newId key node ∧ P { node, holders := 1, key? := some key }) ∨ a.Finds P i := by
  obtain ⟨fresh, found⟩ := occupant?_withNode h key node
  by_cases hi : i = a.newId key node
  · rw [hi, finds_iff (by rw [found, if_pos rfl])]
    simp [not_finds fresh]
  · have same : (a.withNode key node).Finds P i ↔ a.Finds P i := finds_congr (by rw [found, if_neg hi])
    simp [same, hi]

theorem listed_withNode (a : Arena) (key : UInt64) (node : Node) (k : UInt64) : (a.withNode key node).listed k =
    if key = k then a.listed key ++ [a.newId key node] else a.listed k := by
  rw [withNode, listed_enroll, listed_insert, listed_insert]

theorem generation_withNode (h : a.FreeListed) (key : UInt64) (node : Node) (i : Nat) :
    (a.withNode key node).generation i = a.generation i :=
  (h.insert_eq _).2.2 i

@[simp] theorem templates_withNode (a : Arena) (key : UInt64) (node : Node) :
    (a.withNode key node).templates = a.templates := templates_insert ..

@[simp] theorem coreNodes_withNode (a : Arena) (key : UInt64) (node : Node) :
    (a.withNode key node).coreNodes = a.coreNodes := coreNodes_insert ..

/-! ## A node is taken out -/

theorem occupant?_remove (live : a.occupant? id = some o) (key? : Option UInt64) (i : NodeId) :
    (a.remove id key?).occupant? i = if i = id then none else a.occupant? i := by
  cases key? with
  | none => exact occupant?_vacate live i
  | some key =>
    rw [remove, occupant?_strike]
    exact occupant?_vacate live i

theorem finds_remove (live : a.occupant? id = some o) {key? : Option UInt64} (i : NodeId) :
    (a.remove id key?).Finds P i ↔ i ≠ id ∧ a.Finds P i := by
  by_cases hi : i = id
  · have gone : (a.remove id key?).occupant? id = none := by rw [occupant?_remove live, if_pos rfl]
    rw [hi]
    simp [not_finds gone]
  · have same : (a.remove id key?).Finds P i ↔ a.Finds P i := finds_congr (by rw [occupant?_remove live, if_neg hi])
    simp [same, hi]

theorem generation_remove (live : a.occupant? id = some o) (key? : Option UInt64) (i : Nat) :
    (a.remove id key?).generation i = if id.index = i then a.generation i + 1 else a.generation i := by
  have occupied : a.at? id.index ≠ none := by
    rw [(occupant?_eq_some.1 live).2]
    exact Option.some_ne_none o
  cases key? with
  | none => exact generation_vacate a occupied i
  | some key =>
    rw [remove, generation_strike]
    exact generation_vacate a occupied i

theorem listed_remove (a : Arena) (id : NodeId) (key : UInt64) (k : UInt64) : (a.remove id (some key)).listed k =
    if key = k then (a.listed key).filter (· ≠ id) else a.listed k := by
  rw [remove, listed_strike]
  rfl

theorem templates_remove (a : Arena) (id : NodeId) (key? : Option UInt64) :
    (a.remove id key?).templates = a.templates ∧ (a.remove id key?).coreNodes = a.coreNodes := by
  cases key? with
  | none => exact ⟨rfl, rfl⟩
  | some key => exact (slots_strike ..).2.2

theorem slots_remove (a : Arena) (id : NodeId) (key? : Option UInt64) :
    (a.remove id key?).free = id.index :: a.free ∧ (a.remove id key?).slots = (a.vacate id.index).slots := by
  cases key? with
  | none => exact ⟨rfl, rfl⟩
  | some key =>
    obtain ⟨slots, free, -⟩ := (a.vacate id.index).slots_strike key id
    exact ⟨free, slots⟩

theorem FreeListed.remove (h : a.FreeListed) (live : a.occupant? id = some o) (key? : Option UInt64) :
    (a.remove id key?).FreeListed := by
  have vacated := h.freeListed_vacate (j := id.index) (by
    rw [(occupant?_eq_some.1 live).2]
    exact Option.some_ne_none o)
  obtain ⟨free, slots⟩ := a.slots_remove id key?
  exact {
    nodup := by rw [free]; exact vacated.nodup
    mem_free := by intro i; rw [free, at?, slots]; exact vacated.mem_free }

/-! ## The core nodes of a template are put in -/

structure CoresInserted (t : Template) (stages : List Nat) (a : Arena) (ids : List NodeId) (b : Arena) : Prop where
  length : ids.length = stages.length
  nodup : ids.Nodup
  fresh : ∀ id ∈ ids, a.occupant? id = none
  found : ∀ {n : Nat} {id : NodeId}, ids[n]? = some id →
    ∃ stage, stages[n]? = some stage ∧ b.occupant? id = some (coreOccupant t stage)
  other : ∀ id ∉ ids, b.occupant? id = a.occupant? id
  generation : ∀ i, b.generation i = a.generation i
  freeListed : b.FreeListed
  templates : b.templates = a.templates
  coreNodes : b.coreNodes = a.coreNodes
  catalog : b.catalog = a.catalog

theorem insertCores_spec (t : Template) : ∀ (stages : List Nat) {a : Arena}, a.FreeListed →
    CoresInserted t stages a (insertCores t stages a).1 (insertCores t stages a).2
  | [], a, h => {
      length := rfl, nodup := List.nodup_nil, fresh := by simp [insertCores], found := by simp [insertCores]
      other := fun _ _ => rfl, generation := fun _ => rfl, freeListed := h
      templates := rfl, coreNodes := rfl, catalog := rfl }
  | stage :: stages, a, h => by
    have rest := insertCores_spec t stages (h.freeListed_insert (coreOccupant t stage))
    have generation := (h.insert_eq (coreOccupant t stage)).2.2
    obtain ⟨fresh, found⟩ := h.occupant?_insert (coreOccupant t stage)
    have only : ∀ i ∈ (insertCores t stages (a.insert (coreOccupant t stage)).2).1,
        i ≠ (a.insert (coreOccupant t stage)).1 := fun i hi same => by
      have := rest.fresh i hi
      rw [found, if_pos same] at this
      cases this
    rw [insertCores]
    exact {
      length := congrArg (· + 1) rest.length
      nodup := List.nodup_cons.2 ⟨fun hi => only _ hi rfl, rest.nodup⟩
      fresh := List.forall_mem_cons.2 ⟨fresh, fun i hi => by
        have := rest.fresh i hi
        rwa [found, if_neg (only i hi)] at this⟩
      found := fun {n i} hi => by
        cases n with
        | zero =>
          obtain rfl : (a.insert (coreOccupant t stage)).1 = i := by simpa using hi
          refine ⟨stage, rfl, ?_⟩
          rw [rest.other _ fun hi => only _ hi rfl, found, if_pos rfl]
        | succ n => exact rest.found hi
      other := fun i hi => by
        have first : i ≠ (a.insert (coreOccupant t stage)).1 := List.ne_of_not_mem_cons hi
        rw [rest.other i (List.not_mem_of_not_mem_cons hi), found, if_neg first]
      generation := fun i => (rest.generation i).trans (generation i)
      freeListed := rest.freeListed
      templates := rest.templates.trans (templates_insert ..)
      coreNodes := rest.coreNodes.trans (coreNodes_insert ..)
      catalog := rest.catalog.trans (catalog_insert ..) }

/-- What adding a template does: the core node of each stage is put in, under a handle that found nothing. -/
structure TemplateAdded (t : Template) (a : Arena) : Prop where
  length : (a.coreIds t).length = t.numStages
  nodup : (a.coreIds t).Nodup
  fresh : ∀ id ∈ a.coreIds t, a.occupant? id = none
  found : ∀ {stage : Nat} {id : NodeId}, (a.coreIds t)[stage]? = some id →
    (a.withTemplate t).occupant? id = some (coreOccupant t stage)
  other : ∀ id ∉ a.coreIds t, (a.withTemplate t).occupant? id = a.occupant? id
  generation : ∀ i, (a.withTemplate t).generation i = a.generation i
  freeListed : (a.withTemplate t).FreeListed
  templates : (a.withTemplate t).templates = a.templates.push t
  coreNodes : (a.withTemplate t).coreNodes = a.coreNodes.push (a.coreIds t).toArray
  catalog : (a.withTemplate t).catalog = a.catalog

theorem FreeListed.withTemplate (h : a.FreeListed) (t : Template) : TemplateAdded t a := by
  have inserted := insertCores_spec t (List.range t.numStages) h
  exact {
    length := inserted.length.trans (List.length_range ..)
    nodup := inserted.nodup
    fresh := inserted.fresh
    found := fun {stage id} hi => by
      obtain ⟨s, hs, found⟩ := inserted.found hi
      obtain ⟨lt, hs⟩ := List.getElem?_eq_some_iff.1 hs
      rw [List.getElem_range] at hs
      rw [hs]
      exact found
    other := inserted.other
    generation := inserted.generation
    freeListed := ⟨inserted.freeListed.nodup, inserted.freeListed.mem_free⟩
    templates := congrArg (·.push t) inserted.templates
    coreNodes := congrArg (·.push (a.coreIds t).toArray) inserted.coreNodes
    catalog := inserted.catalog }

theorem TemplateAdded.finds {t : Template} (added : TemplateAdded t a) (i : NodeId) :
    (a.withTemplate t).Finds P i ↔
      (∃ stage, (a.coreIds t)[stage]? = some i ∧ P (coreOccupant t stage)) ∨ a.Finds P i := by
  by_cases hi : i ∈ a.coreIds t
  · obtain ⟨stage, hs⟩ := List.mem_iff_getElem?.1 hi
    rw [finds_iff (added.found hs)]
    constructor
    · exact fun h => .inl ⟨stage, hs, h⟩
    · rintro (⟨stage', hs', h⟩ | h)
      · have := added.found hs'
        rw [added.found hs, Option.some.injEq] at this
        rwa [this]
      · exact absurd h (not_finds (added.fresh i hi))
  · rw [finds_congr (added.other i hi)]
    constructor
    · exact .inr
    · rintro (⟨stage, hs, -⟩ | h)
      · exact absurd (List.mem_of_getElem? hs) hi
      · exact h

end Arena
end Multistage
