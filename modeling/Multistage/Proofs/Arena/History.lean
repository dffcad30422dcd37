import Mathlib.Data.List.Induction
import Multistage.Proofs.Arena.Sound
/-!
# Histories

A history is a list of calls on the empty arena.  What is counted over it, how often a slot was freed above all, is a
sum over its calls; what holds after it is shown call by call.

As long as no slot is freed so often that its generations come round again, a handle that is no longer live is behind
the generation of its slot for good (`generation_lt_frees`): it never finds anything again, and no new node gets it.
-/
namespace Multistage
namespace Arena

/-- The arena after a history. -/
def after (host : Host) (calls : List Call) : Arena := calls.foldl (next host) empty

/-- How many calls of a history were of a kind, the history going on from an arena. -/
def occurrences (host : Host) (kind : Arena → Call → Except Error Answer → Bool) : Arena → List Call → Nat
  | _, [] => 0
  | a, c :: calls => (kind a c (answer host a c)).toNat + occurrences host kind (next host a c) calls

/-- The call takes the last holder off a node at an index. -/
def freeing (index : Nat) (_ : Arena) (c : Call) (r : Except Error Answer) : Bool :=
  match r, c with
  | .ok (.freed true), .release id => id.index = index
  | _, _ => false

/-- The call adds a holder to a node that is there. -/
def holding (id : NodeId) (a : Arena) (c : Call) (r : Except Error Answer) : Bool :=
  match r, c with
  | .ok (.holders _), .retain i => i = id
  | .ok (.node i _), .internNode .. => i = id && (a.occupant? id).isSome
  | _, _ => false

def releasing (id : NodeId) (_ : Arena) (c : Call) (r : Except Error Answer) : Bool :=
  match r, c with
  | .ok (.freed _), .release i => i = id
  | _, _ => false

def frees (host : Host) (calls : List Call) (index : Nat) : Nat :=
  occurrences host (freeing index) empty calls

/-- How often a node was retained, or found alike and shared. -/
def holds (host : Host) (calls : List Call) (id : NodeId) : Nat :=
  occurrences host (holding id) empty calls

def releases (host : Host) (calls : List Call) (id : NodeId) : Nat :=
  occurrences host (releasing id) empty calls

abbrev Live (a : Arena) : NodeId → Prop := a.Finds fun _ => True

/-- A handle found something at some time. -/
def Issued (host : Host) (calls : List Call) (id : NodeId) : Prop :=
  ∃ pre, pre <+: calls ∧ (after host pre).Live id

variable {host : Host}

theorem after_append (pre post : List Call) : after host (pre ++ post) = post.foldl (next host) (after host pre) :=
  List.foldl_append ..

theorem after_concat (calls : List Call) (c : Call) : after host (calls ++ [c]) = next host (after host calls) c := by
  rw [after_append]
  rfl

theorem occurrences_concat (kind : Arena → Call → Except Error Answer → Bool) (c : Call) :
    ∀ (calls : List Call) (a : Arena), occurrences host kind a (calls ++ [c]) = occurrences host kind a calls +
      (kind (calls.foldl (next host) a) c (answer host (calls.foldl (next host) a) c)).toNat
  | [], a => by rw [List.nil_append, occurrences, occurrences, occurrences, List.foldl_nil, Nat.zero_add, Nat.add_zero]
  | d :: calls, a => by
    rw [List.cons_append, occurrences, occurrences_concat kind c calls, occurrences, List.foldl_cons, Nat.add_assoc]

theorem occurrences_le_length (kind : Arena → Call → Except Error Answer → Bool) : ∀ (calls : List Call) (a : Arena),
    occurrences host kind a calls ≤ calls.length
  | [], _ => Nat.le_refl 0
  | c :: calls, a => by
    have rest := occurrences_le_length kind calls (next host a c)
    have one := Bool.toNat_le (kind a c (answer host a c))
    rw [occurrences, List.length_cons]
    omega

theorem frees_concat (calls : List Call) (c : Call) (index : Nat) : frees host (calls ++ [c]) index =
    frees host calls index + (freeing index (after host calls) c (answer host (after host calls) c)).toNat :=
  occurrences_concat ..

theorem frees_le_concat (calls : List Call) (c : Call) (index : Nat) :
    frees host calls index ≤ frees host (calls ++ [c]) index := by
  rw [frees_concat]
  exact Nat.le_add_right ..

theorem frees_le_append (pre post : List Call) (index : Nat) :
    frees host pre index ≤ frees host (pre ++ post) index := by
  induction post using List.reverseRecOn with
  | nil => exact Nat.le_of_eq (by rw [List.append_nil])
  | append_singleton post c ih =>
    rw [← List.append_assoc]
    exact Nat.le_trans ih (frees_le_concat ..)

theorem step_after (calls : List Call) (c : Call) :
    Step host (after host calls) c (answer host (after host calls) c) (after host (calls ++ [c])) := by
  rw [after_concat]
  exact step_perform ..

/-- **The arena is sound after every history.** -/
theorem sound_after (calls : List Call) : Sound host (after host calls) := by
  induction calls using List.reverseRecOn with
  | nil => exact sound_empty
  | append_singleton calls c ih => exact ih.step (step_after calls c)

theorem issued_concat {calls : List Call} {c : Call} {id : NodeId} :
    Issued host (calls ++ [c]) id ↔ (after host (calls ++ [c])).Live id ∨ Issued host calls id := by
  simp only [Issued, List.prefix_concat_iff, or_and_right, exists_or, exists_eq_left]

theorem issued_append {pre : List Call} {id : NodeId} (issued : Issued host pre id) (post : List Call) :
    Issued host (pre ++ post) id := by
  obtain ⟨first, before, live⟩ := issued
  exact ⟨first, before.trans (List.prefix_append ..), live⟩

theorem not_issued_nil (id : NodeId) : ¬ Issued host [] id := by
  rintro ⟨pre, before, o, found, -⟩
  rw [List.prefix_nil.1 before] at found
  cases found

variable {a b : Arena} {c : Call} {r : Except Error Answer}

/-! ## Templates -/

/-- A step leaves the templates and the table of core nodes alone, or adds a template. -/
theorem templates_step (step : Step host a c r b) : (b.templates = a.templates ∧ b.coreNodes = a.coreNodes) ∨
    ∃ t : Template, t.WellBuilt ∧ b = a.withTemplate t := by
  cases step with
  | refused => exact .inl ⟨rfl, rfl⟩
  | template built => exact .inr ⟨_, Template.wellBuilt_of_build built, rfl⟩
  | created => exact .inl ⟨templates_withNode .., coreNodes_withNode ..⟩
  | shared => exact .inl ⟨rfl, rfl⟩
  | retained => exact .inl ⟨rfl, rfl⟩
  | counted => exact .inl ⟨rfl, rfl⟩
  | dropped => exact .inl ⟨rfl, rfl⟩
  | freed => exact .inl (templates_remove ..)
  | unread => exact .inl ⟨rfl, rfl⟩
  | read => exact .inl ⟨rfl, rfl⟩

/-- A template stays where it is. -/
theorem Sound.template_step (h : Sound host a) (step : Step host a c r b) {k : Nat} {t : Template}
    (found : a.templates[k]? = some t) : b.templates[k]? = some t := by
  rcases templates_step step with ⟨templates, -⟩ | ⟨u, -, rfl⟩
  · rw [templates]
    exact found
  · have old := (Array.getElem?_eq_some_iff.1 found).1
    rw [(h.freeListed.withTemplate u).templates, Array.getElem?_push, if_neg (Nat.ne_of_lt old)]
    exact found

/-! ## Generations -/

/-- A step moves on the generations of the slots that it frees. -/
theorem Sound.generation_step (h : Sound host a) (step : Step host a c r b) (index : Nat) :
    b.generation index = a.generation index + UInt32.ofNat (freeing index a c r).toNat := by
  cases step with
  | refused => exact (UInt32.add_zero _).symm
  | template => exact ((h.freeListed.withTemplate _).generation index).trans (UInt32.add_zero _).symm
  | created => exact (generation_withNode h.freeListed ..).trans (UInt32.add_zero _).symm
  | shared => exact (generation_updateOccupant ..).trans (UInt32.add_zero _).symm
  | retained => exact (generation_updateOccupant ..).trans (UInt32.add_zero _).symm
  | counted => exact (UInt32.add_zero _).symm
  | dropped => exact (generation_updateOccupant ..).trans (UInt32.add_zero _).symm
  | @freed id o live =>
    rw [generation_remove live, freeing]
    by_cases here : id.index = index
    · rw [if_pos here, decide_eq_true here]
      rfl
    · rw [if_neg here, decide_eq_false here]
      exact (UInt32.add_zero _).symm
  | unread => exact (UInt32.add_zero _).symm
  | @read id core? row o rows r live =>
    have none : freeing index a (.denseRow id core? row) r = false := by
      unfold freeing
      split <;> simp_all
    rw [none]
    exact (generation_updateOccupant ..).trans (UInt32.add_zero _).symm

/-- **The generation of a slot counts how often it was freed.** -/
theorem generation_after (calls : List Call) (index : Nat) :
    (after host calls).generation index = UInt32.ofNat (frees host calls index) := by
  induction calls using List.reverseRecOn with
  | nil => rfl
  | append_singleton calls c ih =>
    rw [(sound_after calls).generation_step (step_after calls c), ih, frees_concat, UInt32.ofNat_add]

/-! ## Handles that are no longer live -/

/-- A handle that begins to find something is of the generation that its slot was in. -/
theorem Sound.enter (h : Sound host a) (step : Step host a c r b) {id : NodeId} (old : ¬ a.Live id)
    (new : b.Live id) : a.generation id.index = id.generation := by
  obtain ⟨o, found, -⟩ := new
  have current := (occupant?_eq_some.1 found).1
  have new : b.Live id := .of found trivial
  cases step with
  | refused => exact absurd new old
  | template => exact ((h.freeListed.withTemplate _).generation _).symm.trans current
  | created => exact (generation_withNode h.freeListed ..).symm.trans current
  | shared _ _ _ live => exact absurd ((finds_updateOccupant live Iff.rfl id).1 new) old
  | retained live => exact absurd ((finds_updateOccupant live Iff.rfl id).1 new) old
  | counted => exact absurd new old
  | dropped live => exact absurd ((finds_updateOccupant live Iff.rfl id).1 new) old
  | freed live => exact absurd ((finds_remove live id).1 new).2 old
  | unread => exact absurd new old
  | read live => exact absurd ((finds_updateOccupant live Iff.rfl id).1 new) old

/-- A handle stops finding something only because its slot is freed. -/
theorem Sound.leave (h : Sound host a) (step : Step host a c r b) {id : NodeId} (old : a.Live id)
    (new : ¬ b.Live id) : freeing id.index a c r = true := by
  cases step with
  | refused => exact absurd old new
  | template => exact absurd (((h.freeListed.withTemplate _).finds id).2 (.inr old)) new
  | created => exact absurd ((finds_withNode h.freeListed id).2 (.inr old)) new
  | shared _ _ _ live => exact absurd ((finds_updateOccupant live Iff.rfl id).2 old) new
  | retained live => exact absurd ((finds_updateOccupant live Iff.rfl id).2 old) new
  | counted => exact absurd old new
  | dropped live => exact absurd ((finds_updateOccupant live Iff.rfl id).2 old) new
  | @freed i o live =>
    have same : i = id := Classical.byContradiction fun other =>
      new ((finds_remove live id).2 ⟨Ne.symm other, old⟩)
    rw [same]
    exact decide_eq_true rfl
  | unread => exact absurd old new
  | read live => exact absurd ((finds_updateOccupant live Iff.rfl id).2 old) new

theorem generation_toNat {calls : List Call} {id : NodeId} (few : frees host calls id.index < UInt32.size)
    (current : (after host calls).generation id.index = id.generation) :
    id.generation.toNat = frees host calls id.index := by
  rw [← current, generation_after, UInt32.toNat_ofNat', Nat.mod_eq_of_lt few]

/-- **A handle that is no longer live is behind the generation of its slot.** -/
theorem generation_lt_frees (calls : List Call) {id : NodeId} (few : frees host calls id.index < UInt32.size)
    (issued : Issued host calls id) (gone : ¬ (after host calls).Live id) :
    id.generation.toNat < frees host calls id.index := by
  induction calls using List.reverseRecOn with
  | nil => exact absurd issued (not_issued_nil id)
  | append_singleton calls c ih =>
    have more : frees host calls id.index ≤ frees host (calls ++ [c]) id.index := frees_le_concat ..
    have few := Nat.lt_of_le_of_lt more few
    by_cases old : (after host calls).Live id
    · obtain ⟨o, found, -⟩ := old
      have freed := (sound_after calls).leave (step_after calls c) (.of found trivial) gone
      rw [generation_toNat few (occupant?_eq_some.1 found).1, frees_concat, freed]
      exact Nat.lt_succ_self _
    · exact Nat.lt_of_lt_of_le (ih few ((issued_concat.1 issued).resolve_left gone) old) more

/-- **A handle that begins to find something has not been given out before.** -/
theorem not_issued_of_enter {calls : List Call} {c : Call} {id : NodeId}
    (few : frees host calls id.index < UInt32.size)
    (old : ¬ (after host calls).Live id) (new : (after host (calls ++ [c])).Live id) : ¬ Issued host calls id := by
  intro issued
  have behind := generation_lt_frees calls few issued old
  rw [generation_toNat few ((sound_after calls).enter (step_after calls c) old new)] at behind
  exact Nat.lt_irrefl _ behind

/-- **A handle that is no longer live never finds anything again.** -/
theorem not_live_append {pre : List Call} {id : NodeId} (issued : Issued host pre id)
    (gone : ¬ (after host pre).Live id) (post : List Call) (few : frees host (pre ++ post) id.index < UInt32.size) :
    ¬ (after host (pre ++ post)).Live id := by
  induction post using List.reverseRecOn with
  | nil =>
    rw [List.append_nil]
    exact gone
  | append_singleton post c ih =>
    rw [← List.append_assoc] at few ⊢
    have few := Nat.lt_of_le_of_lt (frees_le_concat ..) few
    exact fun new => not_issued_of_enter few (ih few) new (issued_append issued post)

/-! ## A small history

A node is added, found alike, and let go of twice; its slot is used again, and its handle is tried once more. -/

/-- A host on which all contents have the same hash. -/
def colliding : Host := ⟨fun _ => 0, RowWriter.addressable⟩

def reusingCalls : List Call := [
  .addTemplate interleaved interleavedStages {},
  .addNode ⟨0⟩ 1 interleavedOverrides,
  .internNode ⟨0⟩ 1 interleavedOverrides,
  .release ⟨2, 0⟩,
  .release ⟨2, 0⟩,
  .addNode ⟨0⟩ 1 interleavedOverrides,
  .retain ⟨2, 0⟩,
  .retain ⟨2, 1⟩]

end Arena
end Multistage
