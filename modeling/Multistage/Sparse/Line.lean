import Std.Data.TreeMap.Lemmas
import Multistage.Binary64
/-!
# Lines of a sparse matrix

A line is a list of entries whose indices ascend strictly and stay below a width.  That makes it a canonical form:
a line is known by what `lookup` answers (`Ascending.ext`), so "same line" and "same value at every index"
are one statement.

Lines are produced in one way only.  Values are gathered in `Cells`, a finite map, and read out in index order
(`Cells.toLine`), which ascends whatever the order of writing was.
-/
namespace Multistage.Sparse

structure Entry where
  index : Nat
  value : Binary64
deriving DecidableEq, Repr, Inhabited

/-- Every index is below all later ones. -/
def Ascending (l : List Entry) : Prop := l.Pairwise (·.index < ·.index)

/-- Every element is related to the next one. -/
def chained {α : Type} (r : α → α → Bool) : List α → Bool
  | a :: b :: l => r a b && chained r (b :: l)
  | _ => true

theorem chained_iff {α : Type} {r : α → α → Bool} (trans : ∀ a b c, r a b → r b c → r a c) :
    ∀ l : List α, chained r l = true ↔ l.Pairwise (r · ·)
  | [] => by simp [chained]
  | [a] => by simp [chained]
  | a :: b :: l => by
    rw [chained, Bool.and_eq_true, chained_iff trans (b :: l)]
    refine ⟨fun ⟨h, k⟩ => .cons (fun c hc => ?_) k,
      fun h => ⟨List.rel_of_pairwise_cons h (List.mem_cons_self ..), h.of_cons⟩⟩
    rcases List.mem_cons.1 hc with rfl | hc
    · exact h
    · exact trans a b c h ((List.pairwise_cons.1 k).1 c hc)

/-- Neighbours are compared, not all pairs. -/
instance (l : List Entry) : Decidable (Ascending l) :=
  decidable_of_iff (chained (fun a b => decide (a.index < b.index)) l = true) (by
    rw [chained_iff (fun a b c h k => by simp only [decide_eq_true_eq] at *; omega)]
    simp [Ascending])

/-- Entries that ascend below a width. -/
structure IsLine (width : Nat) (l : List Entry) : Prop where
  ascending : Ascending l
  bounded : ∀ e ∈ l, e.index < width

theorem isLine_iff {width : Nat} {l : List Entry} :
    IsLine width l ↔ Ascending l ∧ ∀ e ∈ l, e.index < width :=
  ⟨fun h => ⟨h.1, h.2⟩, fun h => ⟨h.1, h.2⟩⟩

instance (width : Nat) (l : List Entry) : Decidable (IsLine width l) := decidable_of_iff _ isLine_iff.symm

theorem IsLine.nil (width : Nat) : IsLine width [] := ⟨List.Pairwise.nil, by simp⟩

/-- What the first entry with an index holds. -/
def lookup (l : List Entry) (i : Nat) : Option Binary64 := (l.find? (·.index = i)).map (·.value)

@[simp] theorem lookup_nil (i : Nat) : lookup [] i = none := rfl

@[simp] theorem lookup_cons (e : Entry) (l : List Entry) (i : Nat) :
    lookup (e :: l) i = if e.index = i then some e.value else lookup l i := by
  by_cases h : e.index = i <;> simp [lookup, h]

theorem lookup_eq_none_iff {l : List Entry} {i : Nat} : lookup l i = none ↔ ∀ e ∈ l, e.index ≠ i := by
  simp [lookup]

theorem mem_of_lookup {l : List Entry} {i : Nat} {v : Binary64} (h : lookup l i = some v) : ⟨i, v⟩ ∈ l := by
  obtain ⟨⟨j, w⟩, he, rfl⟩ := Option.map_eq_some_iff.1 h
  have hj : j = i := by simpa using List.find?_some he
  subst hj
  exact List.mem_of_find?_eq_some he

theorem Ascending.lookup_eq_some_iff {l : List Entry} (h : Ascending l) {i : Nat} {v : Binary64} :
    lookup l i = some v ↔ ⟨i, v⟩ ∈ l := by
  refine ⟨mem_of_lookup, fun hm => ?_⟩
  induction l with
  | nil => cases hm
  | cons e l ih =>
    obtain ⟨he, hl⟩ := List.pairwise_cons.1 h
    rw [lookup_cons]
    rcases List.mem_cons.1 hm with rfl | hm
    · simp
    · have := he _ hm
      rw [if_neg (by simp only at this; omega), ih hl hm]

/-- **A line is known by its values**: two ascending lists that answer every look-up alike are equal. -/
theorem Ascending.ext {k l : List Entry} (hk : Ascending k) (hl : Ascending l)
    (h : ∀ i, lookup k i = lookup l i) : k = l := by
  induction k generalizing l with
  | nil =>
    cases l with
    | nil => rfl
    | cons e l => have := h e.index; simp at this
  | cons d k ih =>
    cases l with
    | nil => have := h d.index; simp at this
    | cons e l =>
      obtain ⟨hd, hk'⟩ := List.pairwise_cons.1 hk
      obtain ⟨he, hl'⟩ := List.pairwise_cons.1 hl
      have mem : ∀ x, x ∈ d :: k ↔ x ∈ e :: l := fun ⟨i, v⟩ => by
        rw [← hk.lookup_eq_some_iff, ← hl.lookup_eq_some_iff, h]
      have hde : d = e := by
        rcases List.mem_cons.1 ((mem d).1 (List.mem_cons_self ..)) with hd' | hd'
        · exact hd'
        · rcases List.mem_cons.1 ((mem e).2 (List.mem_cons_self ..)) with he' | he'
          · exact he'.symm
          · have := hd _ he'; have := he _ hd'; omega
      subst hde
      refine congrArg (d :: ·) (ih hk' hl' fun i => ?_)
      have := h i
      simp only [lookup_cons] at this
      split at this
      · rename_i hi
        subst hi
        rw [lookup_eq_none_iff.2 fun x hx => by have := hd x hx; omega,
          lookup_eq_none_iff.2 fun x hx => by have := he x hx; omega]
      · exact this

/-! ## Gathering values -/

/-- A finite map from indices to values. -/
abbrev Cells := Std.TreeMap Nat Binary64

namespace Cells

def toLine (m : Cells) : List Entry := m.toList.map fun p => ⟨p.1, p.2⟩

def put (m : Cells) (e : Entry) : Cells := m.insert e.index e.value

theorem mem_toLine {m : Cells} {e : Entry} : e ∈ m.toLine ↔ m[e.index]? = some e.value := by
  rw [toLine, List.mem_map, ← Std.TreeMap.mem_toList_iff_getElem?_eq_some]
  exact ⟨fun ⟨p, hp, he⟩ => by subst he; exact hp, fun h => ⟨_, h, rfl⟩⟩

theorem ascending_toLine (m : Cells) : Ascending m.toLine := by
  rw [Ascending, toLine, List.pairwise_map]
  exact m.ordered_keys_toList.imp fun h => Nat.compare_eq_lt.1 h

@[simp] theorem lookup_toLine (m : Cells) (i : Nat) : lookup m.toLine i = m[i]? := by
  refine Option.ext fun v => ?_
  rw [(ascending_toLine m).lookup_eq_some_iff, mem_toLine]

@[simp] theorem getElem?_put (m : Cells) (e : Entry) (i : Nat) :
    (m.put e)[i]? = if e.index = i then some e.value else m[i]? := by
  simp [put, Std.TreeMap.getElem?_insert]

end Cells

/-- The line that a sequence of writes leaves: of the writes to one index the last one stays. -/
def lastWrites (writes : List Entry) : List Entry := (writes.foldl Cells.put (∅ : Cells)).toLine

/-- What the last write to an index wrote. -/
def lastWrite? (writes : List Entry) (i : Nat) : Option Binary64 := lookup writes.reverse i

theorem lookup_append (k l : List Entry) (i : Nat) : lookup (k ++ l) i = (lookup k i).or (lookup l i) := by
  induction k with
  | nil => simp
  | cons e k ih => by_cases h : e.index = i <;> simp [h, ih]

theorem getElem?_foldl_put (writes : List Entry) (m : Cells) (i : Nat) :
    (writes.foldl Cells.put m)[i]? = (lastWrite? writes i).or m[i]? := by
  induction writes generalizing m with
  | nil => simp [lastWrite?]
  | cons e l ih =>
    rw [List.foldl_cons, ih, lastWrite?, lastWrite?, List.reverse_cons, lookup_append]
    by_cases h : e.index = i <;> simp [h]

theorem ascending_lastWrites (writes : List Entry) : Ascending (lastWrites writes) := Cells.ascending_toLine _

/-- **The last write wins**, at every index. -/
@[simp] theorem lookup_lastWrites (writes : List Entry) (i : Nat) :
    lookup (lastWrites writes) i = lastWrite? writes i := by
  simp [lastWrites, getElem?_foldl_put]

end Multistage.Sparse
