import Multistage.Error
import Multistage.Sparse.Line
/-!
# Sparse vectors

A dimension and a line below it.  A vector built from parts is checked once; afterwards its order and
its bounds are part of the type, and two vectors with the same dimension and the same values are equal
(`SparseVector.ext_get?`).
-/
namespace Multistage

open Sparse

structure SparseVector where
  dim : Nat
  entries : List Entry
  isLine : IsLine dim entries
deriving DecidableEq

namespace SparseVector

/-- The entries as they stand, if they are in order and in bounds. -/
def ofEntries? (dim : Nat) (entries : List Entry) : Except Fault SparseVector :=
  if ascending : Ascending entries then
    if bounded : ∀ e ∈ entries, e.index < dim then .ok ⟨dim, entries, ascending, bounded⟩
    else .error .beyondDim
  else .error .unsortedVector

def ofParts? (dim : Nat) (indices : List Nat) (values : List Binary64) : Except Fault SparseVector :=
  if indices.length = values.length then ofEntries? dim (List.zipWith Entry.mk indices values)
  else .error .unevenVector

/-- What is stored at an index; nothing is not the same as a zero. -/
def get? (v : SparseVector) (i : Nat) : Option Binary64 := lookup v.entries i

def size (v : SparseVector) : Nat := v.entries.length

theorem ofEntries?_eq_ok {dim : Nat} {l : List Entry} {v : SparseVector} :
    ofEntries? dim l = .ok v ↔ v.dim = dim ∧ v.entries = l := by
  obtain ⟨d, es, h⟩ := v
  unfold ofEntries?
  split
  · split
    · simp [eq_comm]
    · rename_i hb
      simp only [reduceCtorEq, false_iff]
      rintro ⟨rfl, rfl⟩
      exact hb h.bounded
  · rename_i ha
    simp only [reduceCtorEq, false_iff]
    rintro ⟨rfl, rfl⟩
    exact ha h.ascending

theorem ext_get? {u v : SparseVector} (dim : u.dim = v.dim) (get : ∀ i, u.get? i = v.get? i) : u = v := by
  obtain ⟨d, k, hk⟩ := u
  obtain ⟨e, l, hl⟩ := v
  cases dim
  cases hk.ascending.ext hl.ascending get
  rfl

/-- Puts the entries in place in a dense array of a default value. -/
def fill (v : SparseVector) (default : Binary64) : Array Binary64 :=
  v.entries.foldl (fun a e => a.setIfInBounds e.index e.value) (Array.replicate v.dim default)

/-- The dense array of a stated length. -/
def expand (v : SparseVector) (default : Binary64) (length : Nat) : Except Error (Array Binary64) := do
  checkLength .vectorDim length v.dim
  return v.fill default

theorem foldl_setIfInBounds_getElem? {l : List Entry} (h : Ascending l) (a : Array Binary64) (i : Nat) :
    (l.foldl (fun a e => a.setIfInBounds e.index e.value) a)[i]? =
      a[i]?.map fun x => (lookup l i).getD x := by
  induction l generalizing a with
  | nil => simp
  | cons e l ih =>
    obtain ⟨he, hl⟩ := List.pairwise_cons.1 h
    rw [List.foldl_cons, ih hl, lookup_cons, Array.getElem?_setIfInBounds]
    by_cases hi : e.index = i
    · have : lookup l i = none := lookup_eq_none_iff.2 fun x hx => by have := he x hx; omega
      subst hi
      by_cases hb : e.index < a.size <;> simp [hb, this]
    · simp [hi]

/-- **A filled array holds the stored value where there is one and the default elsewhere.** -/
theorem fill_getElem? (v : SparseVector) (default : Binary64) (i : Nat) :
    (v.fill default)[i]? = if i < v.dim then some ((v.get? i).getD default) else none := by
  rw [fill, foldl_setIfInBounds_getElem? v.isLine.ascending, Array.getElem?_replicate]
  by_cases h : i < v.dim <;> simp [h, get?]

@[simp] theorem size_fill (v : SparseVector) (default : Binary64) : (v.fill default).size = v.dim := by
  have size : ∀ (l : List Entry) (a : Array Binary64),
      (l.foldl (fun a e => a.setIfInBounds e.index e.value) a).size = a.size := by
    intro l
    induction l with
    | nil => intro a; rfl
    | cons e l ih => intro a; rw [List.foldl_cons, ih, Array.size_setIfInBounds]
  rw [fill, size, Array.size_replicate]

end SparseVector
end Multistage
