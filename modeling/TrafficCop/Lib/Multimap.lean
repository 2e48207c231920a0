import Mathlib.Data.List.Basic

/-!
# Maps with several values for a key

A multimap is the list of its lines; an operation is described by what it does to `getAll`.
-/

structure Multimap (κ α : Type*) where
  lines : List (κ × α)
  deriving Repr, DecidableEq

namespace Multimap

open List

variable {κ α : Type*} [DecidableEq κ] (m : Multimap κ α)

/-- All that can be asked of it, in order. The order between lines with different keys is not part
of that. -/
def getAll (k : κ) : List α :=
  m.lines.filterMap fun line => if line.1 = k then some line.2 else none

def get (k : κ) : Option α := (m.getAll k).head?

def containsKey (k : κ) : Bool := (m.get k).isSome

def remove (k : κ) : Multimap κ α :=
  ⟨m.lines.filter fun line => line.1 ≠ k⟩

def removeAll (ks : List κ) : Multimap κ α := ks.foldl remove m

/-- One value in the place of all the values of a key. -/
def insert (k : κ) (a : α) : Multimap κ α :=
  ⟨(m.remove k).lines ++ [(k, a)]⟩

lemma containsKey_iff {m : Multimap κ α} {k : κ} : m.containsKey k ↔ m.getAll k ≠ [] := by
  unfold containsKey get
  cases m.getAll k <;> simp

lemma getAll_remove (k k' : κ) : (m.remove k).getAll k' = if k' = k then [] else m.getAll k' := by
  unfold remove getAll
  rw [filterMap_filter]
  split
  · next heq =>
    rw [filterMap_eq_nil_iff]
    intro line hline
    by_cases hkey : line.1 = k
    · simp [hkey]
    · simp [hkey, heq]
  · next hne =>
    -- a line with the other key was kept
    refine filterMap_congr fun line hline => ?_
    by_cases hkey : line.1 = k'
    · have hkept : line.1 ≠ k := fun h => hne (hkey.symm.trans h)
      simp [hkept]
    · simp [hkey]

lemma getAll_removeAll (ks : List κ) (k : κ) :
    (m.removeAll ks).getAll k = if k ∈ ks then [] else m.getAll k := by
  unfold removeAll
  induction ks generalizing m with
  | nil => rfl
  | cons k' ks ih =>
    rw [foldl_cons, ih, getAll_remove]
    by_cases hkey : k = k'
    · simp [hkey]
    · simp [hkey]

lemma getAll_insert (k k' : κ) (a : α) :
    (m.insert k a).getAll k' = if k' = k then [a] else m.getAll k' := by
  have hsplit : (m.insert k a).getAll k' =
      (m.remove k).getAll k' ++ if k = k' then [a] else [] := by
    unfold insert getAll
    rw [filterMap_append]
    congr 1
    by_cases hkey : k = k'
    · simp [hkey]
    · simp [hkey]
  rw [hsplit, getAll_remove]
  by_cases hkey : k' = k
  · simp [hkey]
  · simp [hkey, Ne.symm hkey]

lemma getAll_insertAll (lines : List (κ × α)) (k : κ) :
    (lines.foldl (fun m line => m.insert line.1 line.2) m).getAll k =
      (((⟨lines⟩ : Multimap κ α).getAll k).getLast?.map ([·])).getD (m.getAll k) := by
  induction lines generalizing m with
  | nil => rfl
  | cons line lines ih =>
    rw [foldl_cons, ih, getAll_insert]
    unfold getAll
    rw [filterMap_cons]
    by_cases hkey : line.1 = k
    · simp only [hkey, if_true, getLast?_cons]
      cases (lines.filterMap fun line => if line.1 = k then some line.2 else none).getLast? <;> rfl
    · simp [hkey, Ne.symm hkey]

end Multimap
