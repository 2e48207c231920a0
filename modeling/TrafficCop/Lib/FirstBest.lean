import Mathlib.Data.List.Basic
import Mathlib.Order.CompleteLattice.Basic

/-!
# The first of the best

Loops over a list that remember an index and a key, and replace them by those of a later element
only if its key is greater. `Best` is what such a loop has remembered behind the elements that it
has seen; the three steps are those that a loop can take.
-/

namespace FirstBest

open List

variable {α κ : Type*} [LinearOrder κ] {key : α → Option κ} {seen : List α} {a : α}
  {best : Option (ℕ × κ)} {k : ℕ} {w v : κ}

/-- Nothing is remembered if no element had a key. What is remembered is a greatest key, and that of
the first element that has it. -/
def Best (key : α → Option κ) (seen : List α) : Option (ℕ × κ) → Prop
  | none => ∀ a ∈ seen, key a = none
  | some (k, w) => (∃ a, seen[k]? = some a ∧ key a = some w) ∧
      ∀ j b v, seen[j]? = some b → key b = some v → v ≤ w ∧ (j < k → v < w)

lemma best_nil : Best key ([] : List α) none := by
  simp [Best]

lemma getElem?_concat_cases {j : ℕ} {b : α} (h : (seen ++ [a])[j]? = some b) :
    seen[j]? = some b ∨ j = seen.length ∧ b = a := by
  rcases Nat.lt_trichotomy j seen.length with hlt | rfl | hgt
  · exact .inl (by rwa [getElem?_append_left hlt] at h)
  · exact .inr ⟨rfl, by simpa using h.symm⟩
  · rw [getElem?_eq_none (by simpa using Nat.succ_le_of_lt hgt)] at h
    cases h

lemma Best.lt_length (h : Best key seen (some (k, w))) : k < seen.length := by
  obtain ⟨⟨b, hb, -⟩, -⟩ := h
  exact (List.getElem?_eq_some_iff.mp hb).1

/-- The new element has a key above what is remembered. -/
lemma Best.take (h : Best key seen best) (ha : key a = some v)
    (hv : ∀ k w, best = some (k, w) → w < v) :
    Best key (seen ++ [a]) (some (seen.length, v)) := by
  refine ⟨⟨a, by simp, ha⟩, fun j b u hj hb => ?_⟩
  rcases getElem?_concat_cases hj with hold | ⟨rfl, rfl⟩
  · have hlt : u < v := by
      cases best with
      | none => simp [h b (mem_of_getElem? hold)] at hb
      | some p => exact (h.2 j b u hold hb).1.trans_lt (hv p.1 p.2 rfl)
    exact ⟨hlt.le, fun _ => hlt⟩
  · obtain rfl : v = u := Option.some.inj (ha.symm.trans hb)
    exact ⟨le_rfl, fun hlt => absurd hlt (Nat.lt_irrefl _)⟩

/-- The new element has no key, or one that is not above what is remembered. -/
lemma Best.keep (h : Best key seen best)
    (ha : ∀ v, key a = some v → ∃ k w, best = some (k, w) ∧ v ≤ w) :
    Best key (seen ++ [a]) best := by
  cases best with
  | none =>
    have hnone : key a = none := Option.eq_none_iff_forall_ne_some.mpr fun v hv => by
      simpa using ha v hv
    exact forall_mem_append.mpr ⟨h, forall_mem_singleton.mpr hnone⟩
  | some p =>
    have hlt := h.lt_length
    obtain ⟨⟨b, hb, hkey⟩, hmost⟩ := h
    refine ⟨⟨b, by rw [getElem?_append_left hlt, hb], hkey⟩, fun j c v hj hv => ?_⟩
    rcases getElem?_concat_cases hj with hold | ⟨rfl, rfl⟩
    · exact hmost j c v hold hv
    · obtain ⟨_, _, heq, hle⟩ := ha v hv
      cases heq
      exact ⟨hle, fun hgt => absurd hgt (Nat.lt_asymm hlt)⟩

lemma Best.unique {best' : Option (ℕ × κ)} (h : Best key seen best) (h' : Best key seen best') :
    best = best' := by
  -- with one element that has a key, both have remembered one
  have hsome : ∀ {p : ℕ × κ}, Best key seen (some p) → ¬Best key seen none := by
    rintro p ⟨⟨a, ha, hkey⟩, -⟩ hnone
    simp [hnone a (mem_of_getElem? ha)] at hkey
  rcases best with _ | ⟨k, w⟩ <;> rcases best' with _ | ⟨k', w'⟩
  · rfl
  · exact absurd h (hsome h')
  · exact absurd h' (hsome h)
  obtain ⟨⟨a, ha, hkey⟩, hmost⟩ := h
  obtain ⟨⟨a', ha', hkey'⟩, hmost'⟩ := h'
  obtain ⟨hle, hlt⟩ := hmost k' a' w' ha' hkey'
  obtain ⟨hle', hlt'⟩ := hmost' k a w ha hkey
  -- two different indices would each have less than the other
  rcases Nat.lt_trichotomy k k' with h | rfl | h
  · exact absurd (hlt' h) (not_lt_of_ge hle)
  · rw [le_antisymm hle hle']
  · exact absurd (hlt h) (not_lt_of_ge hle')

end FirstBest
