import Mathlib.Data.List.Basic

/-!
# A quota shared by two kinds of requests

Requests take from a quota of `limit` one after the other; those that come when it is used up are
refused.
-/

namespace Quota

open List

/-- The answers to the requests of the first kind, the `true` ones, when `n` requests have come
before. -/
def answers (limit : ℕ) : ℕ → List Bool → List Bool
  | _, [] => []
  | n, true :: xs => decide (n < limit) :: answers limit (n + 1) xs
  | n, false :: xs => answers limit (n + 1) xs

/-- No request of the second kind comes before one of the first. -/
def OthersLast (xs : List Bool) : Prop := xs.Pairwise fun x y => y = true → x = true

/-- One more request. -/
lemma answers_concat (limit n : ℕ) (xs : List Bool) (x : Bool) :
    answers limit n (xs ++ [x]) =
      answers limit n xs ++ if x then [decide (n + xs.length < limit)] else [] := by
  induction xs generalizing n with
  | nil => cases x <;> rfl
  | cons y xs ih =>
    have hlength : n + (y :: xs).length = n + 1 + xs.length := by
      rw [length_cons]
      omega
    rw [hlength]
    cases y with
    | true => exact congrArg (decide (n < limit) :: ·) (ih (n + 1))
    | false => exact ih (n + 1)

/-- One answer for each of the first kind. -/
lemma length_answers (limit n : ℕ) (xs : List Bool) :
    (answers limit n xs).length = xs.count true := by
  induction xs generalizing n with
  | nil => rfl
  | cons x xs ih => cases x <;> simp [answers, ih]

variable {limit n : ℕ} {xs : List Bool}

lemma forall_answers_of_othersLast (h : OthersLast xs)
    (hcount : n + xs.count true ≤ limit) : ∀ a ∈ answers limit n xs, a := by
  induction xs generalizing n with
  | nil => simp [answers]
  | cons x xs ih =>
    obtain ⟨hfirst, hrest⟩ := pairwise_cons.mp h
    cases x with
    | true =>
      rw [count_cons_self] at hcount
      refine forall_mem_cons.mpr ⟨decide_eq_true (by omega), ih hrest (by omega)⟩
    | false =>
      -- no request of the first kind is left
      have hnone : xs.count true = 0 :=
        count_eq_zero.mpr fun hmem => absurd (hfirst true hmem rfl) (by decide)
      have hempty : answers limit (n + 1) xs = [] :=
        eq_nil_of_length_eq_zero ((length_answers _ _ _).trans hnone)
      rw [answers, hempty]
      simp

lemma add_count_le (h : ∀ a ∈ answers limit n xs, a)
    (hsome : true ∈ xs) : n + xs.count true ≤ limit := by
  induction xs generalizing n with
  | nil => simp at hsome
  | cons x xs ih =>
    cases x with
    | true =>
      obtain ⟨hfirst, hrest⟩ := forall_mem_cons.mp h
      rw [count_cons_self]
      by_cases hmore : true ∈ xs
      · have := ih hrest hmore
        omega
      · rw [count_eq_zero.mpr hmore]
        have := of_decide_eq_true hfirst
        omega
    | false =>
      have := ih h (by simpa using hsome)
      rw [count_cons_of_ne (by decide)]
      omega

lemma othersLast_of_forall_answers
    (h : ∀ a ∈ answers limit n xs, a) (hcount : limit ≤ n + xs.count true) :
    OthersLast xs := by
  induction xs generalizing n with
  | nil => exact List.Pairwise.nil
  | cons x xs ih =>
    cases x with
    | true =>
      rw [count_cons_self] at hcount
      exact pairwise_cons.mpr ⟨fun _ _ _ => rfl, ih (forall_mem_cons.mp h).2 (by omega)⟩
    | false =>
      rw [count_cons_of_ne (by decide)] at hcount
      -- one more of the first kind would be over the quota
      have hnone : true ∉ xs := fun hmem => by
        have hle := add_count_le (n := n + 1) h hmem
        omega
      have hall : ∀ y ∈ xs, y = false := fun y hy => by
        cases y with
        | false => rfl
        | true => exact absurd hy hnone
      refine pairwise_cons.mpr ⟨fun y hy htrue => ?_, ?_⟩
      · rw [hall y hy] at htrue
        cases htrue
      · exact pairwise_of_forall_mem_list fun _ _ y hy htrue =>
          absurd (htrue ▸ hy) hnone

/-- **All of the first kind are granted exactly if the others come last.** -/
lemma forall_answers_iff (hcount : xs.count true = limit) :
    (∀ a ∈ answers limit 0 xs, a) ↔ OthersLast xs :=
  ⟨fun h => othersLast_of_forall_answers h (by omega),
    fun h => forall_answers_of_othersLast h (by omega)⟩

end Quota
