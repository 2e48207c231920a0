import Mathlib.Data.List.Induction
import Mathlib.Order.Basic

/-!
# Counting in windows

How many of a list of instants lie in an interval, for the two usual ways to limit that number.

* **Fixed windows** — `Counted` is what a counter knows that is reset at the start of a window: at
  most `2 * n` in any interval of its length.
* **Sliding windows** — at most `n` in any interval (`sliding`).
-/

namespace Window

open List

/-- How many of the instants lie in `[a, b)`. -/
def countIn (times : List ℕ) (a b : ℕ) : ℕ := times.countP fun t => a ≤ t ∧ t < b

/-- How many of the instants are `a` or later. -/
def countFrom (times : List ℕ) (a : ℕ) : ℕ := times.countP fun t => a ≤ t

variable {times : List ℕ} {a b t n len : ℕ}

@[simp] lemma countIn_nil : countIn [] a b = 0 := rfl

@[simp] lemma countFrom_nil : countFrom [] a = 0 := rfl

lemma countIn_concat :
    countIn (times ++ [t]) a b = countIn times a b + if a ≤ t ∧ t < b then 1 else 0 := by
  rw [countIn, countIn, countP_append, countP_singleton]
  simp

lemma countFrom_concat :
    countFrom (times ++ [t]) a = countFrom times a + if a ≤ t then 1 else 0 := by
  rw [countFrom, countFrom, countP_append, countP_singleton]
  simp

lemma countIn_le_countFrom (times : List ℕ) (h : b ≤ a) (c : ℕ) :
    countIn times a c ≤ countFrom times b := by
  refine countP_mono_left fun t _ ht => ?_
  rw [decide_eq_true_eq] at ht ⊢
  exact Nat.le_trans h ht.1

lemma countIn_le_add (times : List ℕ) (a b c : ℕ) :
    countIn times a c ≤ countIn times a b + countFrom times b := by
  induction times using List.reverseRecOn with
  | nil => exact Nat.zero_le _
  | append_singleton times t ih =>
    rw [countIn_concat, countIn_concat, countFrom_concat]
    split_ifs <;> omega

lemma countFrom_eq_zero (h : ∀ t ∈ times, t < a) : countFrom times a = 0 := by
  refine countP_eq_zero.mpr fun t ht => ?_
  have := h t ht
  simp only [decide_eq_true_eq]
  omega

/-! ## Fixed windows -/

/-- The instants let through, when the first window began at `first` and the current one, with
`count` instants, at `start`. -/
structure Counted (n len : ℕ) (times : List ℕ) (first start count : ℕ) : Prop where
  current : countFrom times start = count
  le : count ≤ n
  /-- The current window is not over for any of them. -/
  within : ∀ t ∈ times, t < start + len
  /-- Whatever still meets the current window meets one earlier window at most. -/
  before : ∀ a, start ≤ a + len → countIn times a start ≤ n
  bound : ∀ a, countIn times a (a + len + 1) ≤ 2 * n
  first_le : first = start ∨ first + len ≤ start
  first_bound : countIn times first (first + len) ≤ n

lemma Counted.init (n len start : ℕ) : Counted n len [] start start 0 := by
  constructor <;> simp

variable {first start count : ℕ}

lemma Counted.admit (h : Counted n len times first start count)
    (hcount : count < n) (hstart : start ≤ t) (hend : t < start + len) :
    Counted n len (times ++ [t]) first start (count + 1) := by
  have hcurrent : countFrom (times ++ [t]) start = count + 1 := by
    rw [countFrom_concat, h.current, if_pos hstart]
  have hbefore : ∀ a, start ≤ a + len → countIn (times ++ [t]) a start ≤ n := by
    intro a ha
    rw [countIn_concat, if_neg (by omega)]
    exact h.before a ha
  refine ⟨hcurrent, hcount, ?within, hbefore, ?bound, h.first_le, ?first⟩
  case within =>
    intro u hu
    rcases mem_append.mp hu with hu | hu
    · exact h.within u hu
    · rw [mem_singleton.mp hu]
      exact hend
  case bound =>
    intro a
    by_cases ha : a ≤ t ∧ t < a + len + 1
    · -- the interval reaches into the current window, so it is cut at its start
      have hcut := countIn_le_add (times ++ [t]) a start (a + len + 1)
      have hleft := hbefore a (by omega)
      omega
    · rw [countIn_concat, if_neg ha]
      exact h.bound a
  case first =>
    -- the new instant is in the first window only if that is the current one
    rcases h.first_le with rfl | hfirst
    · have := countIn_le_countFrom (times ++ [t]) (Nat.le_refl first) (first + len)
      omega
    · rw [countIn_concat, if_neg (by omega)]
      exact h.first_bound

lemma Counted.next (h : Counted n len times first start count)
    (hover : start + len ≤ t) : Counted n len times first t 0 := by
  have hwithin : ∀ u ∈ times, u < t := fun u hu => Nat.lt_of_lt_of_le (h.within u hu) hover
  refine ⟨countFrom_eq_zero hwithin, Nat.zero_le n, ?within, ?before, h.bound, ?first,
    h.first_bound⟩
  case within => exact fun u hu => Nat.lt_of_lt_of_le (hwithin u hu) (Nat.le_add_right t len)
  case before =>
    intro a ha
    -- what an interval that still meets the new window can meet of the old ones is the last one
    have hle := countIn_le_countFrom times (show start ≤ a by omega) t
    have := h.current
    have := h.le
    omega
  case first =>
    rcases h.first_le with rfl | hfirst
    · exact .inr hover
    · right
      omega

lemma Counted.eq_nil (h : Counted n len times first start count) (hn : n = 0) : times = [] := by
  refine eq_nil_iff_forall_not_mem.mpr fun t ht => ?_
  have hzero : countIn times t (t + len + 1) = 0 := by
    have := h.bound t
    omega
  have hnot := countP_eq_zero.mp hzero t ht
  simp only [decide_eq_true_eq] at hnot
  omega

/-! ## Sliding windows -/

lemma sliding (h : ∀ before t, before ++ [t] <+: times →
    before.countP (fun u => t < u + len) < n) (a : ℕ) : countIn times a (a + len) ≤ n := by
  induction times using List.reverseRecOn with
  | nil => exact Nat.zero_le n
  | append_singleton times t ih =>
    have hearlier := ih fun before u hbefore =>
      h before u (hbefore.trans (prefix_append times [t]))
    rw [countIn_concat]
    split
    · -- what shares the interval with the newest one is younger than `len`
      next ht =>
      have hle : countIn times a (a + len) ≤ times.countP fun u => t < u + len := by
        refine countP_mono_left fun u _ hu => ?_
        rw [decide_eq_true_eq] at hu ⊢
        omega
      have := h times t (prefix_refl _)
      omega
    · exact hearlier

end Window
