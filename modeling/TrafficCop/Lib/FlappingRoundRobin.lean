import TrafficCop.Lib.SmoothRoundRobin

/-!
# Smooth weighted round robin with candidates that come and go

The game of `SmoothRoundRobin`, with a set `H ⊆ S` of present candidates that may change in every
round. Only they are raised and can be selected. The balances of the absent ones are frozen, so
those of the present ones need not add up to 0, and the argument for a fixed set does not carry
over.

What every round keeps is a bound for the sum over *each* set of candidates: `k` of the `n`
candidates have together at most `k * (n - k) * m`, where `m` bounds the weights (`Spread`).
-/

namespace SmoothRoundRobin

open Finset

variable {ι : Type*} [DecidableEq ι] {w : ι → ℕ} {S H A : Finset ι} {m : ℕ} {c c' : ι → ℤ} {i : ι}

/-- A round among the candidates `H` that selects `i`. -/
structure Turn (w : ι → ℕ) (S H : Finset ι) (i : ι) (c c' : ι → ℤ) : Prop where
  mem : i ∈ H
  max : ∀ j ∈ H, c j + w j ≤ c i + w i
  next : ∀ j ∈ S, c' j = c j + (if j ∈ H then (w j : ℤ) else 0) -
    if j = i then (total w H : ℤ) else 0

/-- Balances that add up to 0, with a bound for every set of candidates. -/
structure Spread (S : Finset ι) (m : ℕ) (c : ι → ℤ) : Prop where
  sum_eq : ∑ i ∈ S, c i = 0
  sum_le : ∀ A ⊆ S, ∑ i ∈ A, c i ≤ A.card * (S.card - A.card) * m

omit [DecidableEq ι] in
lemma spread_zero (hzero : ∀ i ∈ S, c i = 0) : Spread S m c where
  sum_eq := sum_eq_zero hzero
  sum_le := by
    intro A hA
    rw [sum_eq_zero fun i hi => hzero i (hA hi)]
    have hcard : (A.card : ℤ) ≤ S.card := by exact_mod_cast card_le_card hA
    exact mul_nonneg (mul_nonneg (by omega) (by omega)) (by omega)

lemma Turn.sum_next (h : Turn w S H i c c') (hA : A ⊆ S) :
    ∑ j ∈ A, c' j = ∑ j ∈ A, c j + ∑ j ∈ A ∩ H, (w j : ℤ) -
      if i ∈ A then (total w H : ℤ) else 0 := by
  rw [sum_congr rfl fun j hj => h.next j (hA hj), sum_sub_distrib,
    sum_add_distrib, sum_ite_mem, sum_ite_eq' A i]

/-- The raised balances of present candidates, against that of the selected one. -/
lemma Turn.sum_raised_le (h : Turn w S H i c c') (hA : A ⊆ H) :
    ∑ j ∈ A, c j + ∑ j ∈ A, (w j : ℤ) ≤ A.card * (c i + w i) := by
  rw [← sum_add_distrib, ← nsmul_eq_mul]
  exact sum_le_card_nsmul _ _ _ fun j hj => h.max j (hA hj)

omit [DecidableEq ι] in
lemma sum_weight_le (hw : ∀ j ∈ A, w j ≤ m) : ∑ j ∈ A, (w j : ℤ) ≤ A.card * m := by
  rw [← nsmul_eq_mul]
  exact sum_le_card_nsmul _ _ _ fun j hj => by exact_mod_cast hw j hj

/-- A set with the selected candidate does not gain. -/
lemma Turn.sum_next_le_of_mem (h : Turn w S H i c c') (hA : A ⊆ S) (hi : i ∈ A) :
    ∑ j ∈ A, c' j ≤ ∑ j ∈ A, c j := by
  have hle : ∑ j ∈ A ∩ H, (w j : ℤ) ≤ total w H := by
    rw [total]
    push_cast
    exact sum_le_sum_of_subset_of_nonneg inter_subset_right fun _ _ _ => by omega
  rw [h.sum_next hA, if_pos hi]
  omega

/-- A set without the selected candidate gains the weights of its present members, whose raised
balances are no higher than the selected one's. -/
lemma Spread.sum_next_le_of_notMem (hs : Spread S m c) (h : Turn w S H i c c') (hH : H ⊆ S)
    (hw : ∀ j ∈ S, w j ≤ m) (hA : A ⊆ S) (hi : i ∉ A) :
    ∑ j ∈ A, c' j ≤ A.card * (S.card - A.card) * m := by
  rw [h.sum_next hA, if_neg hi, sub_zero]
  have habsent := hs.sum_le (A \ H) (sdiff_subset.trans hA)
  have hadded := hs.sum_le (insert i A) (insert_subset (hH h.mem) hA)
  have hpresent := h.sum_raised_le (A := A ∩ H) inter_subset_right
  have hweights : ∑ j ∈ A ∩ H, (w j : ℤ) ≤ (A ∩ H).card * m :=
    sum_weight_le fun j hj => hw j (hA (mem_of_mem_inter_left hj))
  have hwi : (w i : ℤ) ≤ m := by exact_mod_cast hw i (hH h.mem)
  have hsplit : ∑ j ∈ A ∩ H, c j + ∑ j ∈ A \ H, c j = ∑ j ∈ A, c j :=
    sum_inter_add_sum_sdiff A H c
  have hcards : ((A ∩ H).card : ℤ) + (A \ H).card = A.card := by
    exact_mod_cast card_inter_add_card_sdiff A H
  rw [sum_insert hi, card_insert_of_notMem hi] at hadded
  push_cast at hadded
  rw [← hsplit] at hadded ⊢
  rw [← hcards] at hadded ⊢
  -- the three bounds, weighted so that the balances themselves cancel
  generalize (A ∩ H).card = p at *
  generalize (A \ H).card = q at *
  generalize ∑ j ∈ A ∩ H, c j = x at *
  generalize ∑ j ∈ A \ H, c j = y at *
  generalize ∑ j ∈ A ∩ H, (w j : ℤ) = g at *
  have hp : (0 : ℤ) ≤ p := by omega
  have hmul := mul_le_mul_of_nonneg_left hadded hp
  have hgain := mul_le_mul_of_nonneg_left (add_le_add hweights hwi) hp
  have hscaled : (p + 1) * (x + y + g) ≤ (p + 1) * ((p + q) * (S.card - (p + q)) * m) := by
    linarith
  exact le_of_mul_le_mul_left hscaled (by omega)

lemma Spread.turn (hs : Spread S m c) (h : Turn w S H i c c') (hH : H ⊆ S)
    (hw : ∀ j ∈ S, w j ≤ m) : Spread S m c' where
  sum_eq := by
    rw [h.sum_next subset_rfl, if_pos (hH h.mem), hs.sum_eq, inter_eq_right.mpr hH, total]
    push_cast
    ring
  sum_le := by
    intro A hA
    by_cases hi : i ∈ A
    · exact (h.sum_next_le_of_mem hA hi).trans (hs.sum_le A hA)
    · exact hs.sum_next_le_of_notMem h hH hw hA hi

lemma Spread.abs_balance_le (hs : Spread S m c) (hi : i ∈ S) : |c i| ≤ (S.card - 1) * m := by
  have halone := hs.sum_le {i} (singleton_subset_iff.mpr hi)
  have hothers := hs.sum_le (S.erase i) (erase_subset i S)
  have hsum := hs.sum_eq
  rw [← add_sum_erase S c hi] at hsum
  rw [sum_singleton, card_singleton] at halone
  rw [← card_erase_add_one hi] at halone hothers ⊢
  push_cast at halone hothers ⊢
  rw [abs_le]
  constructor <;> linarith

/-- `k` rounds among the candidates `H` from `c` to `c'`, with `n i` the selections of `i`. -/
inductive Turns (w : ι → ℕ) (S H : Finset ι) (c : ι → ℤ) : ℕ → (ι → ℕ) → (ι → ℤ) → Prop
  | start : Turns w S H c 0 (fun _ => 0) c
  | select {k n n' c' c''} (i : ι) : Turns w S H c k n c' → Turn w S H i c' c'' →
      (∀ j, n' j = n j + if j = i then 1 else 0) → Turns w S H c (k + 1) n' c''

variable {k : ℕ} {n : ι → ℕ}

/-- A balance moves by what the candidate is owed minus what it got. -/
lemma Turns.balance_eq (h : Turns w S H c k n c') (hH : H ⊆ S) (hi : i ∈ H) :
    c' i = c i + k * w i - n i * total w H := by
  induction h with
  | start => simp
  | select j _ hturn hn ih =>
    rw [hturn.next i (hH hi), if_pos hi, hn i, ih]
    by_cases hij : i = j <;> simp [hij] <;> ring

lemma Turns.spread (h : Turns w S H c k n c') (hs : Spread S m c) (hH : H ⊆ S)
    (hw : ∀ j ∈ S, w j ≤ m) : Spread S m c' := by
  induction h with
  | start => exact hs
  | select j _ hturn _ ih => exact ih.turn hturn hH hw

/-- **Fair from any balances within the bounds**: a candidate is off its share by no more than two
balances can differ. -/
theorem Turns.abs_count_le (h : Turns w S H c k n c') (hs : Spread S m c) (hH : H ⊆ S)
    (hw : ∀ j ∈ S, w j ≤ m) (hi : i ∈ H) :
    |(n i : ℤ) * total w H - k * w i| ≤ 2 * ((S.card - 1) * m) := by
  have hbefore := abs_le.mp (hs.abs_balance_le (hH hi))
  have hafter := abs_le.mp ((h.spread hs hH hw).abs_balance_le (hH hi))
  have hmoved := h.balance_eq hH hi
  rw [abs_le]
  constructor <;> linarith

end SmoothRoundRobin
