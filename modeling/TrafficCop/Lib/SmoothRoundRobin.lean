import Mathlib.Algebra.Order.BigOperators.Group.Finset
import Mathlib.Algebra.BigOperators.Ring.Finset
import Mathlib.Data.List.GetD
import Mathlib.Tactic.Ring
import Mathlib.Tactic.Linarith

/-!
# Smooth weighted round robin

A finite set `S` of candidates with weights `w`, each with a balance, at first 0. A round raises
every balance by the candidate's weight, selects a candidate of the highest balance and takes the
total weight `total w S` from it. `Rounds w S k n c` holds of every way to play `k` rounds, however
ties are broken, with `n i` the number of times that `i` was selected and `c i` its balance.
-/

namespace SmoothRoundRobin

open List

variable {ι : Type*} [DecidableEq ι]

def total (w : ι → ℕ) (S : Finset ι) : ℕ := ∑ i ∈ S, w i

/-- `k` rounds: the selections of each candidate and the balances behind them. -/
inductive Rounds (w : ι → ℕ) (S : Finset ι) : ℕ → (ι → ℕ) → (ι → ℤ) → Prop
  | start {n c} : (∀ i ∈ S, n i = 0) → (∀ i ∈ S, c i = 0) → Rounds w S 0 n c
  | select {k n c n' c'} (i : ι) : Rounds w S k n c → i ∈ S →
      (∀ j ∈ S, c j + w j ≤ c i + w i) →
      (∀ j ∈ S, n' j = n j + if j = i then 1 else 0) →
      (∀ j ∈ S, c' j = c j + w j - if j = i then (total w S : ℤ) else 0) →
      Rounds w S (k + 1) n' c'

variable {w : ι → ℕ} {S : Finset ι} {k : ℕ} {n : ι → ℕ} {c : ι → ℤ}

omit [DecidableEq ι] in
lemma exists_raised_pos (hsum : ∑ i ∈ S, c i = 0) (hpos : 0 < total w S) :
    ∃ i ∈ S, 0 < c i + w i := by
  have hraised : ∑ i ∈ S, (c i + (w i : ℤ)) = total w S := by
    rw [Finset.sum_add_distrib, hsum, total]
    push_cast
    ring
  by_contra hnone
  have hle : ∑ i ∈ S, (c i + (w i : ℤ)) ≤ 0 :=
    Finset.sum_nonpos fun i hi => not_lt.mp fun hlt => hnone ⟨i, hi, hlt⟩
  omega

namespace Rounds

variable {i : ι}

/-- The balance is what the candidate is owed minus what it got. -/
lemma balance_eq (h : Rounds w S k n c) (hi : i ∈ S) : c i = k * w i - n i * total w S := by
  induction h with
  | start hn hc => simp [hn i hi, hc i hi]
  | select j _ _ _ hn hc ih =>
    rw [hc i hi, hn i hi, ih]
    by_cases hij : i = j <;> simp [hij] <;> ring

/-- The balances add up to 0. -/
lemma sum_balance (h : Rounds w S k n c) : ∑ i ∈ S, c i = 0 := by
  induction h with
  | start _ hc => exact Finset.sum_eq_zero hc
  | @select k n c n' c' i _ hi _ _ hc ih =>
    -- every balance rises by its weight, and one falls by their sum
    calc ∑ j ∈ S, c' j
        = ∑ j ∈ S, (c j + w j - if j = i then (total w S : ℤ) else 0) :=
          Finset.sum_congr rfl hc
      _ = ∑ j ∈ S, c j + ∑ j ∈ S, (w j : ℤ) - total w S := by
          rw [Finset.sum_sub_distrib, Finset.sum_add_distrib, Finset.sum_ite_eq' S i, if_pos hi]
      _ = 0 := by rw [ih, total]; push_cast; ring

lemma raised_pos (h : Rounds w S k n c) (hpos : 0 < total w S)
    (hmax : ∀ j ∈ S, c j + w j ≤ c i + w i) : 0 < c i + w i := by
  obtain ⟨j, hj, hlt⟩ := exists_raised_pos h.sum_balance hpos
  exact hlt.trans_le (hmax j hj)

/-- No balance falls to minus the total or below. -/
lemma neg_total_lt_balance (h : Rounds w S k n c) (hpos : 0 < total w S) (hi : i ∈ S) :
    -(total w S : ℤ) < c i := by
  induction h with
  | start _ hc =>
    rw [hc i hi]
    omega
  | select j h _ hmax _ hc ih =>
    rw [hc i hi]
    by_cases hij : i = j
    · -- the selected candidate pays the total out of a positive balance
      subst hij
      have := h.raised_pos hpos hmax
      rw [if_pos rfl]
      omega
    · rw [if_neg hij]
      omega

/-- At any moment a candidate is less than one selection ahead of its share. -/
lemma count_lt (h : Rounds w S k n c) (hpos : 0 < total w S) (hi : i ∈ S) :
    n i * total w S < k * w i + total w S := by
  have hlow := h.neg_total_lt_balance hpos hi
  rw [h.balance_eq hi] at hlow
  zify
  linarith

lemma balance_eq_zero (h : Rounds w S k n c) (hpos : 0 < total w S) (hk : total w S ∣ k)
    (hi : i ∈ S) : c i = 0 := by
  -- a multiple of the total above minus the total is not negative
  have hnonneg : ∀ j ∈ S, 0 ≤ c j := by
    intro j hj
    have hdvd : (total w S : ℤ) ∣ c j := by
      rw [h.balance_eq hj]
      exact dvd_sub (Dvd.dvd.mul_right (Int.natCast_dvd_natCast.mpr hk) _) (dvd_mul_left _ _)
    obtain ⟨q, hq⟩ := hdvd
    have hlow := h.neg_total_lt_balance hpos hj
    have hq1 : -1 < q := by
      by_contra hle
      have : (total w S : ℤ) * q ≤ total w S * -1 :=
        mul_le_mul_of_nonneg_left (by omega) (by omega)
      omega
    rw [hq]
    exact mul_nonneg (by omega) (by omega)
  exact (Finset.sum_eq_zero_iff_of_nonneg hnonneg).mp h.sum_balance i hi

/-- After whole cycles every candidate has its exact share. -/
lemma count_eq (h : Rounds w S k n c) (hpos : 0 < total w S) (hk : total w S ∣ k)
    (hi : i ∈ S) : n i = k * w i / total w S := by
  have hzero := h.balance_eq hi
  rw [h.balance_eq_zero hpos hk hi] at hzero
  have hmul : k * w i = n i * total w S := by
    zify
    linarith
  rw [hmul, Nat.mul_div_cancel _ hpos]

lemma balance_le (h : Rounds w S k n c) (hpos : 0 < total w S) (hi : i ∈ S) :
    c i ≤ S.card * total w S := by
  have hothers : -((S.erase i).card * total w S : ℤ) ≤ ∑ j ∈ S.erase i, c j := by
    rw [← mul_neg, ← nsmul_eq_mul]
    exact Finset.card_nsmul_le_sum _ _ _ fun j hj =>
      (h.neg_total_lt_balance hpos (Finset.mem_of_mem_erase hj)).le
  have hsum := h.sum_balance
  rw [← Finset.add_sum_erase S c hi] at hsum
  have hcard : ((S.erase i).card : ℤ) * total w S ≤ S.card * total w S :=
    mul_le_mul_of_nonneg_right (by exact_mod_cast Finset.card_erase_le) (by omega)
  linarith

end Rounds

/-! ## Schedulers -/

/-- How often `i` is selected in the first `k` steps from `s`. -/
def count {σ : Type*} (next : σ → σ) (pick : σ → Option ι) (s : σ) (k : ℕ) (i : ι) : ℕ :=
  ((List.range k).map fun j => pick (next^[j] s)).count (some i)

lemma count_succ {σ : Type*} (next : σ → σ) (pick : σ → Option ι) (s : σ) (k : ℕ) (i j : ι)
    (hpick : pick (next^[k] s) = some j) :
    count next pick s (k + 1) i = count next pick s k i + if i = j then 1 else 0 := by
  rw [count, range_succ, map_append, count_append, map_singleton, hpick, count_singleton]
  by_cases hij : i = j
  · simp [count, hij]
  · simp [count, hij, Ne.symm hij]

/-- A scheduler whose every step is a round plays rounds; `I` is what its states keep. -/
lemma Rounds.of_iterate {σ : Type*} {next : σ → σ} {pick : σ → Option ι} {balance : σ → ι → ℤ}
    {I : σ → Prop} {s : σ} (hI : I s) (hstart : ∀ i ∈ S, balance s i = 0)
    (hstep : ∀ s, I s → ∑ i ∈ S, balance s i = 0 → I (next s) ∧ ∃ i ∈ S, pick s = some i ∧
      (∀ j ∈ S, balance s j + w j ≤ balance s i + w i) ∧
      ∀ j ∈ S, balance (next s) j = balance s j + w j - if j = i then (total w S : ℤ) else 0)
    (k : ℕ) : Rounds w S k (count next pick s k) (balance (next^[k] s)) := by
  suffices h : I (next^[k] s) ∧ Rounds w S k (count next pick s k) (balance (next^[k] s)) from h.2
  induction k with
  | zero => exact ⟨hI, .start (fun i _ => rfl) hstart⟩
  | succ k ih =>
    obtain ⟨hinv, hrounds⟩ := ih
    obtain ⟨hinv', i, hi, hpick, hmax, hnext⟩ := hstep _ hinv hrounds.sum_balance
    rw [Function.iterate_succ_apply']
    exact ⟨hinv', hrounds.select i hi hmax (fun j _ => count_succ next pick s k j i hpick) hnext⟩

/-! ## Numbered candidates -/

def listTotal (weights : List ℕ) : ℕ := weights.foldl (· + ·) 0

lemma foldl_intCast {α : Type*} (f : α → ℕ) (l : List α) :
    l.foldl (fun t a => t + (f a : ℤ)) 0 = listTotal (l.map f) := by
  have hfold : ∀ t : ℕ, l.foldl (fun t a => t + (f a : ℤ)) (t : ℤ) =
      ((l.map f).foldl (· + ·) t : ℕ) := by
    induction l with
    | nil => simp
    | cons a l ih =>
      intro t
      rw [foldl_cons, ← Int.natCast_add, ih]
      rfl
  exact hfold 0

lemma listTotal_eq (weights : List ℕ) :
    listTotal weights = total (fun i => weights.getD i 0) (Finset.range weights.length) := by
  have hfold : ∀ (weights : List ℕ) (t : ℕ), weights.foldl (· + ·) t =
      t + ∑ i ∈ Finset.range weights.length, weights.getD i 0 := by
    intro weights
    induction weights with
    | nil => simp
    | cons weight weights ih =>
      intro t
      rw [foldl_cons, ih, length_cons, Finset.sum_range_succ']
      simp only [getD_cons_succ, getD_cons_zero]
      ring
  rw [listTotal, hfold, Nat.zero_add]
  rfl

/-- `selections k i` and `balance k i` belong to candidate `i` after `k` rounds: none runs ahead of
its share, one without weight is never selected, whole cycles are exact and leave no balance, and
the balances stay in a range. -/
def ExactShares (weights : List ℕ) (selections : ℕ → ℕ → ℕ) (balance : ℕ → ℕ → ℤ) : Prop :=
  ∀ k i (hi : i < weights.length),
    selections k i * listTotal weights < k * weights[i] + listTotal weights ∧
    (weights[i] = 0 → selections k i = 0) ∧
    (listTotal weights ∣ k →
      selections k i = k * weights[i] / listTotal weights ∧ balance k i = 0) ∧
    -(listTotal weights : ℤ) < balance k i ∧ balance k i ≤ weights.length * listTotal weights

/-- **A scheduler whose every step is a round hands out exact shares.** -/
theorem exactShares_of_step {σ : Type*} {next : σ → σ} {pick : σ → Option ℕ}
    {balance : σ → ℕ → ℤ} {I : σ → Prop} {s : σ} {weights : List ℕ} (hpos : 0 < listTotal weights)
    (hI : I s) (hstart : ∀ i < weights.length, balance s i = 0)
    (hstep : ∀ s, I s → (∑ i ∈ Finset.range weights.length, balance s i = 0) →
      I (next s) ∧ ∃ i < weights.length, pick s = some i ∧
      (∀ j < weights.length, balance s j + weights.getD j 0 ≤ balance s i + weights.getD i 0) ∧
      ∀ j < weights.length, balance (next s) j =
        balance s j + weights.getD j 0 - if j = i then (listTotal weights : ℤ) else 0) :
    ExactShares weights (count next pick s) fun k => balance (next^[k] s) := by
  rw [listTotal_eq] at hpos
  intro k i hi
  have hmem := Finset.mem_range.mpr hi
  have hrounds : Rounds (fun i => weights.getD i 0) (Finset.range weights.length) k
      (count next pick s k) (balance (next^[k] s)) :=
    .of_iterate hI (fun i hi => hstart i (Finset.mem_range.mp hi))
      (by simpa only [Finset.mem_range, ← listTotal_eq] using hstep) k
  have hcount := hrounds.count_lt hpos hmem
  rw [getD_eq_getElem _ _ hi] at hcount
  rw [listTotal_eq]
  have hrange := hrounds.balance_le hpos hmem
  rw [Finset.card_range] at hrange
  refine ⟨hcount, ?_, ?_, hrounds.neg_total_lt_balance hpos hmem, hrange⟩
  · -- less than one selection, as the share is 0
    intro hzero
    rw [hzero, Nat.mul_zero, Nat.zero_add] at hcount
    exact Nat.lt_one_iff.mp (Nat.lt_of_mul_lt_mul_right (by simpa using hcount))
  · intro hk
    have hexact := hrounds.count_eq hpos hk hmem
    rw [getD_eq_getElem _ _ hi] at hexact
    exact ⟨hexact, hrounds.balance_eq_zero hpos hk hmem⟩

end SmoothRoundRobin
