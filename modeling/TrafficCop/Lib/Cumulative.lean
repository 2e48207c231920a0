import Mathlib.Algebra.GroupWithZero.Nat
import Mathlib.Data.Nat.Count

/-!
# Weighted choice by a residue

A list of weights divides the residues below its sum into intervals, one for each position and as
long as its weight. `choose ws r` is the position whose interval has `r`.
-/

namespace Cumulative

open List

/-- The position that the residue falls on. -/
def choose : List ℕ → ℕ → Option ℕ
  | [], _ => none
  | w :: ws, r => if r < w then some 0 else (choose ws (r - w)).map (· + 1)

/-- For loops that skip positions, which then have the weight 0. -/
lemma choose_zero (ws : List ℕ) (r : ℕ) : choose (0 :: ws) r = (choose ws r).map (· + 1) := by
  rw [choose, if_neg (Nat.not_lt_zero r), Nat.sub_zero]

lemma exists_choose {ws : List ℕ} {r : ℕ} (h : r < ws.sum) : ∃ i, choose ws r = some i := by
  induction ws generalizing r with
  | nil => simp at h
  | cons w ws ih =>
    rw [choose]
    split
    · exact ⟨0, rfl⟩
    · rw [sum_cons] at h
      obtain ⟨i, hi⟩ := @ih (r - w) (by omega)
      exact ⟨i + 1, by rw [hi]; rfl⟩

lemma count_congr {p q : ℕ → Prop} [DecidablePred p] [DecidablePred q] {n : ℕ}
    (h : ∀ r < n, p r ↔ q r) : Nat.count p n = Nat.count q n :=
  Nat.le_antisymm (Nat.count_mono_left fun r hr => (h r hr).mp)
    (Nat.count_mono_left fun r hr => (h r hr).mpr)

lemma choose_add (w : ℕ) (ws : List ℕ) (r : ℕ) :
    choose (w :: ws) (w + r) = (choose ws r).map (· + 1) := by
  rw [choose, if_neg (by omega), Nat.add_sub_cancel_left]

/-- **The residues that choose a position are as many as its weight.** -/
theorem count_choose (ws : List ℕ) (i : ℕ) :
    Nat.count (fun r => choose ws r = some i) ws.sum = ws.getD i 0 := by
  induction ws generalizing i with
  | nil => rfl
  | cons w ws ih =>
    rw [sum_cons, Nat.count_add]
    have hfirst : ∀ r < w, choose (w :: ws) r = some 0 := fun r hr => by rw [choose, if_pos hr]
    cases i with
    | zero =>
      have hown : Nat.count (fun r => choose (w :: ws) r = some 0) w = w :=
        Nat.count_iff_forall.mpr hfirst
      have hrest : Nat.count (fun r => choose (w :: ws) (w + r) = some 0) ws.sum = 0 := by
        refine Nat.count_iff_forall_not.mpr fun r _ => ?_
        rw [choose_add]
        simp
      rw [hown, hrest]
      rfl
    | succ i =>
      have hown : Nat.count (fun r => choose (w :: ws) r = some (i + 1)) w = 0 := by
        refine Nat.count_iff_forall_not.mpr fun r hr => ?_
        rw [hfirst r hr]
        simp
      have hrest : Nat.count (fun r => choose (w :: ws) (w + r) = some (i + 1)) ws.sum =
          Nat.count (fun r => choose ws r = some i) ws.sum := by
        refine count_congr fun r _ => ?_
        rw [choose_add]
        simp
      rw [hown, hrest, ih, Nat.zero_add, getD_cons_succ]

end Cumulative
