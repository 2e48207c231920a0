import Mathlib.Data.List.Infix

/-!
# Hysteresis

Outcomes `false` and `true` one after the other, and a switch that goes down at `m` failures in a
row and up again at `k` successes in a row.
-/

namespace Hysteresis

open List

section Streak

variable {α : Type*} [DecidableEq α] {x y : α} {l : List α}

/-- How many of the last elements in a row are `x`. -/
def streak (x : α) (l : List α) : ℕ := (l.reverse.takeWhile (· == x)).length

@[simp] lemma streak_nil (x : α) : streak x [] = 0 := rfl

@[simp] lemma streak_concat_self (x : α) (l : List α) : streak x (l ++ [x]) = streak x l + 1 := by
  simp [streak]

lemma streak_concat_of_ne (h : y ≠ x) (l : List α) : streak x (l ++ [y]) = 0 := by
  simp [streak, h]

lemma streak_append_of_ne (h : y ≠ x) (l b : List α) : streak x (l ++ [y] ++ b) = streak x b := by
  induction b using reverseRecOn with
  | nil => rw [append_nil, streak_concat_of_ne h, streak_nil]
  | append_singleton b z ih =>
    rw [← append_assoc]
    by_cases hz : z = x
    · rw [hz, streak_concat_self, streak_concat_self, ih]
    · rw [streak_concat_of_ne hz, streak_concat_of_ne hz]

lemma replicate_suffix_iff {k : ℕ} : replicate k x <:+ l ↔ k ≤ streak x l := by
  induction l using reverseRecOn generalizing k with
  | nil => simp [replicate_eq_nil_iff]
  | append_singleton l z ih =>
    cases k with
    | zero => simp
    | succ k =>
      have hlength : [x].length = [z].length := rfl
      rw [replicate_succ', suffix_append_inj_of_length_eq hlength, ih, cons.injEq]
      by_cases hz : z = x
      · rw [hz, streak_concat_self, Nat.succ_le_succ_iff]
        simp
      · rw [streak_concat_of_ne hz]
        simp [Ne.symm hz]

end Streak

section Switch

variable {m k : ℕ} {l : List Bool}

/-- The switch is down: `m` failures in a row, and not `k` successes in a row since. -/
def Down (m k : ℕ) (l : List Bool) : Prop :=
  ∃ a b, l = a ++ replicate m false ++ b ∧ ¬replicate k true <:+: b

lemma streak_after (hm : 0 < m) (a b : List Bool) :
    streak true (a ++ replicate m false ++ b) = streak true b := by
  obtain ⟨n, rfl⟩ := Nat.exists_eq_succ_of_ne_zero (Nat.ne_of_gt hm)
  rw [replicate_succ', ← append_assoc]
  exact streak_append_of_ne (by decide) _ b

lemma not_down_nil (hm : 0 < m) : ¬Down m k [] := by
  rintro ⟨a, b, heq, -⟩
  have hlength := congrArg length heq
  simp only [length_nil, length_append, length_replicate] at hlength
  omega

lemma down_concat_false (hk : 0 < k) :
    Down m k (l ++ [false]) ↔ Down m k l ∨ m ≤ streak false l + 1 := by
  have hends : ∀ {b : List Bool}, replicate k true <:+: b ++ [false] → replicate k true <:+: b := by
    intro b h
    refine (infix_concat_iff.mp h).resolve_left fun hsuffix => ?_
    rw [replicate_suffix_iff, streak_concat_of_ne (by decide)] at hsuffix
    omega
  constructor
  · rintro ⟨a, b, heq, hb⟩
    cases b using reverseRecOn with
    | nil =>
      -- the failures are at the end, with the new one
      right
      rw [append_nil] at heq
      have hsuffix : replicate m false <:+ l ++ [false] := ⟨a, heq.symm⟩
      rwa [replicate_suffix_iff, streak_concat_self] at hsuffix
    | append_singleton b z =>
      left
      rw [← append_assoc] at heq
      obtain ⟨rfl, hlast⟩ := append_inj' heq rfl
      obtain rfl := (cons.inj hlast).1
      exact ⟨a, b, rfl, fun hin => hb (hin.trans (infix_append' [] b [false]))⟩
  · rintro (⟨a, b, rfl, hb⟩ | hstreak)
    · exact ⟨a, b ++ [false], by rw [append_assoc], fun hinfix => hb (hends hinfix)⟩
    · rw [← streak_concat_self, ← replicate_suffix_iff] at hstreak
      obtain ⟨a, heq⟩ := hstreak
      refine ⟨a, [], by rw [append_nil, heq], fun hinfix => ?_⟩
      have hlength := hinfix.length_le
      simp only [length_replicate, length_nil] at hlength
      omega

lemma down_concat_true (hm : 0 < m) :
    Down m k (l ++ [true]) ↔ Down m k l ∧ streak true l + 1 < k := by
  constructor
  · rintro ⟨a, b, heq, hb⟩
    cases b using reverseRecOn with
    | nil =>
      -- the failures cannot be at the end
      have hstreak := streak_concat_self true l
      rw [heq, streak_after hm, streak_nil] at hstreak
      omega
    | append_singleton b z =>
      rw [← append_assoc] at heq
      obtain ⟨rfl, hlast⟩ := append_inj' heq rfl
      obtain rfl := (cons.inj hlast).1
      refine ⟨⟨a, b, rfl, fun hin => hb (hin.trans (infix_append' [] b [true]))⟩, ?_⟩
      rw [streak_after hm]
      by_contra hge
      refine hb (List.IsSuffix.isInfix (replicate_suffix_iff.mpr ?_))
      rw [streak_concat_self]
      omega
  · rintro ⟨⟨a, b, rfl, hb⟩, hstreak⟩
    rw [streak_after hm] at hstreak
    refine ⟨a, b ++ [true], by rw [append_assoc], fun hinfix => ?_⟩
    rcases infix_concat_iff.mp hinfix with hsuffix | hinfix
    · rw [replicate_suffix_iff, streak_concat_self] at hsuffix
      omega
    · exact hb hinfix

end Switch

end Hysteresis
