import Mathlib.Data.Nat.Periodic

/-!
# Scans around a cycle

The places of a cycle of length `n` are the natural numbers up to multiples of `n`, and what holds
of a place is a predicate with period `n`.
-/

namespace Cycle

open List Option

/-- Flags for the places of a cycle, seen from all numbers. -/
def around (flags : List Bool) (k : ℕ) : Bool := flags[k % flags.length]?.getD false

/-- The first number from `c` on with the predicate, within a cycle. -/
def seek (p : ℕ → Bool) (n c : ℕ) : ℕ := c + (range n).findIdx fun d => p (c + d)

/-- How many places directly before `i` lack the predicate. -/
def gap (p : ℕ → Bool) (n i : ℕ) : ℕ := (range n).findIdx fun d => p (i + n - 1 - d)

/-- What `k` scans find, each from behind the one before. -/
def visits (p : ℕ → Bool) (n : ℕ) : ℕ → ℕ → List ℕ
  | 0, _ => []
  | k + 1, c => seek p n c :: visits p n k (seek p n c + 1)

variable {flags : List Bool} {q : ℕ → Bool}

lemma getElem?_mod {n : ℕ} (hn : flags.length = n) (k : ℕ) :
    flags[k % n]?.getD false = around flags k := by
  rw [around, hn]

lemma periodic_around {n : ℕ} (hn : flags.length = n) : Function.Periodic (around flags) n := by
  intro k
  rw [around, hn, Nat.add_mod_right, getElem?_mod hn]

lemma around_of_getElem? {n : ℕ} (hn : flags.length = n) {k : ℕ}
    (hk : flags[k]?.getD false) : k < n ∧ around flags k := by
  have hlt : k < n := by
    by_contra hge
    rw [getElem?_eq_none (by omega)] at hk
    cases hk
  exact ⟨hlt, by rw [← getElem?_mod hn, Nat.mod_eq_of_lt hlt, hk]⟩

lemma around_of_lt {k : ℕ} (hk : k < flags.length) : around flags k = flags[k] := by
  rw [around, Nat.mod_eq_of_lt hk, getElem?_eq_getElem hk, getD_some]

lemma countP_around (flags : List Bool) :
    (range flags.length).countP (around flags) = flags.count true := by
  have hmap : (range flags.length).map (around flags) = flags := by
    apply ext_getElem (by simp)
    intro k hk _
    rw [getElem_map, getElem_range, around_of_lt (by simpa using hk)]
  conv_rhs => rw [← hmap]
  rw [count, countP_map]
  exact countP_congr fun k _ => by simp

lemma exists_add_mod_eq (start : ℕ) {idx len : ℕ} (hidx : idx < len) :
    ∃ i < len, (start + i) % len = idx := by
  have hlt := Nat.mod_lt start (Nat.zero_lt_of_lt hidx)
  have hdiv := Nat.div_add_mod start len
  by_cases hle : start % len ≤ idx
  · refine ⟨idx - start % len, by omega, ?_⟩
    rw [show start + (idx - start % len) = idx + len * (start / len) by omega,
      Nat.add_mul_mod_self_left, Nat.mod_eq_of_lt hidx]
  · -- the place is behind the start, so it is met on the next turn
    refine ⟨idx + len - start % len, by omega, ?_⟩
    rw [show start + (idx + len - start % len) = idx + len * (start / len + 1) by
        rw [Nat.mul_add]; omega,
      Nat.add_mul_mod_self_left, Nat.mod_eq_of_lt hidx]

lemma countP_range' {n : ℕ} (hq : Function.Periodic q n) (c : ℕ) :
    (range' c n).countP q = (range n).countP q := by
  have hperiodic : Function.Periodic (fun k => q k = true) n := fun k => by simp only [hq k]
  have hcard := Nat.filter_multiset_Ico_card_eq_of_periodic c n (fun k => q k = true) hperiodic
  have hcard' := Nat.filter_multiset_Ico_card_eq_of_periodic 0 n (fun k => q k = true) hperiodic
  rw [← hcard'] at hcard
  simpa [Multiset.Ico, Nat.Ico_eq_range', range_eq_range', countP_eq_length_filter]
    using hcard

lemma countP_mod {n i : ℕ} (hi : i < n) (c : ℕ) :
    (range' c n).countP (fun x => x % n == i) = 1 := by
  have hperiodic : Function.Periodic (fun x => x % n == i) n := fun x => by
    simp only [Nat.add_mod_right]
  have hcount : (range n).countP (fun x => x % n == i) = (range n).count i := by
    refine countP_congr fun x hx => ?_
    rw [Nat.mod_eq_of_lt (mem_range.mp hx)]
  rw [countP_range' hperiodic, hcount]
  exact count_eq_one_of_mem nodup_range (mem_range.mpr hi)

lemma findIdx_range {n : ℕ} (hex : ∃ d < n, q d = true) :
    (range n).findIdx q < n ∧ q ((range n).findIdx q) = true ∧
      ∀ d < (range n).findIdx q, q d = false := by
  have hlt : (range n).findIdx q < (range n).length := by
    obtain ⟨d, hd, hq⟩ := hex
    exact findIdx_lt_length_of_exists ⟨d, mem_range.mpr hd, hq⟩
  refine ⟨by rwa [length_range] at hlt, ?_, ?_⟩
  · have hat := findIdx_getElem (w := hlt)
    rwa [getElem_range] at hat
  · intro d hd
    have hat := not_of_lt_findIdx hd
    rwa [getElem_range] at hat

section Seek

variable {p : ℕ → Bool} {n : ℕ} (hp : Function.Periodic p n) (hn : 0 < n)
  (hex : ∃ k, p k = true)

include hp in
lemma seek_add (c : ℕ) : seek p n (c + n) = seek p n c + n := by
  have hsame : (fun d => p (c + n + d)) = fun d => p (c + d) := by
    funext d
    rw [Nat.add_right_comm, hp]
  rw [seek, seek, hsame, Nat.add_right_comm]

include hp hn hex

/-- From a number on, a scan goes to the first one that has the predicate. -/
lemma seek_spec (c : ℕ) : c ≤ seek p n c ∧ seek p n c < c + n ∧ p (seek p n c) ∧
    ∀ k, c ≤ k → k < seek p n c → p k = false := by
  obtain ⟨k, hk⟩ := hex
  obtain ⟨d, hd, hmod⟩ := exists_add_mod_eq c (Nat.mod_lt k hn)
  have hfound : p (c + d) := by rw [← hp.map_mod_nat, hmod, hp.map_mod_nat, hk]
  obtain ⟨hlt, hat, hbefore⟩ := findIdx_range (q := fun d => p (c + d)) ⟨d, hd, hfound⟩
  rw [seek]
  refine ⟨by omega, by omega, hat, ?_⟩
  intro j hc hj
  have hj' := hbefore (j - c) (by omega)
  rwa [show c + (j - c) = j by omega] at hj'

lemma seek_eq {c m : ℕ} (hc : c ≤ m) (hm : p m)
    (hbefore : ∀ k, c ≤ k → k < m → p k = false) : seek p n c = m := by
  obtain ⟨hle, -, hfound, hnone⟩ := seek_spec hp hn hex c
  by_contra hne
  rcases Nat.lt_or_gt_of_ne hne with hlt | hgt
  · rw [hbefore _ hle hlt] at hfound
    cases hfound
  · rw [hnone m hc hgt] at hm
    cases hm

lemma seek_self {c : ℕ} (hc : p c) : seek p n c = c :=
  seek_eq hp hn hex (Nat.le_refl c) hc fun k hk hk' => by omega

lemma seek_succ {c : ℕ} (hc : p c = false) : seek p n (c + 1) = seek p n c := by
  obtain ⟨hle, -, hfound, hnone⟩ := seek_spec hp hn hex c
  have hne : c ≠ seek p n c := by
    intro heq
    rw [← heq, hc] at hfound
    cases hfound
  exact seek_eq hp hn hex (by omega) hfound fun k hk hk' => hnone k (by omega) hk'

omit hp hex in
lemma gap_spec {i : ℕ} (hi : p i) :
    gap p n i < n ∧ p (i + n - 1 - gap p n i) ∧ ∀ d < gap p n i, p (i + n - 1 - d) = false := by
  apply findIdx_range
  refine ⟨n - 1, by omega, ?_⟩
  rw [show i + n - 1 - (n - 1) = i by omega, hi]

/-- From one place behind `i` up to a cycle behind it, the scans from `i` and from its gap come back
to `i`. -/
lemma seek_mod_eq_iff {i x : ℕ} (hi : p i) (hlo : i + 1 ≤ x) (hhi : x < i + 1 + n) :
    seek p n x % n = i % n ↔ i + n - gap p n i ≤ x := by
  obtain ⟨hgap, hend, hnone⟩ := gap_spec hn hi
  have hround : p (i + n) := by rw [hp, hi]
  obtain ⟨hle, -, hfound, hbefore⟩ := seek_spec hp hn hex x
  constructor
  · intro hmod
    by_contra hlt
    -- the place that ends the gap is on the way, and it is not `i`
    have hstop : seek p n x ≤ i + n - 1 - gap p n i := by
      by_contra hgt
      rw [hbefore _ (by omega) (by omega)] at hend
      cases hend
    have hoff : (seek p n x - i) % n = 0 :=
      ((Nat.modEq_iff_dvd' (by omega)).mp hmod.symm).modEq_zero_nat
    rw [Nat.mod_eq_of_lt (by omega)] at hoff
    omega
  · intro hge
    have hback : seek p n x = i + n := by
      refine seek_eq hp hn hex (by omega) hround fun k hk hk' => ?_
      have hskip := hnone (i + n - 1 - k) (by omega)
      rwa [show i + n - 1 - (i + n - 1 - k) = k by omega] at hskip
    rw [hback, Nat.add_mod_right]

/-- Over the starts of a whole cycle, a place is found from itself and from each place of its gap.
-/
lemma countP_seek {i : ℕ} (hi : p i) (c : ℕ) :
    (range' c n).countP (fun x => seek p n x % n == i % n) = 1 + gap p n i := by
  have hperiodic : Function.Periodic (fun x => seek p n x % n == i % n) n := fun x => by
    simp only [seek_add hp, Nat.add_mod_right]
  have hgap := (gap_spec hn hi).1
  have hsplit : range' (i + 1) n =
      range' (i + 1) (n - 1 - gap p n i) ++ range' (i + n - gap p n i) (1 + gap p n i) := by
    have happ := @List.range'_append_1 (i + 1) (n - 1 - gap p n i) (1 + gap p n i)
    rw [show i + 1 + (n - 1 - gap p n i) = i + n - gap p n i by omega,
      show n - 1 - gap p n i + (1 + gap p n i) = n by omega] at happ
    exact happ.symm
  rw [countP_range' hperiodic, ← countP_range' hperiodic (i + 1), hsplit, countP_append]
  have hfirst : (range' (i + 1) (n - 1 - gap p n i)).countP
      (fun x => seek p n x % n == i % n) = 0 := by
    refine countP_eq_zero.mpr fun x hx => ?_
    obtain ⟨hlo, hhi⟩ := mem_range'_1.mp hx
    rw [beq_iff_eq, seek_mod_eq_iff hp hn hex hi hlo (by omega)]
    omega
  have hrest : (range' (i + n - gap p n i) (1 + gap p n i)).countP
      (fun x => seek p n x % n == i % n) = 1 + gap p n i := by
    refine (countP_eq_length.mpr fun x hx => ?_).trans length_range'
    obtain ⟨hlo, hhi⟩ := mem_range'_1.mp hx
    rw [beq_iff_eq, seek_mod_eq_iff hp hn hex hi (by omega) (by omega)]
    exact hlo
  rw [hfirst, hrest, Nat.zero_add]

/-- Scans that go on behind what they found come to everything on their way. -/
lemma visits_eq (m c : ℕ) : visits p n ((range' c m).countP p) c = (range' c m).filter p := by
  induction m generalizing c with
  | zero => rfl
  | succ m ih =>
    rw [range'_succ, countP_cons, filter_cons]
    cases hc : p c with
    | true => rw [if_pos rfl, if_pos rfl, visits, seek_self hp hn hex hc, ih]
    | false =>
      rw [if_neg (by decide), if_neg (by decide), Nat.add_zero, ← ih]
      -- a scan from a place without the predicate is the scan from the next one
      cases (range' (c + 1) m).countP p with
      | zero => rfl
      | succ k => rw [visits, visits, seek_succ hp hn hex hc]

/-- In as many scans as places have the predicate, each of those is met once. -/
lemma count_visits {i : ℕ} (hin : i < n) (hi : p i) (c : ℕ) :
    ((visits p n ((range n).countP p) c).map (· % n)).count i = 1 := by
  have hsame : ∀ x, (x % n == i && p x) = true ↔ (x % n == i) = true := by
    intro x
    rw [Bool.and_eq_true, and_iff_left_iff_imp, beq_iff_eq]
    intro hmod
    rw [← hp.map_mod_nat, hmod, hi]
  rw [← countP_range' hp c, visits_eq hp hn hex, count, countP_map, countP_filter]
  exact (countP_congr fun x _ => hsame x).trans (countP_mod hin c)

end Seek

section Wrap

variable {R n i : ℕ}

lemma le_of_mod_eq {x : ℕ} (hi : i < n) (hfits : i < R % n ∨ R % n = 0) (hle : R ≤ x)
    (hx : x % n = i) : R + i ≤ x := by
  have hdivx := Nat.div_add_mod x n
  have hdivR := Nat.div_add_mod R n
  have hquot : R / n ≤ x / n := Nat.div_le_div_right hle
  have hmul := Nat.mul_le_mul_left n hquot
  rw [hx] at hdivx
  rcases hfits with hlt | hzero
  · -- the quotient is greater, since the rest is smaller
    have hne : R / n ≠ x / n := by
      intro heq
      rw [heq] at hdivR
      omega
    have hmul' := Nat.mul_le_mul_left n (show R / n + 1 ≤ x / n by omega)
    have hrest := Nat.mod_lt R (Nat.zero_lt_of_lt hi)
    rw [Nat.mul_add, Nat.mul_one] at hmul'
    omega
  · omega

/-- A place is met within a cycle even if the counter wraps, if it comes before the rest of the
range, or there is no rest. -/
lemma exists_mod_mod_eq (hR : 0 < R) (hi : i < n) (hfits : i < R % n ∨ R % n = 0) (c : ℕ) :
    ∃ p, c ≤ p ∧ p < c + n ∧ p % R % n = i := by
  obtain ⟨d, hd, hmod⟩ := exists_add_mod_eq (c % R) hi
  have hc := Nat.div_add_mod c R
  by_cases hwrap : c % R + d < R
  · refine ⟨c + d, by omega, by omega, ?_⟩
    rw [Nat.add_mod, Nat.mod_eq_of_lt (show d < R by omega), Nat.mod_eq_of_lt hwrap, hmod]
  · have hlarge := le_of_mod_eq hi hfits (by omega) hmod
    have hiR : i < R := by
      rcases hfits with hlt | hzero
      · exact Nat.lt_of_lt_of_le hlt (Nat.mod_le R n)
      · exact Nat.lt_of_lt_of_le hi (Nat.le_of_dvd hR (Nat.dvd_of_mod_eq_zero hzero))
    have hlt := Nat.mod_lt c hR
    refine ⟨R * (c / R + 1) + i, ?_, ?_, ?_⟩
    · rw [Nat.mul_add]
      omega
    · rw [Nat.mul_add]
      omega
    · rw [Nat.mul_add_mod, Nat.mod_eq_of_lt hiR, Nat.mod_eq_of_lt hi]

/-- Otherwise it is not met from places as late as wanted. -/
lemma exists_gap_mod_mod (hi : i < n) (hn : n ≤ R) (hrest : R % n ≤ i) (hne : R % n ≠ 0)
    (c : ℕ) : ∃ m, c ≤ m ∧ m % R % n = i ∧ ∀ p, m < p → p ≤ m + n → p % R % n ≠ i := by
  have hdiv := Nat.div_add_mod R n
  obtain ⟨q, hq⟩ : ∃ q, R / n = q + 1 :=
    Nat.exists_eq_succ_of_ne_zero (Nat.div_pos hn (Nat.zero_lt_of_lt hi)).ne'
  rw [hq, Nat.mul_add, Nat.mul_one] at hdiv
  -- the last number of the range with this rest
  have hlast : n * q + i < R := by omega
  refine ⟨R * (c + 1) + (n * q + i), ?_, ?_, fun p hlt hle heq => ?_⟩
  · have hmul := Nat.mul_le_mul_right (c + 1) (show 1 ≤ R by omega)
    omega
  · rw [Nat.mul_add_mod, Nat.mod_eq_of_lt hlast, Nat.mul_add_mod, Nat.mod_eq_of_lt hi]
  · obtain ⟨e, rfl⟩ : ∃ e, p = R * (c + 1) + (n * q + (i + e)) :=
      ⟨p - (R * (c + 1) + (n * q + i)), by omega⟩
    rw [Nat.mul_add_mod] at heq
    by_cases hwrap : n * q + (i + e) < R
    · rw [Nat.mod_eq_of_lt hwrap, Nat.mul_add_mod] at heq
      by_cases hsum : i + e < n
      · rw [Nat.mod_eq_of_lt hsum] at heq
        omega
      · rw [Nat.mod_eq_sub_mod (by omega), Nat.mod_eq_of_lt (by omega)] at heq
        omega
    · have hwrapped : (n * q + (i + e)) % R = n * q + (i + e) - R := by
        rw [Nat.mod_eq_sub_mod (by omega), Nat.mod_eq_of_lt (by omega)]
      rw [hwrapped, Nat.mod_eq_of_lt (by omega)] at heq
      omega

end Wrap

end Cycle
