import TrafficCop.Rust.Text

/-!
# How durations are printed

`Display` of `config::Duration` (`config/duration.rs`), on the number of nanoseconds.
-/

namespace TrafficCop

open List

namespace Duration

open Rust

/-- The `write!`s of `Display`, each a number and its unit; `written`: has there been one. -/
def writes (totalNanos : ℕ) : List (ℕ × Text) :=
  if totalNanos = 0 then [(0, ['s'])]
  else
    let hours := totalNanos / (60 * 60 * 1000000000)
    let remaining := totalNanos % (60 * 60 * 1000000000)
    let minutes := remaining / (60 * 1000000000)
    let remaining := remaining % (60 * 1000000000)
    let seconds := remaining / 1000000000
    let remaining := remaining % 1000000000
    let millis := remaining / 1000000
    let remaining := remaining % 1000000
    let micros := remaining / 1000
    let nanos := remaining % 1000
    let f := if hours > 0 then [(hours, ['h'])] else []
    let f := if minutes > 0 then f ++ [(minutes, ['m'])] else f
    let f := if seconds > 0 ∨ f = [] ∧ millis = 0 ∧ micros = 0 ∧ nanos = 0 then
      f ++ [(seconds, ['s'])] else f
    let f := if millis > 0 ∧ f = [] then f ++ [(millis, ['m', 's'])] else f
    let f := if micros > 0 ∧ f = [] then f ++ [(micros, ['u', 's'])] else f
    if nanos > 0 ∧ f = [] then f ++ [(nanos, ['n', 's'])] else f

/-- The text of numbers with units. -/
def spelled (ps : List (ℕ × Text)) : Text := ps.flatMap fun p => Nat.toDigits 10 p.1 ++ p.2

/-- Hours, minutes and seconds are printed where they are not 0; smaller units only if nothing has
been printed yet. -/
def display (totalNanos : ℕ) : Text := spelled (writes totalNanos)

/-- The smallest unit that is printed, in nanoseconds and as a text. -/
def smallest (n : ℕ) : ℕ × Text :=
  if 1000000000 ≤ n then (1000000000, ['s']) else if 1000000 ≤ n then (1000000, ['m', 's'])
  else if 1000 ≤ n then (1000, ['u', 's']) else (1, ['n', 's'])

def truncated (n : ℕ) : ℕ := n - n % (smallest n).1

/-! ## Reading back -/

lemma append_inj_of_head {p : Char → Bool} {a b x y : Text} (ha : ∀ c ∈ a, p c)
    (hb : ∀ c ∈ b, p c) (hx : ∀ c, x.head? = some c → p c = false)
    (hy : ∀ c, y.head? = some c → p c = false) (h : a ++ x = b ++ y) : a = b ∧ x = y := by
  have hstop {z : Text} (hz : ∀ c, z.head? = some c → p c = false) : z.takeWhile p = [] := by
    cases z with
    | nil => rfl
    | cons c z => exact takeWhile_cons_of_neg (by simp [hz c rfl])
  have htake := congrArg (List.takeWhile p) h
  rw [takeWhile_append_of_pos ha, takeWhile_append_of_pos hb, hstop hx, hstop hy,
    append_nil, append_nil] at htake
  exact ⟨htake, append_cancel_left (htake ▸ h)⟩

/-- A text without digits. -/
def IsUnit (unit : Text) : Prop := unit ≠ [] ∧ ∀ c ∈ unit, c.isDigit = false

variable (n : ℕ)

lemma isDigit_toDigits : ∀ c ∈ Nat.toDigits 10 n, c.isDigit := fun _ hc =>
  Nat.isDigit_of_mem_toDigits (by decide) (by decide) hc

lemma spelled_cons (p : ℕ × Text) (ps : List (ℕ × Text)) :
    spelled (p :: ps) = Nat.toDigits 10 p.1 ++ (p.2 ++ spelled ps) := by
  rw [spelled, flatMap_cons, append_assoc, spelled]

lemma isDigit_head_spelled {ps : List (ℕ × Text)} {c : Char}
    (hc : (spelled ps).head? = some c) : c.isDigit := by
  cases ps with
  | nil => cases hc
  | cons p ps =>
    obtain ⟨d, digits, hdigits⟩ :=
      exists_cons_of_ne_nil (Nat.toDigits_ne_nil (b := 10) (n := p.1))
    rw [spelled_cons, hdigits] at hc
    obtain rfl : d = c := Option.some.inj hc
    exact isDigit_toDigits p.1 d (by simp [hdigits])

lemma isDigit_head_unit {unit rest : Text} (hunit : IsUnit unit) {c : Char}
    (hc : (unit ++ rest).head? = some c) : c.isDigit = false := by
  obtain ⟨d, unit', rfl⟩ := exists_cons_of_ne_nil hunit.1
  obtain rfl : d = c := Option.some.inj hc
  exact hunit.2 d (by simp)

lemma spelled_injective {ps qs : List (ℕ × Text)} (hps : ∀ p ∈ ps, IsUnit p.2)
    (hqs : ∀ q ∈ qs, IsUnit q.2) (h : spelled ps = spelled qs) : ps = qs := by
  have hne (p : ℕ × Text) (ps : List (ℕ × Text)) : spelled (p :: ps) ≠ [] := by
    simp [spelled_cons, Nat.toDigits_ne_nil]
  induction ps generalizing qs with
  | nil =>
    cases qs with
    | nil => rfl
    | cons q qs => exact absurd h.symm (hne q qs)
  | cons p ps ih =>
    cases qs with
    | nil => exact absurd h (hne p ps)
    | cons q qs =>
      obtain ⟨hp, hps⟩ := forall_mem_cons.mp hps
      obtain ⟨hq, hqs⟩ := forall_mem_cons.mp hqs
      rw [spelled_cons, spelled_cons] at h
      -- the digits end where the unit begins, and the unit where the next digits do
      obtain ⟨hdigits, h⟩ := append_inj_of_head (isDigit_toDigits p.1) (isDigit_toDigits q.1)
        (fun c => isDigit_head_unit hp) (fun c => isDigit_head_unit hq) h
      obtain ⟨hunit, h⟩ := append_inj_of_head (p := fun c => !c.isDigit)
        (fun c hc => by simp [hp.2 c hc]) (fun c hc => by simp [hq.2 c hc])
        (fun c hc => by simp [isDigit_head_spelled hc])
        (fun c hc => by simp [isDigit_head_spelled hc]) h
      have hnumber := congrArg parseDigits hdigits
      rw [parseDigits_toDigits, parseDigits_toDigits] at hnumber
      rw [Prod.ext (Option.some.inj hnumber) hunit, ih hps hqs h]

/-! ## What is printed -/

lemma writes_sec {n : ℕ} (h : 1000000000 ≤ n) : writes n =
    [(n / 3600000000000, ['h']), (n % 3600000000000 / 60000000000, ['m']),
      (n % 3600000000000 % 60000000000 / 1000000000, ['s'])].filter (·.1 ≠ 0) := by
  have hn : n ≠ 0 := by omega
  have hany : n / 3600000000000 ≠ 0 ∨ n % 3600000000000 / 60000000000 ≠ 0 ∨
      n % 3600000000000 % 60000000000 / 1000000000 ≠ 0 := by omega
  simp only [writes, if_neg hn, Nat.reduceMul, gt_iff_lt, Nat.pos_iff_ne_zero]
  generalize n / 3600000000000 = a at *
  generalize n % 3600000000000 / 60000000000 = b at *
  generalize n % 3600000000000 % 60000000000 / 1000000000 = c at *
  by_cases ha : a = 0 <;> by_cases hb : b = 0 <;> by_cases hc : c = 0 <;> simp_all

lemma writes_small {n : ℕ} (hn : n ≠ 0) (hsec : ¬1000000000 ≤ n) :
    writes n = [(n / (smallest n).1, (smallest n).2)] := by
  have hzero : n / 3600000000000 = 0 ∧ n % 3600000000000 / 60000000000 = 0 ∧
      n % 3600000000000 % 60000000000 = n ∧ n / 1000000000 = 0 ∧ n % 1000000000 = n := by omega
  simp only [writes, if_neg hn, Nat.reduceMul, hzero, smallest, if_neg hsec, gt_iff_lt,
    Nat.pos_iff_ne_zero]
  by_cases hms : 1000000 ≤ n
  · have hpos : n / 1000000 ≠ 0 := by omega
    simp [hms, hpos]
  · have hzero : n / 1000000 = 0 ∧ n % 1000000 = n := by omega
    by_cases hus : 1000 ≤ n
    · have hpos : n / 1000 ≠ 0 := by omega
      simp [hms, hus, hzero, hpos]
    · have hzero' : n / 1000 = 0 ∧ n % 1000 = n := by omega
      simp [hms, hus, hzero, hzero', hn]

def weight (unit : Text) : ℕ :=
  if unit = ['h'] then 3600000000000 else if unit = ['m'] then 60000000000
  else if unit = ['s'] then 1000000000 else if unit = ['m', 's'] then 1000000
  else if unit = ['u', 's'] then 1000 else 1

/-- What a printed text stands for. -/
def total : List (ℕ × Text) → ℕ
  | [] => 0
  | p :: ps => p.1 * weight p.2 + total ps

lemma weight_hms :
    weight ['h'] = 3600000000000 ∧ weight ['m'] = 60000000000 ∧ weight ['s'] = 1000000000 :=
  ⟨rfl, rfl, rfl⟩

lemma total_filter (ps : List (ℕ × Text)) : total (ps.filter (·.1 ≠ 0)) = total ps := by
  induction ps with
  | nil => rfl
  | cons p ps ih =>
    by_cases hp : p.1 = 0
    · rw [filter_cons_of_neg (by simp [hp]), ih, total, hp, Nat.zero_mul, Nat.zero_add]
    · rw [filter_cons_of_pos (by simp [hp]), total, total, ih]

lemma smallest_spec : IsUnit (smallest n).2 ∧ weight (smallest n).2 = (smallest n).1 := by
  unfold smallest IsUnit
  split_ifs <;> exact ⟨⟨cons_ne_nil _ _, forall_char (by decide)⟩, rfl⟩

lemma isUnit_writes : ∀ p ∈ writes n, IsUnit p.2 := by
  have hletter {c : Char} (hc : c.isDigit = false) : IsUnit [c] :=
    ⟨cons_ne_nil _ _, fun d hd => mem_singleton.mp hd ▸ hc⟩
  have hunits : IsUnit ['h'] ∧ IsUnit ['m'] ∧ IsUnit ['s'] :=
    ⟨hletter (by decide), hletter (by decide), hletter (by decide)⟩
  intro p hp
  by_cases hn : n = 0
  · rw [writes, if_pos hn, mem_singleton] at hp
    rw [hp]
    exact hunits.2.2
  · by_cases hsec : 1000000000 ≤ n
    · rw [writes_sec hsec] at hp
      have hp := mem_of_mem_filter hp
      simp only [mem_cons, not_mem_nil, or_false] at hp
      rcases hp with rfl | rfl | rfl
      exacts [hunits.1, hunits.2.1, hunits.2.2]
    · rw [writes_small hn hsec, mem_singleton] at hp
      rw [hp]
      exact (smallest_spec n).1

lemma total_writes : total (writes n) = truncated n := by
  by_cases hn : n = 0
  · simp [writes, total, truncated, hn]
  · by_cases hsec : 1000000000 ≤ n
    · rw [writes_sec hsec, total_filter, truncated, smallest, if_pos hsec]
      simp only [total, weight_hms]
      omega
    · rw [writes_small hn hsec, total, total, (smallest_spec n).2, Nat.add_zero, truncated]
      exact Nat.div_mul_self_eq_mod_sub_self

lemma writes_truncated : writes (truncated n) = writes n := by
  by_cases hn : n = 0
  · simp [truncated, hn]
  · by_cases hsec : 1000000000 ≤ n
    · have ht : truncated n = n - n % 1000000000 := by rw [truncated, smallest, if_pos hsec]
      have hsame : truncated n / 3600000000000 = n / 3600000000000 ∧
          truncated n % 3600000000000 / 60000000000 = n % 3600000000000 / 60000000000 ∧
          truncated n % 3600000000000 % 60000000000 / 1000000000 =
            n % 3600000000000 % 60000000000 / 1000000000 := by
        omega
      rw [writes_sec hsec, writes_sec (by omega), hsame.1, hsame.2.1, hsame.2.2]
    · have hsame : truncated n ≠ 0 ∧ ¬1000000000 ≤ truncated n ∧
          smallest (truncated n) = smallest n := by
        unfold truncated smallest
        -- the same unit on both sides, or one that the other side does not reach
        split_ifs <;> dsimp only at * <;> first | exact ⟨by omega, by omega, rfl⟩ | omega
      rw [writes_small hn hsec, writes_small hsame.1 hsame.2.1, hsame.2.2, truncated,
        ← Nat.div_eq_sub_mod_div]

lemma display_eq_iff {n m : ℕ} : display n = display m ↔ truncated n = truncated m := by
  constructor
  · intro h
    rw [← total_writes, ← total_writes, spelled_injective (isUnit_writes n) (isUnit_writes m) h]
  · intro h
    rw [display, display, ← writes_truncated n, h, writes_truncated]

end Duration

end TrafficCop
