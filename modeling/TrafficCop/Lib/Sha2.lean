import Mathlib.Analysis.SpecialFunctions.Pow.Real
import TrafficCop.Lib.Bits

/-!
# The Secure Hash Standard

SHA-256, SHA-384 and SHA-512 as FIPS 180-4 defines them, over bit strings and words of `w` bits. The
constants are the first bits of the fractional parts of roots of the first prime numbers.
-/

namespace Sha2

open Bits

/-! ## Constants -/

/-- "the first `w` bits of the fractional part" of the `n`-th root of `p`. -/
noncomputable def fractionBits (w n p : ℕ) : ℕ := ⌊Int.fract ((p : ℝ) ^ ((1 : ℝ) / n)) * 2 ^ w⌋₊

def primes : List ℕ := (List.range 410).filter Nat.Prime

lemma prime_iff_of_lt {n : ℕ} (h : n < 441) :
    n.Prime ↔ 2 ≤ n ∧ ∀ m < 21, 2 ≤ m → m < n → ¬m ∣ n := by
  constructor
  · intro hp
    refine ⟨hp.two_le, ?_⟩
    intro m _ h2 hlt hdvd
    have := (Nat.dvd_prime hp).mp hdvd
    omega
  · intro htrial
    rw [Nat.prime_def_le_sqrt]
    refine ⟨htrial.1, ?_⟩
    intro m h2 hle hdvd
    have hsquare := Nat.le_sqrt.mp hle
    exact htrial.2 m (by nlinarith) h2 (by nlinarith) hdvd

lemma primes_eq : primes =
    [2, 3, 5, 7, 11, 13, 17, 19, 23, 29, 31, 37, 41, 43, 47, 53, 59, 61, 67, 71, 73, 79, 83, 89, 97,
      101, 103, 107, 109, 113, 127, 131, 137, 139, 149, 151, 157, 163, 167, 173, 179, 181, 191, 193,
      197, 199, 211, 223, 227, 229, 233, 239, 241, 251, 257, 263, 269, 271, 277, 281, 283, 293, 307,
      311, 313, 317, 331, 337, 347, 349, 353, 359, 367, 373, 379, 383, 389, 397, 401, 409] := by
  have htrial : primes = (List.range 410).filter fun n =>
      decide (2 ≤ n ∧ ∀ m < 21, 2 ≤ m → m < n → ¬m ∣ n) := by
    refine List.filter_congr fun n hn => decide_eq_decide.mpr (prime_iff_of_lt ?_)
    have := List.mem_range.mp hn
    omega
  rw [htrial]
  decide +kernel

/-- The bits of a fractional part, from integers: `a` is the whole part of the root. -/
lemma fractionBits_eq {w n p a k : ℕ} (hn : n ≠ 0) (hk : k < 2 ^ w)
    (hlow : (a * 2 ^ w + k) ^ n ≤ p * 2 ^ (w * n))
    (hhigh : p * 2 ^ (w * n) < (a * 2 ^ w + k + 1) ^ n) : fractionBits w n p = k := by
  set x : ℝ := (p : ℝ) ^ ((1 : ℝ) / n) with hx
  have hx0 : 0 ≤ x := Real.rpow_nonneg (Nat.cast_nonneg p) _
  have hpow : (x * 2 ^ w) ^ n = p * 2 ^ (w * n) := by
    rw [mul_pow, ← pow_mul, hx, one_div, Real.rpow_inv_natCast_pow (Nat.cast_nonneg p) hn]
  have hpos : (0 : ℝ) < 2 ^ w := by positivity
  -- the scaled root lies between two neighbouring integers
  have hle : (a : ℝ) * 2 ^ w + k ≤ x * 2 ^ w := by
    refine le_of_pow_le_pow_left₀ hn (by positivity) ?_
    rw [hpow]
    exact_mod_cast hlow
  have hlt : x * 2 ^ w < (a : ℝ) * 2 ^ w + k + 1 := by
    refine lt_of_pow_lt_pow_left₀ n (by positivity) ?_
    rw [hpow]
    exact_mod_cast hhigh
  have hk' : (k : ℝ) + 1 ≤ 2 ^ w := by exact_mod_cast hk
  have hfloor : ⌊x⌋ = (a : ℤ) := by
    rw [Int.floor_eq_iff]
    have hk0 : (0 : ℝ) ≤ k := Nat.cast_nonneg k
    push_cast
    constructor <;> nlinarith
  have hfract : Int.fract x = x - a := by
    rw [Int.fract, hfloor]
    rfl
  rw [fractionBits, ← hx, hfract, Nat.floor_eq_iff (by nlinarith), sub_mul]
  constructor <;> linarith

lemma ofNat_fractionBits {w n p : ℕ} (hn : n ≠ 0) (x : BitVec w)
    (h : ∃ a < 8, (a * 2 ^ w + x.toNat) ^ n ≤ p * 2 ^ (w * n) ∧
      p * 2 ^ (w * n) < (a * 2 ^ w + x.toNat + 1) ^ n) :
    BitVec.ofNat w (fractionBits w n p) = x := by
  obtain ⟨a, -, hlow, hhigh⟩ := h
  rw [fractionBits_eq hn x.isLt hlow hhigh, BitVec.ofNat_toNat, BitVec.setWidth_eq]

/-! ## Functions on words -/

variable {w : ℕ}

def rotr (n : ℕ) (x : BitVec w) : BitVec w := x >>> n ||| x <<< (w - n)

def shr (n : ℕ) (x : BitVec w) : BitVec w := x >>> n

def ch (x y z : BitVec w) : BitVec w := (x &&& y) ^^^ (~~~x &&& z)

def maj (x y z : BitVec w) : BitVec w := (x &&& y) ^^^ (x &&& z) ^^^ (y &&& z)

/-- What depends on the width: the rounds, their constants and the amounts of `Σ` and `σ`. -/
structure Params (w : ℕ) where
  rounds : ℕ
  bigSigma0 : ℕ × ℕ × ℕ
  bigSigma1 : ℕ × ℕ × ℕ
  smallSigma0 : ℕ × ℕ × ℕ
  smallSigma1 : ℕ × ℕ × ℕ
  constant : ℕ → BitVec w

/-- `Σ`: three rotations. -/
def bigSigma (n : ℕ × ℕ × ℕ) (x : BitVec w) : BitVec w :=
  rotr n.1 x ^^^ rotr n.2.1 x ^^^ rotr n.2.2 x

/-- `σ`: two rotations and a shift. -/
def smallSigma (n : ℕ × ℕ × ℕ) (x : BitVec w) : BitVec w :=
  rotr n.1 x ^^^ rotr n.2.1 x ^^^ shr n.2.2 x

/-! ## Preprocessing -/

/-- The length is expressed in `2 * w` bits; of a longer message the low bits stand here. -/
noncomputable def pad (w : ℕ) (message : List Bool) : List Bool :=
  message ++ true :: List.replicate (zeros (16 * w) (14 * w) message.length) false ++
    natBits (2 * w) message.length

def words (w : ℕ) (bits : List Bool) : List (BitVec w) :=
  (groups w bits).map fun g => BitVec.ofNat w (ofBits g)

noncomputable def blocks (w : ℕ) (message : List Bool) : List (List (BitVec w)) :=
  (groups (16 * w) (pad w message)).map (words w)

/-! ## Hash computation -/

/-- The message schedule `W` of a block `M`. -/
def schedule (p : Params w) (M : List (BitVec w)) (t : ℕ) : BitVec w :=
  if t < 16 then M.getD t 0
  else smallSigma p.smallSigma1 (schedule p M (t - 2)) + schedule p M (t - 7) +
    smallSigma p.smallSigma0 (schedule p M (t - 15)) + schedule p M (t - 16)

/-- The working variables, and the hash values between the blocks. -/
structure Variables (w : ℕ) where
  a : BitVec w
  b : BitVec w
  c : BitVec w
  d : BitVec w
  e : BitVec w
  f : BitVec w
  g : BitVec w
  h : BitVec w
  deriving Repr, DecidableEq

namespace Variables

def add (v v' : Variables w) : Variables w :=
  ⟨v.a + v'.a, v.b + v'.b, v.c + v'.c, v.d + v'.d, v.e + v'.e, v.f + v'.f, v.g + v'.g, v.h + v'.h⟩

def toList (v : Variables w) : List (BitVec w) := [v.a, v.b, v.c, v.d, v.e, v.f, v.g, v.h]

def ofFn (f : ℕ → BitVec w) : Variables w := ⟨f 0, f 1, f 2, f 3, f 4, f 5, f 6, f 7⟩

end Variables

def round (p : Params w) (W : ℕ → BitVec w) (v : Variables w) (t : ℕ) : Variables w :=
  let T₁ := v.h + bigSigma p.bigSigma1 v.e + ch v.e v.f v.g + p.constant t + W t
  let T₂ := bigSigma p.bigSigma0 v.a + maj v.a v.b v.c
  ⟨T₁ + T₂, v.a, v.b, v.c, v.d + T₁, v.e, v.f, v.g⟩

def compress (p : Params w) (H : Variables w) (M : List (BitVec w)) : Variables w :=
  ((List.range p.rounds).foldl (round p (schedule p M)) H).add H

noncomputable def hash (p : Params w) (initial : Variables w) (message : List Bool) : List Bool :=
  ((blocks w message).foldl (compress p) initial).toList.flatMap fun x => natBits w x.toNat

/-! ## The functions -/

/-- The two widths differ in the number of rounds and the amounts of the rotations. -/
noncomputable def params32 : Params 32 where
  rounds := 64
  bigSigma0 := (2, 13, 22)
  bigSigma1 := (6, 11, 25)
  smallSigma0 := (7, 18, 3)
  smallSigma1 := (17, 19, 10)
  constant t := BitVec.ofNat 32 (fractionBits 32 3 (primes.getD t 0))

noncomputable def params64 : Params 64 where
  rounds := 80
  bigSigma0 := (28, 34, 39)
  bigSigma1 := (14, 18, 41)
  smallSigma0 := (1, 8, 7)
  smallSigma1 := (19, 61, 6)
  constant t := BitVec.ofNat 64 (fractionBits 64 3 (primes.getD t 0))

/-- The hash values at the start: from the square roots of eight primes. -/
noncomputable def initial (w first : ℕ) : Variables w :=
  .ofFn fun i => BitVec.ofNat w (fractionBits w 2 (primes.getD (first + i) 0))

lemma initial_eq {first : ℕ} (H : Variables w)
    (h : ∀ i < 8, ∃ a < 8,
      (a * 2 ^ w + (H.toList.getD i 0).toNat) ^ 2 ≤ primes.getD (first + i) 0 * 2 ^ (w * 2) ∧
      primes.getD (first + i) 0 * 2 ^ (w * 2) <
        (a * 2 ^ w + (H.toList.getD i 0).toNat + 1) ^ 2) : initial w first = H := by
  have hword : ∀ i < 8, BitVec.ofNat w (fractionBits w 2 (primes.getD (first + i) 0)) =
      H.toList.getD i 0 := fun i hi => ofNat_fractionBits (by omega) _ (h i hi)
  simp only [initial, Variables.ofFn, hword 0 (by omega), hword 1 (by omega), hword 2 (by omega),
    hword 3 (by omega), hword 4 (by omega), hword 5 (by omega), hword 6 (by omega),
    hword 7 (by omega)]
  rfl

noncomputable def sha256 (message : List Bool) : List Bool := hash params32 (initial 32 0) message

/-- "truncating the final hash value to its left-most 384 bits". -/
noncomputable def sha384 (message : List Bool) : List Bool :=
  (hash params64 (initial 64 8) message).take 384

noncomputable def sha512 (message : List Bool) : List Bool := hash params64 (initial 64 0) message

end Sha2
