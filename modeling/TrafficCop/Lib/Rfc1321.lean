import TrafficCop.Lib.Bits
import TrafficCop.Lib.Sines

/-!
# The MD5 Message-Digest Algorithm

MD5 as RFC 1321 describes it, over bit strings: the four registers stay where they are and the
64 operations take them in the turn `ABCD`, `DABC`, `CDAB`, `BCDA`; the table `T` is "constructed
from the sine function".
-/

namespace Rfc1321

open Bits

def lowBytes (count n : ℕ) : List UInt8 :=
  (List.range count).map fun j => UInt8.ofNat (n >>> (8 * j))

/-- Steps 1 and 2: a 1, zeros up to 448 modulo 512, and the low-order 64 bits of the length. -/
noncomputable def padded (message : List Bool) : List Bool :=
  message ++ true :: List.replicate (zeros 512 448 message.length) false ++
    bytesBits (lowBytes 8 message.length)

/-- Four bytes as a word, "the low-order (least significant) byte given first". -/
def word (bits : List Bool) : UInt32 :=
  UInt32.ofNat ((octets bits).foldr (fun b n => b.toNat + 256 * n) 0)

def words (block : List Bool) : List UInt32 := (groups 32 block).map word

/-! ## The auxiliary functions and tables of step 4 -/

def F (x y z : UInt32) : UInt32 := (x &&& y) ||| (~~~x &&& z)

def G (x y z : UInt32) : UInt32 := (x &&& z) ||| (y &&& ~~~z)

def H (x y z : UInt32) : UInt32 := x ^^^ y ^^^ z

def I (x y z : UInt32) : UInt32 := y ^^^ (x ||| ~~~z)

/-- "the integer part of 4294967296 times abs(sin(i)), where i is in radians". -/
noncomputable def T (i : ℕ) : ℕ := ⌊4294967296 * |Real.sin i|⌋₊

def rotl (s : ℕ) (x : UInt32) : UInt32 := x <<< UInt32.ofNat s ||| x >>> UInt32.ofNat (32 - s)

/-- The words `k` of the 64 operations, round by round. -/
def indices : List ℕ :=
  [0, 1, 2, 3, 4, 5, 6, 7, 8, 9, 10, 11, 12, 13, 14, 15,
    1, 6, 11, 0, 5, 10, 15, 4, 9, 14, 3, 8, 13, 2, 7, 12,
    5, 8, 11, 14, 1, 4, 7, 10, 13, 0, 3, 6, 9, 12, 15, 2,
    0, 7, 14, 5, 12, 3, 10, 1, 8, 15, 6, 13, 4, 11, 2, 9]

/-- The amounts `s` of a round; each is used for every fourth operation. -/
def amounts (round : ℕ) : List ℕ :=
  match round with
  | 0 => [7, 12, 17, 22]
  | 1 => [5, 9, 14, 20]
  | 2 => [4, 11, 16, 23]
  | _ => [6, 10, 15, 21]

def auxiliary (round : ℕ) : UInt32 → UInt32 → UInt32 → UInt32 :=
  match round with
  | 0 => F
  | 1 => G
  | 2 => H
  | _ => I

/-! ## Processing -/

abbrev Registers := Fin 4 → UInt32

/-- The register in place `k` of the four of operation `j`: "ABCD", "DABC", "CDAB", "BCDA" in
turn. -/
def place (j k : ℕ) : Fin 4 := Fin.ofNat 4 k - Fin.ofNat 4 j

private lemma ofNat_succ (k : ℕ) : Fin.ofNat 4 (k + 1) = Fin.ofNat 4 k + 1 := by
  apply Fin.ext
  simp [Fin.val_add]

lemma place_succ_succ (j k : ℕ) : place (j + 1) (k + 1) = place j k := by
  rw [place, place, ofNat_succ, ofNat_succ, add_sub_add_right_eq_sub]

lemma place_succ_zero (j : ℕ) : place (j + 1) 0 = place j 3 := by
  rw [place, place, ofNat_succ]
  generalize (Fin.ofNat 4 j : Fin 4) = a
  revert a
  decide

lemma place_ne_zero (j : ℕ) {k : ℕ} (hk : 0 < k) (hk' : k < 4) : place j k ≠ place j 0 := by
  intro h
  have heq := congrArg Fin.val (sub_left_injective h)
  simp only [Fin.ofNat, Nat.mod_eq_of_lt hk', Nat.zero_mod] at heq
  omega

/-- Operation `[abcd k s i]`, with `i = j + 1`: `a = b + ((a + f(b,c,d) + X[k] + T[i]) <<< s)`. -/
noncomputable def operation (X : List UInt32) (R : Registers) (j : ℕ) : Registers :=
  let b := R (place j 1)
  Function.update R (place j 0)
    (b + rotl ((amounts (j / 16)).getD (j % 4) 0)
      (R (place j 0) + auxiliary (j / 16) b (R (place j 2)) (R (place j 3)) +
        X.getD (indices.getD j 0) 0 + UInt32.ofNat (T (j + 1))))

/-- A block: 64 operations, then "increment each of the four registers by the value it had before".
-/
noncomputable def process (R : Registers) (block : List Bool) : Registers := fun i =>
  (List.range 64).foldl (operation (words block)) R i + R i

def initial : Registers := ![0x67452301, 0xefcdab89, 0x98badcfe, 0x10325476]

/-- The message digest: "begin with the low-order byte of A, and end with the high-order byte of
D". -/
noncomputable def digest (message : List Bool) : List UInt8 :=
  let R := (groups 512 (padded message)).foldl process initial
  [R 0, R 1, R 2, R 3].flatMap fun x => lowBytes 4 x.toNat

def hex (bytes : List UInt8) : List Char :=
  bytes.flatMap fun b =>
    ["0123456789abcdef".toList.getD (b.toNat / 16) '0',
      "0123456789abcdef".toList.getD (b.toNat % 16) '0']

end Rfc1321
