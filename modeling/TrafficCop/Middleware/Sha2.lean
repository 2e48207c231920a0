import TrafficCop.Lib.Hmac
import TrafficCop.Lib.Sha2
import TrafficCop.Rust.Core
import TrafficCop.Rust.Text

/-!
# The SHA-2 functions of the JWT middleware

`sha256`, `sha512_family` and their callers of `middleware/builtin/jwt.rs`. What the two bodies
differ in are the fields of `Sha2Variant`.
-/

namespace TrafficCop

open Rust Bits List Sha2

/-- What differs between `sha256` and `sha512_family`. -/
structure Sha2Variant (w : ℕ) where
  /-- `K`. -/
  k : List (BitVec w)
  blockSize : ℕ
  /-- Where in the last block the length stands, and how many bytes it has. -/
  lengthAt : ℕ
  lengthSize : ℕ
  /-- The amounts in `s0` and `s1` of the extension and of the compression loop. -/
  extend0 : ℕ × ℕ × ℕ
  extend1 : ℕ × ℕ × ℕ
  compress0 : ℕ × ℕ × ℕ
  compress1 : ℕ × ℕ × ℕ

def fromBeBytes (w : ℕ) (word : List UInt8) : BitVec w :=
  BitVec.ofNat w (word.foldl (fun n b => n * 256 + b.toNat) 0)

def toBeBytes (n : ℕ) : ℕ → List UInt8
  | 0 => []
  | size + 1 => UInt8.ofNat (n / 256 ^ size) :: toBeBytes n size

namespace Sha2Variant

variable {w : ℕ} (v : Sha2Variant w)

/-- "Pre-processing: adding padding bits". -/
def padded (message : List UInt8) : List UInt8 :=
  padTo v.blockSize v.lengthAt 0 v.blockSize (message ++ [0x80]) ++
    toBeBytes (message.length * 8 % 2 ^ (8 * v.lengthSize)) v.lengthSize

def extend (words : List (BitVec w)) (i : ℕ) : List (BitVec w) :=
  let x := words.getD (i - 15) 0
  let y := words.getD (i - 2) 0
  let s0 := x.rotateRight v.extend0.1 ^^^ x.rotateRight v.extend0.2.1 ^^^ (x >>> v.extend0.2.2)
  let s1 := y.rotateRight v.extend1.1 ^^^ y.rotateRight v.extend1.2.1 ^^^ (y >>> v.extend1.2.2)
  words.set i (words.getD (i - 16) 0 + s0 + words.getD (i - 7) 0 + s1)

/-- The array `w` of a chunk: the words of the chunk, then the extension. -/
def schedule (chunk : List UInt8) : List (BitVec w) :=
  let words := (chunks (w / 8) chunk).map (fromBeBytes w)
  (range' 16 (v.k.length - 16)).foldl v.extend
    (words ++ replicate (v.k.length - words.length) 0)

def compress (words : List (BitVec w)) (x : Sha2.Variables w) (i : ℕ) : Sha2.Variables w :=
  let s1 := x.e.rotateRight v.compress1.1 ^^^ x.e.rotateRight v.compress1.2.1 ^^^
    x.e.rotateRight v.compress1.2.2
  let ch := (x.e &&& x.f) ^^^ (~~~x.e &&& x.g)
  let temp1 := x.h + s1 + ch + v.k.getD i 0 + words.getD i 0
  let s0 := x.a.rotateRight v.compress0.1 ^^^ x.a.rotateRight v.compress0.2.1 ^^^
    x.a.rotateRight v.compress0.2.2
  let maj := (x.a &&& x.b) ^^^ (x.a &&& x.c) ^^^ (x.b &&& x.c)
  let temp2 := s0 + maj
  ⟨temp1 + temp2, x.a, x.b, x.c, x.d + temp1, x.e, x.f, x.g⟩

def compressChunk (h : Sha2.Variables w) (chunk : List UInt8) : Sha2.Variables w :=
  h.add ((range v.k.length).foldl (v.compress (v.schedule chunk)) h)

def digest (h : Sha2.Variables w) (message : List UInt8) : List UInt8 :=
  ((chunks v.blockSize (v.padded message)).foldl v.compressChunk h).toList.flatMap fun x =>
    toBeBytes x.toNat (w / 8)

end Sha2Variant

def sha256Variant : Sha2Variant 32 where
  k := [
    0x428a2f98, 0x71374491, 0xb5c0fbcf, 0xe9b5dba5,
    0x3956c25b, 0x59f111f1, 0x923f82a4, 0xab1c5ed5,
    0xd807aa98, 0x12835b01, 0x243185be, 0x550c7dc3,
    0x72be5d74, 0x80deb1fe, 0x9bdc06a7, 0xc19bf174,
    0xe49b69c1, 0xefbe4786, 0x0fc19dc6, 0x240ca1cc,
    0x2de92c6f, 0x4a7484aa, 0x5cb0a9dc, 0x76f988da,
    0x983e5152, 0xa831c66d, 0xb00327c8, 0xbf597fc7,
    0xc6e00bf3, 0xd5a79147, 0x06ca6351, 0x14292967,
    0x27b70a85, 0x2e1b2138, 0x4d2c6dfc, 0x53380d13,
    0x650a7354, 0x766a0abb, 0x81c2c92e, 0x92722c85,
    0xa2bfe8a1, 0xa81a664b, 0xc24b8b70, 0xc76c51a3,
    0xd192e819, 0xd6990624, 0xf40e3585, 0x106aa070,
    0x19a4c116, 0x1e376c08, 0x2748774c, 0x34b0bcb5,
    0x391c0cb3, 0x4ed8aa4a, 0x5b9cca4f, 0x682e6ff3,
    0x748f82ee, 0x78a5636f, 0x84c87814, 0x8cc70208,
    0x90befffa, 0xa4506ceb, 0xbef9a3f7, 0xc67178f2]
  blockSize := 64
  lengthAt := 56
  lengthSize := 8
  extend0 := (7, 18, 3)
  extend1 := (17, 19, 10)
  compress0 := (2, 13, 22)
  compress1 := (6, 11, 25)

/-- The other width of the words, size of the blocks, tables and amounts of the rotations. -/
def sha512Variant : Sha2Variant 64 where
  k := [
    0x428a2f98d728ae22, 0x7137449123ef65cd, 0xb5c0fbcfec4d3b2f, 0xe9b5dba58189dbbc,
    0x3956c25bf348b538, 0x59f111f1b605d019, 0x923f82a4af194f9b, 0xab1c5ed5da6d8118,
    0xd807aa98a3030242, 0x12835b0145706fbe, 0x243185be4ee4b28c, 0x550c7dc3d5ffb4e2,
    0x72be5d74f27b896f, 0x80deb1fe3b1696b1, 0x9bdc06a725c71235, 0xc19bf174cf692694,
    0xe49b69c19ef14ad2, 0xefbe4786384f25e3, 0x0fc19dc68b8cd5b5, 0x240ca1cc77ac9c65,
    0x2de92c6f592b0275, 0x4a7484aa6ea6e483, 0x5cb0a9dcbd41fbd4, 0x76f988da831153b5,
    0x983e5152ee66dfab, 0xa831c66d2db43210, 0xb00327c898fb213f, 0xbf597fc7beef0ee4,
    0xc6e00bf33da88fc2, 0xd5a79147930aa725, 0x06ca6351e003826f, 0x142929670a0e6e70,
    0x27b70a8546d22ffc, 0x2e1b21385c26c926, 0x4d2c6dfc5ac42aed, 0x53380d139d95b3df,
    0x650a73548baf63de, 0x766a0abb3c77b2a8, 0x81c2c92e47edaee6, 0x92722c851482353b,
    0xa2bfe8a14cf10364, 0xa81a664bbc423001, 0xc24b8b70d0f89791, 0xc76c51a30654be30,
    0xd192e819d6ef5218, 0xd69906245565a910, 0xf40e35855771202a, 0x106aa07032bbd1b8,
    0x19a4c116b8d2d0c8, 0x1e376c085141ab53, 0x2748774cdf8eeb99, 0x34b0bcb5e19b48a8,
    0x391c0cb3c5c95a63, 0x4ed8aa4ae3418acb, 0x5b9cca4f7763e373, 0x682e6ff3d6b2b8a3,
    0x748f82ee5defb2fc, 0x78a5636f43172f60, 0x84c87814a1f0ab72, 0x8cc702081a6439ec,
    0x90befffa23631e28, 0xa4506cebde82bde9, 0xbef9a3f7b2c67915, 0xc67178f2e372532b,
    0xca273eceea26619c, 0xd186b8c721c0c207, 0xeada7dd6cde0eb1e, 0xf57d4f7fee6ed178,
    0x06f067aa72176fba, 0x0a637dc5a2c898a6, 0x113f9804bef90dae, 0x1b710b35131c471b,
    0x28db77f523047d84, 0x32caab7b40c72493, 0x3c9ebe0a15c9bebc, 0x431d67c49c100d4c,
    0x4cc5d4becb3e42b6, 0x597f299cfc657e2a, 0x5fcb6fab3ad6faec, 0x6c44198c4a475817]
  blockSize := 128
  lengthAt := 112
  lengthSize := 16
  extend0 := (1, 8, 7)
  extend1 := (19, 61, 6)
  compress0 := (28, 34, 39)
  compress1 := (14, 18, 41)

def sha256 (message : List UInt8) : List UInt8 :=
  sha256Variant.digest
    ⟨0x6a09e667, 0xbb67ae85, 0x3c6ef372, 0xa54ff53a,
      0x510e527f, 0x9b05688c, 0x1f83d9ab, 0x5be0cd19⟩ message

def sha512Family (message : List UInt8) (is384 : Bool) : List UInt8 :=
  let h : Sha2.Variables 64 :=
    if is384 then
      ⟨0xcbbb9d5dc1059ed8, 0x629a292a367cd507, 0x9159015a3070dd17, 0x152fecd8f70e5939,
        0x67332667ffc00b31, 0x8eb44a8768581511, 0xdb0c2e0d64f98fa7, 0x47b5481dbefa4fa4⟩
    else
      ⟨0x6a09e667f3bcc908, 0xbb67ae8584caa73b, 0x3c6ef372fe94f82b, 0xa54ff53a5f1d36f1,
        0x510e527fade682d1, 0x9b05688c2b3e6c1f, 0x1f83d9abfb41bd6b, 0x5be0cd19137e2179⟩
  let full := sha512Variant.digest h message
  if is384 then full.take 48 else full

def sha384 (message : List UInt8) : List UInt8 := sha512Family message true

def sha512 (message : List UInt8) : List UInt8 := sha512Family message false

-- "abc", the example of the standard
example : sha256 [97, 98, 99] =
    [0xba, 0x78, 0x16, 0xbf, 0x8f, 0x01, 0xcf, 0xea, 0x41, 0x41, 0x40, 0xde, 0x5d, 0xae, 0x22, 0x23,
      0xb0, 0x03, 0x61, 0xa3, 0x96, 0x17, 0x7a, 0x9c, 0xb4, 0x10, 0xff, 0x61, 0xf2, 0x00, 0x15,
      0xad] := by
  decide +kernel

/-! ## Bytes and bits -/

lemma chunksUpTo_eq_groups {α : Type} {n count : ℕ} (hn : 0 < n) {l : List α}
    (hdvd : n ∣ l.length)
    (hcount : l.length ≤ count) : chunksUpTo n count l = groups n l := by
  induction l using groups_induction hn generalizing count with
  | short l h =>
    rw [groups_of_lt h, length_eq_zero_iff.mp (Nat.eq_zero_of_dvd_of_lt hdvd h)]
    cases count <;> rfl
  | group a l ha ih =>
    rw [length_append, ha, Nat.dvd_add_right (Nat.dvd_refl n)] at hdvd
    rw [length_append, ha] at hcount
    obtain ⟨count, rfl⟩ : ∃ c, count = c + 1 := ⟨count - 1, by omega⟩
    have hstep : chunksUpTo n (count + 1) (a ++ l) =
        (a ++ l).take n :: chunksUpTo n count ((a ++ l).drop n) := by
      cases a with
      | nil => simp at ha; omega
      | cons => rfl
    rw [hstep, groups_append hn ha, ← ha, take_left, drop_left, ha, ih hdvd (by omega)]

lemma chunks_eq_groups {α : Type} {n : ℕ} (hn : 0 < n) {l : List α} (hdvd : n ∣ l.length) :
    chunks n l = groups n l :=
  chunksUpTo_eq_groups hn hdvd (Nat.le_refl _)

lemma bytesBits_toBeBytes (n size : ℕ) : bytesBits (toBeBytes n size) = natBits (8 * size) n := by
  induction size with
  | zero => rfl
  | succ size ih =>
    have hpow : 256 ^ size = 2 ^ (8 * size) := by
      rw [pow_mul]
      norm_num
    rw [toBeBytes, bytesBits_cons, ih, Nat.mul_succ, Nat.add_comm, natBits_add, byteBits,
      UInt8.toNat_ofNat', natBits_mod (Nat.le_refl 8), hpow, Nat.shiftRight_eq_div_pow]

lemma length_toBeBytes (n size : ℕ) : (toBeBytes n size).length = size := by
  induction size with
  | zero => rfl
  | succ size ih => rw [toBeBytes, length_cons, ih]

lemma words_bytesBits {m : ℕ} (hm : 0 < m) {chunk : List UInt8} (hdvd : m ∣ chunk.length) :
    (chunks m chunk).map (fromBeBytes (8 * m)) = words (8 * m) (bytesBits chunk) := by
  rw [words, groups_bytesBits hm, map_map, chunks_eq_groups hm hdvd]
  refine map_congr_left fun word _ => ?_
  rw [Function.comp_apply, ofBits_bytesBits]
  rfl

/-! ## A chunk -/

section Chunk

variable {w : ℕ}

/-- A variant of the code and the parameters of the standard that it is for. -/
structure Implements (v : Sha2Variant w) (p : Sha2.Params w) : Prop where
  rounds : v.k.length = p.rounds
  sixteen : 16 ≤ p.rounds
  constants : ∀ t < p.rounds, v.k.getD t 0 = p.constant t
  width : w = 8 * (w / 8)
  blockSize : v.blockSize = 16 * (w / 8)
  lengthAt : v.lengthAt = 14 * (w / 8)
  lengthSize : v.lengthSize = 2 * (w / 8)
  amounts : v.extend0 = p.smallSigma0 ∧ v.extend1 = p.smallSigma1 ∧ v.compress0 = p.bigSigma0 ∧
    v.compress1 = p.bigSigma1
  rotations : ∀ n ∈ [p.smallSigma0.1, p.smallSigma0.2.1, p.smallSigma1.1, p.smallSigma1.2.1,
    p.bigSigma0.1, p.bigSigma0.2.1, p.bigSigma0.2.2, p.bigSigma1.1, p.bigSigma1.2.1,
    p.bigSigma1.2.2], n < w

lemma rotateRight_eq {n : ℕ} (h : n < w) (x : BitVec w) : x.rotateRight n = rotr n x := by
  rw [BitVec.rotateRight, Nat.mod_eq_of_lt h]
  rfl

variable {v : Sha2Variant w} {p : Sha2.Params w}

lemma Implements.bytes_pos (h : Implements v p) : 0 < w / 8 := by
  have hwidth := h.width
  have hlt := h.rotations _ mem_cons_self
  omega

lemma Implements.extend_getD (h : Implements v p) (words : List (BitVec w)) (i : ℕ) :
    v.extend words i = words.set i (smallSigma p.smallSigma1 (words.getD (i - 2) 0) +
      words.getD (i - 7) 0 + smallSigma p.smallSigma0 (words.getD (i - 15) 0) +
        words.getD (i - 16) 0) := by
  obtain ⟨h0, h1, -⟩ := h.amounts
  have hrotations := h.rotations
  simp only [forall_mem_cons] at hrotations
  obtain ⟨ha, hb, hc, hd, -⟩ := hrotations
  rw [Sha2Variant.extend, h0, h1, rotateRight_eq ha, rotateRight_eq hb, rotateRight_eq hc,
    rotateRight_eq hd]
  congr 1
  simp only [smallSigma, shr]
  ac_rfl

lemma Implements.schedule_eq (h : Implements v p) {words : List (BitVec w)}
    (hwords : words.length = 16) (n : ℕ) (hn : 16 + n ≤ p.rounds) :
    let extended := (range' 16 n).foldl v.extend
      (words ++ replicate (p.rounds - 16) 0)
    extended.length = p.rounds ∧ ∀ t < 16 + n, extended.getD t 0 = schedule p words t := by
  induction n with
  | zero =>
    constructor
    · rw [range'_zero, foldl_nil, length_append, hwords, length_replicate]
      omega
    · intro t ht
      rw [range'_zero, foldl_nil, schedule, if_pos (by omega), getD_append _ _ _ _ (by omega)]
  | succ n ih =>
    obtain ⟨hlength, ih⟩ := ih (by omega)
    rw [range'_concat, foldl_append]
    generalize (range' 16 n).foldl v.extend (words ++ replicate (p.rounds - 16) 0) = done
      at hlength ih
    simp only [foldl_cons, foldl_nil, Nat.one_mul, h.extend_getD, length_set]
    refine ⟨hlength, ?_⟩
    intro t ht
    by_cases hlast : t = 16 + n
    · -- the word that this turn sets, from the ones before it
      subst hlast
      rw [schedule, if_neg (by omega), ← ih _ (by omega), ← ih _ (by omega), ← ih _ (by omega),
        ← ih _ (by omega), getD_eq_getElem?_getD, getElem?_set_self (by omega)]
      rfl
    · rw [← ih t (by omega), getD_eq_getElem?_getD, getElem?_set_ne (Ne.symm hlast),
        ← getD_eq_getElem?_getD]

lemma Implements.compress_eq (h : Implements v p) {words : List (BitVec w)} {W : ℕ → BitVec w}
    {t : ℕ} (ht : t < p.rounds) (hW : words.getD t 0 = W t) (x : Sha2.Variables w) :
    v.compress words x t = round p W x t := by
  obtain ⟨-, -, h0, h1⟩ := h.amounts
  have hrotations := h.rotations
  simp only [forall_mem_cons] at hrotations
  obtain ⟨-, -, -, -, ha, hb, hc, hd, he, hf, -⟩ := hrotations
  rw [Sha2Variant.compress, h0, h1, rotateRight_eq ha, rotateRight_eq hb, rotateRight_eq hc,
    rotateRight_eq hd, rotateRight_eq he, rotateRight_eq hf, h.constants t ht, hW]
  rfl

lemma Implements.compressChunk_eq (h : Implements v p) {chunk : List UInt8}
    (hchunk : chunk.length = 16 * (w / 8)) (H : Sha2.Variables w) :
    v.compressChunk H chunk = compress p H (words w (bytesBits chunk)) := by
  have hwidth := h.width
  have hpos := h.bytes_pos
  have hwords : (chunks (w / 8) chunk).map (fromBeBytes w) = words w (bytesBits chunk) := by
    have hdvd : w / 8 ∣ chunk.length := ⟨16, by rw [hchunk, Nat.mul_comm]⟩
    have heq := words_bytesBits hpos hdvd
    rwa [← hwidth] at heq
  have hlength : (words w (bytesBits chunk)).length = 16 := by
    rw [words, length_map, length_groups (by omega), length_bytesBits, hchunk,
      show 8 * (16 * (w / 8)) = 16 * w by omega, Nat.mul_div_cancel _ (by omega)]
  have hrounds := h.sixteen
  obtain ⟨-, hschedule⟩ := h.schedule_eq hlength (p.rounds - 16) (by omega)
  rw [show 16 + (p.rounds - 16) = p.rounds by omega] at hschedule
  have hrows : ∀ (x : Sha2.Variables w) t, t ∈ range p.rounds →
      v.compress (v.schedule chunk) x t = round p (schedule p (words w (bytesBits chunk))) x t := by
    intro x t ht
    apply h.compress_eq (mem_range.mp ht)
    rw [Sha2Variant.schedule, hwords, hlength, h.rounds]
    exact hschedule t (mem_range.mp ht)
  rw [Sha2Variant.compressChunk, compress, h.rounds, foldl_ext _ _ _ hrows]
  simp only [Sha2.Variables.add, BitVec.add_comm]

/-- **The padding loop** leaves the padded message of the standard. -/
theorem Implements.padded_eq (h : Implements v p) (message : List UInt8) :
    bytesBits (v.padded message) = pad w (bytesBits message) ∧
      v.blockSize ∣ (v.padded message).length := by
  have hwidth := h.width
  have hpos := h.bytes_pos
  have hblock := h.blockSize
  have hat := h.lengthAt
  have hsize := h.lengthSize
  -- the loop stops for the first time with `d` zero bytes
  obtain ⟨d, hd, hend, hbefore⟩ :=
    exists_fill (show v.lengthAt < v.blockSize by omega) message.length
  have hloop : padTo v.blockSize v.lengthAt 0 v.blockSize (message ++ [0x80]) =
      message ++ [0x80] ++ replicate d 0 :=
    padTo_eq _ _ (by omega) (by simpa using hend) (by simpa using hbefore)
  have hzeros : zeros (16 * w) (14 * w) (8 * message.length) = 7 + 8 * d := by
    rw [show 16 * w = 8 * v.blockSize by omega, show 14 * w = 8 * v.lengthAt by omega]
    exact zeros_bytes hend hbefore
  constructor
  · rw [Sha2Variant.padded, hloop, bytesBits_append, append_assoc, bytesBits_append,
      singleton_append, bytesBits_marker, bytesBits_toBeBytes, natBits_mod (Nat.le_refl _),
      show 8 * v.lengthSize = 2 * w by omega, pad, length_bytesBits, hzeros,
      Nat.mul_comm message.length 8]
  · have hlength : (v.padded message).length = message.length + 1 + d + v.lengthSize := by
      rw [Sha2Variant.padded, hloop]
      simp [length_toBeBytes]
      omega
    apply Nat.dvd_of_mod_eq_zero
    rw [hlength, Nat.add_mod, hend, Nat.mod_eq_of_lt (show v.lengthSize < v.blockSize by omega),
      show v.lengthAt + v.lengthSize = v.blockSize by omega, Nat.mod_self]

lemma Implements.digest_eq (h : Implements v p) (H : Sha2.Variables w) (message : List UInt8) :
    bytesBits (v.digest H message) = hash p H (bytesBits message) := by
  obtain ⟨hpad, hdvd⟩ := h.padded_eq message
  have hwidth := h.width
  have hpos := h.bytes_pos
  have hblock : 16 * w = 8 * v.blockSize := by
    rw [h.blockSize]
    omega
  have hsize : 0 < v.blockSize := by
    rw [h.blockSize]
    omega
  have hblocks : blocks w (bytesBits message) =
      (groups v.blockSize (v.padded message)).map fun chunk => words w (bytesBits chunk) := by
    rw [blocks, ← hpad, hblock, groups_bytesBits hsize, map_map]
    rfl
  have hchunks : ∀ (H : Sha2.Variables w) chunk, chunk ∈ groups v.blockSize (v.padded message) →
      v.compressChunk H chunk = compress p H (words w (bytesBits chunk)) := by
    intro H chunk hchunk
    exact h.compressChunk_eq ((length_of_mem_groups hsize hchunk).trans h.blockSize) H
  rw [Sha2Variant.digest, Sha2.hash, hblocks, foldl_map, chunks_eq_groups hsize hdvd,
    foldl_ext _ _ _ hchunks, bytesBits, flatMap_assoc]
  refine flatMap_congr fun x _ => ?_
  have hbytes := bytesBits_toBeBytes x.toNat (w / 8)
  rwa [← hwidth] at hbytes

end Chunk

/-! ## The functions -/

lemma sha256Variant_implements : Implements sha256Variant params32 where
  rounds := rfl
  sixteen := by decide
  constants := by
    intro t ht
    refine (ofNat_fractionBits (by omega) _ ?_).symm
    rw [primes_eq]
    revert t
    decide +kernel
  width := by decide
  blockSize := rfl
  lengthAt := rfl
  lengthSize := rfl
  amounts := ⟨rfl, rfl, rfl, rfl⟩
  rotations := by decide

lemma sha512Variant_implements : Implements sha512Variant params64 where
  rounds := rfl
  sixteen := by decide
  constants := by
    intro t ht
    refine (ofNat_fractionBits (by omega) _ ?_).symm
    rw [primes_eq]
    revert t
    decide +kernel
  width := by decide
  blockSize := rfl
  lengthAt := rfl
  lengthSize := rfl
  amounts := ⟨rfl, rfl, rfl, rfl⟩
  rotations := by decide

variable (message : List UInt8)

lemma sha256_eq : bytesBits (sha256 message) = Sha2.sha256 (bytesBits message) := by
  rw [sha256, Sha2.sha256, Sha2.initial_eq _ ?_]
  · exact sha256Variant_implements.digest_eq _ message
  · rw [primes_eq]
    decide

lemma sha384_eq : bytesBits (sha384 message) = Sha2.sha384 (bytesBits message) := by
  rw [sha384, sha512Family, Sha2.sha384, Sha2.initial_eq _ ?_, if_pos rfl, bytesBits_take]
  · exact congrArg (take 384) (sha512Variant_implements.digest_eq _ message)
  · rw [primes_eq]
    decide

lemma sha512_eq : bytesBits (sha512 message) = Sha2.sha512 (bytesBits message) := by
  rw [sha512, sha512Family, Sha2.sha512, Sha2.initial_eq _ ?_, if_neg (by decide)]
  · exact sha512Variant_implements.digest_eq _ message
  · rw [primes_eq]
    decide

/-! ## HMAC -/

/-- "Generic HMAC implementation". -/
def hmac (key message : List UInt8) (hashFn : List UInt8 → List UInt8) (blockSize hashSize : ℕ) :
    List UInt8 :=
  let key := if key.length > blockSize then hashFn key else key
  let keyPadded := resize blockSize 0 key
  let iKeyPad := zipWith (· ^^^ ·) (replicate blockSize 0x36) keyPadded
  let oKeyPad := zipWith (· ^^^ ·) (replicate blockSize 0x5c) keyPadded
  let innerHash := hashFn (iKeyPad ++ message)
  (hashFn (oKeyPad ++ innerHash)).take hashSize

def hmacSha256 (key message : List UInt8) : List UInt8 := hmac key message sha256 64 32

def hmacSha384 (key message : List UInt8) : List UInt8 := hmac key message sha384 128 48

def hmacSha512 (key message : List UInt8) : List UInt8 := hmac key message sha512 128 64

lemma length_digest {w : ℕ} (v : Sha2Variant w) (h : Sha2.Variables w) (message : List UInt8) :
    (v.digest h message).length = 8 * (w / 8) := by
  rw [Sha2Variant.digest]
  generalize (chunks v.blockSize (v.padded message)).foldl v.compressChunk h = x
  simp [Sha2.Variables.toList, length_toBeBytes]
  omega

/-- **The generic HMAC**, for a hash function whose output fits in a block. -/
theorem hmac_eq {H : List Bool → List Bool} {hashFn : List UInt8 → List UInt8}
    {blockSize hashSize : ℕ} (hash : ∀ m, bytesBits (hashFn m) = H (bytesBits m))
    (hlength : ∀ m, (hashFn m).length = hashSize) (hle : hashSize ≤ blockSize)
    (key message : List UInt8) :
    bytesBits (hmac key message hashFn blockSize hashSize) =
      Hmac.hmac H blockSize (bytesBits key) (bytesBits message) := by
  have hresize : ∀ key : List UInt8, key.length ≤ blockSize →
      bytesBits (resize blockSize 0 key) = Hmac.zeroPad blockSize (bytesBits key) := by
    intro key hkey
    rw [resize, take_of_length_le hkey, bytesBits_append, bytesBits_replicate_zero,
      Hmac.zeroPad, length_bytesBits, Nat.mul_sub]
  -- the three cases of the standard
  have hkey : bytesBits (resize blockSize 0 (if key.length > blockSize then hashFn key else key)) =
      Hmac.blockKey H blockSize (bytesBits key) := by
    rw [Hmac.blockKey, length_bytesBits]
    by_cases heq : key.length = blockSize
    · rw [if_neg (by omega), if_pos (by omega), hresize key (by omega), Hmac.zeroPad,
        length_bytesBits, heq, Nat.sub_self, replicate_zero, append_nil]
    · rw [if_neg (show ¬8 * key.length = 8 * blockSize by omega)]
      by_cases hlong : key.length > blockSize
      · rw [if_pos hlong, if_pos (by omega), hresize _ (by rw [hlength]; exact hle), hash]
      · rw [if_neg hlong, if_neg (by omega), hresize key (by omega)]
  have hxor : ∀ (pad : UInt8) (key : List UInt8),
      bytesBits (zipWith (· ^^^ ·) (replicate blockSize pad) key) =
        Hmac.xor (bytesBits key) (bytesBits (replicate blockSize pad)) := by
    intro pad key
    rw [zipWith_comm_of_comm (by intro a b; exact UInt8.xor_comm a b), Hmac.bytesBits_zipWith_xor]
  rw [hmac, take_of_length_le (by rw [hlength]), hash, bytesBits_append, hxor, hkey, hash,
    bytesBits_append, hxor, hkey]
  rfl

/-- **The hash functions and the HMACs are those of the standards.** -/
theorem sha2_and_hmac (message : List UInt8) :
    bytesBits (sha256 message) = Sha2.sha256 (bytesBits message) ∧
    bytesBits (sha384 message) = Sha2.sha384 (bytesBits message) ∧
    bytesBits (sha512 message) = Sha2.sha512 (bytesBits message) ∧
    ∀ key : List UInt8,
      bytesBits (hmacSha256 key message) =
        Hmac.hmac Sha2.sha256 64 (bytesBits key) (bytesBits message) ∧
      bytesBits (hmacSha384 key message) =
        Hmac.hmac Sha2.sha384 128 (bytesBits key) (bytesBits message) ∧
      bytesBits (hmacSha512 key message) =
        Hmac.hmac Sha2.sha512 128 (bytesBits key) (bytesBits message) := by
  have h384 : ∀ m, (sha384 m).length = 48 := by
    intro m
    rw [sha384, sha512Family, if_pos rfl, length_take, length_digest]
    rfl
  refine ⟨sha256_eq message, sha384_eq message, sha512_eq message, fun key => ⟨?_, ?_, ?_⟩⟩
  · exact hmac_eq sha256_eq (fun m => length_digest _ _ m) (by decide) key message
  · exact hmac_eq sha384_eq h384 (by decide) key message
  · exact hmac_eq sha512_eq (fun m => length_digest _ _ m) (by decide) key message

end TrafficCop
