import TrafficCop.Rust.Core
import TrafficCop.Rust.Text

/-!
# The MD5 of the digest middleware

`md5_compute` and `md5_hex` of `middleware/builtin/digest_auth.rs`, after RFC 1321.
-/

namespace TrafficCop

open Rust

namespace Md5

/-- `S`: "Per-round shift amounts". -/
def shifts : List UInt32 :=
  [7, 12, 17, 22, 7, 12, 17, 22, 7, 12, 17, 22, 7, 12, 17, 22,
    5, 9, 14, 20, 5, 9, 14, 20, 5, 9, 14, 20, 5, 9, 14, 20,
    4, 11, 16, 23, 4, 11, 16, 23, 4, 11, 16, 23, 4, 11, 16, 23,
    6, 10, 15, 21, 6, 10, 15, 21, 6, 10, 15, 21, 6, 10, 15, 21]

/-- `K`: "Pre-computed constants (floor(2^32 * abs(sin(i + 1))))". -/
def constants : List UInt32 :=
  [0xd76aa478, 0xe8c7b756, 0x242070db, 0xc1bdceee, 0xf57c0faf, 0x4787c62a, 0xa8304613, 0xfd469501,
    0x698098d8, 0x8b44f7af, 0xffff5bb1, 0x895cd7be, 0x6b901122, 0xfd987193, 0xa679438e, 0x49b40821,
    0xf61e2562, 0xc040b340, 0x265e5a51, 0xe9b6c7aa, 0xd62f105d, 0x02441453, 0xd8a1e681, 0xe7d3fbc8,
    0x21e1cde6, 0xc33707d6, 0xf4d50d87, 0x455a14ed, 0xa9e3e905, 0xfcefa3f8, 0x676f02d9, 0x8d2a4c8a,
    0xfffa3942, 0x8771f681, 0x6d9d6122, 0xfde5380c, 0xa4beea44, 0x4bdecfa9, 0xf6bb4b60, 0xbebfbc70,
    0x289b7ec6, 0xeaa127fa, 0xd4ef3085, 0x04881d05, 0xd9d4d039, 0xe6db99e5, 0x1fa27cf8, 0xc4ac5665,
    0xf4292244, 0x432aff97, 0xab9423a7, 0xfc93a039, 0x655b59c3, 0x8f0ccc92, 0xffeff47d, 0x85845dd1,
    0x6fa87e4f, 0xfe2ce6e0, 0xa3014314, 0x4e0811a1, 0xf7537e82, 0xbd3af235, 0x2ad7d2bb, 0xeb86d391]

/-- The addition of `UInt32` wraps as `wrapping_add` does. -/
structure Words where
  a : UInt32
  b : UInt32
  c : UInt32
  d : UInt32
  deriving Repr, DecidableEq

def initial : Words := ⟨0x67452301, 0xefcdab89, 0x98badcfe, 0x10325476⟩

/-- `u32::rotate_left`, for shifts from 1 to 31. -/
def rotateLeft (x n : UInt32) : UInt32 := (x <<< n) ||| (x >>> (32 - n))

/-- The body of the loop over `0..64`. -/
def round (m : List UInt32) (w : Words) (i : ℕ) : Words :=
  let (f, g) :=
    if i < 16 then ((w.b &&& w.c) ||| (~~~w.b &&& w.d), i)
    else if i < 32 then ((w.d &&& w.b) ||| (~~~w.d &&& w.c), (5 * i + 1) % 16)
    else if i < 48 then (w.b ^^^ w.c ^^^ w.d, (3 * i + 5) % 16)
    else (w.c ^^^ (w.b ||| ~~~w.d), (7 * i) % 16)
  let f := f + w.a + constants.getD i 0 + m.getD g 0
  ⟨w.d, w.b + rotateLeft f (shifts.getD i 0), w.b, w.c⟩

/-- `u32::from_le_bytes` on each four bytes of a chunk. -/
def wordsOf : List UInt8 → List UInt32
  | b₀ :: b₁ :: b₂ :: b₃ :: rest =>
    (b₀.toUInt32 ||| (b₁.toUInt32 <<< 8) ||| (b₂.toUInt32 <<< 16) ||| (b₃.toUInt32 <<< 24)) ::
      wordsOf rest
  | _ => []

/-- The body of the loop over the chunks. -/
def chunk (w : Words) (bytes : List UInt8) : Words :=
  let v := (List.range 64).foldl (round (wordsOf bytes)) w
  ⟨w.a + v.a, w.b + v.b, w.c + v.c, w.d + v.d⟩

/-- `to_le_bytes`: the lowest `n` bytes, the lowest first. -/
def leBytes (x : ℕ) : ℕ → List UInt8
  | 0 => []
  | n + 1 => UInt8.ofNat x :: leBytes (x / 256) n

/-- The message, a `0x80`, zeros up to 56 modulo 64, and its length in bits. -/
def padded (message : List UInt8) : List UInt8 :=
  padTo 64 56 0 64 (message ++ [0x80]) ++ leBytes (message.length * 8 % 2 ^ 64) 8

def chunks : ℕ → List UInt8 → List (List UInt8)
  | 0, _ => []
  | n + 1, bytes => bytes.take 64 :: chunks n (bytes.drop 64)

def compute (message : List UInt8) : List UInt8 :=
  let bytes := padded message
  let w := (chunks (bytes.length / 64) bytes).foldl chunk initial
  leBytes w.a.toNat 4 ++ leBytes w.b.toNat 4 ++ leBytes w.c.toNat 4 ++ leBytes w.d.toNat 4

end Md5

def md5Hex (input : Text) : Text :=
  (Md5.compute (asBytes input)).flatMap fun b =>
    [Nat.digitChar (b.toNat / 16), Nat.digitChar (b.toNat % 16)]

-- "Test vectors from RFC 1321", as in the tests of the source
example : md5Hex "" = "d41d8cd98f00b204e9800998ecf8427e" := by decide +kernel

example : md5Hex "abc" = "900150983cd24fb0d6963f7d28e17f72" := by decide +kernel

end TrafficCop
