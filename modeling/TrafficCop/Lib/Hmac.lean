import TrafficCop.Lib.Bits

/-!
# The Keyed-Hash Message Authentication Code

HMAC as FIPS 198-1 defines it, for a hash function on bit strings with blocks of `B` bytes.
-/

namespace Hmac

open Bits

def xor (x y : List Bool) : List Bool := List.zipWith Bool.xor x y

def ipad (B : ℕ) : List Bool := bytesBits (List.replicate B 0x36)

def opad (B : ℕ) : List Bool := bytesBits (List.replicate B 0x5c)

/-- Zeros appended to a string, up to a length of `B` bytes. -/
def zeroPad (B : ℕ) (x : List Bool) : List Bool := x ++ List.replicate (8 * B - x.length) false

/-- `K₀`, steps 1 to 3: the key, hashed first if it is longer than a block. -/
def blockKey (H : List Bool → List Bool) (B : ℕ) (K : List Bool) : List Bool :=
  if K.length = 8 * B then K
  else if K.length > 8 * B then zeroPad B (H K)
  else zeroPad B K

/-- Steps 4 to 9. -/
def hmac (H : List Bool → List Bool) (B : ℕ) (K text : List Bool) : List Bool :=
  let K₀ := blockKey H B K
  H (xor K₀ (opad B) ++ H (xor K₀ (ipad B) ++ text))

lemma natBits_xor (w m n : ℕ) : natBits w (m ^^^ n) = xor (natBits w m) (natBits w n) := by
  induction w with
  | zero => rfl
  | succ w ih =>
    rw [natBits, ih, Nat.testBit_xor]
    rfl

lemma bytesBits_zipWith_xor (x y : List UInt8) :
    bytesBits (List.zipWith (· ^^^ ·) x y) = xor (bytesBits x) (bytesBits y) := by
  induction x generalizing y with
  | nil => simp [xor]
  | cons a x ih =>
    cases y with
    | nil => simp [xor]
    | cons b y =>
      have hbyte : byteBits (a ^^^ b) = xor (byteBits a) (byteBits b) := by
        rw [byteBits, UInt8.toNat_xor, natBits_xor]
        rfl
      rw [List.zipWith_cons_cons, bytesBits_cons, bytesBits_cons, bytesBits_cons, ih, hbyte]
      exact (List.zipWith_append (by simp)).symm

end Hmac
