import Mathlib.Data.List.Basic

/-!
# Fields with a length in front

Byte strings of network formats: numbers of two bytes, the higher one first, and fields that start
with their length.
-/

namespace Wire

open List Option

abbrev Bytes := List UInt8

/-- Two bytes, the higher one first. -/
def u16 (n : ℕ) : Bytes := [UInt8.ofNat (n / 256), UInt8.ofNat (n % 256)]

/-- A field that starts with its length in one byte. -/
def vec8 (body : Bytes) : Bytes := UInt8.ofNat body.length :: body

/-- A field that starts with its length in two bytes. -/
def vec16 (body : Bytes) : Bytes := u16 body.length ++ body

@[simp] lemma length_u16 (n : ℕ) : (u16 n).length = 2 := rfl

@[simp] lemma length_vec16 (body : Bytes) : (vec16 body).length = body.length + 2 := by
  rw [vec16, length_append, length_u16, Nat.add_comm]

/-- Readers give the field and what comes behind it, or nothing if the input is too short. -/
def readU16 : Bytes → Option (ℕ × Bytes)
  | hi :: lo :: rest => some (256 * hi.toNat + lo.toNat, rest)
  | _ => none

def readBody (n : ℕ) (input : Bytes) : Option (Bytes × Bytes) :=
  if n ≤ input.length then some (input.take n, input.drop n) else none

def readVec8 : Bytes → Option (Bytes × Bytes)
  | n :: rest => readBody n.toNat rest
  | [] => none

def readVec16 (input : Bytes) : Option (Bytes × Bytes) :=
  (readU16 input).bind fun (n, rest) => readBody n rest

/-- Skips a field, without a look whether all of it is there. -/
def skipVec8 {α : Type} (f : Bytes → Option α) : Bytes → Option α
  | n :: rest => f (rest.drop n.toNat)
  | [] => none

def skipVec16 {α : Type} (f : Bytes → Option α) (input : Bytes) : Option α :=
  (readU16 input).bind fun p => f (p.2.drop p.1)

variable {input rest body : Bytes} {n : ℕ}

/-- **When a reader succeeds.** -/
lemma readU16_eq_some : readU16 input = some (n, rest) ↔ n < 65536 ∧ input = u16 n ++ rest := by
  constructor
  · intro h
    rcases input with _ | ⟨hi, _ | ⟨lo, input⟩⟩
    · cases h
    · cases h
    · obtain ⟨rfl, rfl⟩ := Prod.mk.inj (Option.some.inj h)
      have hhi := hi.toNat_lt
      have hlo := lo.toNat_lt
      refine ⟨by omega, ?_⟩
      have hdiv : (256 * hi.toNat + lo.toNat) / 256 = hi.toNat := by omega
      have hmod : (256 * hi.toNat + lo.toNat) % 256 = lo.toNat := by omega
      rw [u16, hdiv, hmod, UInt8.ofNat_toNat, UInt8.ofNat_toNat]
      rfl
  · rintro ⟨hn, rfl⟩
    have hdiv : (UInt8.ofNat (n / 256)).toNat = n / 256 := UInt8.toNat_ofNat_of_lt (by
      show n / 256 < 256
      omega)
    have hmod : (UInt8.ofNat (n % 256)).toNat = n % 256 := UInt8.toNat_ofNat_of_lt (by
      show n % 256 < 256
      omega)
    show some (256 * (UInt8.ofNat (n / 256)).toNat + (UInt8.ofNat (n % 256)).toNat, rest) = _
    rw [hdiv, hmod, Nat.div_add_mod]

lemma exists_u16 (h : 2 ≤ input.length) : ∃ n rest, n < 65536 ∧ input = u16 n ++ rest := by
  obtain ⟨hi, tail, rfl⟩ := exists_cons_of_length_pos (show 0 < input.length by omega)
  rw [length_cons] at h
  obtain ⟨lo, rest, rfl⟩ := exists_cons_of_length_pos (show 0 < tail.length by omega)
  exact ⟨_, rest, readU16_eq_some.mp rfl⟩

lemma readU16_append (hn : n < 65536) (rest : Bytes) : readU16 (u16 n ++ rest) = some (n, rest) :=
  readU16_eq_some.mpr ⟨hn, rfl⟩

lemma readBody_eq_some :
    readBody n input = some (body, rest) ↔ body.length = n ∧ input = body ++ rest := by
  rw [readBody]
  constructor
  · intro h
    split at h
    · next hle =>
      obtain ⟨rfl, rfl⟩ := Prod.mk.inj (Option.some.inj h)
      exact ⟨length_take_of_le hle, (take_append_drop n input).symm⟩
    · cases h
  · rintro ⟨rfl, rfl⟩
    rw [if_pos (by simp), take_left, drop_left]

section Skip

variable {α : Type} {f : Bytes → Option α} (hf : f [] = none)

include hf

/-- A reader that needs at least one byte may come behind a field that is skipped. -/
lemma readBody_bind (n : ℕ) (input : Bytes) :
    ((readBody n input).bind fun p => f p.2) = f (input.drop n) := by
  rw [readBody]
  split
  · rfl
  · next hshort =>
    rw [drop_eq_nil_of_le (by omega), hf]
    rfl

/-- Skipping a field without a look at its end. -/
lemma readVec8_bind (input : Bytes) :
    ((readVec8 input).bind fun p => f p.2) = skipVec8 f input := by
  cases input with
  | nil => rfl
  | cons n rest => exact readBody_bind hf n.toNat rest

lemma readVec16_bind (input : Bytes) :
    ((readVec16 input).bind fun p => f p.2) = skipVec16 f input := by
  rw [readVec16, skipVec16, bind_assoc]
  congr 1
  funext p
  exact readBody_bind hf p.1 p.2

end Skip

lemma readVec8_eq_some :
    readVec8 input = some (body, rest) ↔ body.length < 256 ∧ input = vec8 body ++ rest := by
  constructor
  · intro h
    cases input with
    | nil => cases h
    | cons n input =>
      obtain ⟨hlength, rfl⟩ := readBody_eq_some.mp h
      have hn := n.toNat_lt
      refine ⟨by omega, ?_⟩
      rw [vec8, hlength, UInt8.ofNat_toNat]
      rfl
  · rintro ⟨hlength, rfl⟩
    refine readBody_eq_some.mpr ⟨?_, rfl⟩
    exact (UInt8.toNat_ofNat_of_lt hlength).symm

lemma readVec16_eq_some :
    readVec16 input = some (body, rest) ↔ body.length < 65536 ∧ input = vec16 body ++ rest := by
  rw [readVec16, bind_eq_some_iff]
  constructor
  · rintro ⟨⟨n, input'⟩, hn, hbody⟩
    obtain ⟨hlt, rfl⟩ := readU16_eq_some.mp hn
    obtain ⟨rfl, rfl⟩ := readBody_eq_some.mp hbody
    exact ⟨hlt, (append_assoc _ _ _).symm⟩
  · rintro ⟨hlength, rfl⟩
    refine ⟨(body.length, body ++ rest), ?_, readBody_eq_some.mpr ⟨rfl, rfl⟩⟩
    rw [vec16, append_assoc]
    exact readU16_append hlength _

end Wire
