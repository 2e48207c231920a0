import Mathlib.Data.List.Basic

/-!
# Percent-encoding

A byte is written as `%` and two hexadecimal digits in upper case (`escape`).
-/

namespace Percent

open List Option

def hexDigit (n : ℕ) : Char := if n < 10 then Char.ofNat (48 + n) else Char.ofNat (55 + n)

/-- A byte as `%` and its two digits. -/
def escape (b : UInt8) : List Char := ['%', hexDigit (b.toNat / 16), hexDigit (b.toNat % 16)]

def digitValue (c : Char) : Option ℕ :=
  if '0' ≤ c ∧ c ≤ '9' then some (c.toNat - 48)
  else if 'A' ≤ c ∧ c ≤ 'F' then some (c.toNat - 55)
  else if 'a' ≤ c ∧ c ≤ 'f' then some (c.toNat - 87)
  else none

def escaped (a b : Char) : Option UInt8 :=
  (digitValue a).bind fun hi => (digitValue b).map fun lo => UInt8.ofNat (16 * hi + lo)

/-- Escapes are their bytes, any other character has the bytes of its UTF-8 encoding, and a `%` that
does not start an escape stands for itself. -/
def decode : List Char → List UInt8
  | '%' :: a :: b :: rest =>
    match escaped a b with
    | some byte => byte :: decode rest
    | none => String.utf8EncodeChar '%' ++ decode (a :: b :: rest)
  | c :: rest => String.utf8EncodeChar c ++ decode rest
  | [] => []

/-- Some characters stand for themselves, all else is escaped in upper case. -/
inductive Encoded (plain : Char → Bool) : List Char → Prop where
  | nil : Encoded plain []
  | plain {c : Char} {s : List Char} (hc : plain c = true) (h : Encoded plain s) :
    Encoded plain (c :: s)
  | escape (b : UInt8) {s : List Char} (h : Encoded plain s) : Encoded plain (Percent.escape b ++ s)

lemma digitValue_hexDigit {n : ℕ} (h : n < 16) : digitValue (hexDigit n) = some n := by
  have hall : ∀ n : Fin 16, digitValue (hexDigit n) = some n.val := by decide
  exact hall ⟨n, h⟩

lemma escaped_hexDigit (b : UInt8) :
    escaped (hexDigit (b.toNat / 16)) (hexDigit (b.toNat % 16)) = some b := by
  have hb := b.toNat_lt
  rw [escaped, digitValue_hexDigit (by omega), digitValue_hexDigit (by omega), bind_some,
    map_some, Nat.div_add_mod, UInt8.ofNat_toNat]

lemma decode_escape (b : UInt8) (rest : List Char) :
    decode (escape b ++ rest) = b :: decode rest := by
  show decode ('%' :: hexDigit (b.toNat / 16) :: hexDigit (b.toNat % 16) :: rest) = _
  rw [decode, escaped_hexDigit]

/-- Escapes decode so, whatever comes behind. -/
lemma decode_escapes (bytes : List UInt8) (rest : List Char) :
    decode (bytes.flatMap escape ++ rest) = bytes ++ decode rest := by
  induction bytes with
  | nil => rfl
  | cons b bytes ih =>
    rw [flatMap_cons, append_assoc, decode_escape, ih, cons_append]

lemma decode_cons {c : Char} (hc : c ≠ '%') (rest : List Char) :
    decode (c :: rest) = String.utf8EncodeChar c ++ decode rest := by
  rw [decode]
  rintro a b rest' h
  exact absurd h hc

lemma Encoded.append {plain : Char → Bool} {s t : List Char} (hs : Encoded plain s)
    (ht : Encoded plain t) : Encoded plain (s ++ t) := by
  induction hs with
  | nil => exact ht
  | plain hc _ ih => exact .plain hc ih
  | escape b _ ih =>
    rw [append_assoc]
    exact .escape b ih

lemma Encoded.escapes {plain : Char → Bool} (bytes : List UInt8) :
    Encoded plain (bytes.flatMap Percent.escape) := by
  induction bytes with
  | nil => exact .nil
  | cons b bytes ih =>
    rw [flatMap_cons]
    exact .escape b ih

lemma Encoded.forall_mem {plain p : Char → Bool} {s : List Char} (h : Encoded plain s)
    (hplain : ∀ c, plain c → p c) (hpercent : p '%')
    (hdigits : ∀ n < 16, p (hexDigit n)) : ∀ c ∈ s, p c := by
  induction h with
  | nil => exact fun _ hc => absurd hc not_mem_nil
  | plain hc _ ih => exact forall_mem_cons.mpr ⟨hplain _ hc, ih⟩
  | escape b _ ih =>
    have hb := b.toNat_lt
    refine forall_mem_append.mpr ⟨?_, ih⟩
    intro c hc
    simp only [Percent.escape, mem_cons, not_mem_nil, or_false] at hc
    rcases hc with rfl | rfl | rfl
    · exact hpercent
    · exact hdigits _ (by omega)
    · exact hdigits _ (by omega)

end Percent
