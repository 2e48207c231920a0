import Mathlib.Data.Nat.Digits.Lemmas

/-!
# DER

The distinguished encoding of a value: a tag, the length of the contents and the contents.
-/

namespace Der

open List Option

/-- The bytes of a number, the highest one first and not zero. -/
def bigEndian (n : ℕ) : List UInt8 := ((Nat.digits 256 n).map UInt8.ofNat).reverse

def value (bytes : List UInt8) : ℕ := Nat.ofDigits 256 (bytes.reverse.map UInt8.toNat)

/-- Below 128 one byte; otherwise the number of its bytes, with the highest bit set, and the bytes,
as few as possible. -/
def length (n : ℕ) : List UInt8 :=
  if n < 128 then [UInt8.ofNat n] else UInt8.ofNat (128 + (bigEndian n).length) :: bigEndian n

def tlv (tag : UInt8) (contents : List UInt8) : List UInt8 :=
  tag :: (length contents.length ++ contents)

/-! ## Reading -/

def readLength : List UInt8 → Option (ℕ × List UInt8)
  | b :: rest =>
    let k := b.toNat - 128
    let n := if b.toNat < 128 then b.toNat else value (rest.take k)
    -- no other way to write it is accepted
    if length n = b :: rest.take k then some (n, rest.drop k) else none
  | [] => none

/-- The tag and the contents of a value, and what stands behind it. -/
def read : List UInt8 → Option (UInt8 × List UInt8 × List UInt8)
  | tag :: rest => (readLength rest).bind fun r =>
    if r.1 ≤ r.2.length then some (tag, r.2.take r.1, r.2.drop r.1) else none
  | [] => none

def only (tag : UInt8) (bytes : List UInt8) : Option (List UInt8) :=
  (read bytes).bind fun r => if r.1 = tag ∧ r.2.2 = [] then some r.2.1 else none

/-- What stands behind this value. -/
def behind (tag : UInt8) (contents bytes : List UInt8) : Option (List UInt8) :=
  (read bytes).bind fun r => if r.1 = tag ∧ r.2.1 = contents then some r.2.2 else none

/-- The contents of values with this tag, at most `k` of them. -/
def items (tag : UInt8) : ℕ → List UInt8 → Option (List (List UInt8))
  | _, [] => some []
  | 0, _ => none
  | k + 1, bytes => (read bytes).bind fun r =>
    if r.1 = tag then (items tag k r.2.2).map (r.2.1 :: ·) else none

/-! ## What was written is read -/

lemma value_bigEndian (n : ℕ) : value (bigEndian n) = n := by
  have hdigits : (Nat.digits 256 n).map (UInt8.toNat ∘ UInt8.ofNat) = Nat.digits 256 n := by
    refine (map_congr_left fun d hd => ?_).trans (map_id _)
    exact UInt8.toNat_ofNat_of_lt' (Nat.digits_lt_base (by decide) hd)
  rw [value, bigEndian, List.reverse_reverse, List.map_map, hdigits, Nat.ofDigits_digits]

/-- A length is read back, whatever comes behind. -/
lemma readLength_length {n : ℕ} (h : (bigEndian n).length < 128) (rest : List UInt8) :
    readLength (length n ++ rest) = some (n, rest) := by
  by_cases hn : n < 128
  · have hb : (UInt8.ofNat n).toNat = n := UInt8.toNat_ofNat_of_lt' (hn.trans (by decide))
    have hlength : length n = [UInt8.ofNat n] := if_pos hn
    rw [hlength, singleton_append, readLength, hb]
    simp only [hn, if_true, Nat.sub_eq_zero_of_le hn.le, take_zero, drop_zero, hlength]
  · have hlength : length n = UInt8.ofNat (128 + (bigEndian n).length) :: bigEndian n := if_neg hn
    have hb : (UInt8.ofNat (128 + (bigEndian n).length)).toNat = 128 + (bigEndian n).length :=
      UInt8.toNat_ofNat_of_lt' (show _ < 256 by omega)
    rw [hlength, cons_append, readLength, hb]
    simp only [Nat.not_lt.mpr (Nat.le_add_right _ _), if_false, Nat.add_sub_cancel_left,
      take_left, drop_left, value_bigEndian, hlength, if_true]

variable {tag : UInt8} {contents : List UInt8}

lemma read_tlv (h : (bigEndian contents.length).length < 128) (rest : List UInt8) :
    read (tlv tag contents ++ rest) = some (tag, contents, rest) := by
  rw [tlv, cons_append, append_assoc, read, readLength_length h, bind_some,
    if_pos (by simp), take_left, drop_left]

/-- A value is read back, too. -/
lemma only_tlv (h : (bigEndian contents.length).length < 128) :
    only tag (tlv tag contents) = some contents := by
  have hread : read (tlv tag contents) = some (tag, contents, []) := by
    rw [← append_nil (tlv tag contents), read_tlv h]
  rw [only, hread, bind_some, if_pos ⟨rfl, rfl⟩]

lemma behind_tlv (h : (bigEndian contents.length).length < 128) (rest : List UInt8) :
    behind tag contents (tlv tag contents ++ rest) = some rest := by
  rw [behind, read_tlv h, bind_some, if_pos ⟨rfl, rfl⟩]

/-- So is a sequence of values. -/
lemma items_tlv (values : List (List UInt8))
    (h : ∀ c ∈ values, (bigEndian c.length).length < 128) {k : ℕ} (hk : values.length ≤ k) :
    items tag k (values.flatMap (tlv tag)) = some values := by
  induction values generalizing k with
  | nil => rw [flatMap_nil, items]
  | cons c values ih =>
    obtain ⟨hc, hvalues⟩ := forall_mem_cons.mp h
    obtain ⟨k, rfl⟩ := Nat.exists_eq_add_of_le' (Nat.le_trans (Nat.le_add_left 1 _) hk)
    rw [flatMap_cons, items, read_tlv hc, bind_some, if_pos rfl,
      ih hvalues (Nat.le_of_succ_le_succ hk), map_some]
    exact cons_ne_nil _ _

end Der
