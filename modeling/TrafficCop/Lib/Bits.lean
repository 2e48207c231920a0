import Mathlib.Data.Nat.Bitwise
import Mathlib.Order.Lattice.Nat
import Mathlib.Tactic.Ring

/-!
# Bit strings

Strings of bits as lists, the highest bit first, as the standards on encodings and hash functions
write them.
-/

namespace Bits

open List

/-! ## Numbers -/

/-- The low `w` bits of a number. -/
def natBits : ℕ → ℕ → List Bool
  | 0, _ => []
  | w + 1, n => n.testBit w :: natBits w n

/-- The number that a string spells. -/
def ofBits (bits : List Bool) : ℕ := bits.foldl (fun n b => 2 * n + b.toNat) 0

@[simp] lemma length_natBits (w n : ℕ) : (natBits w n).length = w := by
  induction w with
  | zero => rfl
  | succ w ih => rw [natBits, length_cons, ih]

variable {w m n r : ℕ} {l bits : List Bool}

lemma natBits_congr (h : ∀ i < w, m.testBit i = n.testBit i) : natBits w m = natBits w n := by
  induction w with
  | zero => rfl
  | succ w ih =>
    rw [natBits, natBits, h w (by omega), ih fun i hi => h i (by omega)]

lemma natBits_mod {v : ℕ} (h : w ≤ v) (n : ℕ) : natBits w (n % 2 ^ v) = natBits w n := by
  apply natBits_congr
  intro i hi
  simp [Nat.testBit_mod_two_pow, show i < v by omega]

lemma natBits_zero_right (w : ℕ) : natBits w 0 = replicate w false := by
  induction w with
  | zero => rfl
  | succ w ih => rw [natBits, ih, Nat.zero_testBit, replicate_succ]

lemma natBits_add (a b n : ℕ) : natBits (a + b) n = natBits a (n >>> b) ++ natBits b n := by
  induction a with
  | zero => simp [natBits]
  | succ a ih =>
    rw [show a + 1 + b = a + b + 1 by omega, natBits, natBits, ih, Nat.testBit_shiftRight,
      Nat.add_comm b a]
    rfl

lemma natBits_append {a b : ℕ} (h : m < 2 ^ b) :
    natBits a n ++ natBits b m = natBits (a + b) (n <<< b ||| m) := by
  rw [natBits_add]
  congr 1
  · apply natBits_congr
    intro i _
    have hhigh : m.testBit (b + i) = false := Nat.testBit_eq_false_of_lt
      (h.trans_le (Nat.pow_le_pow_right (by omega) (by omega)))
    simp [Nat.testBit_shiftRight, Nat.testBit_or, Nat.testBit_shiftLeft, hhigh]
  · apply natBits_congr
    intro i hi
    simp [Nat.testBit_or, Nat.testBit_shiftLeft, show ¬b ≤ i by omega]

lemma ofBits_append (l l' : List Bool) :
    ofBits (l ++ l') = ofBits l * 2 ^ l'.length + ofBits l' := by
  have hfold : ∀ (l : List Bool) (n : ℕ), l.foldl (fun n b => 2 * n + b.toNat) n =
      n * 2 ^ l.length + ofBits l := by
    intro l
    induction l with
    | nil => simp [ofBits]
    | cons b l ih =>
      intro n
      rw [ofBits, foldl_cons, foldl_cons, ih, ih, length_cons, pow_succ]
      ring
  rw [ofBits, foldl_append, hfold]
  rfl

lemma ofBits_cons (b : Bool) (l : List Bool) :
    ofBits (b :: l) = b.toNat * 2 ^ l.length + ofBits l := by
  have h := ofBits_append [b] l
  simpa [ofBits] using h

lemma ofBits_lt (l : List Bool) : ofBits l < 2 ^ l.length := by
  induction l with
  | nil => exact Nat.one_pos
  | cons b l ih =>
    rw [ofBits_cons, length_cons, pow_succ]
    cases b <;> simp only [Bool.toNat_false, Bool.toNat_true] <;> omega

lemma ofBits_natBits (w n : ℕ) : ofBits (natBits w n) = n % 2 ^ w := by
  induction w with
  | zero => simp [natBits, ofBits, Nat.mod_one]
  | succ w ih =>
    rw [natBits, ofBits_cons, length_natBits, ih, Nat.toNat_testBit, pow_succ, Nat.mod_mul]
    ring

lemma ofBits_natBits_of_lt (h : n < 2 ^ w) : ofBits (natBits w n) = n := by
  rw [ofBits_natBits, Nat.mod_eq_of_lt h]

lemma ofBits_injective {l' : List Bool} (hlength : l.length = l'.length)
    (h : ofBits l = ofBits l') : l = l' := by
  induction l generalizing l' with
  | nil => exact (length_eq_zero_iff.mp hlength.symm).symm
  | cons b l ih =>
    cases l' with
    | nil => cases hlength
    | cons b' l' =>
      have hlen : l.length = l'.length := Nat.succ.inj hlength
      rw [ofBits_cons, ofBits_cons, hlen] at h
      -- the rest is below the weight of the first bit
      have hl := ofBits_lt l
      have hl' := ofBits_lt l'
      rw [hlen] at hl
      cases b <;> cases b' <;> simp only [Bool.toNat_false, Bool.toNat_true] at h
      · rw [ih hlen (by omega)]
      · omega
      · omega
      · rw [ih hlen (by omega)]

lemma natBits_ofBits (h : l.length = w) : natBits w (ofBits l) = l := by
  subst h
  apply ofBits_injective (length_natBits _ _)
  exact ofBits_natBits_of_lt (ofBits_lt l)

/-! ## Groups -/

section Groups

variable {α : Type*} {k : ℕ}

/-- The first `n` groups of `k` members. -/
def firstGroups (k : ℕ) : ℕ → List α → List (List α)
  | 0, _ => []
  | n + 1, l => l.take k :: firstGroups k n (l.drop k)

/-- The whole groups of `k` members of a list, from the left. -/
def groups (k : ℕ) (l : List α) : List (List α) := firstGroups k (l.length / k) l

lemma groups_append {a : List α} (hk : 0 < k) (ha : a.length = k) (l : List α) :
    groups k (a ++ l) = a :: groups k l := by
  subst ha
  rw [groups, length_append, Nat.add_div_left _ hk, firstGroups, take_left, drop_left]
  rfl

lemma groups_of_lt {l : List α} (h : l.length < k) : groups k l = [] := by
  rw [groups, Nat.div_eq_of_lt h]
  rfl

lemma groups_induction {motive : List α → Prop} (hk : 0 < k)
    (short : ∀ l, l.length < k → motive l)
    (group : ∀ a l, a.length = k → motive l → motive (a ++ l)) (l : List α) : motive l := by
  induction hn : l.length using Nat.strong_induction_on generalizing l with
  | _ n ih =>
    subst hn
    by_cases hlt : l.length < k
    · exact short l hlt
    · rw [← take_append_drop k l]
      apply group
      · rw [length_take]
        omega
      · exact ih _ (by rw [length_drop]; omega) _ rfl

lemma groups_append_of_dvd {l : List α} (hk : 0 < k) (hl : k ∣ l.length) (l' : List α) :
    groups k (l ++ l') = groups k l ++ groups k l' := by
  induction l using groups_induction hk with
  | short l h =>
    rw [length_eq_zero_iff.mp (Nat.eq_zero_of_dvd_of_lt hl h), groups_of_lt (l := []) hk]
    rfl
  | group a l ha ih =>
    rw [length_append, ha, Nat.dvd_add_right (Nat.dvd_refl k)] at hl
    rw [append_assoc, groups_append hk ha, groups_append hk ha, ih hl, cons_append]

lemma length_of_mem_groups {l g : List α} (hk : 0 < k) (hg : g ∈ groups k l) : g.length = k := by
  induction l using groups_induction hk with
  | short l h =>
    rw [groups_of_lt h] at hg
    cases hg
  | group a l ha ih =>
    rw [groups_append hk ha] at hg
    rcases mem_cons.mp hg with rfl | hg
    · exact ha
    · exact ih hg

lemma flatten_groups {l : List α} (hk : 0 < k) (hl : k ∣ l.length) :
    (groups k l).flatten = l := by
  induction l using groups_induction hk with
  | short l h =>
    rw [groups_of_lt h, length_eq_zero_iff.mp (Nat.eq_zero_of_dvd_of_lt hl h)]
    rfl
  | group a l ha ih =>
    rw [length_append, ha, Nat.dvd_add_right (Nat.dvd_refl k)] at hl
    rw [groups_append hk ha, flatten_cons, ih hl]

lemma length_groups (hk : 0 < k) (l : List α) : (groups k l).length = l.length / k := by
  induction l using groups_induction hk with
  | short l h => rw [groups_of_lt h, Nat.div_eq_of_lt h, length_nil]
  | group a l ha ih =>
    rw [groups_append hk ha, length_cons, ih, length_append, ha, Nat.add_div_left _ hk]

end Groups

/-! ## Bytes -/

/-- A byte as a bit string. -/
def byteBits (b : UInt8) : List Bool := natBits 8 b.toNat

def bytesBits (bytes : List UInt8) : List Bool := bytes.flatMap byteBits

/-- The whole bytes of a bit string. -/
def octets (bits : List Bool) : List UInt8 := (groups 8 bits).map fun g => UInt8.ofNat (ofBits g)

@[simp] lemma length_byteBits (b : UInt8) : (byteBits b).length = 8 := length_natBits 8 _

@[simp] lemma bytesBits_nil : bytesBits [] = [] := rfl

@[simp] lemma bytesBits_cons (b : UInt8) (bytes : List UInt8) :
    bytesBits (b :: bytes) = byteBits b ++ bytesBits bytes := rfl

variable (bytes : List UInt8)

@[simp] lemma bytesBits_append (bytes' : List UInt8) :
    bytesBits (bytes ++ bytes') = bytesBits bytes ++ bytesBits bytes' := flatMap_append

@[simp] lemma length_bytesBits : (bytesBits bytes).length = 8 * bytes.length := by
  induction bytes with
  | nil => rfl
  | cons b bytes ih =>
    rw [bytesBits_cons, length_append, ih, length_byteBits, length_cons]
    omega

lemma bytesBits_take (n : ℕ) (bytes : List UInt8) :
    bytesBits (bytes.take n) = (bytesBits bytes).take (8 * n) := by
  induction bytes generalizing n with
  | nil => simp
  | cons b bytes ih =>
    cases n with
    | zero => rfl
    | succ n =>
      rw [take_succ_cons, bytesBits_cons, bytesBits_cons, ih, Nat.mul_succ, Nat.add_comm,
        ← length_byteBits b, take_length_add_append, length_byteBits]

lemma octets_of_lt (h : bits.length < 8) : octets bits = [] := by
  rw [octets, groups_of_lt h]
  rfl

lemma octets_natBits_append (n : ℕ) (bits : List Bool) :
    octets (natBits 8 n ++ bits) = UInt8.ofNat n :: octets bits := by
  rw [octets, groups_append (by omega) (length_natBits 8 n), map_cons, ofBits_natBits]
  congr 1
  exact UInt8.toNat_inj.mp (by simp)

lemma octets_bytesBits (h : bits.length < 8) : octets (bytesBits bytes ++ bits) = bytes := by
  induction bytes with
  | nil => exact octets_of_lt h
  | cons b bytes ih =>
    rw [bytesBits_cons, append_assoc, byteBits, octets_natBits_append, ih, UInt8.ofNat_toNat]

lemma octets_eq_iff {bytes : List UInt8} :
    octets bits = bytes ↔ ∃ fill : List Bool, fill.length < 8 ∧ bits = bytesBits bytes ++ fill := by
  constructor
  · intro h
    induction bits using groups_induction (k := 8) (by omega) generalizing bytes with
    | short bits hlt =>
      rw [octets_of_lt hlt] at h
      exact ⟨bits, hlt, by rw [← h, bytesBits_nil, nil_append]⟩
    | group a bits ha ih =>
      rw [← natBits_ofBits ha, octets_natBits_append] at h
      obtain ⟨fill, hfill, hbits⟩ := ih rfl
      refine ⟨fill, hfill, ?_⟩
      rw [← h, bytesBits_cons, byteBits, UInt8.toNat_ofNat', natBits_mod (Nat.le_refl 8),
        natBits_ofBits ha, append_assoc, ← hbits]
  · intro h
    obtain ⟨fill, hfill, rfl⟩ := h
    exact octets_bytesBits bytes hfill

lemma groups_bytesBits (hm : 0 < m) (bytes : List UInt8) :
    groups (8 * m) (bytesBits bytes) = (groups m bytes).map bytesBits := by
  induction bytes using groups_induction hm with
  | short bytes h =>
    rw [groups_of_lt h, groups_of_lt (by rw [length_bytesBits]; omega)]
    rfl
  | group a bytes ha ih =>
    rw [bytesBits_append, groups_append (by omega) (by rw [length_bytesBits, ha]),
      groups_append hm ha, ih, map_cons]

lemma ofBits_bytesBits :
    ofBits (bytesBits bytes) = bytes.foldl (fun n b => n * 256 + b.toNat) 0 := by
  induction bytes using reverseRecOn with
  | nil => rfl
  | append_singleton bytes b ih =>
    rw [bytesBits_append, ofBits_append, ih, foldl_append, bytesBits_cons, bytesBits_nil,
      append_nil, length_byteBits, byteBits, ofBits_natBits_of_lt b.toNat_lt]
    rfl

lemma bytesBits_replicate_zero (n : ℕ) : bytesBits (replicate n 0) = replicate (8 * n) false := by
  induction n with
  | zero => rfl
  | succ n ih =>
    rw [replicate_succ, bytesBits_cons, ih, Nat.mul_succ, Nat.add_comm, replicate_add]
    rfl

/-! ## Padding -/

/-- "the smallest, non-negative solution" `k` of `length + 1 + k ≡ r (mod m)`: the zeros behind the
1 that ends a message. -/
noncomputable def zeros (m r length : ℕ) : ℕ := sInf {k | (length + 1 + k) % m = r}

lemma zeros_eq {length k : ℕ} (hk : (length + 1 + k) % m = r)
    (hbefore : ∀ j < k, (length + 1 + j) % m ≠ r) : zeros m r length = k := by
  have hmem : k ∈ {k | (length + 1 + k) % m = r} := hk
  have hle : zeros m r length ≤ k := Nat.sInf_le hmem
  by_contra hne
  exact hbefore (zeros m r length) (by omega) (Nat.sInf_mem ⟨k, hmem⟩)

lemma zeros_bytes {bytes d : ℕ} (hd : (bytes + 1 + d) % m = r)
    (hbefore : ∀ j < d, (bytes + 1 + j) % m ≠ r) :
    zeros (8 * m) (8 * r) (8 * bytes) = 7 + 8 * d := by
  apply zeros_eq
  · rw [show 8 * bytes + 1 + (7 + 8 * d) = 8 * (bytes + 1 + d) by omega, Nat.mul_mod_mul_left, hd]
  · intro j hj h
    -- a solution is a whole number of bytes behind the 1
    have hdvd : 8 ∣ 8 * bytes + 1 + j := by
      rw [← Nat.mod_add_div (8 * bytes + 1 + j) (8 * m), h, Nat.mul_assoc]
      exact Nat.dvd_add (Nat.dvd_mul_right 8 r) (Nat.dvd_mul_right 8 _)
    obtain ⟨i, rfl⟩ : ∃ i, j = 7 + 8 * i := ⟨j / 8, by omega⟩
    rw [show 8 * bytes + 1 + (7 + 8 * i) = 8 * (bytes + 1 + i) by omega, Nat.mul_mod_mul_left] at h
    exact hbefore i (by omega) (Nat.eq_of_mul_eq_mul_left (by omega) h)

lemma exists_fill (hr : r < m) (bytes : ℕ) :
    ∃ d < m, (bytes + 1 + d) % m = r ∧ ∀ j < d, (bytes + 1 + j) % m ≠ r := by
  have hex : ∃ d, (bytes + 1 + d) % m = r := by
    refine ⟨m * (bytes + 1) - (bytes + 1) + r, ?_⟩
    have hle : bytes + 1 ≤ m * (bytes + 1) := Nat.le_mul_of_pos_left _ (by omega)
    rw [show bytes + 1 + (m * (bytes + 1) - (bytes + 1) + r) = r + m * (bytes + 1) by omega,
      Nat.add_mul_mod_self_left, Nat.mod_eq_of_lt hr]
  refine ⟨Nat.find hex, ?_, Nat.find_spec hex, fun j hj => Nat.find_min hex hj⟩
  by_contra hge
  refine Nat.find_min hex (m := Nat.find hex - m) (by omega) ?_
  rw [← Nat.add_mod_right,
    show bytes + 1 + (Nat.find hex - m) + m = bytes + 1 + Nat.find hex by omega]
  exact Nat.find_spec hex

lemma bytesBits_marker (d : ℕ) :
    bytesBits (0x80 :: replicate d 0) = true :: replicate (7 + 8 * d) false := by
  have hmark : byteBits 0x80 = true :: replicate 7 false := by decide
  rw [bytesBits_cons, bytesBits_replicate_zero, hmark, replicate_add]
  rfl

end Bits
