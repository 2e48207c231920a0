import TrafficCop.Lib.Bits

/-!
# Base64

The encodings of RFC 4648, sections 4 and 5, over bit strings.
-/

namespace Base64

open Bits List Option

/-- 64 different characters, none of them the pad. -/
structure Alphabet where
  chars : List Char
  length_eq : chars.length = 64
  nodup : chars.Nodup
  pad_notMem : '=' ∉ chars

namespace Alphabet

/-- Table 1: "The Base 64 Alphabet". -/
def standard : Alphabet where
  chars := "ABCDEFGHIJKLMNOPQRSTUVWXYZabcdefghijklmnopqrstuvwxyz0123456789+/".toList
  length_eq := rfl
  nodup := by decide +kernel
  pad_notMem := by decide +kernel

/-- Table 2: "The URL and Filename safe Base 64 Alphabet". -/
def urlSafe : Alphabet where
  chars := "ABCDEFGHIJKLMNOPQRSTUVWXYZabcdefghijklmnopqrstuvwxyz0123456789-_".toList
  length_eq := rfl
  nodup := by decide +kernel
  pad_notMem := by decide +kernel

variable (A : Alphabet)

def char (i : ℕ) : Char := A.chars.getD i '='

def value (c : Char) : Option ℕ := A.chars.idxOf? c

lemma value_eq_some_iff {c : Char} {i : ℕ} : A.value c = some i ↔ i < 64 ∧ A.char i = c := by
  rw [value, char, getD_eq_getElem?_getD, idxOf?_eq_some_iff]
  constructor
  · intro h
    obtain ⟨hlt, hget, -⟩ := h
    rw [getElem?_eq_getElem hlt, getD_some]
    exact ⟨A.length_eq ▸ hlt, hget⟩
  · intro h
    obtain ⟨hlt, hget⟩ := h
    rw [← A.length_eq] at hlt
    rw [getElem?_eq_getElem hlt, getD_some] at hget
    refine ⟨hlt, hget, ?_⟩
    intro j hj heq
    have := (List.Nodup.getElem_inj_iff A.nodup).mp (heq.trans hget.symm)
    omega

lemma value_char {i : ℕ} (h : i < 64) : A.value (A.char i) = some i :=
  A.value_eq_some_iff.mpr ⟨h, rfl⟩

lemma char_mem {i : ℕ} (h : i < 64) : A.char i ∈ A.chars := by
  rw [← A.length_eq] at h
  rw [char, getD_eq_getElem _ _ h]
  exact getElem_mem h

end Alphabet

/-! ## Encoding -/

/-- Groups of six bits, the last one filled with zeros. -/
def sextets (bits : List Bool) : List ℕ :=
  (groups 6 (bits ++ replicate ((6 - bits.length % 6) % 6) false)).map ofBits

/-- Each group is the index of a character. -/
def encodeUnpadded (A : Alphabet) (bytes : List UInt8) : List Char :=
  (sextets (bytesBits bytes)).map A.char

def padding (length : ℕ) : List Char := replicate ((4 - length % 4) % 4) '='

/-- Filled up with `=` to a multiple of four. -/
def encode (A : Alphabet) (bytes : List UInt8) : List Char :=
  encodeUnpadded A bytes ++ padding (encodeUnpadded A bytes).length

@[simp] lemma sextets_nil : sextets [] = [] := rfl

variable {n : ℕ} {bits : List Bool} {values : List ℕ} {bytes : List UInt8} {text : List Char}

lemma sextets_natBits_append (hn : n < 64) (bits : List Bool) :
    sextets (natBits 6 n ++ bits) = n :: sextets bits := by
  rw [sextets, length_append, length_natBits, Nat.add_mod_left, append_assoc,
    groups_append (by omega) (length_natBits 6 n), map_cons, ofBits_natBits_of_lt hn]
  rfl

lemma sextets_fill (bits : List Bool) :
    sextets (bits ++ replicate ((6 - bits.length % 6) % 6) false) = sextets bits := by
  have hlength : (6 - (bits ++ replicate ((6 - bits.length % 6) % 6) false).length % 6) % 6 =
      0 := by
    rw [length_append, length_replicate]
    omega
  rw [sextets, hlength, replicate_zero, append_nil]
  rfl

lemma sextets_append (h : 6 ∣ bits.length) (bits' : List Bool) :
    sextets (bits ++ bits') = sextets bits ++ sextets bits' := by
  have hwhole : (6 - bits.length % 6) % 6 = 0 := by omega
  rw [sextets, sextets, sextets, hwhole, replicate_zero, append_nil, length_append,
    Nat.add_mod, Nat.mod_eq_zero_of_dvd h, Nat.zero_add, Nat.mod_mod, append_assoc,
    groups_append_of_dvd (by omega) h, map_append]

@[simp] lemma length_sextets (bits : List Bool) :
    (sextets bits).length = (bits.length + 5) / 6 := by
  rw [sextets, length_map, length_groups (by omega), length_append, length_replicate]
  omega

lemma lt_of_mem_sextets (h : n ∈ sextets bits) : n < 64 := by
  obtain ⟨g, hg, rfl⟩ := mem_map.mp h
  have hlt := ofBits_lt g
  rwa [length_of_mem_groups (by omega) hg] at hlt

lemma flatMap_sextets (bits : List Bool) :
    (sextets bits).flatMap (natBits 6) = bits ++ replicate ((6 - bits.length % 6) % 6) false := by
  have hdvd : 6 ∣ (bits ++ replicate ((6 - bits.length % 6) % 6) false).length := by
    rw [length_append, length_replicate]
    omega
  have hgroups : ∀ g ∈ groups 6 (bits ++ replicate ((6 - bits.length % 6) % 6) false),
      natBits 6 (ofBits g) = g := fun g hg => natBits_ofBits (length_of_mem_groups (by omega) hg)
  rw [sextets, flatMap_map, flatMap_congr hgroups]
  simpa using flatten_groups (by omega) hdvd

lemma sextets_flatMap (h : ∀ v ∈ values, v < 64) :
    sextets (values.flatMap (natBits 6)) = values := by
  induction values with
  | nil => rfl
  | cons v values ih =>
    rw [flatMap_cons, sextets_natBits_append (h v mem_cons_self),
      ih fun v hv => h v (mem_cons_of_mem _ hv)]

lemma sextets_natBits {bits : ℕ} (hpos : 0 < bits) (hlt : bits < 6) :
    sextets (natBits bits n) = [n <<< (6 - bits) % 64] := by
  have hfill : natBits bits n ++ replicate (6 - bits) false =
      natBits 6 (n <<< (6 - bits) % 64) := by
    rw [← natBits_zero_right, natBits_append (Nat.two_pow_pos _), Nat.or_zero,
      show bits + (6 - bits) = 6 by omega]
    exact (natBits_mod (Nat.le_refl 6) _).symm
  have hlast := sextets_fill (natBits bits n)
  rw [length_natBits, show (6 - bits % 6) % 6 = 6 - bits by omega, hfill,
    ← append_nil (natBits 6 _), sextets_natBits_append (Nat.mod_lt _ (by omega))] at hlast
  exact hlast.symm

lemma encodeUnpadded_of_groups {A : Alphabet} (hvalues : ∀ v ∈ values, v < 64)
    (h : bytesBits bytes ++ replicate ((6 - 8 * bytes.length % 6) % 6) false =
      values.flatMap (natBits 6)) : encodeUnpadded A bytes = values.map A.char := by
  rw [encodeUnpadded, ← sextets_fill, length_bytesBits, h, sextets_flatMap hvalues]

lemma mem_encodeUnpadded {A : Alphabet} {c : Char}
    (h : c ∈ encodeUnpadded A bytes) : c ∈ A.chars := by
  obtain ⟨n, hn, rfl⟩ := mem_map.mp h
  exact A.char_mem (lt_of_mem_sextets hn)

variable (A : Alphabet)

lemma length_encodeUnpadded (bytes : List UInt8) :
    (encodeUnpadded A bytes).length = (8 * bytes.length + 5) / 6 := by
  rw [encodeUnpadded, length_map, length_sextets, length_bytesBits]

lemma encode_append (h : 3 ∣ bytes.length)
    (bytes' : List UInt8) : encode A (bytes ++ bytes') = encode A bytes ++ encode A bytes' := by
  have hbits : 6 ∣ (bytesBits bytes).length := by
    rw [length_bytesBits]
    omega
  have hjoin : encodeUnpadded A (bytes ++ bytes') =
      encodeUnpadded A bytes ++ encodeUnpadded A bytes' := by
    rw [encodeUnpadded, bytesBits_append, sextets_append hbits, map_append]
    rfl
  have hlength : (encodeUnpadded A bytes).length % 4 = 0 := by
    rw [length_encodeUnpadded]
    omega
  rw [encode, encode, encode, hjoin, length_append, padding, padding, padding, Nat.add_mod,
    hlength, Nat.zero_add, Nat.mod_mod, append_assoc, append_assoc]
  rfl

lemma padding_eq_nil_iff (bytes : List UInt8) :
    padding (encodeUnpadded A bytes).length = [] ↔ 3 ∣ bytes.length := by
  rw [padding, replicate_eq_nil_iff, length_encodeUnpadded]
  omega

/-! ## Decoding -/

def spelled (values : List ℕ) : List UInt8 := octets (values.flatMap (natBits 6))

/-- The bytes that a text spells. -/
def decode (A : Alphabet) (text : List Char) : Option (List UInt8) :=
  (text.mapM A.value).map spelled

lemma mapM_value_map_char (h : ∀ v ∈ values, v < 64) :
    (values.map A.char).mapM A.value = some values := by
  induction values with
  | nil => rfl
  | cons v values ih =>
    rw [map_cons, mapM_cons, A.value_char (h v mem_cons_self),
      ih fun v hv => h v (mem_cons_of_mem _ hv)]
    rfl

lemma spelled_sextets (bytes : List UInt8) : spelled (sextets (bytesBits bytes)) = bytes := by
  rw [spelled, flatMap_sextets, octets_bytesBits bytes]
  rw [length_replicate]
  omega

/-- Decoding inverts encoding. -/
lemma decode_encodeUnpadded (bytes : List UInt8) :
    decode A (encodeUnpadded A bytes) = some bytes := by
  rw [decode, encodeUnpadded, mapM_value_map_char A fun v => lt_of_mem_sextets, map_some,
    spelled_sextets]

lemma mapM_value_eq_some {A : Alphabet} (h : text.mapM A.value = some values) :
    text = values.map A.char ∧ ∀ v ∈ values, v < 64 := by
  induction text generalizing values with
  | nil =>
    cases h
    simp
  | cons c text ih =>
    rw [mapM_cons] at h
    obtain ⟨v, hv, h⟩ := bind_eq_some_iff.mp h
    obtain ⟨rest, hrest, h⟩ := bind_eq_some_iff.mp h
    cases h
    obtain ⟨hmap, hlt⟩ := ih hrest
    obtain ⟨hvlt, hchar⟩ := A.value_eq_some_iff.mp hv
    exact ⟨by rw [map_cons, hchar, hmap], forall_mem_cons.mpr ⟨hvlt, hlt⟩⟩

/-- **All texts that decode to given bytes**: behind the bits of the bytes any bits may stand, up to
the end of a character, if fewer than eight. -/
theorem decode_eq_some_iff {A : Alphabet} :
    decode A text = some bytes ↔ ∃ fill : List Bool, fill.length < 8 ∧
      6 ∣ 8 * bytes.length + fill.length ∧
      text = (sextets (bytesBits bytes ++ fill)).map A.char := by
  constructor
  · intro h
    obtain ⟨values, hvalues, hbytes⟩ := map_eq_some_iff.mp h
    obtain ⟨hmap, hlt⟩ := mapM_value_eq_some hvalues
    obtain ⟨fill, hfill, hbits⟩ := octets_eq_iff.mp hbytes
    refine ⟨fill, hfill, ?_, by rw [← hbits, hmap, sextets_flatMap hlt]⟩
    have hlength := congrArg length hbits
    rw [length_flatMap, length_append, length_bytesBits] at hlength
    simp only [length_natBits, map_const', sum_replicate_nat] at hlength
    exact ⟨values.length, by omega⟩
  · intro h
    obtain ⟨fill, hfill, hdvd, rfl⟩ := h
    have hwhole : (6 - (bytesBits bytes ++ fill).length % 6) % 6 = 0 := by
      rw [length_append, length_bytesBits]
      omega
    rw [decode, mapM_value_map_char A fun v => lt_of_mem_sextets, map_some, spelled,
      flatMap_sextets, hwhole, replicate_zero, append_nil, octets_bytesBits bytes hfill]

/-- The byte written when `total` unwritten bits at the low end of `n` are enough. -/
lemma octets_written {total : ℕ} (h : 8 ≤ total) (n : ℕ) (rest : List Bool) :
    octets (natBits total n ++ rest) =
      UInt8.ofNat (n >>> (total - 8)) :: octets (natBits (total - 8) n ++ rest) := by
  have hcut := natBits_add 8 (total - 8) n
  rw [show 8 + (total - 8) = total by omega] at hcut
  rw [hcut, append_assoc, octets_natBits_append]

end Base64
