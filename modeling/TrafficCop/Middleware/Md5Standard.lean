import TrafficCop.Lib.Rfc1321
import TrafficCop.Middleware.Md5

/-!
# The MD5 of the digest middleware is that of RFC 1321

The source keeps the words of a round in the order in which the next round needs them, computes the
index of the message word, and has the sines in a table.
-/

namespace TrafficCop

open Rust Bits List Function Rfc1321

namespace Md5

/-! ## Bytes and bits -/

lemma fill_eq (n : ℕ) : (n + 1 + (119 - n % 64) % 64) % 64 = 56 ∧
    ∀ j < (119 - n % 64) % 64, (n + 1 + j) % 64 ≠ 56 := by
  refine ⟨by omega, fun j hj => ?_⟩
  omega

variable (message : List UInt8)

lemma padded_eq : padded message = message ++ 0x80 ::
    List.replicate ((119 - message.length % 64) % 64) 0 ++
      leBytes (message.length * 8 % 2 ^ 64) 8 := by
  obtain ⟨hend, hbefore⟩ := fill_eq message.length
  have hloop : padTo 64 56 0 64 (message ++ [0x80]) =
      message ++ [0x80] ++ List.replicate ((119 - message.length % 64) % 64) 0 :=
    padTo_eq _ _ (by omega) (by simpa using hend) (by simpa using hbefore)
  rw [padded, hloop]
  simp

lemma leBytes_eq (x n : ℕ) : leBytes x n = lowBytes n x := by
  induction n generalizing x with
  | zero => rfl
  | succ n ih =>
    rw [leBytes, ih, lowBytes, lowBytes, range_succ_eq_map, map_cons, map_map]
    congr 1
    refine map_congr_left fun j _ => ?_
    rw [comp_apply, Nat.succ_eq_add_one, show 8 * (j + 1) = 8 + 8 * j by omega,
      Nat.shiftRight_add, Nat.shiftRight_eq_div_pow x 8]

lemma lowBytes_mod (x : ℕ) : lowBytes 8 (x % 2 ^ 64) = lowBytes 8 x := by
  refine map_congr_left fun j hj => ?_
  have hlt := mem_range.mp hj
  apply UInt8.toNat_inj.mp
  rw [UInt8.toNat_ofNat', UInt8.toNat_ofNat']
  apply Nat.eq_of_testBit_eq
  intro i
  simp only [Nat.testBit_mod_two_pow, Nat.testBit_shiftRight]
  -- the bits below 64 are all that is needed
  by_cases hi : i < 8
  · rw [decide_eq_true (show 8 * j + i < 64 by omega), Bool.true_and]
  · rw [decide_eq_false hi, Bool.false_and, Bool.false_and]

lemma padded_bits : bytesBits (padded message) = Rfc1321.padded (bytesBits message) := by
  have hzeros := zeros_bytes (fill_eq message.length).1 (fill_eq message.length).2
  rw [padded_eq, bytesBits_append, bytesBits_append, bytesBits_marker, leBytes_eq, lowBytes_mod,
    Rfc1321.padded, length_bytesBits, hzeros, Nat.mul_comm message.length 8]

lemma chunks_eq_groups (bytes : List UInt8) :
    chunks (bytes.length / 64) bytes = groups 64 bytes := by
  have hchunks : ∀ n (bytes : List UInt8), chunks n bytes = firstGroups 64 n bytes := by
    intro n
    induction n with
    | zero => intro bytes; rfl
    | succ n ih => intro bytes; rw [chunks, firstGroups, ih]
  exact hchunks _ bytes

lemma word_eq (b₀ b₁ b₂ b₃ : UInt8) :
    b₀.toUInt32 ||| (b₁.toUInt32 <<< 8) ||| (b₂.toUInt32 <<< 16) ||| (b₃.toUInt32 <<< 24) =
      word (bytesBits [b₀, b₁, b₂, b₃]) := by
  have hbytes : octets (bytesBits [b₀, b₁, b₂, b₃] ++ []) = [b₀, b₁, b₂, b₃] :=
    octets_bytesBits _ (by simp)
  rw [append_nil] at hbytes
  rw [word, hbytes]
  have h₀ := b₀.toNat_lt
  have h₁ := b₁.toNat_lt
  have h₂ := b₂.toNat_lt
  have h₃ := b₃.toNat_lt
  apply UInt32.toNat_inj.mp
  -- each byte is above all bits so far
  have hor : ∀ {x y k : ℕ}, x < 2 ^ k → x ||| y <<< k = x + y * 2 ^ k := by
    intro x y k hx
    rw [Nat.or_comm, ← Nat.shiftLeft_add_eq_or_of_lt hx, Nat.shiftLeft_eq, Nat.add_comm]
  have hshift : ∀ (b : UInt8) (n : UInt32), n.toNat ≤ 24 →
      (b.toUInt32 <<< n).toNat = b.toNat <<< n.toNat := by
    intro b n hn
    have hb := b.toNat_lt
    have hle : b.toNat * 2 ^ n.toNat < 2 ^ 8 * 2 ^ 24 :=
      Nat.mul_lt_mul_of_lt_of_le hb (Nat.pow_le_pow_right (by omega) hn) (by positivity)
    rw [UInt32.toNat_shiftLeft, Nat.mod_eq_of_lt (show n.toNat < 32 by omega),
      UInt8.toNat_toUInt32, Nat.mod_eq_of_lt]
    rw [Nat.shiftLeft_eq]
    omega
  rw [UInt32.toNat_or, UInt32.toNat_or, UInt32.toNat_or, hshift b₁ 8 (by decide),
    hshift b₂ 16 (by decide), hshift b₃ 24 (by decide), UInt8.toNat_toUInt32]
  show b₀.toNat ||| b₁.toNat <<< 8 ||| b₂.toNat <<< 16 ||| b₃.toNat <<< 24 = _
  rw [hor h₀, hor (k := 16) (by omega), hor (k := 24) (by omega), UInt32.toNat_ofNat']
  simp only [foldr_cons, foldr_nil]
  omega

lemma wordsOf_eq {bytes : List UInt8} (h : 4 ∣ bytes.length) :
    wordsOf bytes = words (bytesBits bytes) := by
  rw [words, show (32 : ℕ) = 8 * 4 from rfl, groups_bytesBits (by omega), map_map]
  fun_induction wordsOf bytes with
  | case1 b₀ b₁ b₂ b₃ rest ih =>
    have hrest : 4 ∣ rest.length := by
      simp only [length_cons] at h
      omega
    rw [show b₀ :: b₁ :: b₂ :: b₃ :: rest = [b₀, b₁, b₂, b₃] ++ rest from rfl,
      groups_append (k := 4) (by omega) rfl, map_cons, word_eq, ih hrest]
    rfl
  | case2 bytes hshort =>
    have hlt : bytes.length < 4 := by
      rcases bytes with _ | ⟨b₀, _ | ⟨b₁, _ | ⟨b₂, _ | ⟨b₃, rest⟩⟩⟩⟩
      · simp
      · simp
      · simp
      · simp
      · exact absurd rfl (hshort b₀ b₁ b₂ b₃ rest)
    rw [groups_of_lt hlt]
    rfl

/-! ## The loop -/

/-- The registers in the order of the variables before turn `i`. -/
def rolled (R : Rfc1321.Registers) (i : ℕ) : Words :=
  ⟨R (place i 0), R (place i 1), R (place i 2), R (place i 3)⟩

lemma constants_eq : ∀ i < 64, constants.getD i 0 = UInt32.ofNat (Rfc1321.T (i + 1)) := by
  intro i hi
  have hfloor : Rfc1321.T (i + 1) = (constants.getD i 0).toNat := by
    refine Sines.floor_sin_eq (by omega) ?_ ?_
    · revert i
      decide +kernel
    · revert i
      decide +kernel
  rw [hfloor, UInt32.ofNat_toNat]

lemma shifts_eq : ∀ i < 64, shifts.getD i 0 =
      UInt32.ofNat ((amounts (i / 16)).getD (i % 4) 0) ∧
    32 - shifts.getD i 0 = UInt32.ofNat (32 - (amounts (i / 16)).getD (i % 4) 0) := by
  decide +kernel

lemma indices_eq : ∀ i < 64,
    (if i < 16 then i else if i < 32 then (5 * i + 1) % 16
      else if i < 48 then (3 * i + 5) % 16 else (7 * i) % 16) = indices.getD i 0 := by
  decide

variable (m : List UInt32)

lemma round_eq (w : Words) {i : ℕ} (hi : i < 64) :
    round m w i = ⟨w.d, w.b + rotl ((amounts (i / 16)).getD (i % 4) 0)
      (w.a + auxiliary (i / 16) w.b w.c w.d + m.getD (indices.getD i 0) 0 +
        UInt32.ofNat (Rfc1321.T (i + 1))), w.b, w.c⟩ := by
  obtain ⟨hshift, hshift'⟩ := shifts_eq i hi
  have hindex := indices_eq i hi
  have hrotate : ∀ x, rotateLeft x (shifts.getD i 0) =
      rotl ((amounts (i / 16)).getD (i % 4) 0) x := by
    intro x
    rw [rotateLeft, hshift', hshift]
    rfl
  have hsum : ∀ f x : UInt32, f + w.a + constants.getD i 0 + x =
      w.a + f + x + UInt32.ofNat (Rfc1321.T (i + 1)) := by
    intro f x
    rw [constants_eq i hi]
    ac_rfl
  -- the four rounds
  have hauxiliary : (if i < 16 then (w.b &&& w.c) ||| (~~~w.b &&& w.d)
      else if i < 32 then (w.d &&& w.b) ||| (~~~w.d &&& w.c)
      else if i < 48 then w.b ^^^ w.c ^^^ w.d
      else w.c ^^^ (w.b ||| ~~~w.d)) = auxiliary (i / 16) w.b w.c w.d := by
    by_cases h₁ : i < 16
    · rw [if_pos h₁, show i / 16 = 0 by omega]
      rfl
    · rw [if_neg h₁]
      by_cases h₂ : i < 32
      · rw [if_pos h₂, show i / 16 = 1 by omega, UInt32.and_comm w.d, UInt32.and_comm (~~~w.d)]
        rfl
      · rw [if_neg h₂]
        by_cases h₃ : i < 48
        · rw [if_pos h₃, show i / 16 = 2 by omega]
          rfl
        · rw [if_neg h₃, show i / 16 = 3 by omega]
          rfl
  rw [← hindex, ← hauxiliary, ← hsum, ← hrotate, round]
  by_cases h₁ : i < 16
  · simp only [if_pos h₁]
  · by_cases h₂ : i < 32
    · simp only [if_neg h₁, if_pos h₂]
    · by_cases h₃ : i < 48
      · simp only [if_neg h₁, if_neg h₂, if_pos h₃]
      · simp only [if_neg h₁, if_neg h₂, if_neg h₃]

/-- A turn of the loop is then an operation. -/
lemma round_rolled (R : Rfc1321.Registers) {i : ℕ} (hi : i < 64) :
    round m (rolled R i) i = rolled (operation m R i) (i + 1) := by
  -- only the register in the first place changes, and it is the second of the next turn
  rw [round_eq m _ hi, rolled, rolled, operation, place_succ_zero,
    place_succ_succ, place_succ_succ, place_succ_succ,
    update_self, update_of_ne (place_ne_zero i (by omega) (by omega)),
    update_of_ne (place_ne_zero i (by omega) (by omega)),
    update_of_ne (place_ne_zero i (by omega) (by omega))]

lemma rounds_rolled (R : Rfc1321.Registers) : (List.range 64).foldl (round m) (rolled R 0) =
      rolled ((List.range 64).foldl (operation m) R) 0 := by
  have hfold : ∀ n ≤ 64, (List.range n).foldl (round m) (rolled R 0) =
      rolled ((List.range n).foldl (operation m) R) n := by
    intro n hn
    induction n with
    | zero => rfl
    | succ n ih =>
      rw [range_succ, foldl_append, foldl_append, ih (by omega)]
      exact round_rolled m _ (by omega)
  exact hfold 64 (Nat.le_refl 64)

/-! ## The digest -/

lemma chunk_rolled {bytes : List UInt8} (h : bytes.length = 64) (R : Rfc1321.Registers) :
    chunk (rolled R 0) bytes = rolled (process R (bytesBits bytes)) 0 := by
  rw [chunk, wordsOf_eq (by omega), rounds_rolled]
  simp only [rolled, process, UInt32.add_comm]

lemma compute_eq : compute message = digest (bytesBits message) := by
  have hfold : ∀ (chunks : List (List UInt8)) (R : Rfc1321.Registers),
      (∀ bytes ∈ chunks, bytes.length = 64) →
      chunks.foldl chunk (rolled R 0) = rolled ((chunks.map bytesBits).foldl process R) 0 := by
    intro chunks
    induction chunks with
    | nil => intro R _; rfl
    | cons bytes chunks ih =>
      intro R h
      rw [foldl_cons, chunk_rolled (h bytes mem_cons_self), map_cons,
        foldl_cons, ih _ fun b hb => h b (mem_cons_of_mem _ hb)]
  have hstart : initial = rolled Rfc1321.initial 0 := rfl
  rw [compute, chunks_eq_groups, hstart,
    hfold _ _ fun bytes => length_of_mem_groups (by omega), ← groups_bytesBits (by omega),
    padded_bits]
  simp only [leBytes_eq, digest]
  simp only [rolled, flatMap_cons, flatMap_nil, append_nil, append_assoc]
  rfl

end Md5

/-- **`md5_hex` is the MD5 of RFC 1321**, in lower-case hexadecimal. -/
theorem md5Hex_eq (input : Text) :
    md5Hex input = Rfc1321.hex (Rfc1321.digest (bytesBits (asBytes input))) := by
  have hdigit : ∀ n < 16, Nat.digitChar n = "0123456789abcdef".toList.getD n '0' := by decide
  rw [md5Hex, Md5.compute_eq, hex]
  refine flatMap_congr fun b _ => ?_
  have hb := b.toNat_lt
  rw [hdigit _ (by omega), hdigit _ (by omega)]

end TrafficCop
