import TrafficCop.Lib.Base64
import TrafficCop.Middleware.Jwt
import TrafficCop.Rust.Core

/-!
# The Base64 codecs

Every file that needs Base64 has a codec of its own: encoders in `middleware/builtin/grpc_web.rs`,
`proxy/websocket.rs` and `tls/mtls.rs`, decoders in `grpc_web.rs`, `basic_auth.rs` and `jwt.rs` (the
last one in `Middleware.Jwt`).
-/

namespace TrafficCop

open Rust Bits List Option Base64 Base64.Alphabet

/-- `ALPHABET` of the encoders and of the decoders for the standard alphabet. -/
def base64Standard : Text :=
  "ABCDEFGHIJKLMNOPQRSTUVWXYZabcdefghijklmnopqrstuvwxyz0123456789+/"

/-- `ALPHABET[index] as char`; the index is that of six bits (`sextets` of the lemmas below), so
it is in range. -/
def alphabetChar (index : ℕ) : Char := base64Standard.getD index '='

lemma alphabetChar_eq : alphabetChar = standard.char := rfl

/-! ## Encoding in chunks -/

/-- The body of the loop over `data.chunks(3)`. -/
def encodeChunk (chunk : List UInt8) : Text :=
  let b0 := (chunk.getD 0 0).toNat
  let b1 := (chunk[1]?.getD 0).toNat
  let b2 := (chunk[2]?.getD 0).toNat
  [alphabetChar (b0 >>> 2), alphabetChar ((b0 &&& 0x03) <<< 4 ||| b1 >>> 4),
    if chunk.length > 1 then alphabetChar ((b1 &&& 0x0f) <<< 2 ||| b2 >>> 6) else '=',
    if chunk.length > 2 then alphabetChar (b2 &&& 0x3f) else '=']

/-- Two encoders work on chunks of three bytes. -/
def encodeChunks : List UInt8 → Text
  | [] => []
  | b0 :: b1 :: b2 :: rest => encodeChunk [b0, b1, b2] ++ encodeChunks rest
  -- the last chunk may be shorter
  | chunk => encodeChunk chunk

def GrpcWeb.base64Encode (data : List UInt8) : Text := encodeChunks data

def WebSocket.base64Encode (data : List UInt8) : Text := encodeChunks data

lemma testBit_byte {b : UInt8} {i : ℕ} (hi : 8 ≤ i) : b.toNat.testBit i = false :=
  Nat.testBit_eq_false_of_lt (b.toNat_lt.trans_le (Nat.pow_le_pow_right (by omega) hi))

lemma bits_chunk (b0 b1 b2 : UInt8) :
    byteBits b0 ++ (byteBits b1 ++ byteBits b2) =
      natBits 6 (b0.toNat >>> 2) ++ (natBits 6 ((b0.toNat &&& 3) <<< 4 ||| b1.toNat >>> 4) ++
        (natBits 6 ((b1.toNat &&& 15) <<< 2 ||| b2.toNat >>> 6) ++
          natBits 6 (b2.toNat &&& 63))) := by
  have h3 : ∀ i, Nat.testBit 3 i = decide (i < 2) := Nat.testBit_two_pow_sub_one 2
  have h15 : ∀ i, Nat.testBit 15 i = decide (i < 4) := Nat.testBit_two_pow_sub_one 4
  have h63 : ∀ i, Nat.testBit 63 i = decide (i < 6) := Nat.testBit_two_pow_sub_one 6
  simp [byteBits, natBits, testBit_byte, Nat.testBit_and, Nat.testBit_or, Nat.testBit_shiftLeft,
    Nat.testBit_shiftRight, h3, h15, h63]

lemma chunk_lt (b0 b1 b2 : UInt8) :
    b0.toNat >>> 2 < 64 ∧ (b0.toNat &&& 3) <<< 4 ||| b1.toNat >>> 4 < 64 ∧
      (b1.toNat &&& 15) <<< 2 ||| b2.toNat >>> 6 < 64 ∧ b2.toNat &&& 63 < 64 := by
  have h0 := b0.toNat_lt
  have h1 := b1.toNat_lt
  have h2 := b2.toNat_lt
  simp only [Nat.shiftRight_eq_div_pow, Nat.shiftLeft_eq]
  have hand3 : b0.toNat &&& 3 ≤ 3 := Nat.and_le_right
  have hand15 : b1.toNat &&& 15 ≤ 15 := Nat.and_le_right
  have hand63 : b2.toNat &&& 63 ≤ 63 := Nat.and_le_right
  exact ⟨by omega, Nat.or_lt_two_pow (n := 6) (by omega) (by omega),
    Nat.or_lt_two_pow (n := 6) (by omega) (by omega), by omega⟩

/-- A chunk of one to three bytes. A short one has the first groups of the chunk filled up with
zero bytes. -/
lemma encodeChunk_eq {chunk : List UInt8} (hpos : 0 < chunk.length) (hle : chunk.length ≤ 3) :
    encodeChunk chunk = encode .standard chunk := by
  match chunk with
  | [b0] =>
    obtain ⟨h0, h1, -⟩ := chunk_lt b0 0 0
    have hchars : encodeUnpadded .standard [b0] =
        [b0.toNat >>> 2, (b0.toNat &&& 3) <<< 4 ||| (0 : UInt8).toNat >>> 4].map
          standard.char := encodeUnpadded_of_groups
      (by simp only [forall_mem_cons, h0, h1]; simp)
      (by simpa [byteBits, natBits] using congrArg (take 12) (bits_chunk b0 0 0))
    rw [encode, hchars, encodeChunk, alphabetChar_eq]
    rfl
  | [b0, b1] =>
    obtain ⟨h0, h1, h2, -⟩ := chunk_lt b0 b1 0
    have hchars : encodeUnpadded .standard [b0, b1] =
        [b0.toNat >>> 2, (b0.toNat &&& 3) <<< 4 ||| b1.toNat >>> 4,
          (b1.toNat &&& 15) <<< 2 ||| (0 : UInt8).toNat >>> 6].map
          standard.char := encodeUnpadded_of_groups
      (by simp only [forall_mem_cons, h0, h1, h2]; simp)
      (by simpa [byteBits, natBits] using congrArg (take 18) (bits_chunk b0 b1 0))
    rw [encode, hchars, encodeChunk, alphabetChar_eq]
    rfl
  | [b0, b1, b2] =>
    obtain ⟨h0, h1, h2, h3⟩ := chunk_lt b0 b1 b2
    have hchars : encodeUnpadded .standard [b0, b1, b2] =
        [b0.toNat >>> 2, (b0.toNat &&& 3) <<< 4 ||| b1.toNat >>> 4,
          (b1.toNat &&& 15) <<< 2 ||| b2.toNat >>> 6, b2.toNat &&& 63].map
          standard.char := encodeUnpadded_of_groups
      (by simp only [forall_mem_cons, h0, h1, h2, h3]; simp)
      (by simpa [byteBits, natBits] using bits_chunk b0 b1 b2)
    simp [encode, hchars, encodeChunk, alphabetChar_eq, padding]

variable (data : List UInt8)

lemma encodeChunks_eq : encodeChunks data = encode .standard data := by
  fun_induction encodeChunks data with
  | case1 => rfl
  | case2 b0 b1 b2 rest ih =>
    rw [ih, encodeChunk_eq (by simp) (by simp), ← encode_append _ (by simp)]
    rfl
  | case3 chunk hnil hlong =>
    apply encodeChunk_eq
    · exact length_pos_of_ne_nil hnil
    · match chunk, hlong with
      | [], _ => simp
      | [_], _ => simp
      | [_, _], _ => simp
      | b0 :: b1 :: b2 :: rest, hlong => exact absurd rfl (hlong b0 b1 b2 rest)

/-! ## Buffers of 32 bits -/

variable {bits n : ℕ} {text : Text} {rest : List UInt8}

/-- `buffer << k | n`: the bits of `n` behind those of the buffer. High bits fall off, but no more
than 14 bits are ever in use. -/
lemma natBits_shiftLeft_or {k : ℕ} (hbits : bits + k < 32) (hn : n < 2 ^ k) (buffer : UInt32) :
    natBits (bits + k) (buffer <<< UInt32.ofNat k ||| UInt32.ofNat n).toNat =
      natBits bits buffer.toNat ++ natBits k n := by
  have hk : k % 2 ^ 32 % 32 = k := by omega
  rw [natBits_append hn, UInt32.toNat_or, UInt32.toNat_shiftLeft, UInt32.toNat_ofNat',
    UInt32.toNat_ofNat', hk, ← Nat.or_mod_two_pow, natBits_mod (by omega)]

/-! ## Encoding with a running buffer -/

namespace Mtls

/-- `while bits >= 6`: what is pushed, and the bits left. -/
def drain (buffer : UInt32) : ℕ → Text × ℕ
  | bits + 6 =>
    let rest := drain buffer bits
    (alphabetChar ((buffer >>> UInt32.ofNat bits) &&& 0x3F).toNat :: rest.1, rest.2)
  | bits => ([], bits)

/-- The loop over the input, and what is pushed behind it for the bits left. -/
def encodeLoop : List UInt8 → UInt32 → ℕ → Text
  | [], buffer, bits =>
    if bits > 0 then [alphabetChar ((buffer <<< UInt32.ofNat (6 - bits)) &&& 0x3F).toNat] else []
  | byte :: input, buffer, bits =>
    let buffer := buffer <<< 8 ||| byte.toUInt32
    let drained := drain buffer (bits + 8)
    drained.1 ++ encodeLoop input buffer drained.2

/-- The third encoder has a running buffer that is never masked. -/
def base64Encode (input : List UInt8) : Text := padTo 4 0 '=' 4 (encodeLoop input 0 0)

lemma natBits_mask (n : ℕ) : natBits 6 (n &&& 63) = natBits 6 n := by
  rw [Nat.and_two_pow_sub_one_eq_mod n 6]
  exact natBits_mod (Nat.le_refl 6) n

lemma mask_lt (x : UInt32) : (x &&& 0x3F).toNat < 64 := by
  rw [UInt32.toNat_and]
  exact Nat.lt_of_le_of_lt Nat.and_le_right (by decide)

lemma drain_of_lt (h : bits < 6) (buffer : UInt32) : drain buffer bits = ([], bits) := by
  unfold drain
  split
  · omega
  · rfl

lemma drain_eq (hbits : bits < 32) (buffer : UInt32) (rest : List Bool) :
    (drain buffer bits).2 = bits % 6 ∧
      (sextets (natBits bits buffer.toNat ++ rest)).map alphabetChar =
        (drain buffer bits).1 ++
          (sextets (natBits (drain buffer bits).2 buffer.toNat ++ rest)).map
            alphabetChar := by
  induction bits using Nat.strong_induction_on with
  | _ bits ih =>
    by_cases hlt : bits < 6
    · rw [drain_of_lt hlt]
      exact ⟨(Nat.mod_eq_of_lt hlt).symm, rfl⟩
    · obtain ⟨left, rfl⟩ : ∃ left, bits = left + 6 := ⟨bits - 6, by omega⟩
      obtain ⟨hleft, ih⟩ := ih left (by omega) (by omega)
      refine ⟨hleft.trans (Nat.add_mod_right left 6).symm, ?_⟩
      have hshift : ((buffer >>> UInt32.ofNat left) &&& 0x3F).toNat =
          buffer.toNat >>> left &&& 63 := by
        have hmod : left % 2 ^ 32 % 32 = left := by omega
        rw [UInt32.toNat_and, UInt32.toNat_shiftRight, UInt32.toNat_ofNat', hmod]
        rfl
      -- the six highest of the bits are pushed, the others stay
      rw [Nat.add_comm left 6, natBits_add, append_assoc, ← natBits_mask, ← hshift,
        sextets_natBits_append (mask_lt _), map_cons, ih, Nat.add_comm 6 left]
      rfl

lemma encodeLoop_eq (input : List UInt8) (hbits : bits < 6) (buffer : UInt32) :
    encodeLoop input buffer bits =
      (sextets (natBits bits buffer.toNat ++ bytesBits input)).map alphabetChar := by
  induction input generalizing buffer bits with
  | nil =>
    rw [encodeLoop, bytesBits_nil, append_nil]
    split
    · next hpos =>
      have hshift : ((buffer <<< UInt32.ofNat (6 - bits)) &&& 0x3F).toNat =
          buffer.toNat <<< (6 - bits) % 64 := by
        have hmod : (6 - bits) % 2 ^ 32 % 32 = 6 - bits := by omega
        rw [UInt32.toNat_and, UInt32.toNat_shiftLeft, UInt32.toNat_ofNat', hmod]
        exact (Nat.and_two_pow_sub_one_eq_mod _ 6).trans (Nat.mod_mod_of_dvd _ (by decide))
      rw [sextets_natBits hpos hbits, hshift]
      rfl
    · next hzero =>
      rw [show bits = 0 by omega, natBits, sextets_nil, map_nil]
  | cons byte input ih =>
    obtain ⟨hleft, hdrain⟩ := drain_eq (show bits + 8 < 32 by omega)
      (buffer <<< 8 ||| byte.toUInt32) (bytesBits input)
    have hbyte : natBits (bits + 8) (buffer <<< 8 ||| byte.toUInt32).toNat =
        natBits bits buffer.toNat ++ byteBits byte := by
      rw [← UInt32.ofNat_uInt8ToNat]
      exact natBits_shiftLeft_or (by omega) byte.toNat_lt buffer
    rw [hbyte, append_assoc] at hdrain
    rw [encodeLoop, bytesBits_cons, hdrain, ih]
    rw [hleft]
    omega

lemma base64Encode_eq (input : List UInt8) : base64Encode input = encode .standard input := by
  have hloop : encodeLoop input 0 0 = encodeUnpadded .standard input :=
    encodeLoop_eq input (by omega) 0
  rw [base64Encode, hloop]
  apply padTo_eq
  · omega
  · omega
  · intro j hj
    omega

end Mtls

/-! ## Decoding -/

/-- The alphabet as the decoders compare it. -/
def alphabetBytes : List UInt8 := base64Standard.map charByte

/-- **A turn of a decoder** moves six bits from the input to what is pushed and to the buffer. -/
theorem octets_pushBits {val : ℕ} (hbits : bits < 8) (hval : val < 64) (buffer : UInt32)
    (rest : List Bool) :
    octets (natBits bits buffer.toNat ++ (natBits 6 val ++ rest)) =
        (pushBits buffer bits val).1.toList ++
          octets (natBits (pushBits buffer bits val).2.2 (pushBits buffer bits val).2.1.toNat ++
            rest) ∧
      (pushBits buffer bits val).2.2 < 8 := by
  have hbuffer : natBits (bits + 6) (buffer <<< 6 ||| UInt32.ofNat val).toNat =
      natBits bits buffer.toNat ++ natBits 6 val :=
    natBits_shiftLeft_or (by omega) (show val < 2 ^ 6 by omega) buffer
  rw [← append_assoc, ← hbuffer, pushBits]
  generalize buffer <<< 6 ||| UInt32.ofNat val = pending
  split
  · next hle =>
    have hshift : (pending >>> UInt32.ofNat (bits + 6 - 8)).toUInt8 =
        UInt8.ofNat (pending.toNat >>> (bits + 6 - 8)) := by
      have hmod : (bits + 6 - 8) % 2 ^ 32 % 32 = bits + 6 - 8 := by omega
      apply UInt8.toNat_inj.mp
      rw [UInt32.toNat_toUInt8, UInt32.toNat_shiftRight, UInt32.toNat_ofNat', hmod,
        UInt8.toNat_ofNat']
    have hmask : natBits (bits + 6 - 8)
        (pending &&& ((1 <<< UInt32.ofNat (bits + 6 - 8)) - 1)).toNat =
          natBits (bits + 6 - 8) pending.toNat := by
      have hones : ∀ k < 8, ((1 <<< UInt32.ofNat k) - 1 : UInt32).toNat = 2 ^ k - 1 := by decide
      rw [UInt32.toNat_and, hones _ (by omega), Nat.and_two_pow_sub_one_eq_mod]
      exact natBits_mod (Nat.le_refl _) _
    refine ⟨?_, show bits + 6 - 8 < 8 by omega⟩
    rw [octets_written hle, ← hshift, ← hmask]
    rfl
  · next hlt => exact ⟨rfl, show bits + 6 < 8 by omega⟩

lemma decodeLoop_eq {alphabet : Text} (halphabet : alphabet.length = 64) (bytes : List UInt8)
    (hbits : bits < 8) (buffer : UInt32) :
    decodeLoop alphabet bytes buffer bits = (bytes.mapM (charToVal alphabet)).map fun values =>
      octets (natBits bits buffer.toNat ++ values.flatMap (natBits 6)) := by
  -- the bits of the buffer stand before those of the input; each turn moves six of them
  induction bytes generalizing buffer bits with
  | nil =>
    rw [decodeLoop, mapM_nil]
    exact congrArg some (octets_of_lt (by simpa using hbits)).symm
  | cons byte bytes ih =>
    rw [decodeLoop, mapM_cons]
    cases hval : charToVal alphabet byte with
    | none => rfl
    | some val =>
      have hlt : val < 64 := by
        have hindex := (idxOf?_eq_some_iff.mp hval).1
        rwa [length_map, halphabet] at hindex
      have hpush := octets_pushBits hbits hlt buffer
      have hnext := ih (hpush []).2 (pushBits buffer bits val).2.1
      cases hvalues : bytes.mapM (charToVal alphabet) with
      | none =>
        rw [hvalues] at hnext
        simp [hnext]
      | some values =>
        rw [hvalues] at hnext
        simp [hnext, (hpush _).1]

lemma charByte_eq_iff {c d : Char} (hc : isAscii c) (hd : isAscii d) :
    charByte c = charByte d ↔ c = d := by
  refine ⟨fun h => ?_, congrArg charByte⟩
  have hnat := congrArg UInt8.toNat h
  rw [charByte, charByte, UInt8.toNat_ofNat', UInt8.toNat_ofNat'] at hnat
  have hc' := of_decide_eq_true hc
  have hd' := of_decide_eq_true hd
  exact Char.toNat_inj.mp (by omega)

section Ascii

variable {A : Base64.Alphabet} (hA : ∀ c ∈ A.chars, isAscii c = true)

include hA

lemma charToVal_charByte {c : Char} (hc : isAscii c) :
    charToVal A.chars (charByte c) = A.value c := by
  have hindex : ∀ l : Text, (∀ d ∈ l, isAscii d) →
      (l.map charByte).idxOf? (charByte c) = l.idxOf? c := by
    intro l hl
    induction l with
    | nil => rfl
    | cons d l ih =>
      obtain ⟨hd, hl⟩ := forall_mem_cons.mp hl
      simp only [map_cons, idxOf?_cons, ih hl, beq_iff_eq, charByte_eq_iff hd hc]
  exact hindex A.chars hA

lemma charToVal_eq_none {b : UInt8} (hb : 128 ≤ b.toNat) : charToVal A.chars b = none := by
  rw [charToVal, idxOf?_eq_none_iff]
  intro hmem
  obtain ⟨c, hc, rfl⟩ := mem_map.mp hmem
  have hsmall := of_decide_eq_true (hA c hc)
  rw [charByte, UInt8.toNat_ofNat'] at hb
  omega

/-- **Byte by byte or character by character**: a character that is not ASCII is in no alphabet, and
its first byte is not. -/
theorem mapM_charToVal (text : Text) :
    (asBytes text).mapM (charToVal A.chars) = text.mapM A.value := by
  induction text with
  | nil => rfl
  | cons c text ih =>
    rw [asBytes, flatMap_cons, ← asBytes, mapM_append, ih, mapM_cons]
    cases hc : isAscii c with
    | true =>
      rw [utf8EncodeChar_of_isAscii hc, mapM_cons, ← charByte, charToVal_charByte hA hc]
      cases A.value c <;> simp
    | false =>
      obtain ⟨b, bytes, hbytes, hb⟩ := utf8EncodeChar_of_not_isAscii hc
      have hvalue : A.value c = none := by
        rw [value, idxOf?_eq_none_iff]
        intro hmem
        rw [hA c hmem] at hc
        cases hc
      rw [hbytes, mapM_cons, charToVal_eq_none hA hb, hvalue]
      rfl

/-- **The decoders** of `basic_auth.rs` and `jwt.rs`, on any text. -/
theorem decodeLoop_asBytes (text : Text) :
    decodeLoop A.chars (asBytes text) 0 0 = decode A text := by
  rw [decodeLoop_eq A.length_eq _ (by omega), mapM_charToVal hA]
  rfl

end Ascii

def BasicAuth.base64Decode (input : Text) : Option Text :=
  let bytes := asBytes (input.rdropWhile (· == '='))
  if bytes.isEmpty then some [] else (decodeLoop base64Standard bytes 0 0).bind fromUtf8

namespace GrpcWeb

/-- `DECODE_TABLE`: −1 for the bytes that are not in the alphabet. -/
def decodeTable : List Int :=
  alphabetBytes.zipIdx.foldl (fun table p => table.set p.1.toNat p.2) (replicate 256 (-1))

/-- The buffer has the bits not yet written, masked. -/
def decodeLoop : List UInt8 → UInt32 → ℕ → Option (List UInt8)
  | [], _, _ => some []
  | byte :: data, buf, bits =>
    -- `break`: whatever follows is not looked at
    if byte = '='.toUInt8 then some []
    else if byte = '\n'.toUInt8 ∨ byte = '\r'.toUInt8 ∨ byte = ' '.toUInt8 then
      decodeLoop data buf bits
    else
      let val := decodeTable.getD byte.toNat (-1)
      if val < 0 then none
      else
        let (pushed, buf, bits) := pushBits buf bits val.toNat
        (decodeLoop data buf bits).map (pushed.toList ++ ·)

def base64Decode (data : List UInt8) : Option (List UInt8) := decodeLoop data 0 0

end GrpcWeb

/-- A property of every character of a literal, checked on the list that the literal stands for: its
encoding is not evaluated. -/
lemma forall_char_ofList {p : Char → Prop} [DecidablePred p] {l : List Char}
    (h : (l.all fun c => decide (p c)) = true) : ∀ c ∈ (String.ofList l).toList, p c := by
  rw [String.toList_ofList]
  exact forall_char h

lemma isAscii_standard : ∀ c ∈ standard.chars, isAscii c :=
  forall_char_ofList (by decide +kernel)

lemma isAscii_urlSafe : ∀ c ∈ urlSafe.chars, isAscii c :=
  forall_char_ofList (by decide +kernel)

/-- The characters of the alphabet have their index in the table of `grpc_web.rs`, and none of them
is skipped or ends its loop. -/
lemma alphabet_table : ∀ c ∈ standard.chars,
    (standard.value c).map Int.ofNat =
        some (GrpcWeb.decodeTable.getD (charByte c).toNat (-1)) ∧
      charByte c ≠ '='.toUInt8 ∧
      ¬(charByte c = '\n'.toUInt8 ∨ charByte c = '\r'.toUInt8 ∨ charByte c = ' '.toUInt8) :=
  forall_char_ofList (by decide +kernel)

lemma asBytes_alphabet (h : ∀ c ∈ text, c ∈ standard.chars) :
    asBytes text = text.map charByte := by
  induction text with
  | nil => rfl
  | cons c text ih =>
    obtain ⟨hc, htext⟩ := forall_mem_cons.mp h
    rw [asBytes, flatMap_cons, utf8EncodeChar_of_isAscii (isAscii_standard c hc),
      map_cons, ← ih htext]
    rfl

lemma rdropWhile_pad (h : '=' ∉ text) (n : ℕ) :
    (text ++ replicate n '=').rdropWhile (· == '=') = text := by
  induction n with
  | zero =>
    rw [replicate_zero, append_nil, rdropWhile_eq_self_iff]
    intro hne hlast
    exact h (beq_iff_eq.mp hlast ▸ getLast_mem hne)
  | succ n ih =>
    rw [replicate_succ', ← append_assoc, rdropWhile_concat_pos _ _ _ (by decide), ih]

lemma rdropWhile_of_alphabet {A : Base64.Alphabet} (h : ∀ c ∈ text, c ∈ A.chars) :
    text.rdropWhile (· == '=') = text := by
  simpa using rdropWhile_pad (fun hmem => A.pad_notMem (h _ hmem)) 0

lemma pad_notMem_of_alphabet {A : Base64.Alphabet} (h : ∀ c ∈ text, c ∈ A.chars) :
    '=' ∉ text := fun hmem => A.pad_notMem (h _ hmem)

lemma BasicAuth.base64Decode_eq (input : Text) :
    base64Decode input = (decode .standard (input.rdropWhile (· == '='))).bind fromUtf8 := by
  rw [base64Decode, ← decodeLoop_asBytes isAscii_standard]
  split
  · next hempty =>
    have hnil : asBytes (input.rdropWhile (· == '=')) = [] := isEmpty_iff.mp hempty
    rw [hnil]
    exact (fromUtf8_asBytes []).symm
  · rfl

lemma BasicAuth.base64Decode_encoded (text : Text) :
    base64Decode (encode .standard (asBytes text)) = some text := by
  have hpad : '=' ∉ encodeUnpadded .standard (asBytes text) :=
    pad_notMem_of_alphabet fun c => mem_encodeUnpadded
  rw [base64Decode_eq, encode, padding, rdropWhile_pad hpad,
    decode_encodeUnpadded, bind_some, fromUtf8_asBytes]

/-- **The gRPC-Web decoder** on a text of the alphabet, up to its end or a pad. -/
theorem GrpcWeb.decodeLoop_eq {values : List ℕ} (hvalues : ∀ v ∈ values, v < 64)
    (hrest : ∀ b, rest.head? = some b → b = '='.toUInt8)
    (hbits : bits < 8) (buf : UInt32) :
    decodeLoop ((values.map standard.char).map charByte ++ rest) buf bits =
      some (octets (natBits bits buf.toNat ++ values.flatMap (natBits 6))) := by
  induction values generalizing buf bits with
  | nil =>
    have hend : decodeLoop rest buf bits = some [] := by
      cases rest with
      | nil => rfl
      | cons b rest => rw [decodeLoop, if_pos (hrest b rfl)]
    simpa [octets_of_lt (show (natBits bits buf.toNat).length < 8 by simpa using hbits)] using hend
  | cons v values ih =>
    have hv := hvalues v mem_cons_self
    obtain ⟨htable, hpad, hblank⟩ := alphabet_table _ (standard.char_mem hv)
    rw [standard.value_char hv, map_some, Option.some.injEq] at htable
    obtain ⟨-, hbits'⟩ := octets_pushBits hbits hv buf []
    rw [map_cons, map_cons, cons_append, decodeLoop, if_neg hpad, if_neg hblank,
      ← htable, flatMap_cons, (octets_pushBits hbits hv buf _).1]
    dsimp only
    rw [if_neg (show ¬Int.ofNat v < 0 from Int.not_lt.mpr (Int.natCast_nonneg v))]
    show (decodeLoop _ (pushBits buf bits v).2.1 (pushBits buf bits v).2.2).map
      ((pushBits buf bits v).1.toList ++ ·) = _
    rw [ih (fun v hv => hvalues v (mem_cons_of_mem _ hv)) hbits', map_some]

lemma GrpcWeb.base64Decode_encoded (hrest : ∀ b, rest.head? = some b → b = '='.toUInt8) :
    base64Decode (asBytes (encodeUnpadded .standard data) ++ rest) = some data := by
  rw [asBytes_alphabet fun c => mem_encodeUnpadded, encodeUnpadded, base64Decode,
    decodeLoop_eq (fun v => lt_of_mem_sextets) hrest (by omega)]
  exact congrArg some (spelled_sextets data)

lemma asBytes_append (s t : Text) : asBytes (s ++ t) = asBytes s ++ asBytes t :=
  flatMap_append

lemma head_asBytes_pads (h : n ≠ 0 ∨ rest = []) :
    ∀ b, (asBytes (replicate n '=') ++ rest).head? = some b → b = '='.toUInt8 := by
  intro b hb
  cases n with
  | zero =>
    rw [h.resolve_left (by simp)] at hb
    cases hb
  | succ n =>
    have hpad : asBytes (replicate (n + 1) '=') = '='.toUInt8 :: asBytes (replicate n '=') := rfl
    rw [hpad] at hb
    exact (Option.some.inj hb).symm

lemma GrpcWeb.base64Decode_encode :
    base64Decode (asBytes (encode .standard data)) = some data := by
  rw [encode, asBytes_append, ← append_nil (asBytes (padding _))]
  exact base64Decode_encoded data (head_asBytes_pads (.inr rfl))

lemma base64UrlDecodeBytes_eq (input : Text) :
    base64UrlDecodeBytes input = decode .urlSafe (input.rdropWhile (· == '=')) := by
  rw [base64UrlDecodeBytes, ← decodeLoop_asBytes isAscii_urlSafe]
  split
  · next hempty => rw [isEmpty_iff.mp hempty]; rfl
  · rfl

/-! ## The codecs agree -/

/-- **One encoding, three encoders; each decoder inverts it.** -/
theorem base64_codecs (data : List UInt8) :
    GrpcWeb.base64Encode data = Base64.encode .standard data ∧
    WebSocket.base64Encode data = Base64.encode .standard data ∧
    Mtls.base64Encode data = Base64.encode .standard data ∧
    GrpcWeb.base64Decode (asBytes (Base64.encode .standard data)) = some data ∧
    (∀ text, BasicAuth.base64Decode (Base64.encode .standard (asBytes text)) = some text) ∧
    base64UrlDecodeBytes (Base64.encodeUnpadded .urlSafe data) = some data := by
  refine ⟨encodeChunks_eq data, encodeChunks_eq data, Mtls.base64Encode_eq data, ?_, ?_, ?_⟩
  · exact GrpcWeb.base64Decode_encode data
  · exact BasicAuth.base64Decode_encoded
  · rw [base64UrlDecodeBytes_eq, rdropWhile_of_alphabet fun c => mem_encodeUnpadded,
      decode_encodeUnpadded]

/-! ## Frames one after the other -/

namespace GrpcWeb

def decodeBase64 (data : List UInt8) : Option (List UInt8) := base64Decode data

def encodeBase64 (data : List UInt8) : Text := base64Encode data

/-- What is read of a sequence of encoded frames: everything up to the first frame that is
padded. -/
def received : List (List UInt8) → List UInt8
  | [] => []
  | frame :: frames => if 3 ∣ frame.length then frame ++ received frames else frame

lemma decodeBase64_frames (frames : List (List UInt8)) :
    decodeBase64 (asBytes (frames.flatMap encodeBase64)) = some (received frames) := by
  -- behind frames that were not padded, which are like one frame
  suffices h : ∀ done : List UInt8, 3 ∣ done.length →
      decodeBase64 (asBytes (encode .standard done ++ frames.flatMap encodeBase64)) =
        some (done ++ received frames) from h [] (by simp)
  induction frames with
  | nil =>
    intro done _
    rw [flatMap_nil, append_nil, received, append_nil]
    exact base64Decode_encode done
  | cons frame frames ih =>
    intro done hdone
    have hframe : encodeBase64 frame = encode .standard frame := encodeChunks_eq frame
    rw [flatMap_cons, ← append_assoc, hframe, ← encode_append _ hdone, received]
    split
    · next hdvd =>
      rw [ih (done ++ frame) (by rw [length_append]; omega), append_assoc]
    · next hdvd =>
      have hpads :
          padding (encodeUnpadded .standard (done ++ frame)).length ≠ [] := by
        rw [Ne, padding_eq_nil_iff, length_append]
        omega
      rw [encode, append_assoc, asBytes_append, asBytes_append]
      refine base64Decode_encoded (done ++ frame) (head_asBytes_pads (.inl ?_))
      intro hzero
      exact hpads (by rw [padding, hzero, replicate_zero])

lemma received_eq_flatten_iff (frames : List (List UInt8)) :
    received frames = frames.flatten ↔
      frames.Pairwise fun frame later => 3 ∣ frame.length ∨ later = [] := by
  induction frames with
  | nil => simp [received]
  | cons frame frames ih =>
    rw [received, flatten_cons, pairwise_cons]
    split
    · next hdvd => simp [hdvd, ih]
    · next hdvd =>
      -- nothing behind a padded frame is read, so nothing may be there
      have hnil : frame = frame ++ frames.flatten ↔ ∀ later ∈ frames, later = [] := by
        rw [self_eq_append_right, flatten_eq_nil_iff]
      rw [hnil]
      constructor
      · intro hempty
        refine ⟨fun later hlater => .inr (hempty later hlater), ?_⟩
        exact List.Pairwise.imp_of_mem (fun _ hlater _ => .inr (hempty _ hlater))
          (pairwise_of_forall fun _ _ => trivial)
      · intro h later hlater
        exact (h.1 later hlater).resolve_left hdvd

/-- **For which frames the decoder reads a sequence of encoded frames**: only the last that is not
empty may be padded. -/
theorem decode_frames_iff (frames : List (List UInt8)) :
    decodeBase64 (asBytes (frames.flatMap encodeBase64)) = some frames.flatten ↔
      frames.Pairwise fun frame later => 3 ∣ frame.length ∨ later = [] := by
  rw [decodeBase64_frames, Option.some.injEq, received_eq_flatten_iff]

/-- Of two frames of one byte only the first is read. -/
theorem second_frame_lost :
    decodeBase64 (asBytes (encodeBase64 [1] ++ encodeBase64 [2])) = some [1] ∧
      some [1] ≠ some ([1] ++ [2] : List UInt8) := by
  decide +kernel

end GrpcWeb

end TrafficCop
