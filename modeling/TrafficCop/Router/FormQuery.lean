import TrafficCop.Lib.Percent
import TrafficCop.Router.Rule

/-!
# Query rules on encoded queries

`url_decode` of `router/rule.rs` takes each escape for a character with the code of the byte.
-/

namespace TrafficCop

open Rust Percent List Option

/-! ## The encoding -/

def isFormPlain (c : Char) : Bool := c.isAlphanum || "*-._".toList.contains c

/-- As in `application/x-www-form-urlencoded`: letters, digits and four marks stand for themselves,
a blank is `+`, and other characters are the escapes of their UTF-8 bytes. -/
def formEncodeChar (c : Char) : Text :=
  if c = ' ' then ['+']
  else if isFormPlain c then [c]
  else (String.utf8EncodeChar c).flatMap escape

def formEncode (s : Text) : Text := s.flatMap formEncodeChar

def formPair (pair : Text × Text) : Text := formEncode pair.1 ++ '=' :: formEncode pair.2

def formQuery (pairs : List (Text × Text)) : Text := ['&'].intercalate (pairs.map formPair)

/-- A character of several bytes comes out as several characters. -/
def bytesAsChars (s : Text) : Text := (asBytes s).map fun b => Char.ofNat b.toNat

def IsAsciiText (s : Text) : Prop := ∀ c ∈ s, isAscii c = true

/-! ## Decoding -/

lemma urlDecode_escape (b : UInt8) (rest : Text) :
    urlDecode (escape b ++ rest) = Char.ofNat b.toNat :: urlDecode rest := by
  have hdigits : ∀ n : Fin 16, isAsciiHexdigit (hexDigit n) ∧ hexValue (hexDigit n) = n := by
    decide
  have hb := b.toNat_lt
  obtain ⟨hhi, hhi'⟩ := hdigits ⟨b.toNat / 16, by omega⟩
  obtain ⟨hlo, hlo'⟩ := hdigits ⟨b.toNat % 16, by omega⟩
  show urlDecode ('%' :: hexDigit (b.toNat / 16) :: hexDigit (b.toNat % 16) :: rest) = _
  rw [urlDecode, if_pos ⟨rfl, hhi, hlo⟩, hhi', hlo', Nat.div_add_mod]

lemma urlDecode_escapes (bytes : List UInt8) (rest : Text) :
    urlDecode (bytes.flatMap escape ++ rest) =
      (bytes.map fun b => Char.ofNat b.toNat) ++ urlDecode rest := by
  induction bytes with
  | nil => rfl
  | cons b bytes ih =>
    rw [flatMap_cons, append_assoc, urlDecode_escape, ih, map_cons, cons_append]

variable {c : Char} {s : Text}

lemma urlDecode_cons (hc : c ≠ '%') (rest : Text) :
    urlDecode (c :: rest) = (if c = '+' then ' ' else c) :: urlDecode rest := by
  rcases rest with _ | ⟨a, _ | ⟨b, rest⟩⟩
  · rfl
  · rfl
  · rw [urlDecode, if_neg fun h => hc h.1]

lemma formPlain_ne (h : isFormPlain c) : isAscii c ∧ c ≠ '%' ∧ c ≠ '+' ∧ c ≠ '&' ∧ c ≠ '=' := by
  refine ⟨?_, ?_⟩
  · rcases Bool.or_eq_true_iff.mp h with halnum | hmark
    · rw [isAscii, decide_eq_true_eq]
      rcases (isAlphanum_iff c).mp halnum with h | h | h <;> omega
    · have hmarks : ∀ c ∈ "*-._".toList, isAscii c := forall_char (by decide)
      exact hmarks c (contains_iff_mem.mp hmark)
  · refine ⟨?_, ?_, ?_, ?_⟩ <;>
    · rintro rfl
      revert h
      decide

lemma bytesAsChars_of_isAscii (h : isAscii c) :
    (String.utf8EncodeChar c).map (fun b => Char.ofNat b.toNat) = [c] := by
  have hlt : c.toNat < 128 := of_decide_eq_true h
  rw [utf8EncodeChar_of_isAscii h, map_singleton,
    UInt8.toNat_ofNat_of_lt' (by show c.toNat < 256; omega), Char.ofNat_toNat]

lemma urlDecode_formEncodeChar (c : Char) (rest : Text) :
    urlDecode (formEncodeChar c ++ rest) =
      (String.utf8EncodeChar c).map (fun b => Char.ofNat b.toNat) ++ urlDecode rest := by
  rw [formEncodeChar]
  split
  · next hblank =>
    subst hblank
    rw [singleton_append, urlDecode_cons (by decide), if_pos rfl]
    rfl
  · split
    · next hplain =>
      obtain ⟨hascii, hpercent, hplus, -⟩ := formPlain_ne hplain
      rw [singleton_append, urlDecode_cons hpercent, if_neg hplus,
        bytesAsChars_of_isAscii hascii, singleton_append]
    · exact urlDecode_escapes _ rest

lemma urlDecode_formEncode (s : Text) : urlDecode (formEncode s) = bytesAsChars s := by
  induction s with
  | nil => rfl
  | cons c s ih =>
    rw [formEncode, flatMap_cons, urlDecode_formEncodeChar, ← formEncode, ih, bytesAsChars,
      bytesAsChars, asBytes, asBytes, flatMap_cons, map_append]

/-! ## Splitting -/

lemma formEncode_separators (s : Text) : '&' ∉ formEncode s ∧ '=' ∉ formEncode s := by
  have hencoded : Encoded (fun c => isFormPlain c || c == '+') (formEncode s) := by
    induction s with
    | nil => exact .nil
    | cons c s ih =>
      rw [formEncode, flatMap_cons, ← formEncode, formEncodeChar]
      split
      · exact .plain (by decide) ih
      · split
        · next hplain => exact .plain (by simp [hplain]) ih
        · exact (Encoded.escapes _).append ih
  have hall := hencoded.forall_mem (p := fun c => decide (c ≠ '&' ∧ c ≠ '=')) ?_ (by decide)
    (by decide)
  · exact ⟨fun h => (of_decide_eq_true (hall _ h)).1 rfl,
      fun h => (of_decide_eq_true (hall _ h)).2 rfl⟩
  · intro c hc
    rcases Bool.or_eq_true_iff.mp hc with hplain | hplus
    · obtain ⟨-, -, -, hamp, heq⟩ := formPlain_ne hplain
      exact decide_eq_true ⟨hamp, heq⟩
    · rw [eq_of_beq hplus]
      decide

lemma splitPair_append {k : Text} (hk : '=' ∉ k) (v : Text) :
    splitPair (k ++ '=' :: v) = some (k, v) := by
  have hall : ∀ c ∈ k, (c != '=') = true := fun c hc => bne_iff_ne.mpr fun h => hk (h ▸ hc)
  rw [splitPair, span_eq_takeWhile_dropWhile, takeWhile_append_of_pos hall,
    dropWhile_append_of_pos hall]
  simp

lemma queryParamMatches_formQuery (pairs : List (Text × Text)) (k v : Text) :
    queryParamMatches (formQuery pairs) k v ↔
      ∃ pair ∈ pairs, bytesAsChars pair.1 = k ∧ bytesAsChars pair.2 = v := by
  have hone : ∀ pair : Text × Text, splitPair (formPair pair) =
      some (formEncode pair.1, formEncode pair.2) := fun pair =>
    splitPair_append (formEncode_separators pair.1).2 _
  cases pairs with
  | nil => simp [formQuery, queryParamMatches, splitPair]
  | cons first rest =>
    have hsplit : (formQuery (first :: rest)).splitOn '&' = (first :: rest).map formPair := by
      refine splitOn_intercalate '&' (fun l hl => ?_) (cons_ne_nil _ _)
      obtain ⟨pair, -, rfl⟩ := mem_map.mp hl
      simp [formPair, (formEncode_separators pair.1).1, (formEncode_separators pair.2).1]
    rw [queryParamMatches, hsplit, List.any_map, List.any_eq_true]
    refine exists_congr fun pair => and_congr_right fun _ => ?_
    rw [Function.comp_apply, hone, ← urlDecode_formEncode, ← urlDecode_formEncode,
      Bool.and_eq_true, beq_iff_eq, beq_iff_eq]

/-! ## ASCII -/

lemma length_bytesAsChars (s : Text) : (bytesAsChars s).length = byteLen s := by
  rw [bytesAsChars, length_map, asBytes]
  induction s with
  | nil => rfl
  | cons c s ih =>
    rw [flatMap_cons, length_append, ih, String.length_utf8EncodeChar, byteLen_cons]

lemma bytesAsChars_of_ascii (h : IsAsciiText s) : bytesAsChars s = s := by
  induction s with
  | nil => rfl
  | cons c s ih =>
    obtain ⟨hc, hs⟩ := forall_mem_cons.mp h
    have htail := ih hs
    rw [bytesAsChars, asBytes] at htail ⊢
    rw [flatMap_cons, map_append, htail, bytesAsChars_of_isAscii hc, singleton_append]

lemma length_lt_byteLen (h : ¬IsAsciiText s) : s.length < byteLen s := by
  induction s with
  | nil => exact absurd (fun _ hc => absurd hc not_mem_nil) h
  | cons c s ih =>
    have hpos := c.utf8Size_pos
    rw [byteLen_cons, length_cons]
    by_cases hc : isAscii c
    · have htail := ih fun hs => h (forall_mem_cons.mpr ⟨hc, hs⟩)
      omega
    · have hsize : c.utf8Size ≠ 1 := fun h => hc (isAscii_of_utf8Size h)
      have hle := length_le_byteLen s
      omega

lemma bytesAsChars_eq_iff : bytesAsChars s = s ↔ IsAsciiText s := by
  refine ⟨fun h => ?_, bytesAsChars_of_ascii⟩
  by_contra hs
  have hlength := congrArg List.length h
  rw [length_bytesAsChars] at hlength
  exact absurd hlength (length_lt_byteLen hs).ne'

lemma ascii_of_bytesAsChars (h : IsAsciiText (bytesAsChars s)) : IsAsciiText s := by
  intro c hc
  by_contra hnot
  obtain ⟨b, bytes, hencode, hb⟩ := utf8EncodeChar_of_not_isAscii (Bool.not_eq_true _ ▸ hnot)
  have hmem : b ∈ asBytes s := mem_flatMap.mpr ⟨c, hc, hencode ▸ mem_cons_self⟩
  have hascii := h _ (mem_map_of_mem hmem)
  have hall : ∀ n : Fin 256, (Char.ofNat n).toNat = n := by decide +kernel
  have hnat : (Char.ofNat b.toNat).toNat = b.toNat := hall ⟨b.toNat, b.toNat_lt⟩
  rw [isAscii, hnat, decide_eq_true_eq] at hascii
  omega

/-! ## Query rules -/

section Rules

variable {Regex : Type} [RegexCrate Regex]

/-- A rule and the pairs that its requests are made of. -/
def QueryCorrect (Regex : Type) [RegexCrate Regex] (k v : Text) (pairs : List (Text × Text)) :
    Prop :=
  ∀ req : Request, req.query = some (formQuery pairs) →
    ((Rule.query k v : Rule Regex).matches req = true ↔ (k, v) ∈ pairs)

variable {k v : Text} {pairs : List (Text × Text)}

lemma queryCorrect_iff :
    QueryCorrect Regex k v pairs ↔
      ((∃ pair ∈ pairs, bytesAsChars pair.1 = k ∧ bytesAsChars pair.2 = v) ↔ (k, v) ∈ pairs) := by
  have hmatches : ∀ req : Request, req.query = some (formQuery pairs) →
      ((Rule.query k v : Rule Regex).matches req ↔
        ∃ pair ∈ pairs, bytesAsChars pair.1 = k ∧ bytesAsChars pair.2 = v) := by
    intro req hquery
    rw [Rule.matches, hquery, any_some, queryParamMatches_formQuery]
  constructor
  · intro h
    rw [← h ⟨none, [], some (formQuery pairs), none, fun _ => none⟩ rfl, hmatches _ rfl]
  · intro h req hquery
    rw [hmatches req hquery, h]

/-- A pair that is not ASCII is found only if there is a shorter one that is not. -/
lemma ascii_of_found (h : ∀ pair ∈ pairs, ∃ found ∈ pairs, bytesAsChars found.1 = pair.1 ∧
      bytesAsChars found.2 = pair.2) :
    ∀ pair ∈ pairs, IsAsciiText pair.1 ∧ IsAsciiText pair.2 := by
  have hlengths : ∀ n, ∀ pair ∈ pairs, pair.1.length + pair.2.length = n →
      IsAsciiText pair.1 ∧ IsAsciiText pair.2 := by
    intro n
    induction n using Nat.strong_induction_on with
    | h n ih =>
      intro pair hpair hlength
      obtain ⟨found, hfound, hkey, hvalue⟩ := h pair hpair
      have hle₁ := length_le_byteLen found.1
      have hle₂ := length_le_byteLen found.2
      rw [← hkey, ← hvalue, length_bytesAsChars, length_bytesAsChars] at hlength
      have hascii : IsAsciiText found.1 ∧ IsAsciiText found.2 := by
        by_cases h₁ : IsAsciiText found.1
        · by_cases h₂ : IsAsciiText found.2
          · exact ⟨h₁, h₂⟩
          · have hlt := length_lt_byteLen h₂
            exact ih _ (by omega) found hfound rfl
        · have hlt := length_lt_byteLen h₁
          exact ih _ (by omega) found hfound rfl
      rw [← hkey, ← hvalue, bytesAsChars_of_ascii hascii.1, bytesAsChars_of_ascii hascii.2]
      exact hascii
  exact fun pair hpair => hlengths _ pair hpair rfl

lemma found_iff_mem (hk : IsAsciiText k) (hv : IsAsciiText v) :
    (∃ pair ∈ pairs, bytesAsChars pair.1 = k ∧ bytesAsChars pair.2 = v) ↔ (k, v) ∈ pairs := by
  constructor
  · rintro ⟨⟨k', v'⟩, hmem, rfl, rfl⟩
    have hk' := ascii_of_bytesAsChars hk
    have hv' := ascii_of_bytesAsChars hv
    rwa [bytesAsChars_of_ascii hk', bytesAsChars_of_ascii hv']
  · intro hmem
    exact ⟨(k, v), hmem, bytesAsChars_of_ascii hk, bytesAsChars_of_ascii hv⟩

/-- **Where query rules are right.** `url_decode` inverts the encoding of the texts in ASCII and of
no others. A rule is right on all queries if its key and value are ASCII, and a query is judged
right by all rules if all its pairs are. -/
theorem query_encoded_iff (k v : Text) (pairs : List (Text × Text)) :
    (∀ s, urlDecode (formEncode s) = s ↔ IsAsciiText s) ∧
    ((∀ pairs', QueryCorrect Regex k v pairs') ↔ IsAsciiText k ∧ IsAsciiText v) ∧
    ((∀ k' v', QueryCorrect Regex k' v' pairs) ↔
      ∀ pair ∈ pairs, IsAsciiText pair.1 ∧ IsAsciiText pair.2) := by
  refine ⟨fun s => ?_, ⟨fun h => ?_, fun h pairs' => ?_⟩, fun h => ?_, fun h k' v' => ?_⟩
  · rw [urlDecode_formEncode, bytesAsChars_eq_iff]
  · -- the query with this one pair
    obtain ⟨pair, hmem, hk, hv⟩ :=
      (queryCorrect_iff.mp (h [(k, v)])).mpr mem_cons_self
    rw [mem_singleton.mp hmem] at hk hv
    exact ⟨bytesAsChars_eq_iff.mp hk, bytesAsChars_eq_iff.mp hv⟩
  · exact queryCorrect_iff.mpr (found_iff_mem h.1 h.2)
  · exact ascii_of_found fun pair hpair => (queryCorrect_iff.mp (h pair.1 pair.2)).mpr hpair
  · rw [queryCorrect_iff]
    constructor
    · rintro ⟨pair, hmem, rfl, rfl⟩
      rwa [bytesAsChars_of_ascii (h pair hmem).1, bytesAsChars_of_ascii (h pair hmem).2]
    · intro hmem
      exact ⟨(k', v'), hmem, bytesAsChars_of_ascii (h _ hmem).1, bytesAsChars_of_ascii (h _ hmem).2⟩

end Rules

/-- **A value with an accent is not found**, and is decoded to two characters. -/
theorem query_encoded_accent :
    formQuery [("q", "é")] = "q=%C3%A9" ∧
      urlDecode "%C3%A9" = "Ã©" ∧
      ∀ (Regex : Type) [RegexCrate Regex],
        ¬QueryCorrect Regex "q" "é" [("q", "é")] := by
  have hquery : formQuery [("q", "é")] = "q=%C3%A9" := by decide +kernel
  refine ⟨hquery, by decide +kernel, fun Regex _ h => ?_⟩
  have hmatch := (h ⟨none, [], some "q=%C3%A9", none, fun _ => none⟩ (by rw [hquery])).mpr
    mem_cons_self
  have hnone : queryParamMatches "q=%C3%A9" "q" "é" = false := by
    decide +kernel
  rw [Rule.matches, any_some, hnone] at hmatch
  cases hmatch

end TrafficCop
