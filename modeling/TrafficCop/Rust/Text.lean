import Mathlib.Data.List.DropRight
import Mathlib.Data.List.Infix
import Mathlib.Algebra.BigOperators.Group.List.Basic

/-!
# Rust — strings

A Rust `String` or `&str` is the list of its characters. Bytes are kept where they can be observed:
`byteLen` is `str::len`, and `sliceFrom` / `sliceTo` are `&s[n..]` / `&s[..n]`, which panic (here:
`none`) when the byte offset is past the end or inside a character.
-/

namespace Rust

open List Option

/-- The characters of a `String` or `&str`. -/
abbrev Text := List Char

/-- A literal stands for its characters. -/
instance : Coe String Text := ⟨String.toList⟩

/-! ## Characters -/

def isAscii (c : Char) : Bool := c.toNat < 128

/-- `char::is_whitespace`: the Unicode `White_Space` property. -/
def isWhitespace (c : Char) : Bool :=
  let n := c.toNat
  (9 ≤ n && n ≤ 13) || n == 32 || n == 0x85 || n == 0xA0 || n == 0x1680 ||
    (0x2000 ≤ n && n ≤ 0x200A) || n == 0x2028 || n == 0x2029 || n == 0x202F ||
    n == 0x205F || n == 0x3000

def isAsciiHexdigit (c : Char) : Bool :=
  ('0' ≤ c && c ≤ '9') || ('a' ≤ c && c ≤ 'f') || ('A' ≤ c && c ≤ 'F')

variable {s t w p : Text} {c : Char} {n : Nat}

/-- A property checked character by character; instance search for the statement itself may try all
of `Char`. -/
lemma forall_char {p : Char → Prop} [DecidablePred p]
    (h : (s.all fun c => decide (p c)) = true) : ∀ c ∈ s, p c := by
  simpa using h

lemma utf8Size_of_isAscii (h : isAscii c) : c.utf8Size = 1 := by
  rw [isAscii, decide_eq_true_eq] at h
  have hv : c.val.toNat ≤ 0x7f := Nat.le_of_lt_succ h
  rw [Char.utf8Size_eq_one_iff, UInt32.le_iff_toNat_le]
  exact hv

lemma isAscii_of_utf8Size (h : c.utf8Size = 1) : isAscii c := by
  have hle : c.toNat ≤ 127 := Char.utf8Size_eq_one_iff.mp h
  simp only [isAscii, decide_eq_true_eq]
  omega

lemma isUpper_iff (c : Char) : c.isUpper ↔ 65 ≤ c.toNat ∧ c.toNat ≤ 90 := by
  delta Char.isUpper
  exact decide_eq_true_iff

lemma isLower_iff (c : Char) : c.isLower ↔ 97 ≤ c.toNat ∧ c.toNat ≤ 122 := by
  delta Char.isLower
  rw [Bool.and_eq_true, decide_eq_true_iff, decide_eq_true_iff]
  rfl

lemma isDigit_iff (c : Char) : c.isDigit ↔ 48 ≤ c.toNat ∧ c.toNat ≤ 57 := by
  delta Char.isDigit
  rw [Bool.and_eq_true, decide_eq_true_iff, decide_eq_true_iff]
  rfl

lemma isAlphanum_iff (c : Char) : c.isAlphanum ↔
    (48 ≤ c.toNat ∧ c.toNat ≤ 57) ∨ (65 ≤ c.toNat ∧ c.toNat ≤ 90) ∨
      (97 ≤ c.toNat ∧ c.toNat ≤ 122) := by
  delta Char.isAlphanum Char.isAlpha
  rw [Bool.or_eq_true, Bool.or_eq_true, isUpper_iff, isLower_iff, isDigit_iff]
  exact or_comm

/-! ## Case -/

def toAsciiLowercase (s : Text) : Text := s.map Char.toLower

lemma isAscii_of_toLower (h : isAscii c.toLower) : isAscii c := by
  delta Char.toLower at h
  split at h
  · next hupper =>
    -- the letters that are mapped are ASCII letters
    have hle : c.val ≤ 'Z'.val := hupper.2
    have hnat : c.toNat ≤ 90 := hle
    simp only [isAscii, decide_eq_true_eq]
    omega
  · exact h

lemma isAscii_of_lowercase {name : Text} (hname : ∀ c ∈ name, isAscii c)
    (h : toAsciiLowercase s = name) : ∀ c ∈ s, isAscii c := by
  intro c hc
  refine isAscii_of_toLower (hname _ ?_)
  rw [← h]
  exact mem_map_of_mem hc

/-- `str::eq_ignore_ascii_case`: equal lengths, and letters equal up to case. -/
def eqIgnoreAsciiCase : Text → Text → Bool
  | [], [] => true
  | a :: as, b :: bs => a.toLower == b.toLower && eqIgnoreAsciiCase as bs
  | _, _ => false

lemma eqIgnoreAsciiCase_iff :
    eqIgnoreAsciiCase s t ↔ toAsciiLowercase s = toAsciiLowercase t := by
  induction s generalizing t with
  | nil => cases t <;> simp [eqIgnoreAsciiCase, toAsciiLowercase]
  | cons a as ih =>
    cases t with
    | nil => simp [eqIgnoreAsciiCase, toAsciiLowercase]
    | cons b bs =>
      have hrec := ih (t := bs)
      simp only [toAsciiLowercase] at hrec
      simp [eqIgnoreAsciiCase, toAsciiLowercase, hrec]

/-! ## Trimming -/

def trimStart (s : Text) : Text := s.dropWhile isWhitespace

def trimEnd (s : Text) : Text := s.rdropWhile isWhitespace

def trim (s : Text) : Text := trimEnd (trimStart s)

lemma trimEnd_append_ws (hw : ∀ c ∈ w, isWhitespace c) : trimEnd (s ++ w) = trimEnd s := by
  induction w using reverseRecOn with
  | nil => simp
  | append_singleton w c ih =>
    have hc : isWhitespace c := hw c (by simp)
    rw [← append_assoc, trimEnd, rdropWhile_concat_pos _ _ _ hc]
    exact ih fun d hd => hw d (by simp [hd])

lemma trimStart_ws_append (hw : ∀ c ∈ w, isWhitespace c) : trimStart (w ++ s) = trimStart s :=
  dropWhile_append_of_pos hw

/-- A text whose first and last characters are visible. -/
def Trimmed (s : Text) : Prop :=
  (∀ c, s.head? = some c → isWhitespace c = false) ∧
    ∀ c, s.getLast? = some c → isWhitespace c = false

lemma trimStart_of_head (h : ∀ c, s.head? = some c → isWhitespace c = false) :
    trimStart s = s := by
  cases s with
  | nil => rfl
  | cons c s =>
    have hc : isWhitespace c = false := h c rfl
    rw [trimStart, dropWhile_cons_of_neg (by simp [hc])]

lemma trimEnd_of_last (h : ∀ c, s.getLast? = some c → isWhitespace c = false) :
    trimEnd s = s := by
  induction s using reverseRecOn with
  | nil => rfl
  | append_singleton s c _ =>
    have hc : isWhitespace c = false := h c (by simp)
    rw [trimEnd, rdropWhile_concat_neg _ _ _ (by simp [hc])]

lemma trim_append_ws (hw : ∀ c ∈ w, isWhitespace c) : trim (s ++ w) = trim s := by
  rw [trim, trim, trimStart, dropWhile_append]
  split
  next hempty =>
    rw [List.isEmpty_iff] at hempty
    have hall : w.dropWhile isWhitespace = [] := dropWhile_eq_nil_iff.mpr hw
    rw [hall, trimStart, hempty]
  next => exact trimEnd_append_ws hw

lemma trim_ws_append (hw : ∀ c ∈ w, isWhitespace c) : trim (w ++ s) = trim s := by
  rw [trim, trimStart_ws_append hw, trim]

lemma trim_of_trimmed (h : Trimmed s) : trim s = s := by
  rw [trim, trimStart_of_head h.1, trimEnd_of_last h.2]

lemma exists_trim_padding (s : Text) :
    ∃ w w' : Text, (∀ c ∈ w, isWhitespace c) ∧ (∀ c ∈ w', isWhitespace c) ∧
      s = w ++ trim s ++ w' := by
  refine ⟨s.takeWhile isWhitespace, (trimStart s).rtakeWhile isWhitespace, ?_, ?_, ?_⟩
  · intro c hc
    exact mem_takeWhile_imp hc
  · intro c hc
    exact mem_rtakeWhile_imp hc
  · have hback : trimStart s = trim s ++ (trimStart s).rtakeWhile isWhitespace :=
      (rdropWhile_append_rtakeWhile ..).symm
    rw [append_assoc, ← hback, trimStart, takeWhile_append_dropWhile]

lemma trim_length_le (s : Text) : (trim s).length ≤ s.length := by
  obtain ⟨w, w', -, -, hs⟩ := exists_trim_padding s
  have := congrArg length hs
  simp only [length_append] at this
  omega

lemma getLast?_trimEnd (h : (trimEnd s).getLast? = some c) : isWhitespace c = false := by
  have hne : trimEnd s ≠ [] := by
    intro hnil
    rw [hnil] at h
    simp at h
  rw [getLast?_eq_getLast_of_ne_nil hne, some.injEq] at h
  have hlast := rdropWhile_last_not isWhitespace s hne
  rw [← h]
  exact Bool.not_eq_true _ ▸ hlast

lemma trimmed_trim (s : Text) : Trimmed (trim s) := by
  refine ⟨fun c hc => ?_, fun c hc => ?_⟩
  · -- the head of `trim s` is the head of `trimStart s`
    have hpre : trim s <+: trimStart s := rdropWhile_prefix _ _
    obtain ⟨t, ht⟩ := hpre
    cases htr : trim s with
    | nil => rw [htr] at hc; simp at hc
    | cons d rest =>
      rw [htr] at hc ht
      have hcd : d = c := by simpa using hc
      subst hcd
      have hhead : (s.dropWhile isWhitespace).head? = some d := by
        rw [← trimStart, ← ht]
        rfl
      have hnot := head?_dropWhile_not isWhitespace s
      rw [hhead] at hnot
      exact hnot
  · exact getLast?_trimEnd hc

@[simp] lemma trim_trim (s : Text) : trim (trim s) = trim s :=
  trim_of_trimmed (trimmed_trim s)

lemma trim_cons_visible (hc : isWhitespace c = false) :
    ∃ s', trim (c :: s) = c :: s' ∧ trim s' = trim s := by
  obtain ⟨w, w', hw, hw', heq⟩ := exists_trim_padding (c :: s)
  have hw0 : w = [] := by
    cases w with
    | nil => rfl
    | cons d w =>
      obtain ⟨rfl, -⟩ := cons.inj heq
      simp [hw c mem_cons_self] at hc
  subst hw0
  cases htrim : trim (c :: s) with
  | nil =>
    rw [htrim] at heq
    have := hw' c (by rw [← nil_append w', ← nil_append [], ← heq]; simp)
    simp [this] at hc
  | cons d s' =>
    rw [htrim] at heq
    obtain ⟨rfl, rfl⟩ := cons.inj heq
    exact ⟨s', rfl, (trim_append_ws hw').symm⟩

lemma trim_append_visible (hc : isWhitespace c = false) (s t : Text) :
    trim (s ++ c :: t) = trimStart s ++ c :: trimEnd t := by
  have hstart : trimStart (s ++ c :: t) = trimStart s ++ c :: t := by
    rw [trimStart, dropWhile_append]
    split
    · next hempty =>
      rw [trimStart, isEmpty_iff.mp hempty, dropWhile_cons_of_neg (by simp [hc])]
      rfl
    · rfl
  rw [trim, hstart]
  clear hstart
  -- trailing whitespace is taken off up to the character at most
  induction t using reverseRecOn with
  | nil =>
    rw [trimEnd, rdropWhile_concat_neg _ _ _ (by simp [hc])]
    rfl
  | append_singleton t d ih =>
    have hassoc : trimStart s ++ c :: (t ++ [d]) = trimStart s ++ c :: t ++ [d] := by simp
    rw [hassoc, trimEnd, trimEnd]
    by_cases hd : isWhitespace d
    · rw [rdropWhile_concat_pos _ _ _ hd, rdropWhile_concat_pos _ _ _ hd]
      exact ih
    · rw [rdropWhile_concat_neg _ _ _ hd, rdropWhile_concat_neg _ _ _ hd, hassoc]

def trimMatches (c : Char) (s : Text) : Text := (s.dropWhile (· == c)).rdropWhile (· == c)

/-! ## Searching -/

/-- `s.find(c)?` with the slices before and after the match, which do not panic. -/
def splitOnce (c : Char) : Text → Option (Text × Text)
  | [] => none
  | d :: s => if d = c then some ([], s) else (splitOnce c s).map fun p => (d :: p.1, p.2)

lemma splitOnce_eq_some_iff {before after : Text} :
    splitOnce c s = some (before, after) ↔ s = before ++ c :: after ∧ c ∉ before := by
  induction s generalizing before with
  | nil => simp [splitOnce]
  | cons d s ih =>
    rw [splitOnce]
    split
    · next hd =>
      subst hd
      cases before with
      | nil => simp [eq_comm]
      | cons e before =>
        simp only [some.injEq, Prod.mk.injEq, cons_append, cons.injEq,
          mem_cons, not_or, reduceCtorEq, false_and, false_iff]
        rintro ⟨⟨rfl, -⟩, hne, -⟩
        exact hne rfl
    · next hd =>
      rw [map_eq_some_iff]
      constructor
      · rintro ⟨⟨a, b⟩, hsplit, hpair⟩
        cases hpair
        obtain ⟨rfl, hnot⟩ := ih.mp hsplit
        exact ⟨rfl, by simp [hnot, Ne.symm hd]⟩
      · rintro ⟨heq, hnot⟩
        cases before with
        | nil => exact absurd (cons.inj heq).1 hd
        | cons e before =>
          obtain ⟨rfl, rfl⟩ := cons.inj heq
          exact ⟨(before, after), ih.mpr ⟨rfl, fun h => hnot (mem_cons_of_mem _ h)⟩, rfl⟩

def stripPrefix (p s : Text) : Option Text := p.isPrefixOf? s

lemma stripPrefix_eq_some_iff : stripPrefix p s = some t ↔ p ++ t = s :=
  isPrefixOf?_eq_some_iff_append_eq

lemma splitOnce_append (t : Text) (h : c ∉ s) :
    splitOnce c (s ++ c :: t) = some (s, t) := splitOnce_eq_some_iff.mpr ⟨rfl, h⟩

lemma stripPrefix_append (p t : Text) : stripPrefix p (p ++ t) = some t :=
  stripPrefix_eq_some_iff.mpr rfl

def replace (c : Char) (new s : Text) : Text := s.flatMap fun d => if d = c then new else [d]

/-! ## Splitting -/

lemma infix_intercalate (sep : Text) {part : Text} {parts : List Text} (h : part ∈ parts) :
    part <:+: sep.intercalate parts := by
  induction parts with
  | nil => cases h
  | cons head parts ih =>
    cases parts with
    | nil =>
      obtain rfl := mem_singleton.mp h
      rw [intercalate_singleton]
    | cons next parts =>
      rw [intercalate_cons_cons]
      rcases mem_cons.mp h with rfl | h
      · rw [append_assoc]
        exact (prefix_append _ _).isInfix
      · exact (ih h).trans (suffix_append _ _).isInfix

lemma infix_of_mem_splitOn {piece : Text} (h : piece ∈ s.splitOn c) : piece <:+: s := by
  have hinfix := infix_intercalate [c] h
  rwa [intercalate_splitOn] at hinfix

lemma notMem_of_mem_splitOn {piece : Text} (h : piece ∈ s.splitOn c) : c ∉ piece := by
  induction s generalizing piece with
  | nil =>
    rw [splitOn_nil, mem_singleton] at h
    rw [h]
    exact not_mem_nil
  | cons d s ih =>
    rw [splitOn_cons_eq_if_modifyHead] at h
    split at h
    · rcases mem_cons.mp h with rfl | h
      · exact not_mem_nil
      · exact ih h
    · next hd =>
      -- the character goes to the front of the first piece
      obtain ⟨first, rest, hsplit⟩ := exists_cons_of_ne_nil (splitOn_ne_nil (a := c) s)
      rw [hsplit, modifyHead_cons] at h
      rcases mem_cons.mp h with rfl | h
      · intro hmem
        rcases mem_cons.mp hmem with rfl | hmem
        · exact hd (beq_self_eq_true _)
        · exact ih (hsplit ▸ mem_cons_self) hmem
      · exact ih (hsplit ▸ mem_cons_of_mem _ h)

/-! ## Numbers -/

/-- The digits of an unsigned number; at least one, ASCII only. -/
def parseDigits (s : Text) : Option Nat :=
  if s.isEmpty then none else if s.all Char.isDigit then some (Nat.ofDigitChars 10 s 0) else none

lemma parseDigits_toDigits (n : ℕ) : parseDigits (Nat.toDigits 10 n) = some n := by
  have hdigits : (Nat.toDigits 10 n).all Char.isDigit = true :=
    all_eq_true.mpr fun c => Nat.isDigit_of_mem_toDigits (by decide) (by decide)
  have hne : (Nat.toDigits 10 n).isEmpty = false :=
    isEmpty_eq_false_iff.mpr Nat.toDigits_ne_nil
  simp only [parseDigits, hne, hdigits, Bool.false_eq_true, if_false, if_true]
  rw [Nat.ofDigitChars_toDigits (by decide) (by decide)]

def parseI64 (s : Text) : Option Int :=
  let n : Option Int := match s with
    | '-' :: digits => (parseDigits digits).map fun n => -(n : Int)
    | '+' :: digits => (parseDigits digits).map fun n => (n : Int)
    | digits => (parseDigits digits).map fun n => (n : Int)
  n.filter fun n => -2 ^ 63 ≤ n && n < 2 ^ 63

def parseU16 (s : Text) : Option UInt16 :=
  let n := match s with
    | '+' :: digits => parseDigits digits
    | digits => parseDigits digits
  (n.filter (· < 65536)).map UInt16.ofNat

/-! ## Bytes -/

/-- The bytes of a text, as UTF-8. -/
def asBytes (s : Text) : List UInt8 := s.flatMap String.utf8EncodeChar

lemma asBytes_injective : Function.Injective asBytes := by
  intro s t h
  have hencode : s.utf8Encode = t.utf8Encode := congrArg toByteArray h
  refine String.ofList_injective (String.toByteArray_inj.mp ?_)
  rw [String.toByteArray_ofList, String.toByteArray_ofList, hencode]

lemma utf8EncodeChar_of_isAscii (h : isAscii c) :
    String.utf8EncodeChar c = [UInt8.ofNat c.toNat] :=
  String.utf8EncodeChar_eq_singleton (utf8Size_of_isAscii h)

lemma utf8EncodeChar_of_not_isAscii (h : isAscii c = false) :
    ∃ b bytes, String.utf8EncodeChar c = b :: bytes ∧ 128 ≤ b.toNat := by
  have hlead : ∀ (x y mark : UInt8), 128 ≤ mark.toNat → 128 ≤ (x &&& y ||| mark).toNat := by
    intro x y mark hmark
    rw [UInt8.toNat_or]
    exact hmark.trans Nat.right_le_or
  have hsize : c.utf8Size ≠ 1 := by
    rw [Ne, Char.utf8Size_eq_one_iff, UInt32.le_iff_toNat_le]
    have hlarge := of_decide_eq_false h
    change ¬c.toNat ≤ 127
    omega
  rcases c.utf8Size_eq with h₁ | h₂ | h₃ | h₄
  · exact absurd h₁ hsize
  · exact ⟨_, _, String.utf8EncodeChar_eq_cons_cons h₂, hlead _ _ _ (by decide)⟩
  · exact ⟨_, _, String.utf8EncodeChar_eq_cons_cons_cons h₃, hlead _ _ _ (by decide)⟩
  · exact ⟨_, _, String.utf8EncodeChar_eq_cons_cons_cons_cons h₄, hlead _ _ _ (by decide)⟩

def fromUtf8 (bytes : List UInt8) : Option Text :=
  (String.fromUTF8? ⟨bytes.toArray⟩).map String.toList

lemma fromUtf8_asBytes (s : Text) : fromUtf8 (asBytes s) = some s := by
  have hbytes : (⟨(asBytes s).toArray⟩ : ByteArray) = s.utf8Encode :=
    ByteArray.ext (data_toByteArray (l := asBytes s)).symm
  rw [fromUtf8, hbytes, String.fromUTF8?, dif_pos ByteArray.isValidUTF8_utf8Encode]
  exact congrArg some (String.toList_ofList (l := s))

/-! ## Byte offsets and slices -/

/-- `str::len`: the number of bytes of the UTF-8 encoding. -/
def byteLen : Text → Nat
  | [] => 0
  | c :: s => c.utf8Size + byteLen s

/-- `&s[n..]`; `none` where the slice panics. -/
def sliceFrom : Text → Nat → Option Text
  | s, 0 => some s
  | [], _ + 1 => none
  | c :: s, n + 1 => if c.utf8Size ≤ n + 1 then sliceFrom s (n + 1 - c.utf8Size) else none

/-- `&s[..n]`; `none` where the slice panics. -/
def sliceTo : Text → Nat → Option Text
  | _, 0 => some []
  | [], _ + 1 => none
  | c :: s, n + 1 =>
    if c.utf8Size ≤ n + 1 then (sliceTo s (n + 1 - c.utf8Size)).map (c :: ·) else none

/-- `&s[a..b]`; `none` where the slice panics, which it does for `b < a` as well. -/
def slice (s : Text) (a b : Nat) : Option Text := (sliceTo s b).bind (sliceFrom · a)

@[simp] lemma byteLen_nil : byteLen [] = 0 := rfl

@[simp] lemma byteLen_cons (c : Char) (s : Text) :
    byteLen (c :: s) = c.utf8Size + byteLen s := rfl

@[simp] lemma byteLen_append (s t : Text) : byteLen (s ++ t) = byteLen s + byteLen t := by
  induction s with
  | nil => simp
  | cons c s ih => simp [ih, Nat.add_assoc]

lemma length_le_byteLen (s : Text) : s.length ≤ byteLen s := by
  induction s with
  | nil => simp
  | cons c s ih =>
    have := c.utf8Size_pos
    simp only [length_cons, byteLen_cons]
    omega

lemma byteLen_of_ascii (h : ∀ c ∈ s, isAscii c) : byteLen s = s.length := by
  induction s with
  | nil => rfl
  | cons c s ih =>
    have hc := utf8Size_of_isAscii (h c (by simp))
    have hs := ih fun d hd => h d (by simp [hd])
    simp only [byteLen_cons, length_cons]
    omega

lemma sliceFrom_eq_some_iff : sliceFrom s n = some t ↔ ∃ p, s = p ++ t ∧ byteLen p = n := by
  induction s generalizing n with
  | nil =>
    cases n with
    | zero => simp [sliceFrom, eq_comm]
    | succ n =>
      simp only [sliceFrom, reduceCtorEq, false_iff, not_exists, not_and]
      intro p hp
      have : p = [] := (append_eq_nil_iff.mp hp.symm).1
      simp [this]
  | cons c s ih =>
    have hpos := c.utf8Size_pos
    cases n with
    | zero =>
      rw [sliceFrom, some.injEq]
      constructor
      · rintro rfl
        exact ⟨[], rfl, rfl⟩
      · rintro ⟨p, hp, hlen⟩
        cases p with
        | nil => exact hp
        | cons d p =>
          have := d.utf8Size_pos
          rw [byteLen_cons] at hlen
          omega
    | succ n =>
      rw [sliceFrom]
      constructor
      · intro h
        split at h
        next hle =>
          obtain ⟨p, rfl, hlen⟩ := ih.mp h
          exact ⟨c :: p, rfl, by rw [byteLen_cons]; omega⟩
        next => simp at h
      · rintro ⟨p, hp, hlen⟩
        cases p with
        | nil => simp at hlen
        | cons d p =>
          obtain ⟨rfl, rfl⟩ := cons.inj hp
          rw [byteLen_cons] at hlen
          rw [if_pos (by omega)]
          exact ih.mpr ⟨p, rfl, by omega⟩

lemma sliceTo_eq_some_iff : sliceTo s n = some p ↔ ∃ t, s = p ++ t ∧ byteLen p = n := by
  induction s generalizing n p with
  | nil =>
    cases n with
    | zero =>
      rw [sliceTo, some.injEq]
      constructor
      · rintro rfl
        exact ⟨[], rfl, rfl⟩
      · rintro ⟨t, ht, -⟩
        exact (append_eq_nil_iff.mp ht.symm).1.symm
    | succ n =>
      simp only [sliceTo, reduceCtorEq, false_iff, not_exists, not_and]
      intro t ht
      have : p = [] := (append_eq_nil_iff.mp ht.symm).1
      simp [this]
  | cons c s ih =>
    have hpos := c.utf8Size_pos
    cases n with
    | zero =>
      rw [sliceTo, some.injEq]
      constructor
      · rintro rfl
        exact ⟨c :: s, rfl, rfl⟩
      · rintro ⟨t, -, hlen⟩
        have := length_le_byteLen p
        exact (length_eq_zero_iff.mp (by omega)).symm
    | succ n =>
      -- a cut inside of a character fails
      rw [sliceTo]
      constructor
      · intro h
        split at h
        next hle =>
          obtain ⟨q, hq, rfl⟩ := map_eq_some_iff.mp h
          obtain ⟨t, rfl, hlen⟩ := ih.mp hq
          exact ⟨t, rfl, by rw [byteLen_cons]; omega⟩
        next => simp at h
      · rintro ⟨t, ht, hlen⟩
        cases p with
        | nil => simp at hlen
        | cons d p =>
          obtain ⟨rfl, rfl⟩ := cons.inj ht
          rw [byteLen_cons] at hlen
          rw [if_pos (by omega)]
          exact map_eq_some_iff.mpr ⟨p, ih.mpr ⟨t, rfl, by omega⟩, rfl⟩

lemma sliceFrom_append (p t : Text) : sliceFrom (p ++ t) (byteLen p) = some t :=
  sliceFrom_eq_some_iff.mpr ⟨p, rfl, rfl⟩

lemma sliceTo_append (p t : Text) : sliceTo (p ++ t) (byteLen p) = some p :=
  sliceTo_eq_some_iff.mpr ⟨t, rfl, rfl⟩

lemma sliceTo_inside (hlow : byteLen p < n)
    (hhigh : n < byteLen p + c.utf8Size) : sliceTo (p ++ c :: t) n = none := by
  rw [eq_none_iff_forall_not_mem]
  intro q hq
  obtain ⟨t', hsplit, hlen⟩ := sliceTo_eq_some_iff.mp hq
  rcases append_eq_append_iff.mp hsplit with ⟨a, rfl, ha⟩ | ⟨a, rfl, -⟩
  · -- `q` goes on behind `p`, and then the character is in it
    cases a with
    | nil => simp at hlen; omega
    | cons d a =>
      obtain ⟨rfl, -⟩ := cons.inj ha
      simp only [byteLen_append, byteLen_cons] at hlen
      omega
  · simp only [byteLen_append] at hlow
    omega

end Rust
