import Mathlib.Algebra.Field.Rat
import Mathlib.Data.List.Infix
import Mathlib.Data.List.Nodup

/-!
# JSON texts

The grammar of RFC 8259 as concrete syntax: a `Document` has every character of an object's text,
white space and spelling included. What the text means is read off it.
-/

namespace Json

open List Option

/-! ## White space -/

def isWs (c : Char) : Bool := c == ' ' || c == '\t' || c == '\n' || c == '\r'

structure Ws where
  chars : List Char
  blank : ∀ c ∈ chars, isWs c = true

def Ws.none : Ws := ⟨[], by simp⟩

/-! ## Strings -/

/-- A character that may stand between the quotes as itself. -/
def isUnescaped (c : Char) : Bool := 0x20 ≤ c.toNat && c != '"' && c != '\\'

/-- What may follow a backslash, apart from the `u` of a code unit. -/
inductive Escape where
  | quote
  | backslash
  | slash
  | backspace
  | formFeed
  | newline
  | carriageReturn
  | tab
  deriving Repr, DecidableEq

def Escape.char : Escape → Char
  | .quote => '"'
  | .backslash => '\\'
  | .slash => '/'
  | .backspace => 'b'
  | .formFeed => 'f'
  | .newline => 'n'
  | .carriageReturn => 'r'
  | .tab => 't'

def Escape.codePoint : Escape → Nat
  | .quote => 0x22
  | .backslash => 0x5C
  | .slash => 0x2F
  | .backspace => 0x08
  | .formFeed => 0x0C
  | .newline => 0x0A
  | .carriageReturn => 0x0D
  | .tab => 0x09

def isHexDigit (c : Char) : Bool :=
  ('0' ≤ c && c ≤ '9') || ('a' ≤ c && c ≤ 'f') || ('A' ≤ c && c ≤ 'F')

structure HexDigit where
  char : Char
  isHex : isHexDigit char = true

def HexDigit.value (d : HexDigit) : Nat :=
  if d.char ≤ '9' then d.char.toNat - 48
  else if d.char ≤ 'F' then d.char.toNat - 55
  else d.char.toNat - 87

/-- A character between the quotes, in one of its spellings. -/
inductive Piece where
  | plain (c : Char) (unescaped : isUnescaped c = true)
  | escape (e : Escape)
  | unicode (a b c d : HexDigit)

namespace Piece

def text : Piece → List Char
  | .plain c _ => [c]
  | .escape e => ['\\', e.char]
  | .unicode a b c d => ['\\', 'u', a.char, b.char, c.char, d.char]

/-- The code point, or the half of a surrogate pair. -/
def codePoint : Piece → Nat
  | .plain c _ => c.toNat
  | .escape e => e.codePoint
  | .unicode a b c d => ((a.value * 16 + b.value) * 16 + c.value) * 16 + d.value

def isPlain : Piece → Bool
  | .plain _ _ => true
  | .escape _ => false
  | .unicode _ _ _ _ => false

def isHigh (p : Piece) : Bool := 0xD800 ≤ p.codePoint && p.codePoint ≤ 0xDBFF

def isLow (p : Piece) : Bool := 0xDC00 ≤ p.codePoint && p.codePoint ≤ 0xDFFF

end Piece

def rawText (s : List Piece) : List Char := s.flatMap Piece.text

/-- The code points that a string stands for. -/
def decode : List Piece → List Nat
  | [] => []
  | [p] => [p.codePoint]
  | p :: q :: rest =>
    if p.isHigh && q.isLow then
      (0x10000 + (p.codePoint - 0xD800) * 0x400 + (q.codePoint - 0xDC00)) :: decode rest
    else p.codePoint :: decode (q :: rest)

/-- Without escapes. -/
def Plain (s : List Piece) : Prop := ∀ p ∈ s, p.isPlain = true

/-- The spelling without escapes, for characters that need none. -/
def spell (s : List Char) : List Piece :=
  s.filterMap fun c => if h : isUnescaped c = true then some (.plain c h) else none

lemma plain_spell (s : List Char) : Plain (spell s) := by
  intro p hp
  obtain ⟨c, -, hc⟩ := mem_filterMap.mp hp
  split at hc
  · cases hc
    rfl
  · cases hc

@[simp] lemma rawText_nil : rawText [] = [] := rfl

@[simp] lemma rawText_cons (p : Piece) (s : List Piece) :
    rawText (p :: s) = p.text ++ rawText s := rfl

@[simp] lemma rawText_append (s t : List Piece) : rawText (s ++ t) = rawText s ++ rawText t := by
  simp [rawText]

lemma toNat_not_surrogate (c : Char) : c.toNat < 0xD800 ∨ 0xDFFF < c.toNat := by
  rcases c.valid with h | h
  · exact .inl h
  · exact .inr h.1

variable {p : Piece} {s : List Piece}

lemma Piece.not_surrogate (h : ∀ a b c d, p ≠ .unicode a b c d) :
    p.isHigh = false ∧ p.isLow = false := by
  cases p with
  | plain c hc =>
    have hchar := toNat_not_surrogate c
    constructor
    · rw [isHigh, codePoint, ← Bool.not_eq_true, Bool.and_eq_true_iff, decide_eq_true_eq,
        decide_eq_true_eq]
      omega
    · rw [isLow, codePoint, ← Bool.not_eq_true, Bool.and_eq_true_iff, decide_eq_true_eq,
        decide_eq_true_eq]
      omega
  | escape e => cases e <;> decide
  | unicode a b c d => exact absurd rfl (h a b c d)

lemma decode_cons (s : List Piece) (h : p.isHigh = false) :
    decode (p :: s) = p.codePoint :: decode s := by
  cases s with
  | nil => rfl
  | cons q s => simp [decode, h]

/-- Without escapes the text and the meaning are the same characters. -/
lemma decode_of_plain (h : Plain s) : decode s = (rawText s).map Char.toNat := by
  induction s with
  | nil => rfl
  | cons p s ih =>
    obtain ⟨hp, hs⟩ := forall_mem_cons.mp h
    cases p with
    | plain c hc =>
      rw [decode_cons s (Piece.not_surrogate (by simp)).1, ih hs]
      rfl
    | escape e => cases hp
    | unicode a b c d => cases hp

lemma decode_concat (s : List Piece) (h : p.isLow = false) :
    decode (s ++ [p]) = decode s ++ [p.codePoint] := by
  induction s using decode.induct with
  | case1 => rfl
  | case2 q => simp [decode, h]
  | case3 q r rest hpair ih =>
    simp only [cons_append, decode, hpair, if_true]
    rw [ih]
  | case4 q r rest hpair ih =>
    simp only [cons_append, decode, hpair, Bool.false_eq_true, if_false]
    rw [← cons_append, ih]

/-- What is no half of a pair is found in the meaning. -/
lemma mem_decode (hp : p ∈ s) (hhigh : p.isHigh = false)
    (hlow : p.isLow = false) : p.codePoint ∈ decode s := by
  induction s using decode.induct with
  | case1 => cases hp
  | case2 q =>
    rw [mem_singleton.mp hp]
    simp [decode]
  | case3 q r rest hpair ih =>
    simp only [decode, hpair, if_true]
    rcases mem_cons.mp hp with rfl | hp
    · simp [hhigh] at hpair
    rcases mem_cons.mp hp with rfl | hp
    · simp [hlow] at hpair
    exact mem_cons_of_mem _ (ih hp)
  | case4 q r rest hpair ih =>
    simp only [decode, hpair, Bool.false_eq_true, if_false]
    rcases mem_cons.mp hp with rfl | hp
    · exact mem_cons_self
    · exact mem_cons_of_mem _ (ih hp)

lemma Piece.text_length (p : Piece) : 1 + (!p.isPlain).toNat ≤ p.text.length := by
  cases p <;> simp [text, isPlain]

lemma length_decode_add_le (s : List Piece) :
    (decode s).length + (s.filter fun p => !p.isPlain).length ≤ (rawText s).length := by
  have hfilter : ∀ (p : Piece) (t : List Piece), ((p :: t).filter fun p => !p.isPlain).length =
      (!p.isPlain).toNat + (t.filter fun p => !p.isPlain).length := by
    intro p t
    cases hp : p.isPlain <;> simp [hp, Nat.add_comm]
  induction s using decode.induct with
  | case1 => simp [decode]
  | case2 p =>
    have hp := p.text_length
    simp only [decode, hfilter, rawText_cons, length_append, length_cons]
    simp only [filter_nil, length_nil, rawText_nil]
    omega
  | case3 p q rest hpair ih =>
    have hp := p.text_length
    have hq := q.text_length
    simp only [decode, hpair, if_true, hfilter, rawText_cons, length_append, length_cons]
    omega
  | case4 p q rest hpair ih =>
    have hp := p.text_length
    rw [hfilter, rawText_cons, length_append]
    simp only [decode, hpair, Bool.false_eq_true, if_false, length_cons]
    omega

/-- An escape is longer than what it denotes. -/
lemma length_decode_le (s : List Piece) : (decode s).length ≤ (rawText s).length :=
  Nat.le_of_add_right_le (length_decode_add_le s)

lemma plain_of_length_le (h : (rawText s).length ≤ (decode s).length) : Plain s := by
  have hle := length_decode_add_le s
  have hnone : (s.filter fun p => !p.isPlain) = [] := eq_nil_of_length_eq_zero (by omega)
  intro p hp
  simpa using filter_eq_nil_iff.mp hnone p hp

lemma length_flatten_decode_le (ss : List (List Piece)) :
    (ss.map decode).flatten.length ≤ (ss.map rawText).flatten.length := by
  induction ss with
  | nil => exact Nat.le_refl 0
  | cons s ss ih =>
    have hs := length_decode_le s
    simp only [map_cons, flatten_cons, length_append]
    omega

/-- The same for several strings together. -/
lemma plain_of_length_flatten_le (ss : List (List Piece))
    (h : (ss.map rawText).flatten.length ≤ (ss.map decode).flatten.length) :
    ∀ s ∈ ss, Plain s := by
  induction ss with
  | nil => simp
  | cons s ss ih =>
    have hs := length_decode_le s
    have hss := length_flatten_decode_le ss
    simp only [map_cons, flatten_cons, length_append] at h
    exact forall_mem_cons.mpr ⟨plain_of_length_le (by omega), ih (by omega)⟩

lemma Piece.text_eq_concat (h : p ≠ .escape .quote) : ∃ t c, p.text = t ++ [c] ∧ c ≠ '"' := by
  cases p with
  | plain c hc =>
    refine ⟨[], c, rfl, ?_⟩
    rintro rfl
    exact absurd hc (by decide)
  | escape e =>
    refine ⟨['\\'], e.char, rfl, ?_⟩
    cases e with
    | quote => exact absurd rfl h
    | _ => decide
  | unicode a b c d =>
    refine ⟨['\\', 'u', a.char, b.char, c.char], d.char, rfl, ?_⟩
    intro hd
    have hhex := d.isHex
    rw [hd] at hhex
    exact absurd hhex (by decide)

lemma plain_of_backslash (h : '\\' ∉ rawText s) : Plain s := by
  intro p hp
  cases p with
  | plain c hc => rfl
  | escape e => exact absurd (mem_flatMap.mpr ⟨_, hp, mem_cons_self⟩) h
  | unicode a b c d => exact absurd (mem_flatMap.mpr ⟨_, hp, mem_cons_self⟩) h

lemma rawText_ne_nil (h : s ≠ []) : rawText s ≠ [] := by
  cases s with
  | nil => exact absurd rfl h
  | cons p s => cases p <;> simp [Piece.text]

lemma quote_mem_rawText : '"' ∈ rawText s ↔ Piece.escape .quote ∈ s := by
  rw [rawText, mem_flatMap]
  constructor
  · rintro ⟨p, hp, hquote⟩
    cases p with
    | plain c hc =>
      rw [← mem_singleton.mp hquote] at hc
      exact absurd hc (by decide)
    | escape e => cases e <;> simp_all [Piece.text, Escape.char]
    | unicode a b c d =>
      have hhex : ∀ d : HexDigit, '"' ≠ d.char := by
        intro d heq
        have hd := d.isHex
        rw [← heq] at hd
        exact absurd hd (by decide)
      simp [Piece.text, hhex] at hquote
  · intro h
    exact ⟨_, h, by decide⟩

lemma toNat_mem_decode {c : Char} (hc : c ∈ rawText s) (hslash : c ≠ '\\')
    (hu : c ≠ 'u') (hescape : ∀ e : Escape, c ≠ e.char) (hhex : isHexDigit c = false) :
    c.toNat ∈ decode s := by
  obtain ⟨p, hp, hmem⟩ := mem_flatMap.mp hc
  cases p with
  | plain d hd =>
    have hsurrogate := Piece.not_surrogate (p := .plain d hd) (by simp)
    rw [mem_singleton.mp hmem]
    exact mem_decode hp hsurrogate.1 hsurrogate.2
  | escape e => simp [Piece.text, hslash, hescape e] at hmem
  | unicode a b c' d =>
    have hdigit : ∀ d : HexDigit, c ≠ d.char := by
      rintro d rfl
      simp [d.isHex] at hhex
    simp [Piece.text, hslash, hu, hdigit] at hmem

/-! ## Numbers -/

structure Digits where
  chars : List Char
  nonempty : chars ≠ []
  digits : ∀ c ∈ chars, c.isDigit = true

def Digits.value (ds : Digits) : Nat := Nat.ofDigitChars 10 ds.chars 0

structure Exponent where
  upper : Bool
  /-- `some true` is a minus sign. -/
  sign : Option Bool
  digits : Digits

def Exponent.text (e : Exponent) : List Char :=
  (if e.upper then 'E' else 'e') ::
    ((match e.sign with | some true => ['-'] | some false => ['+'] | none => []) ++ e.digits.chars)

def Exponent.value (e : Exponent) : Int :=
  if e.sign = some true then -(e.digits.value : Int) else e.digits.value

structure Number where
  negative : Bool
  whole : Digits
  noLeadingZero : whole.chars.head? = some '0' → whole.chars = ['0']
  fraction : Option Digits
  exponent : Option Exponent

namespace Number

variable (n : Number)

def tail : List Char :=
  (match n.fraction with | some ds => '.' :: ds.chars | none => []) ++
    (match n.exponent with | some e => e.text | none => [])

def text : List Char :=
  (if n.negative then ['-'] else []) ++ (n.whole.chars ++ n.tail)

/-- The number a token denotes. -/
def value : ℚ :=
  (if n.negative then -1 else 1) *
    (n.whole.value + (match n.fraction with
      | some ds => ds.value / 10 ^ ds.chars.length
      | none => 0)) *
    10 ^ (match n.exponent with | some e => e.value | none => 0)

def isInteger : Bool := n.fraction.isNone && n.exponent.isNone

def int : Int := if n.negative then -(n.whole.value : Int) else n.whole.value

lemma text_ne_nil : n.text ≠ [] := by
  simp [text, n.whole.nonempty]

lemma value_of_isInteger {n : Number} (h : n.isInteger) : n.value = n.int := by
  obtain ⟨hf, he⟩ := Bool.and_eq_true_iff.mp h
  simp only [value, int, isNone_iff_eq_none.mp hf, isNone_iff_eq_none.mp he]
  cases n.negative <;> simp

end Number

/-! ## Values -/

mutual

inductive Value where
  | null
  | bool (b : Bool)
  | number (n : Number)
  | string (s : List Piece)
  /-- `pad` is what an empty array has between its brackets. -/
  | array (pad : Ws) (items : List Item)
  | object (pad : Ws) (members : List Member)

inductive Item where
  | mk (before : Ws) (value : Value) (after : Ws)

inductive Member where
  | mk (beforeName : Ws) (name : List Piece) (afterName beforeValue : Ws) (value : Value)
      (afterValue : Ws)

end

def Member.name : Member → List Piece
  | .mk _ name _ _ _ _ => name

def Member.value : Member → Value
  | .mk _ _ _ _ value _ => value

mutual

def Value.text : Value → List Char
  | .null => "null".toList
  | .bool b => if b then "true".toList else "false".toList
  | .number n => n.text
  | .string s => '"' :: (rawText s ++ ['"'])
  | .array pad items => '[' :: (itemsText pad items ++ [']'])
  | .object pad members => '{' :: (membersText pad members ++ ['}'])

def Item.text : Item → List Char
  | .mk before value after => before.chars ++ (value.text ++ after.chars)

def Member.text : Member → List Char
  | .mk beforeName name afterName beforeValue value afterValue =>
    beforeName.chars ++ '"' :: (rawText name ++ '"' :: (afterName.chars ++ ':' ::
      (beforeValue.chars ++ (value.text ++ afterValue.chars))))

def itemsText (pad : Ws) : List Item → List Char
  | [] => pad.chars
  | item :: items => item.text ++ itemsTail items

def itemsTail : List Item → List Char
  | [] => []
  | item :: items => ',' :: (item.text ++ itemsTail items)

def membersText (pad : Ws) : List Member → List Char
  | [] => pad.chars
  | m :: ms => m.text ++ membersTail ms

def membersTail : List Member → List Char
  | [] => []
  | m :: ms => ',' :: (m.text ++ membersTail ms)

end

/-- An object as it is written, with what surrounds it. -/
structure Document where
  before : Ws := .none
  pad : Ws := .none
  members : List Member
  after : Ws := .none

namespace Document

def text (d : Document) : List Char :=
  d.before.chars ++ ((Value.object d.pad d.members).text ++ d.after.chars)

def names (d : Document) : List (List Nat) := d.members.map fun m => decode m.name

/-- The value of a member; the last one of those with the same name. -/
def lookup (d : Document) (name : List Nat) : Option Value :=
  (d.members.reverse.find? fun m => decode m.name == name).map (·.value)

lemma mem_of_lookup {d : Document} {name : List Nat} {v : Value} (h : d.lookup name = some v) :
    ∃ m ∈ d.members, m.value = v := by
  obtain ⟨m, hfind, hvalue⟩ := map_eq_some_iff.mp h
  exact ⟨m, mem_reverse.mp (mem_of_find?_eq_some hfind), hvalue⟩

lemma lookup_of_mem {d : Document} (hnames : d.names.Nodup) {m : Member} (hm : m ∈ d.members) :
    d.lookup (decode m.name) = some m.value := by
  have hsome : (d.members.reverse.find? fun m' => decode m'.name == decode m.name).isSome = true :=
    find?_isSome.mpr ⟨m, mem_reverse.mpr hm, by simp⟩
  obtain ⟨m', hfind⟩ := isSome_iff_exists.mp hsome
  have hname : decode m'.name = decode m.name := by simpa using find?_some hfind
  have hmem := mem_reverse.mp (mem_of_find?_eq_some hfind)
  rw [lookup, hfind, inj_on_of_nodup_map hnames hmem hm hname]
  rfl

end Document

end Json
