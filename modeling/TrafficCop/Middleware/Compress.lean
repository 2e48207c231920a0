import TrafficCop.Http.ListField

/-!
# Choosing a compression

`CompressMiddleware::select_algorithm` of `middleware/builtin/compress.rs` looks for `br`, then for
`gzip`, anywhere in the text of `Accept-Encoding`. It does not see the elements of the list.
-/

namespace TrafficCop

open Rust Http List

/-! ## The selection -/

inductive CompressionAlgorithm where
  | gzip
  | brotli
  | none
  deriving Repr, DecidableEq

def windows {α : Type} (n : ℕ) (l : List α) : List (List α) :=
  (List.range (l.length + 1 - n)).map fun i => (l.drop i).take n

namespace CompressMiddleware

/-- `windows(n).any(|w| w.eq_ignore_ascii_case(pattern))` with the length of the pattern for `n`.
`to_str` gives ASCII, so a byte is a character. -/
def search (pattern accept : Text) : Bool :=
  (windows pattern.length accept).any (eqIgnoreAsciiCase · pattern)

def selectAlgorithm (headers : HeaderMap) : CompressionAlgorithm :=
  match headers.get "accept-encoding" with
  | some v =>
    match v.toStr with
    | some accept =>
      if search "br" accept then .brotli
      else if search "gzip" accept then .gzip
      else .none
    | none => .none
  | none => .none

end CompressMiddleware

/-! ## `Accept-Encoding` -/

def isTchar (c : Char) : Bool := c.isAlphanum || "!#$%&'*+-.^_`|~".toList.contains c

/-- `qvalue`: 0 or 1 and up to three decimals, which are zeros behind a 1. -/
structure QValue where
  one : Bool
  decimals : Option Text
  short : ∀ digits, decimals = some digits → digits.length ≤ 3
  digits : ∀ digits, decimals = some digits → ∀ c ∈ digits, c ∈ "0123456789".toList
  atMostOne : one = true → ∀ digits, decimals = some digits → ∀ c ∈ digits, c = '0'

namespace QValue

def text (q : QValue) : Text :=
  (if q.one then '1' else '0') :: (q.decimals.map fun digits => '.' :: digits).getD []

def isZero (q : QValue) : Bool := !q.one && (q.decimals.getD []).all (· == '0')

end QValue

/-- `weight`: `OWS ";" OWS "q=" qvalue`. -/
structure Weight where
  before : Text
  after : Text
  q : Char
  value : QValue
  blankBefore : ∀ c ∈ before, isBlank c = true
  blankAfter : ∀ c ∈ after, isBlank c = true
  isQ : q = 'q' ∨ q = 'Q'

def Weight.text (w : Weight) : Text :=
  w.before ++ ';' :: w.after ++ w.q :: '=' :: w.value.text

/-- An element of `Accept-Encoding`: a coding, or `*`, and its weight. -/
structure AcceptedCoding where
  coding : Text
  weight : Option Weight
  nonempty : coding ≠ []
  token : ∀ c ∈ coding, isTchar c = true

namespace AcceptedCoding

variable (e : AcceptedCoding)

def text : Text := e.coding ++ (e.weight.map Weight.text).getD []

/-- By `br;q=0` a client refuses Brotli. -/
def isRefused : Bool := (e.weight.map (·.value.isZero)).getD false

/-- The element speaks of the coding. -/
def Names (name : Text) : Prop :=
  toAsciiLowercase e.coding = name ∨ e.coding = "*"

/-- What `select_algorithm` looks for. -/
def Contains (name : Text) : Prop := name <:+: toAsciiLowercase e.coding

end AcceptedCoding

/-- The list that a field value spells. -/
def IsAcceptEncoding (s : Text) (list : List AcceptedCoding) : Prop :=
  elements s = list.map AcceptedCoding.text

instance (s : Text) (list : List AcceptedCoding) : Decidable (IsAcceptEncoding s list) :=
  inferInstanceAs (Decidable (_ = _))

/-- An element names the coding and does not refuse it. -/
def Accepts (list : List AcceptedCoding) (name : Text) : Prop :=
  ∃ e ∈ list, e.Names name ∧ e.isRefused = false

/-! ## What stands between the codings -/

/-- What the texts between two codings are made of. -/
def separators : Text := ", \t;qQ=.0123456789"

lemma mem_separators_of_isBlank {c : Char} (h : isBlank c) : c ∈ separators := by
  rw [isBlank, Bool.or_eq_true, beq_iff_eq, beq_iff_eq] at h
  rcases h with rfl | rfl <;> decide

lemma QValue.mem_separators (q : QValue) {c : Char} (hc : c ∈ q.text) : c ∈ separators := by
  have hdigit : ∀ c ∈ "0123456789".toList, c ∈ separators := forall_char (by decide +kernel)
  rcases mem_cons.mp hc with rfl | hc
  · cases q.one <;> decide
  · cases hdecimals : q.decimals with
    | none =>
      rw [hdecimals] at hc
      exact absurd hc not_mem_nil
    | some digits =>
      rw [hdecimals] at hc
      rcases mem_cons.mp hc with rfl | hc
      · decide
      · exact hdigit c (q.digits digits hdecimals c hc)

lemma Weight.mem_separators (w : Weight) {c : Char} (hc : c ∈ w.text) : c ∈ separators := by
  simp only [Weight.text, mem_append, mem_cons] at hc
  rcases hc with (hc | rfl | hc) | rfl | rfl | hc
  · exact mem_separators_of_isBlank (w.blankBefore c hc)
  · decide
  · exact mem_separators_of_isBlank (w.blankAfter c hc)
  · rcases w.isQ with hq | hq <;> rw [hq] <;> decide
  · decide
  · exact w.value.mem_separators hc

lemma AcceptedCoding.infix_coding {e : AcceptedCoding} {w : Text} (h : w <:+: e.text)
    (hw : ∀ c ∈ w, c ∉ separators) : w <:+: e.coding := by
  refine infix_of_infix_append h fun c hc hweight => hw c hc ?_
  cases hw : e.weight with
  | none =>
    rw [hw] at hweight
    exact absurd hweight not_mem_nil
  | some weight =>
    rw [hw] at hweight
    exact weight.mem_separators hweight

lemma visible_of_isTchar {c : Char} (h : isTchar c) :
    isAscii c ∧ isVisibleAscii (UInt8.ofNat c.toNat) := by
  have hmarks : ("!#$%&'*+-.^_`|~".toList.all fun c => 32 ≤ c.toNat && c.toNat < 127) = true := by
    decide
  have hvisible : ∀ n : Fin 127, 32 ≤ n.val → isVisibleAscii (UInt8.ofNat n) := by
    decide +kernel
  have hrange : 32 ≤ c.toNat ∧ c.toNat < 127 := by
    rw [isTchar, Bool.or_eq_true] at h
    rcases h with halnum | hmark
    · have hbounds : ∀ low high : Char, 32 ≤ low.toNat → high.toNat < 127 →
          low.val ≤ c.val ∧ c.val ≤ high.val → 32 ≤ c.toNat ∧ c.toNat < 127 := by
        intro low high hlow hhigh hc
        rw [UInt32.le_iff_toNat_le, UInt32.le_iff_toNat_le] at hc
        exact ⟨Nat.le_trans hlow hc.1, Nat.lt_of_le_of_lt hc.2 hhigh⟩
      rcases Bool.or_eq_true_iff.mp halnum with halpha | hdigit
      · rcases Bool.or_eq_true_iff.mp halpha with hupper | hlower
        · exact hbounds 'A' 'Z' (by decide) (by decide) (of_decide_eq_true hupper)
        · exact hbounds 'a' 'z' (by decide) (by decide)
            ((Bool.and_eq_true_iff.mp hlower).imp of_decide_eq_true of_decide_eq_true)
      · exact hbounds '0' '9' (by decide) (by decide)
          ((Bool.and_eq_true_iff.mp hdigit).imp of_decide_eq_true of_decide_eq_true)
    · have hmem := all_eq_true.mp hmarks c (contains_iff_mem.mp hmark)
      rwa [Bool.and_eq_true, decide_eq_true_eq, decide_eq_true_eq] at hmem
  exact ⟨decide_eq_true (Nat.lt_trans hrange.2 (by decide)), hvisible ⟨c.toNat, hrange.2⟩ hrange.1⟩

namespace IsAcceptEncoding

variable {s : Text} {list : List AcceptedCoding}

/-- What has no separator in it occurs in the text exactly if it occurs in a coding. -/
lemma infix_iff (h : IsAcceptEncoding s list) {w : Text} (hne : w ≠ [])
    (hw : ∀ c ∈ w, c ∉ separators) : w <:+: s ↔ ∃ e ∈ list, w <:+: e.coding := by
  constructor
  · intro hin
    have hplain : ∀ c ∈ w, c ≠ ',' ∧ isBlank c = false := by
      refine fun c hc => ⟨?_, ?_⟩
      · rintro rfl
        exact hw _ hc (by decide)
      · rw [← Bool.not_eq_true]
        exact fun hblank => hw c hc (mem_separators_of_isBlank hblank)
    obtain ⟨_, helement, hin⟩ := exists_element_of_infix hin hne hplain
    rw [h] at helement
    obtain ⟨e, he, rfl⟩ := mem_map.mp helement
    exact ⟨e, he, AcceptedCoding.infix_coding hin hw⟩
  · rintro ⟨e, he, hin⟩
    have hcoding : e.coding <:+: e.text := (prefix_append _ _).isInfix
    have helement : e.text <:+: s := infix_of_mem_elements (h ▸ mem_map_of_mem he)
    exact hin.trans (hcoding.trans helement)

lemma isVisibleAscii (h : IsAcceptEncoding s list) : ∀ b ∈ asBytes s, Http.isVisibleAscii b := by
  have hseparators : ∀ c ∈ separators, isAscii c ∧
      Http.isVisibleAscii (UInt8.ofNat c.toNat) := forall_char (by decide +kernel)
  intro b hb
  obtain ⟨c, hc, hb⟩ := mem_flatMap.mp hb
  -- a character is a separator or stands in a coding
  have hvisible : isAscii c ∧ Http.isVisibleAscii (UInt8.ofNat c.toNat) := by
    by_cases hsep : c ∈ separators
    · exact hseparators c hsep
    · have hin : [c] <:+: s := by
        obtain ⟨before, after, rfl⟩ := append_of_mem hc
        exact ⟨before, after, by rw [append_assoc, singleton_append]⟩
      obtain ⟨e, -, hcoding⟩ := (h.infix_iff (cons_ne_nil c []) (by simpa using hsep)).mp hin
      exact visible_of_isTchar (e.token c (hcoding.subset (mem_singleton_self c)))
  rw [utf8EncodeChar_of_isAscii hvisible.1, mem_singleton] at hb
  rw [hb]
  exact hvisible.2

end IsAcceptEncoding

/-! ## The search -/

lemma mem_windows_iff {α : Type} {n : ℕ} {l w : List α} :
    w ∈ windows n l ↔ w <:+: l ∧ w.length = n := by
  rw [windows, mem_map]
  constructor
  · rintro ⟨i, hi, rfl⟩
    have hlt := mem_range.mp hi
    refine ⟨(List.take_prefix _ _).isInfix.trans (drop_suffix _ _).isInfix, ?_⟩
    rw [length_take, length_drop]
    omega
  · rintro ⟨⟨before, after, rfl⟩, rfl⟩
    refine ⟨before.length, mem_range.mpr ?_, ?_⟩
    · rw [length_append, length_append]
      omega
    · rw [append_assoc, drop_left, take_left]

namespace CompressMiddleware

variable {s name : Text} {list : List AcceptedCoding}

/-- **The search finds parts of codings.** In a list it finds a name that shares no letter with the
separators exactly if a coding contains it. -/
theorem search_iff (h : IsAcceptEncoding s list) (hne : name ≠ [])
    (hlower : toAsciiLowercase name = name) (hseparators : ∀ c ∈ separators, c.toLower ∉ name) :
    search name s ↔ ∃ e ∈ list, e.Contains name := by
  have hfind : search name s = true ↔ ∃ w, w <:+: s ∧ name = toAsciiLowercase w := by
    rw [search, any_eq_true]
    refine exists_congr fun w => ?_
    rw [mem_windows_iff, eqIgnoreAsciiCase_iff, hlower, and_assoc]
    refine and_congr_right fun _ => ⟨fun hw => hw.2.symm, fun hw => ⟨?_, hw.symm⟩⟩
    rw [hw, toAsciiLowercase, length_map]
  -- a window that matches is made of letters of the name, and none of them is a separator
  have hplain : ∀ w, name = toAsciiLowercase w → w ≠ [] ∧ ∀ c ∈ w, c ∉ separators := by
    rintro w rfl
    exact ⟨fun hnil => hne (by rw [hnil]; rfl), fun c hc hsep =>
      hseparators c hsep (mem_map_of_mem hc)⟩
  rw [hfind]
  constructor
  · rintro ⟨w, hin, hw⟩
    obtain ⟨e, he, hin⟩ := (h.infix_iff (hplain w hw).1 (hplain w hw).2).mp hin
    exact ⟨e, he, infix_map_iff.mpr ⟨w, hin, hw⟩⟩
  · rintro ⟨e, he, hcontains⟩
    obtain ⟨w, hin, hw⟩ := infix_map_iff.mp hcontains
    exact ⟨w, (h.infix_iff (hplain w hw).1 (hplain w hw).2).mpr ⟨e, he, hin⟩, hw⟩

lemma selectAlgorithm_eq {headers : HeaderMap} {value : HeaderValue}
    (hget : headers.get "accept-encoding" = some value) (hbytes : value.bytes = asBytes s)
    (h : IsAcceptEncoding s list) :
    (selectAlgorithm headers = .brotli ↔ ∃ e ∈ list, e.Contains "br") ∧
      (selectAlgorithm headers = .gzip ↔
        (∃ e ∈ list, e.Contains "gzip") ∧ ¬∃ e ∈ list, e.Contains "br") := by
  have htext : value.toStr = some s := HeaderValue.toStr_of_bytes hbytes h.isVisibleAscii
  rw [← search_iff h (by decide) (by decide) (forall_char (by decide +kernel)),
    ← search_iff h (by decide) (by decide) (forall_char (by decide +kernel)), selectAlgorithm, hget]
  simp only [htext]
  cases search "br" s <;> cases search "gzip" s <;> simp

/-- **When the choice is acceptable.** Only a coding that an element names without refusing it is
selected exactly if the list accepts `br` once a coding contains it, and `gzip` once a coding
contains that and none contains `br`. -/
theorem negotiation_sound_iff (headers : HeaderMap) (value : HeaderValue) (s : Text)
    (list : List AcceptedCoding) (hget : headers.get "accept-encoding" = some value)
    (hbytes : value.bytes = asBytes s) (hlist : IsAcceptEncoding s list) :
    ((selectAlgorithm headers = .brotli → Accepts list "br") ∧
        (selectAlgorithm headers = .gzip → Accepts list "gzip")) ↔
      ((∃ e ∈ list, e.Contains "br") → Accepts list "br") ∧
        ((∃ e ∈ list, e.Contains "gzip") → (∀ e ∈ list, ¬e.Contains "br") →
          Accepts list "gzip") := by
  obtain ⟨hbrotli, hgzip⟩ := selectAlgorithm_eq hget hbytes hlist
  rw [hbrotli, hgzip]
  refine and_congr_right fun _ => ?_
  rw [and_imp]
  simp only [not_exists, not_and]

def acceptEncoding (s : Text) (h : (asBytes s).all isValidByte = true) : HeaderMap :=
  ⟨[("accept-encoding", ⟨asBytes s, isValidByte_of_all h⟩)]⟩

def zeroWeight : Weight where
  before := []
  after := []
  q := 'q'
  value := ⟨false, none, nofun, nofun, nofun⟩
  blankBefore _ h := absurd h not_mem_nil
  blankAfter _ h := absurd h not_mem_nil
  isQ := .inl rfl

def gzipCoding (weight : Option Weight) : AcceptedCoding :=
  ⟨"gzip", weight, cons_ne_nil _ _, all_eq_true.mp (by decide)⟩

def brCoding (weight : Option Weight) : AcceptedCoding :=
  ⟨"br", weight, cons_ne_nil _ _, all_eq_true.mp (by decide)⟩

/-- `gzip;q=0, br` gets Brotli, which it accepts. -/
theorem negotiation_sound_iff_gzip_refused :
    selectAlgorithm (acceptEncoding "gzip;q=0, br" (by decide)) = .brotli ∧
      (selectAlgorithm (acceptEncoding "gzip;q=0, br" (by decide)) = .brotli →
        Accepts [gzipCoding (some zeroWeight), brCoding none] "br") ∧
      (selectAlgorithm (acceptEncoding "gzip;q=0, br" (by decide)) = .gzip →
        Accepts [gzipCoding (some zeroWeight), brCoding none] "gzip") := by
  have hmem : brCoding none ∈ [gzipCoding (some zeroWeight), brCoding none] := by simp
  refine ⟨by decide, (negotiation_sound_iff _ _ "gzip;q=0, br"
    [gzipCoding (some zeroWeight), brCoding none] rfl rfl (by decide)).mpr ⟨fun _ => ?_, ?_⟩⟩
  · exact ⟨brCoding none, hmem, .inl rfl, rfl⟩
  · intro _ hnone
    exact absurd (infix_refl _) (hnone (brCoding none) hmem)

/-- `gzip, br;q=0` gets Brotli, which it refuses; and `gzip;q=0` gets Gzip. -/
theorem refused_coding_selected :
    (IsAcceptEncoding "gzip, br;q=0" [gzipCoding none, brCoding (some zeroWeight)] ∧
        selectAlgorithm (acceptEncoding "gzip, br;q=0" (by decide)) = .brotli ∧
        ¬Accepts [gzipCoding none, brCoding (some zeroWeight)] "br") ∧
      IsAcceptEncoding "gzip;q=0" [gzipCoding (some zeroWeight)] ∧
      selectAlgorithm (acceptEncoding "gzip;q=0" (by decide)) = .gzip ∧
      ¬Accepts [gzipCoding (some zeroWeight)] "gzip" := by
  refine ⟨⟨by decide, by decide, ?_⟩, by decide, by decide, ?_⟩
  · rintro ⟨e, he, hnames, hrefused⟩
    rcases mem_pair.mp he with rfl | rfl
    · rcases hnames with hname | hname <;> exact absurd hname (by decide)
    · exact absurd hrefused (by decide)
  · rintro ⟨e, he, -, hrefused⟩
    rw [mem_singleton.mp he] at hrefused
    exact absurd hrefused (by decide)

end CompressMiddleware

end TrafficCop
