import TrafficCop.Middleware.Claims

/-!
# Reading a payload to its end

What `parse_claims` makes of a JSON document whose members it reads to their ends. The values may be
of any kind. What stands behind a value that is refused does not matter (`reached`).
-/

namespace TrafficCop

open Rust Json List Option

/-! ## In step -/

/-- The loop reads the value to its end: no escaped quote in a string, no closing bracket before
that of the array. -/
def ValueInStep : Value → Prop
  | .string s => Piece.escape .quote ∉ s
  | .array pad items => ']' ∉ itemsText pad items
  | _ => True

/-- No name or string with an escaped quote, no array with a closing bracket before its own. -/
def MemberInStep (m : Member) : Prop := Piece.escape .quote ∉ m.name ∧ ValueInStep m.value

/-- An integer that an `i64` can hold. -/
def fitsI64 (n : Number) : Bool := n.isInteger && (-2 ^ 63 ≤ n.int && n.int < 2 ^ 63)

/-- What the loop makes of a value that it reads to its end. -/
def readValue : Value → Option ClaimValue
  | .null => some .null
  | .bool b => some (.bool b)
  | .number n => if fitsI64 n then some (.number n.int) else none
  | .string s => some (.string (rawText s))
  | .array pad items => some (.array (arrayItems (itemsText pad items)))
  | .object _ _ => none

variable {c : Char} {s rest gap : Text} {ms : List Member} {claims : Claims}

lemma isWhitespace_of_isWs (h : isWs c) : isWhitespace c := by
  simp only [isWs, Bool.or_eq_true, beq_iff_eq] at h
  rcases h with ((rfl | rfl) | rfl) | rfl <;> decide

lemma ws_isWhitespace (w : Ws) : ∀ c ∈ w.chars, isWhitespace c :=
  fun c hc => isWhitespace_of_isWs (w.blank c hc)

lemma ws_isGap (w : Ws) : ∀ c ∈ w.chars, isGap c := by
  intro c hc
  rw [isGap, ws_isWhitespace w c hc, Bool.true_or]

/-- A text that goes on with a gap. -/
def AtGap (s : Text) : Prop := ∀ c, s.head? = some c → isGap c = true

lemma atGap_ws_append (w : Ws) (h : AtGap s) : AtGap (w.chars ++ s) := by
  intro c hc
  cases hw : w.chars with
  | nil => exact h c (by simpa [hw] using hc)
  | cons d ds =>
    rw [hw] at hc
    cases hc
    exact ws_isGap w c (by simp [hw])

/-! ### Numbers -/

lemma isDigit_bounds (h : c.isDigit) : 48 ≤ c.toNat ∧ c.toNat ≤ 57 := by
  simpa [Char.isDigit, UInt32.le_iff_toNat_le] using h

def isNumberChar (c : Char) : Bool :=
  c.isDigit || c == '-' || c == '+' || c == '.' || c == 'e' || c == 'E'

lemma isNumberChar_of_isDigit (h : c.isDigit) : isNumberChar c := by
  simp [isNumberChar, h]

lemma isNumberChar_exponent (e : Exponent) : ∀ c ∈ e.text, isNumberChar c := by
  intro c hc
  rcases mem_cons.mp hc with rfl | hc
  · cases e.upper <;> decide
  rcases mem_append.mp hc with hc | hc
  · cases hsign : e.sign with
    | none => simp [hsign] at hc
    | some sign => cases sign <;> simp [hsign] at hc <;> subst hc <;> decide
  · exact isNumberChar_of_isDigit (e.digits.digits c hc)

lemma isNumberChar_number (n : Number) : ∀ c ∈ n.text, isNumberChar c := by
  intro c hc
  rw [Number.text, Number.tail, mem_append, mem_append, mem_append] at hc
  rcases hc with hc | hc | hc | hc
  · split at hc
    · rw [mem_singleton.mp hc]
      decide
    · cases hc
  · exact isNumberChar_of_isDigit (n.whole.digits c hc)
  · split at hc
    · next ds _ =>
      rcases mem_cons.mp hc with rfl | hc
      · decide
      · exact isNumberChar_of_isDigit (ds.digits c hc)
    · cases hc
  · split at hc
    · next e _ => exact isNumberChar_exponent e c hc
    · cases hc

lemma endsNumber_of_isNumberChar (h : isNumberChar c) : endsNumber c = false := by
  simp only [isNumberChar, Bool.or_eq_true, beq_iff_eq] at h
  rcases h with ((((h | rfl) | rfl) | rfl) | rfl) | rfl
  · have hcomma : c ≠ ',' := by
      rintro rfl
      exact absurd h (by decide)
    have hbrace : c ≠ '}' := by
      rintro rfl
      exact absurd h (by decide)
    have hbounds := isDigit_bounds h
    have hspace : isWhitespace c = false := by
      rw [← Bool.not_eq_true]
      simp only [isWhitespace, Bool.or_eq_true, Bool.and_eq_true, decide_eq_true_eq, beq_iff_eq]
      omega
    simp [endsNumber, hcomma, hbrace, hspace]
  all_goals decide

lemma parseDigits_digits (ds : Digits) : parseDigits ds.chars = some ds.value := by
  rw [parseDigits, if_neg (by simpa using ds.nonempty), if_pos (all_eq_true.mpr ds.digits)]
  rfl

lemma parseDigits_eq_none (hc : c ∈ s) (h : c.isDigit = false) : parseDigits s = none := by
  have hall : s.all Char.isDigit = false := by
    rw [← Bool.not_eq_true, List.all_eq_true]
    intro hall
    rw [hall c hc] at h
    cases h
  rw [parseDigits, hall]
  simp

lemma parseDigits_number (n : Number) : parseDigits (n.whole.chars ++ n.tail) =
    if n.isInteger then some n.whole.value else none := by
  -- a fraction brings a point and an exponent its letter, and neither is a digit
  cases hf : n.fraction with
  | some ds =>
    have hdot : '.' ∈ n.whole.chars ++ n.tail := by simp [Number.tail, hf]
    rw [parseDigits_eq_none hdot (by decide)]
    simp [Number.isInteger, hf]
  | none =>
    cases he : n.exponent with
    | some e =>
      have hletter : (if e.upper then 'E' else 'e') ∈ n.whole.chars ++ n.tail := by
        simp [Number.tail, he, Exponent.text]
      rw [parseDigits_eq_none hletter (by cases e.upper <;> decide)]
      simp [Number.isInteger, he]
    | none => simp [Number.tail, hf, he, Number.isInteger, parseDigits_digits]

lemma parseI64_minus (digits : Text) : parseI64 ('-' :: digits) =
    ((parseDigits digits).map fun n => -(n : Int)).filter fun n => -2 ^ 63 ≤ n && n < 2 ^ 63 := rfl

lemma parseI64_digit (digits : Text) (hc : c.isDigit) :
    parseI64 (c :: digits) =
      ((parseDigits (c :: digits)).map fun n => (n : Int)).filter
        fun n => -2 ^ 63 ≤ n && n < 2 ^ 63 := by
  unfold parseI64
  dsimp only
  split
  · next heq =>
    cases heq
    exact absurd hc (by decide)
  · next heq =>
    cases heq
    exact absurd hc (by decide)
  · rfl

lemma parseI64_number (n : Number) :
    parseI64 n.text = if fitsI64 n then some n.int else none := by
  -- the range is checked last, whatever the sign
  have hread : parseI64 n.text = (if n.isInteger then some n.int else none).filter
      fun n => -2 ^ 63 ≤ n && n < 2 ^ 63 := by
    cases hneg : n.negative with
    | true =>
      have htext : n.text = '-' :: (n.whole.chars ++ n.tail) := by
        simp [Number.text, hneg]
      rw [htext, parseI64_minus, parseDigits_number]
      cases n.isInteger <;> simp [Number.int, hneg]
    | false =>
      have htext : n.text = n.whole.chars ++ n.tail := by
        simp [Number.text, hneg]
      cases hwhole : n.whole.chars with
      | nil => exact absurd hwhole n.whole.nonempty
      | cons c cs =>
        have hdigit := n.whole.digits c (by simp [hwhole])
        rw [htext, hwhole, cons_append, parseI64_digit _ hdigit, ← cons_append, ← hwhole,
          parseDigits_number]
        cases n.isInteger <;> simp [Number.int, hneg]
  rw [hread, fitsI64]
  cases n.isInteger <;> simp [Option.filter]

/-! ### Values -/

lemma claimValue_other (s : Text) (hquote : c ≠ '"') (hbracket : c ≠ '[')
    (ht : c ≠ 't') (hf : c ≠ 'f') (hn : c ≠ 'n') :
    claimValue (c :: s) = (parseI64 ((c :: s).takeWhile fun c => !endsNumber c)).map fun n =>
      (.number n, (c :: s).dropWhile fun c => !endsNumber c) := by
  unfold claimValue
  split
  · next heq => exact absurd (List.cons.inj heq).1 hquote
  · next heq => exact absurd (List.cons.inj heq).1 hbracket
  · simp [List.isPrefixOf, Ne.symm ht, Ne.symm hf, Ne.symm hn]

lemma endsNumber_of_isGap (h : isGap c) : endsNumber c := by
  simp only [isGap, Bool.or_eq_true] at h
  rcases h with h | h <;> simp [endsNumber, h]

lemma claimValue_text (v : Value) (hv : ValueInStep v) (hrest : AtGap rest) :
    claimValue (v.text ++ rest) = (readValue v).map fun value => (value, rest) := by
  cases v with
  | null => rfl
  | bool b => cases b <;> rfl
  | string s =>
    have hsplit : splitOnce '"' (rawText s ++ '"' :: rest) = some (rawText s, rest) :=
      splitOnce_eq_some_iff.mpr ⟨rfl, fun h => hv (quote_mem_rawText.mp h)⟩
    simp [Value.text, claimValue, readValue, hsplit]
  | array pad items =>
    have hsplit : splitOnce ']' (itemsText pad items ++ ']' :: rest) =
        some (itemsText pad items, rest) := splitOnce_eq_some_iff.mpr ⟨rfl, hv⟩
    simp [Value.text, claimValue, readValue, hsplit]
  | object pad members =>
    -- an opening brace is no digit
    have hbrace : ∀ s, parseI64 ('{' :: s) = none := by
      intro s
      simp [parseI64, parseDigits]
    rw [Value.text, cons_append, claimValue_other _ (by decide) (by decide) (by decide)
      (by decide) (by decide), takeWhile_cons_of_pos (by decide), hbrace]
    rfl
  | number n =>
    have hchars : ∀ c ∈ n.text, (!endsNumber c) = true := by
      intro c hc
      rw [endsNumber_of_isNumberChar (isNumberChar_number n c hc), Bool.not_false]
    have hstop : (rest.takeWhile fun c => !endsNumber c) = [] ∧
        (rest.dropWhile fun c => !endsNumber c) = rest := by
      cases rest with
      | nil => exact ⟨rfl, rfl⟩
      | cons c rest =>
        have hc := endsNumber_of_isGap (hrest c rfl)
        simp [hc]
    cases htext : n.text with
    | nil => exact absurd htext n.text_ne_nil
    | cons c s =>
      have hc := isNumberChar_number n c (by simp [htext])
      have hhead : ∀ d, isNumberChar d = false → c ≠ d := by
        rintro d hd rfl
        rw [hc] at hd
        cases hd
      rw [Value.text, htext, cons_append, claimValue_other _ (hhead _ (by decide))
        (hhead _ (by decide)) (hhead _ (by decide)) (hhead _ (by decide)) (hhead _ (by decide)),
        ← cons_append, ← htext, takeWhile_append_of_pos hchars,
        dropWhile_append_of_pos hchars, hstop.1, hstop.2, append_nil, parseI64_number,
        readValue]
      split <;> rfl

lemma trimStart_value (v : Value) (rest : Text) : trimStart (v.text ++ rest) = v.text ++ rest := by
  have hvisible : ∃ c s, v.text = c :: s ∧ isWhitespace c = false := by
    cases v with
    | null => exact ⟨'n', _, rfl, by decide⟩
    | bool b =>
      cases b
      · exact ⟨'f', _, rfl, by decide⟩
      · exact ⟨'t', _, rfl, by decide⟩
    | string s => exact ⟨'"', _, rfl, by decide⟩
    | array pad items => exact ⟨'[', _, by rw [Value.text], by decide⟩
    | object pad members => exact ⟨'{', _, by rw [Value.text], by decide⟩
    | number n =>
      cases htext : n.text with
      | nil => exact absurd htext n.text_ne_nil
      | cons c s =>
        have hends := endsNumber_of_isNumberChar (isNumberChar_number n c (by simp [htext]))
        simp only [endsNumber, Bool.or_eq_false_iff] at hends
        exact ⟨c, s, by rw [Value.text, htext], hends.2⟩
  obtain ⟨c, s, htext, hc⟩ := hvisible
  rw [htext, cons_append, trimStart, dropWhile_cons_of_neg (by simp [hc])]

/-! ### Members -/

lemma atGap_membersTail (ms : List Member) : AtGap (membersTail ms) := by
  intro c hc
  cases ms with
  | nil => simp [membersTail] at hc
  | cons m ms =>
    simp only [membersTail, head?_cons, Option.some.injEq] at hc
    rw [← hc]
    decide

lemma claimStep_member (hgap : ∀ c ∈ gap, isGap c) (w₁ : Ws)
    {name : List Piece} (hname : Piece.escape .quote ∉ name) (w₂ w₃ : Ws) {value : Value}
    (hvalue : ValueInStep value) (hrest : AtGap rest) :
    claimStep (gap ++ (w₁.chars ++ '"' :: (rawText name ++ '"' :: (w₂.chars ++ ':' ::
      (w₃.chars ++ (value.text ++ rest)))))) =
      match readValue value with
      | none => .fail
      | some v => .member (rawText name) v rest := by
  -- up to the quote before the name, up to the one behind it, up to the colon, up to the value
  have hdrop : (gap ++ (w₁.chars ++ '"' :: (rawText name ++ '"' :: (w₂.chars ++ ':' ::
      (w₃.chars ++ (value.text ++ rest)))))).dropWhile isGap = '"' :: (rawText name ++ '"' ::
        (w₂.chars ++ ':' :: (w₃.chars ++ (value.text ++ rest)))) := by
    rw [dropWhile_append_of_pos hgap, dropWhile_append_of_pos (ws_isGap w₁),
      dropWhile_cons_of_neg (by decide)]
  have hsplit : splitOnce '"' (rawText name ++ '"' :: (w₂.chars ++ ':' ::
      (w₃.chars ++ (value.text ++ rest)))) = some (rawText name, w₂.chars ++ ':' ::
        (w₃.chars ++ (value.text ++ rest))) :=
    splitOnce_eq_some_iff.mpr ⟨rfl, fun h => hname (quote_mem_rawText.mp h)⟩
  have hcolon : trimStart (w₂.chars ++ ':' :: (w₃.chars ++ (value.text ++ rest))) =
      ':' :: (w₃.chars ++ (value.text ++ rest)) := by
    rw [trimStart_ws_append (ws_isWhitespace w₂), trimStart, dropWhile_cons_of_neg (by decide)]
  have hstart : trimStart (w₃.chars ++ (value.text ++ rest)) = value.text ++ rest := by
    rw [trimStart_ws_append (ws_isWhitespace w₃), trimStart_value]
  rw [claimStep, hdrop]
  simp only [hsplit, hcolon, hstart, claimValue_text value hvalue hrest]
  cases readValue value <;> rfl

/-- What the loop makes of members that it reads to their ends. -/
def readMembers : List Member → Claims → Option Claims
  | [], claims => some claims
  | m :: ms, claims =>
    (readValue m.value).bind fun v =>
      readMembers ms (Function.update claims (rawText m.name) (some v))

/-- The members that the loop comes to: those up to the first with a value that it refuses. -/
def reached : List Member → List Member
  | [] => []
  | m :: ms => m :: if (readValue m.value).isSome then reached ms else []

lemma mem_of_mem_reached {m : Member} (h : m ∈ reached ms) : m ∈ ms := by
  induction ms with
  | nil => exact h
  | cons m' ms ih =>
    rcases mem_cons.mp h with rfl | h
    · exact mem_cons_self
    · split at h
      · exact mem_cons_of_mem _ (ih h)
      · cases h

lemma reached_eq_self (h : ∀ m ∈ ms, readValue m.value ≠ none) : reached ms = ms := by
  induction ms with
  | nil => rfl
  | cons m ms ih =>
    obtain ⟨hm, hms⟩ := forall_mem_cons.mp h
    rw [reached, if_pos (isSome_iff_ne_none.mpr hm), ih hms]

lemma claimsFrom_member_text (gap : Text) (hgap : ∀ c ∈ gap, isGap c) {m : Member}
    (hm : MemberInStep m) (ms : List Member) (claims : Claims) :
    ∃ w : Ws, claimsFrom (gap ++ (m.text ++ membersTail ms)) claims =
      (readValue m.value).bind fun v =>
        claimsFrom (w.chars ++ membersTail ms)
          (Function.update claims (rawText m.name) (some v)) := by
  obtain ⟨w₁, name, w₂, w₃, value, w₄⟩ := m
  have hstep := claimStep_member hgap w₁ hm.1 w₂ w₃ hm.2
    (atGap_ws_append w₄ (atGap_membersTail ms))
  refine ⟨w₄, ?_⟩
  simp only [Member.text, Member.name, Member.value, append_assoc, cons_append] at hstep ⊢
  cases hread : readValue value with
  | none =>
    rw [hread] at hstep
    rw [claimsFrom_fail hstep, bind_none]
  | some v =>
    rw [hread] at hstep
    rw [claimsFrom_member hstep, bind_some]

lemma claimsFrom_membersTail (ms : List Member) (hms : ∀ m ∈ reached ms, MemberInStep m)
    (hgap : ∀ c ∈ gap, isGap c) (claims : Claims) :
    claimsFrom (gap ++ membersTail ms) claims = readMembers ms claims := by
  -- the comma before a member joins the white space that the member before it has left
  induction ms generalizing gap claims with
  | nil =>
    refine claimsFrom_done ?_ claims
    have hdrop : (gap ++ membersTail []).dropWhile isGap = [] := by
      rw [membersTail, append_nil, dropWhile_eq_nil_iff]
      exact hgap
    rw [claimStep, hdrop]
  | cons m ms ih =>
    obtain ⟨hm, hms⟩ := forall_mem_cons.mp hms
    have hcomma : ∀ c ∈ gap ++ [','], isGap c := by
      intro c hc
      rcases mem_append.mp hc with hc | hc
      · exact hgap c hc
      · rw [mem_singleton.mp hc]
        decide
    obtain ⟨w, hstep⟩ := claimsFrom_member_text _ hcomma hm ms claims
    rw [membersTail, append_cons, hstep, readMembers]
    cases hread : readValue m.value with
    | none => rfl
    | some v =>
      rw [hread] at hms
      exact ih hms (ws_isGap w) _

lemma parseClaims_document (d : Document) :
    parseClaims d.text = claimsFrom (membersText d.pad d.members) fun _ => none := by
  have htrim : trim d.text = '{' :: (membersText d.pad d.members ++ ['}']) := by
    rw [Document.text, trim_ws_append (ws_isWhitespace d.before),
      trim_append_ws (ws_isWhitespace d.after), Value.text]
    refine trim_of_trimmed ⟨?_, ?_⟩
    · rintro c ⟨⟩
      decide
    · intro c hc
      have hlast : c = '}' := by
        rw [← cons_append, getLast?_concat] at hc
        exact (Option.some.inj hc).symm
      rw [hlast]
      decide
  rw [parseClaims, htrim]
  simp

lemma parseClaims_text {d : Document} (h : ∀ m ∈ reached d.members, MemberInStep m) :
    parseClaims d.text = readMembers d.members fun _ => none := by
  rw [parseClaims_document]
  cases hmembers : d.members with
  | nil =>
    have hempty := claimsFrom_membersTail [] (by simp [reached]) (ws_isGap d.pad) fun _ => none
    rwa [membersTail, append_nil] at hempty
  | cons m ms =>
    obtain ⟨hm, hms⟩ := forall_mem_cons.mp (hmembers ▸ h)
    obtain ⟨w, hstep⟩ := claimsFrom_member_text [] (by simp) hm ms fun _ => none
    rw [nil_append] at hstep
    rw [membersText, hstep, readMembers]
    cases hread : readValue m.value with
    | none => rfl
    | some v =>
      rw [hread] at hms
      exact claimsFrom_membersTail ms hms (ws_isGap w) _

lemma readMembers_eq_none_iff :
    readMembers ms claims = none ↔ ∃ m ∈ ms, readValue m.value = none := by
  induction ms generalizing claims with
  | nil => simp [readMembers]
  | cons m ms ih =>
    rw [readMembers]
    cases hread : readValue m.value with
    | none => simp [hread]
    | some v => simp [hread, ih]

/-- A document that is read has no value that is refused. -/
lemma readValue_ne_none {d : Document} (hstep : ∀ m ∈ reached d.members, MemberInStep m)
    (hparse : parseClaims d.text = some claims) : ∀ m ∈ d.members, readValue m.value ≠ none := by
  intro m hm hnone
  rw [parseClaims_text hstep, readMembers_eq_none_iff.mpr ⟨m, hm, hnone⟩] at hparse
  cases hparse

lemma readMembers_get {result : Claims} (h : readMembers ms claims = some result) (key : Text) :
    result key = match ms.reverse.find? fun m => rawText m.name == key with
      | some m => readValue m.value
      | none => claims key := by
  induction ms generalizing claims with
  | nil =>
    cases h
    rfl
  | cons m ms ih =>
    rw [readMembers] at h
    obtain ⟨v, hv, hrest⟩ := bind_eq_some_iff.mp h
    rw [ih hrest, reverse_cons, find?_append]
    cases ms.reverse.find? fun m => rawText m.name == key with
    | some m' => rfl
    | none =>
      by_cases hkey : rawText m.name = key
      · simp [hkey, hv]
      · simp [hkey, Function.update_of_ne (Ne.symm hkey)]

end TrafficCop
