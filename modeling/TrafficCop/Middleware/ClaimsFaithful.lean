import Mathlib.Data.List.Find
import TrafficCop.Middleware.ClaimsReading

/-!
# Are the claims those of the payload?

The claims that `parse_claims` returns, compared with what the JSON text says. The documents
here are those that claims can represent: members are strings, integers, booleans, null and
arrays of strings (`Simple`), each written in any legal way.
-/

namespace TrafficCop

open Rust Json List Option

/-! ## Meanings -/

/-- The values that claims can have, with strings as code points. -/
inductive Meaning where
  | string (s : List Nat)
  | number (n : Int)
  | bool (b : Bool)
  | array (items : List (List Nat))
  | null
  deriving Repr, DecidableEq

def codePoints (s : Text) : List Nat := s.map Char.toNat

lemma codePoints_injective : Function.Injective codePoints :=
  map_injective_iff.mpr fun _ _ h => Char.toNat_inj.mp h

def claimMeaning : ClaimValue → Meaning
  | .string s => .string (codePoints s)
  | .number n => .number n
  | .bool b => .bool b
  | .array items => .array (items.map codePoints)
  | .null => .null

def itemString : Item → Option (List Piece)
  | .mk _ (.string s) _ => some s
  | _ => none

def strings (items : List Item) : List (List Piece) := items.filterMap itemString

/-- What a string, an integer, a boolean, null or an array of strings means; `none` for other
values. -/
def valueMeaning : Value → Option Meaning
  | .null => some .null
  | .bool b => some (.bool b)
  | .number n => if n.isInteger then some (.number n.int) else none
  | .string s => some (.string (decode s))
  | .array _ items =>
    if items.all fun i => (itemString i).isSome then some (.array ((strings items).map decode))
    else none
  | .object _ _ => none

/-- The members are strings, integers, booleans, null and arrays of strings. -/
def Simple (d : Document) : Prop := ∀ m ∈ d.members, (valueMeaning m.value).isSome = true

/-- The claims are the members, each with its meaning, and nothing else. -/
def Faithful (d : Document) (claims : Claims) : Prop :=
  (∀ key, (claims key).map claimMeaning = (d.lookup (codePoints key)).bind valueMeaning) ∧
    ∀ m ∈ d.members, ∃ key, codePoints key = decode m.name

/-- A value that is written without escapes; in an array, the strings are not empty and have no
comma and no closing bracket either. -/
def PlainValue : Value → Prop
  | .string s => Plain s
  | .array _ items => ∀ s ∈ strings items,
      Plain s ∧ s ≠ [] ∧ ',' ∉ rawText s ∧ ']' ∉ rawText s
  | _ => True

def PlainMember (m : Member) : Prop := Plain m.name ∧ PlainValue m.value

/-! ## Arrays of strings -/

variable {c : Char} {pad : Ws} {items : List Item} {s : List Piece} {t : Text} {v : Value}
  {value : ClaimValue} {d : Document} {claims : Claims}

lemma ws_not_mem (w : Ws) (h : isWs c = false) : c ∉ w.chars := by
  intro hc
  rw [w.blank c hc] at h
  cases h

lemma all_strings (h : (valueMeaning (.array pad items)).isSome) :
    items.all (fun i => (itemString i).isSome) = true := by
  simpa [valueMeaning] using h

lemma exists_item_string (h : items.all (fun i => (itemString i).isSome) = true)
    {i : Item} (hi : i ∈ items) :
    ∃ before s after, i = .mk before (.string s) after ∧ s ∈ strings items := by
  have hsome := all_eq_true.mp h i hi
  obtain ⟨before, value, after⟩ := i
  cases value with
  | string s => exact ⟨before, s, after, rfl, mem_filterMap.mpr ⟨_, hi, rfl⟩⟩
  | _ => cases hsome

lemma mem_item_text {before after : Ws} (hc : c ∈ (Item.mk before (.string s) after).text) :
    isWs c ∨ c = '"' ∨ c ∈ rawText s := by
  simp only [Item.text, Value.text, mem_append, mem_cons, not_mem_nil, or_false] at hc
  rcases hc with hc | (hc | hc | hc) | hc
  · exact .inl (before.blank c hc)
  · exact .inr (.inl hc)
  · exact .inr (.inr hc)
  · exact .inr (.inl hc)
  · exact .inl (after.blank c hc)

lemma mem_itemsTail (hc : c ∈ itemsTail items) : c = ',' ∨ ∃ i ∈ items, c ∈ i.text := by
  induction items with
  | nil => simp [itemsTail] at hc
  | cons i items ih =>
    rw [itemsTail, mem_cons, mem_append] at hc
    rcases hc with hc | hc | hc
    · exact .inl hc
    · exact .inr ⟨i, mem_cons_self, hc⟩
    · rcases ih hc with hcomma | ⟨j, hj, hmem⟩
      · exact .inl hcomma
      · exact .inr ⟨j, mem_cons_of_mem _ hj, hmem⟩

lemma bracket_mem_itemsText {pad : Ws} {items : List Item}
    (h : items.all (fun i => (itemString i).isSome) = true) (hc : ']' ∈ itemsText pad items) :
    ∃ s ∈ strings items, ']' ∈ rawText s := by
  have hitem : ∃ i ∈ items, ']' ∈ i.text := by
    cases items with
    | nil => exact absurd hc (ws_not_mem pad (by decide))
    | cons i items =>
      rw [itemsText, mem_append] at hc
      rcases hc with hc | hc
      · exact ⟨i, mem_cons_self, hc⟩
      · rcases mem_itemsTail hc with hcomma | ⟨j, hj, hmem⟩
        · exact absurd hcomma (by decide)
        · exact ⟨j, mem_cons_of_mem _ hj, hmem⟩
  obtain ⟨i, hi, hmem⟩ := hitem
  obtain ⟨before, s, after, rfl, hs⟩ := exists_item_string h hi
  rcases mem_item_text hmem with hws | hquote | hraw
  · exact absurd hws (by decide)
  · exact absurd hquote (by decide)
  · exact ⟨s, hs, hraw⟩

lemma splitOn_items {i : Item} (h : ∀ j ∈ i :: items, ',' ∉ j.text) :
    (i.text ++ itemsTail items).splitOn ',' = (i :: items).map Item.text := by
  induction items generalizing i with
  | nil =>
    rw [itemsTail, append_nil, splitOn_eq_singleton (h i mem_cons_self)]
    rfl
  | cons j items ih =>
    rw [itemsTail, splitOn_append_cons_self_of_not_mem (h i mem_cons_self),
      ih fun k hk => h k (mem_cons_of_mem _ hk)]
    rfl

lemma rawText_head (h : rawText s = c :: t) : c ≠ '"' := by
  cases s with
  | nil => cases h
  | cons p s =>
    cases p with
    | plain d hd =>
      obtain ⟨rfl, -⟩ := cons.inj h
      rintro rfl
      exact absurd hd (by decide)
    | escape e =>
      obtain ⟨rfl, -⟩ := cons.inj h
      decide
    | unicode a b c' d =>
      obtain ⟨rfl, -⟩ := cons.inj h
      decide

/-- What is left of a string when the quotes at its ends are taken off: an escaped quote at
the end goes as well. -/
def unquoted (s : List Piece) : Text := (rawText s).rdropWhile (· == '"')

lemma trimMatches_item (before after : Ws) (s : List Piece) :
    trimMatches '"' (trim (Item.mk before (.string s) after).text) = unquoted s := by
  have htrim : trim (Item.mk before (.string s) after).text = '"' :: (rawText s ++ ['"']) := by
    rw [Item.text, trim_ws_append (ws_isWhitespace before), trim_append_ws (ws_isWhitespace after),
      Value.text]
    refine trim_of_trimmed ⟨?_, ?_⟩
    · rintro c ⟨⟩
      decide
    · intro c hc
      rw [← cons_append, getLast?_concat] at hc
      cases hc
      decide
  rw [htrim, trimMatches, dropWhile_cons_of_pos (by decide), unquoted]
  cases hraw : rawText s with
  | nil => rfl
  | cons c t =>
    have hc := rawText_head hraw
    rw [cons_append, dropWhile_cons_of_neg (by simpa using hc), ← cons_append,
      rdropWhile_concat_pos _ _ _ (by decide)]

lemma map_trimMatches (h : items.all (fun i => (itemString i).isSome) = true) :
    items.map (fun i => trimMatches '"' (trim i.text)) = (strings items).map unquoted := by
  induction items with
  | nil => rfl
  | cons i items ih =>
    obtain ⟨hi, hitems⟩ := Bool.and_eq_true_iff.mp (all_cons.symm.trans h)
    obtain ⟨before, s, after, rfl, -⟩ := exists_item_string h mem_cons_self
    have hstrings : strings (.mk before (.string s) after :: items) = s :: strings items := rfl
    rw [hstrings, map_cons, map_cons, trimMatches_item, ih hitems]

/-- **The items of an array of strings** without commas: the strings that are not empty. -/
theorem arrayItems_itemsText (h : items.all (fun i => (itemString i).isSome) = true)
    (hcomma : ∀ s ∈ strings items, ',' ∉ rawText s) :
    arrayItems (itemsText pad items) =
      ((strings items).map unquoted).filter fun s => !s.isEmpty := by
  have htext : ∀ i ∈ items, ',' ∉ i.text := by
    intro i hi hmem
    obtain ⟨before, s, after, rfl, hs⟩ := exists_item_string h hi
    rcases mem_item_text hmem with hws | hquote | hraw
    · exact absurd hws (by decide)
    · exact absurd hquote (by decide)
    · exact hcomma s hs hraw
  have hmap := map_trimMatches h
  cases items with
  | nil =>
    rw [itemsText, arrayItems, splitOn_eq_singleton (ws_not_mem pad (by decide))]
    have htrim : trim pad.chars = [] := by
      have hpad := trim_append_ws (s := []) (ws_isWhitespace pad)
      rwa [nil_append] at hpad
    simp [htrim, trimMatches, strings]
  | cons i items =>
    rw [itemsText, arrayItems, splitOn_items htext, List.map_map]
    exact congrArg _ hmap

/-! ## Documents without escapes -/

lemma quote_not_mem_of_plain (h : Plain s) : Piece.escape .quote ∉ s :=
  fun hmem => absurd (h _ hmem) (by decide)

lemma unquoted_of_plain (h : Plain s) : unquoted s = rawText s := by
  have hquote : '"' ∉ rawText s := fun hmem => quote_not_mem_of_plain h (quote_mem_rawText.mp hmem)
  rw [unquoted, rdropWhile_eq_self_iff]
  intro hne heq
  exact hquote (eq_of_beq heq ▸ getLast_mem hne)

lemma valueInStep_of_plain (hsimple : (valueMeaning v).isSome = true)
    (h : PlainValue v) : ValueInStep v := by
  cases v with
  | string s => exact quote_not_mem_of_plain h
  | array pad items =>
    intro hbracket
    obtain ⟨s, hs, hmem⟩ := bracket_mem_itemsText (all_strings hsimple) hbracket
    exact (h s hs).2.2.2 hmem
  | _ => trivial

lemma memberInStep_of_plain {m : Member} (hsimple : (valueMeaning m.value).isSome = true)
    (h : PlainMember m) : MemberInStep m :=
  ⟨quote_not_mem_of_plain h.1, valueInStep_of_plain hsimple h.2⟩

lemma readValue_of_plain (hsimple : (valueMeaning v).isSome = true)
    (h : PlainValue v) (hread : readValue v = some value) :
    valueMeaning v = some (claimMeaning value) := by
  cases v with
  | null =>
    cases hread
    rfl
  | bool b =>
    cases hread
    rfl
  | number n =>
    rw [readValue] at hread
    split at hread
    · next hfits =>
      cases hread
      rw [valueMeaning, if_pos (Bool.and_eq_true_iff.mp hfits).1]
      rfl
    · cases hread
  | string s =>
    cases hread
    rw [valueMeaning, decode_of_plain h]
    rfl
  | array pad items =>
    have hall := all_strings hsimple
    have hitems : ((strings items).map unquoted).filter (fun s => !s.isEmpty) =
        (strings items).map rawText := by
      rw [map_congr_left fun s hs => unquoted_of_plain (h s hs).1, filter_eq_self]
      intro t ht
      obtain ⟨s, hs, rfl⟩ := mem_map.mp ht
      simpa using rawText_ne_nil (h s hs).2.1
    cases hread
    rw [arrayItems_itemsText hall fun s hs => (h s hs).2.2.1, hitems, valueMeaning, if_pos hall,
      map_congr_left fun s hs => decode_of_plain (h s hs).1]
    simp [claimMeaning, codePoints, Function.comp_def]
  | object pad members => cases hread

/-- A claim is what is read of the member with its name, if texts of names and their meanings
say the same. -/
lemma claim_eq (hstep : ∀ m ∈ reached d.members, MemberInStep m)
    (hparse : parseClaims d.text = some claims) {key : Text}
    (hname : ∀ m ∈ d.members, decode m.name = codePoints key ↔ rawText m.name = key) :
    claims key = (d.lookup (codePoints key)).bind readValue := by
  have hfind : (d.members.reverse.find? fun m => decode m.name == codePoints key) =
      d.members.reverse.find? fun m => rawText m.name == key := by
    refine find?_congr fun m hm => ?_
    rw [Bool.eq_iff_iff, beq_iff_eq, beq_iff_eq]
    exact hname m (mem_reverse.mp hm)
  rw [parseClaims_text hstep] at hparse
  rw [readMembers_get hparse, Document.lookup, hfind]
  cases d.members.reverse.find? fun m => rawText m.name == key <;> rfl

lemma decode_name_iff {m : Member} (h : Plain m.name) (key : Text) :
    decode m.name = codePoints key ↔ rawText m.name = key := by
  rw [decode_of_plain h]
  exact codePoints_injective.eq_iff

lemma memberInStep_of_reached (hsimple : Simple d) (h : ∀ m ∈ reached d.members, PlainMember m) :
    ∀ m ∈ reached d.members, MemberInStep m :=
  fun m hm => memberInStep_of_plain (hsimple m (mem_of_mem_reached hm)) (h m hm)

lemma faithful_of_plain (hsimple : Simple d) (h : ∀ m ∈ reached d.members, PlainMember m)
    (hparse : parseClaims d.text = some claims) : Faithful d claims := by
  have hstep := memberInStep_of_reached hsimple h
  have hreads := readValue_ne_none hstep hparse
  rw [reached_eq_self hreads] at h
  refine ⟨fun key => ?_, fun m hm => ⟨rawText m.name, (decode_of_plain (h m hm).1).symm⟩⟩
  rw [claim_eq hstep hparse fun m hm => decode_name_iff (h m hm).1 key]
  cases hfound : d.lookup (codePoints key) with
  | none => rfl
  | some v =>
    obtain ⟨m, hm, rfl⟩ := Document.mem_of_lookup hfound
    cases hread : readValue m.value with
    | none => exact absurd hread (hreads m hm)
    | some value =>
      have hmeaning := readValue_of_plain (hsimple m hm) (h m hm).2 hread
      simp [hread, hmeaning]

/-! ## Faithful claims -/

lemma mem_of_toNat_mem_codePoints {s : Text} (h : c.toNat ∈ codePoints s) : c ∈ s := by
  obtain ⟨d, hd, heq⟩ := mem_map.mp h
  rwa [← Char.toNat_inj.mp heq]

lemma quote_not_mem_of_codePoints (heq : codePoints t = decode s)
    (ht : '"' ∉ t) : Piece.escape .quote ∉ s := by
  intro hmem
  have hcode : '"'.toNat ∈ decode s := mem_decode hmem (by decide) (by decide)
  exact ht (mem_of_toNat_mem_codePoints (heq ▸ hcode))

lemma not_mem_rawText_of_codePoints (heq : codePoints t = decode s)
    (hc : c = ',' ∨ c = ']') (ht : c ∉ t) : c ∉ rawText s := by
  intro hmem
  have hcode : c.toNat ∈ decode s := by
    rcases hc with rfl | rfl
    · exact toNat_mem_decode hmem (by decide) (by decide) (by intro e; cases e <;> decide)
        (by decide)
    · exact toNat_mem_decode hmem (by decide) (by decide) (by intro e; cases e <;> decide)
        (by decide)
  exact ht (mem_of_toNat_mem_codePoints (heq ▸ hcode))

lemma exists_item_of_meaning {texts : List Text}
    (h : texts.map codePoints = (strings items).map decode)
    (hs : s ∈ strings items) : ∃ t ∈ texts, codePoints t = decode s :=
  mem_map.mp (h ▸ mem_map_of_mem hs)

lemma array_meaning (h : valueMeaning (.array pad items) = some (claimMeaning value)) :
    items.all (fun i => (itemString i).isSome) = true ∧
      ∃ texts, value = .array texts ∧ texts.map codePoints = (strings items).map decode := by
  rw [valueMeaning] at h
  split at h
  · next hall =>
    cases value with
    | array texts =>
      simp only [claimMeaning, Option.some.injEq, Meaning.array.injEq] at h
      exact ⟨hall, texts, rfl, h.symm⟩
    | _ => cases h
  · cases h

lemma string_meaning (h : valueMeaning (.string s) = some (claimMeaning value)) :
    ∃ t, value = .string t ∧ codePoints t = decode s := by
  cases value with
  | string t =>
    simp only [valueMeaning, claimMeaning, Option.some.injEq, Meaning.string.injEq] at h
    exact ⟨t, rfl, h.symm⟩
  | _ => cases h

lemma valueInStep_of_meaning
    (h : valueMeaning v = some (claimMeaning value)) (hclean : CleanValue value) :
    ValueInStep v := by
  cases v with
  | string s =>
    obtain ⟨t, rfl, heq⟩ := string_meaning h
    exact quote_not_mem_of_codePoints heq hclean
  | array pad items =>
    obtain ⟨hall, texts, rfl, heq⟩ := array_meaning h
    intro hbracket
    obtain ⟨s, hs, hmem⟩ := bracket_mem_itemsText hall hbracket
    obtain ⟨t, ht, hst⟩ := exists_item_of_meaning heq hs
    exact not_mem_rawText_of_codePoints hst (.inr rfl) (hclean t ht).2.2 hmem
  | _ => trivial

lemma plain_of_unquoted (h : codePoints (unquoted s) = decode s) : Plain s := by
  have hlast : unquoted s = rawText s := by
    induction s using reverseRecOn with
    | nil => rfl
    | append_singleton s p _ =>
      by_cases hp : p = .escape .quote
      · -- the quote is gone from the end of the text, and at the end of the meaning
        subst hp
        have hunquoted : unquoted (s ++ [.escape .quote]) = rawText s ++ ['\\'] := by
          have htext : rawText (s ++ [.escape .quote]) = rawText s ++ ['\\'] ++ ['"'] := by
            simp [Piece.text, Escape.char]
          rw [unquoted, htext, rdropWhile_concat_pos _ _ _ (by decide),
            rdropWhile_concat_neg _ _ _ (by decide)]
        rw [hunquoted, decode_concat s (by decide), codePoints, map_append] at h
        have hcode := (append_inj' h rfl).2
        exact absurd hcode (by decide)
      · obtain ⟨t, c, htext, hc⟩ := Piece.text_eq_concat hp
        rw [unquoted, rawText_append, rawText_cons, rawText_nil, append_nil, htext,
          ← append_assoc, rdropWhile_concat_neg _ _ _ (by simpa using hc)]
  refine plain_of_length_le ?_
  rw [← h, hlast, codePoints, length_map]

lemma plainValue_of_meaning
    (h : valueMeaning v = some (claimMeaning value)) (hread : readValue v = some value)
    (hclean : CleanValue value) : PlainValue v := by
  cases v with
  | string s =>
    obtain ⟨t, rfl, heq⟩ := string_meaning h
    cases hread
    refine plain_of_length_le ?_
    rw [← heq, codePoints, length_map]
  | array pad items =>
    obtain ⟨hall, texts, rfl, heq⟩ := array_meaning h
    have hchars : ∀ s ∈ strings items, ',' ∉ rawText s ∧ ']' ∉ rawText s := by
      intro s hs
      obtain ⟨t, ht, hst⟩ := exists_item_of_meaning heq hs
      exact ⟨not_mem_rawText_of_codePoints hst (.inl rfl) (hclean t ht).2.1,
        not_mem_rawText_of_codePoints hst (.inr rfl) (hclean t ht).2.2⟩
    have htexts : texts = ((strings items).map unquoted).filter fun s => !s.isEmpty := by
      rw [← arrayItems_itemsText hall fun s hs => (hchars s hs).1]
      cases hread
      rfl
    -- none is empty, for there are as many items as strings
    have hnonempty : ∀ t ∈ (strings items).map unquoted, (!t.isEmpty) = true := by
      refine length_filter_eq_length_iff.mp ?_
      rw [← htexts, length_map]
      simpa using congrArg length heq
    rw [filter_eq_self.mpr hnonempty] at htexts
    rw [htexts, List.map_map, List.map_inj_left] at heq
    intro s hs
    refine ⟨plain_of_unquoted (heq s hs), ?_, hchars s hs⟩
    rintro rfl
    exact absurd (hnonempty _ (mem_map_of_mem hs)) (by decide)
  | _ => trivial

/-- If each name is the text of some name, then all are texts: a name is not longer than its
meaning, for together they are the same. -/
lemma plain_names (hnames : d.names.Nodup)
    (hkeys : ∀ m ∈ d.members, ∃ m' ∈ d.members, codePoints (rawText m'.name) = decode m.name) :
    ∀ m ∈ d.members, Plain m.name := by
  -- names that differ are a permutation of the texts, so all texts have the length of all names
  have hsubset : d.names ⊆ ((d.members.map (·.name)).map rawText).map codePoints := by
    intro name hname
    obtain ⟨m, hm, rfl⟩ := mem_map.mp hname
    obtain ⟨m', hm', heq⟩ := hkeys m hm
    rw [← heq]
    exact mem_map_of_mem (mem_map_of_mem (mem_map_of_mem hm'))
  have hperm := (subperm_of_subset hnames hsubset).perm_of_length_le (by
    simp [Document.names])
  have hlength := hperm.flatten.length_eq
  have hraw : (((d.members.map (·.name)).map rawText).map codePoints).flatten.length =
      ((d.members.map (·.name)).map rawText).flatten.length := by
    rw [show codePoints = map Char.toNat from rfl, ← map_flatten, length_map]
  have hplain := plain_of_length_flatten_le (d.members.map (·.name)) (by
    rw [← hraw, ← hlength, Document.names, List.map_map]
    exact Nat.le_refl _)
  intro m hm
  exact hplain m.name (mem_map_of_mem hm)

/-- **Faithful claims come from members without escapes**, if no name is repeated. -/
theorem plain_of_faithful (hsimple : Simple d) (hnames : d.names.Nodup)
    (hparse : parseClaims d.text = some claims) (h : Faithful d claims) :
    ∀ m ∈ d.members, PlainMember m := by
  have hclean := clean_parseClaims hparse
  -- each member has its claim
  have hclaim : ∀ m ∈ d.members, ∃ key value, codePoints key = decode m.name ∧
      claims key = some value ∧ valueMeaning m.value = some (claimMeaning value) := by
    intro m hm
    obtain ⟨key, hkey⟩ := h.2 m hm
    have hvalue := h.1 key
    rw [hkey, Document.lookup_of_mem hnames hm, bind_some] at hvalue
    obtain ⟨meaning, hmeaning⟩ := isSome_iff_exists.mp (hsimple m hm)
    rw [hmeaning] at hvalue
    obtain ⟨value, hget, rfl⟩ := map_eq_some_iff.mp hvalue
    exact ⟨key, value, hkey, hget, hmeaning⟩
  -- and claims never have what would put the loop out of step
  have hstep : ∀ m ∈ d.members, MemberInStep m := by
    intro m hm
    obtain ⟨key, value, hkey, hget, hmeaning⟩ := hclaim m hm
    obtain ⟨hquote, hcleanValue⟩ := hclean key value hget
    exact ⟨quote_not_mem_of_codePoints hkey hquote, valueInStep_of_meaning hmeaning hcleanValue⟩
  rw [parseClaims_text fun m hm => hstep m (mem_of_mem_reached hm)] at hparse
  have hplain : ∀ m ∈ d.members, Plain m.name := by
    refine plain_names hnames fun m hm => ?_
    obtain ⟨key, value, hkey, hget, -⟩ := hclaim m hm
    rw [readMembers_get hparse key] at hget
    split at hget
    · next m' hfind =>
      have hname : rawText m'.name = key := by simpa using find?_some hfind
      exact ⟨m', mem_reverse.mp (mem_of_find?_eq_some hfind), by rw [hname, hkey]⟩
    · cases hget
  intro m hm
  obtain ⟨key, value, hkey, hget, hmeaning⟩ := hclaim m hm
  refine ⟨hplain m hm, plainValue_of_meaning hmeaning ?_ (hclean key value hget).2⟩
  rw [readMembers_get hparse key] at hget
  split at hget
  · next m' hfind =>
    -- no other member has this name
    have hm' := mem_reverse.mp (mem_of_find?_eq_some hfind)
    have hname : rawText m'.name = key := by simpa using find?_some hfind
    have hdecode : decode m'.name = decode m.name := by
      rw [← hkey, ← hname, decode_of_plain (hplain m' hm')]
      rfl
    rwa [← inj_on_of_nodup_map hnames hm' hm hdecode]
  · cases hget

lemma readValue_eq_none (hsimple : (valueMeaning v).isSome = true)
    (h : readValue v = none) : ∃ n, v = .number n ∧ fitsI64 n = false := by
  cases v with
  | number n =>
    rw [readValue] at h
    split at h
    · cases h
    · next hfits => exact ⟨n, rfl, by simpa using hfits⟩
  | object pad members => cases hsimple
  | _ => cases h

/-- **When claims are parsed faithfully.** Members without escapes, and without commas, brackets
and empty strings in arrays, come out as they are, or an integer is no `i64` and the payload is
refused, whatever comes behind it. Of other payloads without repeated names none does. -/
theorem parseClaims_faithful (d : Document) (hsimple : Simple d) :
    ((∀ m ∈ reached d.members, PlainMember m) →
      match parseClaims d.text with
      | some claims => Faithful d claims
      | none => ∃ m ∈ d.members, ∃ n, m.value = .number n ∧ fitsI64 n = false) ∧
    (d.names.Nodup → ∀ claims, parseClaims d.text = some claims →
      (Faithful d claims ↔ ∀ m ∈ d.members, PlainMember m)) := by
  refine ⟨fun hplain => ?_, fun hnames claims hparse =>
    ⟨plain_of_faithful hsimple hnames hparse, fun hplain => faithful_of_plain hsimple
      (fun m hm => hplain m (mem_of_mem_reached hm)) hparse⟩⟩
  cases hparse : parseClaims d.text with
  | some claims => exact faithful_of_plain hsimple hplain hparse
  | none =>
    rw [parseClaims_text (memberInStep_of_reached hsimple hplain)] at hparse
    obtain ⟨m, hm, hread⟩ := readMembers_eq_none_iff.mp hparse
    exact ⟨m, hm, readValue_eq_none (hsimple m hm) hread⟩

def member (name : Text) (value : Value) : Member := .mk .none (spell name) .none .none value .none

def one : Number := ⟨false, ⟨['1'], by simp, by simp⟩, by simp, none, none⟩

def subjectAndTime : Document where
  members := [member "sub" (.string (spell "ann")), member "exp" (.number one)]

theorem parseClaims_faithful_subject :
    subjectAndTime.text = "\x7b\"sub\":\"ann\",\"exp\":1\x7d" ∧
      Simple subjectAndTime ∧
      ∃ claims, parseClaims subjectAndTime.text = some claims ∧ Faithful subjectAndTime claims := by
  have hsimple : Simple subjectAndTime :=
    forall_mem_cons.mpr ⟨rfl, forall_mem_cons.mpr ⟨rfl, by simp⟩⟩
  have hplain : ∀ m ∈ subjectAndTime.members, PlainMember m :=
    forall_mem_cons.mpr ⟨⟨plain_spell _, plain_spell _⟩,
      forall_mem_cons.mpr ⟨⟨plain_spell _, trivial⟩, by simp⟩⟩
  refine ⟨rfl, hsimple, ?_⟩
  have hfaithful := (parseClaims_faithful subjectAndTime hsimple).1
    fun m hm => hplain m (mem_of_mem_reached hm)
  cases hparse : parseClaims subjectAndTime.text with
  | some claims =>
    rw [hparse] at hfaithful
    exact ⟨claims, rfl, hfaithful⟩
  | none =>
    rw [parseClaims_document, claimsFrom_member rfl, claimsFrom_member rfl,
      claimsFrom_done rfl] at hparse
    cases hparse

def quoteAndTime : Document where
  members := [member "a" (.string (spell "x" ++ [.escape .quote])), member "exp" (.number one)]

/-- The scan takes the escaped quote for the end of the string, then the end of the string for
the start of a name, and stops: the claims lack the expiration time. -/
theorem parseClaims_drops_exp :
    quoteAndTime.text = "\x7b\"a\":\"x\\\"\",\"exp\":1\x7d" ∧ Simple quoteAndTime ∧
      (quoteAndTime.lookup (codePoints "exp")).isSome = true ∧
      ∃ claims, parseClaims quoteAndTime.text = some claims ∧ claims "exp" = none ∧
        ¬Faithful quoteAndTime claims := by
  refine ⟨rfl, forall_mem_cons.mpr ⟨rfl, forall_mem_cons.mpr ⟨rfl, by simp⟩⟩, rfl, ?_⟩
  have hparse : parseClaims quoteAndTime.text =
      some (Function.update (fun _ => none) ['a'] (some (.string ['x', '\\']))) := by
    rw [parseClaims_document, claimsFrom_member rfl, claimsFrom_done rfl]
    rfl
  refine ⟨_, hparse, rfl, fun hfaithful => ?_⟩
  have hexp := hfaithful.1 "exp"
  exact absurd hexp (by decide)

end TrafficCop
