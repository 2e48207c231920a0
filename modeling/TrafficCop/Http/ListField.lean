import TrafficCop.Http.Headers

/-!
# Http — lists in header fields

Field values that are lists.
-/

namespace Http

open Rust List

def isBlank (c : Char) : Bool := c == ' ' || c == '\t'

def trimBlanks (s : Text) : Text := (s.dropWhile isBlank).rdropWhile isBlank

/-- The texts between commas; blanks around an element and empty elements do not count. -/
def elements (s : Text) : List Text :=
  ((s.splitOn ',').map trimBlanks).filter fun e => !e.isEmpty

variable {s e w : Text} {v : HeaderValue}

lemma mem_elements_iff :
    e ∈ elements s ↔ e ≠ [] ∧ ∃ piece ∈ s.splitOn ',', trimBlanks piece = e := by
  rw [elements, mem_filter, mem_map, and_comm]
  simp

lemma elements_comma (s t : Text) : elements (s ++ ',' :: t) = elements s ++ elements t := by
  rw [elements, splitOn_append_cons_self, map_append, filter_append]
  rfl

lemma elements_blank_cons {b : Char} (hb : isBlank b) (s : Text) :
    elements (b :: s) = elements s := by
  have hcomma : (b == ',') = false := by
    rw [beq_eq_false_iff_ne]
    intro heq
    rw [heq] at hb
    exact absurd hb (by decide)
  obtain ⟨piece, pieces, hsplit⟩ := exists_cons_of_ne_nil (splitOn_ne_nil (a := ',') s)
  rw [elements, elements, splitOn_cons_eq_if_modifyHead, hcomma, if_neg Bool.false_ne_true,
    hsplit, modifyHead_cons, map_cons, map_cons, trimBlanks,
    dropWhile_cons_of_pos hb]
  rfl

lemma elements_join (parts : List Text) :
    elements (", ".toList.intercalate parts) = parts.flatMap elements := by
  induction parts with
  | nil => rfl
  | cons part parts ih =>
    cases parts with
    | nil => simp
    | cons next parts =>
      have hjoin : ", ".toList.intercalate (part :: next :: parts) =
          part ++ ',' :: ' ' :: ", ".toList.intercalate (next :: parts) := by
        rw [intercalate_cons_cons, append_assoc]
        rfl
      rw [hjoin, elements_comma, elements_blank_cons (by decide), ih, ← flatMap_cons]

lemma infix_trimBlanks (s : Text) : trimBlanks s <:+: s :=
  (List.rdropWhile_prefix _ _).isInfix.trans (dropWhile_suffix _).isInfix

lemma infix_of_mem_elements (h : e ∈ elements s) : e <:+: s := by
  obtain ⟨-, piece, hpiece, rfl⟩ := mem_elements_iff.mp h
  exact (infix_trimBlanks piece).trans (infix_of_mem_splitOn hpiece)

lemma infix_of_infix_append {t : Text} (h : w <:+: s ++ t) (hw : ∀ c ∈ w, c ∉ t) : w <:+: s := by
  have hnil : ∀ v, (∀ c ∈ v, c ∈ w) → v <:+: t → v = [] := fun v hv hvt =>
    eq_nil_iff_forall_not_mem.mpr fun c hc => hw c (hv c hc) (hvt.subset hc)
  rcases infix_append_iff.mp h with hs | ht | ⟨w₁, w₂, rfl, hs, ht⟩
  · exact hs
  · rw [hnil w (fun _ hc => hc) ht]
    exact nil_infix
  · rw [hnil w₂ (fun _ hc => mem_append_right _ hc) ht.isInfix, append_nil]
    exact hs.isInfix

lemma exists_part_of_infix {parts : List Text} (h : w <:+: [','].intercalate parts)
    (hne : w ≠ []) (hw : ',' ∉ w) : ∃ part ∈ parts, w <:+: part := by
  induction parts with
  | nil => exact absurd (eq_nil_of_infix_nil h) hne
  | cons part parts ih =>
    cases parts with
    | nil => exact ⟨part, mem_singleton_self part, by rwa [intercalate_singleton] at h⟩
    | cons next parts =>
      -- in the first part, in the others, or across the comma between them
      have hrest : w <:+: [','].intercalate (next :: parts) →
          ∃ p ∈ part :: next :: parts, w <:+: p := by
        intro hin
        obtain ⟨p, hp, hin⟩ := ih hin
        exact ⟨p, mem_cons_of_mem _ hp, hin⟩
      rw [intercalate_cons_cons] at h
      rcases infix_append_iff.mp h with hfirst | hrest' | ⟨w₁, w₂, rfl, hfirst, hrest'⟩
      · refine ⟨part, mem_cons_self, infix_of_infix_append hfirst fun c hc => ?_⟩
        rw [mem_singleton]
        rintro rfl
        exact hw hc
      · exact hrest hrest'
      · rcases suffix_concat_iff.mp hfirst with rfl | ⟨t, rfl, -⟩
        · exact hrest hrest'.isInfix
        · exact absurd (by simp) hw

lemma infix_trimBlanks_of_infix (h : w <:+: s) (hw : ∀ c ∈ w, isBlank c = false) :
    w <:+: trimBlanks s := by
  have hblank : ∀ c ∈ w, ¬isBlank c := fun c hc => by simp [hw c hc]
  have hstart : w <:+: s.dropWhile isBlank := by
    rw [← takeWhile_append_dropWhile (p := isBlank) (l := s), ← reverse_infix, reverse_append] at h
    refine reverse_infix.mp (infix_of_infix_append h fun c hc hc' => ?_)
    exact hblank c (mem_reverse.mp hc) (mem_takeWhile_imp (mem_reverse.mp hc'))
  rw [← rdropWhile_append_rtakeWhile (p := isBlank) (l := s.dropWhile isBlank)] at hstart
  refine infix_of_infix_append hstart fun c hc hc' => hblank c hc ?_
  exact mem_rtakeWhile_imp hc'

/-- What occurs in a list and has no comma and no blank, occurs in an element. -/
lemma exists_element_of_infix (h : w <:+: s) (hne : w ≠ [])
    (hw : ∀ c ∈ w, c ≠ ',' ∧ isBlank c = false) : ∃ e ∈ elements s, w <:+: e := by
  have hjoin : [','].intercalate (s.splitOn ',') = s := intercalate_splitOn ..
  rw [← hjoin] at h
  obtain ⟨piece, hpiece, hin⟩ := exists_part_of_infix h hne fun hc => (hw _ hc).1 rfl
  have htrim := infix_trimBlanks_of_infix hin fun c hc => (hw c hc).2
  refine ⟨trimBlanks piece, mem_elements_iff.mpr ⟨?_, piece, hpiece, rfl⟩, htrim⟩
  intro hnil
  rw [hnil] at htrim
  exact hne (eq_nil_of_infix_nil htrim)

lemma mem_elements_self (hne : s ≠ []) (hcomma : ',' ∉ s)
    (hhead : ∀ c, s.head? = some c → isBlank c = false)
    (hlast : ∀ c, s.getLast? = some c → isBlank c = false) : s ∈ elements s := by
  refine mem_elements_iff.mpr ⟨hne, s, by rw [splitOn_eq_singleton hcomma]; simp, ?_⟩
  have hstart : s.dropWhile isBlank = s := by
    obtain ⟨c, rest, rfl⟩ := exists_cons_of_ne_nil hne
    rw [dropWhile_cons_of_neg (by simp [hhead c rfl])]
  rw [trimBlanks, hstart, rdropWhile_eq_self_iff]
  intro _ hblank
  rw [hlast _ (getLast?_eq_some_getLast hne)] at hblank
  cases hblank

lemma dropWhile_congr {p q : Char → Bool} (h : ∀ c ∈ s, p c = q c) :
    s.dropWhile p = s.dropWhile q := by
  induction s with
  | nil => rfl
  | cons c s ih =>
    rw [dropWhile_cons, dropWhile_cons, h c mem_cons_self,
      ih fun c hc => h c (mem_cons_of_mem _ hc)]

lemma trim_eq_trimBlanks (h : ∀ c ∈ s, isWhitespace c = isBlank c) : trim s = trimBlanks s := by
  have hstart : trimStart s = s.dropWhile isBlank := dropWhile_congr h
  rw [trim, trimBlanks, hstart, trimEnd, List.rdropWhile, List.rdropWhile, dropWhile_congr]
  intro c hc
  exact h c ((dropWhile_sublist _).subset (mem_reverse.mp hc))

lemma ascii_of_toStr (h : v.toStr = some s) {c : Char} (hc : c ∈ s) :
    isAscii c ∧ isWhitespace c = isBlank c := by
  have hall : ∀ n : Fin 256, isVisibleAscii (UInt8.ofNat n) →
      isAscii (Char.ofNat n) ∧ isWhitespace (Char.ofNat n) = isBlank (Char.ofNat n) := by
    decide +kernel
  obtain ⟨hvisible, rfl⟩ := HeaderValue.toStr_eq_some_iff.mp h
  obtain ⟨b, hb, rfl⟩ := mem_map.mp hc
  refine hall ⟨b.toNat, b.toNat_lt⟩ ?_
  rw [UInt8.ofNat_toNat]
  exact hvisible b hb

lemma element_of_toStr {piece : Text} (h : v.toStr = some s) (hpiece : piece ∈ s.splitOn ',') :
    trim piece = trimBlanks piece ∧ (∀ c ∈ trimBlanks piece, isAscii c) ∧
      ',' ∉ trimBlanks piece ∧
      (∀ c, (trimBlanks piece).head? = some c → isBlank c = false) ∧
      ∀ c, (trimBlanks piece).getLast? = some c → isBlank c = false := by
  have hin : ∀ c ∈ piece, c ∈ s := fun c hc => (infix_of_mem_splitOn hpiece).subset hc
  have hin' : ∀ c ∈ trimBlanks piece, c ∈ piece := fun c hc => (infix_trimBlanks piece).subset hc
  have htrim : trim piece = trimBlanks piece :=
    trim_eq_trimBlanks fun c hc => (ascii_of_toStr h (hin c hc)).2
  have htrimmed := trimmed_trim piece
  rw [htrim] at htrimmed
  have hblank : ∀ c ∈ trimBlanks piece, isWhitespace c = false → isBlank c = false := by
    intro c hc hspace
    rw [← hspace, (ascii_of_toStr h (hin c (hin' c hc))).2]
  refine ⟨htrim, fun c hc => (ascii_of_toStr h (hin c (hin' c hc))).1,
    fun hc => notMem_of_mem_splitOn hpiece (hin' _ hc), fun c hc => ?_, fun c hc => ?_⟩
  · exact hblank c (mem_of_head? hc) (htrimmed.1 c hc)
  · exact hblank c (mem_of_getLast? hc) (htrimmed.2 c hc)

end Http
