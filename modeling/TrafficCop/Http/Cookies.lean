import TrafficCop.Http.Headers

/-!
# Http — the `Cookie` header

A `Cookie` header is a list of crumbs.
-/

namespace Http

open Rust List Option

/-- A name and a value, or a text without `=`; that includes the empty one. -/
inductive Crumb where
  | pair (name value : Text)
  | bare
  deriving Repr, DecidableEq

namespace Crumb

def pair? : Crumb → Option (Text × Text)
  | pair name value => some (name, value)
  | bare => none

def valueOf (name : Text) : Crumb → Option Text
  | pair name' value => if name' = name then some value else none
  | bare => none

variable {name text : Text} {crumb : Crumb}

@[simp] lemma valueOf_eq_some_iff {value : Text} :
    crumb.valueOf name = some value ↔ crumb = pair name value := by
  cases crumb with
  | bare => simp [valueOf]
  | pair name' value' =>
    rw [valueOf]
    split <;> simp_all

lemma valueOf_eq_none_iff : crumb.valueOf name = none ↔ ∀ value, crumb ≠ pair name value := by
  rw [eq_none_iff_forall_ne_some]
  simp only [ne_eq, valueOf_eq_some_iff]

/-- With whitespace around the name and behind the value. -/
inductive Spelled : Crumb → Text → Prop where
  | pair {left name right value tail : Text} (hleft : ∀ c ∈ left, isWhitespace c = true)
      (hright : ∀ c ∈ right, isWhitespace c = true) (htail : ∀ c ∈ tail, isWhitespace c = true)
      (hname : Trimmed name) (hequals : '=' ∉ name) (hsemicolon : ';' ∉ name ++ value)
      (hvalue : ∀ c, value.getLast? = some c → isWhitespace c = false) :
      Spelled (.pair name value) (left ++ name ++ right ++ '=' :: (value ++ tail))
  | bare {text : Text} (hequals : '=' ∉ text) (hsemicolon : ';' ∉ text) : Spelled .bare text

lemma notMem_of_whitespace {w : Text} (hw : ∀ c ∈ w, isWhitespace c) {c : Char}
    (hc : isWhitespace c = false) : c ∉ w := by
  intro hmem
  rw [hw c hmem] at hc
  cases hc

lemma Spelled.semicolon_notMem (h : crumb.Spelled text) : ';' ∉ text := by
  cases h with
  | bare _ hsemicolon => exact hsemicolon
  | pair hleft hright htail _ _ hsemicolon _ =>
    have hvisible : isWhitespace ';' = false := by decide
    simp only [mem_append, mem_cons, not_or] at hsemicolon ⊢
    exact ⟨⟨⟨notMem_of_whitespace hleft hvisible, hsemicolon.1⟩,
      notMem_of_whitespace hright hvisible⟩, by decide, hsemicolon.2,
      notMem_of_whitespace htail hvisible⟩

/-- **A crumb is read back**, without the whitespace around it and behind its name. -/
theorem Spelled.splitOnce_trim (h : crumb.Spelled text) :
    (splitOnce '=' (trim text)).map (fun p => (trim p.1, p.2)) = crumb.pair? := by
  cases h with
  | bare hequals _ =>
    have hnone : splitOnce '=' (trim text) = none := by
      rw [eq_none_iff_forall_ne_some]
      rintro ⟨before, after⟩ hsplit
      obtain ⟨w, w', -, -, htext⟩ := exists_trim_padding text
      rw [(splitOnce_eq_some_iff.mp hsplit).1] at htext
      exact hequals (by rw [htext]; simp)
    rw [hnone]
    rfl
  | @pair left name right value tail hleft hright htail hname hequals _ hvalue =>
    have hvisible : isWhitespace '=' = false := by decide
    have hnot : '=' ∉ trimStart (left ++ name ++ right) := by
      intro hmem
      have hin := (dropWhile_suffix _).subset hmem
      simp only [mem_append] at hin
      rcases hin with (hin | hin) | hin
      · exact notMem_of_whitespace hleft hvisible hin
      · exact hequals hin
      · exact notMem_of_whitespace hright hvisible hin
    have htrim : trim (trimStart (left ++ name ++ right)) = name := by
      rw [trim, trimStart, trimStart, dropWhile_idempotent, ← trimStart, ← trim,
        trim_append_ws hright, trim_ws_append hleft, trim_of_trimmed hname]
    rw [trim_append_visible hvisible, splitOnce_append _ hnot, map_some, htrim,
      trimEnd_append_ws htail, trimEnd_of_last hvalue, pair?]

lemma Spelled.valueOf_eq (h : crumb.Spelled text) (name : Text) :
    (splitOnce '=' (trim text)).bind (fun p => if trim p.1 = name then some p.2 else none) =
      crumb.valueOf name := by
  have hread := h.splitOnce_trim
  cases crumb with
  | bare =>
    rw [map_eq_none_iff.mp hread]
    rfl
  | pair name' value =>
    obtain ⟨⟨before, after⟩, hsplit, hpair⟩ := map_eq_some_iff.mp hread
    cases hpair
    rw [hsplit]
    rfl

lemma exists_spelled (h : ';' ∉ text) : ∃ crumb : Crumb, crumb.Spelled text := by
  by_cases hequals : '=' ∈ text
  · obtain ⟨before, after, rfl, hbefore⟩ := eq_append_cons_of_mem hequals
    obtain ⟨left, right, hleft, hright, hname⟩ := exists_trim_padding before
    have hvalue : trimEnd after ++ after.rtakeWhile isWhitespace = after :=
      rdropWhile_append_rtakeWhile
    have hsemicolon : ';' ∉ trim before ++ trimEnd after := by
      intro hmem
      refine h ?_
      rw [hname, ← hvalue]
      rcases mem_append.mp hmem with hmem | hmem
      · simp [hmem]
      · simp [hmem]
    have hspelled : (pair (trim before) (trimEnd after)).Spelled
        (left ++ trim before ++ right ++ '=' :: (trimEnd after ++ after.rtakeWhile isWhitespace)) :=
      .pair hleft hright (fun c hc => mem_rtakeWhile_imp hc) (trimmed_trim before)
        (fun hmem => hbefore (by rw [hname]; simp [hmem])) hsemicolon
        fun c hc => getLast?_trimEnd hc
    rw [← hname, hvalue] at hspelled
    exact ⟨_, hspelled⟩
  · exact ⟨bare, .bare hequals h⟩

end Crumb

/-- Crumbs with semicolons between them. -/
def Spells (crumbs : List Crumb) (header : Text) : Prop :=
  ∃ texts, List.Forall₂ Crumb.Spelled crumbs texts ∧ header = [';'].intercalate texts

variable {crumbs : List Crumb} {header name value : Text}

lemma semicolon_notMem {texts : List Text}
    (h : List.Forall₂ Crumb.Spelled crumbs texts) : ∀ text ∈ texts, ';' ∉ text := by
  induction h with
  | nil => simp
  | cons hfirst _ ih => exact forall_mem_cons.mpr ⟨hfirst.semicolon_notMem, ih⟩

lemma Spells.splitOn (h : Spells crumbs header) :
    crumbs = [] ∧ header = [] ∨ List.Forall₂ Crumb.Spelled crumbs (header.splitOn ';') := by
  obtain ⟨texts, hspelled, rfl⟩ := h
  cases hspelled with
  | nil => exact .inl ⟨rfl, rfl⟩
  | @cons crumb text crumbs texts hfirst hrest =>
    refine .inr ?_
    have hspelled := List.Forall₂.cons hfirst hrest
    rwa [splitOn_intercalate ';' (semicolon_notMem hspelled) (cons_ne_nil _ _)]

lemma exists_spells (header : Text) : ∃ crumbs, Spells crumbs header := by
  have hpieces : ∀ texts : List Text, (∀ text ∈ texts, ';' ∉ text) →
      ∃ crumbs, List.Forall₂ Crumb.Spelled crumbs texts := by
    intro texts htexts
    induction texts with
    | nil => exact ⟨[], .nil⟩
    | cons text texts ih =>
      obtain ⟨hfirst, hrest⟩ := forall_mem_cons.mp htexts
      obtain ⟨crumb, hcrumb⟩ := Crumb.exists_spelled hfirst
      obtain ⟨crumbs, hcrumbs⟩ := ih hrest
      exact ⟨crumb :: crumbs, .cons hcrumb hcrumbs⟩
  obtain ⟨crumbs, hcrumbs⟩ := hpieces (header.splitOn ';') fun _ h => notMem_of_mem_splitOn h
  exact ⟨crumbs, _, hcrumbs, (intercalate_splitOn ..).symm⟩

/-- **What a name stands for**: the value of the first crumb with it. -/
def firstNamed (name : Text) (crumbs : List Crumb) : Option Text :=
  crumbs.findSome? (Crumb.valueOf name)

lemma firstNamed_eq_none_iff :
    firstNamed name crumbs = none ↔ ∀ value, .pair name value ∉ crumbs := by
  rw [firstNamed, findSome?_eq_none_iff]
  constructor
  · intro h value hmem
    exact Crumb.valueOf_eq_none_iff.mp (h _ hmem) value rfl
  · intro h crumb hmem
    exact Crumb.valueOf_eq_none_iff.mpr fun value heq => h value (heq ▸ hmem)

def Crumb.isPair (crumb : Crumb) : Bool := crumb.pair?.isSome

/-- Nothing is missed up to the first crumb without `=` if the name, if at all, occurs before it. -/
lemma firstNamed_takeWhile_iff (name : Text) (crumbs : List Crumb) :
    firstNamed name (crumbs.takeWhile Crumb.isPair) = firstNamed name crumbs ↔
      firstNamed name crumbs = none ∨
        ∃ before value after, crumbs = before ++ .pair name value :: after ∧ .bare ∉ before := by
  induction crumbs with
  | nil => simp [firstNamed]
  | cons crumb crumbs ih =>
    cases crumb with
    | bare =>
      have hcut : (Crumb.bare :: crumbs).takeWhile Crumb.isPair = [] := rfl
      rw [hcut]
      constructor
      · exact fun h => .inl h.symm
      · rintro (h | ⟨before, value, after, heq, hbare⟩)
        · exact h.symm
        · cases before with
          | nil => cases heq
          | cons first before =>
            obtain ⟨rfl, -⟩ := List.cons.inj heq
            exact absurd mem_cons_self hbare
    | pair name' value =>
      have hcut : (Crumb.pair name' value :: crumbs).takeWhile Crumb.isPair =
          .pair name' value :: crumbs.takeWhile Crumb.isPair := rfl
      rw [hcut, firstNamed, firstNamed, findSome?_cons, findSome?_cons]
      by_cases hname : name' = name
      · subst hname
        simp only [Crumb.valueOf, if_true, true_iff]
        exact .inr ⟨[], value, crumbs, rfl, not_mem_nil⟩
      · simp only [Crumb.valueOf, if_neg hname]
        refine ih.trans (or_congr_right ⟨?_, ?_⟩)
        · rintro ⟨before, value', after, rfl, hbare⟩
          exact ⟨.pair name' value :: before, value', after, rfl, by simp [hbare]⟩
        · rintro ⟨before, value', after, heq, hbare⟩
          cases before with
          | nil => exact absurd (Crumb.pair.inj (List.cons.inj heq).1).1 hname
          | cons first before =>
            exact ⟨before, value', after, (List.cons.inj heq).2,
              fun hmem => hbare (mem_cons_of_mem _ hmem)⟩

/-- A name that can be found in a header. -/
structure CookieName (name : Text) : Prop where
  trimmed : Trimmed name
  equals : '=' ∉ name
  semicolon : ';' ∉ name
  visible : ∀ b ∈ asBytes name, isVisibleAscii b = true

lemma visible_of_part {s t : Text} (hpart : s <:+: t)
    (h : ∀ b ∈ asBytes t, isVisibleAscii b) : ∀ b ∈ asBytes s, isVisibleAscii b := by
  obtain ⟨u, v, rfl⟩ := hpart
  intro b hb
  refine h b ?_
  simp only [asBytes, flatMap_append, mem_append]
  exact .inl (Or.inr hb)

lemma Crumb.Spelled.cookieName {text : Text} (h : (Crumb.pair name value).Spelled text)
    (hvisible : ∀ b ∈ asBytes text, isVisibleAscii b) : CookieName name := by
  cases h with
  | @pair left _ right _ tail _ _ _ hname hequals hsemicolon _ =>
    have hpart : name <:+: left ++ name ++ right ++ '=' :: (value ++ tail) :=
      ⟨left, right ++ '=' :: (value ++ tail), by simp⟩
    exact ⟨hname, hequals, fun hmem => hsemicolon (mem_append_left _ hmem),
      visible_of_part hpart hvisible⟩

lemma Spells.cookieName
    (h : Spells crumbs header) (hvisible : ∀ b ∈ asBytes header, isVisibleAscii b)
    (hmem : .pair name value ∈ crumbs) : CookieName name := by
  obtain ⟨texts, hspelled, rfl⟩ := h
  have htext : ∃ text ∈ texts, (Crumb.pair name value).Spelled text := by
    clear hvisible
    induction hspelled with
    | nil => cases hmem
    | cons hfirst _ ih =>
      rcases mem_cons.mp hmem with rfl | hmem
      · exact ⟨_, mem_cons_self, hfirst⟩
      · obtain ⟨text, htext, hspelled⟩ := ih hmem
        exact ⟨text, mem_cons_of_mem _ htext, hspelled⟩
  obtain ⟨text, htext, hspelled⟩ := htext
  exact hspelled.cookieName (visible_of_part (infix_intercalate _ htext) hvisible)

lemma exists_headers (hname : CookieName name) (hsemicolon : ';' ∉ value)
    (hlast : ∀ c, value.getLast? = some c → isWhitespace c = false)
    (hvisible : ∀ b ∈ asBytes value, isVisibleAscii b) :
    ∃ (headers : HeaderMap) (header : HeaderValue) (text : Text),
      headers.get "cookie" = some header ∧ header.toStr = some text ∧
        Spells [.pair name value] text := by
  have hbytes : ∀ b ∈ asBytes (name ++ '=' :: value), isVisibleAscii b := by
    intro b hb
    have hparts : asBytes (name ++ '=' :: value) = asBytes name ++ 61 :: asBytes value := by
      rw [asBytes, flatMap_append, flatMap_cons]
      rfl
    rw [hparts, mem_append, mem_cons] at hb
    rcases hb with hb | rfl | hb
    · exact hname.visible b hb
    · decide
    · exact hvisible b hb
  let header : HeaderValue :=
    ⟨asBytes (name ++ '=' :: value),
      fun b hb => HeaderValue.isValidByte_of_isVisibleAscii (hbytes b hb)⟩
  have hspelled : (Crumb.pair name value).Spelled ([] ++ name ++ [] ++ '=' :: (value ++ [])) :=
    .pair (by simp) (by simp) (by simp) hname.trimmed hname.equals
      (by simp [hname.semicolon, hsemicolon]) hlast
  refine ⟨⟨[("cookie", header)]⟩, header, name ++ '=' :: value, ?_,
    HeaderValue.toStr_of_bytes rfl hbytes, _, .cons hspelled .nil, by simp⟩
  simp [Multimap.get, Multimap.getAll]

end Http
