import TrafficCop.Rust.Text

/-!
# Rust — the lower-case form of a text

`str::to_lowercase` follows the tables of Unicode: the form may be shorter or longer than the text,
and what a sigma becomes depends on its neighbours.

* `Lowercasing.isPrefixOf_toLowercase`, `Lowercasing.toLowercase_eq_iff` — **an ASCII word is found
  exactly where it is without a look at other letters**, if it has no `k` and ends without `i`.
-/

namespace Rust

open List

/-- What a character may become. Two outside ASCII have an ASCII letter in their images: the Kelvin
sign, and the capital `i` with a dot, which keeps its dot. -/
inductive LowerImage : Char → Text → Prop where
  | ascii {c : Char} : isAscii c = true → LowerImage c [c.toLower]
  | kelvin : LowerImage '\u212a' ['k']
  | dotted : LowerImage '\u0130' ['i', '\u0307']
  | other {c d : Char} {rest : Text} :
      isAscii c = false → isAscii d = false → LowerImage c (d :: rest)

/-- The images of the characters of a text, one after the other. -/
inductive LowerText : Text → Text → Prop where
  | nil : LowerText [] []
  | cons {c : Char} {image s t : Text} :
      LowerImage c image → LowerText s t → LowerText (c :: s) (image ++ t)

/-- Given by what is known of the images of single characters. -/
structure Lowercasing where
  toLowercase : Text → Text
  lower : ∀ s, LowerText s (toLowercase s)

/-- A word that only ASCII letters are mapped to. -/
structure Telling (name : Text) : Prop where
  ascii : ∀ c ∈ name, isAscii c = true
  kelvin : 'k' ∉ name
  dotted : name.getLast? ≠ some 'i'

lemma Telling.tail {c : Char} {name : Text} (h : Telling (c :: name)) : Telling name where
  ascii d hd := h.ascii d (mem_cons_of_mem _ hd)
  kelvin hk := h.kelvin (mem_cons_of_mem _ hk)
  dotted hi := by
    have hlast := h.dotted
    rw [getLast?_cons, hi] at hlast
    exact hlast rfl

namespace LowerText

variable {s t name rest : Text}

lemma split (h : LowerText s t) (hname : Telling name) (ht : t = name ++ rest) :
    ∃ s₁ s₂, s = s₁ ++ s₂ ∧ toAsciiLowercase s₁ = name ∧ LowerText s₂ rest := by
  induction h generalizing name with
  | nil =>
    obtain ⟨rfl, rfl⟩ := append_eq_nil_iff.mp ht.symm
    exact ⟨[], [], rfl, rfl, nil⟩
  | @cons c image s t himage hs ih =>
    cases name with
    | nil =>
      have hrest : rest = image ++ t := ht.symm
      exact ⟨[], c :: s, rfl, rfl, hrest ▸ cons himage hs⟩
    | cons n name =>
      cases himage with
      | ascii hc =>
        obtain ⟨hn, htail⟩ := List.cons.inj ht
        obtain ⟨s₁, s₂, rfl, hlower, hrest⟩ := ih hname.tail htail
        refine ⟨c :: s₁, s₂, rfl, ?_, hrest⟩
        rw [← hlower, ← hn]
        rfl
      | kelvin =>
        obtain ⟨rfl, -⟩ := List.cons.inj ht
        exact absurd mem_cons_self hname.kelvin
      | dotted =>
        obtain ⟨rfl, htail⟩ := List.cons.inj ht
        cases name with
        | nil => exact absurd rfl hname.dotted
        | cons m name =>
          -- the dot is next, and it is no ASCII character
          obtain ⟨rfl, -⟩ := List.cons.inj htail
          exact absurd (hname.tail.ascii _ mem_cons_self) (by decide)
      | other hc hd =>
        obtain ⟨rfl, -⟩ := List.cons.inj ht
        rw [hname.ascii _ mem_cons_self] at hd
        cases hd

lemma append {s₁ s₂ : Text} (h : LowerText (s₁ ++ s₂) t) (hs : ∀ c ∈ s₁, isAscii c) :
    ∃ rest, t = toAsciiLowercase s₁ ++ rest ∧ LowerText s₂ rest := by
  induction s₁ generalizing t with
  | nil => exact ⟨t, rfl, h⟩
  | cons c s₁ ih =>
    obtain ⟨hc, hs⟩ := forall_mem_cons.mp hs
    cases h with
    | cons himage hrest =>
      obtain ⟨rest, rfl, htail⟩ := ih hrest hs
      cases himage with
      | ascii => exact ⟨rest, rfl, htail⟩
      | kelvin => exact absurd hc (by decide)
      | dotted => exact absurd hc (by decide)
      | other hc' =>
        rw [hc] at hc'
        cases hc'

lemma eq_nil (h : LowerText s []) : s = [] := by
  generalize ht : ([] : Text) = t at h
  cases h with
  | nil => rfl
  | cons himage _ =>
    obtain ⟨rfl, -⟩ := append_eq_nil_iff.mp ht.symm
    cases himage

end LowerText

namespace Lowercasing

variable (L : Lowercasing) {name : Text} (hname : Telling name) (s : Text)

include hname in
lemma isPrefixOf_toLowercase :
    name.isPrefixOf (L.toLowercase s) = name.isPrefixOf (toAsciiLowercase s) := by
  rw [Bool.eq_iff_iff, isPrefixOf_iff_prefix, isPrefixOf_iff_prefix]
  constructor
  · rintro ⟨rest, hrest⟩
    obtain ⟨s₁, s₂, rfl, hlower, -⟩ := (L.lower s).split hname hrest.symm
    refine ⟨toAsciiLowercase s₂, ?_⟩
    rw [← hlower, toAsciiLowercase, toAsciiLowercase, toAsciiLowercase, map_append]
  · rintro ⟨rest, hrest⟩
    obtain ⟨s₁, s₂, rfl, hlower, -⟩ := map_eq_append_iff.mp hrest.symm
    obtain ⟨t, ht, -⟩ := (L.lower (s₁ ++ s₂)).append (isAscii_of_lowercase hname.ascii hlower)
    have hlower : toAsciiLowercase s₁ = name := hlower
    exact ⟨t, by rw [ht, hlower]⟩

include hname in
lemma toLowercase_eq_iff : L.toLowercase s = name ↔ toAsciiLowercase s = name := by
  constructor
  · intro h
    have hform : L.toLowercase s = name ++ [] := by rw [h, append_nil]
    obtain ⟨s₁, s₂, rfl, hlower, hrest⟩ := (L.lower s).split hname hform
    rw [hrest.eq_nil, append_nil, hlower]
  · intro h
    have hlower := L.lower (s ++ [])
    obtain ⟨t, ht, hnil⟩ := hlower.append (isAscii_of_lowercase hname.ascii h)
    cases hnil
    rwa [append_nil, append_nil, h] at ht

end Lowercasing

/-- The image of a character, of one character where there is one. -/
def lowerImage (c : Char) : Text :=
  if c = '\u212a' then ['k'] else if c = '\u0130' then ['i', '\u0307'] else [c.toLower]

lemma lowerImage_spec (c : Char) : LowerImage c (lowerImage c) := by
  rw [lowerImage]
  split_ifs with hkelvin hdotted
  · exact hkelvin ▸ .kelvin
  · exact hdotted ▸ .dotted
  · cases hc : isAscii c with
    | true => exact .ascii hc
    | false =>
      refine .other hc ?_
      by_contra hlower
      rw [isAscii_of_toLower (Bool.not_eq_false _ ▸ hlower)] at hc
      cases hc

/-- Letters outside ASCII, but for the two, are left as they are. -/
def plainLowercasing : Lowercasing where
  toLowercase s := s.flatMap lowerImage
  lower s := by
    induction s with
    | nil => exact .nil
    | cons c s ih => exact .cons (lowerImage_spec c) ih

end Rust
