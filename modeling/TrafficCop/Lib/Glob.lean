import Mathlib.Data.List.Basic

/-!
# Globs and anchored expressions

An anchored expression is the part of the usual regular expressions that globs are translated to:
literal characters, escaped where they are special, and `.*`, in which the dot stands for any
character but a line break.
-/

namespace Glob

/-- In a glob `*` stands for any string and every other character for itself. -/
def Matches : List Char → List Char → Prop
  | [], text => text = []
  | c :: pattern, text =>
    if c = '*' then ∃ skipped rest, text = skipped ++ rest ∧ Matches pattern rest
    else ∃ rest, text = c :: rest ∧ Matches pattern rest

end Glob

namespace Anchored

inductive Atom where
  | char (c : Char)
  /-- The dot with a star. -/
  | any
  deriving Repr, DecidableEq

def special (c : Char) : Bool := "\\.+*?()|[]\x7b\x7d^$".toList.contains c

def Atom.text : Atom → List Char
  | char c => if special c then ['\\', c] else [c]
  | any => ['.', '*']

def render (atoms : List Atom) : List Char := atoms.flatMap Atom.text

/-- The dot does not stand for a line break. -/
def Matches : List Atom → List Char → Prop
  | [], text => text = []
  | .char c :: atoms, text => ∃ rest, text = c :: rest ∧ Matches atoms rest
  | .any :: atoms, text =>
    ∃ skipped rest, text = skipped ++ rest ∧ '\n' ∉ skipped ∧ Matches atoms rest

def ofGlob (pattern : List Char) : List Atom :=
  pattern.map fun c => if c = '*' then .any else .char c

variable {pattern text : List Char}

/-- A glob and its expression match the same texts without line breaks. -/
lemma matches_ofGlob_iff (hline : '\n' ∉ text) :
    Matches (ofGlob pattern) text ↔ Glob.Matches pattern text := by
  induction pattern generalizing text with
  | nil => exact Iff.rfl
  | cons c pattern ih =>
    rw [ofGlob, List.map_cons, ← ofGlob]
    by_cases hstar : c = '*'
    · rw [if_pos hstar, Matches, Glob.Matches, if_pos hstar]
      constructor
      · intro h
        obtain ⟨skipped, rest, rfl, -, h⟩ := h
        exact ⟨skipped, rest, rfl, (ih fun hmem => hline (List.mem_append_right _ hmem)).mp h⟩
      · intro h
        obtain ⟨skipped, rest, rfl, h⟩ := h
        exact ⟨skipped, rest, rfl, fun hmem => hline (List.mem_append_left _ hmem),
          (ih fun hmem => hline (List.mem_append_right _ hmem)).mpr h⟩
    · rw [if_neg hstar, Matches, Glob.Matches, if_neg hstar]
      constructor
      · intro h
        obtain ⟨rest, rfl, h⟩ := h
        exact ⟨rest, rfl, (ih fun hmem => hline (List.mem_cons_of_mem _ hmem)).mp h⟩
      · intro h
        obtain ⟨rest, rfl, h⟩ := h
        exact ⟨rest, rfl, (ih fun hmem => hline (List.mem_cons_of_mem _ hmem)).mpr h⟩

/-- **The text of the expression**, where only the dot and the star are special. -/
theorem render_ofGlob (hplain : ∀ c ∈ pattern, c = '.' ∨ c = '*' ∨ special c = false) :
    render (ofGlob pattern) = pattern.flatMap fun c =>
      if c = '.' then ['\\', '.'] else if c = '*' then ['.', '*'] else [c] := by
  rw [render, ofGlob, List.flatMap_map]
  refine List.flatMap_congr fun c hc => ?_
  rcases hplain c hc with rfl | rfl | hnot
  · decide
  · decide
  · have hdot : c ≠ '.' := by
      rintro rfl
      exact absurd hnot (by decide)
    have hstar : c ≠ '*' := by
      rintro rfl
      exact absurd hnot (by decide)
    rw [if_neg hstar, if_neg hdot, if_neg hstar, Atom.text, hnot]
    rfl

/-- The expression with this text. -/
def parse : List Char → Option (List Atom)
  | [] => some []
  | [c] => if special c then none else some [.char c]
  | c :: d :: text =>
    if c = '\\' then if special d then (parse text).map (.char d :: ·) else none
    else if c = '.' ∧ d = '*' then (parse text).map (.any :: ·)
    else if special c then none
    else (parse (d :: text)).map (.char c :: ·)

/-- Expressions can be read back. -/
lemma parse_render (atoms : List Atom) : parse (render atoms) = some atoms := by
  induction atoms with
  | nil => rfl
  | cons atom atoms ih =>
    have hcons : render (atom :: atoms) = atom.text ++ render atoms := List.flatMap_cons
    rw [hcons]
    cases atom with
    | any =>
      show parse ('.' :: '*' :: render atoms) = _
      rw [parse, if_neg (by decide), if_pos ⟨rfl, rfl⟩, ih]
      rfl
    | char c =>
      by_cases hspecial : special c
      · rw [Atom.text, if_pos hspecial]
        show parse ('\\' :: c :: render atoms) = _
        rw [parse, if_pos rfl, if_pos hspecial, ih]
        rfl
      · have hslash : c ≠ '\\' := by
          rintro rfl
          exact hspecial (by decide)
        have hdot : c ≠ '.' := by
          rintro rfl
          exact hspecial (by decide)
        rw [Atom.text, if_neg hspecial, List.singleton_append]
        cases hrest : render atoms with
        | nil =>
          rw [hrest] at ih
          cases ih
          rw [parse, if_neg hspecial]
        | cons d rest =>
          rw [parse, if_neg hslash, if_neg fun h => hdot h.1, if_neg hspecial, ← hrest, ih]
          rfl

/-- A matcher that tries how much each star takes. -/
def run : List Atom → List Char → Bool
  | [], text => text.isEmpty
  | .char c :: atoms, text => text.head? == some c && run atoms text.tail
  | .any :: atoms, text => (List.range (text.length + 1)).any fun i =>
    !(text.take i).contains '\n' && run atoms (text.drop i)

/-- Running an expression decides whether it matches. -/
lemma run_iff {atoms : List Atom} : run atoms text ↔ Matches atoms text := by
  induction atoms generalizing text with
  | nil => exact List.isEmpty_iff
  | cons atom atoms ih =>
    cases atom with
    | char c =>
      rw [run, Matches, Bool.and_eq_true, beq_iff_eq, ih]
      constructor
      · intro h
        obtain ⟨hhead, h⟩ := h
        obtain ⟨rest, rfl⟩ := List.head?_eq_some_iff.mp hhead
        exact ⟨rest, rfl, h⟩
      · intro h
        obtain ⟨rest, rfl, h⟩ := h
        exact ⟨rfl, h⟩
    | any =>
      rw [run, Matches, List.any_eq_true]
      constructor
      · intro h
        obtain ⟨i, -, h⟩ := h
        rw [Bool.and_eq_true, Bool.not_eq_true', ih] at h
        refine ⟨text.take i, text.drop i, (List.take_append_drop i text).symm, ?_, h.2⟩
        rw [← List.contains_iff_mem, h.1]
        exact Bool.false_ne_true
      · intro h
        obtain ⟨skipped, rest, rfl, hline, h⟩ := h
        refine ⟨skipped.length, List.mem_range.mpr ?_, ?_⟩
        · rw [List.length_append]
          omega
        · rw [List.take_left, List.drop_left, Bool.and_eq_true, Bool.not_eq_true', ih]
          exact ⟨Bool.eq_false_iff.mpr (mt List.contains_iff_mem.mp hline), h⟩

end Anchored
