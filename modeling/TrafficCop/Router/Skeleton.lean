import TrafficCop.Router.Parser

/-!
# The shape of a rule text

What the descent of the rule parser cuts a text into, said about characters alone.

`FoundAtOffset` says that `find_operator` answers one text as `splitTop` does. A set of calls on
which it does, closed under the calls its members make, is computed by the skeleton (`parseAt_eq`);
for ASCII texts it is all of them.
-/

namespace TrafficCop

open Rust List Option

/-! ## The first operator outside backticks and parentheses -/

def ScanState.after (st : ScanState) (s : Text) : ScanState := s.foldl ScanState.next st

@[simp] lemma ScanState.after_nil (st : ScanState) : st.after [] = st := rfl

@[simp] lemma ScanState.after_cons (st : ScanState) (c : Char) (s : Text) :
    st.after (c :: s) = (st.next c).after s := rfl

@[simp] lemma ScanState.after_append (st : ScanState) (s t : Text) :
    st.after (s ++ t) = (st.after s).after t := foldl_append

/-- The texts around the first occurrence of `op` at a character that is compared. -/
def splitTopFrom (op : Text) : ScanState → Text → Option (Text × Text)
  | _, [] => none
  | st, c :: cs =>
    if st.tests c && op.isPrefixOf (c :: cs) then some ([], (c :: cs).drop op.length)
    else (splitTopFrom op (st.next c) cs).map fun p => (c :: p.1, p.2)

/-- The cut at the first operator outside backticks and parentheses. -/
def splitTop (op s : Text) : Option (Text × Text) := splitTopFrom op .start s

lemma splitTopFrom_eq {op : Text} {st : ScanState} {s l r : Text}
    (h : splitTopFrom op st s = some (l, r)) : s = l ++ (op ++ r) := by
  induction s generalizing st l with
  | nil => simp [splitTopFrom] at h
  | cons c cs ih =>
    rw [splitTopFrom] at h
    split at h
    · next hop =>
      have hpre : op <+: c :: cs := isPrefixOf_iff_prefix.mp (Bool.and_eq_true_iff.mp hop).2
      obtain ⟨t, ht⟩ := hpre
      rw [← ht, drop_left] at h
      cases h
      exact ht.symm
    · obtain ⟨⟨l', r'⟩, hp, heq⟩ := map_eq_some_iff.mp h
      cases heq
      rw [ih hp]
      rfl

lemma splitTop_lt {op s l r : Text} (hop : op ≠ []) (h : splitTop op s = some (l, r)) :
    l.length < s.length ∧ r.length < s.length := by
  have hs := splitTopFrom_eq h
  have hlen := length_pos_of_ne_nil hop
  rw [hs, length_append, length_append]
  omega

/-! ## The tree of cuts -/

/-- What the descent makes of a text: matcher texts under the operators. -/
inductive Skeleton where
  | call (text : Text)
  | not (arg : Skeleton)
  | and (left right : Skeleton)
  | or (left right : Skeleton)
  deriving Repr, DecidableEq

namespace Skeleton

def calls : Skeleton → List Text
  | call t => [t]
  | not a => a.calls
  | and a b => a.calls ++ b.calls
  | or a b => a.calls ++ b.calls

variable {Regex : Type}

/-- Reading the matcher texts, left to right; the first error wins. -/
def toRule [RegexCrate Regex] : Skeleton → ParseResult (Rule Regex)
  | call t => parseFunction t
  | not a => do return .not (← a.toRule)
  | and a b => do
    let l ← a.toRule
    let r ← b.toRule
    return .and l r
  | or a b => do
    let l ← a.toRule
    let r ← b.toRule
    return .or l r

end Skeleton

mutual

/-- The tree of the cuts, whose leaves are the texts handed to `parse_function`. -/
def skeletonOr (s : Text) : Skeleton :=
  match h : splitTop "||" s with
  | some (l, r) =>
    have := splitTop_lt (by decide) h
    .or (skeletonOr l) (skeletonOr r)
  | none => skeletonAnd s
termination_by (s.length, 3)
decreasing_by all_goals omega

def skeletonAnd (s : Text) : Skeleton :=
  match h : splitTop "&&" s with
  | some (l, r) =>
    have := splitTop_lt (by decide) h
    .and (skeletonAnd l) (skeletonAnd r)
  | none => skeletonUnary s
termination_by (s.length, 2)
decreasing_by all_goals omega

def skeletonUnary (s : Text) : Skeleton :=
  match h : trim s with
  | '!' :: rest =>
    have := trim_tail_lt h
    .not (skeletonUnary rest)
  | _ =>
    have := trim_length_le s
    skeletonPrimary (trim s)
termination_by (s.length, 1)
decreasing_by all_goals omega

def skeletonPrimary (s : Text) : Skeleton :=
  if h : parenthesised (trim s) then
    have := inner_length_lt h
    have := trim_length_le s
    skeletonOr (inner (trim s))
  else .call (trim s)
termination_by (s.length, 0)
decreasing_by all_goals omega

end

section Steps

variable {s l r rest : Text}

lemma skeletonOr_some (h : splitTop "||" s = some (l, r)) :
    skeletonOr s = .or (skeletonOr l) (skeletonOr r) := by
  rw [skeletonOr]
  split
  · next h' => cases h.symm.trans h'; rfl
  · next h' => cases h.symm.trans h'

lemma skeletonOr_none (h : splitTop "||" s = none) : skeletonOr s = skeletonAnd s := by
  rw [skeletonOr]
  split
  · next h' => cases h.symm.trans h'
  · rfl

lemma skeletonAnd_some (h : splitTop "&&" s = some (l, r)) :
    skeletonAnd s = .and (skeletonAnd l) (skeletonAnd r) := by
  rw [skeletonAnd]
  split
  · next h' => cases h.symm.trans h'; rfl
  · next h' => cases h.symm.trans h'

lemma skeletonAnd_none (h : splitTop "&&" s = none) : skeletonAnd s = skeletonUnary s := by
  rw [skeletonAnd]
  split
  · next h' => cases h.symm.trans h'
  · rfl

lemma skeletonUnary_bang (h : trim s = '!' :: rest) :
    skeletonUnary s = .not (skeletonUnary rest) := by
  rw [skeletonUnary]
  split
  next rest' h' =>
    obtain rfl : rest' = rest := by simpa [h] using h'.symm
    rfl
  next hnot => exact absurd h (hnot rest)

lemma skeletonUnary_primary (h : (trim s).head? ≠ some '!') :
    skeletonUnary s = skeletonPrimary (trim s) := by
  rw [skeletonUnary]
  split
  next h' => simp [h'] at h
  next => rfl

lemma skeletonPrimary_eq (s : Text) :
    skeletonPrimary s =
      if parenthesised (trim s) then skeletonOr (inner (trim s)) else .call (trim s) := by
  rw [skeletonPrimary]
  split <;> rfl

end Steps

/-! ## The parser's scan -/

/-- `find_operator` answers as `splitTop` does, at the byte offset. -/
def FoundAtOffset (s op : Text) : Prop :=
  findOperator s op = .ok ((splitTop op s).map fun p => byteLen p.1)

lemma splitAtOperator_of_found {s op : Text} (hop : byteLen op = 2)
    (h : FoundAtOffset s op) : splitAtOperator s op = .ok (splitTop op s) := by
  rw [splitAtOperator, h, Outcome.ok_bind]
  cases hs : splitTop op s with
  | none => rfl
  | some p =>
    obtain ⟨l, r⟩ := p
    have heq : s = l ++ (op ++ r) := splitTopFrom_eq hs
    have hto : sliceTo s (byteLen l) = some l := by rw [heq, sliceTo_append]
    have hfrom : sliceFrom s (byteLen l + 2) = some r := by
      rw [heq, ← append_assoc, ← hop, ← byteLen_append, sliceFrom_append]
    simp only [map_some, hto, hfrom]
    rfl

lemma findOperatorFrom_of_ascii {op cs pre : Text} {st : ScanState}
    (hpre : ∀ c ∈ pre, isAscii c) (hcs : ∀ c ∈ cs, isAscii c) :
    findOperatorFrom (pre ++ cs) op cs pre.length st =
      .ok ((splitTopFrom op st cs).map fun p => pre.length + byteLen p.1) := by
  induction cs generalizing pre st with
  | nil => rfl
  | cons c cs ih =>
    have hslice : sliceFrom (pre ++ c :: cs) pre.length = some (c :: cs) := by
      rw [← byteLen_of_ascii hpre, sliceFrom_append]
    have hc : c.utf8Size = 1 := utf8Size_of_isAscii (hcs c mem_cons_self)
    -- the loop goes on with `c` among the characters behind it
    have hrec : findOperatorFrom (pre ++ c :: cs) op cs (pre.length + 1) (st.next c) =
        .ok (((splitTopFrom op (st.next c) cs).map fun p => (c :: p.1, p.2)).map
          fun p => pre.length + byteLen p.1) := by
      have hpre' : ∀ d ∈ pre ++ [c], isAscii d := by
        intro d hd
        rcases mem_append.mp hd with hd | hd
        · exact hpre d hd
        · exact hcs d (by rw [mem_singleton.mp hd]; exact mem_cons_self)
      have := @ih (pre ++ [c]) (st.next c) hpre' fun d hd => hcs d (mem_cons_of_mem c hd)
      rw [append_assoc, singleton_append, length_append, length_singleton] at this
      rw [this, Option.map_map]
      congr 2
      funext p
      simp only [Function.comp, byteLen_cons, hc]
      omega
    -- the two loops take the same branch at `c`
    rw [findOperatorFrom, splitTopFrom]
    by_cases htest : st.tests c
    · rw [if_pos htest, hslice]
      by_cases hop : op.isPrefixOf (c :: cs)
      · simp only [hop, htest, Bool.and_self, if_true]
        simp
      · simp only [hop, htest, Bool.and_false, Bool.false_eq_true, if_false, hrec]
    · simp only [htest, Bool.false_and, Bool.false_eq_true, if_false, hrec]

lemma foundAtOffset_of_ascii {s op : Text} (hs : ∀ c ∈ s, isAscii c) : FoundAtOffset s op := by
  have := @findOperatorFrom_of_ascii op s [] .start (by simp) hs
  simpa [FoundAtOffset, findOperator, splitTop] using this

/-! ## The descent over a set of calls -/

inductive Level where
  | or
  | and
  | unary
  | primary
  deriving Repr, DecidableEq

/-- The order in which they call each other on one text. -/
def Level.rank : Level → Nat
  | or => 3
  | and => 2
  | unary => 1
  | primary => 0

def skeletonAt : Level → Text → Skeleton
  | .or => skeletonOr
  | .and => skeletonAnd
  | .unary => skeletonUnary
  | .primary => skeletonPrimary

section Calls

variable {Regex : Type} [RegexCrate Regex]

def parseAt : Level → Text → ParseResult (Rule Regex)
  | .or => parseOr
  | .and => parseAnd
  | .unary => parseUnary
  | .primary => parsePrimary

/-- One call makes another. Code and skeleton differ in what a cut gives (`cut`) and when a left
operand was read (`read`). -/
inductive Calls (cut : Text → Text → Outcome RuleParseError (Option (Text × Text)))
    (read : Level → Text → Prop) : Level × Text → Level × Text → Prop where
  | orLeft {s l r} : cut s "||" = .ok (some (l, r)) → Calls cut read (.or, s) (.or, l)
  -- `parse_or(left)?` comes first: an error there is the answer
  | orRight {s l r} : cut s "||" = .ok (some (l, r)) → read .or l →
      Calls cut read (.or, s) (.or, r)
  | orAnd {s} : cut s "||" = .ok none → Calls cut read (.or, s) (.and, s)
  | andLeft {s l r} : cut s "&&" = .ok (some (l, r)) → Calls cut read (.and, s) (.and, l)
  | andRight {s l r} : cut s "&&" = .ok (some (l, r)) → read .and l →
      Calls cut read (.and, s) (.and, r)
  | andUnary {s} : cut s "&&" = .ok none → Calls cut read (.and, s) (.unary, s)
  | bang {s rest} : trim s = '!' :: rest → Calls cut read (.unary, s) (.unary, rest)
  | primary {s} : (trim s).head? ≠ some '!' → Calls cut read (.unary, s) (.primary, trim s)
  | paren {s} : parenthesised (trim s) = true →
      Calls cut read (.primary, s) (.or, inner (trim s))

def topCut (s op : Text) : Outcome RuleParseError (Option (Text × Text)) := .ok (splitTop op s)

/-- Code and skeleton read the same rule. -/
def ReadAlike (Regex : Type) [RegexCrate Regex] (lvl : Level) (s : Text) : Prop :=
  ∃ rule : Rule Regex, parseAt lvl s = .ok rule ∧ (skeletonAt lvl s).toRule = .ok rule

/-- The scans that a call makes are answered as `splitTop` answers them. -/
def ScansRight : Level × Text → Prop
  | (.or, s) => FoundAtOffset s "||"
  | (.and, s) => FoundAtOffset s "&&"
  | _ => True

/-- The right piece is parsed only when the left one was read. -/
lemma both_eq {a b : Skeleton} {left right : ParseResult (Rule Regex)}
    (f : Rule Regex → Rule Regex → Rule Regex) (hleft : left = a.toRule)
    (hright : ∀ rule, left = .ok rule → a.toRule = .ok rule → right = b.toRule) :
    (do return f (← left) (← right)) = (do return f (← a.toRule) (← b.toRule)) := by
  rw [hleft]
  cases hread : (a.toRule : ParseResult (Rule Regex)) with
  | ok rule => rw [hright rule (hleft.trans hread) hread]
  | err e => rfl
  | panic => rfl

/-- **The descent follows the skeleton** on a set closed under calls whose scans are right. -/
theorem parseAt_eq {S : Level × Text → Prop} (hscan : ∀ x, S x → ScansRight x)
    (hcalls : ∀ x y, S x → Calls topCut (ReadAlike Regex) x y → S y) :
    ∀ (lvl : Level) (s : Text), S (lvl, s) →
      (parseAt lvl s : ParseResult (Rule Regex)) = (skeletonAt lvl s).toRule
  | .or, s, hs => by
    show parseOr s = (skeletonOr s).toRule
    rw [parseOr_eq, splitAtOperator_of_found (by decide) (hscan _ hs), Outcome.ok_bind]
    cases hcut : splitTop "||" s with
    | none =>
      rw [skeletonOr_none hcut]
      exact parseAt_eq hscan hcalls .and s (hcalls _ _ hs (.orAnd (by rw [topCut, hcut])))
    | some p =>
      obtain ⟨l, r⟩ := p
      have hlt := splitTop_lt (by decide) hcut
      have hcut' : topCut s "||" = .ok (some (l, r)) := by rw [topCut, hcut]
      rw [skeletonOr_some hcut, Skeleton.toRule]
      exact both_eq .or (parseAt_eq hscan hcalls .or l (hcalls _ _ hs (.orLeft hcut')))
        fun rule hl hl' => parseAt_eq hscan hcalls .or r
          (hcalls _ _ hs (.orRight hcut' ⟨rule, hl, hl'⟩))
  | .and, s, hs => by
    show parseAnd s = (skeletonAnd s).toRule
    rw [parseAnd_eq, splitAtOperator_of_found (by decide) (hscan _ hs), Outcome.ok_bind]
    cases hcut : splitTop "&&" s with
    | none =>
      rw [skeletonAnd_none hcut]
      exact parseAt_eq hscan hcalls .unary s (hcalls _ _ hs (.andUnary (by rw [topCut, hcut])))
    | some p =>
      obtain ⟨l, r⟩ := p
      have hlt := splitTop_lt (by decide) hcut
      have hcut' : topCut s "&&" = .ok (some (l, r)) := by rw [topCut, hcut]
      rw [skeletonAnd_some hcut, Skeleton.toRule]
      exact both_eq .and (parseAt_eq hscan hcalls .and l (hcalls _ _ hs (.andLeft hcut')))
        fun rule hl hl' => parseAt_eq hscan hcalls .and r
          (hcalls _ _ hs (.andRight hcut' ⟨rule, hl, hl'⟩))
  | .unary, s, hs => by
    show parseUnary s = (skeletonUnary s).toRule
    by_cases hbang : (trim s).head? = some '!'
    · obtain ⟨rest, hrest⟩ := head?_eq_some_iff.mp hbang
      have hlt := trim_tail_lt hrest
      have harg : parseUnary rest = (skeletonUnary rest).toRule :=
        parseAt_eq hscan hcalls .unary rest (hcalls _ _ hs (.bang hrest))
      rw [parseUnary_bang hrest, skeletonUnary_bang hrest, harg, Skeleton.toRule]
    · have hle := trim_length_le s
      rw [parseUnary_primary hbang, skeletonUnary_primary hbang]
      exact parseAt_eq hscan hcalls .primary (trim s) (hcalls _ _ hs (.primary hbang))
  | .primary, s, hs => by
    show parsePrimary s = (skeletonPrimary s).toRule
    rw [parsePrimary_eq, skeletonPrimary_eq]
    split
    · next hparen =>
      have hlt := inner_length_lt hparen
      have hle := trim_length_le s
      exact parseAt_eq hscan hcalls .or (inner (trim s)) (hcalls _ _ hs (.paren hparen))
    · rfl
-- on one text the levels are called from `or` down to `primary`
termination_by lvl s => (s.length, lvl.rank)
decreasing_by
  all_goals
    simp only [Prod.lex_def, Level.rank, true_and]
    omega

/-! ## ASCII texts -/

def AsciiText (s : Text) : Prop := ∀ c ∈ s, isAscii c = true

lemma AsciiText.trim {s : Text} (h : AsciiText s) : AsciiText (trim s) := by
  obtain ⟨w, w', -, -, hs⟩ := exists_trim_padding s
  intro c hc
  exact h c (by rw [hs]; simp [hc])

lemma Calls.ascii {read : Level → Text → Prop} {x y : Level × Text}
    (h : Calls topCut read x y) (hx : AsciiText x.2) : AsciiText y.2 := by
  have hcut : ∀ {s op l r : Text}, AsciiText s → topCut s op = .ok (some (l, r)) →
      AsciiText l ∧ AsciiText r := by
    intro s op l r hs h
    have heq := splitTopFrom_eq (Outcome.ok.inj h)
    subst heq
    exact ⟨fun c hc => hs c (by simp [hc]), fun c hc => hs c (by simp [hc])⟩
  cases h with
  | orLeft h => exact (hcut hx h).1
  | orRight h _ => exact (hcut hx h).2
  | orAnd _ => exact hx
  | andLeft h => exact (hcut hx h).1
  | andRight h _ => exact (hcut hx h).2
  | andUnary _ => exact hx
  | bang h =>
    intro c hc
    exact hx.trim c (by rw [h]; exact mem_cons_of_mem _ hc)
  | primary _ => exact hx.trim
  | paren _ =>
    intro c hc
    exact hx.trim c (mem_of_mem_tail (dropLast_subset _ hc))

lemma parse_eq_of_ascii {s : Text} (hs : AsciiText s) :
    (parse s : ParseResult (Rule Regex)) = (skeletonOr (trim s)).toRule := by
  refine parseAt_eq (S := fun x => AsciiText x.2) ?_ ?_ .or (trim s) hs.trim
  · rintro ⟨lvl, t⟩ ht
    cases lvl <;> first | exact foundAtOffset_of_ascii ht | exact True.intro
  · intro x y hx hcall
    exact hcall.ascii hx

end Calls

end TrafficCop
