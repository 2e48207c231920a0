import TrafficCop.Rust.Core
import TrafficCop.Router.Rule

/-!
# The rule parser

`RuleParser` of `router/rule.rs`. The parser has no tokens.

All four mutually recursive functions shrink their input, so `parse` is total.
-/

namespace TrafficCop

open Rust List

inductive RuleParseError where
  | invalidSyntax (text : Text)
  | invalidRegex (message : Text)
  | unknownFunction (name : Text)
  deriving Repr, DecidableEq

/-! ## Finding an operator -/

/-- The variables `depth` and `in_backtick` of `find_operator`. -/
structure ScanState where
  depth : Int
  inBacktick : Bool
  deriving Repr, DecidableEq

namespace ScanState

def start : ScanState := ⟨0, false⟩

/-- A character moves the scan on. -/
def next (st : ScanState) (c : Char) : ScanState :=
  if c = '`' then { st with inBacktick := !st.inBacktick }
  else if c = '(' ∧ st.inBacktick = false then { st with depth := st.depth + 1 }
  else if c = ')' ∧ st.inBacktick = false then { st with depth := st.depth - 1 }
  else st

/-- Whether the last arm with a body is taken. -/
def tests (st : ScanState) (c : Char) : Bool :=
  c != '`' && c != '(' && c != ')' && !st.inBacktick && st.depth == 0

end ScanState

/-- The *characters* of the input are walked, but it is sliced with the same number as a *byte*
offset, so a scan may panic. -/
def findOperatorFrom (input op : Text) :
    Text → Nat → ScanState → Outcome RuleParseError (Option Nat)
  | [], _, _ => .ok none
  | c :: cs, i, st =>
    if st.tests c then
      -- `input[i..]`: the character number used as a byte offset
      match sliceFrom input i with
      | none => .panic
      | some rest =>
        if op.isPrefixOf rest then .ok (some i)
        else findOperatorFrom input op cs (i + 1) (st.next c)
    else findOperatorFrom input op cs (i + 1) (st.next c)

/-- The first operator outside parentheses and backticks. -/
def findOperator (input op : Text) : Outcome RuleParseError (Option Nat) :=
  findOperatorFrom input op input 0 .start

/-- `find_operator` and the slices `&input[..pos]`, `&input[pos + 2..]` that are taken of its
answer. -/
def splitAtOperator (input op : Text) : Outcome RuleParseError (Option (Text × Text)) := do
  match ← findOperator input op with
  | none => return none
  | some pos =>
    match sliceTo input pos, sliceFrom input (pos + 2) with
    | some left, some right => return some (left, right)
    | _, _ => .panic

lemma splitAtOperator_lt {input op left right : Text}
    (h : splitAtOperator input op = .ok (some (left, right))) :
    left.length < input.length ∧ right.length < input.length := by
  rw [splitAtOperator, Outcome.bind_eq_ok] at h
  obtain ⟨pos?, -, h⟩ := h
  cases pos? with
  | none => simp at h
  | some pos =>
    dsimp only at h
    split at h
    · next l r hl hr =>
      simp only [Outcome.pure_eq, Outcome.ok.injEq, Option.some.injEq, Prod.mk.injEq] at h
      obtain ⟨rfl, rfl⟩ := h
      obtain ⟨t, ht, hlen⟩ := sliceTo_eq_some_iff.mp hl
      obtain ⟨p, hp, hlen'⟩ := sliceFrom_eq_some_iff.mp hr
      have hbytes : byteLen input = byteLen l + byteLen t := by rw [ht, byteLen_append]
      have hbytes' : byteLen input = byteLen p + byteLen r := by rw [hp, byteLen_append]
      -- neither the text behind the left piece nor the one before the right is empty
      have ht0 : t ≠ [] := by rintro rfl; rw [byteLen_nil] at hbytes; omega
      have hp0 : p ≠ [] := by rintro rfl; rw [byteLen_nil] at hlen'; omega
      have htpos := length_pos_of_ne_nil ht0
      have hppos := length_pos_of_ne_nil hp0
      have hL : input.length = l.length + t.length := by rw [ht, length_append]
      have hR : input.length = p.length + r.length := by rw [hp, length_append]
      omega
    · simp at h

/-! ## Matcher calls -/

/-- The loop of `parse_args`: the texts between backticks. -/
def parseArgsFrom : Text → Bool → Text → List Text
  | [], _, _ => []
  | c :: cs, inBacktick, current =>
    if c = '`' then
      if inBacktick then current :: parseArgsFrom cs false []
      else parseArgsFrom cs true current
    else if inBacktick then parseArgsFrom cs true (current ++ [c])
    else parseArgsFrom cs false current

def parseArgs (input : Text) : List Text := parseArgsFrom input false []

/-- `Result<_, RuleParseError>`, or the panic of a slice. -/
abbrev ParseResult := Outcome RuleParseError

variable {Regex : Type}

-- `args.first().ok_or_else(..)?`
def firstArg (args : List Text) (message : String) : Outcome RuleParseError Text :=
  match args.head? with
  | some a => .ok a
  | none => .err (.invalidSyntax message.toList)

-- `if args.len() != 2 { return Err(..) }`
def twoArgs (args : List Text) (message : String) : Outcome RuleParseError (Text × Text) :=
  match args with
  | [a, b] => .ok (a, b)
  | _ => .err (.invalidSyntax message.toList)

-- `Regex::new(pattern)?`
def compileRegex [RegexCrate Regex] (pattern : Text) : Outcome RuleParseError Regex :=
  match RegexCrate.new pattern with
  | .ok re => .ok re
  | .error message => .err (.invalidRegex message)

def buildMatcher [RegexCrate Regex] (funcName : Text) (args : List Text) :
    ParseResult (Rule Regex) :=
  if funcName = "Host" then do
    return .host (← firstArg args "Host requires an argument")
  else if funcName = "HostRegexp" then do
    return .hostRegex (← compileRegex (← firstArg args "HostRegexp requires an argument"))
  else if funcName = "Path" then do
    return .path (← firstArg args "Path requires an argument")
  else if funcName = "PathPrefix" then do
    return .pathPrefix (← firstArg args "PathPrefix requires an argument")
  else if funcName = "PathRegexp" then do
    return .pathRegex (← compileRegex (← firstArg args "PathRegexp requires an argument"))
  else if funcName = "Header" then do
    let (name, value) ← twoArgs args "Header requires two arguments"
    return .header name value
  else if funcName = "HeaderRegexp" then do
    let (name, pattern) ← twoArgs args "HeaderRegexp requires two arguments"
    return .headerRegex name (← compileRegex pattern)
  else if funcName = "Method" then do
    return .method (← firstArg args "Method requires an argument")
  else if funcName = "Query" then do
    let (key, value) ← twoArgs args "Query requires two arguments"
    return .query key value
  else .err (.unknownFunction funcName)

/-- `parse_function`: all between the first `(` and the final `)`, both ASCII, is the argument text.
-/
def parseFunction [RegexCrate Regex] (input : Text) : ParseResult (Rule Regex) :=
  let input := trim input
  match input.span (· != '(') with
  | (_, []) => .err (.invalidSyntax input)
  | (funcName, _ :: rest) =>
    if input.getLast? = some ')' then buildMatcher funcName (parseArgs rest.dropLast)
    else .err (.invalidSyntax input)

/-! ## The recursive descent -/

def parenthesised (input : Text) : Bool :=
  input.head? == some '(' && input.getLast? == some ')'

def inner (input : Text) : Text := input.tail.dropLast

lemma inner_length_lt {input : Text} (h : parenthesised input) :
    (inner input).length < input.length := by
  cases input with
  | nil => simp [parenthesised] at h
  | cons c cs =>
    simp only [inner, tail_cons, length_dropLast, length_cons]
    omega

lemma trim_tail_lt {input rest : Text} {c : Char} (h : trim input = c :: rest) :
    rest.length < input.length := by
  have hle := trim_length_le input
  rw [h, length_cons] at hle
  omega

mutual

/-- The text is cut at the operator, and the pieces are parsed. -/
def parseOr [RegexCrate Regex] (input : Text) : ParseResult (Rule Regex) :=
  match h : splitAtOperator input "||" with
  | .panic => .panic
  | .err e => .err e
  | .ok (some (left, right)) =>
    have := splitAtOperator_lt h
    do
      let l ← parseOr left
      let r ← parseOr right
      return .or l r
  | .ok none => parseAnd input
termination_by (input.length, 3)
decreasing_by all_goals omega

def parseAnd [RegexCrate Regex] (input : Text) : ParseResult (Rule Regex) :=
  match h : splitAtOperator input "&&" with
  | .panic => .panic
  | .err e => .err e
  | .ok (some (left, right)) =>
    have := splitAtOperator_lt h
    do
      let l ← parseAnd left
      let r ← parseAnd right
      return .and l r
  | .ok none => parseUnary input
termination_by (input.length, 2)
decreasing_by all_goals omega

def parseUnary [RegexCrate Regex] (input : Text) : ParseResult (Rule Regex) :=
  match h : trim input with
  | '!' :: rest =>
    have := trim_tail_lt h
    do return .not (← parseUnary rest)
  | _ =>
    have := trim_length_le input
    parsePrimary (trim input)
termination_by (input.length, 1)
decreasing_by all_goals omega

/-- What is left is a parenthesised text or a matcher call. -/
def parsePrimary [RegexCrate Regex] (input : Text) : ParseResult (Rule Regex) :=
  if h : parenthesised (trim input) then
    have := inner_length_lt h
    have := trim_length_le input
    parseOr (inner (trim input))
  else parseFunction (trim input)
termination_by (input.length, 0)
decreasing_by all_goals omega

end

def parse [RegexCrate Regex] (input : Text) : ParseResult (Rule Regex) :=
  parseOr (trim input)

/-! ## One step of the descent -/

section Steps

variable [RegexCrate Regex] {input : Text}

lemma parseOr_eq (input : Text) :
    (parseOr input : ParseResult (Rule Regex)) = (do
      match ← splitAtOperator input "||" with
      | some (left, right) =>
        let l ← parseOr left
        let r ← parseOr right
        return .or l r
      | none => parseAnd input) := by
  rw [parseOr]
  split <;> next h => simp only [h]; rfl

lemma parseAnd_eq (input : Text) :
    (parseAnd input : ParseResult (Rule Regex)) = (do
      match ← splitAtOperator input "&&" with
      | some (left, right) =>
        let l ← parseAnd left
        let r ← parseAnd right
        return .and l r
      | none => parseUnary input) := by
  rw [parseAnd]
  split <;> next h => simp only [h]; rfl

lemma parseUnary_bang {rest : Text} (h : trim input = '!' :: rest) :
    (parseUnary input : ParseResult (Rule Regex)) = (do return .not (← parseUnary rest)) := by
  rw [parseUnary]
  split
  next rest' h' =>
    obtain rfl : rest' = rest := by simpa [h] using h'.symm
    rfl
  next hnot => exact absurd h (hnot rest)

lemma parseUnary_primary (h : (trim input).head? ≠ some '!') :
    (parseUnary input : ParseResult (Rule Regex)) = parsePrimary (trim input) := by
  rw [parseUnary]
  split
  next h' => simp [h'] at h
  next => rfl

lemma parsePrimary_eq (input : Text) :
    (parsePrimary input : ParseResult (Rule Regex)) =
      if parenthesised (trim input) then parseOr (inner (trim input))
      else parseFunction (trim input) := by
  rw [parsePrimary]
  split <;> rfl

lemma parse_call (hor : splitAtOperator (trim input) "||" = .ok none)
    (hand : splitAtOperator (trim input) "&&" = .ok none)
    (hbang : (trim input).head? ≠ some '!') (hparen : parenthesised (trim input) = false) :
    (parse input : ParseResult (Rule Regex)) = parseFunction (trim input) := by
  rw [parse, parseOr_eq, hor, Outcome.ok_bind]
  dsimp only
  rw [parseAnd_eq, hand, Outcome.ok_bind]
  dsimp only
  rw [parseUnary_primary (by rwa [trim_trim]), trim_trim, parsePrimary_eq, trim_trim, hparen]
  rfl

end Steps

end TrafficCop
