import TrafficCop.Rust.Text

/-!
# Routing rules

The rule AST of `router/rule.rs` and its evaluation. The `regex` crate is a parameter
(`RegexCrate`).
-/

namespace TrafficCop

open Rust

/-! ## Given code -/

/-- The operations of the `regex` crate that the proxy calls. -/
class RegexCrate (Regex : Type) where
  /-- `Regex::new`; the error is kept as its message. -/
  new : Text → Except Text Regex
  /-- `Regex::is_match`. -/
  isMatch : Regex → Text → Bool
  /-- `Regex::find`, as the texts before, inside and after the match. -/
  find : Regex → Text → Option (Text × Text × Text)
  find_eq : ∀ {re text before matched rest}, find re text = some (before, matched, rest) →
    text = before ++ (matched ++ rest)
  /-- What the first match has for a group, by its name or number. -/
  group : Regex → Text → Text → Text

/-- `Captures::expand`: `$name` and `${name}` stand for a group, `$$` for a dollar sign. -/
def expand (group : Text → Text) : Text → Text
  | '$' :: '$' :: rest => '$' :: expand group rest
  | '$' :: rest =>
    let braced := rest.head? == some '{' && rest.contains '}'
    let name := if braced then rest.tail.takeWhile (· != '}')
      else rest.takeWhile fun c => c.isAlphanum || c == '_'
    if braced then group name ++ expand group (rest.drop (name.length + 2))
    else if name.isEmpty then '$' :: expand group rest
    else group name ++ expand group (rest.drop name.length)
  | c :: rest => c :: expand group rest
  | [] => []
  termination_by text => text.length

/-- `Regex::replace`: the first match gives way to the expanded replacement. -/
def RegexCrate.replace {Regex : Type} [RegexCrate Regex] (re : Regex) (text replacement : Text) :
    Text :=
  match find re text with
  | some (before, _, rest) => before ++ (expand (group re text) replacement ++ rest)
  | none => text

/-- Patterns without metacharacters, which match the texts that contain them. -/
structure Literal where
  pattern : Text
  deriving Repr, DecidableEq

/-- The texts around the first occurrence of a pattern. -/
def Literal.locate (pattern : Text) : Text → Option (Text × Text)
  | [] => if pattern = [] then some ([], []) else none
  | c :: cs =>
    if pattern.isPrefixOf (c :: cs) then some ([], (c :: cs).drop pattern.length)
    else (locate pattern cs).map fun (before, after) => (c :: before, after)

lemma Literal.locate_eq {pattern text : Text} {parts : Text × Text}
    (h : locate pattern text = some parts) : text = parts.1 ++ (pattern ++ parts.2) := by
  induction text generalizing parts with
  | nil =>
    unfold locate at h
    split at h
    · next hnil =>
      cases h
      rw [hnil]
      rfl
    · cases h
  | cons c text ih =>
    unfold locate at h
    split at h
    · next hprefix =>
      cases h
      obtain ⟨rest, hrest⟩ := List.isPrefixOf_iff_prefix.mp hprefix
      rw [← hrest, List.drop_left]
      rfl
    · obtain ⟨parts', hparts, rfl⟩ := Option.map_eq_some_iff.mp h
      rw [ih hparts]
      rfl

instance : RegexCrate Literal where
  new pattern :=
    if pattern.any (".^$*+?()[]{}|\\".toList.contains ·) then .error "metacharacter"
    else .ok ⟨pattern⟩
  isMatch re text := (Literal.locate re.pattern text).isSome
  find re text := (Literal.locate re.pattern text).map fun (before, after) =>
    (before, re.pattern, after)
  find_eq h := by
    obtain ⟨parts, hlocate, heq⟩ := Option.map_eq_some_iff.mp h
    cases heq
    exact Literal.locate_eq hlocate
  group re _ _ := re.pattern

/-- The request attributes a rule is evaluated against. -/
structure Request where
  host : Option Text
  path : Text
  query : Option Text
  method : Option Text
  /-- `headers.get(name).and_then(|v| v.to_str().ok())` -/
  header : Text → Option Text

/-! ## Query strings -/

def hexValue (c : Char) : Nat :=
  if '0' ≤ c ∧ c ≤ '9' then c.toNat - '0'.toNat
  else if 'a' ≤ c ∧ c ≤ 'f' then c.toNat - 'a'.toNat + 10
  else c.toNat - 'A'.toNat + 10

/-- `Rule::url_decode`. Two hexadecimal digits after a `%` spell a byte, pushed as the character
with that code; fewer are pushed back, which reading them again does. -/
def urlDecode : Text → Text
  | [] => []
  | c :: a :: b :: rest =>
    if c = '%' ∧ isAsciiHexdigit a ∧ isAsciiHexdigit b then
      Char.ofNat (16 * hexValue a + hexValue b) :: urlDecode rest
    else (if c = '+' then ' ' else c) :: urlDecode (a :: b :: rest)
  | c :: rest => (if c = '+' then ' ' else c) :: urlDecode rest

def splitPair (pair : Text) : Option (Text × Text) :=
  match pair.span (· != '=') with
  | (k, _ :: v) => some (k, v)
  | (_, []) => none

def queryParamMatches (query key expectedValue : Text) : Bool :=
  (query.splitOn '&').any fun pair =>
    match splitPair pair with
    | some (k, v) => urlDecode k == key && urlDecode v == expectedValue
    | none => false

/-! ## Rules -/

/-- Of `hyper::HeaderMap` a rule only sees the function from a header name to the value's text. -/
inductive Rule (Regex : Type) where
  | host (expected : Text)
  | hostRegex (re : Regex)
  | path (expected : Text)
  | pathPrefix (pre : Text)
  | pathRegex (re : Regex)
  | header (name value : Text)
  | headerRegex (name : Text) (re : Regex)
  | query (key expectedValue : Text)
  | method (expectedMethod : Text)
  | and (a b : Rule Regex)
  | or (a b : Rule Regex)
  | not (r : Rule Regex)
  deriving Repr, DecidableEq

namespace Rule

variable {Regex : Type}

/-- `Rule::matches`. An absent host, query, method or header makes the matcher
fail (`unwrap_or(false)`). -/
def «matches» [RegexCrate Regex] (req : Request) : Rule Regex → Bool
  | .host expected => req.host.any fun h => eqIgnoreAsciiCase h expected
  | .hostRegex re => req.host.any fun h => RegexCrate.isMatch re h
  | .path expected => req.path == expected
  | .pathPrefix pre => pre.isPrefixOf req.path
  | .pathRegex re => RegexCrate.isMatch re req.path
  | .header name value => (req.header name).any fun v => v == value
  | .headerRegex name re => (req.header name).any fun v => RegexCrate.isMatch re v
  | .query key expectedValue => req.query.any fun q => queryParamMatches q key expectedValue
  | .method expectedMethod => req.method.any fun m => eqIgnoreAsciiCase m expectedMethod
  | .and a b => a.matches req && b.matches req
  | .or a b => a.matches req || b.matches req
  | .not r => !r.matches req

/-- `Rule::extract_hosts`: the hosts of `Host` terms under nested `And`. -/
def extractHosts : Rule Regex → List Text
  | .host h => [h]
  | .and a b => a.extractHosts ++ b.extractHosts
  | _ => []

/-- **A rule with extracted hosts pins the request's host**: it equals each up to ASCII case. -/
theorem matches_extractHosts [RegexCrate Regex] {req : Request} {rule : Rule Regex}
    (hm : rule.matches req) :
    ∀ h ∈ rule.extractHosts, ∃ host, req.host = some host ∧
      toAsciiLowercase host = toAsciiLowercase h := by
  induction rule with
  | host expected =>
    intro h hh
    obtain rfl : h = expected := by simpa [extractHosts] using hh
    rw [Rule.matches, Option.any_eq_true] at hm
    obtain ⟨host, hhost, heq⟩ := hm
    exact ⟨host, hhost, eqIgnoreAsciiCase_iff.mp heq⟩
  | and a b iha ihb =>
    -- both operands match, and each pins the hosts it contributes
    rw [Rule.matches, Bool.and_eq_true] at hm
    intro h hh
    rcases List.mem_append.mp hh with ha | hb
    · exact iha hm.1 h ha
    · exact ihb hm.2 h hb
  | _ => simp [extractHosts]

end Rule

end TrafficCop
