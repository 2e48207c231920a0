import TrafficCop.Lib.Glob
import TrafficCop.Router.Rule

/-!
# The origins of gRPC-Web requests

`GrpcWebMiddleware::new` and `is_origin_allowed` of `middleware/builtin/grpc_web.rs`. Of the regex
crate it is used that the expressions of `Lib.Glob` have their documented meaning.
-/

namespace TrafficCop

open Rust Anchored

structure GrpcWebConfig where
  allowOrigins : List Text
  deriving Repr, DecidableEq

structure GrpcWebMiddleware (Regex : Type) where
  allowOrigins : List Regex
  deriving Repr, DecidableEq

namespace GrpcWebMiddleware

variable (Regex : Type) [RegexCrate Regex]

/-- All other characters are taken over, also special ones. -/
def expression (pattern : Text) : Text :=
  '^' :: (replace '*' ".*" (replace '.' "\\." pattern) ++ ['$'])

def compile (pattern : Text) : Option Regex := (RegexCrate.new (expression pattern)).toOption

/-- What does not compile is dropped, and a list from which everything was dropped is one that was
never given. -/
def new (config : GrpcWebConfig) : GrpcWebMiddleware Regex :=
  ⟨config.allowOrigins.filterMap (compile Regex)⟩

variable {Regex}

def isOriginAllowed (m : GrpcWebMiddleware Regex) (origin : Text) : Bool :=
  -- "Allow all origins if none specified"
  if m.allowOrigins.isEmpty then true else m.allowOrigins.any (RegexCrate.isMatch · origin)

/-! ## Globs and what is compiled -/

variable (Regex)

/-- What is used of the crate: an anchored expression matches the texts that it says. -/
def MatchesAnchored : Prop :=
  ∀ (atoms : List Atom) (regex : Regex),
    RegexCrate.new ('^' :: (render atoms ++ ['$'])) = .ok regex →
      ∀ text, RegexCrate.isMatch regex text = true ↔ Matches atoms text

variable {Regex}

/-- No character of the pattern is special but the two that are replaced. -/
def Plain (pattern : Text) : Prop := ∀ c ∈ pattern, c = '.' ∨ c = '*' ∨ special c = false

lemma expression_eq {pattern : Text} (h : Plain pattern) :
    expression pattern = '^' :: (render (ofGlob pattern) ++ ['$']) := by
  have hreplace : replace '*' ".*" (replace '.' "\\." pattern) =
      pattern.flatMap fun c =>
        if c = '.' then ['\\', '.'] else if c = '*' then ['.', '*'] else [c] := by
    rw [replace, replace, List.flatMap_assoc]
    refine List.flatMap_congr fun c _ => ?_
    by_cases hdot : c = '.'
    · rw [if_pos hdot, if_pos hdot]
      rfl
    · rw [if_neg hdot, if_neg hdot, List.flatMap_singleton]
      rfl
  rw [expression, hreplace, render_ofGlob h]

lemma isMatch_iff (hregex : MatchesAnchored Regex) {pattern origin : Text}
    (hplain : Plain pattern) (hline : '\n' ∉ origin) {regex : Regex}
    (h : compile Regex pattern = some regex) :
    RegexCrate.isMatch regex origin ↔ Glob.Matches pattern origin := by
  have hnew : RegexCrate.new (expression pattern) = .ok regex := by
    rw [compile] at h
    cases hnew : (RegexCrate.new (expression pattern) : Except Text Regex) with
    | error e =>
      rw [hnew] at h
      cases h
    | ok r =>
      rw [hnew] at h
      cases h
      rfl
  rw [expression_eq hplain] at hnew
  rw [hregex _ _ hnew, matches_ofGlob_iff hline]

variable (Regex)

/-- What the code tests. -/
def SomeMatches (patterns : List Text) (origin : Text) : Prop :=
  ∃ pattern ∈ patterns, ∃ regex, compile Regex pattern = some regex ∧
    RegexCrate.isMatch regex origin = true

/-- What the patterns mean. -/
def SomeGlob (patterns : List Text) (origin : Text) : Prop :=
  ∃ pattern ∈ patterns, Glob.Matches pattern origin

lemma isOriginAllowed_iff {patterns : List Text} {origin : Text} :
    (new Regex ⟨patterns⟩).isOriginAllowed origin ↔
      (∀ pattern ∈ patterns, compile Regex pattern = none) ∨ SomeMatches Regex patterns origin := by
  unfold isOriginAllowed new
  split
  · next hempty =>
    exact iff_of_true rfl (.inl (List.filterMap_eq_nil_iff.mp (List.isEmpty_iff.mp hempty)))
  · next hne =>
    have hsome : ¬∀ pattern ∈ patterns, compile Regex pattern = none := fun hnone =>
      hne (List.isEmpty_iff.mpr (List.filterMap_eq_nil_iff.mpr hnone))
    rw [or_iff_right hsome, List.any_eq_true, SomeMatches]
    constructor
    · intro h
      obtain ⟨regex, hmem, hmatch⟩ := h
      obtain ⟨pattern, hpattern, hcompile⟩ := List.mem_filterMap.mp hmem
      exact ⟨pattern, hpattern, regex, hcompile, hmatch⟩
    · intro h
      obtain ⟨pattern, hpattern, regex, hcompile, hmatch⟩ := h
      exact ⟨regex, List.mem_filterMap.mpr ⟨pattern, hpattern, hcompile⟩, hmatch⟩

structure SoundOrigins (patterns : List Text) (origin : Text) : Prop where
  /-- If nothing compiles, the origin is one of a glob all the same. -/
  dropped : (∀ pattern ∈ patterns, compile Regex pattern = none) → SomeGlob patterns origin
  /-- An expression with special characters matches the origin only if a glob does. -/
  wider : ∀ pattern ∈ patterns, ¬(Plain pattern ∧ '\n' ∉ origin) → ∀ regex,
    compile Regex pattern = some regex → RegexCrate.isMatch regex origin = true →
      SomeGlob patterns origin
  /-- A glob with special characters, or one that was dropped, matches the origin only if an
  expression does or nothing compiles. -/
  narrower : ∀ pattern ∈ patterns, ¬(Plain pattern ∧ '\n' ∉ origin) ∨ compile Regex pattern = none →
    Glob.Matches pattern origin → (∀ pattern ∈ patterns, compile Regex pattern = none) ∨
      SomeMatches Regex patterns origin

/-- **When the allowed origins are those of the globs.** -/
theorem isOriginAllowed_glob_iff (hregex : MatchesAnchored Regex) (patterns : List Text)
    (origin : Text) :
    ((new Regex ⟨patterns⟩).isOriginAllowed origin = true ↔ SomeGlob patterns origin) ↔
      SoundOrigins Regex patterns origin := by
  rw [isOriginAllowed_iff]
  constructor
  · intro h
    refine ⟨fun hnone => h.mp (.inl hnone), fun pattern hpattern _ regex hcompile hmatch => ?_,
      fun pattern hpattern _ hglob => h.mpr ⟨pattern, hpattern, hglob⟩⟩
    exact h.mp (.inr ⟨pattern, hpattern, regex, hcompile, hmatch⟩)
  · intro h
    -- a plain pattern that compiles is its glob; the condition is about all others
    constructor
    · intro hallowed
      rcases hallowed with hnone | ⟨pattern, hpattern, regex, hcompile, hmatch⟩
      · exact h.dropped hnone
      · by_cases hplain : Plain pattern ∧ '\n' ∉ origin
        · exact ⟨pattern, hpattern, (isMatch_iff hregex hplain.1 hplain.2 hcompile).mp hmatch⟩
        · exact h.wider pattern hpattern hplain regex hcompile hmatch
    · intro hsome
      obtain ⟨pattern, hpattern, hglob⟩ := hsome
      by_cases hplain : Plain pattern ∧ '\n' ∉ origin
      · cases hcompile : compile Regex pattern with
        | none => exact h.narrower pattern hpattern (.inr hcompile) hglob
        | some regex =>
          exact .inr ⟨pattern, hpattern, regex, hcompile,
            (isMatch_iff hregex hplain.1 hplain.2 hcompile).mpr hglob⟩
      · exact h.narrower pattern hpattern (.inl hplain) hglob

end GrpcWebMiddleware

/-! ## Anchored expressions as a crate -/

/-- The part of the regex language that globs are translated to. Concrete runs use it. -/
structure AnchoredRegex where
  atoms : List Atom
  deriving Repr, DecidableEq

def AnchoredRegex.ofText (text : Text) : Option AnchoredRegex :=
  if text.head? == some '^' && text.getLast? == some '$' then
    (parse text.tail.dropLast).map AnchoredRegex.mk
  else none

-- an expression between anchors matches the whole text or nothing
instance : RegexCrate AnchoredRegex where
  new text := (AnchoredRegex.ofText text).elim (.error "unsupported") .ok
  isMatch regex text := run regex.atoms text
  find regex text := if run regex.atoms text then some ([], text, []) else none
  find_eq h := by
    split at h
    · cases h
      exact (List.append_nil _).symm
    · cases h
  group _ text _ := text

namespace GrpcWebMiddleware

lemma matchesAnchored_anchoredRegex : MatchesAnchored AnchoredRegex := by
  intro atoms regex hnew text
  have hread : AnchoredRegex.ofText ('^' :: (render atoms ++ ['$'])) = some ⟨atoms⟩ := by
    have hends : (('^' :: (render atoms ++ ['$'])).head? == some '^' &&
        ('^' :: (render atoms ++ ['$'])).getLast? == some '$') = true := by
      rw [← List.cons_append, List.getLast?_concat]
      rfl
    rw [AnchoredRegex.ofText, if_pos hends, List.tail_cons, List.dropLast_concat, parse_render]
    rfl
  have hok : (Except.ok ⟨atoms⟩ : Except Text AnchoredRegex) = .ok regex := by
    rw [← hnew]
    show _ = (AnchoredRegex.ofText _).elim _ _
    rw [hread]
    rfl
  cases hok
  exact run_iff

theorem isOriginAllowed_glob_subdomain :
    (new AnchoredRegex ⟨["https://*.a.com"]⟩).isOriginAllowed "https://x.a.com" =
      true := by
  have hplain : Plain "https://*.a.com".toList ∧ '\n' ∉ "https://x.a.com".toList :=
    ⟨forall_char (by decide +kernel), by decide⟩
  have hglob : Glob.Matches "https://*.a.com" "https://x.a.com" :=
    (matches_ofGlob_iff hplain.2).mp (run_iff.mp (by decide +kernel))
  have hsome : SomeGlob ["https://*.a.com"] "https://x.a.com" :=
    ⟨_, List.mem_singleton_self _, hglob⟩
  have hcompile : (compile AnchoredRegex "https://*.a.com").isSome := by
    decide +kernel
  refine ((isOriginAllowed_glob_iff AnchoredRegex matchesAnchored_anchoredRegex _ _).mpr
    ⟨fun _ => hsome, fun _ _ _ _ _ _ => hsome, fun pattern hpattern hnot _ => ?_⟩).mpr hsome
  obtain rfl := List.mem_singleton.mp hpattern
  rcases hnot with hnot | hnone
  · exact absurd hplain hnot
  · rw [hnone] at hcompile
    cases hcompile

/-- The one pattern of the list has a parenthesis, so that nothing is left of the list. -/
theorem everyone_allowed :
    (new AnchoredRegex ⟨["https://a("]⟩).isOriginAllowed "https://b" = true ∧
      ¬SomeGlob ["https://a("] "https://b" := by
  refine ⟨by decide +kernel, fun hsome => ?_⟩
  obtain ⟨pattern, hpattern, hglob⟩ := hsome
  obtain rfl := List.mem_singleton.mp hpattern
  have hrun := run_iff.mpr ((matches_ofGlob_iff (by decide)).mpr hglob)
  exact absurd hrun (by decide +kernel)

end GrpcWebMiddleware

end TrafficCop
