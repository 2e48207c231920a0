import TrafficCop.Config.Types
import TrafficCop.Router.Rule

/-!
# Path middlewares

The five middlewares of `middleware/builtin/path.rs` and what a chain of them does to the URI of a
request. Each computes a new path text.
-/

namespace TrafficCop

open Rust Http List Option

/-! ## The middlewares -/

/-- Where the `http` crate refuses the text, the request goes on with the URI it had. -/
def rebuildUriWithPath (http : UriCrate) (uri : Uri) (newPath : Text) : Option Uri :=
  let pathAndQuery :=
    match uri.query with
    | some query => newPath ++ '?' :: query
    | none => newPath
  Uri.build http uri.scheme uri.authority pathAndQuery

def startsWithSlash (path : Text) : Bool := path.head? == some '/'

structure StripPrefixMiddleware where
  prefixes : List Text
  forceSlash : Bool
  deriving Repr, DecidableEq

namespace StripPrefixMiddleware

def new (config : StripPrefixConfig) : StripPrefixMiddleware :=
  ⟨config.prefixes, config.forceSlash⟩

/-- The path written for what is left of it behind a prefix. -/
def newPath (mw : StripPrefixMiddleware) (rest : Text) : Text :=
  let newPath :=
    if rest.isEmpty || (!startsWithSlash rest && mw.forceSlash) then '/' :: rest else rest
  if newPath.isEmpty then ['/'] else newPath

/-- The first prefix whose removal gives a URI wins. -/
def transformUri (http : UriCrate) (mw : StripPrefixMiddleware) (uri : Uri) :
    Option (Uri × Text) :=
  mw.prefixes.findSome? fun pre =>
    if pre.isPrefixOf uri.path then
      (rebuildUriWithPath http uri (mw.newPath (uri.path.drop pre.length))).map (·, pre)
    else none

/-- The prefix that is taken off: the first in the list that the path has and whose removal leaves
a path that the `http` crate accepts. -/
def removed (http : UriCrate) (mw : StripPrefixMiddleware) (uri : Uri) : Option Text :=
  mw.prefixes.find? fun pre => pre.isPrefixOf uri.path &&
    (rebuildUriWithPath http uri (mw.newPath (uri.path.drop pre.length))).isSome

end StripPrefixMiddleware

structure StripPrefixRegexMiddleware (Regex : Type) where
  patterns : List Regex
  deriving Repr, DecidableEq

namespace StripPrefixRegexMiddleware

variable {Regex : Type} [RegexCrate Regex]

/-- `None` if any pattern is invalid. -/
def new (config : StripPrefixRegexConfig) : Option (StripPrefixRegexMiddleware Regex) :=
  match config.regex.mapM (fun r => (RegexCrate.new r : Except Text Regex)) with
  | .ok patterns => some ⟨patterns⟩
  | .error _ => none

def transformUri (http : UriCrate) (mw : StripPrefixRegexMiddleware Regex) (uri : Uri) :
    Option (Uri × Text) :=
  mw.patterns.findSome? fun pattern =>
    match RegexCrate.find pattern uri.path with
    -- `mat.start() == 0`
    | some ([], matched, rest) =>
      let newPath := if rest.isEmpty || !startsWithSlash rest then '/' :: rest else rest
      (rebuildUriWithPath http uri newPath).map (·, matched)
    | _ => none

end StripPrefixRegexMiddleware

structure AddPrefixMiddleware where
  pre : Text
  deriving Repr, DecidableEq

namespace AddPrefixMiddleware

def new (config : AddPrefixConfig) : AddPrefixMiddleware := ⟨config.pre⟩

def transformUri (http : UriCrate) (mw : AddPrefixMiddleware) (uri : Uri) : Option Uri :=
  rebuildUriWithPath http uri (mw.pre ++ uri.path)

end AddPrefixMiddleware

structure ReplacePathMiddleware where
  path : Text
  deriving Repr, DecidableEq

namespace ReplacePathMiddleware

def new (config : ReplacePathConfig) : ReplacePathMiddleware := ⟨config.path⟩

def transformUri (http : UriCrate) (mw : ReplacePathMiddleware) (uri : Uri) :
    Option (Uri × Text) :=
  (rebuildUriWithPath http uri mw.path).map (·, uri.path)

end ReplacePathMiddleware

structure ReplacePathRegexMiddleware (Regex : Type) where
  pattern : Regex
  replacement : Text
  deriving Repr, DecidableEq

namespace ReplacePathRegexMiddleware

variable {Regex : Type} [RegexCrate Regex]

def new (config : ReplacePathRegexConfig) : Option (ReplacePathRegexMiddleware Regex) :=
  match RegexCrate.new config.regex with
  | .ok pattern => some ⟨pattern, config.replacement⟩
  | .error _ => none

def transformUri (http : UriCrate) (mw : ReplacePathRegexMiddleware Regex) (uri : Uri) :
    Option (Uri × Text) :=
  let newPath := RegexCrate.replace mw.pattern uri.path mw.replacement
  if newPath ≠ uri.path then (rebuildUriWithPath http uri newPath).map (·, uri.path) else none

end ReplacePathRegexMiddleware

/-! ## Chains -/

/-- The five kinds, as a chain has them. -/
inductive PathMiddleware (Regex : Type) where
  | stripPrefix (mw : StripPrefixMiddleware)
  | stripPrefixRegex (mw : StripPrefixRegexMiddleware Regex)
  | addPrefix (mw : AddPrefixMiddleware)
  | replacePath (mw : ReplacePathMiddleware)
  | replacePathRegex (mw : ReplacePathRegexMiddleware Regex)
  deriving Repr, DecidableEq

section Chains

variable {Regex : Type} [RegexCrate Regex] (http : UriCrate)

/-- The URI that a wrapper hands to the rest of the chain. -/
def PathMiddleware.handle (mw : PathMiddleware Regex) (uri : Uri) : Uri :=
  match mw with
  | .stripPrefix mw => ((mw.transformUri http uri).map Prod.fst).getD uri
  | .stripPrefixRegex mw => ((mw.transformUri http uri).map Prod.fst).getD uri
  | .addPrefix mw => (mw.transformUri http uri).getD uri
  | .replacePath mw => ((mw.transformUri http uri).map Prod.fst).getD uri
  | .replacePathRegex mw => ((mw.transformUri http uri).map Prod.fst).getD uri

/-- The URI behind a chain. -/
def runChain (mws : List (PathMiddleware Regex)) (uri : Uri) : Uri :=
  mws.foldl (fun uri mw => mw.handle http uri) uri

/-! ## The leading slash -/

omit [RegexCrate Regex] http in
/-- A path that reads with a leading slash once it is written into the URI: it has one, or it is
empty in front of a query or behind a scheme. -/
def ReadsRooted (uri : Uri) (newPath : Text) : Prop :=
  newPath.head? = some '/' ∨ newPath.head? = some '?' ∨ (newPath = [] ∧ uri.query.isSome = true) ∨
    (uri.scheme.isSome = true ∧ (newPath = [] ∨ newPath.head? = some '#'))

/-- When a middleware keeps the leading slash of this URI. A path that the `http` crate refuses
does not take the place of the old one. -/
def PathMiddleware.Rooting (uri : Uri) : PathMiddleware Regex → Prop
  | .stripPrefix mw => mw.forceSlash = true ∨ ∀ pre rest, mw.removed http uri = some pre →
      uri.path = pre ++ rest → rest = [] ∨ ReadsRooted uri rest
  | .stripPrefixRegex _ => True
  | .addPrefix mw => mw.pre = [] ∨ ReadsRooted uri mw.pre ∨
      rebuildUriWithPath http uri (mw.pre ++ uri.path) = none
  | .replacePath mw => ReadsRooted uri mw.path ∨ rebuildUriWithPath http uri mw.path = none
  | .replacePathRegex mw => ∀ matched rest,
      -- a match further on leaves the slash where it is
      RegexCrate.find mw.pattern uri.path = some ([], matched, rest) →
      let newPath := expand (RegexCrate.group mw.pattern uri.path) mw.replacement ++ rest
      ReadsRooted uri newPath ∨ rebuildUriWithPath http uri newPath = none

end Chains

/-- The path starts with a slash. -/
def Rooted (uri : Uri) : Prop := startsWithSlash uri.path = true

lemma startsWithSlash_iff {path : Text} :
    startsWithSlash path ↔ path.head? = some '/' := beq_iff_eq

section Rooted

variable {http : UriCrate} {uri uri' : Uri} {newPath : Text}

lemma readsRooted_of_slash (h : startsWithSlash newPath) : ReadsRooted uri newPath :=
  .inl (startsWithSlash_iff.mp h)

lemma rebuild_rooted_iff (h : rebuildUriWithPath http uri newPath = some uri') :
    Rooted uri' ↔ ReadsRooted uri newPath := by
  rw [Rooted, startsWithSlash_iff, Uri.path_build_iff h]
  unfold ReadsRooted
  cases newPath <;> cases uri.query <;> simp

/-- A path that is refused leaves the request as it was. -/
lemma getD_rooted_iff (huri : Rooted uri) :
    Rooted ((rebuildUriWithPath http uri newPath).getD uri) ↔
      ReadsRooted uri newPath ∨ rebuildUriWithPath http uri newPath = none := by
  cases h : rebuildUriWithPath http uri newPath with
  | none => exact iff_of_true huri (.inr rfl)
  | some uri' => simpa using rebuild_rooted_iff h

/-- Behind a first character only this one counts. -/
lemma readsRooted_append {t : Text} (hne : newPath ≠ []) :
    ReadsRooted uri (newPath ++ t) ↔ ReadsRooted uri newPath := by
  obtain ⟨c, s, rfl⟩ := exists_cons_of_ne_nil hne
  unfold ReadsRooted
  simp

lemma StripPrefixMiddleware.newPath_rooted_iff {mw : StripPrefixMiddleware} {rest : Text} :
    ReadsRooted uri (mw.newPath rest) ↔
      mw.forceSlash ∨ rest = [] ∨ ReadsRooted uri rest := by
  unfold StripPrefixMiddleware.newPath
  by_cases hslash : (rest.isEmpty || (!startsWithSlash rest && mw.forceSlash)) = true
  · simp only [hslash, if_true, isEmpty_cons, Bool.false_eq_true, if_false]
    refine iff_of_true (readsRooted_of_slash rfl) ?_
    rcases Bool.or_eq_true_iff.mp hslash with hempty | hforce
    · exact .inr (.inl (List.isEmpty_iff.mp hempty))
    · exact .inl (Bool.and_eq_true_iff.mp hforce).2
  · simp only [hslash, Bool.false_eq_true, if_false]
    obtain ⟨hempty, hforce⟩ := not_or.mp (mt Bool.or_eq_true_iff.mpr hslash)
    rw [if_neg hempty, or_iff_right (mt List.isEmpty_iff.mpr hempty)]
    refine (or_iff_right_of_imp fun h => readsRooted_of_slash ?_).symm
    -- a slash that is asked for and was not put there is there already
    simpa [h] using hforce

variable {Regex : Type} [RegexCrate Regex]

lemma findSome?_eq_find? {α β : Type} (f : α → Option β) (l : List α) :
    l.findSome? f = (l.find? fun a => (f a).isSome).bind f := by
  induction l with
  | nil => rfl
  | cons a l ih =>
    rw [findSome?_cons, find?_cons, ih]
    cases h : f a with
    | none => rfl
    | some b => simp [h]

namespace StripPrefixMiddleware

lemma removed_spec {mw : StripPrefixMiddleware} {pre : Text}
    (h : mw.removed http uri = some pre) :
    ∃ rest uri', uri.path = pre ++ rest ∧
      rebuildUriWithPath http uri (mw.newPath rest) = some uri' := by
  obtain ⟨hpre, haccepted⟩ := Bool.and_eq_true_iff.mp (find?_some h :)
  obtain ⟨rest, hrest⟩ := isPrefixOf_iff_prefix.mp hpre
  rw [← hrest, drop_left] at haccepted
  exact ⟨rest, _, hrest.symm, (some_get haccepted).symm⟩

lemma transformUri_eq (mw : StripPrefixMiddleware) :
    (mw.transformUri http uri).map Prod.fst = (mw.removed http uri).bind fun pre =>
      rebuildUriWithPath http uri (mw.newPath (uri.path.drop pre.length)) := by
  have hfind : ∀ pre : Text, (if pre.isPrefixOf uri.path = true then
      (rebuildUriWithPath http uri (mw.newPath (uri.path.drop pre.length))).map (·, pre)
      else none).isSome = (pre.isPrefixOf uri.path &&
        (rebuildUriWithPath http uri (mw.newPath (uri.path.drop pre.length))).isSome) := by
    intro pre
    cases pre.isPrefixOf uri.path <;> simp
  unfold transformUri removed
  rw [findSome?_eq_find?, Option.map_bind]
  simp only [hfind]
  refine Option.bind_congr fun pre hpre => ?_
  rw [Function.comp_apply, if_pos (Bool.and_eq_true_iff.mp (find?_some hpre :)).1]
  simp [Function.comp_def]

end StripPrefixMiddleware

lemma stripPrefixRegex_rooted {mw : StripPrefixRegexMiddleware Regex} {result : Uri × Text}
    (h : mw.transformUri http uri = some result) : Rooted result.1 := by
  obtain ⟨pattern, -, hpattern⟩ := exists_of_findSome?_eq_some h
  split at hpattern
  · next matched rest _ =>
    obtain ⟨u, hbuild, rfl⟩ := map_eq_some_iff.mp hpattern
    refine (rebuild_rooted_iff hbuild).mpr (readsRooted_of_slash ?_)
    -- a slash is put before every rest that has none
    by_cases hrest : startsWithSlash rest
    · have hne : rest ≠ [] := by rintro rfl; simp [startsWithSlash] at hrest
      simp [hrest, hne]
    · have hslash : (rest.isEmpty || !startsWithSlash rest) = true := by simp [hrest]
      rw [hslash, if_pos rfl]
      rfl
  · cases hpattern

/-- An unchanged path is not rebuilt, and has its slash. -/
lemma replacePathRegex_rooted_iff {mw : ReplacePathRegexMiddleware Regex} (huri : Rooted uri) :
    Rooted (((mw.transformUri http uri).map Prod.fst).getD uri) ↔
      let newPath := RegexCrate.replace mw.pattern uri.path mw.replacement
      ReadsRooted uri newPath ∨ rebuildUriWithPath http uri newPath = none := by
  unfold ReplacePathRegexMiddleware.transformUri
  by_cases hsame : RegexCrate.replace mw.pattern uri.path mw.replacement = uri.path
  · simpa [hsame, huri] using .inl (readsRooted_of_slash huri)
  · simpa [hsame, Function.comp_def] using getD_rooted_iff huri

/-- **One step keeps the leading slash** exactly where the middleware is rooting. -/
theorem handle_rooted_iff {mw : PathMiddleware Regex} (huri : Rooted uri) :
    Rooted (mw.handle http uri) ↔ mw.Rooting http uri := by
  cases mw with
  | stripPrefix mw =>
    change Rooted (((mw.transformUri http uri).map Prod.fst).getD uri) ↔ _
    rw [StripPrefixMiddleware.transformUri_eq]
    cases hremoved : mw.removed http uri with
    | none => exact iff_of_true huri (.inr fun pre rest h => nomatch hremoved.symm.trans h)
    | some pre =>
      obtain ⟨rest, uri', hpath, hbuild⟩ := StripPrefixMiddleware.removed_spec hremoved
      rw [Option.bind_some, hpath, drop_left, hbuild, getD_some, rebuild_rooted_iff hbuild,
        StripPrefixMiddleware.newPath_rooted_iff]
      refine or_congr_right ⟨fun h pre' rest' hpre' heq => ?_, fun h => h pre rest hremoved hpath⟩
      cases hremoved.symm.trans hpre'
      rwa [append_cancel_left (hpath.symm.trans heq)] at h
  | stripPrefixRegex mw =>
    refine iff_of_true ?_ True.intro
    change Rooted (((mw.transformUri http uri).map Prod.fst).getD uri)
    cases hsome : mw.transformUri http uri with
    | none => exact huri
    | some result => exact stripPrefixRegex_rooted hsome
  | addPrefix mw =>
    refine (getD_rooted_iff huri).trans ?_
    by_cases hnil : mw.pre = []
    · -- nothing is added: the slash is the one of the request
      exact iff_of_true (.inl (by rw [hnil]; exact readsRooted_of_slash huri)) (.inl hnil)
    · rw [readsRooted_append hnil]
      exact (or_iff_right hnil).symm
  | replacePath mw =>
    refine Iff.trans ?_ (getD_rooted_iff huri)
    change Rooted (((mw.transformUri http uri).map Prod.fst).getD uri) ↔ _
    simp [ReplacePathMiddleware.transformUri, Function.comp_def]
  | replacePathRegex mw =>
    refine (replacePathRegex_rooted_iff huri).trans ?_
    dsimp only [PathMiddleware.Rooting]
    unfold RegexCrate.replace
    rcases hfind : RegexCrate.find mw.pattern uri.path with _ | ⟨_ | ⟨c, before⟩, matched, rest⟩
    · exact iff_of_true (.inl (readsRooted_of_slash huri)) (by simp)
    · simp
    · -- the match comes after the slash
      have hpath := RegexCrate.find_eq hfind
      refine iff_of_true (.inl (readsRooted_of_slash ?_)) (by simp)
      rw [Rooted, hpath] at huri
      exact huri

/-- Every step of the chain is rooting at the URI it is applied to. -/
def RootingChain (http : UriCrate) : List (PathMiddleware Regex) → Uri → Prop
  | [], _ => True
  | mw :: mws, uri => mw.Rooting http uri ∧ RootingChain http mws (mw.handle http uri)

/-- **Every URI along a chain keeps the leading slash** exactly where every step is rooting. -/
theorem runChain_rooted_iff {mws : List (PathMiddleware Regex)} (huri : Rooted uri) :
    (∀ before behind, mws = before ++ behind → Rooted (runChain http before uri)) ↔
      RootingChain http mws uri := by
  induction mws generalizing uri with
  | nil =>
    refine iff_of_true (fun before behind heq => ?_) True.intro
    obtain ⟨rfl, -⟩ := append_eq_nil_iff.mp heq.symm
    exact huri
  | cons mw mws ih =>
    constructor
    · intro hall
      have hstep : Rooted (mw.handle http uri) := hall [mw] mws rfl
      refine ⟨(handle_rooted_iff huri).mp hstep, (ih hstep).mp fun before behind heq => ?_⟩
      exact hall (mw :: before) behind (congrArg (mw :: ·) heq)
    · rintro ⟨hmw, hmws⟩ (_ | ⟨mw', before⟩) behind heq
      · exact huri
      · -- the rest of the chain starts from the URI behind the first step
        obtain ⟨rfl, htail⟩ := List.cons.inj heq
        exact (ih ((handle_rooted_iff huri).mpr hmw)).mpr hmws before behind htail

end Rooted

end TrafficCop
