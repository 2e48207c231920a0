import TrafficCop.Rust.Text

/-!
# Http — URIs

The `http` crate's `Uri`, as far as proxies take it apart and put it together: typed schemes and
authorities, the path-and-query text, and parsing of absolute URIs.
-/

namespace Http

open Rust List

/-! ## Components -/

def endsAuthority (c : Char) : Bool := c == '/' || c == '?' || c == '#'

structure Scheme where
  text : Text
  chars : ∀ c ∈ text, c ≠ ':'
  deriving Repr, DecidableEq

structure Authority where
  text : Text
  chars : ∀ c ∈ text, endsAuthority c = false
  deriving Repr, DecidableEq

/-- `uri::PathAndQuery`: the texts before and behind the first `?`. -/
structure PathAndQuery where
  rawPath : Text
  query : Option Text
  deriving Repr, DecidableEq

namespace PathAndQuery

variable (pq : PathAndQuery)

def data : Text :=
  match pq.query with
  | none => pq.rawPath
  | some q => pq.rawPath ++ '?' :: q

/-- `PathAndQuery::path`: an empty path reads as `/`. -/
def path : Text := if pq.rawPath = [] then ['/'] else pq.rawPath

def asStr : Text := if pq.data = [] then ['/'] else pq.data

/-- The components of a text; a fragment is dropped. -/
def ofText (s : Text) : PathAndQuery :=
  match (s.takeWhile (· != '#')).span (· != '?') with
  | (rawPath, []) => ⟨rawPath, none⟩
  | (rawPath, _ :: query) => ⟨rawPath, some query⟩

end PathAndQuery

structure Uri where
  scheme : Option Scheme
  authority : Option Authority
  pathAndQuery : PathAndQuery
  deriving Repr, DecidableEq

namespace Uri

/-- `Uri::path`. Without a scheme an empty text stays empty. -/
def path (uri : Uri) : Text :=
  if uri.pathAndQuery.data = [] ∧ uri.scheme.isNone = true then []
  else uri.pathAndQuery.path

def query (uri : Uri) : Option Text := uri.pathAndQuery.query

/-- `Uri::path_and_query`: absent from a URI that is an authority alone. -/
def pathAndQuery? (uri : Uri) : Option PathAndQuery :=
  if uri.scheme.isSome || uri.authority.isNone then some uri.pathAndQuery else none

end Uri

/-! ## Parsing and building -/

/-- What is left open about the crate. -/
structure UriCrate where
  /-- The characters of a path and query are legal. -/
  acceptsPathAndQuery : Text → Bool
  /-- The characters and the length of an absolute URI are legal. -/
  acceptsAbsolute : Text → Bool
  /-- Texts that are no absolute URIs: a path, `*`, an authority. -/
  parseOther : Text → Option Uri
  /-- The message of the error for a text. -/
  errorText : Text → Text

def splitScheme (s : Text) : Option (Scheme × Text) :=
  match s.dropWhile (· != ':') with
  | ':' :: '/' :: '/' :: rest =>
    some (⟨s.takeWhile (· != ':'), fun _ hc => by simpa using mem_takeWhile_imp hc⟩, rest)
  | _ => none

/-- The authority reaches up to the first `/`, `?` or `#`. -/
def leadingAuthority (s : Text) : Authority :=
  ⟨s.takeWhile (!endsAuthority ·), fun _ hc => by simpa using mem_takeWhile_imp hc⟩

namespace Uri

variable (http : UriCrate)

/-- Which texts the crate refuses and what it makes of other texts is left open. -/
def parse (s : Text) : Except Text Uri :=
  match splitScheme s with
  | some (scheme, rest) =>
    if http.acceptsAbsolute s then
      .ok ⟨some scheme, some (leadingAuthority rest), .ofText (rest.dropWhile (!endsAuthority ·))⟩
    else .error (http.errorText s)
  | none =>
    match http.parseOther s with
    | some uri => .ok uri
    | none => .error (http.errorText s)

/-- `Uri::builder()` with a new path and query. A URI has a scheme exactly when it has an authority
next to the path. -/
def build (scheme : Option Scheme) (authority : Option Authority) (pathAndQuery : Text) :
    Option Uri :=
  if http.acceptsPathAndQuery pathAndQuery && scheme.isSome == authority.isSome then
    some ⟨scheme, authority, .ofText pathAndQuery⟩
  else none

end Uri

/-! ## What a text's first character decides -/

variable {s : Text} {uri : Uri}

lemma ofText_head {c : Char} (h : s.head? = some c) (hhash : c ≠ '#') (hquery : c ≠ '?') :
    (PathAndQuery.ofText s).rawPath.head? = some c := by
  obtain ⟨t, rfl⟩ := head?_eq_some_iff.mp h
  unfold PathAndQuery.ofText
  rw [takeWhile_cons_of_pos (by simpa using hhash), span_eq_takeWhile_dropWhile,
    takeWhile_cons_of_pos (by simpa using hquery), dropWhile_cons_of_pos (by simpa using hquery)]
  split <;> next heq => rw [← (Prod.mk.inj heq).1]; rfl

/-- **The path of a URI that was built** starts with a slash if the text does, or if it has no path
but a query. Without either it is read as a slash only behind a scheme. -/
lemma Uri.path_build_iff {http : UriCrate} {scheme : Option Scheme} {authority : Option Authority}
    (h : Uri.build http scheme authority s = some uri) :
    uri.path.head? = some '/' ↔ s.head? = some '/' ∨ s.head? = some '?' ∨
      (scheme.isSome ∧ (s = [] ∨ s.head? = some '#')) := by
  unfold Uri.build at h
  split at h
  · cases h
    by_cases hempty : s = [] ∨ s.head? = some '#'
    · -- without a path of its own, a scheme puts the slash
      have htext : PathAndQuery.ofText s = ⟨[], none⟩ := by
        rcases hempty with rfl | hhash
        · rfl
        · obtain ⟨t, rfl⟩ := head?_eq_some_iff.mp hhash
          rfl
      have hhead : s.head? ≠ some '/' ∧ s.head? ≠ some '?' := by
        rcases hempty with rfl | hhash
        · simp
        · simp [hhash]
      simp only [hhead, hempty, false_or, and_true, Uri.path, htext]
      cases scheme <;> simp [PathAndQuery.data, PathAndQuery.path]
    · have hnone : ¬(scheme.isSome ∧ (s = [] ∨ s.head? = some '#')) := fun h => hempty h.2
      rw [or_iff_left hnone]
      obtain ⟨hne, hhash⟩ := not_or.mp hempty
      obtain ⟨c, t, rfl⟩ := exists_cons_of_ne_nil hne
      simp only [head?_cons, Option.some.injEq]
      by_cases hquery : c = '?'
      · subst hquery
        exact iff_of_true rfl (.inr rfl)
      · have hraw := ofText_head (s := c :: t) rfl (fun hc => hhash (congrArg some hc)) hquery
        obtain ⟨rest, hrest⟩ := head?_eq_some_iff.mp hraw
        have hdata : (PathAndQuery.ofText (c :: t)).data ≠ [] := by
          unfold PathAndQuery.data
          split <;> simp [hrest]
        rw [Uri.path, if_neg (fun h => hdata h.1), PathAndQuery.path, hrest,
          if_neg (cons_ne_nil _ _),
          head?_cons, Option.some.injEq]
        exact (or_iff_left hquery).symm
  · cases h

/-- The text of such a URI starts with a slash, or with the query where the path is implicit. -/
lemma asStr_head (h : uri.path.head? = some '/') :
    ∃ c, uri.pathAndQuery.asStr.head? = some c ∧ endsAuthority c := by
  unfold PathAndQuery.asStr
  split
  · exact ⟨'/', rfl, by decide⟩
  · next hdata =>
    rw [Uri.path, if_neg (fun h => hdata h.1), PathAndQuery.path] at h
    unfold PathAndQuery.data at hdata ⊢
    split at h
    · next hraw =>
      cases hq : uri.pathAndQuery.query with
      | none => rw [hq] at hdata; exact absurd hraw hdata
      | some q => exact ⟨'?', by simp [hraw], by decide⟩
    · next hraw =>
      obtain ⟨t, ht⟩ := head?_eq_some_iff.mp h
      refine ⟨'/', ?_, by decide⟩
      cases uri.pathAndQuery.query <;> simp [ht]

lemma splitScheme_assembled (scheme : Scheme) (rest : Text) :
    splitScheme (scheme.text ++ ("://" ++ rest)) = some (scheme, rest) := by
  have hchars : ∀ c ∈ scheme.text, (c != ':') = true :=
    fun c hc => bne_iff_ne.mpr (scheme.chars c hc)
  have hdrop : (scheme.text ++ ("://" ++ rest)).dropWhile (· != ':') =
      ':' :: '/' :: '/' :: rest := by
    rw [dropWhile_append_of_pos hchars]
    rfl
  have htake : (scheme.text ++ ("://" ++ rest)).takeWhile (· != ':') = scheme.text := by
    rw [takeWhile_append_of_pos hchars]
    simp
  unfold splitScheme
  split
  · next rest' heq =>
    cases hdrop.symm.trans heq
    simp only [htake]
  · next hno => exact absurd hdrop (hno rest)

/-- An authority is the longest one if the rest is empty or starts with a character that ends it. -/
lemma leadingAuthority_eq_iff (authority : Authority) :
    leadingAuthority (authority.text ++ s) = authority ↔
      ∀ c, s.head? = some c → endsAuthority c := by
  have hchars : ∀ c ∈ authority.text, (!endsAuthority c) = true := by
    intro c hc
    rw [authority.chars c hc]
    rfl
  have htake : (leadingAuthority (authority.text ++ s)).text =
      authority.text ++ s.takeWhile (!endsAuthority ·) :=
    takeWhile_append_of_pos hchars
  refine ⟨fun heq => ?_, fun hs => ?_⟩
  · rw [heq] at htake
    intro c hc
    obtain ⟨t, rfl⟩ := head?_eq_some_iff.mp hc
    by_contra hne
    rw [takeWhile_cons_of_pos (by simpa using hne)] at htake
    have := congrArg List.length htake
    simp at this
  · have hnil : s.takeWhile (!endsAuthority ·) = [] := by
      cases s with
      | nil => rfl
      | cons c t => rw [takeWhile_cons_of_neg (by simp [hs c rfl])]
    rw [hnil, append_nil] at htake
    obtain ⟨text, chars⟩ := authority
    simp only [leadingAuthority] at htake ⊢
    congr

/-- **Reading an assembled URI.** The authority comes back exactly when the text
behind it is empty or starts with a character that ends an authority. -/
theorem parse_assembled_iff {http : UriCrate} {scheme : Scheme} {authority : Authority}
    (h : Uri.parse http (scheme.text ++ ("://" ++ (authority.text ++ s))) = .ok uri) :
    uri.authority = some authority ↔ ∀ c, s.head? = some c → endsAuthority c := by
  have hauth : uri.authority = some (leadingAuthority (authority.text ++ s)) := by
    rw [Uri.parse, splitScheme_assembled] at h
    dsimp only at h
    split at h
    · cases h
      rfl
    · cases h
  rw [hauth, Option.some.injEq, leadingAuthority_eq_iff]

end Http
