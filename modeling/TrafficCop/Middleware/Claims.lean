import TrafficCop.Lib.Json
import TrafficCop.Rust.Text

/-!
# The claims of a token

`parse_claims` of `middleware/builtin/jwt.rs`: a loop over the text of the payload that reads one
member at a time. It knows nothing of escapes.
-/

namespace TrafficCop

open Rust List Option

inductive ClaimValue where
  | string (s : Text)
  | number (n : Int)
  | bool (b : Bool)
  | array (items : List Text)
  | null
  deriving Repr, DecidableEq

abbrev Claims := Text → Option ClaimValue

/-- What is skipped before a member. -/
def isGap (c : Char) : Bool := isWhitespace c || c == ','

def endsNumber (c : Char) : Bool := c == ',' || c == '}' || isWhitespace c

/-- "Array - simplified handling": the items of what stands before the first `]`. -/
def arrayItems (content : Text) : List Text :=
  ((content.splitOn ',').map fun s => trimMatches '"' (trim s)).filter fun s => !s.isEmpty

/-- The value that the text starts with, and what remains. -/
def claimValue (remaining : Text) : Option (ClaimValue × Text) :=
  match remaining with
  | '"' :: rest => (splitOnce '"' rest).map fun p => (.string p.1, p.2)
  | '[' :: rest => (splitOnce ']' rest).map fun p => (.array (arrayItems p.1), p.2)
  | _ =>
    if "true".toList.isPrefixOf remaining then some (.bool true, remaining.drop 4)
    else if "false".toList.isPrefixOf remaining then some (.bool false, remaining.drop 5)
    else if "null".toList.isPrefixOf remaining then some (.null, remaining.drop 4)
    else (parseI64 (remaining.takeWhile fun c => !endsNumber c)).map fun n =>
      (.number n, remaining.dropWhile fun c => !endsNumber c)

/-- How a turn of the loop ends: with a `break`, with the `None` of a `?`, or with a member. -/
inductive ClaimStep where
  | done
  | fail
  | member (key : Text) (value : ClaimValue) (remaining : Text)

/-- An array ends at the first closing bracket. -/
def claimStep (remaining : Text) : ClaimStep :=
  match remaining.dropWhile isGap with
  | '"' :: rest =>
    -- the name ends at the next quote, escaped or not
    match splitOnce '"' rest with
    | none => .fail
    | some (key, rest) =>
      match trimStart rest with
      | ':' :: rest =>
        match claimValue (trimStart rest) with
        | none => .fail
        | some (value, rest) => .member key value rest
      -- no colon: what has been read so far is returned
      | _ => .done
  -- the end of the text, or anything that is not a name
  | _ => .done

lemma length_dropWhile_le (p : Char → Bool) (s : Text) : (s.dropWhile p).length ≤ s.length :=
  (dropWhile_suffix p).length_le

variable {s rest remaining key : Text} {v value : ClaimValue} {c : Char}

/-- What a value that was read can be: a string up to the next quote, an array up to the next
bracket, or something without text of its own. -/
lemma claimValue_cases (h : claimValue s = some (v, rest)) :
    (∃ t, s = '"' :: (t ++ '"' :: rest) ∧ '"' ∉ t ∧ v = .string t) ∨
      (∃ t, s = '[' :: (t ++ ']' :: rest) ∧ ']' ∉ t ∧ v = .array (arrayItems t)) ∨
      rest <:+ s ∧ (v = .null ∨ (∃ b, v = .bool b) ∨ ∃ n, v = .number n) := by
  unfold claimValue at h
  split at h
  · obtain ⟨⟨t, u⟩, hsplit, heq⟩ := map_eq_some_iff.mp h
    cases heq
    obtain ⟨rfl, hquote⟩ := splitOnce_eq_some_iff.mp hsplit
    exact .inl ⟨t, rfl, hquote, rfl⟩
  · obtain ⟨⟨t, u⟩, hsplit, heq⟩ := map_eq_some_iff.mp h
    cases heq
    obtain ⟨rfl, hbracket⟩ := splitOnce_eq_some_iff.mp hsplit
    exact .inr (.inl ⟨t, rfl, hbracket, rfl⟩)
  · refine .inr (.inr ?_)
    split at h
    · cases h
      exact ⟨drop_suffix _ _, .inr (.inl ⟨true, rfl⟩)⟩
    split at h
    · cases h
      exact ⟨drop_suffix _ _, .inr (.inl ⟨false, rfl⟩)⟩
    split at h
    · cases h
      exact ⟨drop_suffix _ _, .inl rfl⟩
    · obtain ⟨n, -, heq⟩ := map_eq_some_iff.mp h
      cases heq
      exact ⟨dropWhile_suffix _, .inr (.inr ⟨n, rfl⟩)⟩

lemma length_of_claimValue (h : claimValue s = some (v, rest)) : rest.length ≤ s.length := by
  rcases claimValue_cases h with ⟨t, rfl, -⟩ | ⟨t, rfl, -⟩ | ⟨hsuffix, -⟩
  · simp only [length_cons, length_append]
    omega
  · simp only [length_cons, length_append]
    omega
  · exact hsuffix.length_le

/-- What a turn of the loop that reads a member has found. -/
lemma claimStep_eq_member (h : claimStep remaining = .member key value rest) :
    ∃ s t, remaining.dropWhile isGap = '"' :: s ∧ '"' ∉ key ∧ s = key ++ '"' :: t ∧
      ∃ u, trimStart t = ':' :: u ∧ claimValue (trimStart u) = some (value, rest) := by
  unfold claimStep at h
  split at h
  · next s hs =>
    split at h
    · cases h
    · next key' t hsplit =>
      split at h
      · next u hu =>
        split at h
        · cases h
        · next value' rest' hvalue =>
          cases h
          obtain ⟨hst, hkey⟩ := splitOnce_eq_some_iff.mp hsplit
          exact ⟨s, t, hs, hkey, hst, u, hu, hvalue⟩
      · cases h
  · cases h

lemma length_of_claimStep
    (h : claimStep remaining = .member key value rest) : rest.length < remaining.length := by
  obtain ⟨s, t, hs, -, rfl, u, hu, hvalue⟩ := claimStep_eq_member h
  have h1 := length_dropWhile_le isGap remaining
  have h2 := length_dropWhile_le isWhitespace t
  have h3 := length_dropWhile_le isWhitespace u
  have h4 := length_of_claimValue hvalue
  rw [hs] at h1
  rw [show t.dropWhile isWhitespace = ':' :: u from hu] at h2
  simp only [trimStart, length_cons, length_append] at h1 h2 h3 h4
  omega

/-- Something unexpected between two members ends the loop, which returns what it has. -/
def claimsFrom (remaining : Text) (claims : Claims) : Option Claims :=
  match hstep : claimStep remaining with
  | .done => some claims
  | .fail => none
  | .member key value rest =>
    have := length_of_claimStep hstep
    claimsFrom rest (Function.update claims key (some value))
termination_by remaining.length

def parseClaims (json : Text) : Option Claims :=
  match trim json with
  | '{' :: rest => if rest.getLast? = some '}' then claimsFrom rest.dropLast fun _ => none else none
  | _ => none

lemma claimsFrom_done (h : claimStep remaining = .done) (claims : Claims) :
    claimsFrom remaining claims = some claims := by
  rw [claimsFrom]
  split <;> simp_all

lemma claimsFrom_fail (h : claimStep remaining = .fail) (claims : Claims) :
    claimsFrom remaining claims = none := by
  rw [claimsFrom]
  split <;> simp_all

lemma claimsFrom_member (h : claimStep remaining = .member key value rest) (claims : Claims) :
    claimsFrom remaining claims = claimsFrom rest (Function.update claims key (some value)) := by
  rw [claimsFrom]
  split <;> simp_all

lemma mem_splitOn {t : Text} (h : t ∈ s.splitOn c) : c ∉ t ∧ ∀ d ∈ t, d ∈ s := by
  induction s generalizing t with
  | nil =>
    rw [splitOn_nil, mem_singleton] at h
    simp [h]
  | cons d s ih =>
    rw [splitOn_cons_eq_if_modifyHead] at h
    split at h
    · rcases mem_cons.mp h with rfl | h
      · simp
      · exact ⟨(ih h).1, fun e he => mem_cons_of_mem _ ((ih h).2 e he)⟩
    · next hd =>
      -- the character goes to the front of the first part
      cases hsplit : s.splitOn c with
      | nil => exact absurd hsplit (splitOn_ne_nil c s)
      | cons u us =>
        rw [hsplit] at h ih
        rcases mem_cons.mp h with rfl | h
        · obtain ⟨hc, hmem⟩ := ih mem_cons_self
          have hne : c ≠ d := fun heq => hd (by simp [heq])
          exact ⟨by simp [hne, hc], by simpa using fun e he => .inr (hmem e he)⟩
        · obtain ⟨hc, hmem⟩ := ih (mem_cons_of_mem _ h)
          exact ⟨hc, fun e he => mem_cons_of_mem _ (hmem e he)⟩

lemma mem_trim (h : c ∈ trim s) : c ∈ s :=
  (dropWhile_sublist _).subset ((List.rdropWhile_prefix _ _).subset h)

lemma mem_trimMatches {d : Char} (h : d ∈ trimMatches c s) : d ∈ s :=
  (dropWhile_sublist _).subset ((List.rdropWhile_prefix _ _).subset h)

/-- Strings without quotes, arrays of strings that are not empty and have no comma and no
closing bracket. -/
def CleanValue : ClaimValue → Prop
  | .string s => '"' ∉ s
  | .array items => ∀ item ∈ items, item ≠ [] ∧ ',' ∉ item ∧ ']' ∉ item
  | _ => True

/-- No quote is in a name or a text. -/
def Clean (claims : Claims) : Prop :=
  ∀ key value, claims key = some value → '"' ∉ key ∧ CleanValue value

lemma cleanValue_of_claimValue (h : claimValue s = some (v, rest)) : CleanValue v := by
  rcases claimValue_cases h with ⟨t, -, hquote, rfl⟩ | ⟨t, -, hbracket, rfl⟩ | ⟨-, hv⟩
  · exact hquote
  · intro item hitem
    obtain ⟨hmap, hne⟩ := mem_filter.mp hitem
    obtain ⟨u, hu, rfl⟩ := mem_map.mp hmap
    obtain ⟨hcomma, hsub⟩ := mem_splitOn hu
    exact ⟨by simpa using hne, fun h => hcomma (mem_trim (mem_trimMatches h)),
      fun h => hbracket (hsub _ (mem_trim (mem_trimMatches h)))⟩
  · rcases hv with rfl | ⟨b, rfl⟩ | ⟨n, rfl⟩ <;> trivial

lemma clean_claimsFrom {claims result : Claims} (hclean : Clean claims)
    (h : claimsFrom remaining claims = some result) : Clean result := by
  induction remaining, claims using claimsFrom.induct with
  | case1 remaining claims hstep =>
    rw [claimsFrom_done hstep] at h
    cases h
    exact hclean
  | case2 remaining claims hstep =>
    rw [claimsFrom_fail hstep] at h
    cases h
  | case3 remaining claims key value rest hstep _ ih =>
    rw [claimsFrom_member hstep] at h
    refine ih ?_ h
    obtain ⟨s, t, -, hkey, -, u, -, hvalue⟩ := claimStep_eq_member hstep
    intro key' value' hget
    by_cases heq : key' = key
    · subst heq
      rw [Function.update_self] at hget
      cases hget
      exact ⟨hkey, cleanValue_of_claimValue hvalue⟩
    · rw [Function.update_of_ne heq] at hget
      exact hclean key' value' hget

lemma clean_parseClaims {json : Text} {claims : Claims} (h : parseClaims json = some claims) :
    Clean claims := by
  unfold parseClaims at h
  split at h
  · split at h
    · exact clean_claimsFrom (by rintro key value ⟨⟩) h
    · cases h
  · cases h

end TrafficCop
