import TrafficCop.Http.Host
import TrafficCop.Lib.Percent
import TrafficCop.Store.Basic

/-!
# The connection URL of the store

The URL that `create_client` of `store/valkey.rs` opens. The database would be appended to a URL
without a slash; there is none, because of `://`.
-/

namespace TrafficCop

open Rust Http Store List Option

/-- `struct ValkeyConfig`, as far as `create_client` reads it; `db` is an `i64`. -/
structure ValkeyConfig where
  endpoints : List Text
  username : Option Text := none
  password : Option Text := none
  db : ℤ := 0

namespace ValkeyStore

/-- `url.find("://")`, and `url.split_at` behind it. -/
def splitBehindScheme : Text → Option (Text × Text)
  | ':' :: '/' :: '/' :: rest => some ("://", rest)
  | c :: rest => (splitBehindScheme rest).map fun r => (c :: r.1, r.2)
  | [] => none

/-- Text inserted behind `://`, if there is one. -/
def insertAuth (url auth : Text) : Text :=
  match splitBehindScheme url with
  | some (scheme, rest) => scheme ++ auth ++ '@' :: rest
  | none => url

/-- Credentials are put in without percent-encoding, and a user name alone not at all. -/
def withAuth (config : ValkeyConfig) (url : Text) : Text :=
  if !url.contains '@' then
    match config.username, config.password with
    | some user, some pass => insertAuth url (user ++ ':' :: pass)
    | none, some pass => insertAuth url (':' :: pass)
    | _, none => url
  else url

/-- "Add database number if not 0". -/
def withDatabase (db : ℤ) (url : Text) : Text :=
  if db ≠ 0 ∧ !url.contains '/' then url ++ '/' :: (toString db).toList else url

def createClient (config : ValkeyConfig) : StoreResult Text :=
  match config.endpoints with
  | endpoint :: _ => .ok (withDatabase config.db (withAuth config endpoint))
  | [] => .error .connection

/-! ## What a URL says -/

def isSchemeChar (c : Char) : Bool := c.isAlphanum || "+-.".toList.contains c

/-- The characters that stand for themselves in user information, beside the colon. -/
def userChars : Text :=
  "ABCDEFGHIJKLMNOPQRSTUVWXYZabcdefghijklmnopqrstuvwxyz0123456789-._~!$&'()*+,;="

/-- A text spells bytes: characters stand for themselves, escapes for a byte. -/
inductive Spells (chars : Text) : Text → List UInt8 → Prop where
  | nil : Spells chars [] []
  | plain {c : Char} {s : Text} {bytes : List UInt8} (hc : c ∈ chars) (h : Spells chars s bytes) :
      Spells chars (c :: s) (String.utf8EncodeChar c ++ bytes)
  | escape {a b : Char} {byte : UInt8} {s : Text} {bytes : List UInt8}
      (hbyte : Percent.escaped a b = some byte) (h : Spells chars s bytes) :
      Spells chars ('%' :: a :: b :: s) (byte :: bytes)

/-- User information with its `@`: a user name, maybe empty, and a password behind the first colon.
-/
inductive Userinfo (user : Text) : Option Text → Text → Prop where
  | absent (h : user = []) : Userinfo user none []
  | name {u : Text} (hu : Spells userChars u (asBytes user)) : Userinfo user none (u ++ ['@'])
  | both {u p pass : Text} (hu : Spells userChars u (asBytes user))
      (hp : Spells (':' :: userChars) p (asBytes pass)) :
      Userinfo user (some pass) (u ++ ':' :: p ++ ['@'])

/-- The path that selects a database; the first one without a path. -/
inductive Database (db : ℤ) : Text → Prop where
  | first (h : db = 0) : Database db []
  | path {ds : Text} (hds : ∀ c ∈ ds, c.isDigit = true) (h : db = Nat.ofDigitChars 10 ds 0) :
      Database db ('/' :: ds)

/-- The URL is read as this endpoint, these credentials and this database. -/
def Denotes (url : Text) (hp : HostPort) (user : Text) (pass : Option Text) (db : ℤ) : Prop :=
  ∃ scheme userinfo path, url = scheme ++ "://" ++ (userinfo ++ hp.text ++ path) ∧
    (∀ c ∈ scheme, isSchemeChar c = true) ∧ Userinfo user pass userinfo ∧ Database db path

/-! ## Spelling -/

lemma utf8_of_userChars : ∀ c ∈ ':' :: userChars,
    (String.utf8EncodeChar c).length = 1 ∧ c ≠ '@' :=
  forall_char (by decide +kernel)

variable {chars s t : Text} {bytes : List UInt8}

lemma spells_of_plain (h : ∀ c ∈ s, c ∈ chars) : Spells chars s (asBytes s) := by
  induction s with
  | nil => exact .nil
  | cons c s ih =>
    obtain ⟨hc, hs⟩ := forall_mem_cons.mp h
    exact .plain hc (ih hs)

lemma length_le_asBytes (s : Text) : s.length ≤ (asBytes s).length := by
  rw [asBytes, length_flatMap]
  induction s with
  | nil => rfl
  | cons c s ih =>
    have hpos := c.utf8Size_pos
    rw [map_cons, sum_cons, String.length_utf8EncodeChar, length_cons]
    omega

lemma Spells.length_le (h : Spells chars s bytes) (hchars : chars ⊆ ':' :: userChars) :
    bytes.length ≤ s.length ∧ (s.length ≤ bytes.length → ∀ c ∈ s, c ∈ chars) := by
  induction h with
  | nil => exact ⟨le_rfl, fun _ => nofun⟩
  | plain hc _ ih =>
    have hone := (utf8_of_userChars _ (hchars hc)).1
    rw [length_append, hone, length_cons]
    exact ⟨by omega, fun hle => forall_mem_cons.mpr ⟨hc, ih.2 (by omega)⟩⟩
  | escape _ _ ih =>
    simp only [length_cons]
    exact ⟨by omega, fun hle => by omega⟩

/-- Two texts spelled where they stand have no escapes, and the colon is between them. -/
lemma plain_of_spells {u p user pass : Text} (hu : Spells userChars u (asBytes user))
    (hp : Spells (':' :: userChars) p (asBytes pass)) (heq : u ++ ':' :: p = user ++ ':' :: pass) :
    (∀ c ∈ user, c ∈ userChars) ∧ ∀ c ∈ pass, c ∈ ':' :: userChars := by
  obtain ⟨hule, huplain⟩ := hu.length_le (subset_cons_self _ _)
  obtain ⟨hple, hpplain⟩ := hp.length_le (List.Subset.refl _)
  have huser := length_le_asBytes user
  have hpass := length_le_asBytes pass
  have hlen := congrArg List.length heq
  simp only [length_append, length_cons] at hlen
  obtain ⟨rfl, htail⟩ := append_inj heq (by omega)
  obtain ⟨-, rfl⟩ := List.cons.inj htail
  exact ⟨huplain huser, hpplain hpass⟩

/-! ## The URL -/

/-- An endpoint `scheme://host[:port]`. -/
structure Endpoint where
  scheme : Text
  chars : ∀ c ∈ scheme, isSchemeChar c = true
  hostPort : HostPort

def Endpoint.text (e : Endpoint) : Text := e.scheme ++ "://" ++ e.hostPort.text

def authText (user : Option Text) (pass : Option Text) : Text :=
  pass.elim [] fun pass => user.getD [] ++ ':' :: pass ++ ['@']

lemma splitBehindScheme_append {scheme : Text} (h : ':' ∉ scheme) (rest : Text) :
    splitBehindScheme (scheme ++ "://" ++ rest) = some (scheme ++ "://", rest) := by
  induction scheme with
  | nil => rfl
  | cons c scheme ih =>
    obtain ⟨hc, hscheme⟩ := not_or.mp (mt mem_cons.mpr h)
    rw [cons_append, cons_append, splitBehindScheme, ih hscheme, map_some]
    exact fun _ h _ => absurd h.symm hc

lemma colon_notMem_scheme {scheme : Text} (h : ∀ c ∈ scheme, isSchemeChar c) :
    ':' ∉ scheme := fun hmem => absurd (h ':' hmem) (by decide)

lemma at_notMem_hostPort (hp : HostPort) : '@' ∉ hp.text :=
  at_notMem_of_authorityChars hp.mem_authorityChars

lemma at_notMem_endpoint (e : Endpoint) : '@' ∉ e.text := by
  intro hmem
  rcases mem_append.mp hmem with hmem | hmem
  · rcases mem_append.mp hmem with hmem | hmem
    · exact absurd (e.chars '@' hmem) (by decide)
    · exact absurd hmem (by decide)
  · exact at_notMem_hostPort _ hmem

lemma createClient_eq (e : Endpoint) (others : List Text) (user pass : Option Text) (db : ℤ) :
    createClient ⟨e.text :: others, user, pass, db⟩ =
      .ok (e.scheme ++ "://" ++ (authText user pass ++ e.hostPort.text)) := by
  have hat : e.text.contains '@' = false := by
    rw [contains_eq_mem, decide_eq_false (at_notMem_endpoint e)]
  have hinsert : ∀ auth, insertAuth e.text auth =
      e.scheme ++ "://" ++ (auth ++ ['@'] ++ e.hostPort.text) := by
    intro auth
    rw [insertAuth, Endpoint.text, splitBehindScheme_append (colon_notMem_scheme e.chars)]
    simp only [append_assoc, singleton_append]
  have hauth : withAuth ⟨e.text :: others, user, pass, db⟩ e.text =
      e.scheme ++ "://" ++ (authText user pass ++ e.hostPort.text) := by
    rw [withAuth, hat]
    cases pass with
    | none => cases user <;> rfl
    | some pass => cases user <;> exact hinsert _
  -- there is a slash in front of the host already
  have hslash : (e.scheme ++ "://" ++ (authText user pass ++ e.hostPort.text)).contains '/' := by
    rw [contains_eq_mem, decide_eq_true]
    exact mem_append_left _ (mem_append_right _ (by decide))
  show Except.ok (withDatabase db (withAuth _ e.text)) = _
  rw [hauth, withDatabase, hslash, if_neg fun h => absurd h.2 (by decide)]

/-! ## What it says -/

/-- Nothing, or what an `@` ends. -/
def Ends (x : Text) : Prop := x = [] ∨ ∃ y, x = y ++ ['@']

lemma cut_unique {x x' t' : Text} (hx : Ends x) (hx' : Ends x') (ht : '@' ∉ t) (ht' : '@' ∉ t')
    (h : x ++ t = x' ++ t') : x = x' ∧ t = t' := by
  have hback : ∀ {x t : Text}, Ends x → '@' ∉ t → (x ++ t).rdropWhile (· != '@') = x := by
    intro x t hx ht
    have hskip : ∀ c ∈ t.reverse, (c != '@') = true := fun c hc =>
      bne_iff_ne.mpr fun heq => ht (heq ▸ mem_reverse.mp hc)
    rw [List.rdropWhile, reverse_append, dropWhile_append_of_pos hskip]
    rcases hx with rfl | ⟨y, rfl⟩
    · rfl
    · rw [reverse_append, reverse_singleton, singleton_append,
        dropWhile_cons_of_neg (by decide), reverse_cons, reverse_reverse]
  have hsame : x = x' := by rw [← hback hx ht, h, hback hx' ht']
  exact ⟨hsame, append_cancel_left (hsame ▸ h)⟩

lemma Userinfo.ends {user : Text} {pass : Option Text} {x : Text} (h : Userinfo user pass x) :
    Ends x := by
  cases h with
  | absent _ => exact .inl rfl
  | name _ | both _ _ => exact .inr ⟨_, rfl⟩

lemma ends_authText (user pass : Option Text) : Ends (authText user pass) := by
  cases pass with
  | none => exact .inl rfl
  | some pass => exact .inr ⟨_, rfl⟩

/-- Credentials a URL holds as they are: no user name without a password, no characters that mean
something else. -/
def Plain (user : Text) : Option Text → Prop
  | none => user = []
  | some pass => (∀ c ∈ user, c ∈ userChars) ∧ ∀ c ∈ pass, c ∈ ':' :: userChars

lemma userinfo_iff (user pass : Option Text) :
    Userinfo (user.getD []) pass (authText user pass) ↔ Plain (user.getD []) pass := by
  constructor
  · intro h
    generalize htext : authText user pass = text at h
    cases h with
    | absent h => exact h
    | name hu => exact absurd htext (by simp [authText])
    | both hu hp => exact plain_of_spells hu hp (append_cancel_right htext).symm
  · intro h
    cases pass with
    | none => exact .absent h
    | some pass => exact .both (spells_of_plain h.1) (spells_of_plain h.2)

lemma denotes_iff (e : Endpoint) (user pass : Option Text) (db : ℤ) :
    Denotes (e.scheme ++ "://" ++ (authText user pass ++ e.hostPort.text)) e.hostPort
        (user.getD []) pass db ↔
      db = 0 ∧ Plain (user.getD []) pass := by
  rw [← userinfo_iff]
  constructor
  · rintro ⟨scheme, userinfo, path, heq, hscheme, huser, hdb⟩
    have hfirst := congrArg (splitBehindScheme ·) heq
    simp only [splitBehindScheme_append (colon_notMem_scheme e.chars),
      splitBehindScheme_append (colon_notMem_scheme hscheme), Option.some.injEq,
      Prod.mk.injEq] at hfirst
    have hat : '@' ∉ e.hostPort.text ++ path := by
      rw [mem_append, not_or]
      refine ⟨at_notMem_hostPort _, fun hmem => ?_⟩
      cases hdb with
      | first _ => cases hmem
      | path hds _ =>
        rcases mem_cons.mp hmem with h | h
        · cases h
        · exact absurd (hds '@' h) (by decide)
    obtain ⟨rfl, hhost⟩ := cut_unique (ends_authText user pass) huser.ends
      (at_notMem_hostPort _) hat (hfirst.2.trans (append_assoc ..))
    obtain rfl : path = [] := self_eq_append_right.mp hhost
    cases hdb with
    | first h => exact ⟨h, huser⟩
  · rintro ⟨hdb, huser⟩
    exact ⟨e.scheme, _, [], by rw [append_nil], e.chars, huser, .first hdb⟩

/-- **When the URL says what was configured**: for the first database, and for credentials that
need no escapes. -/
theorem valkey_url_iff (e : Endpoint) (others : List Text) (user pass : Option Text) (db : ℤ) :
    (∃ url, createClient ⟨e.text :: others, user, pass, db⟩ = .ok url ∧
      Denotes url e.hostPort (user.getD []) pass db) ↔ db = 0 ∧ Plain (user.getD []) pass := by
  simp only [createClient_eq, Except.ok.injEq, exists_eq_left', denotes_iff]

/-- The database is dropped, and a password with an `@` does not end where it should. -/
theorem valkey_url_unread :
    let e : Endpoint := ⟨"redis", forall_char (by decide),
      ⟨.regName "valkey" (by decide) (forall_char (by decide)), none,
        fun p h => absurd h (not_mem_none p)⟩⟩
    (createClient ⟨[e.text], none, none, 3⟩ = .ok "redis://valkey" ∧
      ¬ Denotes "redis://valkey" e.hostPort [] none 3) ∧
    createClient ⟨[e.text], none, some "p@ss", 0⟩ = .ok "redis://:p@ss@valkey" ∧
      ¬ Denotes "redis://:p@ss@valkey" e.hostPort [] (some "p@ss") 0 := by
  intro e
  refine ⟨⟨rfl, fun h => ?_⟩, rfl, fun h => ?_⟩
  · exact absurd ((denotes_iff e none none 3).mp h).1 (by decide)
  · have hplain := ((denotes_iff e none (some "p@ss") 0).mp h).2.2
    exact absurd (hplain '@' (by decide)) (by decide)

end ValkeyStore

end TrafficCop
