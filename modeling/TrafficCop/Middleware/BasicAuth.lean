import TrafficCop.Config.Types
import TrafficCop.Middleware.Base64
import TrafficCop.Middleware.Digest

/-!
# Basic authentication

`BasicAuthMiddleware` of `middleware/builtin/basic_auth.rs`.
-/

namespace TrafficCop

open Rust Http List Option

/-- Of several entries for a user the last one is kept. -/
structure BasicAuthMiddleware where
  users : HashMap Text Text
  realm : Text
  wwwAuthenticate : HeaderValue

namespace BasicAuthMiddleware

/-- `BasicAuthMiddleware::new`. The `unwrap` panics on a realm with a control character. -/
def new (config : BasicAuthConfig) : Outcome Empty BasicAuthMiddleware := do
  -- `splitn(2, ':')` with both parts, so an entry without a colon is left out
  let users := HashMap.collect (config.users.filterMap (splitOnce ':'))
  let realm := config.realm.getD "Restricted"
  let wwwAuthenticate ← Outcome.unwrap
    (HeaderValue.fromStr ("Basic realm=\"" ++ realm ++ "\""))
  return { users, realm, wwwAuthenticate }

lemma exists_new_iff {config : BasicAuthConfig} :
    (∃ m, new config = .ok m) ↔
      ∀ b ∈ asBytes (config.realm.getD "Restricted"), isValidByte b = true := by
  have hquoted : ∀ b ∈ asBytes "Basic realm=\"" ++ asBytes "\"", isValidByte b = true :=
    all_eq_true.mp (by decide +kernel)
  have hnew : (∃ m, new config = .ok m) ↔
      ∃ v, HeaderValue.fromStr ("Basic realm=\"" ++ config.realm.getD "Restricted" ++ "\"") =
        some v := by
    unfold new
    simp only [Outcome.bind_eq_ok, Outcome.unwrap_eq_ok]
    exact ⟨fun ⟨_, v, hv, _⟩ => ⟨v, hv⟩, fun ⟨v, hv⟩ => ⟨_, v, hv, rfl⟩⟩
  rw [hnew, ← Option.isSome_iff_exists, HeaderValue.isSome_fromStr_iff]
  simp only [asBytes, flatMap_append, mem_append] at hquoted ⊢
  exact ⟨fun h b hb => h b (.inl (.inr hb)), fun h b hb =>
    hb.elim (fun hb => hb.elim (fun hb => hquoted b (.inl hb)) (h b)) fun hb => hquoted b (.inr hb)⟩

variable (m : BasicAuthMiddleware)

def verify (username password : Text) : Bool :=
  match m.users.get username with
  | some stored =>
    -- "for now just compare directly"
    if "$apr1$".toList.isPrefixOf stored || "$2".toList.isPrefixOf stored then stored == password
    else constantTimeCompare stored password
  | none => false

def credentials (header : HeaderValue) : Option (Text × Text) := do
  let auth ← header.toStr
  let encoded ← stripPrefix "Basic " auth
  let decoded ← BasicAuth.base64Decode encoded
  splitOnce ':' decoded

def isAuthenticated (headers : HeaderMap) : Bool :=
  match (headers.get "authorization").bind credentials with
  | some (username, password) => m.verify username password
  | none => false

def unauthorizedResponse : Response where
  status := 401
  headers := ⟨[("www-authenticate", m.wwwAuthenticate)]⟩

/-! ## The users -/

def entriesFor (users : List Text) (user : Text) : List Text :=
  users.filter ((user ++ [':']).isPrefixOf ·)

variable {user password : Text} {m : BasicAuthMiddleware}

lemma isPrefixOf_iff {entry : Text} :
    (user ++ [':']).isPrefixOf entry ↔ ∃ password, entry = user ++ ':' :: password := by
  rw [List.isPrefixOf_iff_prefix]
  constructor
  · intro h
    obtain ⟨password, rfl⟩ := h
    exact ⟨password, by rw [append_assoc, singleton_append]⟩
  · intro h
    obtain ⟨password, rfl⟩ := h
    exact ⟨password, by rw [append_assoc, singleton_append]⟩

lemma filter_pairs (users : List Text) (huser : ':' ∉ user) :
    ((users.filterMap (splitOnce ':')).filter fun p => p.1 = user) =
      (entriesFor users user).map fun entry => (user, entry.drop (user.length + 1)) := by
  induction users with
  | nil => rfl
  | cons entry users ih =>
    by_cases hentry : ∃ password, entry = user ++ ':' :: password
    · obtain ⟨password, rfl⟩ := hentry
      have hdrop : (user ++ ':' :: password).drop (user.length + 1) = password := by simp
      rw [filterMap_cons_some (splitOnce_append password huser),
        filter_cons_of_pos (by simp), ih, entriesFor, entriesFor,
        filter_cons_of_pos (isPrefixOf_iff.mpr ⟨password, rfl⟩), map_cons, hdrop]
    · rw [entriesFor, filter_cons_of_neg (mt isPrefixOf_iff.mp hentry), ← entriesFor, ← ih]
      rcases hsplit : splitOnce ':' entry with _ | ⟨user', password⟩
      · rw [filterMap_cons_none hsplit]
      · -- the entry of another user
        rw [filterMap_cons_some hsplit, filter_cons_of_neg]
        intro hsame
        obtain rfl : user' = user := of_decide_eq_true hsame
        exact hentry ⟨password, (splitOnce_eq_some_iff.mp hsplit).1⟩

lemma users_get {config : BasicAuthConfig} (hnew : new config = .ok m) (huser : ':' ∉ user) :
    m.users.get user = some password ↔
      (entriesFor config.users user).getLast? = some (user ++ ':' :: password) := by
  obtain ⟨value, -, hm⟩ := Outcome.bind_eq_ok.mp hnew
  have husers : m.users = HashMap.collect (config.users.filterMap (splitOnce ':')) := by
    cases hm
    rfl
  rw [husers, HashMap.get_collect_eq, filter_pairs _ huser, List.getLast?_map, Option.map_map,
    map_eq_some_iff]
  constructor
  · intro h
    obtain ⟨entry, hlast, hdrop⟩ := h
    obtain ⟨password', rfl⟩ := isPrefixOf_iff.mp (mem_filter.mp (mem_of_getLast? hlast)).2
    obtain rfl : password' = password := by simpa using hdrop
    exact hlast
  · intro h
    exact ⟨_, h, by simp⟩

/-! ## The requests -/

lemma verify_iff {username : Text} :
    m.verify username password ↔ m.users.get username = some password := by
  unfold verify
  cases m.users.get username with
  | none => simp
  | some stored =>
    rw [Option.some.injEq]
    show (if _ then _ else _) = true ↔ _
    split
    · exact beq_iff_eq
    · exact constantTimeCompare_iff

/-- A request presents the Base64 of `user:password`. -/
def basicHeader (user password : Text) : Text :=
  "Basic " ++ Base64.encode .standard (asBytes (user ++ ':' :: password))

lemma isVisibleAscii_basicHeader (user password : Text) :
    ∀ b ∈ asBytes (basicHeader user password), isVisibleAscii b := by
  have hall : ("Basic =" ++ Base64.Alphabet.standard.chars).all
      (fun c => (String.utf8EncodeChar c).all isVisibleAscii) = true := by
    decide +kernel
  intro b hb
  obtain ⟨c, hc, hb⟩ := mem_flatMap.mp hb
  refine all_eq_true.mp (all_eq_true.mp hall c ?_) b hb
  unfold basicHeader Base64.encode at hc
  rcases mem_append.mp hc with hc | hc
  · exact mem_append_left _ (mem_of_mem_dropLast hc)
  · rcases mem_append.mp hc with hc | hc
    · exact mem_append_right _ (Base64.mem_encodeUnpadded hc)
    · rw [eq_of_mem_replicate hc]
      decide

lemma credentials_basicHeader (huser : ':' ∉ user) {value : HeaderValue}
    (hvalue : value.bytes = asBytes (basicHeader user password)) :
    credentials value = some (user, password) := by
  have hstrip : stripPrefix "Basic " (basicHeader user password) =
      some (Base64.encode .standard (asBytes (user ++ ':' :: password))) := stripPrefix_append _ _
  rw [credentials, HeaderValue.toStr_of_bytes hvalue (isVisibleAscii_basicHeader user password)]
  simp only [bind_eq_bind, bind_some]
  rw [hstrip, bind_some, BasicAuth.base64Decode_encoded, bind_some, splitOnce_append password huser]

/-- **Basic authentication decides on the credentials**: those of the last entry for the user are
accepted, and no others. -/
theorem isAuthenticated_iff {config : BasicAuthConfig} {m : BasicAuthMiddleware}
    (hnew : new config = .ok m) {user password : Text} (huser : ':' ∉ user) {headers : HeaderMap}
    {value : HeaderValue} (hget : headers.get "authorization" = some value)
    (hvalue : value.bytes = asBytes (basicHeader user password)) :
    m.isAuthenticated headers = true ↔
      (entriesFor config.users user).getLast? = some (user ++ ':' :: password) := by
  rw [isAuthenticated, hget, bind_some, credentials_basicHeader huser hvalue,
    ← users_get hnew huser, ← verify_iff]

def annTwice : BasicAuthConfig where
  users := ["ann:x", "ann:p:q"]

theorem isAuthenticated_ann :
    ∃ m value, new annTwice = .ok m ∧ value.bytes = asBytes "Basic YW5uOnA6cQ==" ∧
      m.isAuthenticated ⟨[("authorization", value)]⟩ = true := by
  have hbytes : ∀ b ∈ asBytes "Basic YW5uOnA6cQ==", isValidByte b :=
    isValidByte_of_all (by decide +kernel)
  obtain ⟨m, hm⟩ : ∃ m, new annTwice = .ok m := by
    rw [new, HeaderValue.fromStr_eq_some (isValidByte_of_all (by decide +kernel))]
    exact ⟨_, rfl⟩
  have htext : "Basic YW5uOnA6cQ==" = basicHeader "ann" "p:q" := by
    decide +kernel
  refine ⟨m, ⟨_, hbytes⟩, hm, rfl, ?_⟩
  exact (@isAuthenticated_iff annTwice m hm "ann" "p:q" (by decide) _ _ rfl
    (congrArg asBytes htext)).mpr rfl

end BasicAuthMiddleware

end TrafficCop
