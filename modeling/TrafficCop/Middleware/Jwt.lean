import Mathlib.Data.Rat.Cast.Order
import TrafficCop.Middleware.ClaimsFaithful

/-!
# The JWT middleware

`validate_token` of `middleware/builtin/jwt.rs`. The clock (`now`, in seconds) is an argument; the
hash functions and `str::to_uppercase` are parameters, of which nothing is assumed.
-/

namespace TrafficCop

open Rust Json List

inductive JwtAlgorithm where
  | hs256
  | hs384
  | hs512
  | none
  deriving Repr, DecidableEq

/-- The fields of `JwtMiddleware` that the validation of a token reads. -/
structure JwtMiddleware where
  secret : Option (List UInt8) := none
  algorithm : JwtAlgorithm
  issuer : Option Text := none
  audience : Option Text := none

structure JwtHeader where
  alg : Text
  typ : Option Text
  deriving Repr, DecidableEq

abbrev JwtError := UInt16 × Text

def orError {α : Type} (x : Option α) (status : UInt16) (message : String) : Except JwtError α :=
  match x with
  | some a => .ok a
  | none => .error (status, message.toList)

/-! ## Decoding -/

def base64Alphabet : Text :=
  "ABCDEFGHIJKLMNOPQRSTUVWXYZabcdefghijklmnopqrstuvwxyz0123456789-_"

def charByte (c : Char) : UInt8 := UInt8.ofNat c.toNat

/-- `char_to_val` of `basic_auth.rs` and `jwt.rs`, which have an alphabet each. -/
def charToVal (alphabet : Text) (c : UInt8) : Option ℕ := (alphabet.map charByte).idxOf? c

/-- One turn of the loops of the decoders: a byte is pushed if the buffer has eight bits. -/
def pushBits (buffer : UInt32) (bits : ℕ) (val : ℕ) : Option UInt8 × UInt32 × ℕ :=
  let buffer := buffer <<< 6 ||| UInt32.ofNat val
  let bits := bits + 6
  if bits ≥ 8 then
    let bits := bits - 8
    (some (buffer >>> UInt32.ofNat bits).toUInt8, buffer &&& ((1 <<< UInt32.ofNat bits) - 1), bits)
  else (none, buffer, bits)

/-- The loop of both; a byte outside the alphabet ends it with `None`, and the bits that remain at
the end are dropped without a check. -/
def decodeLoop (alphabet : Text) : List UInt8 → UInt32 → ℕ → Option (List UInt8)
  | [], _, _ => some []
  | byte :: bytes, buffer, bits => do
    let val ← charToVal alphabet byte
    let (pushed, buffer, bits) := pushBits buffer bits val
    let result ← decodeLoop alphabet bytes buffer bits
    return pushed.toList ++ result

def base64UrlDecodeBytes (input : Text) : Option (List UInt8) :=
  let input := input.rdropWhile (· == '=')
  if input.isEmpty then some [] else decodeLoop base64Alphabet (asBytes input) 0 0

def base64UrlDecode (input : Text) : Option Text := (base64UrlDecodeBytes input).bind fromUtf8

/-- The fields of a header: `alg` and `typ` so far, and one more pair. -/
def headerField (fields : Option Text × Option Text) (pair : Text) :
    Option (Option Text × Option Text) :=
  (splitOnce ':' (trim pair)).map fun p =>
    let key := trimMatches '"' (trim p.1)
    let value := trimMatches '"' (trim p.2)
    if key = "alg" then (some value, fields.2)
    else if key = "typ" then (fields.1, some value)
    else fields

def parseJsonObject (json : Text) : Option JwtHeader :=
  match trim json with
  | '{' :: rest =>
    if rest.getLast? = some '}' then
      ((rest.dropLast.splitOn ',').foldlM headerField (none, none)).bind fun fields =>
        fields.1.map fun alg => ⟨alg, fields.2⟩
    else none
  | _ => none

def algorithmNamed (name : Text) : Option JwtAlgorithm :=
  if name = "HS256" then some .hs256
  else if name = "HS384" then some .hs384
  else if name = "HS512" then some .hs512
  else if name = "NONE" then some .none
  else none

/-! ## Claims -/

def numberClaim (claims : Claims) (name : String) : Option Int :=
  match claims name.toList with
  | some (.number n) => some n
  | _ => none

def asU64 (n : Int) : Nat := (n % 2 ^ 64).toNat

def issuerMatches (issuer : Option Text) (claims : Claims) : Bool :=
  match issuer with
  | none => true
  | some expected => claims "iss" == some (.string expected)

def audienceMatches (audience : Option Text) (claims : Claims) : Bool :=
  match audience with
  | none => true
  | some expected =>
    match claims "aud" with
    | some (.string aud) => aud == expected
    | some (.array auds) => auds.contains expected
    | _ => false

namespace JwtMiddleware

/-- The part of `validate_token` behind the signature. -/
def validatePayload (m : JwtMiddleware) (now : UInt64) (payload : Text) : Except JwtError Claims :=
  match parseClaims payload with
  | none => .error (401, "Invalid JWT claims")
  | some claims =>
    -- a claim of another type is not looked at, and a negative number is cast
    if (numberClaim claims "exp").any fun exp => asU64 exp < now.toNat then
      .error (401, "Token expired")
    else if (numberClaim claims "nbf").any fun nbf => now.toNat < asU64 nbf then
      .error (401, "Token not yet valid")
    else if !issuerMatches m.issuer claims then .error (401, "Invalid issuer")
    else if !audienceMatches m.audience claims then .error (401, "Invalid audience")
    else .ok claims

section Tokens

variable (hmac : JwtAlgorithm → List UInt8 → List UInt8 → List UInt8) (toUppercase : Text → Text)

def constantTimeCompare (a b : List UInt8) : Bool :=
  if a.length ≠ b.length then false
  else (a.zip b).foldl (fun result p => result ||| (p.1 ^^^ p.2)) 0 == 0

def verifySignature (m : JwtMiddleware) (header payload signature : Text) :
    Except JwtError Unit :=
  if m.algorithm = .none then .ok ()
  else do
    let secret ← orError m.secret 500 "No secret configured"
    let message := (String.ofList (header ++ '.' :: payload)).toUTF8.toList
    let actual ← orError (base64UrlDecodeBytes signature) 401 "Invalid signature encoding"
    if constantTimeCompare (hmac m.algorithm secret message) actual then .ok ()
    else .error (401, "Invalid signature")

/-- The token is taken apart, its header decides on the algorithm, its signature is checked, and the
claims are validated: first the times, then issuer and audience. -/
def validateToken (m : JwtMiddleware) (now : UInt64) (token : Text) : Except JwtError Claims :=
  match token.splitOn '.' with
  | [header64, payload64, signature64] => do
    let headerJson ← orError (base64UrlDecode header64) 401 "Invalid JWT header encoding"
    let header ← orError (parseJsonObject headerJson) 401 "Invalid JWT header"
    match algorithmNamed (toUppercase header.alg) with
    | none => .error (401, "Unsupported algorithm: " ++ header.alg)
    | some algorithm =>
      -- so the algorithm `none` passes only where it is configured
      if algorithm ≠ m.algorithm then .error (401, "Algorithm mismatch")
      else do
        verifySignature hmac m header64 payload64 signature64
        let payload ← orError (base64UrlDecode payload64) 401 "Invalid JWT payload encoding"
        m.validatePayload now payload
  | _ => .error (401, "Invalid JWT format")

def payloadText (token : Text) : Option Text :=
  match token.splitOn '.' with
  | [_, payload64, _] => base64UrlDecode payload64
  | _ => none

lemma orError_eq_ok {α : Type} {x : Option α} {status : UInt16} {message : String} {a : α}
    (h : orError x status message = .ok a) : x = some a := by
  cases x with
  | none => cases h
  | some b =>
    cases h
    rfl

lemma bind_eq_ok {α β : Type} {x : Except JwtError α} {f : α → Except JwtError β} {b : β}
    (h : (x >>= f) = .ok b) : ∃ a, x = .ok a ∧ f a = .ok b := by
  cases x with
  | error e => cases h
  | ok a => exact ⟨a, rfl, h⟩

lemma validateToken_ok {m : JwtMiddleware} {now : UInt64} {token : Text} {claims : Claims}
    (h : m.validateToken hmac toUppercase now token = .ok claims) :
    ∃ payload, payloadText token = some payload ∧ m.validatePayload now payload = .ok claims := by
  unfold validateToken at h
  split at h
  · next header64 payload64 signature64 hparts =>
    obtain ⟨headerJson, -, h⟩ := bind_eq_ok h
    obtain ⟨header, -, h⟩ := bind_eq_ok h
    split at h
    · cases h
    · split at h
      · cases h
      · obtain ⟨-, -, h⟩ := bind_eq_ok h
        obtain ⟨payload, hpayload, h⟩ := bind_eq_ok h
        refine ⟨payload, ?_, h⟩
        rw [payloadText, hparts]
        exact orError_eq_ok hpayload
  · cases h

end Tokens

end JwtMiddleware

/-! ## Times -/

def memberNamed (d : Document) (name : String) : Option Value := d.lookup (codePoints name.toList)

/-- The times of the payload have come and are not over. -/
def Window (d : Document) (now : Nat) : Prop :=
  (∀ v, memberNamed d "exp" = some v → ∃ n, v = .number n ∧ now ≤ n.value) ∧
    ∀ v, memberNamed d "nbf" = some v → ∃ n, v = .number n ∧ n.value ≤ now

/-- The payload is read to its end, or to a value that is refused, and no time is hidden by an
escape in its name. -/
def TimesReadable (d : Document) : Prop :=
  ∀ m ∈ reached d.members, MemberInStep m ∧
    (decode m.name = codePoints "exp" ∨ decode m.name = codePoints "nbf" → Plain m.name)

/-- A value for which the payload is refused. -/
def Refused : Value → Prop
  | .object _ _ => True
  | .number n => fitsI64 n = false
  | _ => False

lemma refused_iff {v : Value} : Refused v ↔ readValue v = none := by
  cases v <;> simp [Refused, readValue]

variable {claims : Claims} {name : String} {n : Number}

lemma claim_named {d : Document} (hstep : ∀ m ∈ reached d.members, MemberInStep m)
    (hparse : parseClaims d.text = some claims) (hname : '\\' ∉ name.toList)
    (hplain : ∀ m ∈ d.members, decode m.name = codePoints name.toList → Plain m.name) :
    claims name.toList = (memberNamed d name).bind readValue := by
  refine claim_eq hstep hparse fun m hm => ⟨fun heq => ?_, fun heq => ?_⟩
  · exact (decode_name_iff (hplain m hm heq) _).mp heq
  · exact (decode_name_iff (plain_of_backslash (heq ▸ hname)) _).mpr heq

def numberNamed (d : Document) (name : String) : Option Number :=
  match memberNamed d name with
  | some (.number n) => some n
  | _ => none

lemma numberClaim_eq {d : Document} (h : claims name.toList = (memberNamed d name).bind readValue)
    (hread : ∀ m ∈ d.members, ¬Refused m.value) :
    numberClaim claims name = (numberNamed d name).map (·.int) := by
  rw [numberClaim, numberNamed, h]
  cases hmember : memberNamed d name with
  | none => rfl
  | some v =>
    obtain ⟨m, hm, rfl⟩ := Document.mem_of_lookup hmember
    have hnot := hread m hm
    cases hvalue : m.value with
    | number n =>
      rw [hvalue, Refused, Bool.not_eq_false] at hnot
      simp [readValue, hnot]
    | object pad members =>
      rw [hvalue] at hnot
      exact absurd trivial hnot
    | _ => rfl

/-- The times that are numbers admit the clock, in the arithmetic of the code. -/
def Admits (d : Document) (now : Nat) : Prop :=
  (∀ e, numberNamed d "exp" = some e → now ≤ asU64 e.int) ∧
    ∀ n, numberNamed d "nbf" = some n → asU64 n.int ≤ now

lemma any_lt_eq_true_iff {x : Option Number} {p : Int → Prop} [DecidablePred p] :
    ((x.map (·.int)).any fun n => decide (p n)) = true ↔ ∃ n, x = some n ∧ p n.int := by
  cases x <;> simp

section Payloads

variable {d : Document} (hread : TimesReadable d)

include hread

lemma times_eq (hparse : parseClaims d.text = some claims) :
    (∀ m ∈ d.members, ¬Refused m.value) ∧
      numberClaim claims "exp" = (numberNamed d "exp").map (·.int) ∧
      numberClaim claims "nbf" = (numberNamed d "nbf").map (·.int) := by
  have hstep : ∀ m ∈ reached d.members, MemberInStep m := fun m hm => (hread m hm).1
  have hreads := readValue_ne_none hstep hparse
  have hnot : ∀ m ∈ d.members, ¬Refused m.value := fun m hm => mt refused_iff.mp (hreads m hm)
  rw [TimesReadable, reached_eq_self hreads] at hread
  refine ⟨hnot, numberClaim_eq (claim_named hstep hparse (by decide) ?_) hnot,
    numberClaim_eq (claim_named hstep hparse (by decide) ?_) hnot⟩
  · exact fun m hm heq => (hread m hm).2 (.inl heq)
  · exact fun m hm heq => (hread m hm).2 (.inr heq)

lemma admits_of_ok {m : JwtMiddleware} {now : UInt64}
    (h : m.validatePayload now d.text = .ok claims) :
    (∀ m ∈ d.members, ¬Refused m.value) ∧ Admits d now.toNat := by
  unfold JwtMiddleware.validatePayload at h
  split at h
  · cases h
  · next claims' hparse =>
    obtain ⟨hnot, hexp, hnbf⟩ := times_eq hread hparse
    rw [hexp, hnbf] at h
    split at h
    · cases h
    · next hnotExpired =>
      split at h
      · cases h
      · next hvalid =>
        refine ⟨hnot, fun e he => ?_, fun n hn => ?_⟩
        · by_contra hlt
          exact hnotExpired (any_lt_eq_true_iff.mpr ⟨e, he, by omega⟩)
        · by_contra hlt
          exact hvalid (any_lt_eq_true_iff.mpr ⟨n, hn, by omega⟩)

lemma ok_of_admits {m : JwtMiddleware} (hissuer : m.issuer = none) (haudience : m.audience = none)
    {now : UInt64} (hnot : ∀ m ∈ d.members, ¬Refused m.value) (hadmits : Admits d now.toNat) :
    ∃ claims, m.validatePayload now d.text = .ok claims := by
  have hstep : ∀ m ∈ reached d.members, MemberInStep m := fun m hm => (hread m hm).1
  cases hparse : parseClaims d.text with
  | none =>
    rw [parseClaims_text hstep] at hparse
    obtain ⟨m, hm, hnone⟩ := readMembers_eq_none_iff.mp hparse
    exact absurd (refused_iff.mpr hnone) (hnot m hm)
  | some claims =>
    obtain ⟨-, hexp, hnbf⟩ := times_eq hread hparse
    refine ⟨claims, ?_⟩
    simp only [JwtMiddleware.validatePayload, hparse]
    rw [hexp, hnbf, if_neg, if_neg, hissuer, haudience]
    · rfl
    · rintro hany
      obtain ⟨n, hn, hlt⟩ := any_lt_eq_true_iff.mp hany
      have hle := hadmits.2 n hn
      omega
    · intro hany
      obtain ⟨e, he, hlt⟩ := any_lt_eq_true_iff.mp hany
      have hle := hadmits.1 e he
      omega

end Payloads

lemma asU64_of_nonneg {n : Int} (h : 0 ≤ n) (hlt : n < 2 ^ 63) : (asU64 n : Int) = n := by
  rw [asU64]
  omega

/-- The condition: the payload is refused for one of its values, or its times are numbers and
the expiration time is not negative, or both are negative and exclude each other. -/
def SoundTimes (d : Document) : Prop :=
  (∃ m ∈ d.members, Refused m.value) ∨
    ((∀ v, memberNamed d "exp" = some v → ∃ n, v = .number n ∧ 0 ≤ n.value) ∧
      ∀ v, memberNamed d "nbf" = some v → ∃ n, v = .number n) ∨
    ∃ e n, memberNamed d "exp" = some (.number e) ∧ memberNamed d "nbf" = some (.number n) ∧
      e.value < n.value ∧ n.value < 0

lemma numberNamed_eq_some_iff {d : Document} :
    numberNamed d name = some n ↔ memberNamed d name = some (.number n) := by
  rw [numberNamed]
  cases memberNamed d name with
  | none => simp
  | some v => cases v <;> simp

lemma value_of_named {d : Document} (hnot : ∀ m ∈ d.members, ¬Refused m.value)
    (h : memberNamed d name = some (.number n)) :
    n.value = n.int ∧ -2 ^ 63 ≤ n.int ∧ n.int < 2 ^ 63 := by
  obtain ⟨m, hm, hvalue⟩ := Document.mem_of_lookup h
  have hfits := hnot m hm
  rw [hvalue, Refused, Bool.not_eq_false, fitsI64, Bool.and_eq_true_iff,
    Bool.and_eq_true_iff] at hfits
  exact ⟨Number.value_of_isInteger hfits.1, of_decide_eq_true hfits.2.1,
    of_decide_eq_true hfits.2.2⟩

section NotRefused

variable {d : Document} (hnot : ∀ m ∈ d.members, ¬Refused m.value)

include hnot

variable {name : String} {n e : Number} {now : Nat}

/-- The check of a non-negative expiration time is the comparison that was meant. -/
lemma le_exp_of_cast (h : memberNamed d name = some (.number n))
    (hpos : 0 ≤ n.value) (hle : now ≤ asU64 n.int) : (now : ℚ) ≤ n.value := by
  obtain ⟨hvalue, -, hhigh⟩ := value_of_named hnot h
  rw [hvalue] at hpos ⊢
  have hcast := asU64_of_nonneg (by exact_mod_cast hpos) hhigh
  have hint : (now : Int) ≤ n.int := by omega
  exact_mod_cast hint

/-- So is that of any start time: a negative one is before any clock. -/
lemma nbf_le_of_cast (h : memberNamed d name = some (.number n))
    (hle : asU64 n.int ≤ now) : n.value ≤ (now : ℚ) := by
  obtain ⟨hvalue, -, hhigh⟩ := value_of_named hnot h
  have hint : n.int ≤ (now : Int) := by
    by_cases hneg : n.int < 0
    · omega
    · have hcast := asU64_of_nonneg (by omega) hhigh
      omega
  rw [hvalue]
  exact_mod_cast hint

lemma cast_lt_iff {name' : String}
    (he : memberNamed d name = some (.number e)) (hn : memberNamed d name' = some (.number n)) :
    asU64 e.int < asU64 n.int ↔
      (0 ≤ e.value ∧ (e.value < n.value ∨ n.value < 0)) ∨ e.value < n.value ∧ n.value < 0 := by
  obtain ⟨hvaluee, hlowe, hhighe⟩ := value_of_named hnot he
  obtain ⟨hvaluen, hlown, hhighn⟩ := value_of_named hnot hn
  rw [hvaluee, hvaluen]
  norm_cast
  rw [asU64, asU64]
  omega

lemma window_of_admits (hsound : SoundTimes d) (hadmits : Admits d now) : Window d now := by
  rcases hsound with ⟨m, hm, hrefused⟩ | ⟨hexp, hnbf⟩ | ⟨e, n, he, hn, hlt, hneg⟩
  · exact absurd hrefused (hnot m hm)
  · constructor
    · intro v hv
      obtain ⟨n, rfl, hpos⟩ := hexp v hv
      exact ⟨n, rfl, le_exp_of_cast hnot hv hpos (hadmits.1 n (numberNamed_eq_some_iff.mpr hv))⟩
    · intro v hv
      obtain ⟨n, rfl⟩ := hnbf v hv
      exact ⟨n, rfl, nbf_le_of_cast hnot hv (hadmits.2 n (numberNamed_eq_some_iff.mpr hv))⟩
  · -- both casts are large, and in the order of the times: no clock is admitted
    have hcast := (cast_lt_iff hnot he hn).mpr (.inr ⟨hlt, hneg⟩)
    have hle := hadmits.1 e (numberNamed_eq_some_iff.mpr he)
    have hge := hadmits.2 n (numberNamed_eq_some_iff.mpr hn)
    omega

lemma sound_of_cast_lt (he : memberNamed d "exp" = some (.number e))
    (hn : memberNamed d "nbf" = some (.number n)) (hlt : asU64 e.int < asU64 n.int) :
    SoundTimes d := by
  rcases (cast_lt_iff hnot he hn).mp hlt with ⟨hpos, -⟩ | hneg
  · refine .inr (.inl ⟨fun v hv => ?_, fun v hv => ?_⟩)
    · rw [he] at hv
      cases hv
      exact ⟨e, rfl, hpos⟩
    · rw [hn] at hv
      cases hv
      exact ⟨n, rfl⟩
  · exact .inr (.inr ⟨e, n, he, hn, hneg⟩)

end NotRefused

def firstClock (d : Document) : Nat := ((numberNamed d "nbf").map fun n => asU64 n.int).getD 0

lemma asU64_lt (n : Int) : asU64 n < 2 ^ 64 := by
  rw [asU64]
  omega

lemma cast_lt_of_not_admits {d : Document} (h : ¬Admits d (firstClock d)) :
    ∃ e n, memberNamed d "exp" = some (.number e) ∧ memberNamed d "nbf" = some (.number n) ∧
      asU64 e.int < asU64 n.int := by
  cases hnbf : numberNamed d "nbf" with
  | none =>
    refine absurd ⟨fun e _ => ?_, fun n hn => ?_⟩ h
    · simp [firstClock, hnbf]
    · rw [hnbf] at hn
      cases hn
  | some n =>
    have hfirst : firstClock d = asU64 n.int := by simp [firstClock, hnbf]
    by_contra hnone
    refine h ⟨fun e he => ?_, fun n' hn' => ?_⟩
    · rw [hfirst]
      by_contra hlt
      exact hnone ⟨e, n, numberNamed_eq_some_iff.mp he, numberNamed_eq_some_iff.mp hnbf,
        Nat.lt_of_not_le hlt⟩
    · rw [hnbf] at hn'
      cases hn'
      exact Nat.le_of_eq hfirst.symm

lemma sound_of_window {d : Document} (hnot : ∀ m ∈ d.members, ¬Refused m.value)
    (h : ∀ now : UInt64, Admits d now.toNat → Window d now.toNat) : SoundTimes d := by
  have hclock : (UInt64.ofNat (firstClock d)).toNat = firstClock d := by
    refine UInt64.toNat_ofNat_of_lt' ?_
    rw [firstClock]
    cases numberNamed d "nbf" with
    | none => decide
    | some n => exact asU64_lt n.int
  by_cases hadmits : Admits d (firstClock d)
  · -- accepted at some time, and so the times are what they should be
    have hwindow := h (UInt64.ofNat (firstClock d)) (by rwa [hclock])
    refine .inr (.inl ⟨fun v hv => ?_, fun v hv => ?_⟩)
    · obtain ⟨n, rfl, hle⟩ := hwindow.1 v hv
      exact ⟨n, rfl, le_trans (Nat.cast_nonneg _) hle⟩
    · obtain ⟨n, rfl, -⟩ := hwindow.2 v hv
      exact ⟨n, rfl⟩
  · -- never accepted: the expiration time is before the start time, as cast
    obtain ⟨e, n, he, hn, hlt⟩ := cast_lt_of_not_admits hadmits
    exact sound_of_cast_lt hnot he hn hlt

/-- **Which payloads are accepted only within their window**, of those that are read to their ends
or refused before.
Where the condition fails, some configuration accepts the payload at some time outside the window.
-/
theorem window_iff (d : Document) (hread : TimesReadable d) :
    (SoundTimes d → ∀ hmac toUppercase (m : JwtMiddleware) (now : UInt64) token claims,
      JwtMiddleware.payloadText token = some d.text →
        m.validateToken hmac toUppercase now token = .ok claims → Window d now.toNat) ∧
    ((∀ (m : JwtMiddleware) (now : UInt64) claims,
      m.validatePayload now d.text = .ok claims → Window d now.toNat) ↔ SoundTimes d) := by
  have hpayload : SoundTimes d → ∀ (m : JwtMiddleware) (now : UInt64) claims,
      m.validatePayload now d.text = .ok claims → Window d now.toNat := by
    intro hsound m now claims hok
    obtain ⟨hnot, hadmits⟩ := admits_of_ok hread hok
    exact window_of_admits hnot hsound hadmits
  refine ⟨fun hsound hmac toUppercase m now token claims htext hok => ?_, fun h => ?_, hpayload⟩
  · obtain ⟨payload, hpayloadText, hok⟩ := JwtMiddleware.validateToken_ok hmac toUppercase hok
    rw [htext] at hpayloadText
    cases hpayloadText
    exact hpayload hsound m now claims hok
  · by_cases hrefused : ∃ m ∈ d.members, Refused m.value
    · exact .inl hrefused
    · have hnot : ∀ m ∈ d.members, ¬Refused m.value := fun m hm hr => hrefused ⟨m, hm, hr⟩
      refine sound_of_window hnot fun now hadmits => ?_
      obtain ⟨claims, hok⟩ :=
        ok_of_admits hread (m := ⟨none, .none, none, none⟩) rfl rfl hnot hadmits
      exact h _ now claims hok

def unsignedHeader : Text := "eyJhbGciOiJub25lIn0"

lemma validateToken_unsigned (hmac : JwtAlgorithm → List UInt8 → List UInt8 → List UInt8)
    (payload64 payload : Text) (hdot : '.' ∉ payload64)
    (hpayload : base64UrlDecode payload64 = some payload) (now : UInt64) :
    JwtMiddleware.payloadText (unsignedHeader ++ '.' :: (payload64 ++ ['.'])) = some payload ∧
      JwtMiddleware.validateToken hmac (List.map Char.toUpper) ⟨none, .none, none, none⟩ now
        (unsignedHeader ++ '.' :: (payload64 ++ ['.'])) =
          JwtMiddleware.validatePayload ⟨none, .none, none, none⟩ now payload := by
  have hsplit : (unsignedHeader ++ '.' :: (payload64 ++ ['.'])).splitOn '.' =
      [unsignedHeader, payload64, []] := by
    rw [splitOn_append_cons_self_of_not_mem (by decide),
      splitOn_append_cons_self_of_not_mem hdot, splitOn_nil]
  have hheader : base64UrlDecode unsignedHeader = some "\x7b\"alg\":\"none\"\x7d" := by
    decide +kernel
  constructor
  · rw [JwtMiddleware.payloadText, hsplit]
    exact hpayload
  · rw [JwtMiddleware.validateToken, hsplit]
    simp only [hheader, hpayload]
    rfl

/-- A token of the payload `subjectAndTime`, accepted in the second that it expires. -/
theorem window_subject :
    ∃ token claims, JwtMiddleware.payloadText token = some subjectAndTime.text ∧
      JwtMiddleware.validateToken (fun _ _ _ => []) (List.map Char.toUpper)
        ⟨none, .none, none, none⟩ 1 token = .ok claims ∧
      Window subjectAndTime 1 := by
  have hread : TimesReadable subjectAndTime :=
    forall_mem_cons.mpr ⟨⟨⟨quote_not_mem_of_plain (plain_spell _),
        quote_not_mem_of_plain (plain_spell _)⟩, fun _ => plain_spell _⟩,
      forall_mem_cons.mpr ⟨⟨⟨quote_not_mem_of_plain (plain_spell _), trivial⟩,
        fun _ => plain_spell _⟩, by simp [reached]⟩⟩
  have hsound : SoundTimes subjectAndTime := by
    refine .inr (.inl ⟨fun v hv => ?_, fun v hv => by cases hv⟩)
    have hexp : memberNamed subjectAndTime "exp" = some (.number one) := rfl
    rw [hexp] at hv
    cases hv
    refine ⟨one, rfl, ?_⟩
    rw [Number.value_of_isInteger rfl]
    exact_mod_cast (by decide : 0 ≤ one.int)
  obtain ⟨htext, hvalidate⟩ := validateToken_unsigned (fun _ _ _ => [])
    "eyJzdWIiOiJhbm4iLCJleHAiOjF9" subjectAndTime.text (by decide)
    (by decide +kernel) 1
  have hok : ∃ claims, JwtMiddleware.validatePayload ⟨none, .none, none, none⟩ 1
      subjectAndTime.text = .ok claims := by
    rw [JwtMiddleware.validatePayload, parseClaims_document, claimsFrom_member rfl,
      claimsFrom_member rfl, claimsFrom_done rfl]
    exact ⟨_, rfl⟩
  obtain ⟨claims, hclaims⟩ := hok
  rw [← hvalidate] at hclaims
  exact ⟨_, claims, htext, hclaims,
    (window_iff subjectAndTime hread).1 hsound _ _ _ _ _ _ htext hclaims⟩

def negativeTime : Document where
  members := [member "exp" (.number { one with negative := true })]

/-- The time `-1` is taken for the last second that a `u64` can count: the token is accepted at
any time. -/
theorem accepts_negative_exp :
    negativeTime.text = "\x7b\"exp\":-1\x7d" ∧
      ∃ token claims, JwtMiddleware.payloadText token = some negativeTime.text ∧
        JwtMiddleware.validateToken (fun _ _ _ => []) (List.map Char.toUpper)
          ⟨none, .none, none, none⟩ 1000000000 token = .ok claims ∧
        ¬Window negativeTime 1000000000 := by
  obtain ⟨htext, hvalidate⟩ := validateToken_unsigned (fun _ _ _ => [])
    "eyJleHAiOi0xfQ" negativeTime.text (by decide) (by decide +kernel) 1000000000
  have hok : ∃ claims, JwtMiddleware.validatePayload ⟨none, .none, none, none⟩ 1000000000
      negativeTime.text = .ok claims := by
    rw [JwtMiddleware.validatePayload, parseClaims_document, claimsFrom_member rfl,
      claimsFrom_done rfl]
    exact ⟨_, rfl⟩
  obtain ⟨claims, hclaims⟩ := hok
  refine ⟨rfl, _, claims, htext, hvalidate ▸ hclaims, fun hwindow => ?_⟩
  obtain ⟨n, heq, hle⟩ := hwindow.1 _ rfl
  cases heq
  rw [Number.value_of_isInteger rfl] at hle
  have hint : (1000000000 : Int) ≤ -1 := by exact_mod_cast hle
  exact absurd hint (by decide)

end TrafficCop
