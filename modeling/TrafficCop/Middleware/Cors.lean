import TrafficCop.Http.ListField
import TrafficCop.Middleware.Registry
import TrafficCop.Proxy.Headers

/-!
# CORS

`CorsMiddleware` of `middleware/builtin/cors.rs`. Preflight requests are not checked against the
lists that are sent to the browser. `str::to_lowercase` is a parameter; `Lowercases` says what is
used of it.
-/

namespace TrafficCop

open Rust Http List Option HeaderValue

/-! ## The middleware -/

def joinComma (parts : List Text) : Text := ", ".toList.intercalate parts

def decimalI64 (n : Int) : Text :=
  if n < 0 then '-' :: Nat.toDigits 10 n.natAbs else Nat.toDigits 10 n.natAbs

structure CorsMiddleware where
  allowedOrigins : List Text
  allowAllOrigins : Bool
  allowedMethods : Text
  allowedHeaders : Text
  allowedHeadersSet : List Text
  exposedHeaders : Option Text
  allowCredentials : Bool
  maxAge : Option Text
  addVaryHeader : Bool
  deriving Repr, DecidableEq

structure CorsRequest where
  method : Text
  headers : HeaderMap
  deriving DecidableEq

def isSimpleHeader (header : Text) : Bool :=
  ["accept".toList, "accept-language".toList, "content-language".toList, "content-type".toList,
    "range".toList].contains header

namespace CorsMiddleware

variable (toLowercase : Text → Text)

def fromHeadersConfig (config : HeadersConfig) : Option CorsMiddleware :=
  if config.accessControlAllowOriginList.isEmpty &&
      config.accessControlAllowOriginListRegex.isEmpty then none
  else some
    { allowedOrigins := config.accessControlAllowOriginList
      allowAllOrigins := config.accessControlAllowOriginList.any (· == "*")
      allowedMethods :=
        if config.accessControlAllowMethods.isEmpty then "GET, POST, PUT, DELETE, OPTIONS"
        else joinComma config.accessControlAllowMethods
      allowedHeaders :=
        if config.accessControlAllowHeaders.isEmpty then "Content-Type, Authorization"
        else joinComma config.accessControlAllowHeaders
      -- without the default of `allowedHeaders`
      allowedHeadersSet := config.accessControlAllowHeaders.map toLowercase
      exposedHeaders :=
        if config.accessControlExposeHeaders.isEmpty then none
        else some (joinComma config.accessControlExposeHeaders)
      allowCredentials := config.accessControlAllowCredentials
      maxAge := config.accessControlMaxAge.map decimalI64
      addVaryHeader := config.addVaryHeader }

variable (cors : CorsMiddleware)

def isPreflight (req : CorsRequest) : Bool :=
  req.method == "OPTIONS" && req.headers.containsKey "origin" &&
    req.headers.containsKey "access-control-request-method"

/-- The patterns for origins are not looked at. -/
def isOriginAllowed (origin : Text) : Bool :=
  if cors.allowAllOrigins then true else cors.allowedOrigins.any (· == origin)

def headerText (req : CorsRequest) (name : Text) : Option Text :=
  (req.headers.get name).bind toStr

def getOrigin (req : CorsRequest) : Option Text := headerText req "origin"

/-- One of the configured entries in lower case, of which there are none when the default text is
sent. -/
def headerAllowed (header : Text) : Bool :=
  cors.allowedHeadersSet.contains header || isSimpleHeader header

/-- `CorsMiddleware::validate_preflight`. A value that is no text passes. -/
def validatePreflight (req : CorsRequest) : Bool :=
  -- `allowed_methods.contains(method_str)` is about the text
  if (headerText req "access-control-request-method").any fun method =>
      !decide (method <:+: cors.allowedMethods) then false
  else (headerText req "access-control-request-headers").all fun headers =>
    (headers.splitOn ',').all fun header => cors.headerAllowed (toLowercase (trim header))

def originValue (origin : Text) : Text :=
  if cors.allowAllOrigins && !cors.allowCredentials then "*" else origin

def preflightLines (origin : Text) : List (Text × Text) :=
  [("access-control-allow-origin".toList, cors.originValue origin),
    ("access-control-allow-methods".toList, cors.allowedMethods),
    ("access-control-allow-headers".toList, cors.allowedHeaders)] ++
  (if cors.allowCredentials then [("access-control-allow-credentials".toList, "true".toList)]
    else []) ++
  (cors.maxAge.map fun age => ("access-control-max-age".toList, age)).toList ++
  (if cors.addVaryHeader then [("vary".toList,
      "Origin, Access-Control-Request-Method, Access-Control-Request-Headers".toList)]
    else [])

/-- `CorsMiddleware::handle_preflight`. The `unwrap` panics when a text of the configuration is no
header value. -/
def handlePreflight (req : CorsRequest) : Outcome Empty (Option Response) :=
  match getOrigin req with
  | none => .ok none
  | some origin =>
    if !cors.isOriginAllowed origin then .ok (some { status := 403 })
    else if !cors.validatePreflight toLowercase req then .ok (some { status := 403 })
    else do
      let response ← Outcome.unwrap (Response.build 204 (cors.preflightLines origin))
      return some response

def applyHeaders (origin : Option Text) (headers : HeaderMap) : HeaderMap :=
  match origin.filter cors.isOriginAllowed with
  | none => headers
  | some origin =>
    let headers := insertText headers "access-control-allow-origin"
      (some (cors.originValue origin))
    let headers := insertText headers "access-control-allow-credentials"
      (if cors.allowCredentials then some "true" else none)
    let headers := insertText headers "access-control-expose-headers" cors.exposedHeaders
    insertText headers "vary" (if cors.addVaryHeader then some "Origin" else none)

/-! ## What is advertised -/

/-- What is used of `str::to_lowercase`: on ASCII it is the ASCII mapping, and it maps what is
before and behind a comma or a blank separately. -/
structure Lowercases (toLowercase : Text → Text) : Prop where
  ascii : ∀ s : Text, (∀ c ∈ s, isAscii c = true) → toLowercase s = toAsciiLowercase s
  separator : ∀ (s t : Text) (c : Char), c = ',' ∨ isBlank c = true →
    toLowercase (s ++ c :: t) = toLowercase s ++ c :: toLowercase t

section Advertised

variable (Regex : Type) [RegexCrate Regex] (config : HeadersConfig) (req : CorsRequest)

/-- An origin that the configuration allows: with `*`, as one of the list, or as a match of one of
the patterns. -/
def AllowsOrigin (origin : HeaderValue) : Prop :=
  "*".toList ∈ config.accessControlAllowOriginList ∨
    ∃ text, asBytes text = origin.bytes ∧ (text ∈ config.accessControlAllowOriginList ∨
      ∃ pattern ∈ config.accessControlAllowOriginListRegex, ∃ regex : Regex,
        RegexCrate.new pattern = .ok regex ∧ RegexCrate.isMatch regex text = true)

/-- The configuration allows the origin. -/
def OriginAllowed : Prop :=
  ∃ origin, req.headers.get "origin" = some origin ∧ AllowsOrigin Regex config origin

/-- The method is an element of the list that is sent. -/
def MethodListed : Prop :=
  ∃ method, req.headers.get "access-control-request-method" = some method ∧
    ∃ element ∈ elements cors.allowedMethods, asBytes element = method.bytes

/-- A header that may be sent, by the list that is sent. -/
def NameListed (name : Text) : Prop :=
  isSimpleHeader (toLowercase name) = true ∨
    ∃ element ∈ elements cors.allowedHeaders, toLowercase element = toLowercase name

/-- So are all the names in a line. The lists that are sent are UTF-8, so a line that is not has a
name that is not listed. -/
def LineListed (line : HeaderValue) : Prop :=
  ∃ text, asBytes text = line.bytes ∧ ∀ name ∈ elements text, cors.NameListed toLowercase name

def requestedLines : List HeaderValue :=
  req.headers.getAll "access-control-request-headers"

/-- **What the lists promise**: the origin, the method and the headers of a request are allowed. -/
def Advertised : Prop :=
  OriginAllowed Regex config req ∧ cors.MethodListed req ∧
    ∀ line ∈ requestedLines req, cors.LineListed toLowercase line

/-- The preflight request is answered with 204. -/
def Answers : Prop :=
  ∃ response, cors.handlePreflight toLowercase req = .ok (some response) ∧ response.status = 204

/-- A response that does not allow an origin yet comes to do so. -/
def Sets (headers : HeaderMap) : Prop :=
  (cors.applyHeaders (getOrigin req) headers).containsKey "access-control-allow-origin" = true

end Advertised

/-! ## What is checked -/

/-- The method is no text, or occurs in the text of the methods. -/
def MethodOccurs (req : CorsRequest) : Prop :=
  ∀ method, headerText req "access-control-request-method" = some method →
    method <:+: cors.allowedMethods

/-- The names in the first line, if that is a text, pass the check. -/
def ReadNamesPass (req : CorsRequest) : Prop :=
  ∀ headers, headerText req "access-control-request-headers" = some headers →
    ∀ header ∈ headers.splitOn ',', cors.headerAllowed (toLowercase (trim header)) = true

/-- The lines that the check does not read: all but the first, and that too if it is no text. -/
def unreadLines (req : CorsRequest) : List HeaderValue :=
  match requestedLines req with
  | [] => []
  | line :: lines => if line.toStr.isSome then lines else line :: lines

/-- The texts are header values. -/
def Sendable : Prop :=
  (∀ b ∈ asBytes cors.allowedMethods, isValidByte b = true) ∧
    ∀ b ∈ asBytes cors.allowedHeaders, isValidByte b = true

variable {cors} {toLowercase} {req : CorsRequest}

lemma validatePreflight_iff :
    cors.validatePreflight toLowercase req ↔
      cors.MethodOccurs req ∧ cors.ReadNamesPass toLowercase req := by
  unfold validatePreflight
  split
  · next h =>
    obtain ⟨method, htext, hnot⟩ := (any_eq_true _ _).mp h
    refine iff_of_false Bool.false_ne_true fun hboth => ?_
    simp [hboth.1 method htext] at hnot
  · next h =>
    have hmethod : cors.MethodOccurs req := by
      intro method htext
      by_contra hnot
      exact h ((any_eq_true _ _).mpr ⟨method, htext, by simp [hnot]⟩)
    rw [Option.all_eq_true, and_iff_right hmethod]
    simp only [ReadNamesPass, List.all_eq_true]

/-! ## Which requests are answered -/

lemma isValidByte_decimalI64 (n : Int) : ∀ b ∈ asBytes (decimalI64 n), isValidByte b := by
  have hall : ("-0123456789".toList.all fun c => (String.utf8EncodeChar c).all isValidByte) =
      true := by
    decide +kernel
  have hdigits : ∀ m : ℕ, ∀ c ∈ Nat.toDigits 10 m, c ∈ "-0123456789".toList := by
    intro m c hc
    have hdigit := Nat.isDigit_of_mem_toDigits (by decide) (by decide) hc
    obtain ⟨hlow, hhigh⟩ : 48 ≤ c.toNat ∧ c.toNat ≤ 57 := by
      simpa [Char.isDigit, UInt32.le_iff_toNat_le] using hdigit
    have hten : ∀ k : Fin 10, Char.ofNat (48 + k) ∈ "-0123456789".toList := by decide
    have hchar := hten ⟨c.toNat - 48, by omega⟩
    rwa [show 48 + (c.toNat - 48) = c.toNat by omega, Char.ofNat_toNat] at hchar
  have hdigit : ∀ c ∈ decimalI64 n, c ∈ "-0123456789".toList := by
    unfold decimalI64
    split
    · exact forall_mem_cons.mpr ⟨by decide, hdigits _⟩
    · exact hdigits _
  intro b hb
  obtain ⟨c, hc, hb⟩ := mem_flatMap.mp hb
  exact all_eq_true.mp (all_eq_true.mp hall c (hdigit c hc)) b hb

lemma isValidByte_originValue {origin : Text} (horigin : getOrigin req = some origin) :
    ∀ b ∈ asBytes (cors.originValue origin), isValidByte b := by
  unfold originValue
  split
  · exact isValidByte_of_all (by decide +kernel)
  · obtain ⟨value, -, htext⟩ := bind_eq_some_iff.mp horigin
    rw [asBytes_of_toStr htext]
    exact value.valid

section Configured

variable {config : HeadersConfig} (hcors : fromHeadersConfig toLowercase config = some cors)

include hcors

lemma fields_of_config :
    cors.allowedOrigins = config.accessControlAllowOriginList ∧
      (cors.allowAllOrigins = true ↔ "*".toList ∈ config.accessControlAllowOriginList) ∧
      cors.allowedHeadersSet = config.accessControlAllowHeaders.map toLowercase ∧
      cors.maxAge = config.accessControlMaxAge.map decimalI64 ∧
      (config.accessControlAllowHeaders ≠ [] →
        cors.allowedHeaders = joinComma config.accessControlAllowHeaders) := by
  unfold fromHeadersConfig at hcors
  split at hcors
  · cases hcors
  · cases hcors
    refine ⟨rfl, by simp, rfl, rfl, fun hne => ?_⟩
    exact if_neg fun h => hne (isEmpty_iff.mp h)

lemma isOriginAllowed_iff {origin : Text} :
    cors.isOriginAllowed origin ↔
      "*".toList ∈ config.accessControlAllowOriginList ∨
        origin ∈ config.accessControlAllowOriginList := by
  obtain ⟨horigins, hall, -⟩ := fields_of_config hcors
  unfold isOriginAllowed
  split
  · next h => exact iff_of_true rfl (.inl (hall.mp h))
  · next h =>
    rw [horigins, or_iff_right (mt hall.mpr h)]
    simp

lemma exists_response_iff {origin : Text} (horigin : getOrigin req = some origin) :
    (∃ response, Response.build 204 (cors.preflightLines origin) = some response) ↔
      cors.Sendable := by
  obtain ⟨-, -, -, hage, -⟩ := fields_of_config hcors
  rw [Response.exists_build_iff, preflightLines, forall_mem_append, forall_mem_append,
    forall_mem_append, forall_mem_cons, forall_mem_cons, forall_mem_cons]
  constructor
  · intro h
    obtain ⟨⟨⟨⟨-, hmethods, hheaders, -⟩, -⟩, -⟩, -⟩ := h
    exact ⟨hmethods, hheaders⟩
  · intro h
    refine ⟨⟨⟨⟨isValidByte_originValue horigin, h.1, h.2, by simp⟩, ?_⟩, ?_⟩, ?_⟩
    · split
      · exact forall_mem_singleton.mpr (isValidByte_of_all (by decide +kernel))
      · simp
    · rw [hage]
      cases config.accessControlMaxAge with
      | none => simp
      | some age => exact forall_mem_singleton.mpr (isValidByte_decimalI64 age)
    · split
      · exact forall_mem_singleton.mpr (isValidByte_of_all (by decide +kernel))
      · simp

lemma answers_iff :
    cors.Answers toLowercase req ↔
      (∃ origin, getOrigin req = some origin ∧ cors.isOriginAllowed origin) ∧
        cors.MethodOccurs req ∧ cors.ReadNamesPass toLowercase req ∧ cors.Sendable := by
  rw [← and_assoc (a := cors.MethodOccurs req), ← validatePreflight_iff]
  unfold Answers handlePreflight
  cases horigin : getOrigin req with
  | none => simp
  | some origin =>
    simp only [Option.some.injEq, exists_eq_left']
    by_cases hallowed : cors.isOriginAllowed origin
    · by_cases hvalidate : cors.validatePreflight toLowercase req
      · simp only [hallowed, hvalidate, true_and, Bool.not_true, Bool.false_eq_true, if_false]
        rw [← exists_response_iff hcors horigin]
        constructor
        · intro h
          obtain ⟨response, h, -⟩ := h
          obtain ⟨built, hbuilt, -⟩ := Outcome.bind_eq_ok.mp h
          exact ⟨built, Outcome.unwrap_eq_ok.mp hbuilt⟩
        · intro h
          obtain ⟨response, h⟩ := h
          exact ⟨response, by rw [h]; rfl, (Response.build_eq_some_iff.mp h).1⟩
      · simp [hallowed, hvalidate]
    · simp [hallowed]

end Configured

/-! ## Which responses allow the origin -/

lemma sets_iff {headers : HeaderMap}
    (hnone : headers.getAll "access-control-allow-origin" = []) :
    cors.Sets req headers ↔
      ∃ origin, getOrigin req = some origin ∧ cors.isOriginAllowed origin := by
  rw [Sets, Multimap.containsKey_iff]
  cases horigin : getOrigin req with
  | none =>
    have hnot : ¬∃ origin, none = some origin ∧ cors.isOriginAllowed origin := by simp
    exact iff_of_false (fun hne => hne hnone) hnot
  | some origin =>
    simp only [Option.some.injEq, exists_eq_left']
    by_cases hallowed : cors.isOriginAllowed origin
    · have hfilter : (some origin).filter cors.isOriginAllowed = some origin := by simp [hallowed]
      -- the origin came as a text, so it can be sent back
      have hvalue : (some (cors.originValue origin)).bind fromStr = some _ :=
        fromStr_eq_some (isValidByte_originValue horigin)
      simp only [applyHeaders, hfilter]
      rw [getAll_insertText_of_ne _ (by decide), getAll_insertText_of_ne _ (by decide),
        getAll_insertText_of_ne _ (by decide), getAll_insertText_of_some _ hvalue]
      exact iff_of_true (cons_ne_nil _ _) hallowed
    · have hfilter : (some origin).filter cors.isOriginAllowed = none := by simp [hallowed]
      rw [applyHeaders, hfilter]
      exact iff_of_false (fun hne => hne hnone) hallowed

/-! ## Names that are checked and names that are listed -/

lemma eq_of_toLower_eq {c d : Char} (hc : isAscii c) (hd : d = ',' ∨ isBlank d)
    (h : c.toLower = d) : c = d := by
  have hall : ∀ n : Fin 128, (Char.ofNat n).toLower = ',' ∨ isBlank (Char.ofNat n).toLower →
      Char.ofNat n = (Char.ofNat n).toLower := by
    decide +kernel
  have heq := hall ⟨c.toNat, of_decide_eq_true hc⟩
  simp only [Char.ofNat_toNat] at heq
  rw [← h] at hd ⊢
  exact heq hd

section Lowercase

variable (hlower : Lowercases toLowercase)

include hlower

lemma Lowercases.nil : toLowercase [] = [] := hlower.ascii [] (by simp)

lemma mem_elements_of_toLowercase {entry name : Text} (hne : name ≠ [])
    (hascii : ∀ c ∈ name, isAscii c) (hcomma : ',' ∉ name)
    (hhead : ∀ c, name.head? = some c → isBlank c = false)
    (hlast : ∀ c, name.getLast? = some c → isBlank c = false)
    (h : toLowercase entry = toLowercase name) : entry ∈ elements entry := by
  rw [hlower.ascii name hascii] at h
  -- a comma or a blank of the entry would be one of the name
  refine mem_elements_self ?_ ?_ ?_ ?_
  · rintro rfl
    rw [hlower.nil] at h
    exact hne (map_eq_nil_iff.mp h.symm)
  · intro hmem
    obtain ⟨s, t, rfl⟩ := append_of_mem hmem
    rw [hlower.separator _ _ _ (.inl rfl)] at h
    have hmem' : ',' ∈ toAsciiLowercase name := by
      rw [← h]
      simp
    obtain ⟨c, hc, hcomma'⟩ := mem_map.mp hmem'
    rw [eq_of_toLower_eq (hascii c hc) (.inl rfl) hcomma'] at hc
    exact hcomma hc
  · intro c hc
    by_contra hblank
    rw [Bool.not_eq_false] at hblank
    obtain ⟨t, rfl⟩ : ∃ t, entry = c :: t := head?_eq_some_iff.mp hc
    have hsep := hlower.separator [] t c (.inr hblank)
    rw [nil_append, h, hlower.nil, nil_append] at hsep
    obtain ⟨d, rest, rfl, hd, -⟩ := map_eq_cons_iff.mp hsep
    obtain rfl := eq_of_toLower_eq (hascii d mem_cons_self) (.inr hblank) hd
    rw [hhead d rfl] at hblank
    cases hblank
  · intro c hc
    by_contra hblank
    rw [Bool.not_eq_false] at hblank
    obtain ⟨s, rfl⟩ := getLast?_eq_some_iff.mp hc
    have hsep := hlower.separator s [] c (.inr hblank)
    rw [h, hlower.nil] at hsep
    obtain ⟨front, back, rfl, -, hback⟩ := map_eq_append_iff.mp hsep
    obtain ⟨d, rest, rfl, hd, hrest⟩ := map_eq_cons_iff.mp hback
    obtain rfl := map_eq_nil_iff.mp hrest
    obtain rfl := eq_of_toLower_eq (hascii d (by simp)) (.inr hblank) hd
    rw [hlast d (by simp)] at hblank
    cases hblank

/-- **What the check reads is listed**, if it passes. -/
theorem lineListed_of_pass {config : HeadersConfig}
    (hcors : fromHeadersConfig toLowercase config = some cors) {line : HeaderValue} {text : Text}
    (htext : line.toStr = some text)
    (hpass : ∀ header ∈ text.splitOn ',', cors.headerAllowed (toLowercase (trim header))) :
    cors.LineListed toLowercase line := by
  obtain ⟨-, -, hset, -, hjoin⟩ := fields_of_config hcors
  refine ⟨text, asBytes_of_toStr htext, fun name hname => ?_⟩
  obtain ⟨hne, piece, hpiece, rfl⟩ := mem_elements_iff.mp hname
  obtain ⟨htrim, hascii, hcomma, hhead, hlast⟩ := element_of_toStr htext hpiece
  have hallowed := hpass piece hpiece
  rw [htrim, headerAllowed, Bool.or_eq_true, contains_iff_mem, hset] at hallowed
  rcases hallowed with hmem | hsimple
  · obtain ⟨entry, hentry, heq⟩ := mem_map.mp hmem
    refine .inr ⟨entry, ?_, heq⟩
    rw [hjoin (ne_nil_of_mem hentry), joinComma, elements_join]
    exact mem_flatMap.mpr ⟨entry, hentry,
      mem_elements_of_toLowercase hlower hne hascii hcomma hhead hlast heq⟩
  · exact .inl hsimple

lemma linesListed_iff {config : HeadersConfig}
    (hcors : fromHeadersConfig toLowercase config = some cors)
    (hpass : cors.ReadNamesPass toLowercase req) :
    (∀ line ∈ requestedLines req, cors.LineListed toLowercase line) ↔
      ∀ line ∈ unreadLines req, cors.LineListed toLowercase line := by
  unfold unreadLines
  split
  · next hlines => rw [hlines]
  · next line lines hlines =>
    rw [hlines]
    split
    · -- the first line is a text, so it has passed
      next htext =>
      obtain ⟨text, htext⟩ := isSome_iff_exists.mp htext
      have hread : headerText req "access-control-request-headers" = some text := by
        rw [headerText, Multimap.get, ← requestedLines, hlines]
        exact htext
      have hlisted := lineListed_of_pass hlower hcors htext (hpass text hread)
      exact forall_mem_cons.trans (and_iff_right hlisted)
    · exact Iff.rfl

end Lowercase

/-! ## The answer and the lists -/

lemma methodOccurs_of_listed (h : cors.MethodListed req) : cors.MethodOccurs req := by
  obtain ⟨method, hget, element, helement, hbytes⟩ := h
  intro text htext
  rw [headerText, hget, bind_some] at htext
  rw [← asBytes_injective (hbytes.trans (asBytes_of_toStr htext).symm)]
  exact infix_of_mem_elements helement

section Sound

variable (Regex : Type) [RegexCrate Regex] (config : HeadersConfig)

/-- The origin, if it is allowed, is so as a text of the list or with `*`. -/
def OriginAsText (req : CorsRequest) : Prop :=
  ∀ origin, req.headers.get "origin" = some origin → AllowsOrigin Regex config origin →
    ∃ text, origin.toStr = some text ∧ ("*".toList ∈ config.accessControlAllowOriginList ∨
      text ∈ config.accessControlAllowOriginList)

lemma originAllowed_iff (hcors : fromHeadersConfig toLowercase config = some cors) :
    ((∃ origin, getOrigin req = some origin ∧ cors.isOriginAllowed origin) ↔
      OriginAllowed Regex config req) ↔ OriginAsText Regex config req := by
  simp only [isOriginAllowed_iff hcors]
  constructor
  · intro h origin hget hallows
    obtain ⟨text, htext, hlisted⟩ := h.mpr ⟨origin, hget, hallows⟩
    rw [getOrigin, headerText, hget, bind_some] at htext
    exact ⟨text, htext, hlisted⟩
  · intro h
    constructor
    · intro hchecked
      obtain ⟨text, htext, hlisted⟩ := hchecked
      obtain ⟨origin, hget, htext⟩ := bind_eq_some_iff.mp htext
      exact ⟨origin, hget, hlisted.imp_right fun hmem =>
        ⟨text, asBytes_of_toStr htext, .inl hmem⟩⟩
    · intro hallowed
      obtain ⟨origin, hget, hallows⟩ := hallowed
      obtain ⟨text, htext, hlisted⟩ := h origin hget hallows
      exact ⟨text, by rw [getOrigin, headerText, hget, bind_some, htext], hlisted⟩

variable (cors toLowercase) (req)

/-- The conditions under which the checks are those of the lists: -/
structure Sound : Prop where
  /-- the origin is allowed as a text of the list or with `*`; -/
  origin : OriginAsText Regex config req
  /-- the method, if it occurs in the text that is sent, is an element of it (unless the request
  fails for its headers); -/
  method : OriginAllowed Regex config req → cors.Sendable → cors.ReadNamesPass toLowercase req →
    cors.MethodOccurs req → cors.MethodListed req
  /-- the names in the lines that are not read are listed (unless it fails for what is read); -/
  unread : OriginAllowed Regex config req → cors.Sendable → cors.ReadNamesPass toLowercase req →
    cors.MethodListed req → ∀ line ∈ unreadLines req, cors.LineListed toLowercase line
  /-- the names that are read are configured, if they are listed, and what is sent is a value. -/
  names : OriginAllowed Regex config req → cors.MethodListed req →
    (∀ line ∈ requestedLines req, cors.LineListed toLowercase line) →
      cors.Sendable ∧ cors.ReadNamesPass toLowercase req

end Sound

/-- **When a preflight request is answered as the lists advertise**, and the origin of the request
is allowed in responses as the configuration says. -/
theorem preflight_iff (Regex : Type) [RegexCrate Regex] {toLowercase : Text → Text}
    (hlower : Lowercases toLowercase) {config : HeadersConfig} {cors : CorsMiddleware}
    (hcors : fromHeadersConfig toLowercase config = some cors) (req : CorsRequest) :
    ((cors.Answers toLowercase req ↔ cors.Advertised toLowercase Regex config req) ∧
      ∀ headers : HeaderMap, headers.getAll "access-control-allow-origin" = [] →
        (cors.Sets req headers ↔ OriginAllowed Regex config req)) ↔
      Sound toLowercase cors req Regex config := by
  have hsets : (∀ headers : HeaderMap, headers.getAll "access-control-allow-origin" = [] →
      (cors.Sets req headers ↔ OriginAllowed Regex config req)) ↔
        OriginAsText Regex config req := by
    rw [← originAllowed_iff Regex config hcors]
    constructor
    · intro h
      exact (sets_iff rfl).symm.trans (h ⟨[]⟩ rfl)
    · intro h headers hnone
      exact (sets_iff hnone).trans h
  rw [hsets, answers_iff hcors, Advertised]
  constructor
  · intro h
    obtain ⟨hanswer, horigin⟩ := h
    -- with the origins alike on both sides, each part of the condition is read off the answer
    have hsame := (originAllowed_iff Regex config hcors).mpr horigin
    rw [hsame] at hanswer
    refine ⟨horigin, fun ho hsend hpass hoccurs => ?_, fun ho hsend hpass hlisted => ?_,
      fun ho hlisted hlines => ?_⟩
    · exact (hanswer.mp ⟨ho, hoccurs, hpass, hsend⟩).2.1
    · rw [← linesListed_iff hlower hcors hpass]
      exact (hanswer.mp ⟨ho, methodOccurs_of_listed hlisted, hpass, hsend⟩).2.2
    · obtain ⟨-, -, hpass, hsend⟩ := hanswer.mpr ⟨ho, hlisted, hlines⟩
      exact ⟨hsend, hpass⟩
  · intro h
    have hsame := (originAllowed_iff Regex config hcors).mpr h.origin
    rw [hsame]
    refine ⟨⟨fun hanswer => ?_, fun hadvertised => ?_⟩, h.origin⟩
    · obtain ⟨ho, hoccurs, hpass, hsend⟩ := hanswer
      have hlisted := h.method ho hsend hpass hoccurs
      refine ⟨ho, hlisted, ?_⟩
      rw [linesListed_iff hlower hcors hpass]
      exact h.unread ho hsend hpass hlisted
    · obtain ⟨ho, hlisted, hlines⟩ := hadvertised
      obtain ⟨hsend, hpass⟩ := h.names ho hlisted hlines
      exact ⟨ho, methodOccurs_of_listed hlisted, hpass, hsend⟩

lemma lowercases_toAsciiLowercase : Lowercases toAsciiLowercase where
  ascii _ _ := rfl
  separator s t c h := by
    have hc : c.toLower = c := by
      rcases h with rfl | h
      · decide
      · rw [isBlank, Bool.or_eq_true, beq_iff_eq, beq_iff_eq] at h
        rcases h with rfl | rfl <;> decide
    rw [toAsciiLowercase, map_append, map_cons, hc]
    rfl

def oneOrigin : HeadersConfig where
  accessControlAllowOriginList := ["https://a"]

def oneOriginCors : CorsMiddleware where
  allowedOrigins := ["https://a"]
  allowAllOrigins := false
  allowedMethods := "GET, POST, PUT, DELETE, OPTIONS"
  allowedHeaders := "Content-Type, Authorization"
  allowedHeadersSet := []
  exposedHeaders := none
  allowCredentials := false
  maxAge := none
  addVaryHeader := false

def getPreflight (withHeader : Bool) : CorsRequest :=
  let value (text : Text) (h : (asBytes text).all isValidByte = true) : HeaderValue :=
    ⟨asBytes text, isValidByte_of_all h⟩
  let asked := if withHeader then [("access-control-request-headers".toList,
    value "authorization".toList (by decide +kernel))] else []
  { method := "OPTIONS".toList
    headers := ⟨("origin".toList, value "https://a".toList (by decide +kernel)) ::
      ("access-control-request-method".toList, value "GET".toList (by decide +kernel)) :: asked⟩ }

lemma originAllowed_getPreflight (withHeader : Bool) :
    OriginAllowed Literal oneOrigin (getPreflight withHeader) :=
  ⟨_, rfl, .inr ⟨"https://a", rfl, .inl mem_cons_self⟩⟩

lemma methodListed_getPreflight (withHeader : Bool) :
    oneOriginCors.MethodListed (getPreflight withHeader) :=
  ⟨_, rfl, "GET", by decide +kernel, rfl⟩

theorem preflight_get :
    fromHeadersConfig toAsciiLowercase oneOrigin = some oneOriginCors ∧
      isPreflight (getPreflight false) = true ∧
      oneOriginCors.Answers toAsciiLowercase (getPreflight false) := by
  have hlines : requestedLines (getPreflight false) = [] := by decide +kernel
  have hpass : oneOriginCors.ReadNamesPass toAsciiLowercase (getPreflight false) := by
    intro headers hread
    rw [headerText, Multimap.get, ← requestedLines, hlines] at hread
    cases hread
  have hsound : Sound toAsciiLowercase oneOriginCors (getPreflight false) Literal oneOrigin := by
    refine ⟨fun origin hget _ => ?_, fun _ _ _ _ => methodListed_getPreflight false, ?_, ?_⟩
    · cases hget
      exact ⟨"https://a".toList, by decide +kernel, .inr mem_cons_self⟩
    · intro _ _ _ _ line hline
      rw [unreadLines, hlines] at hline
      cases hline
    · intro _ _ _
      exact ⟨⟨isValidByte_of_all (by decide +kernel), isValidByte_of_all (by decide +kernel)⟩,
        hpass⟩
  obtain ⟨hanswer, -⟩ :=
    (preflight_iff Literal lowercases_toAsciiLowercase rfl (getPreflight false)).mpr hsound
  refine ⟨rfl, by decide +kernel, hanswer.mpr ⟨originAllowed_getPreflight false,
    methodListed_getPreflight false, fun line hline => ?_⟩⟩
  rw [hlines] at hline
  cases hline

/-- `Authorization` is on the list that is sent by default, and refused. -/
theorem authorization_refused :
    fromHeadersConfig toAsciiLowercase oneOrigin = some oneOriginCors ∧
      isPreflight (getPreflight true) = true ∧
      oneOriginCors.Advertised toAsciiLowercase Literal oneOrigin (getPreflight true) ∧
      ¬oneOriginCors.Answers toAsciiLowercase (getPreflight true) := by
  refine ⟨rfl, by decide +kernel, ⟨originAllowed_getPreflight true, methodListed_getPreflight true,
    fun line hline => ?_⟩, fun hanswer => ?_⟩
  · have hbytes : line.bytes = asBytes "authorization".toList := by
      obtain rfl := mem_singleton.mp hline
      rfl
    have hnames : elements "authorization".toList = ["authorization".toList] := by decide +kernel
    refine ⟨_, hbytes.symm, fun name hname => ?_⟩
    rw [hnames, mem_singleton] at hname
    rw [hname]
    exact .inr ⟨"Authorization".toList, by decide +kernel, by decide +kernel⟩
  · have hrefused : oneOriginCors.handlePreflight toAsciiLowercase (getPreflight true) =
        .ok (some { status := 403 }) := by
      decide +kernel
    obtain ⟨response, hresponse, hstatus⟩ := hanswer
    rw [hrefused] at hresponse
    cases hresponse
    cases hstatus

end CorsMiddleware

end TrafficCop
