import TrafficCop.Config.Validate
import TrafficCop.Middleware.BasicAuth
import TrafficCop.Middleware.Path

/-!
# The middleware registry

`MiddlewareRegistry` of `middleware/registry.rs`: instances are created from the configured
middlewares where a kind is supported, and a route's list of names is resolved against them. Both
steps leave out what they cannot handle.
-/

namespace TrafficCop

open Rust Http List RegexCrate

/-! ## Instances -/

/-- What a middleware can be instantiated as. -/
inductive MiddlewareKind (Regex : Type) where
  | headersAndCors (config : HeadersConfig)
  | headers (config : HeadersConfig)
  | rateLimit (config : RateLimitConfig)
  | ipAllow (config : IpAllowListConfig)
  | ipDeny (config : IpDenyListConfig)
  | basicAuth (inner : BasicAuthMiddleware)
  | redirectScheme (config : RedirectSchemeConfig)
  | path (mw : PathMiddleware Regex)
  | compress (minSize : UInt64)

structure MiddlewareInstance (Regex : Type) where
  name : Text
  kind : MiddlewareKind Regex

/-- `CorsMiddleware::from_headers_config(config).is_some()`. -/
def HeadersConfig.hasCors (config : HeadersConfig) : Bool :=
  !(config.accessControlAllowOriginList.isEmpty &&
    config.accessControlAllowOriginListRegex.isEmpty)

section Create

variable {Regex : Type} [RegexCrate Regex]

/-- The body of `create_middleware`: the first kind present is instantiated. One whose regular
expression does not compile counts as absent; a realm that is no header value is a panic. -/
def createKind (config : MiddlewareConfig) : Option (Outcome Empty (MiddlewareKind Regex)) :=
  -- the arms in the order of the source, each of which returns
  (config.headers.map fun c => .ok (if c.hasCors then .headersAndCors c else .headers c)) <|>
  (config.rateLimit.map fun c => .ok (.rateLimit c)) <|>
  (config.getIpAllowList.map fun c => .ok (.ipAllow c)) <|>
  (config.ipDenyList.map fun c => .ok (.ipDeny c)) <|>
  (config.basicAuth.map fun c => do return .basicAuth (← BasicAuthMiddleware.new c)) <|>
  (config.redirectScheme.map fun c => .ok (.redirectScheme c)) <|>
  (config.stripPrefix.map fun c => .ok (.path (.stripPrefix (.new c)))) <|>
  (config.addPrefix.map fun c => .ok (.path (.addPrefix (.new c)))) <|>
  (config.replacePath.map fun c => .ok (.path (.replacePath (.new c)))) <|>
  (config.stripPrefixRegex.bind fun c =>
    (StripPrefixRegexMiddleware.new c).map fun mw => .ok (.path (.stripPrefixRegex mw))) <|>
  (config.replacePathRegex.bind fun c =>
    (ReplacePathRegexMiddleware.new c).map fun mw => .ok (.path (.replacePathRegex mw))) <|>
  (config.compress.map fun c => .ok (.compress c.minResponseBodyBytes))

def createMiddleware (name : Text) (config : MiddlewareConfig) :
    Outcome Empty (Option (MiddlewareInstance Regex)) :=
  match createKind config with
  | some kind => do return some ⟨name, ← kind⟩
  | none => .ok none

end Create

structure MiddlewareRegistry (Regex : Type) where
  middlewares : HashMap Text (MiddlewareInstance Regex)

namespace MiddlewareRegistry

variable {Regex : Type}

/-- One turn of the loop of `from_config`. -/
def register [RegexCrate Regex] (middlewares : HashMap Text (MiddlewareInstance Regex))
    (entry : Text × MiddlewareConfig) :
    Outcome Empty (HashMap Text (MiddlewareInstance Regex)) := do
  match ← createMiddleware entry.1 entry.2 with
  | some mw => return middlewares.insert entry.1 mw
  | none => return middlewares

def fromConfig [RegexCrate Regex] (configs : HashMap Text MiddlewareConfig) :
    Outcome Empty (MiddlewareRegistry Regex) := do
  return ⟨← configs.entries.foldlM register .empty⟩

/-- Names without an instance are left out, so the chain can be shorter than the list. -/
def resolve (registry : MiddlewareRegistry Regex) (names : List Text) :
    List (MiddlewareInstance Regex) :=
  names.filterMap registry.middlewares.get

end MiddlewareRegistry

/-! ## Supported configurations -/

section Supported

variable (Regex : Type) [RegexCrate Regex]

/-- `Regex::new` succeeds. -/
def CompilesTo (pattern : Text) : Prop := ∃ re : Regex, new pattern = .ok re

/-- The entry has one section, of a kind that the registry instantiates. -/
inductive MiddlewareConfig.Supported : MiddlewareConfig → Prop
  | headers (c) : Supported { headers := some c }
  | rateLimit (c) : Supported { rateLimit := some c }
  | ipAllowList (c) : Supported { ipAllowList := some c }
  | ipWhiteList (c) : Supported { ipWhiteList := some c }
  | ipDenyList (c) : Supported { ipDenyList := some c }
  | basicAuth (c) : Supported { basicAuth := some c }
  | redirectScheme (c) : Supported { redirectScheme := some c }
  | stripPrefix (c) : Supported { stripPrefix := some c }
  | addPrefix (c) : Supported { addPrefix := some c }
  | replacePath (c) : Supported { replacePath := some c }
  | stripPrefixRegex (c : StripPrefixRegexConfig) (h : ∀ r ∈ c.regex, CompilesTo Regex r) :
      Supported { stripPrefixRegex := some c }
  | replacePathRegex (c : ReplacePathRegexConfig) (h : CompilesTo Regex c.regex) :
      Supported { replacePathRegex := some c }
  | compress (c) : Supported { compress := some c }

variable {Regex}

/-- The instance does what the entry asks for, and the entry asks for nothing else. -/
inductive CarriesOut : MiddlewareConfig → MiddlewareKind Regex → Prop
  | headersAndCors {c} (h : c.hasCors) : CarriesOut { headers := some c } (.headersAndCors c)
  | headers {c} (h : ¬ c.hasCors) : CarriesOut { headers := some c } (.headers c)
  | rateLimit (c) : CarriesOut { rateLimit := some c } (.rateLimit c)
  | ipAllowList (c) : CarriesOut { ipAllowList := some c } (.ipAllow c)
  | ipWhiteList (c) : CarriesOut { ipWhiteList := some c } (.ipAllow c)
  | ipDenyList (c) : CarriesOut { ipDenyList := some c } (.ipDeny c)
  | basicAuth {c inner} (h : BasicAuthMiddleware.new c = .ok inner) :
      CarriesOut { basicAuth := some c } (.basicAuth inner)
  | redirectScheme (c) : CarriesOut { redirectScheme := some c } (.redirectScheme c)
  | stripPrefix (c) : CarriesOut { stripPrefix := some c } (.path (.stripPrefix (.new c)))
  | addPrefix (c) : CarriesOut { addPrefix := some c } (.path (.addPrefix (.new c)))
  | replacePath (c) : CarriesOut { replacePath := some c } (.path (.replacePath (.new c)))
  | stripPrefixRegex {c mw} (h : StripPrefixRegexMiddleware.new c = some mw) :
      CarriesOut { stripPrefixRegex := some c } (.path (.stripPrefixRegex mw))
  | replacePathRegex {c mw} (h : ReplacePathRegexMiddleware.new c = some mw) :
      CarriesOut { replacePathRegex := some c } (.path (.replacePathRegex mw))
  | compress (c) : CarriesOut { compress := some c } (.compress c.minResponseBodyBytes)

/-- The realm of a basic authentication that is instantiated has no control characters. -/
def MiddlewareConfig.Builds (config : MiddlewareConfig) : Prop :=
  config.headers.isSome ∨ config.rateLimit.isSome ∨ config.getIpAllowList.isSome ∨
  config.ipDenyList.isSome ∨ ∀ c, config.basicAuth = some c →
    ∀ b ∈ asBytes (c.realm.getD "Restricted"), isValidByte b = true

lemma mapM_isOk_iff {patterns : List Text} :
    (∃ res, patterns.mapM (fun r => (new r : Except Text Regex)) = .ok res) ↔
      ∀ r ∈ patterns, CompilesTo Regex r := by
  induction patterns with
  | nil => simp [pure, Except.pure]
  | cons r patterns ih =>
    rw [forall_mem_cons, ← ih, mapM_cons]
    unfold CompilesTo
    cases (new r : Except Text Regex) with
    | error e => simp [bind, Except.bind]
    | ok re =>
      cases patterns.mapM (fun r => (new r : Except Text Regex)) with
      | error e => simp [bind, Except.bind]
      | ok res => simp [bind, Except.bind, pure, Except.pure]

lemma stripPrefixRegex_new_isSome_iff {c : StripPrefixRegexConfig} :
    (StripPrefixRegexMiddleware.new c : Option (StripPrefixRegexMiddleware Regex)).isSome ↔
      ∀ r ∈ c.regex, CompilesTo Regex r := by
  rw [← mapM_isOk_iff]
  unfold StripPrefixRegexMiddleware.new
  cases c.regex.mapM (fun r => (new r : Except Text Regex)) <;> simp

lemma replacePathRegex_new_isSome_iff {c : ReplacePathRegexConfig} :
    (ReplacePathRegexMiddleware.new c : Option (ReplacePathRegexMiddleware Regex)).isSome ↔
      CompilesTo Regex c.regex := by
  unfold ReplacePathRegexMiddleware.new CompilesTo
  cases (new c.regex : Except Text Regex) <;> simp

/-- An entry with one supported section gives the instance of this section. -/
lemma exists_carriesOut_iff {config : MiddlewareConfig} (hbuilds : config.Builds) :
    (∃ kind : MiddlewareKind Regex, createKind config = some (.ok kind) ∧ CarriesOut config kind) ↔
      config.Supported Regex := by
  constructor
  · rintro ⟨kind, -, hkind⟩
    cases hkind with
    | stripPrefixRegex h =>
      exact .stripPrefixRegex _ (stripPrefixRegex_new_isSome_iff.mp (Option.isSome_of_mem h))
    | replacePathRegex h =>
      exact .replacePathRegex _ (replacePathRegex_new_isSome_iff.mp (Option.isSome_of_mem h))
    | _ => constructor
  · intro hsup
    cases hsup with
    | headers c =>
      by_cases hcors : c.hasCors
      · exact ⟨.headersAndCors c, by simp [createKind, hcors], .headersAndCors hcors⟩
      · exact ⟨.headers c, by simp [createKind, hcors], .headers hcors⟩
    | basicAuth c =>
      simp only [MiddlewareConfig.Builds, MiddlewareConfig.getIpAllowList] at hbuilds
      obtain ⟨inner, hinner⟩ := BasicAuthMiddleware.exists_new_iff.mpr (by simpa using hbuilds)
      refine ⟨.basicAuth inner, ?_, .basicAuth hinner⟩
      change some (BasicAuthMiddleware.new c >>= _) = _
      rw [hinner]
      rfl
    | stripPrefixRegex c h =>
      obtain ⟨mw, hmw⟩ := Option.isSome_iff_exists.mp (stripPrefixRegex_new_isSome_iff.mpr h)
      exact ⟨_, by simp [createKind, MiddlewareConfig.getIpAllowList, hmw], .stripPrefixRegex hmw⟩
    | replacePathRegex c h =>
      obtain ⟨mw, hmw⟩ := Option.isSome_iff_exists.mp (replacePathRegex_new_isSome_iff.mpr h)
      exact ⟨_, by simp [createKind, MiddlewareConfig.getIpAllowList, hmw], .replacePathRegex hmw⟩
    -- of the other sections the instance has the configuration as it is
    | _ => exact ⟨_, rfl, by constructor⟩

end Supported

/-! ## Building the registry -/

section Resolve

variable {Regex : Type} [RegexCrate Regex]

lemma createKind_eq_panic_iff {config : MiddlewareConfig} :
    createKind config = some (.panic : Outcome Empty (MiddlewareKind Regex)) ↔
      ¬ config.Builds := by
  have hnew : ∀ c, BasicAuthMiddleware.new c = .panic ↔
      ¬ ∀ b ∈ asBytes (c.realm.getD "Restricted"), isValidByte b = true := by
    intro c
    rw [← BasicAuthMiddleware.exists_new_iff, Outcome.exists_eq_ok_iff, not_not]
  unfold createKind MiddlewareConfig.Builds
  -- an arm before that of the basic authentication returns, one behind it does not panic
  simp [Option.or_eq_some_iff, Option.bind_eq_some_iff, Outcome.bind_eq_panic, hnew]

lemma createMiddleware_ne_panic_iff {name : Text} {config : MiddlewareConfig} :
    (createMiddleware name config : Outcome Empty (Option (MiddlewareInstance Regex))) ≠ .panic ↔
      config.Builds := by
  rw [← not_iff_not, not_not, ← @createKind_eq_panic_iff Regex]
  unfold createMiddleware
  rcases createKind config with _ | (_ | _ | _) <;> simp

lemma createMiddleware_eq_ok_some_iff {name : Text} {config : MiddlewareConfig}
    {inst : MiddlewareInstance Regex} :
    createMiddleware name config = .ok (some inst) ↔
      inst.name = name ∧ createKind config = some (.ok inst.kind) := by
  obtain ⟨name', kind⟩ := inst
  unfold createMiddleware
  rcases createKind config with _ | (_ | _ | _) <;> simp [eq_comm]

namespace MiddlewareRegistry

variable {entry : Text × MiddlewareConfig} {entries : List (Text × MiddlewareConfig)}
  {acc middlewares : HashMap Text (MiddlewareInstance Regex)}

lemma register_get (h : register acc entry = .ok middlewares) :
    ∃ mw, createMiddleware entry.1 entry.2 = .ok mw ∧
      ∀ name, middlewares.get name =
        if name = entry.1 then mw.or (acc.get name) else acc.get name := by
  obtain ⟨mw, hmw, h⟩ := Outcome.bind_eq_ok.mp h
  refine ⟨mw, hmw, fun name => ?_⟩
  cases mw with
  | none =>
    cases h
    simp
  | some mw =>
    cases h
    simp [HashMap.get_insert]

/-- The run of the loop: every entry was created, and is what its name now stands for. -/
lemma foldlM_register_get (hkeys : (entries.map Prod.fst).Nodup)
    (h : entries.foldlM register acc = .ok middlewares) :
    (∀ entry ∈ entries, ∃ mw, createMiddleware entry.1 entry.2 = .ok mw ∧
      middlewares.get entry.1 = mw.or (acc.get entry.1)) ∧
      ∀ name ∉ entries.map Prod.fst, middlewares.get name = acc.get name := by
  induction entries generalizing acc with
  | nil =>
    cases h
    simp
  | cons entry entries ih =>
    rw [foldlM_cons] at h
    obtain ⟨acc', hstep, hrest⟩ := Outcome.bind_eq_ok.mp h
    obtain ⟨hnew, hkeys⟩ := nodup_cons.mp hkeys
    obtain ⟨mw, hmw, hget⟩ := register_get hstep
    obtain ⟨hcreated, hother⟩ := ih hkeys hrest
    refine ⟨forall_mem_cons.mpr ⟨⟨mw, hmw, ?_⟩, fun e he => ?_⟩, fun name hname => ?_⟩
    · rw [hother _ hnew, hget, if_pos rfl]
    · obtain ⟨mw', hmw', hget'⟩ := hcreated e he
      have hne : e.1 ≠ entry.1 := fun heq => hnew (heq ▸ mem_map_of_mem he)
      exact ⟨mw', hmw', by rw [hget', hget, if_neg hne]⟩
    · obtain ⟨hne, hname⟩ := not_or.mp (mt mem_cons.mpr hname)
      rw [hother _ hname, hget, if_neg hne]

lemma exists_foldlM_register (h : ∀ entry ∈ entries, entry.2.Builds) :
    ∃ middlewares, entries.foldlM register acc = .ok middlewares := by
  induction entries generalizing acc with
  | nil => exact ⟨acc, rfl⟩
  | cons entry entries ih =>
    obtain ⟨hentry, hentries⟩ := forall_mem_cons.mp h
    obtain ⟨mw, hmw⟩ := Outcome.exists_eq_ok_iff.mpr
      ((@createMiddleware_ne_panic_iff Regex _ entry.1 _).mpr hentry)
    rw [foldlM_cons, register, hmw]
    cases mw <;> exact ih hentries

variable {configs : HashMap Text MiddlewareConfig} {registry : MiddlewareRegistry Regex}

lemma get_fromConfig (h : fromConfig configs = .ok registry) (name : Text) :
    (configs.get name = none ∧ registry.middlewares.get name = none) ∨
      ∃ config, configs.get name = some config ∧
        createMiddleware name config = .ok (registry.middlewares.get name) := by
  obtain ⟨middlewares, hfold, heq⟩ := Outcome.bind_eq_ok.mp h
  cases heq
  obtain ⟨hcreated, hother⟩ := foldlM_register_get configs.nodup hfold
  cases hget : configs.get name with
  | none =>
    refine .inl ⟨rfl, hother name fun hmem => ?_⟩
    obtain ⟨⟨_, config⟩, hentry, rfl⟩ := mem_map.mp hmem
    cases hget.symm.trans (HashMap.get_eq_some_iff.mpr hentry)
  | some config =>
    obtain ⟨mw, hmw, hregistry⟩ := hcreated (name, config) (HashMap.get_eq_some_iff.mp hget)
    refine .inr ⟨config, rfl, hmw.trans (congrArg _ ?_)⟩
    rw [hregistry]
    exact Option.or_none.symm

lemma exists_fromConfig_iff :
    (∃ registry : MiddlewareRegistry Regex, fromConfig configs = .ok registry) ↔
      ∀ config ∈ configs.values, config.Builds := by
  constructor
  · rintro ⟨registry, h⟩ config hconfig
    obtain ⟨name, hget⟩ := HashMap.mem_values_iff.mp hconfig
    rcases get_fromConfig h name with ⟨hnone, -⟩ | ⟨config', hget', hcreate⟩
    · cases hnone.symm.trans hget
    · cases hget.symm.trans hget'
      exact createMiddleware_ne_panic_iff.mp (Outcome.exists_eq_ok_iff.mp ⟨_, hcreate⟩)
  · intro h
    obtain ⟨middlewares, hfold⟩ := @exists_foldlM_register Regex _ _ .empty
      fun entry hentry => h entry.2 (mem_map_of_mem hentry)
    exact ⟨⟨middlewares⟩, by rw [fromConfig, hfold]; rfl⟩

end MiddlewareRegistry

/-! ## Resolving a route's middlewares -/

/-- The instance carries out the configured middleware a name refers to, with or without
provider. -/
def InstanceOf (configs : HashMap Text MiddlewareConfig) (name : Text)
    (inst : MiddlewareInstance Regex) : Prop :=
  ∃ config, (inst.name = name ∨ inst.name = cleanName name) ∧
    configs.get inst.name = some config ∧ CarriesOut config inst.kind

/-- A name that is dropped would make the chain shorter than the list. -/
lemma forall₂_filterMap_iff {α β : Type} {R : α → β → Prop} {f : α → Option β} {l : List α} :
    List.Forall₂ R l (l.filterMap f) ↔ ∀ x ∈ l, ∃ y, f x = some y ∧ R x y := by
  induction l with
  | nil => simp
  | cons x l ih =>
    cases hx : f x with
    | none =>
      refine iff_of_false (fun h => ?_) fun h => by simpa [hx] using h x mem_cons_self
      have hlength := h.length_eq
      have hle := length_filterMap_le f l
      rw [filterMap_cons_none hx, length_cons] at hlength
      omega
    | some y => simp [hx, ih]

/-- The chain is complete exactly when each name is a configured one and its kind is supported. -/
lemma resolve_complete_iff {configs : HashMap Text MiddlewareConfig} {names : List Text}
    {registry : MiddlewareRegistry Regex}
    (h : MiddlewareRegistry.fromConfig configs = .ok registry) :
    List.Forall₂ (InstanceOf configs) names (registry.resolve names) ↔
      ∀ name ∈ names, ∃ config, configs.get name = some config ∧ config.Supported Regex := by
  have hbuilds := MiddlewareRegistry.exists_fromConfig_iff.mp ⟨registry, h⟩
  have hsome : ∀ name, (∃ inst, registry.middlewares.get name = some inst ∧
      InstanceOf configs name inst) ↔
        ∃ config, configs.get name = some config ∧ config.Supported Regex := by
    intro name
    rcases MiddlewareRegistry.get_fromConfig h name with ⟨hnone, hget⟩ | ⟨config, hconfig, hcreate⟩
    · simp [hnone, hget]
    · have hkind := @exists_carriesOut_iff Regex _ config
        (hbuilds config (HashMap.mem_values_iff.mpr ⟨name, hconfig⟩))
      constructor
      · rintro ⟨inst, hget, config', -, hconfig', hcarries⟩
        rw [hget] at hcreate
        obtain ⟨hname, hcreate⟩ := createMiddleware_eq_ok_some_iff.mp hcreate
        rw [hname] at hconfig'
        cases hconfig.symm.trans hconfig'
        exact ⟨config, hconfig, hkind.mp ⟨inst.kind, hcreate, hcarries⟩⟩
      · rintro ⟨config', hconfig', hsup⟩
        cases hconfig.symm.trans hconfig'
        obtain ⟨kind, hcreated, hcarries⟩ := hkind.mpr hsup
        have hinst : createMiddleware name config = .ok (some ⟨name, kind⟩) :=
          createMiddleware_eq_ok_some_iff.mpr ⟨rfl, hcreated⟩
        exact ⟨⟨name, kind⟩, (Outcome.ok.inj (hinst.symm.trans hcreate)).symm,
          config, .inl rfl, hconfig, hcarries⟩
  exact forall₂_filterMap_iff.trans (forall₂_congr fun name _ => hsome name)

/-- **When no listed middleware is dropped.** For a router of a validated configuration, the
registry is built and the chain has one instance for each listed name, in order, which carries out
its entry, exactly when no realm of a basic authentication makes the constructor panic, every name
stands without a provider suffix (or is configured with it) and its entry is one supported
section. -/
theorem resolve_listed_iff {isUrl : Text → Bool} {config : Config}
    (hvalid : config.validate isUrl = .ok ()) {routerName : Text} {router : RouterConfig}
    (hrouter : config.routers.get routerName = some router) :
    (∃ registry : MiddlewareRegistry Regex,
      MiddlewareRegistry.fromConfig config.middlewares = .ok registry ∧
      List.Forall₂ (InstanceOf config.middlewares) router.middlewares
        (registry.resolve router.middlewares)) ↔
      (∀ mw ∈ config.middlewares.values, mw.Builds) ∧
      ∀ name ∈ router.middlewares,
        (cleanName name = name ∨ config.middlewares.containsKey name = true) ∧
          ∀ mw, config.middlewares.get name = some mw → mw.Supported Regex := by
  have hrefs := (validate_eq_ok_iff.mp hvalid).routers _ (HashMap.get_eq_some_iff.mp hrouter)
  rw [← @MiddlewareRegistry.exists_fromConfig_iff Regex, ← exists_and_right]
  refine exists_congr fun registry => and_congr_right fun hregistry => ?_
  rw [resolve_complete_iff hregistry]
  refine forall_congr' fun name => forall_congr' fun hname => ⟨?_, ?_⟩
  · rintro ⟨mw, hget, hsup⟩
    refine ⟨.inr (by rw [HashMap.containsKey, hget]; rfl), fun mw' hget' => ?_⟩
    cases hget.symm.trans hget'
    exact hsup
  · rintro ⟨hkey, hsup⟩
    -- validation looks for the name with and without its suffix
    have hpresent : config.middlewares.containsKey name := by
      rcases hkey with hclean | hkey
      · have := hrefs.middlewares name hname
        rw [hclean, or_self] at this
        exact this
      · exact hkey
    obtain ⟨mw, hget⟩ := Option.isSome_iff_exists.mp hpresent
    exact ⟨mw, hget, hsup mw hget⟩

end Resolve

def guardedConfig (middlewares : HashMap Text MiddlewareConfig) (names : List Text) : Config where
  entryPoints := .singleton "web" ⟨":80"⟩
  http := some {
    routers := .singleton "admin" {
      rule := "Host(`admin.test`)", service := "app", middlewares := names }
    services := .singleton "app" {
      loadBalancer := some ⟨[{ url := "http://10.0.0.1" }]⟩ }
    middlewares := middlewares }

def passwordAndToken : HashMap Text MiddlewareConfig :=
  ⟨[("password", { basicAuth := some ⟨["root:x"], none⟩ }), ("token", { jwt := true })], by decide⟩

theorem resolve_listed_iff_password :
    ∃ registry : MiddlewareRegistry Literal,
      MiddlewareRegistry.fromConfig passwordAndToken = .ok registry ∧
      List.Forall₂ (InstanceOf passwordAndToken) ["password"]
        (registry.resolve ["password"]) := by
  have hvalid : (guardedConfig passwordAndToken ["password"]).validate (fun _ => true) =
      .ok () := by decide
  have hrouter : (guardedConfig passwordAndToken ["password"]).routers.get "admin" = some _ := rfl
  refine (resolve_listed_iff hvalid hrouter).mpr ⟨fun mw hmw => ?_, fun name hname => ?_⟩
  · -- the default realm
    refine .inr (.inr (.inr (.inr fun c hc => ?_)))
    rcases mem_pair.mp hmw with rfl | rfl
    · cases hc
      exact isValidByte_of_all (by decide +kernel)
    · cases hc
  · rw [mem_singleton.mp hname]
    refine ⟨.inl (by decide), fun mw hmw => ?_⟩
    cases hmw
    exact .basicAuth _

/-- Validation accepts a name with its provider and a token check; the chain that
runs has neither. -/
theorem resolve_drops_listed :
    ¬ ∀ (isUrl : Text → Bool) (config : Config) (routerName : Text) (router : RouterConfig),
      config.validate isUrl = .ok () → config.routers.get routerName = some router →
      ∃ registry : MiddlewareRegistry Literal,
        MiddlewareRegistry.fromConfig config.middlewares = .ok registry ∧
        List.Forall₂ (InstanceOf config.middlewares) router.middlewares
          (registry.resolve router.middlewares) := by
  intro h
  obtain ⟨registry, hregistry, hchain⟩ := h (fun _ => true)
    (guardedConfig passwordAndToken ["password@file", "token"]) "admin" _
    (by decide) rfl
  obtain ⟨mw, hmw, -⟩ := (resolve_complete_iff hregistry).mp hchain "password@file" mem_cons_self
  cases hmw

end TrafficCop
