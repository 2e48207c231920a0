import TrafficCop.Config.Validate
import TrafficCop.Store.Sessions

/-!
# Health changes on the channel

What `health_set` tells the subscribers. `LocalStore` sends service, server and health state as they
are. `ValkeyStore` publishes `service:server_url:json`, and `run_pubsub_loop` takes it apart at the
first two colons. The URL has a colon of its own, behind its scheme, so the second cut is in the
URL, and its rest ends up in front of the JSON text.
-/

namespace TrafficCop

open Rust Store List Option

/-- What `run_pubsub_loop` passes on to the subscribers of its node. -/
inductive Notice where
  | configChange
  | healthChange (service serverUrl : Text) (status : Store.HealthStatus)
  | nodeDrain (nodeId : Text)
  deriving Repr, DecidableEq

namespace ValkeyStore

variable (keyPrefix : Text) (fromJson : Text → Option Store.HealthStatus)

/-- `run_pubsub_loop` on one message. -/
def onMessage (channel payload : Text) : Option Notice :=
  if channel = key keyPrefix ["events", "config_change"] then some .configChange
  else if channel = key keyPrefix ["events", "health_change"] then do
    -- "Parse health change: "service:server_url:json""
    let (service, rest) ← splitOnce ':' payload
    let (serverUrl, json) ← splitOnce ':' rest
    let status ← fromJson json
    pure (.healthChange service serverUrl status)
  else if channel = key keyPrefix ["events", "node_drain"] then
    some (.nodeDrain payload)
  else none

/-- The loop: what cannot be parsed is passed over. -/
def pubsubLoop (messages : List (Text × Text)) : List Notice :=
  messages.filterMap fun message => onMessage keyPrefix fromJson message.1 message.2

variable {keyPrefix fromJson} {toJson : Store.HealthStatus → Text}

lemma healthSet_published (db : Redis.Strings) (now : ℕ) (service serverUrl : Text)
    (status : Store.HealthStatus) :
    (healthSet keyPrefix db now toJson service serverUrl status).2.1 =
      [(key keyPrefix ["events", "health_change"],
        service ++ ':' :: (serverUrl ++ ':' :: toJson status))] := by
  rw [healthSet, Redis.setEx, if_neg (by decide)]

variable {service before after : Text}

/-- The loop cuts the payload behind the service and at the next colon. -/
lemma onMessage_health (hservice : ':' ∉ service) (hbefore : ':' ∉ before) :
    onMessage keyPrefix fromJson (key keyPrefix ["events", "health_change"])
        (service ++ ':' :: (before ++ ':' :: after)) =
      (fromJson after).map (.healthChange service before) := by
  have hchannel : key keyPrefix ["events", "health_change"] ≠
      key keyPrefix ["events", "config_change"] :=
    fun h => absurd (key_injective keyPrefix _ h) (by decide)
  rw [onMessage, if_neg hchannel, if_pos rfl, splitOnce_append _ hservice]
  simp only [bind_eq_bind, bind_some, splitOnce_append _ hbefore]
  cases fromJson after <;> rfl

/-- What the loop makes of a message of `health_set`. -/
lemma pubsubLoop_healthSet (db : Redis.Strings) (now : ℕ) {serverUrl : Text}
    (status : Store.HealthStatus) (hservice : ':' ∉ service)
    (hbefore : ':' ∉ before) (hcut : serverUrl ++ ':' :: toJson status = before ++ ':' :: after) :
    pubsubLoop keyPrefix fromJson (healthSet keyPrefix db now toJson service serverUrl status).2.1 =
      ((fromJson after).map (.healthChange service before)).toList := by
  rw [healthSet_published, pubsubLoop, filterMap_cons, filterMap_nil, hcut,
    onMessage_health hservice hbefore]
  cases fromJson after <;> rfl

/-- **A health change arrives as it was sent exactly if the URL has no colon.** -/
theorem roundtrip_iff (hjson : ∀ status, fromJson (toJson status) = some status)
    (db : Redis.Strings) (now : ℕ) (hservice : ':' ∉ service) (serverUrl : Text)
    (status : Store.HealthStatus) :
    .healthChange service serverUrl status ∈ pubsubLoop keyPrefix fromJson
      (healthSet keyPrefix db now toJson service serverUrl status).2.1 ↔ ':' ∉ serverUrl := by
  constructor
  · intro h hcolon
    -- the second cut is at the first colon of the URL
    obtain ⟨before, rest, hurl, hbefore⟩ := eq_append_cons_of_mem hcolon
    have hcut : serverUrl ++ ':' :: toJson status =
        before ++ ':' :: (rest ++ ':' :: toJson status) := by simp [hurl]
    rw [pubsubLoop_healthSet db now status hservice hbefore hcut, mem_toList, map_eq_some_iff] at h
    -- the URL that arrives ends before the colon
    obtain ⟨status', -, heq⟩ := h
    obtain ⟨-, rfl, -⟩ := Notice.healthChange.inj heq
    exact hbefore hcolon
  · intro hurl
    rw [pubsubLoop_healthSet db now status hservice hurl rfl, hjson]
    exact mem_singleton.mpr rfl

end ValkeyStore

/-- A server of a configuration that `Config::validate` accepts. -/
def ConfiguredServer (isUrl : Text → Bool) (serverUrl : Text) : Prop :=
  ∃ config : Config, config.validate isUrl = .ok () ∧ ∃ entry ∈ config.services.entries,
    ∃ lb, entry.2.loadBalancer = some lb ∧ ∃ server ∈ lb.servers, server.url = serverUrl

lemma ConfiguredServer.isUrl {isUrl : Text → Bool} {serverUrl : Text}
    (h : ConfiguredServer isUrl serverUrl) : isUrl serverUrl := by
  obtain ⟨config, hvalid, entry, hentry, lb, hlb, server, hserver, rfl⟩ := h
  have hservice := (validate_eq_ok_iff.mp hvalid).services entry hentry
  rw [Service.Valid, hlb] at hservice
  exact hservice.2 server hserver

/-- **No health change of a configured server arrives as it was sent**: an absolute URL has a
scheme and a colon behind it. `LocalStore` sends each of them. -/
theorem health_change_lost {isUrl : Text → Bool} (hscheme : ∀ url, isUrl url = true → ':' ∈ url)
    {toJson : Store.HealthStatus → Text} {fromJson : Text → Option Store.HealthStatus}
    (hjson : ∀ status, fromJson (toJson status) = some status) (keyPrefix : Text)
    {service : Text} (hservice : ':' ∉ service) {serverUrl : Text}
    (hserver : ConfiguredServer isUrl serverUrl) (status : Store.HealthStatus)
    (states : HashMap Text Store.HealthStatus) (db : Redis.Strings) (now : ℕ) :
    (LocalStore.healthSet states service serverUrl status).2.1 = (service, serverUrl, status) ∧
      .healthChange service serverUrl status ∉ ValkeyStore.pubsubLoop keyPrefix fromJson
        (ValkeyStore.healthSet keyPrefix db now toJson service serverUrl status).2.1 := by
  refine ⟨rfl, fun h => ?_⟩
  exact (ValkeyStore.roundtrip_iff hjson db now hservice serverUrl status).mp h
    (hscheme serverUrl hserver.isUrl)

def isHttpUrl (url : Text) : Bool := "http://".toList.isPrefixOf url

def oneServerConfig : Config where
  entryPoints := .singleton "web" { address := ":80" }
  http := some {
    services := .singleton "api" { loadBalancer := some {
      servers := [{ url := "http://10.0.0.1:8080" }] } } }

theorem health_change_lost_http : ConfiguredServer isHttpUrl "http://10.0.0.1:8080" ∧
    .healthChange "api" "http://10.0.0.1:8080" {} ∉
      ValkeyStore.pubsubLoop "tc" readHealth (ValkeyStore.healthSet "tc" .empty 0
        writeHealth "api" "http://10.0.0.1:8080" {}).2.1 := by
  have hconfigured : ConfiguredServer isHttpUrl "http://10.0.0.1:8080" :=
    ⟨oneServerConfig, by decide +kernel, _, mem_singleton.mpr rfl, _, rfl, _,
      mem_singleton.mpr rfl, rfl⟩
  have hscheme : ∀ url, isHttpUrl url → ':' ∈ url := by
    intro url h
    obtain ⟨rest, rfl⟩ := isPrefixOf_iff_prefix.mp h
    exact mem_append_left _ (by decide)
  exact ⟨hconfigured, (health_change_lost hscheme readHealth_writeHealth "tc" (by decide)
    hconfigured {} .empty .empty 0).2⟩

/-- **The change of a server on a port is dropped.** What the loop takes for JSON begins with
`//10.0.0.1:8080`. -/
theorem health_change_dropped :
    (LocalStore.healthSet .empty "api" "http://10.0.0.1:8080" {}).2.1 =
        ("api".toList, "http://10.0.0.1:8080".toList, {}) ∧
      ValkeyStore.pubsubLoop "tc" readHealth (ValkeyStore.healthSet "tc" .empty 0
        writeHealth "api" "http://10.0.0.1:8080" {}).2.1 = [] := by
  constructor <;> decide +kernel

end TrafficCop
