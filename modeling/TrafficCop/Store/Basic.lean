import TrafficCop.Rust.Core
import TrafficCop.Rust.Text

/-!
# What the stores are made of

The types of `store/mod.rs`, the keys of `ValkeyStore` and its Redis commands on string keys.
-/

namespace Redis

open Rust

/-- Instants and durations are in nanoseconds on one clock. -/
def nanosPerSec : ℕ := 1000000000

/-- A key set with an expiry of `d` seconds at `t` exists on `[t, t + d)`. -/
structure Entry where
  value : Text
  expires : ℕ
  deriving Repr, DecidableEq

/-- The string keys of a database, those that have expired included. -/
abbrev Strings := HashMap Text Entry

/-- `GET key`: an expired key is not seen. -/
def get (db : Strings) (now : ℕ) (key : Text) : Option Text :=
  match HashMap.get db key with
  | some entry => if now < entry.expires then some entry.value else none
  | none => none

/-- `SET key value EX secs`, or the error for an expiry of 0. Meant are expiries whose
milliseconds, with the clock of the server, are an `i64` (292 million years); it refuses others. -/
def setEx (db : Strings) (now : ℕ) (key value : Text) (secs : ℕ) : Option Strings :=
  if secs = 0 then none else some (db.insert key ⟨value, now + nanosPerSec * secs⟩)

def del (db : Strings) (key : Text) : Strings := db.erase key

def keys (glob : Text → Text → Bool) (db : Strings) (now : ℕ) (pattern : Text) : List Text :=
  (db.entries.filter fun entry => now < entry.2.expires ∧ glob pattern entry.1 = true).map Prod.fst

/-- Redis takes expired keys out of the database when it likes. -/
def sweep (db : Strings) (now : ℕ) : Strings := db.retain fun _ entry => now < entry.expires

variable {db : Strings} {now : ℕ} {key key' : Text}

lemma get_eq_some_iff {value : Text} :
    get db now key = some value ↔
      ∃ entry, (key, entry) ∈ db.entries ∧ now < entry.expires ∧ entry.value = value := by
  simp only [← HashMap.get_eq_some_iff, get]
  cases HashMap.get db key with
  | none => simp
  | some entry => simp

lemma get_insert {entry : Entry} :
    get (db.insert key entry) now key' =
      if key' = key then (if now < entry.expires then some entry.value else none)
      else get db now key' := by
  by_cases hkey : key' = key <;> simp [get, HashMap.get_insert, hkey]

lemma get_del : get (del db key) now key' = if key' = key then none else get db now key' := by
  by_cases hkey : key' = key <;> simp [get, del, HashMap.get_erase, hkey]

lemma get_sweep {later : ℕ} (hle : now ≤ later) (key : Text) :
    get (sweep db now) later key = get db later key := by
  rw [get, get, sweep, HashMap.get_retain]
  cases HashMap.get db key with
  | none => rfl
  | some entry =>
    by_cases hlive : now < entry.expires
    · simp [Option.filter, hlive]
    · have hlater : ¬later < entry.expires := by omega
      simp [Option.filter, hlive, hlater]

lemma mem_keys {glob : Text → Text → Bool} {pattern : Text} :
    key ∈ keys glob db now pattern ↔ (get db now key).isSome ∧ glob pattern key := by
  rw [keys, List.mem_map, Option.isSome_iff_exists]
  constructor
  · rintro ⟨⟨key, entry⟩, hmem, rfl⟩
    obtain ⟨hmem, hlive, hglob⟩ : _ ∧ _ ∧ _ := by simpa using hmem
    exact ⟨⟨entry.value, get_eq_some_iff.mpr ⟨entry, hmem, hlive, rfl⟩⟩, hglob⟩
  · rintro ⟨⟨value, hget⟩, hglob⟩
    obtain ⟨entry, hmem, hlive, -⟩ := get_eq_some_iff.mp hget
    exact ⟨(key, entry), by simp [hmem, hlive, hglob], rfl⟩

end Redis

namespace TrafficCop

open Rust

namespace Store

/-- `enum StoreError`, without the texts that come from the Redis client. -/
inductive StoreError where
  | connection
  | timeout
  | notFound
  | serialization
  | unavailable
  deriving Repr, DecidableEq

abbrev StoreResult := Except StoreError

inductive NodeStatus where
  | active
  | draining
  | unhealthy
  deriving Repr, DecidableEq

structure NodeInfo where
  nodeId : Text
  address : Text
  status : NodeStatus
  activeConnections : UInt64
  lastHeartbeat : UInt64
  startedAt : UInt64
  version : Text
  deriving Repr, DecidableEq

structure HealthStatus where
  healthy : Bool := true
  lastCheck : UInt64 := 0
  consecutiveFailures : UInt32 := 0
  lastError : Option Text := none
  deriving Repr, DecidableEq

end Store

/-- `ValkeyStore::key`: the prefix and the parts with a colon before each. -/
def ValkeyStore.key (keyPrefix : Text) (parts : List Text) : Text :=
  parts.foldl (fun key part => key ++ ':' :: part) keyPrefix

lemma ValkeyStore.key_joined (keyPrefix kind a b : Text) :
    ValkeyStore.key keyPrefix [kind, a, b] = ValkeyStore.key keyPrefix [kind, a ++ ':' :: b] := by
  simp [ValkeyStore.key]

/-- Keys of one kind with one name in them are as different as the names. -/
lemma ValkeyStore.key_injective (keyPrefix kind : Text) :
    Function.Injective fun name => ValkeyStore.key keyPrefix [kind, name] := by
  intro name name' h
  simpa [ValkeyStore.key] using h

/-- The databases differ in what is seen for one key. -/
def ValkeyStore.Writes (db db' : Redis.Strings) (x : Text) (f : ℕ → Option Text) : Prop :=
  ∀ t x', Redis.get db' t x' = if x' = x then f t else Redis.get db t x'

lemma ValkeyStore.writes_insert (db : Redis.Strings) (x value : Text) (expires : ℕ) :
    Writes db (db.insert x ⟨value, expires⟩) x fun t => if t < expires then some value else none :=
  fun _ _ => Redis.get_insert

lemma ValkeyStore.writes_del (db : Redis.Strings) (x : Text) :
    Writes db (Redis.del db x) x fun _ => none :=
  fun _ _ => Redis.get_del

lemma ValkeyStore.Writes.get_kind {db db' : Redis.Strings} {keyPrefix kind k : Text}
    {f : ℕ → Option Text} (h : Writes db db' (key keyPrefix [kind, k]) f) (k' : Text) (t : ℕ) :
    Redis.get db' t (key keyPrefix [kind, k']) =
      if k' = k then f t else Redis.get db t (key keyPrefix [kind, k']) := by
  rw [h]
  simp only [(key_injective keyPrefix kind).eq_iff]

end TrafficCop
