import TrafficCop.Store.LocalRateLimit

/-!
# The failure counters of the stores

The circuit breaker operations of `LocalStore` and `ValkeyStore`. Calls are atomic and both stores
read one clock.

The counter in Redis is a key that expires.
-/

namespace Redis

open Rust

/-- An integer and the end of its key, if it has one. -/
structure Counter where
  value : ℕ
  expires : Option ℕ
  deriving Repr, DecidableEq

abbrev Counters := HashMap Text Counter

/-- What a key holds, if it exists. -/
def counter (db : Counters) (now : ℕ) (key : Text) : Option Counter :=
  (HashMap.get db key).filter fun c => c.expires.all fun ends => decide (now < ends)

/-- `INCRBY key 1`, or the error for an overflow of the signed 64 bits. -/
def incr (db : Counters) (now : ℕ) (key : Text) : Option (Counters × ℕ) :=
  let c := (counter db now key).getD ⟨0, none⟩
  if c.value + 1 < 2 ^ 63 then
    some (db.insert key { c with value := c.value + 1 }, c.value + 1)
  else none

/-- `EXPIRE key secs`: the key is deleted if there is no time left. Meant are
seconds whose milliseconds are an `i64`, as for `SET`. -/
def expire (db : Counters) (now : ℕ) (key : Text) (secs : ℤ) : Counters :=
  match counter db now key with
  | some c =>
    if secs ≤ 0 then db.erase key
    else db.insert key { c with expires := some (now + nanosPerSec * secs.toNat) }
  | none => db

end Redis

namespace TrafficCop

open Rust Store Timed Redis

/-- What a store is asked; the window is that of the service. -/
inductive CircuitOp where
  | fail (service : Text)
  | success (service : Text)
  | failures (service : Text)
  deriving Repr, DecidableEq

inductive CircuitAnswer where
  | count (result : StoreResult UInt64)
  | done (result : StoreResult Unit)

structure CircuitBreakerEntry where
  failures : UInt64
  windowStart : ℕ
  deriving Repr, DecidableEq

namespace LocalStore

/-- The start of the window is never moved: a failure after its end sets the count to 1, and so does
every one behind it. -/
def circuitBreakerFail (circuitBreakers : HashMap Text CircuitBreakerEntry) (now : ℕ)
    (service : Text) (windowSecs : UInt64) :
    HashMap Text CircuitBreakerEntry × StoreResult UInt64 :=
  let entry := (circuitBreakers.get service).getD ⟨0, now⟩
  if now - entry.windowStart ≥ windowDuration windowSecs then
    -- a new window, with the start of the old one
    (circuitBreakers.insert service { entry with failures := 1 }, .ok 1)
  else
    (circuitBreakers.insert service { entry with failures := entry.failures + 1 },
      .ok (entry.failures + 1))

def circuitBreakerSuccess (circuitBreakers : HashMap Text CircuitBreakerEntry) (service : Text) :
    HashMap Text CircuitBreakerEntry × StoreResult Unit :=
  (circuitBreakers.erase service, .ok ())

/-- The window is not looked at. -/
def circuitBreakerFailures (circuitBreakers : HashMap Text CircuitBreakerEntry) (service : Text) :
    StoreResult UInt64 :=
  match circuitBreakers.get service with
  | some entry => .ok entry.failures
  | none => .ok 0

/-- The window of a service is the same in all its calls. -/
def circuitOp (window : Text → UInt64) (circuitBreakers : HashMap Text CircuitBreakerEntry)
    (now : ℕ) : CircuitOp → HashMap Text CircuitBreakerEntry × CircuitAnswer
  | .fail service =>
    (circuitBreakerFail circuitBreakers now service (window service)).map id .count
  | .success service => (circuitBreakerSuccess circuitBreakers service).map id .done
  | .failures service => (circuitBreakers, .count (circuitBreakerFailures circuitBreakers service))

end LocalStore

namespace ValkeyStore

def circuitBreakerFail (keyPrefix : Text) (db : Counters) (now : ℕ) (service : Text)
    (windowSecs : UInt64) : Counters × StoreResult UInt64 :=
  let key := key keyPrefix ["circuit", service]
  match incr db now key with
  | some (db, count) =>
    -- the expiry is set on the first failure
    if count = 1 then (expire db now key windowSecs.toInt64.toInt, .ok (UInt64.ofNat count))
    else (db, .ok (UInt64.ofNat count))
  | none => (db, .error .connection)

def circuitBreakerSuccess (keyPrefix : Text) (db : Counters) (service : Text) :
    Counters × StoreResult Unit :=
  (db.erase (key keyPrefix ["circuit", service]), .ok ())

def circuitBreakerFailures (keyPrefix : Text) (db : Counters) (now : ℕ) (service : Text) :
    StoreResult UInt64 :=
  .ok (((counter db now (key keyPrefix ["circuit", service])).map fun c =>
    UInt64.ofNat c.value).getD 0)

def circuitOp (keyPrefix : Text) (window : Text → UInt64) (db : Counters) (now : ℕ) :
    CircuitOp → Counters × CircuitAnswer
  | .fail service =>
    (circuitBreakerFail keyPrefix db now service (window service)).map id .count
  | .success service => (circuitBreakerSuccess keyPrefix db service).map id .done
  | .failures service => (db, .count (circuitBreakerFailures keyPrefix db now service))

end ValkeyStore

namespace CircuitCounters

/-! ## The history of a service -/

def failuresSince (service : Text) (calls : List (ℕ × CircuitOp)) : List ℕ :=
  calls.foldl (fun times x =>
    match x.2 with
    | .fail service' => if service' = service then times ++ [x.1] else times
    | .success service' => if service' = service then [] else times
    | .failures _ => times) []

/-- How long a key lives in Redis: its window, unless the seconds are negative as a signed number.
-/
def keyLife (windowSecs : UInt64) : ℕ := nanosPerSec * windowSecs.toInt64.toInt.toNat

/-- Equal answers to a failure: it is the first since the last success, or comes in the window of
the first (with room), or behind it with no counter in Redis. -/
def FailAgrees (windowSecs : UInt64) (now : ℕ) (counter : Option Counter) : List ℕ → Prop
  | [] => True
  | first :: rest =>
    now < first + keyLife windowSecs ∧ rest.length + 2 < 2 ^ 63 ∨
      first + windowDuration windowSecs ≤ now ∧ counter = none

/-- The same for every call, with the counters of the calls before it. -/
def Agrees (keyPrefix : Text) (window : Text → UInt64) (before : List (ℕ × CircuitOp))
    (db : Counters) (x : ℕ × CircuitOp) : Prop :=
  match x.2 with
  | .fail service =>
    FailAgrees (window service) x.1
      (counter db x.1 (ValkeyStore.key keyPrefix ["circuit", service]))
      (failuresSince service before)
  | .success _ => True
  | .failures service =>
    failuresSince service before = [] ∨
      (counter db x.1 (ValkeyStore.key keyPrefix ["circuit", service])).isSome = true

lemma keyLife_eq (windowSecs : UInt64) :
    keyLife windowSecs = 0 ∨ keyLife windowSecs = windowDuration windowSecs := by
  have hint : windowSecs.toInt64.toInt =
      if 2 * windowSecs.toNat < 2 ^ 64 then (windowSecs.toNat : ℤ)
      else (windowSecs.toNat : ℤ) - (2 ^ 64 : ℕ) :=
    BitVec.toInt_eq_toNat_cond windowSecs.toBitVec
  have hlt := windowSecs.toNat_lt
  rw [keyLife, windowDuration, hint]
  split
  · exact .inr (by rw [Int.toNat_natCast])
  · exact .inl (by rw [Int.toNat_of_nonpos (by omega), Nat.mul_zero])

lemma failuresSince_concat (service : Text) (calls : List (ℕ × CircuitOp)) (x : ℕ × CircuitOp) :
    failuresSince service (calls ++ [x]) =
      match x.2 with
      | .fail service' =>
        if service' = service then failuresSince service calls ++ [x.1]
        else failuresSince service calls
      | .success service' => if service' = service then [] else failuresSince service calls
      | .failures _ => failuresSince service calls := by
  rw [failuresSince, List.foldl_append]
  rfl

lemma mem_failuresSince {service : Text} {calls : List (ℕ × CircuitOp)} {t : ℕ}
    (h : t ∈ failuresSince service calls) : ∃ x ∈ calls, x.1 = t := by
  refine List.foldlRecOn (motive := fun times => ∀ t ∈ times, ∃ x ∈ calls, x.1 = t) calls _
    (by simp) (fun times h x hx t ht => ?_) t h
  obtain ⟨now, op⟩ := x
  cases op with
  | fail service' =>
    dsimp only at ht
    split at ht
    · rcases List.mem_append.mp ht with ht | ht
      · exact h t ht
      · exact ⟨_, hx, (List.mem_singleton.mp ht).symm⟩
    · exact h t ht
  | success service' =>
    dsimp only at ht
    split at ht
    · cases ht
    · exact h t ht
  | failures service' => exact h t ht

/-! ## One call of a service -/

/-- What a failure makes of the entry of a service. -/
def entryAfter (windowSecs : UInt64) (now : ℕ) (entry : Option CircuitBreakerEntry) :
    CircuitBreakerEntry :=
  let entry := entry.getD ⟨0, now⟩
  { entry with
    failures := if windowDuration windowSecs ≤ now - entry.windowStart then 1
      else entry.failures + 1 }

/-- What is left of a key. -/
def live (now : ℕ) (raw : Option Counter) : Option Counter :=
  raw.filter fun c => c.expires.all fun ends => decide (now < ends)

/-- What a failure makes of the key of a service, which never holds a 0, and its answer. -/
def keyAfter (windowSecs : UInt64) (now : ℕ) (raw : Option Counter) :
    Option Counter × StoreResult UInt64 :=
  match live now raw with
  | none =>
    (if keyLife windowSecs = 0 then none else some ⟨1, some (now + keyLife windowSecs)⟩, .ok 1)
  | some c =>
    if c.value + 1 < 2 ^ 63 then
      (some { c with value := c.value + 1 }, .ok (UInt64.ofNat (c.value + 1)))
    else (raw, .error .connection)

section Calls

variable {keyPrefix : Text} {circuitBreakers : HashMap Text CircuitBreakerEntry} {db : Counters}
  {now : ℕ} {service : Text} {windowSecs : UInt64}

lemma localFail_eq :
    LocalStore.circuitBreakerFail circuitBreakers now service windowSecs =
      (circuitBreakers.insert service (entryAfter windowSecs now (circuitBreakers.get service)),
        .ok (entryAfter windowSecs now (circuitBreakers.get service)).failures) := by
  unfold LocalStore.circuitBreakerFail entryAfter
  dsimp only
  split <;> rfl

lemma get_expire {key key' : Text} {c : Counter} (h : counter db now key = some c) :
    HashMap.get (expire db now key windowSecs.toInt64.toInt) key' =
      if key' = key then
        if keyLife windowSecs = 0 then none
        else some { c with expires := some (now + keyLife windowSecs) }
      else HashMap.get db key' := by
  have hlife : keyLife windowSecs = 0 ↔ windowSecs.toInt64.toInt ≤ 0 := by
    rw [keyLife, Nat.mul_eq_zero, Int.toNat_eq_zero]
    exact or_iff_right (by decide)
  rw [expire, h]
  dsimp only
  by_cases hsecs : windowSecs.toInt64.toInt ≤ 0
  · rw [if_pos hsecs, if_pos (hlife.mpr hsecs), HashMap.get_erase]
  · rw [if_neg hsecs, if_neg (mt hlife.mp hsecs), HashMap.get_insert]
    rfl

lemma valkeyFail_eq {key : Text} (hkey : ValkeyStore.key keyPrefix ["circuit", service] = key)
    (hpos : ∀ c, HashMap.get db key = some c → 0 < c.value) :
    (ValkeyStore.circuitBreakerFail keyPrefix db now service windowSecs).2 =
        (keyAfter windowSecs now (HashMap.get db key)).2 ∧
      ∀ key', HashMap.get
          (ValkeyStore.circuitBreakerFail keyPrefix db now service windowSecs).1 key' =
        if key' = key then (keyAfter windowSecs now (HashMap.get db key)).1
        else HashMap.get db key' := by
  rw [ValkeyStore.circuitBreakerFail, keyAfter, show live now _ = counter db now key from rfl, hkey,
    incr]
  cases hc : counter db now key with
  | none =>
    have hnew : counter (db.insert key ⟨1, none⟩) now key = some ⟨1, none⟩ := by
      rw [counter, HashMap.get_insert, if_pos rfl]
      rfl
    refine ⟨rfl, fun key' => (get_expire hnew).trans ?_⟩
    rw [HashMap.get_insert]
    split <;> rfl
  | some c =>
    have hone : c.value + 1 ≠ 1 := by
      have := hpos c (Option.filter_eq_some_iff.mp hc).1
      omega
    rw [Option.getD_some]
    by_cases hroom : c.value + 1 < 2 ^ 63
    · simp only [if_pos hroom, if_neg hone]
      exact ⟨trivial, fun key' => HashMap.get_insert⟩
    · simp only [if_neg hroom]
      refine ⟨trivial, fun key' => ?_⟩
      split
      · next heq => rw [heq]
      · rfl

end Calls

/-- The two counters as long as answers agree: none; both in the window of the first failure; both
at 1 behind it; or a key gone at once. -/
inductive Related (length life : ℕ) :
    List ℕ → Option CircuitBreakerEntry → Option Counter → Prop
  | fresh : Related length life [] none none
  | counting {first : ℕ} {rest : List ℕ} {failures : UInt64}
      (hcount : failures.toNat = rest.length + 1) (hroom : rest.length + 1 < 2 ^ 63)
      (hlife : 0 < life) :
      Related length life (first :: rest) (some ⟨failures, first⟩)
        (some ⟨rest.length + 1, some (first + life)⟩)
  | behind {first t ends : ℕ} {rest : List ℕ} (hmem : t ∈ rest) (hover : first + length ≤ t) :
      Related length life (first :: rest) (some ⟨1, first⟩) (some ⟨1, some ends⟩)
  | unkept {first : ℕ} {rest : List ℕ} (hlife : life = 0) :
      Related length life (first :: rest) (some ⟨1, first⟩) none

section Service

variable {windowSecs : UInt64} {now : ℕ} {times : List ℕ} {entry : Option CircuitBreakerEntry}
  {raw : Option Counter}

lemma Related.value_pos {length life : ℕ} (h : Related length life times entry raw) (c : Counter)
    (hc : raw = some c) : 0 < c.value := by
  cases h <;> cases hc
  · exact Nat.succ_pos _
  · exact Nat.one_pos

lemma live_some {value ends : ℕ} :
    live now (some ⟨value, some ends⟩) = if now < ends then some ⟨value, some ends⟩ else none := by
  simp [live, Option.filter]

variable (windowSecs now times entry raw) in
/-- When a failure is answered alike, and what it leaves then. -/
structure FailSpec : Prop where
  answer_iff : .ok (entryAfter windowSecs now entry).failures = (keyAfter windowSecs now raw).2 ↔
    FailAgrees windowSecs now (live now raw) times
  related : FailAgrees windowSecs now (live now raw) times →
    Related (windowDuration windowSecs) (keyLife windowSecs) (times ++ [now])
      (some (entryAfter windowSecs now entry)) (keyAfter windowSecs now raw).1

lemma entryAfter_within {failures : UInt64} {first : ℕ}
    (h : now < first + windowDuration windowSecs) (hle : first ≤ now) :
    entryAfter windowSecs now (some ⟨failures, first⟩) = ⟨failures + 1, first⟩ := by
  simp only [entryAfter, Option.getD_some]
  rw [if_neg (by omega)]

lemma entryAfter_over {failures : UInt64} {first : ℕ}
    (h : first + windowDuration windowSecs ≤ now) :
    entryAfter windowSecs now (some ⟨failures, first⟩) = ⟨1, first⟩ := by
  simp only [entryAfter, Option.getD_some]
  rw [if_pos (by omega)]

/-- Behind the window and without a counter in Redis, both start again at 1. -/
lemma failSpec_of_over {failures : UInt64} {first : ℕ}
    (hover : first + windowDuration windowSecs ≤ now) (hnone : live now raw = none)
    (rest : List ℕ) : FailSpec windowSecs now (first :: rest) (some ⟨failures, first⟩) raw := by
  refine ⟨?_, fun _ => ?_⟩ <;> rw [entryAfter_over hover, keyAfter, hnone]
  · exact iff_of_true rfl (.inr ⟨hover, rfl⟩)
  · dsimp only
    split
    · next hzero => exact .unkept hzero
    · exact .behind (t := now) (by simp) hover

lemma Related.fail (h : Related (windowDuration windowSecs) (keyLife windowSecs) times entry raw)
    (horder : ∀ t ∈ times, t ≤ now) : FailSpec windowSecs now times entry raw := by
  have hlife := keyLife_eq windowSecs
  cases h with
  | fresh =>
    -- a new entry counts 1, also in a window of no length
    have hentry : entryAfter windowSecs now none = ⟨1, now⟩ := by
      simp [entryAfter]
    refine ⟨?_, fun _ => ?_⟩ <;> rw [hentry]
    · exact iff_of_true rfl trivial
    · dsimp only [keyAfter, live, Option.filter_none]
      split
      · next hzero => exact .unkept hzero
      · next hne => exact .counting rfl (by decide) (Nat.pos_of_ne_zero hne)
  | @counting first rest failures hcount hroom hpos =>
    have heq : keyLife windowSecs = windowDuration windowSecs := hlife.resolve_left (by omega)
    by_cases hend : now < first + keyLife windowSecs
    · have hlive : live now (some ⟨rest.length + 1, some (first + keyLife windowSecs)⟩) = _ :=
        live_some.trans (if_pos hend)
      have hiff : ∀ {c}, FailAgrees windowSecs now (some c) (first :: rest) ↔
          rest.length + 1 + 1 < 2 ^ 63 := by
        intro c
        rw [FailAgrees]
        simp only [reduceCtorEq, and_false, or_false]
        exact and_iff_right hend
      have hsucc : rest.length + 1 + 1 < 2 ^ 63 → (failures + 1).toNat = rest.length + 1 + 1 :=
        fun hmore => by
          rw [UInt64.toNat_add, UInt64.toNat_one, Nat.mod_eq_of_lt (by omega), hcount]
      refine ⟨?_, fun hagrees => ?_⟩
      · rw [keyAfter, hlive, hiff, entryAfter_within (heq ▸ hend) (horder first (by simp))]
        dsimp only
        split
        · next hmore =>
          exact iff_of_true (by rw [← hsucc hmore, UInt64.ofNat_toNat]) hmore
        · next hfull => exact iff_of_false nofun hfull
      · rw [hlive, hiff] at hagrees
        have hlength : (rest ++ [now]).length = rest.length + 1 := List.length_append
        rw [keyAfter, hlive, entryAfter_within (heq ▸ hend) (horder first (by simp))]
        dsimp only
        rw [if_pos hagrees, List.cons_append, ← hlength]
        exact .counting (by rw [hsucc hagrees, hlength]) (by rwa [hlength]) hpos
    · exact failSpec_of_over (by omega) (live_some.trans (if_neg hend)) rest
  | @behind first t ends rest hmem hover =>
    have hover : first + windowDuration windowSecs ≤ now :=
      Nat.le_trans hover (horder t (List.mem_cons_of_mem _ hmem))
    by_cases hend : now < ends
    · -- the second failure in a later window: 1 here, 2 in Redis
      have hlive : live now (some ⟨1, some ends⟩) = _ := live_some.trans (if_pos hend)
      have hnot : ¬FailAgrees windowSecs now (live now (some ⟨1, some ends⟩)) (first :: rest) := by
        rw [hlive]
        rintro (⟨hwithin, -⟩ | ⟨-, hnone⟩)
        · omega
        · cases hnone
      refine ⟨iff_of_false ?_ hnot, fun h => absurd h hnot⟩
      rw [entryAfter_over hover, keyAfter, hlive]
      rintro ⟨⟩
    · exact failSpec_of_over hover (live_some.trans (if_neg hend)) rest
  | @unkept first rest hzero =>
    by_cases hover : first + windowDuration windowSecs ≤ now
    · exact failSpec_of_over hover rfl rest
    · have hfirst := horder first (List.mem_cons_self ..)
      have hnot : ¬FailAgrees windowSecs now none (first :: rest) := by
        rintro (⟨hwithin, -⟩ | ⟨hbehind, -⟩) <;> omega
      refine ⟨iff_of_false ?_ hnot, fun h => absurd h hnot⟩
      rw [entryAfter_within (by omega) hfirst]
      rintro ⟨⟩

lemma Related.failures
    (h : Related (windowDuration windowSecs) (keyLife windowSecs) times entry raw) :
    (entry.map (·.failures)).getD 0 =
        ((live now raw).map fun c => UInt64.ofNat c.value).getD 0 ↔
      times = [] ∨ (live now raw).isSome := by
  cases h with
  | fresh => exact iff_of_true rfl (.inl rfl)
  | @counting first rest failures hcount hroom hpos =>
    rw [live_some]
    split
    · rw [Option.map_some, Option.getD_some, Option.map_some, Option.getD_some, ← hcount,
        UInt64.ofNat_toNat]
      exact iff_of_true rfl (.inr rfl)
    · refine iff_of_false (fun heq => ?_) (by simp)
      obtain rfl : failures = 0 := heq
      exact absurd hcount.symm (Nat.succ_ne_zero _)
  | behind =>
    rw [live_some]
    split
    · exact iff_of_true rfl (.inr rfl)
    · exact iff_of_false nofun (by simp)
  | unkept => exact iff_of_false nofun (by simp [live])

end Service

/-! ## Runs -/

/-- The entries of every service are related. -/
def AllRelated (keyPrefix : Text) (window : Text → UInt64) (before : List (ℕ × CircuitOp))
    (circuitBreakers : HashMap Text CircuitBreakerEntry) (db : Counters) : Prop :=
  ∀ service, Related (windowDuration (window service)) (keyLife (window service))
    (failuresSince service before) (circuitBreakers.get service)
    (HashMap.get db (ValkeyStore.key keyPrefix ["circuit", service]))

section Runs

variable {keyPrefix : Text} {window : Text → UInt64} {before : List (ℕ × CircuitOp)}
  {circuitBreakers : HashMap Text CircuitBreakerEntry} {db : Counters} {x : ℕ × CircuitOp}

lemma le_of_inOrder {service : Text} (horder : InOrder (before ++ [x])) :
    ∀ t ∈ failuresSince service before, t ≤ x.1 := by
  intro t ht
  obtain ⟨y, hy, rfl⟩ := mem_failuresSince ht
  exact (List.pairwise_append.mp horder).2.2 y hy x (by simp)

lemma AllRelated.answer_iff (h : AllRelated keyPrefix window before circuitBreakers db)
    (horder : InOrder (before ++ [x])) :
    (LocalStore.circuitOp window circuitBreakers x.1 x.2).2 =
        (ValkeyStore.circuitOp keyPrefix window db x.1 x.2).2 ↔
      Agrees keyPrefix window before db x := by
  have hcount : ∀ {r r'}, CircuitAnswer.count r = .count r' ↔ r = r' :=
    ⟨CircuitAnswer.count.inj, congrArg CircuitAnswer.count⟩
  obtain ⟨now, op⟩ := x
  cases op with
  | fail service =>
    dsimp only [LocalStore.circuitOp, ValkeyStore.circuitOp, Prod.map]
    rw [hcount, localFail_eq, (valkeyFail_eq rfl (h service).value_pos).1]
    exact ((h service).fail (le_of_inOrder horder)).answer_iff
  | success service => exact iff_of_true rfl trivial
  | failures service =>
    refine Iff.trans (hcount.trans ?_) (h service).failures
    rw [LocalStore.circuitBreakerFailures]
    cases circuitBreakers.get service <;> exact ⟨Except.ok.inj, congrArg Except.ok⟩

lemma AllRelated.next (h : AllRelated keyPrefix window before circuitBreakers db)
    (horder : InOrder (before ++ [x])) (hagrees : Agrees keyPrefix window before db x) :
    AllRelated keyPrefix window (before ++ [x])
      (LocalStore.circuitOp window circuitBreakers x.1 x.2).1
      (ValkeyStore.circuitOp keyPrefix window db x.1 x.2).1 := by
  obtain ⟨now, op⟩ := x
  intro other
  rw [failuresSince_concat]
  have hkey : ∀ {service}, service ≠ other → ValkeyStore.key keyPrefix ["circuit", other] ≠
      ValkeyStore.key keyPrefix ["circuit", service] := fun hne heq =>
    hne (ValkeyStore.key_injective keyPrefix _ heq).symm
  cases op with
  | fail service =>
    dsimp only [LocalStore.circuitOp, ValkeyStore.circuitOp, Prod.map, id]
    rw [localFail_eq, HashMap.get_insert, (valkeyFail_eq rfl (h service).value_pos).2]
    by_cases heq : service = other
    · subst heq
      rw [if_pos rfl, if_pos rfl, if_pos rfl]
      exact ((h service).fail (le_of_inOrder horder)).related hagrees
    · rw [if_neg heq, if_neg (Ne.symm heq), if_neg (hkey heq)]
      exact h other
  | success service =>
    dsimp only [LocalStore.circuitOp, ValkeyStore.circuitOp, Prod.map, id,
      LocalStore.circuitBreakerSuccess, ValkeyStore.circuitBreakerSuccess]
    rw [HashMap.get_erase, HashMap.get_erase]
    by_cases heq : service = other
    · subst heq
      rw [if_pos rfl, if_pos rfl, if_pos rfl]
      exact .fresh
    · rw [if_neg heq, if_neg (Ne.symm heq), if_neg (hkey heq)]
      exact h other
  | failures service => exact h other

end Runs

/-- **When the two stores give the same numbers**: exactly if every read comes when nothing has
failed since the last success or the counter exists in Redis, and every failure is the first since
then, in the window of the first one, or behind that window when there is no counter in Redis. -/
theorem counters_agree_iff (keyPrefix : Text) (window : Text → UInt64)
    (calls : List (ℕ × CircuitOp)) (horder : InOrder calls) :
    (operate (LocalStore.circuitOp window) .empty calls).log =
        (operate (ValkeyStore.circuitOp keyPrefix window) .empty calls).log ↔
      ∀ before x, before ++ [x] <+: calls →
        Agrees keyPrefix window before
          (operate (ValkeyStore.circuitOp keyPrefix window) .empty before).state x :=
  log_eq_iff (R := AllRelated keyPrefix window)
    (D := fun before _ db x => Agrees keyPrefix window before db x) (fun _ => .fresh)
    (fun _ _ _ _ h horder => h.answer_iff horder) (fun _ _ _ _ h horder => h.next horder) horder

def atSeconds (calls : List (ℕ × CircuitOp)) : List (ℕ × CircuitOp) :=
  calls.map fun x => (nanosPerSec * x.1, x.2)

def minuteCalls : List (ℕ × CircuitOp) :=
  atSeconds [(0, .fail "api"), (1, .success "api"), (2, .fail "api"),
    (30, .fail "api"), (31, .failures "api")]

theorem counters_agree_minute :
    (operate (LocalStore.circuitOp fun _ => 60) .empty minuteCalls).log =
        (operate (ValkeyStore.circuitOp "tc" fun _ => 60) .empty minuteCalls).log ∧
      ∀ before x, before ++ [x] <+: minuteCalls →
        Agrees "tc" (fun _ => 60) before
          (operate (ValkeyStore.circuitOp "tc" fun _ => 60) .empty before).state x := by
  have hlog : (operate (LocalStore.circuitOp fun _ => 60) .empty minuteCalls).log =
      (operate (ValkeyStore.circuitOp "tc" fun _ => 60) .empty minuteCalls).log := rfl
  exact ⟨hlog, (counters_agree_iff "tc" (fun _ => 60) minuteCalls (by decide)).mp hlog⟩

/-- Behind a window of a minute the local count is still there, and the failures of the next minute
are all the first. -/
theorem counters_disagree :
    (operate (LocalStore.circuitOp fun _ => 60) .empty (atSeconds
        [(0, .fail "api"), (60, .failures "api"), (61, .fail "api"),
          (62, .fail "api")])).log.map (·.answer) =
      [.count (.ok 1), .count (.ok 1), .count (.ok 1), .count (.ok 1)] ∧
    (operate (ValkeyStore.circuitOp "tc" fun _ => 60) .empty (atSeconds
        [(0, .fail "api"), (60, .failures "api"), (61, .fail "api"),
          (62, .fail "api")])).log.map (·.answer) =
      [.count (.ok 1), .count (.ok 0), .count (.ok 1), .count (.ok 2)] := by
  exact ⟨rfl, rfl⟩

end CircuitCounters

end TrafficCop
