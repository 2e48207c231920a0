import Mathlib.Data.Bool.Count
import TrafficCop.Lib.Quota
import TrafficCop.Lib.Transition
import TrafficCop.Middleware.RateLimitCleanup
import TrafficCop.Store.LocalRateLimit

/-!
# Rate limits that are shared through a store

`RateLimitMiddleware` of `middleware/builtin/rate_limit.rs` with a store, and
`is_allowed_distributed_by_key`. A call that the local bucket lets through asks the store, which
counts it. Before that the call may have spawned a task that asks the store as well.

The store is the local one, whose checks do not fail.
-/

namespace TrafficCop

open Rust Store Transition List Option

def syncInterval : ℕ := 100000000

/-- `struct RateLimitMiddleware` with its store, and what is under way. -/
structure SyncedRateLimit where
  limiter : RateLimitMiddleware
  lastSync : Text → Option ℕ
  rateLimits : HashMap Text RateLimitEntry
  /-- Keys of the sync tasks that have not run yet. -/
  spawned : List Text
  /-- Keys of the calls that have yet to ask the store. -/
  waiting : List Text
  /-- The answers of `is_allowed_distributed_by_key`, in the order in which they were given. -/
  answers : List (Text × Bool)

namespace SyncedRateLimit

def windowSecs (config : RateLimitConfig) : UInt64 :=
  maxU64 (UInt64.ofNat (config.period / Redis.nanosPerSec)) 1

variable (s : SyncedRateLimit)

/-- For the first call of a key, and then once in 100 ms. -/
def shouldSync (key : Text) (now : ℕ) : Bool :=
  match s.lastSync key with
  | some last => decide (syncInterval ≤ now - last)
  | none => true

def maybeScheduleSync (key : Text) (now : ℕ) : SyncedRateLimit :=
  if s.shouldSync key now then
    { s with
      lastSync := Function.update s.lastSync key (some now)
      spawned := key :: s.spawned }
  else s

def isAllowedByKey (call : RateCall) : Bool × SyncedRateLimit :=
  ((s.limiter.isAllowedByKey call).1,
    maybeScheduleSync { s with limiter := (s.limiter.isAllowedByKey call).2 } call.key call.now)

def rateLimitCheck (key : Text) (now : ℕ) (wallMillis : UInt64) :
    HashMap Text RateLimitEntry × RateLimitAnswer :=
  LocalStore.rateLimitCheck s.rateLimits now key s.limiter.config.average
    (windowSecs s.limiter.config) wallMillis

/-- `cleanup`, with the times of the syncs. -/
def cleanup (now maxAge : ℕ) : SyncedRateLimit :=
  { s with
    limiter := s.limiter.cleanup now maxAge
    lastSync := fun key => (s.lastSync key).filter fun last => now - last < maxAge }

inductive Action where
  /-- The local part of a call. -/
  | call (call : RateCall)
  /-- A call that was let through locally asks the store. -/
  | check (key : Text) (now : ℕ) (wallMillis : UInt64)
  /-- A spawned task asks the store. -/
  | sync (key : Text) (now : ℕ) (wallMillis : UInt64)
  | cleanup (now : ℕ)

/-- One part of a call, a task or a clean-up, in any order. -/
def step : Action → Option SyncedRateLimit
  | .call call =>
    let r := s.isAllowedByKey call
    -- "If local says no, trust it (fail fast)"
    some (if r.1 then { r.2 with waiting := call.key :: s.waiting }
      else { r.2 with answers := s.answers ++ [(call.key, false)] })
  | .check key now wallMillis =>
    let r := s.rateLimitCheck key now wallMillis
    if s.waiting.contains key then
      some { s with
        rateLimits := r.1
        waiting := s.waiting.erase key
        answers := s.answers ++ [(key, r.2.1)] }
    else none
  | .sync key now wallMillis =>
    let r := s.rateLimitCheck key now wallMillis
    if s.spawned.contains key then
      some { s with
        rateLimits := r.1
        spawned := s.spawned.erase key }
    else none
  | .cleanup now => some (s.cleanup now cleanupMaxAge)

def inWindow (key : Text) (now : ℕ) : Bool :=
  match s.rateLimits.get key with
  | some entry => decide (entry.windowStart ≤ now ∧
      now < entry.windowStart + windowDuration (windowSecs s.limiter.config))
  | none => true

/-- Calls for the key are let through locally, and the store is asked within one window. -/
def permitted (key : Text) (s : SyncedRateLimit) : Action → Bool
  | .call call => call.key != key || (s.isAllowedByKey call).1
  | .check key' now _ => key' != key || s.inWindow key now
  | .sync key' now _ => key' != key || s.inWindow key now
  | .cleanup _ => true

/-- Nothing is known about the key, and nothing is under way for it. -/
structure Fresh (key : Text) (s : SyncedRateLimit) : Prop where
  lastSync : s.lastSync key = none
  rateLimits : s.rateLimits.get key = none
  spawned : key ∉ s.spawned
  waiting : key ∉ s.waiting
  answers : ∀ answer ∈ s.answers, answer.1 ≠ key

def callsOf (key : Text) (as : List Action) : ℕ :=
  as.countP fun
    | .call call => call.key == key
    | _ => false

/-- Who asked the store about the key, in order: calls (`true`) and tasks. -/
def asked (key : Text) (as : List Action) : List Bool :=
  as.filterMap fun
    | .check key' _ _ => if key' = key then some true else none
    | .sync key' _ _ => if key' = key then some false else none
    | _ => none

def recorded (rateLimits : HashMap Text RateLimitEntry) (key : Text) : ℕ :=
  ((rateLimits.get key).map (·.count.toNat)).getD 0

def answersOf (key : Text) (s : SyncedRateLimit) : List Bool :=
  (s.answers.filter (·.1 = key)).map Prod.snd

/-! ## One check -/

lemma windowDuration_pos (config : RateLimitConfig) : 0 < windowDuration (windowSecs config) := by
  have hsecs : 1 ≤ (windowSecs config).toNat := by
    rw [windowSecs, toNat_maxU64]
    exact Nat.le_max_right _ _
  rw [windowDuration, Redis.nanosPerSec]
  omega

lemma get_rateLimitCheck_of_ne {key key' : Text} (h : key ≠ key')
    (now : ℕ) (wallMillis : UInt64) :
    (s.rateLimitCheck key' now wallMillis).1.get key = s.rateLimits.get key := by
  rw [rateLimitCheck, LocalStore.rateLimitCheck]
  split
  · rw [HashMap.get_insert, if_neg h]
  · dsimp only
    split <;> rw [HashMap.get_insert, if_neg h]

/-- **A check within the window takes from the quota**, if any is left. -/
theorem rateLimitCheck_within {s : SyncedRateLimit} {key : Text} {now : ℕ}
    (hin : s.inWindow key now)
    (hle : recorded s.rateLimits key ≤ s.limiter.config.average.toNat) (wallMillis : UInt64) :
    (s.rateLimitCheck key now wallMillis).2.1 =
        decide (recorded s.rateLimits key < s.limiter.config.average.toNat) ∧
      recorded (s.rateLimitCheck key now wallMillis).1 key =
        min (recorded s.rateLimits key + 1) s.limiter.config.average.toNat := by
  have hpos := windowDuration_pos s.limiter.config
  generalize hentry : (s.rateLimits.get key).getD ⟨0, now⟩ = entry
  have hcount : recorded s.rateLimits key = entry.count.toNat := by
    rw [recorded, ← hentry]
    cases s.rateLimits.get key <;> rfl
  have hrunning : ¬windowDuration (windowSecs s.limiter.config) ≤ now - entry.windowStart := by
    rw [inWindow] at hin
    cases hget : s.rateLimits.get key with
    | none =>
      -- a window that begins now is running as well
      rw [hget, getD_none] at hentry
      rw [← hentry, Nat.sub_self]
      omega
    | some entry' =>
      rw [hget, getD_some] at hentry
      rw [hget, hentry] at hin
      have := of_decide_eq_true hin
      omega
  rw [rateLimitCheck, LocalStore.rateLimitCheck, hentry, if_neg hrunning, hcount]
  rw [hcount] at hle
  dsimp only
  split
  · next hlt =>
    have hlt' := UInt64.lt_iff_toNat_lt.mp hlt
    have hroom := s.limiter.config.average.toNat_lt
    refine ⟨(decide_eq_true hlt').symm, ?_⟩
    rw [recorded, HashMap.get_insert, if_pos rfl, map_some, getD_some,
      UInt64.toNat_add, UInt64.toNat_one, Nat.mod_eq_of_lt (by omega)]
    omega
  · next hge =>
    have hge' : ¬entry.count.toNat < s.limiter.config.average.toNat :=
      mt UInt64.lt_iff_toNat_lt.mpr hge
    refine ⟨(decide_eq_false hge').symm, ?_⟩
    rw [recorded, HashMap.get_insert, if_pos rfl, map_some, getD_some]
    omega

/-! ## The tally of a run -/

/-- What has been counted and answered for a key, and what is under way, behind a run. -/
structure Tallied (key : Text) (config : RateLimitConfig) (as : List Action) (s : SyncedRateLimit) :
    Prop where
  config_eq : s.limiter.config = config
  count : recorded s.rateLimits key = min (asked key as).length config.average.toNat
  calls : callsOf key as = (asked key as).count true + s.waiting.count key
  idle : callsOf key as = 0 → s.lastSync key = none ∧
    (asked key as).count false + s.spawned.count key = 0
  tasks : callsOf key as ≠ 0 → (asked key as).count false + s.spawned.count key ≠ 0
  answers : answersOf key s = Quota.answers config.average.toNat 0 (asked key as)

lemma tallied_fresh {key : Text} {s : SyncedRateLimit} (h : Fresh key s) :
    Tallied key s.limiter.config [] s where
  config_eq := rfl
  count := by simp [recorded, h.rateLimits, asked]
  calls := by simp [callsOf, asked, count_eq_zero.mpr h.waiting]
  idle _ := ⟨h.lastSync, by simp [asked, count_eq_zero.mpr h.spawned]⟩
  tasks hne := absurd rfl hne
  answers := by
    have hnone : s.answers.filter (·.1 = key) = [] :=
      filter_eq_nil_iff.mpr fun answer hmem => by simpa using h.answers answer hmem
    rw [answersOf, hnone]
    rfl

lemma callsOf_concat (key : Text) (as : List Action) (a : Action) :
    callsOf key (as ++ [a]) = callsOf key as + callsOf key [a] :=
  countP_append

lemma asked_concat (key : Text) (as : List Action) (a : Action) :
    asked key (as ++ [a]) = asked key as ++ asked key [a] :=
  filterMap_append

lemma answersOf_concat (key : Text) (s : SyncedRateLimit) (answer : Text × Bool) :
    answersOf key { s with answers := s.answers ++ [answer] } =
      answersOf key s ++ if answer.1 = key then [answer.2] else [] := by
  rw [answersOf, answersOf, filter_append, map_append]
  by_cases h : answer.1 = key <;> simp [h]

/-- The local part of a call: at most a task, and a call that waits or an answer. -/
lemma step_call (call : RateCall) : s.step (.call call) = some {
      limiter := (s.limiter.isAllowedByKey call).2
      lastSync := if s.shouldSync call.key call.now then
        Function.update s.lastSync call.key (some call.now) else s.lastSync
      rateLimits := s.rateLimits
      spawned := if s.shouldSync call.key call.now then call.key :: s.spawned else s.spawned
      waiting := if (s.limiter.isAllowedByKey call).1 then call.key :: s.waiting else s.waiting
      answers := if (s.limiter.isAllowedByKey call).1 then s.answers
        else s.answers ++ [(call.key, false)] } := by
  have hspawns : shouldSync { s with limiter := (s.limiter.isAllowedByKey call).2 } call.key
      call.now = s.shouldSync call.key call.now := rfl
  simp only [step, isAllowedByKey, maybeScheduleSync, hspawns]
  cases s.shouldSync call.key call.now <;> cases (s.limiter.isAllowedByKey call).1 <;> rfl

namespace Tallied

variable {key : Text} {config : RateLimitConfig} {as : List Action} {s : SyncedRateLimit}

variable {t : SyncedRateLimit} {now : ℕ} {wallMillis : UInt64}

lemma frame (h : Tallied key config as s) {a : Action}
    (hcalls : callsOf key [a] = 0) (hasked : asked key [a] = [])
    (hconfig : t.limiter.config = s.limiter.config)
    (hget : t.rateLimits.get key = s.rateLimits.get key)
    (hlast : s.lastSync key = none → t.lastSync key = none)
    (hspawned : t.spawned.count key = s.spawned.count key)
    (hwaiting : t.waiting.count key = s.waiting.count key)
    (hanswers : answersOf key t = answersOf key s) : Tallied key config (as ++ [a]) t := by
  have hasked' : asked key (as ++ [a]) = asked key as := by
    rw [asked_concat, hasked, append_nil]
  have hcalls' : callsOf key (as ++ [a]) = callsOf key as := by
    rw [callsOf_concat, hcalls, Nat.add_zero]
  refine ⟨hconfig.trans h.config_eq, ?_, ?_, ?_, ?_, ?_⟩
  · rw [hasked', recorded, hget]
    exact h.count
  · rw [hcalls', hasked', hwaiting]
    exact h.calls
  · rw [hcalls', hasked', hspawned]
    exact fun hzero => ⟨hlast (h.idle hzero).1, (h.idle hzero).2⟩
  · rw [hcalls', hasked', hspawned]
    exact h.tasks
  · rw [hanswers, hasked']
    exact h.answers

lemma call (h : Tallied key config as s) {call : RateCall} (hkey : call.key = key)
    (hallowed : (s.isAllowedByKey call).1)
    (ht : s.step (.call call) = some t) : Tallied key config (as ++ [.call call]) t := by
  have hcalls : callsOf key [Action.call call] = 1 := by simp [callsOf, hkey]
  have hasked : asked key (as ++ [.call call]) = asked key as := by
    rw [asked_concat]
    exact append_nil _
  have hallowed' : (s.limiter.isAllowedByKey call).1 := hallowed
  rw [step_call, hallowed', hkey] at ht
  cases ht
  refine ⟨h.config_eq, ?_, ?_, ?_, ?_, ?_⟩
  · rw [hasked]
    exact h.count
  · rw [callsOf_concat, hcalls, hasked, h.calls]
    simp only [if_true, count_cons_self]
    omega
  · intro hzero
    rw [callsOf_concat, hcalls] at hzero
    omega
  · intro _
    rw [hasked]
    by_cases hzero : callsOf key as = 0
    · -- the first call finds no time of a sync, and spawns a task
      have hfirst : s.shouldSync key call.now := by rw [shouldSync, (h.idle hzero).1]
      simp only [hfirst, if_true, count_cons_self]
      omega
    · have hmore := h.tasks hzero
      dsimp only
      split
      · rw [count_cons_self]
        omega
      · exact hmore
  · rw [hasked]
    exact h.answers

lemma call_of_ne (h : Tallied key config as s) {call : RateCall} (hkey : call.key ≠ key)
    (ht : s.step (.call call) = some t) :
    Tallied key config (as ++ [.call call]) t := by
  have hcalls : callsOf key [Action.call call] = 0 := by simp [callsOf, hkey]
  rw [step_call] at ht
  cases ht
  refine h.frame hcalls rfl rfl rfl ?_ ?_ ?_ ?_
  · intro hnone
    dsimp only
    split
    · exact (Function.update_of_ne (Ne.symm hkey) _ _).trans hnone
    · exact hnone
  · dsimp only
    split
    · exact count_cons_of_ne hkey
    · rfl
  · dsimp only
    split
    · exact count_cons_of_ne hkey
    · rfl
  · cases (s.limiter.isAllowedByKey call).1 with
    | true => rfl
    | false => exact (answersOf_concat key s (call.key, false)).trans (by simp [hkey])

lemma ask (h : Tallied key config as s) (hin : s.inWindow key now) (wallMillis : UInt64) :
    (s.rateLimitCheck key now wallMillis).2.1 =
        decide ((asked key as).length < config.average.toNat) ∧
      recorded (s.rateLimitCheck key now wallMillis).1 key =
        min ((asked key as).length + 1) config.average.toNat := by
  obtain rfl := h.config_eq
  have hcount := h.count
  obtain ⟨hanswer, hrecorded⟩ := rateLimitCheck_within hin (by omega) wallMillis
  rw [hanswer, hrecorded, hcount]
  refine ⟨?_, by omega⟩
  rw [decide_eq_decide]
  omega

lemma check (h : Tallied key config as s) (hin : s.inWindow key now)
    (ht : s.step (.check key now wallMillis) = some t) :
    Tallied key config (as ++ [.check key now wallMillis]) t := by
  obtain ⟨hanswer, hrecorded⟩ := h.ask hin wallMillis
  have hcalls : callsOf key (as ++ [.check key now wallMillis]) = callsOf key as := by
    rw [callsOf_concat]
    rfl
  have hasked : asked key (as ++ [.check key now wallMillis]) = asked key as ++ [true] := by
    rw [asked_concat]
    simp [asked]
  rw [step] at ht
  split at ht
  · next hwaiting =>
    cases ht
    have herase : (s.waiting.erase key).count key + 1 = s.waiting.count key := by
      have hpos := count_pos_iff.mpr (contains_iff_mem.mp hwaiting)
      rw [count_erase_self]
      omega
    refine ⟨h.config_eq, ?_, ?_, ?_, ?_, ?_⟩
    · rw [hasked, length_append]
      exact hrecorded
    · rw [hcalls, hasked, count_append, h.calls, ← herase]
      simp only [count_singleton_self]
      omega
    · rw [hcalls, hasked, count_append]
      exact h.idle
    · rw [hcalls, hasked, count_append]
      exact h.tasks
    · rw [hasked, Quota.answers_concat, ← h.answers, Nat.zero_add]
      refine (answersOf_concat key s _).trans ?_
      simp [hanswer]
  · cases ht

lemma sync (h : Tallied key config as s) (hin : s.inWindow key now)
    (ht : s.step (.sync key now wallMillis) = some t) :
    Tallied key config (as ++ [.sync key now wallMillis]) t := by
  obtain ⟨-, hrecorded⟩ := h.ask hin wallMillis
  have hcalls : callsOf key (as ++ [.sync key now wallMillis]) = callsOf key as := by
    rw [callsOf_concat]
    rfl
  have hasked : asked key (as ++ [.sync key now wallMillis]) = asked key as ++ [false] := by
    rw [asked_concat]
    simp [asked]
  rw [step] at ht
  split at ht
  · next hspawned =>
    cases ht
    have hpos := count_pos_iff.mpr (contains_iff_mem.mp hspawned)
    have herase : (s.spawned.erase key).count key + 1 = s.spawned.count key := by
      rw [count_erase_self]
      omega
    refine ⟨h.config_eq, ?_, ?_, ?_, ?_, ?_⟩
    · rw [hasked, length_append]
      exact hrecorded
    · rw [hcalls, hasked, count_append]
      exact h.calls
    · -- a task is under way, so there was a call
      rw [hcalls]
      intro hzero
      have := (h.idle hzero).2
      omega
    · rw [hcalls, hasked, count_append, count_singleton_self]
      omega
    · rw [hasked, Quota.answers_concat, ← h.answers]
      exact (append_nil _).symm
  · cases ht

lemma check_of_ne (h : Tallied key config as s) {key' : Text} (hkey : key ≠ key')
        (ht : s.step (.check key' now wallMillis) = some t) :
    Tallied key config (as ++ [.check key' now wallMillis]) t := by
  rw [step] at ht
  split at ht
  · cases ht
    refine h.frame rfl (by simp [asked, Ne.symm hkey]) rfl
      (get_rateLimitCheck_of_ne s hkey now wallMillis) id rfl
      (count_erase_of_ne hkey) ?_
    exact (answersOf_concat key s _).trans (by simp [Ne.symm hkey])
  · cases ht

lemma sync_of_ne (h : Tallied key config as s) {key' : Text} (hkey : key ≠ key')
        (ht : s.step (.sync key' now wallMillis) = some t) :
    Tallied key config (as ++ [.sync key' now wallMillis]) t := by
  rw [step] at ht
  split at ht
  · cases ht
    exact h.frame rfl (by simp [asked, Ne.symm hkey]) rfl
      (get_rateLimitCheck_of_ne s hkey now wallMillis) id (count_erase_of_ne hkey) rfl rfl
  · cases ht

lemma step (h : Tallied key config as s) {a : Action}
    (hpermitted : permitted key s a) (ht : s.step a = some t) :
    Tallied key config (as ++ [a]) t := by
  cases a with
  | call call =>
    by_cases hkey : call.key = key
    · exact h.call hkey (by simpa [permitted, hkey] using hpermitted) ht
    · exact h.call_of_ne hkey ht
  | check key' now wallMillis =>
    by_cases hkey : key = key'
    · subst hkey
      exact h.check (by simpa [permitted] using hpermitted) ht
    · exact h.check_of_ne hkey ht
  | sync key' now wallMillis =>
    by_cases hkey : key = key'
    · subst hkey
      exact h.sync (by simpa [permitted] using hpermitted) ht
    · exact h.sync_of_ne hkey ht
  | cleanup now =>
    cases ht
    refine h.frame rfl rfl rfl rfl (fun hnone => ?_) rfl rfl rfl
    simp [cleanup, hnone]

end Tallied

lemma tallied {key : Text} {s t : SyncedRateLimit} {as : List Action} (hfresh : Fresh key s)
    (hrun : Run step (fun s a => permitted key s a = true) s as t) :
    Tallied key s.limiter.config as t :=
  hrun.history (I := Tallied key s.limiter.config) (tallied_fresh hfresh)
    fun _ _ _ _ h hpermitted hstep => h.step hpermitted hstep

/-- **When each request is counted once**, and the first `average` calls of the window are allowed:
if there is no call, or there are exactly `average` calls, and all of them ask the store before any
of the tasks that they spawned. -/
theorem counts_once_iff {key : Text} {s t : SyncedRateLimit} {as : List Action}
    (hfresh : Fresh key s) (hrun : Run step (fun s a => permitted key s a = true) s as t)
    (hspawned : key ∉ t.spawned) (hwaiting : key ∉ t.waiting) :
    (recorded t.rateLimits key = callsOf key as ∧
        ∀ a ∈ (answersOf key t).take s.limiter.config.average.toNat, a = true) ↔
      callsOf key as = 0 ∨
        callsOf key as = s.limiter.config.average.toNat ∧ Quota.OthersLast (asked key as) := by
  have h := tallied hfresh hrun
  have hcalls := h.calls
  have hidle := h.idle
  have htasks := h.tasks
  have hlength := count_false_add_count_true (asked key as)
  rw [count_eq_zero.mpr hwaiting, Nat.add_zero] at hcalls
  rw [count_eq_zero.mpr hspawned, Nat.add_zero] at hidle htasks
  rw [h.count, h.answers]
  by_cases hzero : callsOf key as = 0
  · refine iff_of_true ⟨?_, ?_⟩ (.inl hzero)
    · have := (hidle hzero).2
      omega
    · -- no call, so no answer either
      have hnil : Quota.answers s.limiter.config.average.toNat 0 (asked key as) = [] := by
        refine eq_nil_of_length_eq_zero ?_
        rw [Quota.length_answers, ← hcalls]
        exact hzero
      rw [hnil]
      simp
  · have hsome := htasks hzero
    -- the tasks make the count too high, unless the limit stops it at the right number
    have hcount : min (asked key as).length s.limiter.config.average.toNat = callsOf key as ↔
        callsOf key as = s.limiter.config.average.toNat := by omega
    rw [hcount, or_iff_right hzero]
    refine and_congr_right fun hlimit => ?_
    rw [take_of_length_le (by rw [Quota.length_answers]; omega)]
    exact Quota.forall_answers_iff (by omega)

def atStart (average : UInt64) : SyncedRateLimit where
  limiter := .new { average, burst := average }
  lastSync := fun _ => none
  rateLimits := .empty
  spawned := []
  waiting := []
  answers := []

lemma fresh_atStart (average : UInt64) (key : Text) : Fresh key (atStart average) :=
  ⟨rfl, rfl, not_mem_nil, not_mem_nil, nofun⟩

def client : Text := (RateLimitMiddleware.request 0).key

def callFirst : List Action :=
  [.call (RateLimitMiddleware.request 0), .check client 0 0, .sync client 0 0]

def taskFirst : List Action :=
  [.call (RateLimitMiddleware.request 0), .sync client 0 0, .check client 0 0]

def runPermitted (key : Text) (s : SyncedRateLimit) (as : List Action) : Option SyncedRateLimit :=
  as.foldlM (fun s a => if permitted key s a then s.step a else none) s

theorem counts_once_iff_callFirst :
    ∃ t, Run step (fun s a => permitted client s a = true) (atStart 1) callFirst t ∧
      recorded t.rateLimits client = callsOf client callFirst ∧
      ∀ a ∈ (answersOf client t).take (atStart 1).limiter.config.average.toNat, a = true := by
  have hend : (runPermitted client (atStart 1) callFirst).any
      (fun t => decide (client ∉ t.spawned ∧ client ∉ t.waiting)) = true := by decide
  obtain ⟨t, ht, hdone⟩ := (any_eq_true _ _).mp hend
  obtain ⟨hspawned, hwaiting⟩ := of_decide_eq_true hdone
  have hrun := Run.of_guarded (fun _ _ h => h) ht
  refine ⟨t, hrun, (counts_once_iff (fresh_atStart 1 client) hrun hspawned hwaiting).mpr ?_⟩
  have hasked : asked client callFirst = [true, false] := by decide
  refine .inr ⟨by decide, ?_⟩
  rw [hasked]
  exact pairwise_pair.mpr (by decide)

/-- **A task counts the request again**: of two requests in a second the first one uses up both.
With one request in a second, the first one is rejected if its task is faster. -/
theorem counts_twice :
    (runPermitted client (atStart 2) callFirst).map (fun t =>
        (recorded t.rateLimits client, callsOf client callFirst, t.spawned, t.waiting)) =
      some (2, 1, [], []) ∧
    (runPermitted client (atStart 1) taskFirst).map (fun t =>
        (recorded t.rateLimits client, answersOf client t, t.spawned, t.waiting)) =
      some (1, [false], [], []) := by
  refine ⟨by decide, by decide⟩

end SyncedRateLimit

end TrafficCop
