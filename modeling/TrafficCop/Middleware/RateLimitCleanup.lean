import TrafficCop.Middleware.RateLimit

/-!
# Dropping the buckets of a rate limiter

`RateLimitMiddleware::cleanup` of `middleware/builtin/rate_limit.rs` drops the buckets whose last
update is `max_age` ago. The next call for such a key makes a full bucket. That is not seen if a
bucket refills in that time, but the refill is a thousandth of what `average` says, and rejected
calls do not count as updates. The clock of a bucket wraps after 584 years, so runs that end before
a time are told apart.
-/

namespace TrafficCop

open Rust List Option

/-! ## Runs with clean-ups -/

def cleanupMaxAge : ℕ := 120000000000

/-- Calls and clean-ups. -/
inductive RateOp where
  | call (call : RateCall)
  | cleanup (now : ℕ)

namespace RateOp

def now : RateOp → ℕ
  | .call c => c.now
  | .cleanup now => now

def calls (ops : List RateOp) : List RateCall :=
  ops.filterMap fun
    | .call c => some c
    | .cleanup _ => none

end RateOp

namespace RateLimitMiddleware

/-- `cleanup`, buckets: those whose last update is younger than `maxAge` stay. -/
def cleanup (m : RateLimitMiddleware) (now maxAge : ℕ) : RateLimitMiddleware :=
  { m with buckets := fun key =>
      (m.buckets key).filter fun b => now - (b.epoch + b.lastUpdate.toNat) < maxAge }

/-- The calls with their outcomes, with clean-ups between them. -/
def operate (m : RateLimitMiddleware) : List RateOp → List (RateCall × Bool)
  | [] => []
  | .call call :: ops => (call, (m.isAllowedByKey call).1) :: (m.isAllowedByKey call).2.operate ops
  | .cleanup now :: ops => (m.cleanup now cleanupMaxAge).operate ops

/-- The clean-ups of a run change no outcome. -/
def Invisible (config : RateLimitConfig) (ops : List RateOp) : Prop :=
  (new config).operate ops = (new config).serve (RateOp.calls ops)

/-- Everything that the middleware does with these calls is to reject them. -/
def RejectsAll (config : RateLimitConfig) : Prop :=
  ∀ calls : List RateCall, ∀ x ∈ (new config).serve calls, x.2 = false

end RateLimitMiddleware

/-! ## One call -/

namespace TokenBucket

lemma newTokens_spend {b : TokenBucket} {now : ℕ} {tokensPerSec burst : UInt64}
    (h : 1000 ≤ (b.newTokens now tokensPerSec burst).toNat) :
    ((b.spend now tokensPerSec burst).newTokens now tokensPerSec burst).toNat =
      (b.newTokens now tokensPerSec burst).toNat - 1000 := by
  have hself : ∀ n : UInt64, saturatingSub n n = 0 := fun n => by simp [saturatingSub]
  have hmax : (b.newTokens now tokensPerSec burst).toNat ≤ burst.toNat * 1000 % 2 ^ 64 := by
    rw [toNat_newTokens]
    exact Nat.min_le_right _ _
  have hzero : saturatingSub ((b.spend now tokensPerSec burst).nowNanos now)
      (b.spend now tokensPerSec burst).lastUpdate = 0 := hself _
  rw [newTokens_of_elapsed_zero hzero, toNat_spend h]
  omega

end TokenBucket

namespace RateLimitMiddleware

variable {config : RateLimitConfig} {m : RateLimitMiddleware} {call : RateCall} {key : Text}
  {b : TokenBucket}

lemma isAllowedByKey_fst_iff (m : RateLimitMiddleware) (call : RateCall) :
    (m.isAllowedByKey call).1 ↔
      1000 ≤ m.tokensAt call.key call.now ∧ exchanges call.spurious 8 := by
  rw [isAllowedByKey_eq]
  split <;> simp_all

lemma isAllowedByKey_snd_of_false (h : (m.isAllowedByKey call).1 = false) :
    (m.isAllowedByKey call).2 = m.setBucket call.key (m.bucket call) := by
  rw [isAllowedByKey_eq] at h ⊢
  split at h
  · cases h
  · next hnot => rw [if_neg hnot]

lemma tokensAt_setBucket (m : RateLimitMiddleware) (key : Text) (b : TokenBucket) (now : ℕ) :
    (m.setBucket key b).tokensAt key now =
      (b.newTokens now m.config.average (maxU64 m.config.burst 1)).toNat := by
  simp [tokensAt, bucket, setBucket]

lemma tokensAt_setBucket_of_ne (m : RateLimitMiddleware) {key' : Text} (b : TokenBucket)
    (now : ℕ) (h : key' ≠ key) : (m.setBucket key b).tokensAt key' now = m.tokensAt key' now := by
  simp [tokensAt, bucket, setBucket, Function.update_of_ne h]

lemma toNat_spent (h : 1000 ≤ m.tokensAt call.key call.now) :
    (m.spent call).tokens.toNat = m.tokensAt call.key call.now - 1000 :=
  TokenBucket.toNat_spend h

lemma tokensAt_spent (h : 1000 ≤ m.tokensAt call.key call.now) :
    (m.setBucket call.key (m.spent call)).tokensAt call.key call.now =
      m.tokensAt call.key call.now - 1000 :=
  (tokensAt_setBucket ..).trans (TokenBucket.newTokens_spend h)

/-! ## Many calls at one moment -/

def after (m : RateLimitMiddleware) (calls : List RateCall) : RateLimitMiddleware :=
  calls.foldl (fun m call => (m.isAllowedByKey call).2) m

lemma config_after (m : RateLimitMiddleware) (calls : List RateCall) :
    (m.after calls).config = m.config := by
  induction calls generalizing m with
  | nil => rfl
  | cons call calls ih => exact ih (m.isAllowedByKey call).2

lemma operate_append (m : RateLimitMiddleware) (calls : List RateCall) (ops : List RateOp) :
    m.operate (calls.map .call ++ ops) = m.serve calls ++ (m.after calls).operate ops := by
  induction calls generalizing m with
  | nil => rfl
  | cons call calls ih =>
    rw [map_cons, cons_append, operate, serve, ih]
    rfl

lemma operate_map_call (m : RateLimitMiddleware) (calls : List RateCall) :
    m.operate (calls.map .call) = m.serve calls := by
  have h := m.operate_append calls []
  rwa [append_nil, operate, append_nil] at h

lemma serve_append (m : RateLimitMiddleware) (calls calls' : List RateCall) :
    m.serve (calls ++ calls') = m.serve calls ++ (m.after calls).serve calls' := by
  rw [← operate_map_call, map_append, operate_append, operate_map_call]

/-- **What a bucket admits at one moment**: as many calls as it comes to tokens. -/
theorem allowed_replicate_iff (m : RateLimitMiddleware)
    (hexchange : exchanges call.spurious 8) (n : ℕ) :
    (∀ x ∈ m.serve (replicate n call), x.2) ↔ 1000 * n ≤ m.tokensAt call.key call.now := by
  induction n generalizing m with
  | zero => simp [serve]
  | succ n ih =>
    rw [replicate_succ, serve, forall_mem_cons, ih, isAllowedByKey_eq]
    by_cases h : 1000 ≤ m.tokensAt call.key call.now
    · rw [if_pos ⟨h, hexchange⟩, tokensAt_spent h]
      simp only [true_and]
      omega
    · rw [if_neg fun h' => h h'.1]
      simp only [Bool.false_eq_true, false_and, false_iff]
      omega

variable {n later k span : ℕ}

lemma exists_bucket_replicate (m : RateLimitMiddleware)
    (hexchange : exchanges call.spurious 8) (hepoch : (m.bucket call).epoch ≤ call.now)
    (hn : n ≠ 0) (h : 1000 * n ≤ m.tokensAt call.key call.now) :
    ∃ b, (m.after (replicate n call)).buckets call.key = some b ∧ b.UpdatedAt call.now ∧
      b.tokens.toNat = m.tokensAt call.key call.now - 1000 * n := by
  induction n generalizing m with
  | zero => exact absurd rfl hn
  | succ n ih =>
    have hfirst : 1000 ≤ m.tokensAt call.key call.now := by omega
    rw [replicate_succ, after, foldl_cons, isAllowedByKey_eq, if_pos ⟨hfirst, hexchange⟩]
    have hbucket : (m.setBucket call.key (m.spent call)).bucket call = m.spent call :=
      bucket_eq (buckets_setBucket ..)
    have htokens := toNat_spent hfirst
    have hupdated : (m.spent call).UpdatedAt call.now := TokenBucket.updatedAt_spend _ _ hepoch
    rcases Nat.eq_zero_or_pos n with rfl | hpos
    · exact ⟨m.spent call, buckets_setBucket .., hupdated, by omega⟩
    · have hnext := tokensAt_spent hfirst
      obtain ⟨b, hb, hb', htokens'⟩ := ih (m.setBucket call.key (m.spent call))
        (by rw [hbucket]; exact hupdated.1) (by omega) (by omega)
      exact ⟨b, hb, hb', by omega⟩

/-! ## Buckets that have admitted nothing -/

/-- What a new bucket comes to after a time. -/
def level (config : RateLimitConfig) (span : ℕ) : ℕ :=
  ((TokenBucket.new (maxU64 config.burst config.average) 0).newTokens span config.average
    (maxU64 config.burst 1)).toNat

lemma newTokens_new (config : RateLimitConfig) (start now : ℕ) :
    ((TokenBucket.new (maxU64 config.burst config.average) start).newTokens now config.average
      (maxU64 config.burst 1)).toNat = level config (now - start) := by
  simp [level, TokenBucket.newTokens, TokenBucket.tokensToAdd, TokenBucket.nowNanos,
    TokenBucket.new]

lemma level_add_wrap (config : RateLimitConfig) (span : ℕ) :
    level config (2 ^ 64 + span) = level config span := by
  have hclock : UInt64.ofNat (2 ^ 64 + span) = UInt64.ofNat span := by
    rw [← UInt64.toNat_inj, UInt64.toNat_ofNat', UInt64.toNat_ofNat']
    omega
  simp only [level, TokenBucket.newTokens, TokenBucket.tokensToAdd, TokenBucket.nowNanos,
    TokenBucket.new, Nat.sub_zero, hclock]

lemma tokensAt_of_none (h : m.buckets key = none) (now : ℕ) :
    m.tokensAt key now = level m.config 0 := by
  rw [tokensAt, bucket, h, getD_none, newTokens_new, Nat.sub_self]

/-- Every bucket is as it was made. -/
def Untouched (m : RateLimitMiddleware) : Prop :=
  ∀ key b, m.buckets key = some b → ∃ start, b = .new (maxU64 m.config.burst m.config.average) start

lemma untouched_new (config : RateLimitConfig) : (new config).Untouched := by
  intro key b hb
  cases hb

lemma Untouched.bucket (h : m.Untouched) (call : RateCall) :
    ∃ start, m.bucket call = .new (maxU64 m.config.burst m.config.average) start := by
  rw [RateLimitMiddleware.bucket]
  cases hb : m.buckets call.key with
  | none => exact ⟨call.now, rfl⟩
  | some b => exact h _ b hb

lemma Untouched.isAllowedByKey (h : m.Untouched)
    (hlow : ∀ span, level m.config span < 1000) (call : RateCall) :
    (m.isAllowedByKey call).1 = false ∧ (m.isAllowedByKey call).2.Untouched := by
  obtain ⟨start, hstart⟩ := h.bucket call
  have htokens : m.tokensAt call.key call.now = level m.config (call.now - start) := by
    rw [tokensAt, show m.bucket { key := call.key, now := call.now } = m.bucket call from rfl,
      hstart, newTokens_new]
  have hlt := hlow (call.now - start)
  rw [isAllowedByKey_eq, if_neg (by omega)]
  refine ⟨rfl, fun key b hb => ?_⟩
  by_cases hkey : key = call.key
  · subst hkey
    obtain rfl : RateLimitMiddleware.bucket m call = b := by simpa [setBucket] using hb
    exact ⟨start, hstart⟩
  · exact h key b (by simpa [setBucket, Function.update_of_ne hkey] using hb)

lemma Untouched.cleanup (h : m.Untouched) (now maxAge : ℕ) : (m.cleanup now maxAge).Untouched :=
  fun key b hb => h key b (filter_eq_some_iff.mp hb).1

lemma Untouched.operate (h : m.Untouched)
    (hlow : ∀ span, level m.config span < 1000) (ops : List RateOp) :
    m.operate ops = (RateOp.calls ops).map (·, false) := by
  induction ops generalizing m with
  | nil => rfl
  | cons op ops ih =>
    cases op with
    | call call =>
      obtain ⟨hfalse, hnext⟩ := h.isAllowedByKey hlow call
      rw [RateLimitMiddleware.operate, hfalse, ih hnext hlow]
      rfl
    | cleanup now => exact ih (h.cleanup now cleanupMaxAge) hlow

lemma calls_map_call (calls : List RateCall) : RateOp.calls (calls.map .call) = calls := by
  simp [RateOp.calls, filterMap_map]

def request (now : ℕ) : RateCall := { key := "10.0.0.9", now }

@[simp] lemma now_request (now : ℕ) : (request now).now = now := rfl

lemma exchanges_request (now : ℕ) : exchanges (request now).spurious 8 := rfl

lemma isAllowed_request_iff (m : RateLimitMiddleware) (now : ℕ) :
    (m.isAllowedByKey (request now)).1 ↔ 1000 ≤ m.tokensAt (request now).key now := by
  rw [isAllowedByKey_fst_iff]
  exact and_iff_left (exchanges_request now)

lemma tokensAt_after_request {now : ℕ}
    (h : ((new config).isAllowedByKey (request now)).1 = false) (later : ℕ) :
    ((new config).isAllowedByKey (request now)).2.tokensAt (request now).key later =
      level config (later - now) := by
  rw [isAllowedByKey_snd_of_false h, tokensAt_setBucket]
  exact newTokens_new config now later

/-- Everything is rejected exactly if a new bucket never comes to a token. -/
lemma rejectsAll_iff (config : RateLimitConfig) :
    RejectsAll config ↔ ∀ span, level config span < 1000 := by
  constructor
  · -- a rejected request leaves a new bucket, and the next one finds what it has by then
    intro h span
    have hall := h [request 0, request span]
    simp only [serve, forall_mem_cons] at hall
    obtain ⟨hfirst, hsecond, -⟩ := hall
    have hnot := (isAllowed_request_iff _ _).not.mp (Bool.eq_false_iff.mp hsecond)
    have htokens := tokensAt_after_request hfirst span
    rw [Nat.sub_zero] at htokens
    rw [← htokens]
    exact Nat.not_le.mp hnot
  · intro hlow calls x hx
    rw [← operate_map_call, (untouched_new config).operate hlow] at hx
    obtain ⟨call, -, rfl⟩ := mem_map.mp hx
    rfl

lemma invisible_of_rejectsAll (h : RejectsAll config) (ops : List RateOp) :
    Invisible config ops := by
  have hlow : ∀ span, level (new config).config span < 1000 := (rejectsAll_iff config).mp h
  rw [Invisible, ← operate_map_call, (untouched_new config).operate hlow,
    (untouched_new config).operate hlow, calls_map_call]

/-! ## Clean-ups after the clock has wrapped -/

lemma buckets_cleanup_of_old (hb : m.buckets key = some b) {now maxAge : ℕ}
    (hold : maxAge ≤ now - (b.epoch + b.lastUpdate.toNat)) :
    (m.cleanup now maxAge).buckets key = none := by
  simp only [cleanup, hb, filter_some, decide_eq_true_eq]
  rw [if_neg (by omega)]

def burstThen (n later k : ℕ) : List RateOp :=
  (replicate n (request 0)).map .call ++ .cleanup later :: (replicate k (request later)).map .call

lemma mem_burstThen {op : RateOp} (h : op ∈ burstThen n later k) :
    op = .call (request 0) ∨ op.now = later := by
  simp only [burstThen, map_replicate, mem_append, mem_cons] at h
  rcases h with h | rfl | h
  · exact .inl (mem_replicate.mp h).2
  · exact .inr rfl
  · rw [(mem_replicate.mp h).2]
    exact .inr rfl

lemma sorted_burstThen (n later k : ℕ) :
    (burstThen n later k).Pairwise fun a b => a.now ≤ b.now := by
  rw [burstThen, map_replicate, map_replicate, pairwise_append,
    pairwise_cons, pairwise_replicate, pairwise_replicate]
  refine ⟨.inr (Nat.le_refl _), ⟨fun op hop => ?_, .inr (Nat.le_refl _)⟩, fun op hop op' _ => ?_⟩
  · rw [(mem_replicate.mp hop).2]
    exact Nat.le_refl later
  · rw [(mem_replicate.mp hop).2]
    exact Nat.zero_le _

/-- If nothing is seen of the clean-up, later requests find as many tokens as in a new middleware.
-/
lemma tokens_of_invisible (h : Invisible config (burstThen n later k)) :
    1000 * k ≤ (((new config).after (replicate n (request 0))).cleanup later
        cleanupMaxAge).tokensAt (request later).key later ↔
      1000 * k ≤ ((new config).after (replicate n (request 0))).tokensAt
        (request later).key later := by
  have hcalls : RateOp.calls (burstThen n later k) =
      replicate n (request 0) ++ replicate k (request later) := by
    rw [burstThen, RateOp.calls, filterMap_append]
    exact congrArg₂ _ (calls_map_call _) (calls_map_call _)
  -- up to the clean-up the two runs are one
  rw [Invisible, hcalls, serve_append, burstThen, operate_append, append_cancel_left_eq,
    operate, operate_map_call] at h
  have hkept := allowed_replicate_iff ((new config).after (replicate n (request 0)))
    (exchanges_request later) k
  have hcleaned := allowed_replicate_iff (((new config).after
    (replicate n (request 0))).cleanup later cleanupMaxAge) (exchanges_request later) k
  rw [h] at hcleaned
  exact hcleaned.symm.trans hkept

lemma tokensAt_wrap (hb : m.buckets key = some b) (hupdated : b.UpdatedAt 0) :
    m.tokensAt key (2 ^ 64) ≤ b.tokens.toNat ∧
      (m.cleanup (2 ^ 64) cleanupMaxAge).tokensAt key (2 ^ 64) = level m.config 0 := by
  obtain ⟨hepoch, hlast⟩ := hupdated
  have hepoch' : b.epoch = 0 := by omega
  rw [hepoch', Nat.sub_zero] at hlast
  constructor
  · have helapsed : saturatingSub (b.nowNanos (2 ^ 64)) b.lastUpdate = 0 := by
      rw [TokenBucket.nowNanos, hlast, hepoch']
      decide
    rw [tokensAt, bucket, hb, getD_some, TokenBucket.newTokens_of_elapsed_zero helapsed]
    exact Nat.min_le_left _ _
  · refine tokensAt_of_none (buckets_cleanup_of_old hb ?_) _
    rw [hepoch', hlast]
    decide

/-- **Over all runs** a bucket that admits something can be told from a new one: its clock is back
at 0 after 584 years. -/
theorem exists_visible (h : ¬RejectsAll config) :
    ∃ ops : List RateOp, ops.Pairwise (fun a b => a.now ≤ b.now) ∧ ¬Invisible config ops := by
  have hzero : (new config).tokensAt (request 0).key 0 = level config 0 := tokensAt_of_none rfl 0
  by_cases hfull : 1000 ≤ level config 0
  · -- a new bucket is emptied and has no time on its clock when the request comes
    refine ⟨burstThen (level config 0 / 1000) (2 ^ 64) 1, sorted_burstThen _ _ _, fun hinv => ?_⟩
    have hsame := tokens_of_invisible hinv
    obtain ⟨b, hb, hupdated, htokens⟩ := exists_bucket_replicate (new config)
      (exchanges_request 0) (Nat.le_refl 0) (n := level config 0 / 1000) (by omega)
      (by rw [show (request 0).now = 0 from rfl, hzero]; omega)
    obtain ⟨hkept, hdropped⟩ := tokensAt_wrap hb hupdated
    rw [config_after] at hdropped
    have hstill := (hsame.mp (hdropped.symm ▸ hfull)).trans hkept
    rw [htokens, show (request 0).now = 0 from rfl, hzero] at hstill
    omega
  · -- a new bucket that takes time to come to a token is made again
    obtain ⟨span, hspan⟩ : ∃ span, 1000 ≤ level config span := by
      by_contra hnone
      refine h ((rejectsAll_iff config).mpr fun span => Nat.not_le.mp fun hle => hnone ⟨span, hle⟩)
    refine ⟨burstThen 1 (2 ^ 64 + span) 1, sorted_burstThen _ _ _, fun hinv => ?_⟩
    have hfirst : ((new config).isAllowedByKey (request 0)).1 = false := by
      rw [Bool.eq_false_iff, Ne, isAllowed_request_iff, hzero]
      exact hfull
    have hkept := tokensAt_after_request hfirst (2 ^ 64 + span)
    rw [Nat.sub_zero, level_add_wrap] at hkept
    have hdropped := (tokens_of_invisible hinv).mpr (hkept.symm ▸ hspan)
    have hmade : ((new config).isAllowedByKey (request 0)).2.buckets (request 0).key =
        some ((new config).bucket (request 0)) := by
      rw [isAllowedByKey_snd_of_false hfirst, buckets_setBucket]
    have hold : cleanupMaxAge ≤ 2 ^ 64 + span - (0 + 0) := by
      rw [cleanupMaxAge]
      omega
    have hnew := tokensAt_of_none (buckets_cleanup_of_old hmade hold) (2 ^ 64 + span)
    exact hfull (hnew ▸ hdropped)

/-! ## Before the clock wraps -/

def refill (average : UInt64) (span : ℕ) : ℕ := span / 1000000 * average.toNat % 2 ^ 64 / 1000

def capacity (config : RateLimitConfig) : ℕ := 1000 * max config.burst.toNat 1

/-- The products of the configuration leave room for a refill. -/
def InRange (config : RateLimitConfig) : Prop :=
  1000 * max config.burst.toNat config.average.toNat ≤ 2 ^ 63

/-- A bucket as runs up to `now` leave it. -/
structure Held (b : TokenBucket) (now : ℕ) : Prop where
  updated : ∃ last ≤ now, b.UpdatedAt last
  room : b.tokens.toNat ≤ 2 ^ 63

lemma Held.mono {now : ℕ} (h : Held b now) (hle : now ≤ later) : Held b later := by
  obtain ⟨last, hlast, hupdated⟩ := h.updated
  exact ⟨⟨last, hlast.trans hle, hupdated⟩, h.room⟩

lemma newTokens_eq (hrange : InRange config) {last now : ℕ} (hupdated : b.UpdatedAt last)
    (hle : last ≤ now) (hclock : now < 2 ^ 64) (hroom : b.tokens.toNat ≤ 2 ^ 63) :
    (b.newTokens now config.average (maxU64 config.burst 1)).toNat =
      min (b.tokens.toNat + refill config.average (now - last)) (capacity config) := by
  have hadd : (b.tokensToAdd now config.average).toNat = refill config.average (now - last) :=
    TokenBucket.tokensToAdd_eq (TokenBucket.elapsed_eq hupdated hle hclock)
  have hburst : (maxU64 config.burst 1).toNat = max config.burst.toNat 1 := toNat_maxU64 _ _
  rw [TokenBucket.toNat_newTokens, hadd, hburst, refill, capacity]
  rw [InRange] at hrange
  omega

lemma level_eq (hrange : InRange config)
    (hsome : 1 ≤ max config.burst.toNat config.average.toNat) (hclock : span < 2 ^ 64) :
    level config span = capacity config := by
  have htokens := TokenBucket.toNat_tokens_new (Nat.lt_of_le_of_lt hrange (by decide)) 0
  rw [level, newTokens_eq hrange (TokenBucket.updatedAt_new _ 0) (Nat.zero_le _) hclock
    (htokens ▸ hrange), htokens, capacity]
  omega

/-- The configuration is in range and gives a bucket something, and runs end before the clock wraps.
-/
structure Bounded (config : RateLimitConfig) (horizon : ℕ) : Prop where
  range : InRange config
  some : 1 ≤ max config.burst.toNat config.average.toNat
  clock : horizon < 2 ^ 64

/-- Two runs side by side: from now on their buckets are refilled to the same. -/
structure Agree (config : RateLimitConfig) (horizon : ℕ) (m m' : RateLimitMiddleware) (now : ℕ) :
    Prop where
  config_left : m.config = config
  config_right : m'.config = config
  held_left : ∀ key b, m.buckets key = some b → Held b now
  held_right : ∀ key b, m'.buckets key = some b → Held b now
  tokens : ∀ key t, now ≤ t → t ≤ horizon → m.tokensAt key t = m'.tokensAt key t

section

variable {horizon now : ℕ} {m' : RateLimitMiddleware}

lemma held_bucket (hrange : InRange m.config)
    (hheld : ∀ key b, m.buckets key = some b → Held b now) (hnow : now ≤ call.now) :
    Held (m.bucket call) call.now := by
  rw [bucket]
  cases hb : m.buckets call.key with
  | none =>
    refine ⟨⟨call.now, Nat.le_refl _, TokenBucket.updatedAt_new _ _⟩, ?_⟩
    rw [getD_none, TokenBucket.toNat_tokens_new (Nat.lt_of_le_of_lt hrange (by decide))]
    exact hrange
  | some b => exact (hheld _ b hb).mono hnow

variable {later t : ℕ}

lemma held_setBucket (hheld : ∀ key b, m.buckets key = some b → Held b now)
    (hle : now ≤ later) (hb : Held b later) :
    ∀ key' b', (m.setBucket key b).buckets key' = some b' → Held b' later := by
  intro key' b' hb'
  by_cases hkey : key' = key
  · subst hkey
    rw [buckets_setBucket] at hb'
    exact Option.some.inj hb' ▸ hb
  · exact (hheld key' b' (by simpa [setBucket, Function.update_of_ne hkey] using hb')).mono hle

/-- A rejected call makes a bucket at most, full from then on as one made later. -/
lemma tokensAt_setBucket_bucket (hbounded : Bounded m.config horizon) (call : RateCall)
    (ht : t ≤ horizon) :
    (m.setBucket call.key (m.bucket call)).tokensAt call.key t = m.tokensAt call.key t := by
  have hclock := hbounded.clock
  rw [tokensAt_setBucket]
  cases hb : m.buckets call.key with
  | none =>
    rw [tokensAt_of_none hb, bucket, hb, getD_none, newTokens_new,
      level_eq hbounded.range hbounded.some (by omega),
      level_eq hbounded.range hbounded.some (by omega)]
  | some b => rw [tokensAt, bucket, bucket, hb]; rfl

lemma tokensAt_le (hrange : InRange m.config) (hheld : Held (m.bucket call) call.now)
    (hclock : call.now < 2 ^ 64) : m.tokensAt call.key call.now ≤ 2 ^ 63 := by
  obtain ⟨last, hlast, hupdated⟩ := hheld.updated
  have htokensAt := newTokens_eq hrange hupdated hlast hclock hheld.room
  rw [show m.tokensAt call.key call.now = _ from htokensAt]
  rw [InRange] at hrange
  rw [capacity]
  omega

lemma held_spent (hrange : InRange m.config) (hheld : Held (m.bucket call) call.now)
    (hclock : call.now < 2 ^ 64) (hadmitted : 1000 ≤ m.tokensAt call.key call.now) :
    Held (m.spent call) call.now := by
  obtain ⟨last, hlast, hupdated⟩ := hheld.updated
  have htokens := toNat_spent hadmitted
  have hle := tokensAt_le hrange hheld hclock
  exact ⟨⟨call.now, Nat.le_refl _, TokenBucket.updatedAt_spend _ _ (hupdated.1.trans hlast)⟩,
    by omega⟩

/-- The bucket behind an admitted call is refilled to what was left of the tokens. -/
lemma tokensAt_setBucket_spent (hrange : InRange m.config) (hheld : Held (m.bucket call) call.now)
    (hadmitted : 1000 ≤ m.tokensAt call.key call.now) (hle : call.now ≤ t)
    (hclock : t < 2 ^ 64) :
    (m.setBucket call.key (m.spent call)).tokensAt call.key t =
      min (m.tokensAt call.key call.now - 1000 + refill m.config.average (t - call.now))
        (capacity m.config) := by
  obtain ⟨last, hlast, hupdated⟩ := hheld.updated
  have hupdated' : (m.spent call).UpdatedAt call.now :=
    TokenBucket.updatedAt_spend _ _ (hupdated.1.trans hlast)
  have hspent := held_spent hrange hheld (Nat.lt_of_le_of_lt hle hclock) hadmitted
  rw [tokensAt_setBucket, newTokens_eq hrange hupdated' hle hclock hspent.room,
    toNat_spent hadmitted]

/-- **A call finds the same in both runs**, and leaves the same. -/
theorem Agree.isAllowedByKey (hbounded : Bounded config horizon)
    (h : Agree config horizon m m' now) (hnow : now ≤ call.now)
    (hend : call.now ≤ horizon) :
    (m'.isAllowedByKey call).1 = (m.isAllowedByKey call).1 ∧
      Agree config horizon (m.isAllowedByKey call).2 (m'.isAllowedByKey call).2 call.now := by
  have hclock := hbounded.clock
  obtain rfl := h.config_left
  have hrange' : InRange m'.config := h.config_right ▸ hbounded.range
  have htokens := h.tokens call.key call.now hnow hend
  have hheld := held_bucket hbounded.range h.held_left hnow
  have hheld' := held_bucket hrange' h.held_right hnow
  -- other keys are not touched
  have hother : ∀ b b' key t, key ≠ call.key → call.now ≤ t → t ≤ horizon →
      (m.setBucket call.key b).tokensAt key t = (m'.setBucket call.key b').tokensAt key t := by
    intro b b' key t hkey hle ht
    rw [tokensAt_setBucket_of_ne _ _ _ hkey, tokensAt_setBucket_of_ne _ _ _ hkey]
    exact h.tokens key t (hnow.trans hle) ht
  rw [isAllowedByKey_eq, isAllowedByKey_eq, ← htokens]
  split
  · -- admitted: what is left is the same, and so is the time from which it is refilled
    next hadmitted =>
    have hadmitted' := htokens ▸ hadmitted.1
    have hcall : call.now < 2 ^ 64 := Nat.lt_of_le_of_lt hend hclock
    refine ⟨rfl, rfl, h.config_right,
      held_setBucket h.held_left hnow (held_spent hbounded.range hheld hcall hadmitted.1),
      held_setBucket h.held_right hnow (held_spent hrange' hheld' hcall hadmitted'),
      fun key t hle ht => ?_⟩
    by_cases hkey : key = call.key
    · subst hkey
      have ht' := Nat.lt_of_le_of_lt ht hclock
      rw [tokensAt_setBucket_spent hbounded.range hheld hadmitted.1 hle ht',
        tokensAt_setBucket_spent hrange' hheld' hadmitted' hle ht', htokens, h.config_right]
    · exact hother _ _ key t hkey hle ht
  · -- rejected: at most a bucket is made
    refine ⟨rfl, rfl, h.config_right, held_setBucket h.held_left hnow hheld,
      held_setBucket h.held_right hnow hheld', fun key t hle ht => ?_⟩
    by_cases hkey : key = call.key
    · subst hkey
      rw [tokensAt_setBucket_bucket hbounded call ht,
        tokensAt_setBucket_bucket (h.config_right ▸ hbounded) call ht]
      exact h.tokens _ t (hnow.trans hle) ht
    · exact hother _ _ key t hkey hle ht

lemma tokensAt_of_old (hbounded : Bounded m.config horizon)
    (hrefills : ∀ span, cleanupMaxAge ≤ span → span ≤ horizon →
      capacity m.config ≤ refill m.config.average span)
    (hb : m.buckets key = some b) (hheld : Held b now)
    (hold : cleanupMaxAge ≤ now - (b.epoch + b.lastUpdate.toNat)) (hle : now ≤ t)
    (ht : t ≤ horizon) : m.tokensAt key t = capacity m.config := by
  have hclock := hbounded.clock
  obtain ⟨last, hlast, hupdated⟩ := hheld.updated
  have hage : b.epoch + b.lastUpdate.toNat = last := by
    obtain ⟨hepoch, hlastUpdate⟩ := hupdated
    rw [hlastUpdate, UInt64.toNat_ofNat', Nat.mod_eq_of_lt (by omega)]
    omega
  have hfull := hrefills (t - last) (by omega) (by omega)
  rw [tokensAt, bucket, hb, getD_some,
    newTokens_eq hbounded.range hupdated (hlast.trans hle) (by omega) hheld.room]
  omega

/-- **A clean-up drops what is refilled anyway.** -/
theorem Agree.cleanup (hbounded : Bounded config horizon)
    (hrefills : ∀ span, cleanupMaxAge ≤ span → span ≤ horizon →
      capacity config ≤ refill config.average span)
    (h : Agree config horizon m m' now) (hnow : now ≤ later) :
    Agree config horizon m (m'.cleanup later cleanupMaxAge) later := by
  refine ⟨h.config_left, h.config_right, fun key b hb => (h.held_left key b hb).mono hnow,
    fun key b hb => (h.held_right key b (filter_eq_some_iff.mp hb).1).mono hnow,
    fun key t hle ht => (h.tokens key t (hnow.trans hle) ht).trans ?_⟩
  obtain rfl := h.config_right
  cases hb : m'.buckets key with
  | none =>
    have hnone : (m'.cleanup later cleanupMaxAge).buckets key = none := by
      simp [RateLimitMiddleware.cleanup, hb]
    rw [tokensAt_of_none hb, tokensAt_of_none hnone]
    rfl
  | some b =>
    by_cases hold : cleanupMaxAge ≤ later - (b.epoch + b.lastUpdate.toNat)
    · -- it is dropped, and as full as the one that is made in its place
      rw [tokensAt_of_old hbounded hrefills hb ((h.held_right key b hb).mono hnow) hold hle ht,
        tokensAt_of_none (buckets_cleanup_of_old hb hold)]
      exact (level_eq hbounded.range hbounded.some (by decide)).symm
    · have hkept : (m'.cleanup later cleanupMaxAge).buckets key = some b := by
        simpa [RateLimitMiddleware.cleanup, hb] using hold
      rw [tokensAt, tokensAt, bucket, bucket, hb, hkept]
      rfl

/-- The two runs give the same answers, by induction on the operations. -/
lemma Agree.operate (hbounded : Bounded config horizon)
    (hrefills : ∀ span, cleanupMaxAge ≤ span → span ≤ horizon →
      capacity config ≤ refill config.average span)
    (h : Agree config horizon m m' now) {ops : List RateOp}
    (hsorted : ops.Pairwise fun a b => a.now ≤ b.now) (hafter : ∀ op ∈ ops, now ≤ op.now)
    (hend : ∀ op ∈ ops, op.now ≤ horizon) :
    m'.operate ops = m.serve (RateOp.calls ops) := by
  induction ops generalizing m m' now with
  | nil => rfl
  | cons op ops ih =>
    obtain ⟨hfirst, hrest⟩ := pairwise_cons.mp hsorted
    obtain ⟨hnow, -⟩ := forall_mem_cons.mp hafter
    obtain ⟨hop, hend'⟩ := forall_mem_cons.mp hend
    cases op with
    | call call =>
      obtain ⟨hsame, hnext⟩ := h.isAllowedByKey hbounded hnow hop
      rw [RateLimitMiddleware.operate, hsame, ih hnext hrest hfirst hend']
      rfl
    | cleanup later => exact ih (h.cleanup hbounded hrefills hnow) hrest hfirst hend'

end

/-! ## When clean-ups are not seen -/

lemma some_of_not_rejectsAll (hrange : InRange config)
    (h : ¬RejectsAll config) : 1 ≤ max config.burst.toNat config.average.toNat := by
  by_contra hnone
  refine h ((rejectsAll_iff config).mpr fun span => ?_)
  have htokens := TokenBucket.toNat_tokens_new (Nat.lt_of_le_of_lt hrange (by decide)) 0
  have hadd := TokenBucket.tokensToAdd_le (TokenBucket.updatedAt_new
    (maxU64 config.burst config.average) 0) (Nat.zero_le span) config.average
  rw [show config.average.toNat = 0 by omega, Nat.zero_mul] at hadd
  have hle := ((TokenBucket.new (maxU64 config.burst config.average) 0).newTokens_le span
    config.average (maxU64 config.burst 1)).1
  rw [level]
  omega

lemma visible_of_refill_lt {horizon : ℕ}
    (hbounded : Bounded config horizon) (hold : cleanupMaxAge ≤ span) (hspan : span ≤ horizon)
    (hlow : refill config.average span < capacity config) :
    ¬Invisible config (burstThen (max config.burst.toNat 1) span (max config.burst.toNat 1)) := by
  intro hinv
  have hclock := hbounded.clock
  have hfull : level config 0 = capacity config :=
    level_eq hbounded.range hbounded.some (by decide)
  have hzero : (new config).tokensAt (request 0).key (request 0).now = capacity config :=
    (tokensAt_of_none rfl 0).trans hfull
  obtain ⟨b, hb, hupdated, htokens⟩ := exists_bucket_replicate (new config)
    (exchanges_request 0) (Nat.le_refl 0) (n := max config.burst.toNat 1) (by omega)
    (by rw [hzero, capacity])
  rw [hzero, capacity, Nat.sub_self] at htokens
  have hepoch : b.epoch = 0 := Nat.le_zero.mp hupdated.1
  -- the bucket is empty since 0: kept, it has what came in since; dropped, it is made full
  have hkept : ((new config).after (replicate (max config.burst.toNat 1) (request 0))).tokensAt
      (request span).key span ≤ refill config.average span := by
    rw [tokensAt, bucket, show (request span).key = (request 0).key from rfl, hb, getD_some,
      config_after]
    refine (newTokens_eq hbounded.range hupdated (Nat.zero_le _) (by omega) (by omega)).le.trans ?_
    rw [htokens, Nat.zero_add]
    exact Nat.min_le_left _ _
  have hdropped : (((new config).after (replicate (max config.burst.toNat 1)
      (request 0))).cleanup span cleanupMaxAge).tokensAt (request span).key span =
        capacity config := by
    refine (tokensAt_of_none (buckets_cleanup_of_old hb ?_) span).trans ?_
    · rw [hupdated.2, hepoch]
      exact hold
    · exact (congrArg (level · 0) (config_after (new config) _)).trans hfull
  -- so many requests as a full bucket has tokens are not all admitted from the old one
  have hmany := (tokens_of_invisible hinv).mp (by rw [hdropped, capacity])
  rw [capacity] at hlow
  omega

/-- **When clean-ups change no result.** Over all runs: only if everything is rejected. Of the runs
that end before a time: if that is less than two minutes, or a bucket is refilled, by the computed
rate, whenever it was left alone that long. -/
theorem cleanup_invisible_iff (config : RateLimitConfig) :
    ((∀ ops : List RateOp, ops.Pairwise (fun a b => a.now ≤ b.now) → Invisible config ops) ↔
        RejectsAll config) ∧
      (InRange config → ∀ horizon < 2 ^ 64,
        (∀ ops : List RateOp, ops.Pairwise (fun a b => a.now ≤ b.now) →
            (∀ op ∈ ops, op.now ≤ horizon) → Invisible config ops) ↔
          horizon < cleanupMaxAge ∨ RejectsAll config ∨
            ∀ span, cleanupMaxAge ≤ span → span ≤ horizon →
              capacity config ≤ refill config.average span) := by
  refine ⟨⟨fun h => ?_, fun h ops _ => invisible_of_rejectsAll h ops⟩,
    fun hrange horizon hclock => ⟨fun h => ?_, ?_⟩⟩
  · by_contra hsome
    obtain ⟨ops, hsorted, hvisible⟩ := exists_visible hsome
    exact hvisible (h ops hsorted)
  · by_contra hnone
    simp only [not_or, not_forall, Nat.not_lt, Nat.not_le] at hnone
    obtain ⟨hlong, hsome, span, hold, hspan, hlow⟩ := hnone
    have hbounded : Bounded config horizon := ⟨hrange, some_of_not_rejectsAll hrange hsome, hclock⟩
    refine visible_of_refill_lt hbounded hold hspan hlow (h _ (sorted_burstThen _ _ _) ?_)
    intro op hop
    rcases mem_burstThen hop with rfl | hlater
    · exact Nat.zero_le _
    · exact hlater ▸ hspan
  · intro h ops hsorted hend
    by_cases hrejects : RejectsAll config
    · exact invisible_of_rejectsAll hrejects ops
    -- no span is as long as two minutes in a run that ends before
    have hrefills : ∀ span, cleanupMaxAge ≤ span → span ≤ horizon →
        capacity config ≤ refill config.average span := by
      rcases h with hearly | h | hrefills
      · intro span hold hspan
        omega
      · exact absurd h hrejects
      · exact hrefills
    have hbounded : Bounded config horizon :=
      ⟨hrange, some_of_not_rejectsAll hrange hrejects, hclock⟩
    have hstart : Agree config horizon (new config) (new config) 0 :=
      ⟨rfl, rfl, fun _ _ => nofun, fun _ _ => nofun, fun _ _ _ _ => rfl⟩
    exact hstart.operate hbounded hrefills hsorted (fun _ _ => Nat.zero_le _) hend

def keepsSending : List RateOp :=
  [.call (request 0), .call (request 60000000000), .call (request 119000000000),
    .cleanup 120000000000, .call (request 120000000000)]

/-- **The clean-up gives a rejected client its burst back**: without it the last request is
rejected as the two before it. -/
theorem cleanup_visible :
    keepsSending.Pairwise (fun a b => a.now ≤ b.now) ∧
      ((new { average := 1, burst := 1 }).operate keepsSending).map Prod.snd =
        [true, false, false, true] ∧
      ((new { average := 1, burst := 1 }).serve (RateOp.calls keepsSending)).map Prod.snd =
        [true, false, false, false] := by
  refine ⟨?_, by decide, by decide⟩
  simp [keepsSending, RateOp.now]

end RateLimitMiddleware

end TrafficCop
