import Mathlib.Algebra.Order.Archimedean.Real.Basic
import Mathlib.Tactic.Positivity
import TrafficCop.Config.Types

/-!
# Rate limiting

`TokenBucket` and `RateLimitMiddleware::is_allowed_by_key` of `middleware/builtin/rate_limit.rs`,
one call at a time. All stored values are `u64`, and arithmetic wraps.

Tokens are stored in thousandths, but a refill is too small by that factor.
-/

namespace TrafficCop

open Rust List Option

def minU64 (a b : UInt64) : UInt64 := if b < a then b else a

def maxU64 (a b : UInt64) : UInt64 := if b < a then a else b

def saturatingSub (a b : UInt64) : UInt64 := if a < b then 0 else a - b

lemma toNat_minU64 (a b : UInt64) : (minU64 a b).toNat = min a.toNat b.toNat := by
  rw [minU64]
  split
  · next h =>
    have := UInt64.lt_iff_toNat_lt.mp h
    omega
  · next h =>
    have := UInt64.le_iff_toNat_le.mp (UInt64.not_lt.mp h)
    omega

lemma toNat_maxU64 (a b : UInt64) : (maxU64 a b).toNat = max a.toNat b.toNat := by
  rw [maxU64]
  split
  · next h =>
    have := UInt64.lt_iff_toNat_lt.mp h
    omega
  · next h =>
    have := UInt64.le_iff_toNat_le.mp (UInt64.not_lt.mp h)
    omega

lemma toNat_saturatingSub (a b : UInt64) : (saturatingSub a b).toNat = a.toNat - b.toNat := by
  rw [saturatingSub]
  split
  · next h =>
    have := UInt64.lt_iff_toNat_lt.mp h
    rw [UInt64.toNat_zero]
    omega
  · next h => exact UInt64.toNat_sub_of_le _ _ (UInt64.not_lt.mp h)

/-- `struct TokenBucket`; `epoch` is the time of its creation. -/
structure TokenBucket where
  tokens : UInt64
  lastUpdate : UInt64
  epoch : Nat
  requestsSinceSync : UInt64
  deriving Repr, DecidableEq

namespace TokenBucket

def new (initialTokens : UInt64) (now : Nat) : TokenBucket where
  tokens := initialTokens * 1000
  lastUpdate := 0
  epoch := now
  requestsSinceSync := 0

/-- `self.epoch.elapsed().as_nanos() as u64`. -/
def nowNanos (b : TokenBucket) (now : Nat) : UInt64 := UInt64.ofNat (now - b.epoch)

/-- Milliseconds times tokens per second by 1000, added to thousandths: a thousandth of what
`average` tokens per second would be. -/
def tokensToAdd (b : TokenBucket) (now : Nat) (tokensPerSec : UInt64) : UInt64 :=
  let elapsedMillis := saturatingSub (b.nowNanos now) b.lastUpdate / 1000000
  elapsedMillis * tokensPerSec / 1000

def newTokens (b : TokenBucket) (now : Nat) (tokensPerSec burst : UInt64) : UInt64 :=
  minU64 (b.tokens + b.tokensToAdd now tokensPerSec) (burst * 1000)

/-- The loop of `try_acquire` with the attempts left; the exchange fails at those `spurious` holds
of. -/
def acquireLoop (b : TokenBucket) (now : Nat) (tokensPerSec burst : UInt64)
    (spurious : Nat → Bool) : Nat → Bool × TokenBucket
  | 0 => (false, b)
  | attempts + 1 =>
    if b.newTokens now tokensPerSec burst < 1000 then (false, b)
    else if spurious attempts then b.acquireLoop now tokensPerSec burst spurious attempts
    else (true, { b with
      tokens := b.newTokens now tokensPerSec burst - 1000
      lastUpdate := b.nowNanos now
      requestsSinceSync := b.requestsSinceSync + 1 })

def tryAcquire (b : TokenBucket) (now : Nat) (tokensPerSec burst : UInt64)
    (spurious : Nat → Bool) : Bool × TokenBucket :=
  b.acquireLoop now tokensPerSec burst spurious 8

end TokenBucket

/-- In nanoseconds. `compare_exchange_weak` may fail although nobody else changed the value, so a
call comes with the attempts at which it does. -/
structure RateCall where
  key : Text
  now : Nat
  spurious : Nat → Bool := fun _ => false

/-- `struct RateLimitMiddleware`; what concerns the distributed store is left out. -/
structure RateLimitMiddleware where
  config : RateLimitConfig
  buckets : Text → Option TokenBucket

namespace RateLimitMiddleware

def new (config : RateLimitConfig) : RateLimitMiddleware := ⟨config, fun _ => none⟩

/-- `self.buckets.entry(key).or_insert_with(..)`. -/
def bucket (m : RateLimitMiddleware) (call : RateCall) : TokenBucket :=
  (m.buckets call.key).getD (.new (maxU64 m.config.burst m.config.average) call.now)

def isAllowedByKey (m : RateLimitMiddleware) (call : RateCall) : Bool × RateLimitMiddleware :=
  let r := (m.bucket call).tryAcquire call.now m.config.average (maxU64 m.config.burst 1)
    call.spurious
  (r.1, { m with buckets := Function.update m.buckets call.key (some r.2) })

/-- The calls of a run, with their outcomes. -/
def serve (m : RateLimitMiddleware) : List RateCall → List (RateCall × Bool)
  | [] => []
  | call :: calls => (call, (m.isAllowedByKey call).1) :: (m.isAllowedByKey call).2.serve calls

end RateLimitMiddleware

/-! ## One call -/

def exchanges (spurious : ℕ → Bool) (attempts : ℕ) : Bool :=
  (List.range attempts).any fun i => !spurious i

lemma exchanges_iff {spurious : ℕ → Bool} {attempts : ℕ} :
    exchanges spurious attempts ↔ ∃ i < attempts, spurious i = false := by
  simp [exchanges]

namespace TokenBucket

def spend (b : TokenBucket) (now : ℕ) (tokensPerSec burst : UInt64) : TokenBucket :=
  { b with
    tokens := b.newTokens now tokensPerSec burst - 1000
    lastUpdate := b.nowNanos now
    requestsSinceSync := b.requestsSinceSync + 1 }

/-- **A call is admitted exactly if the bucket comes to a token and an exchange succeeds**; a call
that is not leaves the bucket as it is. -/
theorem tryAcquire_eq (b : TokenBucket) (now : ℕ) (tokensPerSec burst : UInt64)
    (spurious : ℕ → Bool) :
    b.tryAcquire now tokensPerSec burst spurious =
      if 1000 ≤ (b.newTokens now tokensPerSec burst).toNat ∧ exchanges spurious 8 = true then
        (true, b.spend now tokensPerSec burst)
      else (false, b) := by
  unfold tryAcquire
  generalize 8 = attempts
  induction attempts with
  | zero => simp [acquireLoop, exchanges]
  | succ attempts ih =>
    have hmore : exchanges spurious (attempts + 1) =
        (exchanges spurious attempts || !spurious attempts) := by
      simp [exchanges, range_succ]
    rw [acquireLoop, hmore]
    split
    · next hlt =>
      have hlt' : (b.newTokens now tokensPerSec burst).toNat < 1000 :=
        UInt64.lt_iff_toNat_lt.mp hlt
      rw [if_neg (by omega)]
    · next hge =>
      have hge' : 1000 ≤ (b.newTokens now tokensPerSec burst).toNat :=
        UInt64.le_iff_toNat_le.mp (UInt64.not_lt.mp hge)
      cases hspurious : spurious attempts with
      | true => simpa [hspurious, hge'] using ih
      | false => simp [hge', spend]

/-- The bucket was updated last at that instant. -/
def UpdatedAt (b : TokenBucket) (last : Nat) : Prop :=
  b.epoch ≤ last ∧ b.lastUpdate = UInt64.ofNat (last - b.epoch)

lemma updatedAt_new (initialTokens : UInt64) (now : Nat) :
    (new initialTokens now).UpdatedAt now :=
  ⟨Nat.le_refl _, by simp [new]⟩

variable {b : TokenBucket} {last now : ℕ} {tokensPerSec burst : UInt64}

lemma updatedAt_spend (tokensPerSec burst : UInt64) (h : b.epoch ≤ now) :
    (b.spend now tokensPerSec burst).UpdatedAt now :=
  ⟨h, rfl⟩

lemma toNat_elapsed (h : b.UpdatedAt last) (now : Nat) :
    (saturatingSub (b.nowNanos now) b.lastUpdate).toNat =
      (now - b.epoch) % 2 ^ 64 - (last - b.epoch) % 2 ^ 64 := by
  rw [toNat_saturatingSub, h.2, nowNanos, UInt64.toNat_ofNat', UInt64.toNat_ofNat']

lemma elapsed_le (h : b.UpdatedAt last) (hnow : last ≤ now) :
    (saturatingSub (b.nowNanos now) b.lastUpdate).toNat ≤ now - last := by
  have hepoch := h.1
  rw [toNat_elapsed h]
  omega

lemma elapsed_eq (h : b.UpdatedAt last) (hnow : last ≤ now) (hclock : now < 2 ^ 64) :
    (saturatingSub (b.nowNanos now) b.lastUpdate).toNat = now - last := by
  have hepoch := h.1
  rw [toNat_elapsed h]
  omega

lemma tokensToAdd_eq {span : ℕ}
    (h : (saturatingSub (b.nowNanos now) b.lastUpdate).toNat = span) :
    (b.tokensToAdd now tokensPerSec).toNat =
      span / 1000000 * tokensPerSec.toNat % 2 ^ 64 / 1000 := by
  rw [tokensToAdd, UInt64.toNat_div, UInt64.toNat_mul, UInt64.toNat_div, h]
  rfl

/-- The refill in real time, in units of which a nanosecond brings 10⁹. -/
lemma tokensToAdd_le (h : b.UpdatedAt last) (hnow : last ≤ now) (tokensPerSec : UInt64) :
    1000000000 * (b.tokensToAdd now tokensPerSec).toNat ≤ tokensPerSec.toNat * (now - last) := by
  have helapsed := elapsed_le h hnow
  generalize hspan : (saturatingSub (b.nowNanos now) b.lastUpdate).toNat = span at helapsed
  -- each of the three roundings loses: the milliseconds, the wrapped product, the thousandths
  have hproduct : span / 1000000 * tokensPerSec.toNat % 2 ^ 64 ≤
      span / 1000000 * tokensPerSec.toNat := Nat.mod_le _ _
  have hmillis : 1000000 * (span / 1000000 * tokensPerSec.toNat) ≤
      tokensPerSec.toNat * (now - last) := by
    calc 1000000 * (span / 1000000 * tokensPerSec.toNat)
        = tokensPerSec.toNat * (1000000 * (span / 1000000)) := by ring
      _ ≤ tokensPerSec.toNat * (now - last) :=
        Nat.mul_le_mul_left _ ((Nat.mul_div_le _ _).trans helapsed)
  rw [tokensToAdd_eq hspan]
  omega

lemma toNat_newTokens (b : TokenBucket) (now : ℕ) (tokensPerSec burst : UInt64) :
    (b.newTokens now tokensPerSec burst).toNat =
      min ((b.tokens.toNat + (b.tokensToAdd now tokensPerSec).toNat) % 2 ^ 64)
        (burst.toNat * 1000 % 2 ^ 64) := by
  rw [newTokens, toNat_minU64, UInt64.toNat_add, UInt64.toNat_mul]
  rfl

lemma newTokens_le (b : TokenBucket) (now : Nat) (tokensPerSec burst : UInt64) :
    (b.newTokens now tokensPerSec burst).toNat ≤
        b.tokens.toNat + (b.tokensToAdd now tokensPerSec).toNat ∧
      (b.newTokens now tokensPerSec burst).toNat ≤ 1000 * burst.toNat := by
  rw [toNat_newTokens, Nat.mul_comm 1000]
  exact ⟨(Nat.min_le_left _ _).trans (Nat.mod_le _ _),
    (Nat.min_le_right _ _).trans (Nat.mod_le _ _)⟩

lemma newTokens_of_elapsed_zero (h : saturatingSub (b.nowNanos now) b.lastUpdate = 0) :
    (b.newTokens now tokensPerSec burst).toNat =
      min b.tokens.toNat (burst.toNat * 1000 % 2 ^ 64) := by
  have hadd : b.tokensToAdd now tokensPerSec = 0 := by
    rw [tokensToAdd, h]
    simp
  rw [toNat_newTokens, hadd, UInt64.toNat_zero, Nat.add_zero, Nat.mod_eq_of_lt b.tokens.toNat_lt]

lemma toNat_spend (h : 1000 ≤ (b.newTokens now tokensPerSec burst).toNat) :
    (b.spend now tokensPerSec burst).tokens.toNat =
      (b.newTokens now tokensPerSec burst).toNat - 1000 :=
  UInt64.toNat_sub_of_le _ _ (UInt64.le_iff_toNat_le.mpr h)

/-- **An admitted call** takes a token, stays under the burst, and gets no more than the rate allows
since the last update. -/
theorem spend_spec (h : b.UpdatedAt last) (hnow : last ≤ now)
    (hadmitted : 1000 ≤ (b.newTokens now tokensPerSec burst).toNat) :
    (b.spend now tokensPerSec burst).UpdatedAt now ∧
      (b.spend now tokensPerSec burst).tokens.toNat + 1000 ≤ 1000 * burst.toNat ∧
      1000000000 * ((b.spend now tokensPerSec burst).tokens.toNat + 1000) ≤
        1000000000 * b.tokens.toNat + tokensPerSec.toNat * (now - last) := by
  obtain ⟨hsum, hburst⟩ := newTokens_le b now tokensPerSec burst
  have hadd := tokensToAdd_le h hnow tokensPerSec
  rw [toNat_spend hadmitted, Nat.sub_add_cancel hadmitted]
  exact ⟨updatedAt_spend _ _ (h.1.trans hnow), hburst, by omega⟩

lemma toNat_tokens_new {config : RateLimitConfig}
    (hrange : 1000 * max config.burst.toNat config.average.toNat < 2 ^ 64) (now : ℕ) :
    (new (maxU64 config.burst config.average) now).tokens.toNat =
      1000 * max config.burst.toNat config.average.toNat := by
  have hthousand : (1000 : UInt64).toNat = 1000 := rfl
  rw [new, UInt64.toNat_mul, toNat_maxU64, hthousand, Nat.mul_comm, Nat.mod_eq_of_lt hrange]

end TokenBucket

namespace RateLimitMiddleware

def tokensAt (m : RateLimitMiddleware) (key : Text) (now : ℕ) : ℕ :=
  ((m.bucket { key, now }).newTokens now m.config.average (maxU64 m.config.burst 1)).toNat

def setBucket (m : RateLimitMiddleware) (key : Text) (b : TokenBucket) : RateLimitMiddleware :=
  { m with buckets := Function.update m.buckets key (some b) }

def spent (m : RateLimitMiddleware) (call : RateCall) : TokenBucket :=
  (m.bucket call).spend call.now m.config.average (maxU64 m.config.burst 1)

lemma buckets_setBucket (m : RateLimitMiddleware) (key : Text) (b : TokenBucket) :
    (m.setBucket key b).buckets key = some b :=
  Function.update_self ..

lemma isAllowedByKey_eq (m : RateLimitMiddleware) (call : RateCall) :
    m.isAllowedByKey call =
      if 1000 ≤ m.tokensAt call.key call.now ∧ exchanges call.spurious 8 = true then
        (true, m.setBucket call.key (m.spent call))
      else (false, m.setBucket call.key (m.bucket call)) := by
  rw [isAllowedByKey, TokenBucket.tryAcquire_eq]
  split
  · next h => rw [if_pos (show 1000 ≤ m.tokensAt call.key call.now ∧ _ from h)]; rfl
  · next h => rw [if_neg (show ¬(1000 ≤ m.tokensAt call.key call.now ∧ _) from h)]; rfl

lemma isAllowedByKey_cases (m : RateLimitMiddleware) (call : RateCall) :
    m.isAllowedByKey call = (false, m.setBucket call.key (m.bucket call)) ∨
      1000 ≤ m.tokensAt call.key call.now ∧
        m.isAllowedByKey call = (true, m.setBucket call.key (m.spent call)) := by
  rw [isAllowedByKey_eq]
  split
  · next h => exact .inr ⟨h.1, rfl⟩
  · exact .inl rfl

variable {m : RateLimitMiddleware} {key : Text} {a e last : Nat} {call : RateCall}
  {calls : List RateCall} {b : TokenBucket}

lemma buckets_of_ne (hkey : call.key ≠ key) :
    (m.isAllowedByKey call).2.buckets key = m.buckets key :=
  Function.update_of_ne (Ne.symm hkey) ..

lemma bucket_eq (hb : m.buckets call.key = some b) : m.bucket call = b := by
  rw [bucket, hb, getD_some]

/-! ## The upper bound -/

/-- The calls let through in an interval. -/
def admittedBetween (key : Text) (a e : Nat) (outcomes : List (RateCall × Bool)) : Nat :=
  outcomes.countP fun x =>
    decide (x.1.key = key) && x.2 && (decide (a ≤ x.1.now) && decide (x.1.now ≤ e))

variable {outcomes : List (RateCall × Bool)}

lemma admittedBetween_cons_of_not {allowed : Bool}
    (h : ¬(call.key = key ∧ allowed ∧ a ≤ call.now ∧ call.now ≤ e)) :
    admittedBetween key a e ((call, allowed) :: outcomes) = admittedBetween key a e outcomes :=
  countP_cons_of_neg (by simpa [and_assoc] using h)

lemma admittedBetween_cons_of (hkey : call.key = key) (ha : a ≤ call.now) (he : call.now ≤ e) :
    admittedBetween key a e ((call, true) :: outcomes) = admittedBetween key a e outcomes + 1 :=
  countP_cons_of_pos (by simp [hkey, ha, he])

lemma admittedBetween_eq_zero (m : RateLimitMiddleware) (h : ∀ call ∈ calls, e < call.now) :
    admittedBetween key a e (m.serve calls) = 0 := by
  induction calls generalizing m with
  | nil => rfl
  | cons call calls ih =>
    have hcall := h call mem_cons_self
    rw [serve, admittedBetween_cons_of_not (by omega)]
    exact ih _ fun c hc => h c (mem_cons_of_mem _ hc)

/-- The updates of a key's bucket are not later than `last`. -/
def UpdatedBy (m : RateLimitMiddleware) (key : Text) (last : Nat) : Prop :=
  ∀ b, m.buckets key = some b → ∃ t ≤ last, b.UpdatedAt t

lemma updatedBy_bucket (h : m.UpdatedBy call.key last) (hlast : last ≤ call.now) :
    ∃ t ≤ call.now, (m.bucket call).UpdatedAt t := by
  cases hb : m.buckets call.key with
  | none =>
    rw [bucket, hb]
    exact ⟨call.now, Nat.le_refl _, TokenBucket.updatedAt_new _ _⟩
  | some b =>
    obtain ⟨t, ht, hupdated⟩ := h b hb
    rw [bucket_eq hb]
    exact ⟨t, Nat.le_trans ht hlast, hupdated⟩

lemma updatedBy_isAllowedByKey (h : m.UpdatedBy key last) (hlast : last ≤ call.now) :
    (m.isAllowedByKey call).2.UpdatedBy key call.now := by
  intro b hb
  by_cases hkey : call.key = key
  · subst hkey
    obtain ⟨t, ht, hupdated⟩ := updatedBy_bucket h hlast
    rcases m.isAllowedByKey_cases call with heq | ⟨hadmitted, heq⟩
    · rw [heq, buckets_setBucket, Option.some.injEq] at hb
      exact ⟨t, ht, hb ▸ hupdated⟩
    · rw [heq, buckets_setBucket, Option.some.injEq] at hb
      exact ⟨call.now, Nat.le_refl _, hb ▸ (TokenBucket.spend_spec hupdated ht hadmitted).1⟩
  · obtain ⟨t, ht, hupdated⟩ := h b ((buckets_of_ne hkey).symm.trans hb)
    exact ⟨t, Nat.le_trans ht hlast, hupdated⟩

/-- The bound in nanoseconds: that of any bucket, and that of a bucket that was updated in the
interval, by its tokens and the refill. The first admitted call takes a bucket from the one to the
other. -/
lemma admittedBetween_le (hsorted : calls.Pairwise fun c d => c.now ≤ d.now)
    (m : RateLimitMiddleware) (hupdated : m.UpdatedBy key last)
    (hafter : ∀ call ∈ calls, last ≤ call.now) :
    1000000000000 * admittedBetween key a e (m.serve calls) ≤
        1000000000000 * (maxU64 m.config.burst 1).toNat + m.config.average.toNat * (e - a) ∧
      ∀ b t, m.buckets key = some b → b.UpdatedAt t → a ≤ t → t ≤ e →
        (∀ call ∈ calls, t ≤ call.now) →
        1000000000000 * admittedBetween key a e (m.serve calls) ≤
          1000000000 * b.tokens.toNat + m.config.average.toNat * (e - t) := by
  induction calls generalizing m last with
  | nil => simp [serve, admittedBetween]
  | cons call calls ih =>
    obtain ⟨hfirst, hrest⟩ := pairwise_cons.mp hsorted
    obtain ⟨hcall, -⟩ := forall_mem_cons.mp hafter
    obtain ⟨hbound, htokens⟩ := ih hrest (m.isAllowedByKey call).2
      (updatedBy_isAllowedByKey hupdated hcall) hfirst
    rw [serve]
    by_cases hin : call.key = key ∧ (m.isAllowedByKey call).1 ∧ a ≤ call.now ∧ call.now ≤ e
    · obtain ⟨rfl, hallowed, ha, he⟩ := hin
      rcases m.isAllowedByKey_cases call with hfalse | ⟨hadmitted, htrue⟩
      · simp [hfalse] at hallowed
      obtain ⟨t, ht, hbucket⟩ := updatedBy_bucket hupdated hcall
      obtain ⟨hupdated', hburst, -⟩ := TokenBucket.spend_spec hbucket ht hadmitted
      simp only [htrue] at htokens ⊢
      have hlater := htokens (m.spent call) call.now (buckets_setBucket ..) hupdated' ha he hfirst
      rw [show (m.setBucket call.key (m.spent call)).config = m.config from rfl] at hlater
      rw [admittedBetween_cons_of rfl ha he]
      refine ⟨?_, fun b t hb ht _ hle hcalls => ?_⟩
      · have hleft : (m.spent call).tokens.toNat + 1000 ≤ 1000 * (maxU64 m.config.burst 1).toNat :=
          hburst
        have htime : m.config.average.toNat * (e - call.now) ≤ m.config.average.toNat * (e - a) :=
          Nat.mul_le_mul_left _ (by omega)
        omega
      · rw [← bucket_eq hb] at ht ⊢
        have hle' := hcalls call mem_cons_self
        have hspent : 1000000000 * ((m.spent call).tokens.toNat + 1000) ≤
            1000000000 * (m.bucket call).tokens.toNat +
              m.config.average.toNat * (call.now - t) :=
          (TokenBucket.spend_spec ht hle' hadmitted).2.2
        -- the time to the call and the time from it on
        rw [show e - t = call.now - t + (e - call.now) by omega, Nat.mul_add]
        linarith only [hlater, hspent]
    · rw [admittedBetween_cons_of_not hin]
      refine ⟨hbound, fun b t hb ht hat hle hcalls => ?_⟩
      by_cases hsame : (m.isAllowedByKey call).2.buckets key = some b
      · exact htokens b t hsame ht hat hle fun c hc => hcalls c (mem_cons_of_mem _ hc)
      -- the bucket has changed, so the call was admitted, behind the interval
      have hend : e < call.now := by
        by_contra hnot
        have hle' := hcalls call mem_cons_self
        obtain rfl : call.key = key := by
          by_contra hkey
          exact hsame ((buckets_of_ne hkey).trans hb)
        rcases m.isAllowedByKey_cases call with hfalse | ⟨-, htrue⟩
        · exact hsame (by rw [hfalse, buckets_setBucket, bucket_eq hb])
        · exact hin ⟨rfl, by rw [htrue], by omega, by omega⟩
      rw [admittedBetween_eq_zero _ fun c hc => Nat.lt_of_lt_of_le hend (hfirst c hc)]
      exact Nat.zero_le _

open Classical in
/-- **The upper bound**: from a fresh middleware on, in any interval of `span` seconds, a key
is admitted at most `max(burst, 1) + average * span` times. -/
theorem allowed_le (config : RateLimitConfig) {calls : List RateCall}
    (hsorted : calls.Pairwise fun c d => c.now ≤ d.now) (key : Text) (start span : ℝ)
    (hspan : 0 ≤ span) :
    ((((new config).serve calls).countP fun x => decide (x.1.key = key ∧ x.2 = true ∧
        start ≤ (x.1.now : ℝ) / 1000000000 ∧ (x.1.now : ℝ) / 1000000000 ≤ start + span) : ℕ) : ℝ) ≤
      max config.burst.toNat 1 + config.average.toNat * span := by
  -- the whole nanoseconds in the interval
  set a := ⌈start * 1000000000⌉₊
  set e := ⌊(start + span) * 1000000000⌋₊
  have hcount : ((new config).serve calls).countP (fun x => decide (x.1.key = key ∧ x.2 = true ∧
      start ≤ (x.1.now : ℝ) / 1000000000 ∧ (x.1.now : ℝ) / 1000000000 ≤ start + span)) ≤
        admittedBetween key a e ((new config).serve calls) := by
    refine countP_mono_left fun x _ hx => ?_
    obtain ⟨hkey, hallowed, hlow, hhigh⟩ := of_decide_eq_true hx
    have ha : a ≤ x.1.now := Nat.ceil_le.mpr (by linarith)
    have he : x.1.now ≤ e := Nat.le_floor (by linarith)
    simp [hkey, hallowed, ha, he]
  have hlength : ((e - a : ℕ) : ℝ) ≤ span * 1000000000 := by
    rcases Nat.lt_or_ge a e with hlt | hle
    · have hlow : start * 1000000000 ≤ a := Nat.le_ceil _
      have hpos : 0 < (start + span) * 1000000000 := Nat.pos_of_floor_pos (Nat.zero_lt_of_lt hlt)
      have hhigh : (e : ℝ) ≤ (start + span) * 1000000000 := Nat.floor_le hpos.le
      rw [Nat.cast_sub hlt.le]
      linarith
    · rw [Nat.sub_eq_zero_of_le hle]
      simpa using hspan
  have hbound : 1000000000000 * admittedBetween key a e ((new config).serve calls) ≤
      1000000000000 * (maxU64 config.burst 1).toNat + config.average.toNat * (e - a) :=
    (admittedBetween_le hsorted (new config) (fun b hb => by simp [new] at hb)
      fun call _ => Nat.zero_le call.now).1
  rw [toNat_maxU64] at hbound
  have hboundR : (1000000000000 : ℝ) * admittedBetween key a e ((new config).serve calls) ≤
      1000000000000 * (max config.burst.toNat 1 : ℕ) +
        config.average.toNat * ((e - a : ℕ) : ℝ) := by
    exact_mod_cast hbound
  have hrefill : (config.average.toNat : ℝ) * ((e - a : ℕ) : ℝ) ≤
      config.average.toNat * (span * 1000000000) :=
    mul_le_mul_of_nonneg_left hlength (Nat.cast_nonneg _)
  have hrate : (0 : ℝ) ≤ config.average.toNat * span := mul_nonneg (Nat.cast_nonneg _) hspan
  calc _ ≤ (admittedBetween key a e ((new config).serve calls) : ℝ) := by exact_mod_cast hcount
    _ ≤ _ := by linarith

def onePerSecond : RateLimitConfig := { average := 1, burst := 2 }

def crowd : List RateCall := List.replicate 3 { key := "10.0.0.9", now := 0 }

open Classical in
theorem allowed_le_crowd :
    ((((new onePerSecond).serve crowd).countP fun x => decide (x.1.key = "10.0.0.9".toList ∧
        x.2 = true ∧ (0 : ℝ) ≤ (x.1.now : ℝ) / 1000000000 ∧
        (x.1.now : ℝ) / 1000000000 ≤ 0 + 0) : ℕ) : ℝ) ≤
      max onePerSecond.burst.toNat 1 + onePerSecond.average.toNat * 0 :=
  allowed_le onePerSecond (by simp [crowd]) "10.0.0.9" 0 0 le_rfl

/-! ## Requests far enough apart -/

/-- A gap whose computed refill is a whole token, with nothing out of range. -/
def Refills (config : RateLimitConfig) (gap : Nat) : Prop :=
  1000000 ≤ gap / 1000000 * config.average.toNat ∧
    1000 * max config.burst.toNat config.average.toNat + gap / 1000000 * config.average.toNat <
      2 ^ 64

/-- The gap to the next call is long enough for a token. -/
def Follows (config : RateLimitConfig) (c d : RateCall) : Prop :=
  c.now ≤ d.now ∧ Refills config (d.now - c.now)

/-- What the clock and the exchange do at a call. -/
def Undisturbed (call : RateCall) : Prop := call.now < 2 ^ 64 ∧ ∃ i < 8, call.spurious i = false

/-- A bucket updated at the call, of which a token is missing. -/
def Used (config : RateLimitConfig) (b : TokenBucket) (prev : RateCall) : Prop :=
  b.UpdatedAt prev.now ∧ b.tokens.toNat + 1000 ≤ 1000 * (maxU64 config.burst 1).toNat

lemma le_tokensAt_of_follows {prev : RateCall} (hb : m.buckets call.key = some b)
    (hused : Used m.config b prev) (hfollows : Follows m.config prev call)
    (hclock : call.now < 2 ^ 64) : 1000 ≤ m.tokensAt call.key call.now := by
  obtain ⟨hupdated, htokens⟩ := hused
  obtain ⟨hle, htoken, hrange⟩ := hfollows
  have hmax : (maxU64 m.config.burst 1).toNat = max m.config.burst.toNat 1 := toNat_maxU64 _ _
  have hadd : (b.tokensToAdd call.now m.config.average).toNat =
      (call.now - prev.now) / 1000000 * m.config.average.toNat % 2 ^ 64 / 1000 :=
    TokenBucket.tokensToAdd_eq (TokenBucket.elapsed_eq hupdated hle hclock)
  rw [Nat.mod_eq_of_lt (by omega)] at hadd
  rw [tokensAt, bucket, hb, getD_some, TokenBucket.toNat_newTokens,
    Nat.mod_eq_of_lt (by omega), Nat.mod_eq_of_lt (by omega)]
  omega

lemma le_tokensAt_of_fresh (hb : m.buckets call.key = none)
    (haverage : 1 ≤ m.config.average.toNat)
    (hrange : 1000 * max m.config.burst.toNat m.config.average.toNat < 2 ^ 64) :
    1000 ≤ m.tokensAt call.key call.now := by
  have hmax : (maxU64 m.config.burst 1).toNat = max m.config.burst.toNat 1 := toNat_maxU64 _ _
  have hfill := TokenBucket.toNat_tokens_new hrange call.now
  -- no time has passed since the bucket was made
  have hzero : ∀ tokens, saturatingSub ((TokenBucket.new tokens call.now).nowNanos call.now)
      (TokenBucket.new tokens call.now).lastUpdate = 0 := by
    intro tokens
    simp [TokenBucket.nowNanos, TokenBucket.new, saturatingSub]
  rw [tokensAt, bucket, hb, getD_none, TokenBucket.newTokens_of_elapsed_zero (hzero _),
    hfill, Nat.mod_eq_of_lt (by omega)]
  omega

/-- Requests that follow each other are all admitted; those of other keys do not touch the bucket.
-/
lemma allowed_of_follows (m : RateLimitMiddleware) (haverage : 1 ≤ m.config.average.toNat)
    (hrange : 1000 * max m.config.burst.toNat m.config.average.toNat < 2 ^ 64)
    (hb : ∀ b, m.buckets key = some b → ∃ prev, Used m.config b prev ∧
      (prev :: calls.filter fun c => c.key = key).IsChain (Follows m.config))
    (hchain : (calls.filter fun c => c.key = key).IsChain (Follows m.config))
    (hcalls : ∀ call ∈ calls, call.key = key → Undisturbed call) :
    ∀ x ∈ m.serve calls, x.1.key = key → x.2 := by
  induction calls generalizing m with
  | nil => simp [serve]
  | cons call calls ih =>
    obtain ⟨hcall, hrest⟩ := forall_mem_cons.mp hcalls
    rw [serve, forall_mem_cons]
    by_cases hkey : call.key = key
    · subst hkey
      obtain ⟨hclock, hattempt⟩ := hcall rfl
      simp only [decide_true, filter_cons_of_pos, isChain_cons_cons] at hb hchain
      have hready : 1000 ≤ m.tokensAt call.key call.now ∧
          ∃ last ≤ call.now, (m.bucket call).UpdatedAt last := by
        cases hbucket : m.buckets call.key with
        | none =>
          refine ⟨le_tokensAt_of_fresh hbucket haverage hrange, call.now, Nat.le_refl _, ?_⟩
          rw [bucket, hbucket]
          exact TokenBucket.updatedAt_new _ _
        | some b =>
          -- the time since the call before has refilled it
          obtain ⟨prev, hused, hfollows, -⟩ := hb b hbucket
          refine ⟨le_tokensAt_of_follows hbucket hused hfollows hclock, prev.now, hfollows.1, ?_⟩
          rw [bucket_eq hbucket]
          exact hused.1
      obtain ⟨hadmitted, last, hlast, hupdated⟩ := hready
      obtain ⟨hupdated', hburst, -⟩ := TokenBucket.spend_spec hupdated hlast hadmitted
      rw [isAllowedByKey_eq, if_pos ⟨hadmitted, exchanges_iff.mpr hattempt⟩]
      refine ⟨fun _ => rfl, ih (m.setBucket call.key (m.spent call)) haverage hrange
        (fun b hspent => ?_) hchain.tail hrest⟩
      rw [buckets_setBucket, Option.some.injEq] at hspent
      exact ⟨call, hspent ▸ ⟨hupdated', hburst⟩, hchain⟩
    · rw [filter_cons_of_neg (by simpa using hkey)] at hb hchain
      exact ⟨fun h => absurd h hkey, ih (m.isAllowedByKey call).2 haverage hrange
        (fun b hother => hb b ((buckets_of_ne hkey).symm.trans hother)) hchain hrest⟩

/-! ## Evenly spaced requests -/

def steady (key : Text) (gap : Nat) : Nat → Nat → List RateCall
  | _, 0 => []
  | now, n + 1 => { key, now } :: steady key gap (now + gap) n

/-- With a refill below one token every request costs something, so at most as many are admitted as
there are thousandths. -/
lemma steady_le_tokens {gap : Nat} (hgap : gap < 2 ^ 64) (n : Nat) (m : RateLimitMiddleware)
    (hrefill : gap / 1000000 * m.config.average.toNat % 2 ^ 64 < 1000000)
    (hb : m.buckets key = some b) (hupdated : b.UpdatedAt last)
    (hall : ∀ x ∈ m.serve (steady key gap (last + gap) n), x.2) : n ≤ b.tokens.toNat := by
  induction n generalizing m b last with
  | zero => exact Nat.zero_le _
  | succ n ih =>
    rw [steady, serve, forall_mem_cons] at hall
    obtain ⟨hfirst, hrest⟩ := hall
    have hbucket : m.bucket { key, now := last + gap } = b := bucket_eq hb
    rcases m.isAllowedByKey_cases { key, now := last + gap } with hfalse | ⟨hadmitted, htrue⟩
    · simp [hfalse] at hfirst
    rw [tokensAt, hbucket] at hadmitted
    rw [htrue, spent, hbucket] at hrest
    have hlater := ih (m.setBucket key _) hrefill (buckets_setBucket ..)
      (TokenBucket.updatedAt_spend _ _ (hupdated.1.trans (Nat.le_add_right last gap))) hrest
    -- what came in is less than what the request took; nothing does when the clock wraps
    have hadd : (b.tokensToAdd (last + gap) m.config.average).toNat < 1000 := by
      have helapsed := TokenBucket.toNat_elapsed hupdated (last + gap)
      have hspan : (last + gap - b.epoch) % 2 ^ 64 - (last - b.epoch) % 2 ^ 64 = gap ∨
          (last + gap - b.epoch) % 2 ^ 64 - (last - b.epoch) % 2 ^ 64 = 0 := by
        have hepoch := hupdated.1
        omega
      rw [TokenBucket.tokensToAdd_eq helapsed]
      rcases hspan with hspan | hspan
      · rw [hspan]
        omega
      · rw [hspan]
        simp
    have hsum := (b.newTokens_le (last + gap) m.config.average (maxU64 m.config.burst 1)).1
    rw [TokenBucket.toNat_spend hadmitted] at hlater
    dsimp only at hlater hadmitted
    omega

/-- The spacing that the configuration asks of a client: `period / average`. -/
def Conforming (config : RateLimitConfig) (c d : RateCall) : Prop :=
  c.now ≤ d.now ∧ config.period ≤ (d.now - c.now) * config.average.toNat

/-- **When a conforming client is served**: requests that follow each other by gaps whose computed
refill is a whole token are admitted. A client that keeps sending at a gap with a smaller refill is
rejected in the end. -/
theorem conforming_allowed (config : RateLimitConfig) (haverage : 1 ≤ config.average.toNat) :
    (∀ (key : Text) (calls : List RateCall),
      1000 * max config.burst.toNat config.average.toNat < 2 ^ 64 →
      (calls.filter fun c => c.key = key).IsChain
        (fun c d => Conforming config c d ∧ Follows config c d) →
      (∀ call ∈ calls, call.key = key → Undisturbed call) →
      ∀ x ∈ (new config).serve calls, x.1.key = key → x.2 = true) ∧
    ∀ (key : Text) (gap now : Nat), gap < 2 ^ 64 → config.period ≤ gap * config.average.toNat →
      gap / 1000000 * config.average.toNat % 2 ^ 64 < 1000000 →
      ∃ n, ∃ x ∈ (new config).serve (steady key gap now n), x.2 = false := by
  constructor
  · intro key calls hrange hchain hcalls
    exact allowed_of_follows (new config) haverage hrange (fun b hb => by simp [new] at hb)
      (hchain.imp fun _ _ h => h.2) hcalls
  · intro key gap now hgap _ hrefill
    by_contra hnone
    have hall : ∀ n, ∀ x ∈ (new config).serve (steady key gap now n), x.2 := by
      intro n x hx
      cases hx2 : x.2 with
      | true => rfl
      | false => exact absurd ⟨n, x, hx, hx2⟩ hnone
    -- more requests than a bucket can hold thousandths
    have hmany := hall (2 ^ 64 + 1)
    rw [steady, serve, forall_mem_cons] at hmany
    obtain ⟨hfirst, hrest⟩ := hmany
    rcases (new config).isAllowedByKey_cases { key, now } with hfalse | ⟨-, htrue⟩
    · simp [hfalse] at hfirst
    rw [htrue] at hrest
    have hle := steady_le_tokens hgap (2 ^ 64) ((new config).setBucket key _) hrefill
      (buckets_setBucket ..) (TokenBucket.updatedAt_spend _ _ (Nat.le_refl now)) hrest
    exact absurd (UInt64.toNat_lt _) (Nat.not_lt.mpr hle)

def twoRequests (gap : Nat) : List RateCall :=
  [{ key := "10.0.0.9", now := 0 }, { key := "10.0.0.9", now := gap }]

/-- A thousand seconds apart, both are admitted; with one second between them, a client of
one request per second is rejected in the end. -/
theorem conforming_allowed_thousand :
    (∀ x ∈ (new onePerSecond).serve (twoRequests 1000000000000),
      x.1.key = "10.0.0.9" → x.2 = true) ∧
    ∃ n, ∃ x ∈ (new onePerSecond).serve (steady "10.0.0.9" 1000000000 0 n),
      x.2 = false := by
  have havg : 1 ≤ onePerSecond.average.toNat := by decide
  refine ⟨(conforming_allowed onePerSecond havg).1 "10.0.0.9" (twoRequests 1000000000000)
    (by decide) ?_ ?_, (conforming_allowed onePerSecond havg).2 _ 1000000000 0 (by decide)
    (by decide) (by decide)⟩
  · simp [twoRequests, Conforming, Follows, Refills, onePerSecond]
  · intro call hcall _
    have hnow : call.now ≤ 1000000000000 ∧ call.spurious 0 = false := by
      rcases mem_cons.mp hcall with rfl | hcall
      · exact ⟨by decide, rfl⟩
      · rcases mem_singleton.mp hcall with rfl
        exact ⟨by decide, rfl⟩
    exact ⟨by omega, 0, by decide, hnow.2⟩

/-- One request per second and no burst beyond it: the second request, a second after the first, is
rejected. -/
theorem conforming_rejected :
    (twoRequests 1000000000).IsChain (Conforming { average := 1, burst := 1 }) ∧
    ((new { average := 1, burst := 1 }).serve (twoRequests 1000000000)).map Prod.snd =
      [true, false] := by
  refine ⟨?_, by decide⟩
  simp [twoRequests, Conforming]

end RateLimitMiddleware

end TrafficCop
