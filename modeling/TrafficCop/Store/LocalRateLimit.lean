import TrafficCop.Lib.Timed
import TrafficCop.Lib.Window
import TrafficCop.Middleware.RateLimit
import TrafficCop.Store.Basic

/-!
# Rate limits in the local store

`LocalStore::rate_limit_check` and the part of `LocalStore::cleanup` on rate limits.
-/

namespace TrafficCop

open Rust Store Timed Window List Redis

/-- The calls let through since the start of the window. -/
structure RateLimitEntry where
  count : UInt64
  windowStart : ℕ
  deriving Repr, DecidableEq

/-- What the store is asked; `wallMillis` is for the answer only. -/
inductive RateLimitOp where
  | check (key : Text) (limit windowSecs wallMillis : UInt64)
  | cleanup
  deriving Repr, DecidableEq

/-- `(allowed, remaining_tokens, reset_time_millis)`. -/
abbrev RateLimitAnswer := Bool × UInt64 × UInt64

def windowDuration (windowSecs : UInt64) : ℕ := nanosPerSec * windowSecs.toNat

namespace LocalStore

/-- A call behind the window sets the count to 1 and is let through, but the start of the window
stays: from then on every call finds the window over. -/
def rateLimitCheck (rateLimits : HashMap Text RateLimitEntry) (now : ℕ) (key : Text)
    (limit windowSecs wallMillis : UInt64) : HashMap Text RateLimitEntry × RateLimitAnswer :=
  let entry := (rateLimits.get key).getD ⟨0, now⟩
  let elapsed := now - entry.windowStart
  if windowDuration windowSecs ≤ elapsed then
    -- "Reset for new window": the count only
    (rateLimits.insert key { entry with count := 1 },
      (true, saturatingSub limit 1, wallMillis + windowSecs * 1000))
  else
    let resetTime := wallMillis + UInt64.ofNat ((windowDuration windowSecs - elapsed) / 1000000)
    if entry.count < limit then
      (rateLimits.insert key { entry with count := entry.count + 1 },
        (true, saturatingSub limit (entry.count + 1), resetTime))
    -- the increment is undone
    else (rateLimits.insert key entry, (false, 0, resetTime))

/-- `LocalStore::cleanup`, rate limits: entries younger than two minutes stay. -/
def cleanup (rateLimits : HashMap Text RateLimitEntry) (now : ℕ) : HashMap Text RateLimitEntry :=
  rateLimits.retain fun _ entry => now - entry.windowStart < 120 * nanosPerSec

/-- `cleanup` removes entries that are two minutes old, whatever their window. -/
def rateLimitOp (rateLimits : HashMap Text RateLimitEntry) (now : ℕ) :
    RateLimitOp → HashMap Text RateLimitEntry × Option RateLimitAnswer
  | .check key limit windowSecs wallMillis =>
    (rateLimitCheck rateLimits now key limit windowSecs wallMillis).map id some
  | .cleanup => (cleanup rateLimits now, none)

end LocalStore

/-! ## One call -/

variable {rateLimits : HashMap Text RateLimitEntry} {now : ℕ} {entry : RateLimitEntry}

/-- A call within the window counts if it is let through. -/
lemma rateLimitCheck_spec {key : Text} {limit windowSecs : UInt64} (wallMillis : UInt64)
    (hentry : (rateLimits.get key).getD ⟨0, now⟩ = entry) (hstart : entry.windowStart ≤ now)
    (hrunning : now < entry.windowStart + windowDuration windowSecs) :
    ∃ entry' answer,
      LocalStore.rateLimitCheck rateLimits now key limit windowSecs wallMillis =
        (rateLimits.insert key entry', answer) ∧
      entry'.windowStart = entry.windowStart ∧
      (answer.1 ∧ entry.count < limit ∧ entry'.count.toNat = entry.count.toNat + 1 ∨
        answer.1 = false ∧ entry'.count = entry.count) := by
  rw [LocalStore.rateLimitCheck, hentry]
  dsimp only
  rw [if_neg (by omega)]
  split
  · next hcount =>
    refine ⟨_, _, rfl, rfl, Or.inl ⟨rfl, hcount, ?_⟩⟩
    -- below the limit there is room for one more in 64 bits
    have hlt := UInt64.lt_iff_toNat_lt.mp hcount
    have := limit.toNat_lt
    rw [UInt64.toNat_add, UInt64.toNat_one]
    exact Nat.mod_eq_of_lt (by omega)
  · exact ⟨_, _, rfl, rfl, Or.inr ⟨rfl, rfl⟩⟩

/-! ## The calls for a key -/

abbrev RateLimitEvent := Event RateLimitOp (Option RateLimitAnswer)

def isCheck (key : Text) (e : RateLimitEvent) : Bool :=
  match e.input with
  | .check key' _ _ _ => key' == key
  | .cleanup => false

def allowedTimes (key : Text) (log : List RateLimitEvent) : List ℕ :=
  (log.filter fun e => isCheck key e && e.answer.any (·.1)).map Event.now

lemma allowedTimes_concat (key : Text) (log : List RateLimitEvent) (e : RateLimitEvent) :
    allowedTimes key (log ++ [e]) =
      allowedTimes key log ++ if isCheck key e && e.answer.any (·.1) then [e.now] else [] := by
  rw [allowedTimes, allowedTimes, filter_append, map_append]
  split
  · next h => rw [filter_singleton, h]; rfl
  · next h => rw [filter_singleton, Bool.eq_false_iff.mpr h]; rfl

def firstCheck (key : Text) (log : List RateLimitEvent) : Option ℕ :=
  (log.find? (isCheck key)).map Event.now

lemma firstCheck_concat (key : Text) (log : List RateLimitEvent) (e : RateLimitEvent) :
    firstCheck key (log ++ [e]) =
      (firstCheck key log).or (if isCheck key e then some e.now else none) := by
  rw [firstCheck, firstCheck, find?_append, find?_singleton]
  cases List.find? (isCheck key) log <;> cases isCheck key e <;> rfl

/-- A call for the key, or a clean-up of its entry, comes before the end of the key's window. -/
def InTime (key : Text) (windowSecs : UInt64)
    (c : Clocked (HashMap Text RateLimitEntry) RateLimitOp (Option RateLimitAnswer))
    (x : ℕ × RateLimitOp) : Prop :=
  ∀ entry, c.state.get key = some entry →
    match x.2 with
    | .check key' _ _ _ => key' = key → x.1 < entry.windowStart + windowDuration windowSecs
    | .cleanup => 120 * nanosPerSec ≤ x.1 - entry.windowStart →
        entry.windowStart + windowDuration windowSecs ≤ x.1

/-- All checks of a key have one limit and one window. -/
def Configured (key : Text) (limit windowSecs : UInt64) : RateLimitOp → Prop
  | .check key' limit' windowSecs' _ => key' = key → limit' = limit ∧ windowSecs' = windowSecs
  | .cleanup => True

/-- The entry is the counter of a fixed window, or was removed after its end. -/
def Tracks (key : Text) (limit windowSecs : UInt64)
    (c : Clocked (HashMap Text RateLimitEntry) RateLimitOp (Option RateLimitAnswer)) : Prop :=
  match firstCheck key c.log with
  | none => c.state.get key = none ∧ allowedTimes key c.log = []
  | some first => ∃ entry : RateLimitEntry,
      Counted limit.toNat (windowDuration windowSecs) (allowedTimes key c.log) first
        entry.windowStart entry.count.toNat ∧
      entry.windowStart ≤ c.now ∧
      (c.state.get key = some entry ∨
        c.state.get key = none ∧ entry.windowStart + windowDuration windowSecs ≤ c.now)

variable {key : Text} {limit windowSecs : UInt64}
  {c : Clocked (HashMap Text RateLimitEntry) RateLimitOp (Option RateLimitAnswer)}

/-- An event that is no call for the key leaves its entry alone, or removes it when the window is
over. -/
lemma Tracks.of_other (h : Tracks key limit windowSecs c)
    {c' : Clocked (HashMap Text RateLimitEntry) RateLimitOp (Option RateLimitAnswer)}
    {e : RateLimitEvent} (hlog : c'.log = c.log ++ [e]) (hother : isCheck key e = false)
    (hnow : c.now ≤ c'.now)
    (hget : c'.state.get key = c.state.get key ∨ c'.state.get key = none ∧
      ∀ entry, c.state.get key = some entry →
        entry.windowStart + windowDuration windowSecs ≤ c'.now) :
    Tracks key limit windowSecs c' := by
  have hfirst : firstCheck key c'.log = firstCheck key c.log := by
    rw [hlog, firstCheck_concat, hother]
    simp
  have htimes : allowedTimes key c'.log = allowedTimes key c.log := by
    rw [hlog, allowedTimes_concat, hother]
    simp
  rw [Tracks] at h ⊢
  rw [hfirst, htimes]
  match firstCheck key c.log, h with
  | none, ⟨hnone, hempty⟩ =>
    rcases hget with hsame | ⟨hgone, -⟩
    · exact ⟨hsame.trans hnone, hempty⟩
    · exact ⟨hgone, hempty⟩
  | some first, ⟨entry, hcounted, hstart, hentry⟩ =>
    refine ⟨entry, hcounted, Nat.le_trans hstart hnow, ?_⟩
    -- was the entry there before, and is it there now
    rcases hget, hentry with ⟨hsame | ⟨hgone, hover⟩, hsome | ⟨hnone, hended⟩⟩
    · exact .inl (hsame.trans hsome)
    · exact .inr ⟨hsame.trans hnone, Nat.le_trans hended hnow⟩
    · exact .inr ⟨hgone, hover entry hsome⟩
    · exact .inr ⟨hgone, Nat.le_trans hended hnow⟩

lemma counted_check {first : ℕ} {times : List ℕ} {wallMillis : UInt64}
    (hentry : (rateLimits.get key).getD ⟨0, now⟩ = entry) (hstart : entry.windowStart ≤ now)
    (hrunning : now < entry.windowStart + windowDuration windowSecs)
    (hcounted : Counted limit.toNat (windowDuration windowSecs) times first entry.windowStart
      entry.count.toNat) :
    ∃ entry' answer,
      LocalStore.rateLimitCheck rateLimits now key limit windowSecs wallMillis =
        (rateLimits.insert key entry', answer) ∧
      entry'.windowStart ≤ now ∧
      Counted limit.toNat (windowDuration windowSecs)
        (times ++ if answer.1 then [now] else []) first entry'.windowStart
        entry'.count.toNat := by
  obtain ⟨entry', answer, hcheck, hsame, ⟨hallowed, hlt, hcount⟩ | ⟨hrefused, hcount⟩⟩ :=
    rateLimitCheck_spec wallMillis hentry hstart hrunning
  · refine ⟨entry', answer, hcheck, hsame ▸ hstart, ?_⟩
    rw [hallowed, if_pos rfl, hsame, hcount]
    exact hcounted.admit (UInt64.lt_iff_toNat_lt.mp hlt) hstart hrunning
  · refine ⟨entry', answer, hcheck, hsame ▸ hstart, ?_⟩
    rw [hrefused, if_neg (by decide), append_nil, hsame, hcount]
    exact hcounted

lemma Tracks.check (h : Tracks key limit windowSecs c) (hwindow : 1 ≤ windowSecs)
    (hnow : c.now ≤ now) (wallMillis : UInt64)
    (hin : InTime key windowSecs c (now, .check key limit windowSecs wallMillis)) :
    Tracks key limit windowSecs
      (tick LocalStore.rateLimitOp c (now, .check key limit windowSecs wallMillis)) := by
  have hpos : 0 < windowDuration windowSecs := by
    have := UInt64.le_iff_toNat_le.mp hwindow
    rw [UInt64.toNat_one] at this
    exact Nat.mul_pos (by decide) this
  -- the entry that the call works on is the counter of the current window, or a new one
  obtain ⟨entry, hentry, hstart, hrunning, hcounted⟩ : ∃ entry : RateLimitEntry,
      (c.state.get key).getD ⟨0, now⟩ = entry ∧ entry.windowStart ≤ now ∧
      now < entry.windowStart + windowDuration windowSecs ∧
      Counted limit.toNat (windowDuration windowSecs) (allowedTimes key c.log)
        ((firstCheck key c.log).getD now) entry.windowStart entry.count.toNat := by
    rw [Tracks] at h
    match firstCheck key c.log, h with
    | none, ⟨hnone, hempty⟩ =>
      rw [hnone, hempty]
      exact ⟨⟨0, now⟩, rfl, Nat.le_refl now, Nat.lt_add_of_pos_right hpos, .init _ _ now⟩
    | some first, ⟨entry, hcounted, hstart, hentry⟩ =>
      rcases hentry with hsome | ⟨hnone, hended⟩
      · rw [hsome]
        exact ⟨entry, rfl, Nat.le_trans hstart hnow, hin entry hsome rfl, hcounted⟩
      · -- removed after its window: the next window begins with this call
        rw [hnone]
        exact ⟨⟨0, now⟩, rfl, Nat.le_refl now, Nat.lt_add_of_pos_right hpos,
          hcounted.next (Nat.le_trans hended hnow)⟩
  obtain ⟨entry', answer, hcheck, hstart', hcounted'⟩ :=
    counted_check hentry hstart hrunning hcounted
  have htick : tick LocalStore.rateLimitOp c (now, .check key limit windowSecs wallMillis) =
      ⟨now, c.state.insert key entry', c.log ++
        [⟨now, .check key limit windowSecs wallMillis, some answer⟩]⟩ := by
    rw [tick, LocalStore.rateLimitOp, hcheck]
    rfl
  rw [htick, Tracks, firstCheck_concat, allowedTimes_concat]
  have hmine : isCheck key ⟨now, .check key limit windowSecs wallMillis, some answer⟩ :=
    beq_self_eq_true key
  have hfirst : (firstCheck key c.log).or (some now) = some ((firstCheck key c.log).getD now) := by
    cases firstCheck key c.log <;> rfl
  rw [hmine, if_pos rfl, hfirst]
  exact ⟨entry', hcounted', hstart', Or.inl (by rw [HashMap.get_insert, if_pos rfl])⟩

lemma get_cleanup {ends : ℕ} (hold : ∀ entry, rateLimits.get key = some entry →
      120 * nanosPerSec ≤ now - entry.windowStart → entry.windowStart + ends ≤ now) :
    (LocalStore.cleanup rateLimits now).get key = rateLimits.get key ∨
      (LocalStore.cleanup rateLimits now).get key = none ∧
        ∀ entry, rateLimits.get key = some entry → entry.windowStart + ends ≤ now := by
  rw [LocalStore.cleanup, HashMap.get_retain]
  generalize 120 * nanosPerSec = age at hold ⊢
  cases hget : rateLimits.get key with
  | none => exact .inl rfl
  | some entry =>
    by_cases hyoung : now - entry.windowStart < age
    · exact .inl (by simp [hyoung])
    · refine .inr ⟨by simpa using hyoung, ?_⟩
      intro entry' hentry'
      obtain rfl := Option.some.inj hentry'
      exact hold entry hget (by omega)

lemma step_tracks (hwindow : 1 ≤ windowSecs) (h : Tracks key limit windowSecs c)
    {x : ℕ × RateLimitOp} (hnow : c.now ≤ x.1) (hin : InTime key windowSecs c x)
    (hconfigured : Configured key limit windowSecs x.2) :
    Tracks key limit windowSecs (tick LocalStore.rateLimitOp c x) := by
  obtain ⟨now, op⟩ := x
  match op with
  | .check key' limit' windowSecs' wallMillis =>
    by_cases hkey : key' = key
    · obtain ⟨rfl, rfl⟩ := hconfigured hkey
      subst hkey
      exact h.check hwindow hnow wallMillis hin
    · refine h.of_other rfl (beq_false_of_ne hkey) hnow (Or.inl ?_)
      -- another key's entry is inserted
      have hinsert : ∃ entry, (LocalStore.rateLimitOp c.state now
          (.check key' limit' windowSecs' wallMillis)).1 = c.state.insert key' entry := by
        rw [LocalStore.rateLimitOp, LocalStore.rateLimitCheck]
        dsimp only
        split_ifs <;> exact ⟨_, rfl⟩
      obtain ⟨entry, hentry⟩ := hinsert
      show HashMap.get (LocalStore.rateLimitOp c.state now _).1 key = _
      rw [hentry, HashMap.get_insert, if_neg (Ne.symm hkey)]
  | .cleanup => exact h.of_other rfl rfl hnow (get_cleanup hin)

/-! ## Whole runs -/

/-- **The limit of the local store**, if no call for the key comes after the end of its window and
no clean-up removes a running window: at most twice the limit in any interval as long as the
window, at most the limit in the first window, and nothing when the limit is 0. -/
theorem rateLimitCheck_limit (key : Text) (limit windowSecs : UInt64) (hwindow : 1 ≤ windowSecs)
    (inputs : List (ℕ × RateLimitOp)) (horder : InOrder inputs)
    (hconfigured : ∀ x ∈ inputs, Configured key limit windowSecs x.2)
    (hin : Throughout LocalStore.rateLimitOp .empty (InTime key windowSecs) inputs) :
    (∀ a, countIn (allowedTimes key (operate LocalStore.rateLimitOp .empty inputs).log) a
        (a + windowDuration windowSecs + 1) ≤ 2 * limit.toNat) ∧
    (∀ first, firstCheck key (operate LocalStore.rateLimitOp .empty inputs).log = some first →
      countIn (allowedTimes key (operate LocalStore.rateLimitOp .empty inputs).log) first
        (first + windowDuration windowSecs) ≤ limit.toNat) ∧
    (limit = 0 → allowedTimes key (operate LocalStore.rateLimitOp .empty inputs).log = []) := by
  have hall : Throughout LocalStore.rateLimitOp .empty
      (fun c x => InTime key windowSecs c x ∧ Configured key limit windowSecs x.2) inputs :=
    fun before x hbefore => ⟨hin before x hbefore,
      hconfigured x (hbefore.subset (mem_append_right before (mem_singleton_self x)))⟩
  have htracks : Tracks key limit windowSecs (operate LocalStore.rateLimitOp .empty inputs) :=
    operate_induction (I := Tracks key limit windowSecs) ⟨rfl, rfl⟩
      (fun c x h hnow hstep => step_tracks hwindow h hnow hstep.1 hstep.2) horder hall
  rw [Tracks] at htracks
  generalize operate LocalStore.rateLimitOp .empty inputs = c at htracks
  match hfirst : firstCheck key c.log, htracks with
  | none, ⟨_, hempty⟩ => simp [hempty]
  | some first, ⟨entry, hcounted, _, _⟩ =>
    refine ⟨hcounted.bound, ?_, ?_⟩
    · intro first' hfirst'
      obtain rfl := Option.some.inj hfirst'
      exact hcounted.first_bound
    · intro hzero
      refine hcounted.eq_nil ?_
      rw [hzero, UInt64.toNat_zero]

def twoCalls : List (ℕ × RateLimitOp) :=
  [(0, .check "k" 1 60 0), (nanosPerSec, .check "k" 1 60 1000)]

theorem rateLimitCheck_limit_twoCalls :
    (∀ a, countIn (allowedTimes "k" (operate LocalStore.rateLimitOp .empty twoCalls).log) a
        (a + windowDuration 60 + 1) ≤ 2) ∧
      allowedTimes "k" (operate LocalStore.rateLimitOp .empty twoCalls).log = [0] := by
  have hconfigured : ∀ x ∈ twoCalls, Configured "k" 1 60 x.2 := by
    intro x hx
    simp only [twoCalls, mem_cons, not_mem_nil, or_false] at hx
    rcases hx with rfl | rfl <;> exact fun _ => ⟨rfl, rfl⟩
  have hin : Throughout LocalStore.rateLimitOp .empty (InTime "k" 60) twoCalls := by
    refine throughout_concat.mpr ⟨throughout_concat.mpr ⟨throughout_nil, ?_⟩, ?_⟩
    · intro entry hentry
      cases hentry
    · intro entry hentry _
      have hstate : (operate LocalStore.rateLimitOp .empty
          [(0, RateLimitOp.check "k" 1 60 0)]).state.get "k" = some ⟨1, 0⟩ := by
        decide +kernel
      obtain rfl := Option.some.inj (hstate.symm.trans hentry)
      decide +kernel
  exact ⟨(rateLimitCheck_limit _ 1 60 (by decide) twoCalls (by decide) hconfigured hin).1,
    by decide +kernel⟩

def lateCalls (limit : UInt64) : List (ℕ × RateLimitOp) :=
  (0, .check "k" limit 1 0) ::
    List.replicate 3 (nanosPerSec, .check "k" limit 1 1000)

/-- **After the first window there is no limit.** Three calls are let through at the same
instant where two windows' worth is two, and calls are let through where the limit is 0. -/
theorem rateLimitCheck_lateCalls :
    (∀ limit, InOrder (lateCalls limit)) ∧
    (∀ limit, ∀ x ∈ lateCalls limit, Configured "k" limit 1 x.2) ∧
    2 * (1 : UInt64).toNat < countIn (allowedTimes "k"
      (operate LocalStore.rateLimitOp .empty (lateCalls 1)).log) Redis.nanosPerSec
        (Redis.nanosPerSec + windowDuration 1 + 1) ∧
    allowedTimes "k" (operate LocalStore.rateLimitOp .empty (lateCalls 0)).log ≠ [] := by
  refine ⟨fun limit => ?_, fun limit x hx => ?_, by decide +kernel, by decide +kernel⟩
  · simp [InOrder, lateCalls, List.replicate]
  · have hx : x = (0, .check "k" limit 1 0) ∨ x = (nanosPerSec, .check "k" limit 1 1000) := by
      simpa [lateCalls, List.replicate] using hx
    rcases hx with rfl | rfl <;> exact fun _ => ⟨rfl, rfl⟩

end TrafficCop
