import TrafficCop.Health.Passive
import TrafficCop.Lib.Timed

/-!
# What passive health does to a success

Whole histories of responses to a `PassiveHealthChecker`. A healthy backend turns unhealthy when the
failures in its window reach the threshold. The test is made for a response that is no failure as
well.
-/

namespace TrafficCop

open Rust Timed List Option BackendState

structure BackendResponse where
  url : Text
  status : UInt16
  responseTime : ℕ
  deriving Repr, DecidableEq

namespace PassiveHealthChecker

def answer (c : PassiveHealthChecker) (now : ℕ) (r : BackendResponse) :
    PassiveHealthChecker × HealthChange :=
  let result := c.recordResponse r.url r.status r.responseTime now
  (result.2, result.1)

/-- The checker behind a history, with its log. -/
def after (config : PassiveHealthConfig) (history : List (ℕ × BackendResponse)) :
    Clocked PassiveHealthChecker BackendResponse HealthChange :=
  operate answer (new config) history

/-- The response counts as a failure. -/
def fails (config : PassiveHealthConfig) (r : BackendResponse) : Bool :=
  (new config).isFailure r.status r.responseTime

/-- What the last response of a backend was answered. -/
def lastAnswer (url : Text) (log : List (Event BackendResponse HealthChange)) :
    Option HealthChange :=
  (log.filter fun e => e.input.url == url).getLast?.map (·.answer)

/-- Failures stay in the window until they are too old, also when the backend turns healthy again.
-/
def recentFailures (config : PassiveHealthConfig) (url : Text)
    (log : List (Event BackendResponse HealthChange)) (now : ℕ) : ℕ :=
  log.countP fun e => e.input.url == url && fails config e.input &&
    decide (now < e.now + config.windowDuration)

end PassiveHealthChecker

namespace BackendState

variable {config : PassiveHealthConfig} {state : BackendState} {isFailure : Bool} {now : ℕ}

def failuresAt (config : PassiveHealthConfig) (state : BackendState) (now : ℕ) : ℕ :=
  (state.window.filter fun entry => now < entry.1 + config.windowDuration && entry.2).length

lemma record_window : (state.record config isFailure now).2.window =
    state.addToWindow config isFailure now := by
  have hcount : (state.count config isFailure now).window =
      state.addToWindow config isFailure now := by
    cases isFailure <;> rfl
  unfold record
  dsimp only
  split
  · split <;> exact hcount
  · split <;> exact hcount

lemma failuresAt_record {later : ℕ} (hle : now ≤ later) :
    (state.record config isFailure now).2.failuresAt config later =
      state.failuresAt config later +
        if isFailure = true ∧ later < now + config.windowDuration then 1 else 0 := by
  rw [failuresAt, record_window, addToWindow, filter_append, length_append, List.filter_filter]
  congr 1
  · -- what is dropped now would not count later
    rw [failuresAt]
    refine congrArg List.length (filter_congr fun entry _ => ?_)
    rw [Bool.eq_iff_iff]
    simp only [Bool.and_eq_true, decide_eq_true_eq]
    constructor
    · exact fun h => h.1
    · exact fun h => ⟨h, by omega⟩
  · rw [filter_singleton]
    cases isFailure <;> by_cases h : later < now + config.windowDuration <;> simp [h]

lemma failuresAt_antitone {later : ℕ} (hle : now ≤ later) :
    state.failuresAt config later ≤ state.failuresAt config now := by
  refine (monotone_filter_right _ fun entry h => ?_).length_le
  simp only [Bool.and_eq_true, decide_eq_true_eq] at h ⊢
  exact ⟨by omega, h.2⟩

lemma record_of_healthy (h : state.healthy) :
    (state.record config isFailure now).1 =
      if config.failureThreshold ≤ (if isFailure then state.consecutiveFailures + 1 else 0) ∨
          config.failureThreshold.toNat ≤ state.failuresAt config now + isFailure.toNat then
        .becameUnhealthy
      else .noChange := by
  have hhealthy := (state.count_healthy config isFailure now).trans h
  rw [failuresAt, ← failureCount_count, ← count_consecutiveFailures config state isFailure now]
  simp only [record, hhealthy, if_true]
  split <;> rfl

lemma record_of_unhealthy (h : state.healthy = false) :
    (state.record config isFailure now).1 ≠ .becameUnhealthy := by
  have hhealthy := (state.count_healthy config isFailure now).trans h
  simp only [record, hhealthy, Bool.false_eq_true, if_false]
  split <;> simp

lemma record_success_iff (hthreshold : 1 ≤ config.failureThreshold) :
    (state.record config false now).1 = .becameUnhealthy ↔
      state.healthy ∧ config.failureThreshold.toNat ≤ state.failuresAt config now := by
  cases h : state.healthy with
  | false => exact iff_of_false (record_of_unhealthy h) (by simp)
  | true =>
    have hpos : ¬config.failureThreshold ≤ 0 := by
      rw [UInt32.le_iff_toNat_le] at hthreshold ⊢
      rw [UInt32.toNat_one] at hthreshold
      rw [UInt32.toNat_zero]
      omega
    rw [record_of_healthy h]
    simp [hpos]

lemma failuresAt_lt_of_noChange (h : state.healthy)
    (hchange : (state.record config isFailure now).1 ≠ .becameUnhealthy) :
    state.failuresAt config now + isFailure.toNat < config.failureThreshold.toNat := by
  rw [record_of_healthy h] at hchange
  by_contra hge
  exact hchange (if_pos (.inr (Nat.le_of_not_lt hge)))

end BackendState

namespace PassiveHealthChecker

variable {config : PassiveHealthConfig} {url : Text} {now : ℕ}
  {log : List (Event BackendResponse HealthChange)} {e : Event BackendResponse HealthChange}

lemma lastAnswer_concat : lastAnswer url (log ++ [e]) =
    if e.input.url = url then some e.answer else lastAnswer url log := by
  rw [lastAnswer, filter_append]
  by_cases h : e.input.url = url
  · rw [filter_cons_of_pos (by simp [h]), filter_nil, getLast?_concat, if_pos h]
    rfl
  · rw [filter_cons_of_neg (by simp [h]), filter_nil, append_nil, if_neg h, lastAnswer]

lemma recentFailures_concat : recentFailures config url (log ++ [e]) now =
    recentFailures config url log now +
      if e.input.url = url ∧ fails config e.input = true ∧ now < e.now + config.windowDuration
      then 1 else 0 := by
  rw [recentFailures, countP_append, countP_singleton]
  simp [recentFailures, and_assoc]

/-- What a history leaves of a backend at an instant. -/
structure Tracks (config : PassiveHealthConfig) (url : Text) (now : ℕ)
    (log : List (Event BackendResponse HealthChange)) (state : BackendState) : Prop where
  window : ∀ later, now ≤ later →
    state.failuresAt config later = recentFailures config url log later
  recovered : lastAnswer url log = some .becameHealthy → state.healthy = true
  quiet : state.healthy = true → lastAnswer url log ≠ some .becameHealthy →
    state.failuresAt config now < config.failureThreshold.toNat

lemma tracks_new (hthreshold : 1 ≤ config.failureThreshold) : Tracks config url 0 [] {} where
  window := fun _ _ => rfl
  recovered := by simp [lastAnswer]
  quiet := fun _ _ => Nat.lt_of_lt_of_le Nat.zero_lt_one (UInt32.le_iff_toNat_le.mp hthreshold)

variable {r : BackendResponse} {later : ℕ} {c : PassiveHealthChecker}

lemma Tracks.record {state : BackendState}
    (h : Tracks config url now log state) (hle : now ≤ later) (hurl : r.url = url) :
    Tracks config url later
      (log ++ [⟨later, r, (state.record config (fails config r) later).1⟩])
      (state.record config (fails config r) later).2 where
  window := by
    intro latest hlatest
    rw [failuresAt_record hlatest, h.window latest (by omega), recentFailures_concat]
    simp [hurl]
  recovered := by
    rw [lastAnswer_concat, if_pos hurl]
    intro hchange
    have hchange : (state.record config (fails config r) later).1 = .becameHealthy :=
      Option.some.inj hchange
    rw [record_healthy, hchange]
    rfl
  quiet := by
    rw [lastAnswer_concat, if_pos hurl, record_healthy,
      failuresAt_record (Nat.le_refl later)]
    intro hhealthy hchange
    -- nothing but no change leaves a backend healthy without turning it so
    have hstays : (state.record config (fails config r) later).1 ≠ .becameUnhealthy ∧
        state.healthy := by
      dsimp only at hchange
      generalize (state.record config (fails config r) later).1 = change at hhealthy hchange ⊢
      cases change with
      | noChange => exact ⟨by simp, hhealthy⟩
      | becameHealthy => exact absurd rfl hchange
      | becameUnhealthy => cases hhealthy
    have hlt := failuresAt_lt_of_noChange hstays.2 hstays.1
    refine Nat.lt_of_le_of_lt (Nat.add_le_add_left ?_ _) hlt
    cases hfails : fails config r <;> split <;> simp_all

lemma Tracks.other {state : BackendState} (h : Tracks config url now log state)
    (hle : now ≤ later) (hurl : e.input.url ≠ url) :
    Tracks config url later (log ++ [e]) state where
  window := by
    intro latest hlatest
    rw [h.window latest (by omega), recentFailures_concat, if_neg (fun hand => hurl hand.1),
      Nat.add_zero]
  recovered := by
    rw [lastAnswer_concat, if_neg hurl]
    exact h.recovered
  quiet := by
    rw [lastAnswer_concat, if_neg hurl]
    intro hhealthy hchange
    exact Nat.lt_of_le_of_lt (failuresAt_antitone hle) (h.quiet hhealthy hchange)

lemma answer_snd (hconfig : c.config = config) (now : ℕ) (r : BackendResponse) :
    (c.answer now r).2 = (((c.backends r.url).getD {}).record config (fails config r) now).1 := by
  subst hconfig
  rfl

lemma tracks_after (hthreshold : 1 ≤ config.failureThreshold)
    {history : List (ℕ × BackendResponse)} (horder : InOrder history) :
    (after config history).state.config = config ∧
      ∀ url, Tracks config url (after config history).now (after config history).log
        (((after config history).state.backends url).getD {}) := by
  have hall : Throughout answer (new config) (fun _ _ => True) history := fun _ _ _ => trivial
  refine operate_induction
    (I := fun c : Clocked PassiveHealthChecker BackendResponse HealthChange =>
      c.state.config = config ∧
        ∀ url, Tracks config url c.now c.log ((c.state.backends url).getD {}))
    ⟨rfl, fun url => tracks_new hthreshold⟩ ?_ horder hall
  rintro ⟨now, c, log⟩ ⟨later, r⟩ ⟨rfl, htracks⟩ hle -
  refine ⟨rfl, fun url => ?_⟩
  by_cases hurl : r.url = url
  · subst hurl
    have hnext := (htracks r.url).record hle rfl
    simp only [tick, answer, recordResponse, Function.update_self, getD_some]
    exact hnext
  · have hnext := (htracks url).other (e := ⟨later, r, (c.answer later r).2⟩) hle hurl
    simp only [tick, answer, recordResponse, Function.update_of_ne (Ne.symm hurl)]
    exact hnext

/-- A success turns its backend unhealthy exactly if that has just turned healthy and as many
failures as the threshold are in the window. -/
lemma becameUnhealthy_iff (hthreshold : 1 ≤ config.failureThreshold)
    {before : List (ℕ × BackendResponse)} {x : ℕ × BackendResponse}
    (horder : InOrder (before ++ [x])) (hsuccess : fails config x.2 = false) :
    ((after config before).state.answer x.1 x.2).2 = .becameUnhealthy ↔
      lastAnswer x.2.url (after config before).log = some .becameHealthy ∧
        config.failureThreshold.toNat ≤
          recentFailures config x.2.url (after config before).log x.1 := by
  obtain ⟨hconfig, htracks⟩ :=
    tracks_after hthreshold (horder.of_before (prefix_append before [x]))
  have hle : (after config before).now ≤ x.1 := horder.now_le
  have h := htracks x.2.url
  rw [answer_snd hconfig, hsuccess, record_success_iff hthreshold, h.window x.1 hle]
  refine and_congr_left fun hfull => ⟨fun hhealthy => ?_, h.recovered⟩
  by_contra hchange
  have hquiet := h.quiet hhealthy hchange
  have hless : (((after config before).state.backends x.2.url).getD {}).failuresAt config x.1 ≤
      (((after config before).state.backends x.2.url).getD {}).failuresAt config
        (after config before).now := failuresAt_antitone hle
  rw [h.window x.1 hle] at hless
  omega

lemma isHealthy_answer (hhealthy : c.isHealthy url)
    (hchange : r.url = url → (c.answer now r).2 ≠ .becameUnhealthy) :
    (c.answer now r).1.isHealthy url := by
  have hafter := c.recordResponse_isHealthy r.url url r.status r.responseTime now
  by_cases hurl : r.url = url
  · have hne := hchange hurl
    subst hurl
    rw [if_pos rfl, hhealthy] at hafter
    rw [answer] at hne ⊢
    dsimp only at hne ⊢
    rw [hafter]
    generalize (c.recordResponse r.url r.status r.responseTime now).1 = change at hne
    cases change with
    | noChange | becameHealthy => rfl
    | becameUnhealthy => exact absurd rfl hne
  · rw [if_neg (Ne.symm hurl)] at hafter
    exact hafter.trans hhealthy

/-- **When success is not punished**: no success is answered `BecameUnhealthy`, and a backend that
has turned healthy stays so under successes, exactly if every success right after its backend has
turned healthy finds fewer failures in the window than the threshold. -/
theorem success_not_punished_iff (config : PassiveHealthConfig)
    (hthreshold : 1 ≤ config.failureThreshold) (history : List (ℕ × BackendResponse))
    (horder : InOrder history) :
    ((∀ before x, before ++ [x] <+: history → fails config x.2 = false →
        ((after config before).state.answer x.1 x.2).2 ≠ .becameUnhealthy) ∧
      ∀ before x rest, before ++ [x] ++ rest <+: history →
        ((after config before).state.answer x.1 x.2).2 = .becameHealthy →
        (∀ y ∈ rest, y.2.url = x.2.url → fails config y.2 = false) →
        (after config (before ++ [x] ++ rest)).state.isHealthy x.2.url = true) ↔
      ∀ before x, before ++ [x] <+: history → fails config x.2 = false →
        lastAnswer x.2.url (after config before).log = some .becameHealthy →
        recentFailures config x.2.url (after config before).log x.1 <
          config.failureThreshold.toNat := by
  constructor
  · rintro ⟨hnever, -⟩ before x hprefix hsuccess hrecovered
    by_contra hge
    exact hnever before x hprefix hsuccess
      ((becameUnhealthy_iff hthreshold (horder.of_before hprefix) hsuccess).mpr
        ⟨hrecovered, Nat.le_of_not_lt hge⟩)
  · intro hfew
    have hnever : ∀ before x, before ++ [x] <+: history → fails config x.2 = false →
        ((after config before).state.answer x.1 x.2).2 ≠ .becameUnhealthy := by
      intro before x hprefix hsuccess hchange
      obtain ⟨hrecovered, hfull⟩ :=
        (becameUnhealthy_iff hthreshold (horder.of_before hprefix) hsuccess).mp hchange
      exact absurd (hfew before x hprefix hsuccess hrecovered) (Nat.not_lt.mpr hfull)
    refine ⟨hnever, fun before x rest => ?_⟩
    -- over the responses that follow, from the one that has turned it healthy
    induction rest using List.reverseRecOn with
    | nil =>
      intro _ hchange _
      have hafter := (after config before).state.recordResponse_isHealthy x.2.url x.2.url
        x.2.status x.2.responseTime x.1
      rw [if_pos rfl] at hafter
      rw [append_nil, after, operate_concat]
      refine hafter.trans ?_
      rw [show ((after config before).state.recordResponse x.2.url x.2.status x.2.responseTime
        x.1).1 = .becameHealthy from hchange]
      rfl
    | append_singleton rest y ih =>
      intro hprefix hchange hsuccesses
      rw [← append_assoc] at hprefix ⊢
      have hhealthy := ih ((prefix_append _ _).trans hprefix) hchange
        fun z hz => hsuccesses z (mem_append_left _ hz)
      rw [after, operate_concat]
      exact isHealthy_answer hhealthy fun hurl =>
        hnever _ y hprefix (hsuccesses y (by simp) hurl)

def everySecond (statuses : List UInt16) : List (ℕ × BackendResponse) :=
  statuses.zipIdx.map fun x => (1000000000 * x.2, ⟨"http://10.0.0.1", x.1, 20000000⟩)

/-- Five failures, two successes with which the backend turns healthy, and one more with which it
turns unhealthy again: the failures are still in the window. -/
theorem success_punished :
    (after {} (everySecond [500, 500, 500, 500, 500, 200, 200, 200])).log.map (·.answer) =
        [.noChange, .noChange, .noChange, .noChange, .becameUnhealthy, .noChange, .becameHealthy,
          .becameUnhealthy] ∧
      fails {} ⟨"http://10.0.0.1", 200, 20000000⟩ = false := by
  decide

/-- So with the default configuration a success can find the window full right after its backend has
turned healthy. -/
theorem success_not_punished_iff_five :
    ¬∀ before x, before ++ [x] <+: everySecond [500, 500, 500, 500, 500, 200, 200, 200] →
      fails {} x.2 = false → lastAnswer x.2.url (after {} before).log = some .becameHealthy →
        recentFailures {} x.2.url (after {} before).log x.1 < 5 := by
  intro hfew
  have hnever := ((success_not_punished_iff {} (by decide)
    (everySecond [500, 500, 500, 500, 500, 200, 200, 200]) (by decide)).mpr hfew).1
  exact hnever (everySecond [500, 500, 500, 500, 500, 200, 200])
    (7000000000, ⟨"http://10.0.0.1", 200, 20000000⟩) (by decide) (by decide) (by decide)

end PassiveHealthChecker

end TrafficCop
