import TrafficCop.Lib.Timed
import TrafficCop.Lib.Window
import TrafficCop.Store.Basic

/-!
# The sliding window in Valkey

`RATE_LIMIT_SCRIPT` and `ValkeyStore::rate_limit_check` of `store/valkey.rs`, for one key. Scripts
run one at a time.

A member is named by the time and a random number, so two calls within a millisecond may write the
same member. The key expires by the clock of the server, members are compared by the times that
callers send; both clocks are in the model.
-/

namespace TrafficCop

open Rust Timed Window List

/-- The sorted set of a key: the scores, and the end of the key by the server's clock. -/
structure RateLimitSet where
  members : HashMap Text ℕ
  expires : ℕ

namespace RateLimitSet

def empty : RateLimitSet := ⟨.empty, 0⟩

end RateLimitSet

/-- What one run of the script depends on beside the time that the caller sends. -/
structure ScriptCall where
  /-- The server's clock, in milliseconds. -/
  server : ℕ
  /-- What `math.random(1000000)` returns. -/
  random : ℕ
  deriving Repr, DecidableEq

/-- How the script is called for the key. -/
structure SlidingWindow where
  limit : ℕ
  windowSecs : ℕ
  /-- How Lua writes a number. -/
  tostring : ℕ → Text

namespace SlidingWindow

variable (w : SlidingWindow)

def millis : ℕ := 1000 * w.windowSecs

/-- `now .. '-' .. math.random(1000000)`. -/
def memberName (now random : ℕ) : Text := w.tostring now ++ '-' :: w.tostring random

/-- The members left if the key lives and `ZREMRANGEBYSCORE` has taken the scores from 0 to `now -
window * 1000`. -/
def remaining (set : RateLimitSet) (now : ℕ) (call : ScriptCall) : HashMap Text ℕ :=
  let live := if set.expires ≤ call.server then .empty else set.members
  live.retain fun _ score => ¬score + w.millis ≤ now

/-- What is as old as the window is removed, the rest is counted, and a member is added if there is
room. -/
def rateLimitScript (set : RateLimitSet) (now : ℕ) (call : ScriptCall) :
    RateLimitSet × ℕ × ℕ × ℕ :=
  let members := w.remaining set now call
  let count := members.entries.length
  if count < w.limit then
    (⟨members.insert (w.memberName now call.random) now, call.server + w.millis⟩,
      (1, w.limit - count - 1, now + w.millis))
  else (⟨members, set.expires⟩, (0, 0, now + w.millis))

/-- `ValkeyStore::rate_limit_check`: allowed, remaining tokens, time of the reset. -/
def rateLimitCheck (set : RateLimitSet) (now : ℕ) (call : ScriptCall) :
    RateLimitSet × Bool × ℕ × ℕ :=
  (w.rateLimitScript set now call).map id fun result => (result.1 == 1, result.2)

def allowedTimes (log : List (Event ScriptCall (Bool × ℕ × ℕ))) : List ℕ :=
  (log.filter (·.answer.1)).map Event.now

/-- An admitted call writes a new member, and no key expires under one that counts. -/
def Distinct (c : Clocked RateLimitSet ScriptCall (Bool × ℕ × ℕ)) (x : ℕ × ScriptCall) : Prop :=
  ((w.remaining c.state x.1 x.2).entries.length < w.limit →
    (w.remaining c.state x.1 x.2).get (w.memberName x.1 x.2.random) = none) ∧
  (c.state.expires ≤ x.2.server → ∀ entry ∈ c.state.members.entries, entry.2 + w.millis ≤ x.1)

/-- How many members are younger than the window at the time `t`. -/
def young (members : HashMap Text ℕ) (t : ℕ) : ℕ :=
  members.entries.countP fun entry => t < entry.2 + w.millis

/-- As many young members as young calls, each of which came when fewer than the limit were. -/
structure Remembers (c : Clocked RateLimitSet ScriptCall (Bool × ℕ × ℕ)) : Prop where
  young : ∀ t, c.now ≤ t →
    (allowedTimes c.log).countP (fun u => t < u + w.millis) ≤ w.young c.state.members t
  slides : ∀ before t, before ++ [t] <+: allowedTimes c.log →
    before.countP (fun u => t < u + w.millis) < w.limit

variable {w} {c : Clocked RateLimitSet ScriptCall (Bool × ℕ × ℕ)} {x : ℕ × ScriptCall}

/-- What the script takes out is no longer young, and neither is what has expired. -/
lemma young_remaining (hdistinct : w.Distinct c x) {t : ℕ} (ht : x.1 ≤ t) :
    w.young c.state.members t ≤ w.young (w.remaining c.state x.1 x.2) t := by
  by_cases hexpired : c.state.expires ≤ x.2.server
  · have hold := hdistinct.2 hexpired
    have hzero : w.young c.state.members t = 0 := by
      refine countP_eq_zero.mpr fun entry hentry => ?_
      have := hold entry hentry
      simp only [decide_eq_true_eq]
      omega
    rw [hzero]
    exact Nat.zero_le _
  · rw [young, young, remaining, if_neg hexpired, HashMap.retain, countP_filter]
    refine countP_mono_left fun entry _ hyoung => ?_
    simp only [decide_eq_true_eq, Bool.and_eq_true] at hyoung ⊢
    omega

lemma young_insert {members : HashMap Text ℕ} {name : Text} (hnew : members.get name = none)
    (now t : ℕ) : w.young (members.insert name now) t =
      w.young members t + if t < now + w.millis then 1 else 0 := by
  rw [young, HashMap.entries_insert_of_get_none hnew, countP_append, countP_singleton]
  simp [young]

lemma step_remembers (h : w.Remembers c) (hnow : c.now ≤ x.1) (hdistinct : w.Distinct c x) :
    w.Remembers (tick w.rateLimitCheck c x) := by
  obtain ⟨now, call⟩ := x
  have hyoung : ∀ t, now ≤ t → (allowedTimes c.log).countP (fun u => t < u + w.millis) ≤
      w.young (w.remaining c.state now call) t := fun t ht =>
    Nat.le_trans (h.young t (Nat.le_trans hnow ht)) (young_remaining hdistinct ht)
  by_cases hroom : (w.remaining c.state now call).entries.length < w.limit
  · -- let through: one more call, one more member
    have htick : tick w.rateLimitCheck c (now, call) =
        ⟨now, ⟨(w.remaining c.state now call).insert (w.memberName now call.random) now,
            call.server + w.millis⟩,
          c.log ++ [⟨now, call, (true, w.limit -
            (w.remaining c.state now call).entries.length - 1, now + w.millis)⟩]⟩ := by
      rw [tick, rateLimitCheck, rateLimitScript]
      dsimp only
      rw [if_pos hroom]
      rfl
    have htimes : allowedTimes (tick w.rateLimitCheck c (now, call)).log =
        allowedTimes c.log ++ [now] := by
      rw [htick, allowedTimes, filter_append, map_append]
      rfl
    constructor
    · intro t ht
      have hle : now ≤ t := by rw [htick] at ht; exact ht
      rw [htimes, countP_append, countP_singleton, htick]
      show _ ≤ w.young ((w.remaining c.state now call).insert _ now) t
      rw [young_insert (hdistinct.1 hroom)]
      have := hyoung t hle
      simp only [decide_eq_true_eq]
      omega
    · intro before t hbefore
      rw [htimes] at hbefore
      rcases prefix_concat_iff.mp hbefore with heq | hbefore
      · -- the call itself: there are no more young calls than members, and those were too few
        obtain ⟨rfl, hlast⟩ := append_inj' heq rfl
        obtain rfl := (List.cons.inj hlast).1
        have hle : w.young (w.remaining c.state t call) t ≤ _ := countP_le_length
        exact Nat.lt_of_le_of_lt (Nat.le_trans (hyoung t (Nat.le_refl t)) hle) hroom
      · exact h.slides before t hbefore
  · -- refused: the set has lost old members only
    have htick : tick w.rateLimitCheck c (now, call) =
        ⟨now, ⟨w.remaining c.state now call, c.state.expires⟩,
          c.log ++ [⟨now, call, (false, 0, now + w.millis)⟩]⟩ := by
      rw [tick, rateLimitCheck, rateLimitScript]
      dsimp only
      rw [if_neg hroom]
      rfl
    have htimes : allowedTimes (tick w.rateLimitCheck c (now, call)).log = allowedTimes c.log := by
      rw [htick, allowedTimes, filter_append, map_append]
      exact append_nil _
    constructor
    · intro t ht
      rw [htimes, htick]
      rw [htick] at ht
      exact hyoung t ht
    · rw [htimes]
      exact h.slides

/-- **The limit of the script.** If no call that is let through writes a member that is there
already, and the key does not expire under members that count, no interval of `windowSecs` seconds
has more than `limit` calls that were let through. -/
theorem rateLimitScript_limit (w : SlidingWindow) (inputs : List (ℕ × ScriptCall))
    (horder : InOrder inputs)
    (hdistinct : Throughout w.rateLimitCheck .empty w.Distinct inputs) (a : ℕ) :
    countIn (allowedTimes (operate w.rateLimitCheck .empty inputs).log) a (a + w.millis) ≤
      w.limit := by
  have hremembers : w.Remembers (operate w.rateLimitCheck .empty inputs) :=
    operate_induction (I := w.Remembers)
      ⟨fun _ _ => Nat.le_refl 0, fun before t h => by simp [allowedTimes, start] at h⟩
      (fun c x h hnow hx => step_remembers h hnow hx) horder hdistinct
  exact sliding hremembers.slides a

def twoPerSecond : SlidingWindow := ⟨2, 1, Nat.toDigits 10⟩

theorem rateLimitScript_limit_distinct :
    countIn (allowedTimes (operate twoPerSecond.rateLimitCheck .empty
      [(1700000000000, ⟨1700000000000, 7⟩), (1700000000000, ⟨1700000000000, 8⟩)]).log)
        1700000000000 (1700000000000 + twoPerSecond.millis) ≤ 2 := by
  refine rateLimitScript_limit twoPerSecond _ (by decide) ?_ _
  refine throughout_concat.mpr ⟨throughout_concat.mpr ⟨throughout_nil, ?_⟩, ?_⟩
  · exact ⟨fun _ => by decide +kernel, fun _ => by decide +kernel⟩
  · exact ⟨fun _ => by decide +kernel, fun h => absurd h (by decide +kernel)⟩

/-- **Calls with the same name count once.** Three calls in the same millisecond for which
`math.random` returns the same number are all let through, where the limit is two a second. -/
theorem rateLimitScript_same_name :
    countIn (allowedTimes (operate twoPerSecond.rateLimitCheck .empty
      (List.replicate 3 (1700000000000, ⟨1700000000000, 7⟩))).log)
        1700000000000 (1700000000000 + twoPerSecond.millis) = 3 := by
  decide +kernel

end SlidingWindow

end TrafficCop
