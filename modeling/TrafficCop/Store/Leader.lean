import TrafficCop.Lib.Lease
import TrafficCop.Store.Basic

/-!
# Leader leases in the two stores

`leader_acquire`, `leader_release` and `leader_get` of `store/local.rs` and `store/valkey.rs`.
`ValkeyStore` runs a script per call on a key that Redis lets expire.

Both deal with a request as the table of `Lease` does (`LocalStore.implements`,
`ValkeyStore.implements`), so whole runs agree:

* `leader_leases` — **the stores give the same answers, and a lease excludes others**.
-/

namespace TrafficCop

open Rust Store Timed Function HashMap Lease

/-- An entry that has ended stays until somebody replaces or releases it. -/
structure LeaderEntry where
  nodeId : Text
  expiresAt : ℕ
  deriving Repr, DecidableEq

def leaderAnswer {α : Type} (ok : α → Lease.Answer Text) : StoreResult α → Lease.Answer Text
  | .ok a => ok a
  | .error _ => .failed

/-! ## The local store -/

namespace LocalStore

def leaderAcquire (leaders : HashMap Text LeaderEntry) (now : ℕ) (task nodeId : Text)
    (ttl : ℕ) : HashMap Text LeaderEntry × StoreResult Bool :=
  if (leaders.get task).any fun entry => now < entry.expiresAt ∧ entry.nodeId ≠ nodeId then
    (leaders, .ok false)
  else (leaders.insert task ⟨nodeId, now + ttl⟩, .ok true)

/-- `LocalStore::leader_release`; the end of the entry is not looked at. -/
def leaderRelease (leaders : HashMap Text LeaderEntry) (task nodeId : Text) :
    HashMap Text LeaderEntry × StoreResult Unit :=
  if (leaders.get task).any fun entry => entry.nodeId = nodeId then
    (leaders.erase task, .ok ())
  else (leaders, .ok ())

def leaderGet (leaders : HashMap Text LeaderEntry) (now : ℕ) (task : Text) :
    StoreResult (Option Text) :=
  match leaders.get task with
  | some entry => if now < entry.expiresAt then .ok (some entry.nodeId) else .ok none
  | none => .ok none

def leaderOp (leaders : HashMap Text LeaderEntry) (now : ℕ) :
    Lease.Op Text Text → HashMap Text LeaderEntry × Lease.Answer Text
  | .acquire task nodeId ttl =>
    (leaderAcquire leaders now task nodeId ttl).map id (leaderAnswer .granted)
  | .release task nodeId =>
    (leaderRelease leaders task nodeId).map id (leaderAnswer fun _ => .released)
  | .get task => (leaders, leaderAnswer .holder (leaderGet leaders now task))

/-- Whom the entry shows at an instant. -/
def leaderShown (leaders : HashMap Text LeaderEntry) (task : Text) (t : ℕ) : Option Text :=
  (leaders.get task).bind fun entry => if t < entry.expiresAt then some entry.nodeId else none

variable {leaders : HashMap Text LeaderEntry} {now : ℕ} {task nodeId : Text}

lemma blocked_iff :
    ((leaders.get task).any fun entry => now < entry.expiresAt ∧ entry.nodeId ≠ nodeId) = true ↔
      ¬(leaderShown leaders task now = none ∨ leaderShown leaders task now = some nodeId) := by
  rw [leaderShown]
  cases leaders.get task with
  | none => simp
  | some entry => by_cases hnow : now < entry.expiresAt <;> simp [hnow]

lemma leaderGet_eq : leaderGet leaders now task = .ok (leaderShown leaders task now) := by
  rw [leaderGet, leaderShown]
  cases leaders.get task with
  | none => rfl
  | some entry => by_cases hnow : now < entry.expiresAt <;> simp [hnow]

lemma leaderShown_erase (task' : Text) (t : ℕ) : leaderShown (leaders.erase task) task' t =
      if task' = task then none else leaderShown leaders task' t := by
  rw [leaderShown, get_erase]
  split <;> rfl

lemma implements : Lease.Implements leaderOp leaderShown fun _ => True := by
  rintro leaders table now op h -
  match op with
  | .get task => exact ⟨by rw [leaderOp, leaderGet_eq, h task now (Nat.le_refl _)]; rfl, h⟩
  | .acquire task nodeId ttl =>
    rw [leaderOp, leaderAcquire, answer, ← h task now (Nat.le_refl _)]
    split
    · next hblocked =>
      rw [if_neg (blocked_iff.mp hblocked)]
      exact ⟨rfl, h⟩
    · next hblocked =>
      rw [blocked_iff, not_not] at hblocked
      rw [if_pos hblocked]
      refine ⟨rfl, h.update fun task' t => ?_⟩
      show leaderShown (leaders.insert task ⟨nodeId, now + ttl⟩) task' t = _
      rw [leaderShown, get_insert]
      split <;> rfl
  | .release task nodeId =>
    rw [leaderOp, leaderRelease, answer, ← h task now (Nat.le_refl _)]
    cases hentry : leaders.get task with
    | none =>
      rw [leaderShown, hentry]
      exact ⟨rfl, h⟩
    | some entry =>
      have hshown (t) : leaderShown leaders task t =
          if t < entry.expiresAt then some entry.nodeId else none := by
        rw [leaderShown, hentry, Option.bind_some]
      by_cases hnode : entry.nodeId = nodeId
      · rw [if_pos (by simpa using hnode), hshown]
        by_cases hnow : now < entry.expiresAt
        · rw [if_pos hnow, if_pos (congrArg some hnode)]
          exact ⟨rfl, h.update leaderShown_erase⟩
        · -- the entry goes, but its lease has ended
          rw [if_neg hnow, if_neg (by simp)]
          refine ⟨rfl, fun task' t ht => (leaderShown_erase task' t).trans ?_⟩
          split
          · next htask => rw [← h _ t ht, htask, hshown, if_neg (by omega)]
          · exact h task' t ht
      · have hother : leaderShown leaders task now ≠ some nodeId := by
          rw [hshown]
          split <;> simp [hnode]
        rw [if_neg (by simpa using hnode), if_neg hother]
        exact ⟨rfl, h⟩

end LocalStore

/-! ## Valkey -/

namespace ValkeyStore

/-- `LEADER_ACQUIRE_SCRIPT`, or the error that ends it. -/
def leaderAcquireScript (db : Redis.Strings) (now : ℕ) (key nodeId : Text) (ttl : ℕ) :
    Option (Redis.Strings × ℕ) :=
  if Redis.get db now key = none ∨ Redis.get db now key = some nodeId then
    (Redis.setEx db now key nodeId ttl).map (·, 1)
  else some (db, 0)

def leaderReleaseScript (db : Redis.Strings) (now : ℕ) (key nodeId : Text) : Redis.Strings × ℕ :=
  if Redis.get db now key = some nodeId then (Redis.del db key, 1) else (db, 0)

variable (keyPrefix : Text)

def leaderKey (task : Text) : Text := key keyPrefix ["leader", task]

/-- `ValkeyStore::leader_acquire`; Redis is given whole seconds. -/
def leaderAcquire (db : Redis.Strings) (now : ℕ) (task nodeId : Text) (ttl : ℕ) :
    Redis.Strings × StoreResult Bool :=
  match leaderAcquireScript db now (leaderKey keyPrefix task) nodeId (ttl / Redis.nanosPerSec) with
  | some (db', result) => (db', .ok (result == 1))
  | none => (db, .error .connection)

/-- `ValkeyStore::leader_release`; the script's answer is not looked at. -/
def leaderRelease (db : Redis.Strings) (now : ℕ) (task nodeId : Text) :
    Redis.Strings × StoreResult Unit :=
  ((leaderReleaseScript db now (leaderKey keyPrefix task) nodeId).1, .ok ())

def leaderGet (db : Redis.Strings) (now : ℕ) (task : Text) : StoreResult (Option Text) :=
  .ok (Redis.get db now (leaderKey keyPrefix task))

def leaderOp (db : Redis.Strings) (now : ℕ) :
    Lease.Op Text Text → Redis.Strings × Lease.Answer Text
  | .acquire task nodeId ttl =>
    (leaderAcquire keyPrefix db now task nodeId ttl).map id (leaderAnswer .granted)
  | .release task nodeId =>
    (leaderRelease keyPrefix db now task nodeId).map id (leaderAnswer fun _ => .released)
  | .get task => (db, leaderAnswer .holder (leaderGet keyPrefix db now task))

variable {keyPrefix}

/-- Redis counts leases in seconds. -/
def WholeSeconds : Lease.Op Text Text → Prop
  | .acquire _ _ ttl => ∃ secs, 1 ≤ secs ∧ ttl = Redis.nanosPerSec * secs
  | _ => True

lemma implements (keyPrefix : Text) : Lease.Implements (leaderOp keyPrefix)
    (fun db task t => Redis.get db t (leaderKey keyPrefix task)) WholeSeconds := by
  intro db table now op h hwhole
  have hget (task) : Redis.get db now (leaderKey keyPrefix task) = holder (table task) now :=
    h task now (Nat.le_refl _)
  match op with
  | .get task => exact ⟨congrArg Answer.holder (hget task), h⟩
  | .acquire task nodeId ttl =>
    obtain ⟨secs, hsecs, rfl⟩ := hwhole
    have hdiv : Redis.nanosPerSec * secs / Redis.nanosPerSec = secs :=
      Nat.mul_div_cancel_left secs (by decide)
    rw [leaderOp, leaderAcquire, leaderAcquireScript, hdiv, Redis.setEx,
      if_neg (by omega : secs ≠ 0), answer, hget]
    by_cases hfree : holder (table task) now = none ∨ holder (table task) now = some nodeId
    · rw [if_pos hfree, if_pos hfree]
      exact ⟨rfl, h.update (writes_insert db (leaderKey keyPrefix task) nodeId _).get_kind⟩
    · rw [if_neg hfree, if_neg hfree]
      exact ⟨rfl, h⟩
  | .release task nodeId =>
    rw [leaderOp, leaderRelease, leaderReleaseScript, hget, answer]
    split
    · exact ⟨rfl, h.update (writes_del db (leaderKey keyPrefix task)).get_kind⟩
    · exact ⟨rfl, h⟩

end ValkeyStore

/-! ## Both stores -/

/-- **The stores agree on every sequence of leader operations, and a lease is exclusive until it
ends.** The holder of the lease of `e` neither renews nor releases it in `mid`: another node is
refused before the end, and granted at the end if nobody was in between. -/
theorem leader_leases (keyPrefix : Text) (inputs : List (ℕ × Lease.Op Text Text))
    (horder : InOrder inputs) (hwhole : ∀ x ∈ inputs, ValkeyStore.WholeSeconds x.2) :
    (operate LocalStore.leaderOp .empty inputs).log =
        (operate (ValkeyStore.leaderOp keyPrefix) .empty inputs).log ∧
    ∀ earlier mid later e x task nodeId ends other ttl,
      (operate LocalStore.leaderOp .empty inputs).log = earlier ++ e :: (mid ++ x :: later) →
      Lease.Grants task nodeId ends e → x.input = .acquire task other ttl →
      (Lease.Kept task nodeId mid → other ≠ nodeId → x.now < ends → x.answer = .granted false) ∧
      (Lease.NoneGranted task mid → ends ≤ x.now → x.answer = .granted true) := by
  -- both stores start like a table without leases
  have hlocal := LocalStore.implements.log_eq (s := .empty) (t := fun _ => none)
    (fun _ _ _ => rfl) horder fun _ _ => trivial
  have hvalkey := (ValkeyStore.implements keyPrefix).log_eq (s := .empty) (t := fun _ => none)
    (fun _ _ _ => rfl) horder hwhole
  refine ⟨hlocal.trans hvalkey.symm, ?_⟩
  intro earlier mid later e x task nodeId ends other ttl hlog he hx
  rw [hlocal] at hlog
  exact ⟨fun hkept hother hnow => exclusive horder hlog he hkept hother hx hnow,
    fun hnone hnow => available horder hlog he hnone hx hnow⟩

def handover : List (ℕ × Lease.Op Text Text) :=
  [(0, .acquire "t" "a" (Redis.nanosPerSec * 10)),
    (Redis.nanosPerSec * 5, .acquire "t" "b" (Redis.nanosPerSec * 10)),
    (Redis.nanosPerSec * 10, .acquire "t" "b" (Redis.nanosPerSec * 10))]

theorem leader_leases_handover :
    (operate LocalStore.leaderOp .empty handover).log =
        (operate (ValkeyStore.leaderOp "trafficcop") .empty handover).log ∧
      (operate LocalStore.leaderOp .empty handover).log.map Event.answer =
        [.granted true, .granted false, .granted true] := by
  have hten : ∃ secs, 1 ≤ secs ∧ Redis.nanosPerSec * 10 = Redis.nanosPerSec * secs :=
    ⟨10, by decide, rfl⟩
  have hwhole : ∀ x ∈ handover, ValkeyStore.WholeSeconds x.2 := by
    intro x hx
    simp only [handover, List.mem_cons, List.not_mem_nil, or_false] at hx
    rcases hx with rfl | rfl | rfl <;> exact hten
  exact ⟨(leader_leases _ handover (by decide) hwhole).1, by decide +kernel⟩

end TrafficCop
