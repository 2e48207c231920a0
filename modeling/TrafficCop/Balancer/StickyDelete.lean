import TrafficCop.Balancer.Sticky
import TrafficCop.Lib.Transition

/-!
# Deleting sticky sessions

One session of a `StickySessionManager` that is backed by a store. The write that `create_session`
spawns, the two steps of `delete_session` and the lookups of `get_sticky_server_distributed` are
executed in any order. A lookup that found nothing fresh in the local cache asks the store and puts
the answer into the cache later. There is one id and one URL, so the tables are their entries for
that id.
-/

namespace TrafficCop

open List Option

namespace StickyDelete

open StickySessionManager

/-- The key: not written yet, there until an instant, or gone. -/
inductive Stored where
  | pending
  | present (till : ℕ)
  | absent
  deriving DecidableEq

/-- `sticky_session_delete`. The write that is pending is not known to the store. -/
def Stored.delete : Stored → Stored
  | .pending => .pending
  | .present _ | .absent => .absent

/-- The entries, the lookups that wait for the store and those that have their answer, the deletions
between their two steps, and whether the store has said `Ok` to one. -/
structure State where
  now : ℕ := 0
  cachedAt : Option ℕ
  stored : Stored
  waiting : ℕ := 0
  answered : ℕ := 0
  removing : ℕ := 0
  deleted : Bool := false
  deriving DecidableEq

/-- Steps; calls of the store may fail. -/
inductive Action where
  | tick (d : ℕ)
  | cleanup
  | write (ok : Bool)
  | lookup
  | get (ok : Bool)
  | insert
  | remove
  | delete (ok : Bool)
  deriving DecidableEq

variable (m : StickySessionManager)

def sessionTtl : ℕ := fromSecs (m.cookieConfig.maxAge.getD 86400).toUInt64.toNat

/-- The local cache has an entry that counts. -/
def fresh (s : State) : Bool := s.cachedAt.any fun t => s.now - t < m.localCacheTtl

/-- `sticky_session_get` finds the session. -/
def isStored (s : State) : Bool :=
  match s.stored with
  | .present till => s.now < till
  | _ => false

def getStickyServer (index : Fin m.servers.length) (s : State) : Option ℕ :=
  if fresh m s || isStored s then m.findServerIndex m.servers[index].url else none

/-- One step; those that nobody is there for do nothing. -/
def next (s : State) : Action → State
  | .tick d => { s with now := s.now + d }
  | .cleanup => if fresh m s then s else { s with cachedAt := none }
  | .write ok =>
    match s.stored with
    -- an expiry of 0 seconds is refused
    | .pending =>
      { s with
        stored := if ok && 0 < sessionTtl m then .present (s.now + sessionTtl m) else .absent }
    | _ => s
  | .lookup => if fresh m s then s else { s with waiting := s.waiting + 1 }
  | .get ok =>
    if s.waiting = 0 then s
    else
      { s with
        waiting := s.waiting - 1
        answered := if ok && isStored s then s.answered + 1 else s.answered }
  | .insert =>
    if s.answered = 0 then s
    else { s with answered := s.answered - 1, cachedAt := some s.now }
  | .remove => { s with cachedAt := none, removing := s.removing + 1 }
  | .delete ok =>
    if s.removing = 0 then s
    else
      { s with
        removing := s.removing - 1
        stored := if ok then s.stored.delete else s.stored
        deleted := s.deleted || ok }

def created : State where
  cachedAt := some 0
  stored := .pending

/-- The actions in any order, from the creation of the session on. -/
def run (actions : List Action) : State := actions.foldl (next m) created

/-- Once the session was deleted and its write has finished, it is not found. -/
def Gone (index : Fin m.servers.length) (s : State) : Prop :=
  s.deleted = true → s.stored ≠ .pending → getStickyServer m index s = none

/-- The steps that keep it away: behind the deletion no write and no answer of the store put into
the cache, and no fresh entry in the cache when it is deleted. While the write is pending, the last
two may wait for it. -/
def Careful (s : State) : Action → Prop
  | .write ok => s.stored = .pending → s.deleted = true →
    fresh m s = false ∧ (ok = true → sessionTtl m = 0)
  | .insert => s.answered ≠ 0 → s.deleted = true → s.stored = .pending ∨ m.localCacheTtl = 0
  | .delete true => s.removing ≠ 0 → s.stored = .pending ∨ fresh m s = false
  | _ => True

variable {m} {index : Fin m.servers.length} {s : State}

lemma getStickyServer_eq_none_iff :
    getStickyServer m index s = none ↔ fresh m s = false ∧ isStored s = false := by
  have hfound : m.findServerIndex m.servers[index].url ≠ none := by
    rw [findServerIndex, Ne, findIdx?_eq_none_iff]
    intro hnone
    simpa using hnone _ (getElem_mem index.isLt)
  rw [getStickyServer, ← Bool.or_eq_false_iff]
  split
  · next h => exact iff_of_false hfound (by simp [h])
  · next h => exact iff_of_true rfl (by simpa using h)

lemma gone_iff : Gone m index s ↔
    (s.deleted → s.stored ≠ .pending → fresh m s = false ∧ isStored s = false) := by
  rw [Gone, getStickyServer_eq_none_iff]

/-- Time, and steps that leave the cache no fresher, do not bring it back. -/
lemma gone_of_later {t : State} (h : Gone m index s) (hdeleted : t.deleted = s.deleted)
    (hstored : t.stored = s.stored) (hnow : s.now ≤ t.now)
    (hfresh : fresh m s = false → fresh m t = false) : Gone m index t := by
  rw [gone_iff] at h ⊢
  intro hdel hdone
  obtain ⟨hcache, hstore⟩ := h (hdeleted ▸ hdel) (hstored ▸ hdone)
  refine ⟨hfresh hcache, ?_⟩
  unfold isStored at hstore ⊢
  rw [hstored]
  split
  · next till hpresent =>
    simp only [hpresent, decide_eq_false_iff_not] at hstore ⊢
    omega
  · rfl

lemma fresh_tick (d : ℕ) (h : fresh m s = false) :
    fresh m { s with now := s.now + d } = false := by
  unfold fresh at h ⊢
  cases hcached : s.cachedAt with
  | none => simp
  | some t =>
    simp only [hcached, any_some, decide_eq_false_iff_not] at h ⊢
    omega

lemma gone_write_iff (h : s.stored = .pending) (ok : Bool) :
    Gone m index (next m s (.write ok)) ↔ Careful m s (.write ok) := by
  -- whether it is there behind the write
  have hthere : isStored (next m s (.write ok)) = (ok && 0 < sessionTtl m) := by
    rw [next, h]
    cases hwritten : ok && decide (0 < sessionTtl m) <;> simp_all [isStored]
  have hdone : (next m s (.write ok)).stored ≠ .pending := by
    rw [next, h]
    show (if _ then Stored.present _ else .absent) ≠ _
    split <;> simp
  have hsame : (next m s (.write ok)).deleted = s.deleted ∧
      fresh m (next m s (.write ok)) = fresh m s := by
    rw [next, h]
    exact ⟨rfl, rfl⟩
  rw [gone_iff, hthere, hsame.1, hsame.2]
  cases ok <;> simp [Careful, h, hdone]

lemma gone_next_iff (h : Gone m index s) (a : Action) :
    Gone m index (next m s a) ↔ Careful m s a := by
  cases a with
  | tick d =>
    exact iff_of_true (gone_of_later h rfl rfl (Nat.le_add_right _ _) (fresh_tick d)) trivial
  | cleanup =>
    rw [next]
    split
    · exact iff_of_true h trivial
    · exact iff_of_true (gone_of_later h rfl rfl le_rfl fun _ => rfl) trivial
  | write ok =>
    by_cases hpending : s.stored = .pending
    · exact gone_write_iff hpending ok
    · have hsame : next m s (.write ok) = s := by
        rw [next]
        split
        · next heq => exact absurd heq hpending
        · rfl
      rw [hsame]
      exact iff_of_true h fun heq => absurd heq hpending
  | lookup =>
    rw [next]
    split
    · exact iff_of_true h trivial
    · exact iff_of_true (gone_of_later h rfl rfl le_rfl id) trivial
  | get ok =>
    rw [next]
    split
    · exact iff_of_true h trivial
    · exact iff_of_true (gone_of_later h rfl rfl le_rfl id) trivial
  | insert =>
    rw [next]
    split
    · next hnone => exact iff_of_true h fun hne => absurd hnone hne
    · next hne =>
      rw [gone_iff] at h ⊢
      have hfresh : fresh m { s with answered := s.answered - 1, cachedAt := some s.now } =
          decide (0 < m.localCacheTtl) := by simp [fresh]
      rw [hfresh]
      constructor
      · intro hgone _ hdel
        by_cases hpending : s.stored = .pending
        · exact .inl hpending
        · exact .inr (by simpa using (hgone hdel hpending).1)
      · intro hcareful hdel hdone
        have hzero := (hcareful hne hdel).resolve_left hdone
        exact ⟨by simp [hzero], (h hdel hdone).2⟩
  | remove => exact iff_of_true (gone_of_later h rfl rfl le_rfl fun _ => rfl) trivial
  | delete ok =>
    rw [next]
    split
    · next hnone =>
      cases ok with
      | false => exact iff_of_true h trivial
      | true => exact iff_of_true h fun hne => absurd hnone hne
    · next hne =>
      cases ok with
      | false =>
        exact iff_of_true (gone_of_later h (Bool.or_false _) rfl le_rfl id) trivial
      | true =>
        -- behind the deletion only the cache can have it
        rw [gone_iff]
        have hstored : s.stored.delete = .pending ↔ s.stored = .pending := by
          cases s.stored <;> simp [Stored.delete]
        constructor
        · intro hgone _
          by_cases hpending : s.stored = .pending
          · exact .inl hpending
          · exact .inr (hgone (Bool.or_true _) (mt hstored.mp hpending)).1
        · intro hcareful _ hdone
          refine ⟨(hcareful hne).resolve_left (mt hstored.mpr hdone), ?_⟩
          show isStored { s with stored := s.stored.delete } = false
          cases hkey : s.stored <;> simp [isStored, Stored.delete]

/-- **When a deleted session stays deleted**: in the runs all of whose steps are careful. -/
theorem deleted_stays_iff (m : StickySessionManager) (index : Fin m.servers.length)
    (actions : List Action) :
    (∀ before, before <+: actions → Gone m index (run m before)) ↔
      ∀ before a, before ++ [a] <+: actions → Careful m (run m before) a := by
  have hstart : Gone m index created := fun hdeleted => absurd hdeleted (by decide)
  exact Transition.throughout_iff hstart (fun _ a h => gone_next_iff h a) actions

/-- A session that is written behind its deletion, and one that is put back into the cache by a
lookup that had asked before. -/
theorem deleted_found_again :
    let m := ofCookie ⟨"sid", none⟩ [{ url := "http://10.0.0.1" }]
    let outcome := fun actions => ((run m actions).deleted,
      decide ((run m actions).stored = .pending), getStickyServer m ⟨0, by decide⟩ (run m actions))
    outcome [.remove, .delete true, .write true] = (true, false, some 0) ∧
      outcome [.write true, .tick 300000000000, .lookup, .get true, .remove, .delete true,
        .insert] = (true, false, some 0) := by
  decide +kernel

end StickyDelete

end TrafficCop
