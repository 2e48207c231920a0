import TrafficCop.Lib.Timed

/-!
# Leases

A table of leases: per task at most one holder, with the instant at which its lease ends.

* `exclusive` — a lease that is not released keeps everyone else out until it ends.
* `available` — once the latest lease has ended, whoever asks first gets one.

Both are about the log alone, so they carry over to every machine with the same log.
-/

namespace Lease

open Timed Function

variable {κ ν : Type} [DecidableEq κ] [DecidableEq ν]

/-- Nodes acquire (or renew) and release leases and ask for the holder. -/
inductive Op (κ ν : Type) where
  | acquire (task : κ) (node : ν) (ttl : ℕ)
  | release (task : κ) (node : ν)
  | get (task : κ)
  deriving Repr, DecidableEq

/-- `failed` is for machines that cannot answer; the table itself always can. -/
inductive Answer (ν : Type) where
  | granted (yes : Bool)
  | released
  | holder (node : Option ν)
  | failed
  deriving Repr, DecidableEq

/-- The holder of the lease on a task and the end of the lease. -/
abbrev Table (κ ν : Type) := κ → Option (ν × ℕ)

/-- The node whose lease has not ended. -/
def holder (lease : Option (ν × ℕ)) (now : ℕ) : Option ν :=
  match lease with
  | some (node, ends) => if now < ends then some node else none
  | none => none

/-- The table as a machine in the sense of `Timed`. -/
def answer (table : Table κ ν) (now : ℕ) : Op κ ν → Table κ ν × Answer ν
  | .acquire task node ttl =>
    if holder (table task) now = none ∨ holder (table task) now = some node then
      (update table task (some (node, now + ttl)), .granted true)
    else (table, .granted false)
  | .release task node =>
    if holder (table task) now = some node then (update table task none, .released)
    else (table, .released)
  | .get task => (table, .holder (holder (table task) now))

omit [DecidableEq ν] in
lemma holder_eq_some_iff {lease : Option (ν × ℕ)} {now : ℕ} {node : ν} :
    holder lease now = some node ↔ ∃ ends, lease = some (node, ends) ∧ now < ends := by
  match lease with
  | none => simp [holder]
  | some (other, ends) =>
    rw [holder]
    split
    · next h => simp [h]
    · next h => simp; omega

/-! ## What the log says about the table -/

/-- The event grants a lease on the task to the node, until `ends`. -/
def Grants (task : κ) (node : ν) (ends : ℕ) (e : Event (Op κ ν) (Answer ν)) : Prop :=
  ∃ ttl, e.input = .acquire task node ttl ∧ ends = e.now + ttl ∧ e.answer = .granted true

/-- No event gives the node another lease on the task or takes its lease back. -/
def Kept (task : κ) (node : ν) (events : List (Event (Op κ ν) (Answer ν))) : Prop :=
  ∀ e ∈ events, (¬∃ ends, Grants task node ends e) ∧ e.input ≠ .release task node

/-- Nobody is given a lease on the task. -/
def NoneGranted (task : κ) (events : List (Event (Op κ ν) (Answer ν))) : Prop :=
  ∀ e ∈ events, ¬∃ node ends, Grants task node ends e

def event (table : Table κ ν) (now : ℕ) (op : Op κ ν) : Event (Op κ ν) (Answer ν) :=
  ⟨now, op, (answer table now op).2⟩

variable {table : Table κ ν} {task : κ} {node : ν} {now ends : ℕ} {op : Op κ ν}

lemma answer_of_grants {e : Event (Op κ ν) (Answer ν)} (he : Grants task node ends e)
    (hanswer : e.answer = (answer table e.now e.input).2) :
    (answer table e.now e.input).1 task = some (node, ends) := by
  obtain ⟨ttl, hinput, rfl, hgranted⟩ := he
  rw [hgranted, hinput, answer] at hanswer
  rw [hinput, answer]
  split at hanswer
  · next hfree =>
    rw [if_pos hfree]
    exact update_self _ _ _
  · simp at hanswer

/-- While a lease runs, only its holder can change it. -/
lemma answer_of_held (hheld : holder (table task) now = some node)
    (hgrant : ¬∃ ends, Grants task node ends (event table now op))
    (hrelease : op ≠ .release task node) : (answer table now op).1 task = table task := by
  match op with
  | .get _ => rfl
  | .acquire task' node' ttl =>
    rw [answer]
    split
    · next hfree =>
      by_cases htask : task = task'
      · -- the task is taken, so this can only be the holder renewing
        subst htask
        rw [hheld] at hfree
        obtain rfl : node = node' := by simpa using hfree
        exact absurd ⟨now + ttl, ttl, rfl, rfl, by simp [event, answer, hheld]⟩ hgrant
      · exact update_of_ne htask _ _
    · rfl
  | .release task' node' =>
    rw [answer]
    split
    · next hown =>
      have htask : task ≠ task' := by
        rintro rfl
        rw [hheld] at hown
        obtain rfl := Option.some.inj hown
        exact hrelease rfl
      exact update_of_ne htask _ _
    · rfl

lemma answer_of_not_granted (hgrant : ¬∃ node ends, Grants task node ends (event table now op)) :
    (answer table now op).1 task = table task ∨ (answer table now op).1 task = none := by
  match op with
  | .get _ => exact .inl rfl
  | .acquire task' node' ttl =>
    rw [answer]
    split
    · next hfree =>
      have htask : task ≠ task' := by
        rintro rfl
        exact hgrant ⟨node', now + ttl, ttl, rfl, rfl, by simp [event, answer, hfree]⟩
      exact .inl (update_of_ne htask _ _)
    · exact .inl rfl
  | .release task' node' =>
    rw [answer]
    split
    · by_cases htask : task = task'
      · rw [htask]
        exact .inr (update_self _ _ _)
      · exact .inl (update_of_ne htask _ _)
    · exact .inl rfl

/-! ## Whole runs -/

section Runs

variable {initial : Table κ ν} {inputs : List (ℕ × Op κ ν)}
  {earlier mid later : List (Event (Op κ ν) (Answer ν))} {e x : Event (Op κ ν) (Answer ν)}

/-- A lease neither renewed nor released is in the table, or has ended. -/
lemma lease_of_kept (horder : InOrder inputs)
    (hlog : (operate answer initial inputs).log = earlier ++ e :: mid)
    (he : Grants task node ends e) (hkept : Kept task node mid) :
    (operate answer initial inputs).state task = some (node, ends) ∨
      ends ≤ (operate answer initial inputs).now := by
  refine since_event (I := fun c : Clocked (Table κ ν) _ _ =>
      c.state task = some (node, ends) ∨ ends ≤ c.now) horder hlog ?event ?step
  case event => exact fun c hanswer => .inl (answer_of_grants he hanswer)
  case step =>
    rintro c x (hlease | hended) hnow hmem
    · rcases Nat.lt_or_ge x.1 ends with hlt | hge
      · -- still running: only the holder could change it, and `Kept` says that it does not
        have hheld : holder (c.state task) x.1 = some node :=
          holder_eq_some_iff.mpr ⟨ends, hlease, hlt⟩
        obtain ⟨hgrant, hrelease⟩ := hkept _ hmem
        exact .inl ((answer_of_held hheld hgrant hrelease).trans hlease)
      · exact .inr hge
    · exact .inr (Nat.le_trans hended hnow)

/-- Unless another is granted after it, a lease is the last one on its task. -/
lemma lease_of_noneGranted (horder : InOrder inputs)
    (hlog : (operate answer initial inputs).log = earlier ++ e :: mid)
    (he : Grants task node ends e) (hnone : NoneGranted task mid) :
    (operate answer initial inputs).state task = some (node, ends) ∨
      (operate answer initial inputs).state task = none := by
  refine since_event (I := fun c : Clocked (Table κ ν) _ _ =>
      c.state task = some (node, ends) ∨ c.state task = none) horder hlog ?event ?step
  case event => exact fun c hanswer => .inl (answer_of_grants he hanswer)
  case step =>
    intro c x hlease _ hmem
    rcases answer_of_not_granted (hnone _ hmem) with hsame | hgone
    · exact hlease.imp hsame.trans hsame.trans
    · exact .inr hgone

/-- **A lease excludes.** Until the end of a lease that is neither renewed nor released, no other
node is granted one. -/
theorem exclusive (horder : InOrder inputs)
    (hlog : (operate answer initial inputs).log = earlier ++ e :: (mid ++ x :: later))
    (he : Grants task node ends e) (hkept : Kept task node mid) {other : ν} {ttl : ℕ}
    (hother : other ≠ node) (hx : x.input = .acquire task other ttl) (hnow : x.now < ends) :
    x.answer = .granted false := by
  obtain ⟨before, horder', hlog', hclock, hanswer⟩ := exists_between horder hlog
  have hlease := (lease_of_kept horder' hlog' he hkept).resolve_right (by omega)
  have hheld : holder ((operate answer initial before).state task) x.now = some node :=
    holder_eq_some_iff.mpr ⟨ends, hlease, hnow⟩
  rw [hanswer, hx, answer, hheld]
  simp [Ne.symm hother]

/-- **A lease ends.** When the latest lease has run out, the next request is granted. -/
theorem available (horder : InOrder inputs)
    (hlog : (operate answer initial inputs).log = earlier ++ e :: (mid ++ x :: later))
    (he : Grants task node ends e) (hnone : NoneGranted task mid) {other : ν} {ttl : ℕ}
    (hx : x.input = .acquire task other ttl) (hnow : ends ≤ x.now) :
    x.answer = .granted true := by
  obtain ⟨before, horder', hlog', -, hanswer⟩ := exists_between horder hlog
  have hfree : holder ((operate answer initial before).state task) x.now = none := by
    rcases lease_of_noneGranted horder' hlog' he hnone with hlease | hgone
    · rw [hlease, holder]
      exact if_neg (by omega)
    · rw [hgone]
      rfl
  rw [hanswer, hx, answer, hfree]
  simp

end Runs

/-! ## Machines that keep leases -/

section Implementations

variable {σ : Type}

/-- The machine `step`, of which `shown` are the holders it shows, deals with a request as a table
does that shows the same. -/
def Implements (step : σ → ℕ → Op κ ν → σ × Answer ν) (shown : σ → κ → ℕ → Option ν)
    (ok : Op κ ν → Prop) : Prop :=
  ∀ s table now op, Shows holder now (shown s) table → ok op →
    (step s now op).2 = (answer table now op).2 ∧
      Shows holder now (shown (step s now op).1) (answer table now op).1

/-- A machine that deals with single requests as the table does has the same log; it may keep leases
that have ended. -/
lemma Implements.log_eq {step : σ → ℕ → Op κ ν → σ × Answer ν} {shown : σ → κ → ℕ → Option ν}
    {ok : Op κ ν → Prop} (h : Implements step shown ok) {s : σ} {t : Table κ ν}
    {inputs : List (ℕ × Op κ ν)} (hstart : Shows holder 0 (shown s) t) (horder : InOrder inputs)
    (hok : ∀ x ∈ inputs, ok x.2) :
    (operate step s inputs).log = (operate answer t inputs).log :=
  (Timed.log_eq (R := fun now s table => Shows holder now (shown s) table) hstart
    (fun _ s table now op hs hle hop => h s table now op (hs.mono hle) hop) horder hok).1

end Implementations

end Lease
