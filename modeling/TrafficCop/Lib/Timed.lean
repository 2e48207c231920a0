import Mathlib.Data.List.Induction
import Mathlib.Logic.Function.Basic

/-!
# Machines with a clock

A machine answers every input at an instant: `answer : σ → ℕ → ι → σ × ω` gives the next state and
the answer.
-/

namespace Timed

open List

variable {σ τ ι ω : Type*}

/-- What was asked, when, and the answer. -/
structure Event (ι ω : Type*) where
  now : ℕ
  input : ι
  answer : ω
  deriving Repr, DecidableEq

/-- A machine in operation. -/
structure Clocked (σ ι ω : Type*) where
  now : ℕ
  state : σ
  log : List (Event ι ω)

def start (s : σ) : Clocked σ ι ω := ⟨0, s, []⟩

def tick (answer : σ → ℕ → ι → σ × ω) (c : Clocked σ ι ω) (x : ℕ × ι) : Clocked σ ι ω :=
  ⟨x.1, (answer c.state x.1 x.2).1, c.log ++ [⟨x.1, x.2, (answer c.state x.1 x.2).2⟩]⟩

/-- Feeds inputs with their instants, and keeps the last instant and a log of what was asked and
answered. -/
def operate (answer : σ → ℕ → ι → σ × ω) (s : σ) (inputs : List (ℕ × ι)) : Clocked σ ι ω :=
  inputs.foldl (tick answer) (start s)

/-- The instants do not go back. -/
def InOrder (inputs : List (ℕ × ι)) : Prop := inputs.Pairwise fun x y => x.1 ≤ y.1

instance (inputs : List (ℕ × ι)) : Decidable (InOrder inputs) :=
  inferInstanceAs (Decidable (inputs.Pairwise _))

/-- Every input meets the condition in the state in which it comes. -/
def Throughout (answer : σ → ℕ → ι → σ × ω) (s : σ) (allowed : Clocked σ ι ω → ℕ × ι → Prop)
    (inputs : List (ℕ × ι)) : Prop :=
  ∀ before x, before ++ [x] <+: inputs → allowed (operate answer s before) x

variable {answer : σ → ℕ → ι → σ × ω} {s : σ} {allowed : Clocked σ ι ω → ℕ × ι → Prop}
  {inputs before : List (ℕ × ι)} {x : ℕ × ι}

@[simp] lemma operate_nil : operate answer s [] = start s := rfl

lemma operate_concat :
    operate answer s (inputs ++ [x]) = tick answer (operate answer s inputs) x := by
  rw [operate, foldl_append]
  rfl

lemma InOrder.of_before (h : InOrder inputs) (hbefore : before <+: inputs) : InOrder before :=
  List.Pairwise.sublist hbefore.sublist h

lemma Throughout.of_before (h : Throughout answer s allowed inputs)
    (hbefore : before <+: inputs) : Throughout answer s allowed before :=
  fun _ _ hpre => h _ _ (hpre.trans hbefore)

lemma throughout_nil : Throughout answer s allowed [] := by
  intro before x h
  simp at h

lemma throughout_concat : Throughout answer s allowed (inputs ++ [x]) ↔
    Throughout answer s allowed inputs ∧ allowed (operate answer s inputs) x := by
  refine ⟨fun h => ⟨h.of_before (prefix_append _ _), h _ _ (prefix_refl _)⟩, ?_⟩
  rintro ⟨h, hx⟩ before y hbefore
  rcases prefix_concat_iff.mp hbefore with heq | hbefore
  · obtain ⟨rfl, hlast⟩ := append_inj' heq rfl
    obtain rfl := (cons.inj hlast).1
    exact hx
  · exact h before y hbefore

/-- The next input comes no earlier than the last one. -/
lemma InOrder.now_le (h : InOrder (inputs ++ [x])) : (operate answer s inputs).now ≤ x.1 := by
  cases inputs using reverseRecOn with
  | nil => exact Nat.zero_le _
  | append_singleton inputs y =>
    rw [operate_concat]
    exact (pairwise_append.mp h).2.2 y (by simp) x (by simp)

variable {I : Clocked σ ι ω → Prop} {mid : List (Event ι ω)} {R : ℕ → σ → τ → Prop}

/-- The invariant rule, for inputs in the order of time. -/
lemma operate_induction (hstart : I (start s))
    (hstep : ∀ c x, I c → c.now ≤ x.1 → allowed c x → I (tick answer c x))
    (horder : InOrder inputs) (hall : Throughout answer s allowed inputs) :
    I (operate answer s inputs) := by
  induction inputs using reverseRecOn with
  | nil => exact hstart
  | append_singleton inputs x ih =>
    -- the input at the end is the newest one, and what came before it is a run of its own
    have hbefore : inputs <+: inputs ++ [x] := prefix_append inputs [x]
    rw [operate_concat]
    exact hstep _ _ (ih (horder.of_before hbefore) (hall.of_before hbefore)) horder.now_le
      (hall _ _ (prefix_refl _))

variable {earlier : List (Event ι ω)} {e : Event ι ω} {answer' : τ → ℕ → ι → τ × ω} {u : τ}

/-- The state in which an event was answered. -/
lemma exists_before {later : List (Event ι ω)}
    (hlog : (operate answer s inputs).log = earlier ++ e :: later) :
    ∃ before, before ++ [(e.now, e.input)] <+: inputs ∧
      (operate answer s before).log = earlier ∧
      e.answer = (answer (operate answer s before).state e.now e.input).2 := by
  induction inputs using reverseRecOn generalizing later with
  | nil => simp [start] at hlog
  | append_singleton inputs x ih =>
    rw [operate_concat, tick] at hlog
    -- the event is the newest one, or it was in the log already
    cases later using reverseRecOn with
    | nil =>
      obtain ⟨hearlier, hlast⟩ := append_inj' hlog rfl
      obtain rfl := (cons.inj hlast).1
      exact ⟨inputs, prefix_refl _, hearlier, rfl⟩
    | append_singleton later last =>
      rw [← cons_append, ← append_assoc] at hlog
      obtain ⟨before, hbefore, hrest⟩ := ih (append_inj' hlog rfl).1
      exact ⟨before, hbefore.trans (prefix_append inputs [x]), hrest⟩

/-- Of two events, the second was answered after a run that ends with what came between them. -/
lemma exists_between {later : List (Event ι ω)} {x : Event ι ω} (horder : InOrder inputs)
    (hlog : (operate answer s inputs).log = earlier ++ e :: (mid ++ x :: later)) :
    ∃ before, InOrder before ∧ (operate answer s before).log = earlier ++ e :: mid ∧
      (operate answer s before).now ≤ x.now ∧
      x.answer = (answer (operate answer s before).state x.now x.input).2 := by
  rw [← cons_append, ← append_assoc] at hlog
  obtain ⟨before, hbefore, hlog', hanswer⟩ := exists_before hlog
  have horder' := horder.of_before hbefore
  exact ⟨before, horder'.of_before (prefix_append _ _), hlog', horder'.now_le, hanswer⟩

/-- What an event brings about and every later event keeps holds at the end. -/
lemma since_event
    (horder : InOrder inputs) (hlog : (operate answer s inputs).log = earlier ++ e :: mid)
    (hevent : ∀ c : Clocked σ ι ω, e.answer = (answer c.state e.now e.input).2 →
      I (tick answer c (e.now, e.input)))
    (hstep : ∀ (c : Clocked σ ι ω) (x : ℕ × ι), I c → c.now ≤ x.1 →
      ⟨x.1, x.2, (answer c.state x.1 x.2).2⟩ ∈ mid → I (tick answer c x)) :
    I (operate answer s inputs) := by
  induction inputs using reverseRecOn generalizing mid with
  | nil => simp [start] at hlog
  | append_singleton inputs x ih =>
    rw [operate_concat, tick] at hlog
    rw [operate_concat]
    -- with nothing behind it the event is the newest one; otherwise the run goes on after it
    cases mid using reverseRecOn with
    | nil =>
      obtain ⟨-, hlast⟩ := append_inj' hlog rfl
      obtain rfl := (cons.inj hlast).1
      exact hevent _ rfl
    | append_singleton mid last =>
      rw [← cons_append, ← append_assoc] at hlog
      obtain ⟨hearlier, hlast⟩ := append_inj' hlog rfl
      obtain rfl := (cons.inj hlast).1
      have hbefore : I (operate answer s inputs) :=
        ih (horder.of_before (prefix_append _ _)) hearlier
          fun c y hc hnow hmem => hstep c y hc hnow (mem_append_left _ hmem)
      exact hstep _ x hbefore horder.now_le (by simp)

/-- From `now` on, what is `shown` for a key is its entry in the table, as `look` shows it. -/
def Shows {κ α β : Type*} (look : α → ℕ → β) (now : ℕ) (shown : κ → ℕ → β) (table : κ → α) : Prop :=
  ∀ k later, now ≤ later → shown k later = look (table k) later

namespace Shows

variable {κ α β : Type*} {look : α → ℕ → β} {now later : ℕ} {shown shown' : κ → ℕ → β}
  {table : κ → α} {k : κ} {a : α}

lemma mono (h : Shows look now shown table) (hle : now ≤ later) : Shows look later shown table :=
  fun k latest hlatest => h k latest (Nat.le_trans hle hlatest)

lemma update [DecidableEq κ] (h : Shows look now shown table)
    (hshown : ∀ k' t, shown' k' t = if k' = k then look a t else shown k' t) :
    Shows look now shown' (Function.update table k a) := by
  intro k' t ht
  rw [hshown, Function.update_apply]
  split
  · rfl
  · exact h k' t ht

end Shows

/-- **Simulation.** `R t s u` says that `s` and `u` look alike from the instant `t` on. -/
theorem log_eq {P : ℕ × ι → Prop} (hstart : R 0 s u)
    (hstep : ∀ t s u now i, R t s u → t ≤ now → P (now, i) →
      (answer s now i).2 = (answer' u now i).2 ∧ R now (answer s now i).1 (answer' u now i).1)
    (horder : InOrder inputs) (hok : ∀ x ∈ inputs, P x) :
    (operate answer s inputs).log = (operate answer' u inputs).log ∧
      R (operate answer s inputs).now (operate answer s inputs).state
        (operate answer' u inputs).state := by
  induction inputs using reverseRecOn with
  | nil => exact ⟨rfl, hstart⟩
  | append_singleton inputs x ih =>
    obtain ⟨hlog, hrel⟩ := ih (horder.of_before (prefix_append _ _))
      fun y hy => hok y (mem_append_left _ hy)
    obtain ⟨hanswer, hnext⟩ := hstep _ _ _ x.1 x.2 hrel horder.now_le (hok x (by simp))
    rw [operate_concat, operate_concat]
    exact ⟨by rw [tick, tick, hlog, hanswer], hnext⟩

/-- **Agreement.** Two machines have the same log exactly if every input meets a condition that,
from related states, is the one for equal answers, and keeps them related. -/
theorem log_eq_iff {R : List (ℕ × ι) → σ → τ → Prop}
    {D : List (ℕ × ι) → σ → τ → ℕ × ι → Prop} (hstart : R [] s u)
    (hanswer : ∀ before s u x, R before s u → InOrder (before ++ [x]) →
      ((answer s x.1 x.2).2 = (answer' u x.1 x.2).2 ↔ D before s u x))
    (hnext : ∀ before s u x, R before s u → InOrder (before ++ [x]) → D before s u x →
      R (before ++ [x]) (answer s x.1 x.2).1 (answer' u x.1 x.2).1)
    (horder : InOrder inputs) :
    (operate answer s inputs).log = (operate answer' u inputs).log ↔
      ∀ before x, before ++ [x] <+: inputs →
        D before (operate answer s before).state (operate answer' u before).state x := by
  -- with the condition met so far, the states are related
  suffices h : ((operate answer s inputs).log = (operate answer' u inputs).log ↔
      ∀ before x, before ++ [x] <+: inputs →
        D before (operate answer s before).state (operate answer' u before).state x) ∧
      ((operate answer s inputs).log = (operate answer' u inputs).log →
        R inputs (operate answer s inputs).state (operate answer' u inputs).state) from h.1
  induction inputs using reverseRecOn with
  | nil =>
    refine ⟨iff_of_true rfl fun before x h => ?_, fun _ => hstart⟩
    simp at h
  | append_singleton inputs x ih =>
    obtain ⟨hiff, hrel⟩ := ih (horder.of_before (prefix_append _ _))
    have hlog : (operate answer s (inputs ++ [x])).log = (operate answer' u (inputs ++ [x])).log ↔
        (operate answer s inputs).log = (operate answer' u inputs).log ∧
          D inputs (operate answer s inputs).state (operate answer' u inputs).state x := by
      rw [operate_concat, operate_concat, tick, tick]
      dsimp only
      constructor
      · intro h
        obtain ⟨hbefore, hlast⟩ := append_inj' h rfl
        have hevent := (cons.inj hlast).1
        exact ⟨hbefore, (hanswer _ _ _ _ (hrel hbefore) horder).mp (congrArg Event.answer hevent)⟩
      · rintro ⟨hbefore, hD⟩
        rw [hbefore, (hanswer _ _ _ _ (hrel hbefore) horder).mpr hD]
    refine ⟨?_, fun h => ?_⟩
    · rw [hlog, hiff]
      constructor
      · rintro ⟨hall, hD⟩ before y hprefix
        rcases prefix_concat_iff.mp hprefix with heq | hbefore
        · obtain ⟨rfl, hlast⟩ := append_inj' heq rfl
          obtain rfl := (cons.inj hlast).1
          exact hD
        · exact hall before y hbefore
      · intro hall
        exact ⟨fun before y hy => hall before y (hy.trans (prefix_append _ _)),
          hall inputs x (prefix_refl _)⟩
    · obtain ⟨hbefore, hD⟩ := hlog.mp h
      rw [operate_concat, operate_concat]
      exact hnext _ _ _ _ (hrel hbefore) horder hD

end Timed
