import Mathlib.Data.Set.Basic
import TrafficCop.Lib.Timed
import TrafficCop.Store.Basic

/-!
# Sessions and health states, by what a store shows

The sticky sessions and the health states of a store as two tables: what is shown for a key at every
later instant, if nobody writes meanwhile. The operations are those of the trait `Store`; where a
key comes from, and how long an entry lives, are parameters.

With pairs as keys, this is what the trait promises.
-/

namespace TrafficCop

open List Option Function

namespace Store

open Rust Timed

/-! ## Operations -/

/-- The sticky and the health operations; `cleanup` removes what has expired. -/
inductive Op where
  | stickySessionGet (service sessionId : Text)
  | stickySessionSet (service sessionId serverUrl : Text) (ttl : ℕ)
  | stickySessionDelete (service sessionId : Text)
  | healthGet (service serverUrl : Text)
  | healthSet (service serverUrl : Text) (status : HealthStatus)
  | healthGetAll (service : Text)
  | cleanup

inductive Answer where
  | unit (result : StoreResult Unit)
  | session (result : StoreResult (Option Text))
  | health (result : StoreResult (Option HealthStatus))
  | healths (result : StoreResult (Text → Option HealthStatus))

/-- How long an accepted session and a health state are kept. -/
structure Lifetimes where
  session : ℕ → Option ℕ
  health : Option ℕ

/-- A value that is shown up to an instant, or for good. -/
def shownUntil {α : Type} (ends : Option ℕ) (a : α) (t : ℕ) : Option α :=
  match ends with
  | some ends => if t < ends then some a else none
  | none => some a

/-- What is shown for each key, and at which instants. -/
structure Tables (κ : Type) where
  sticky : κ → ℕ → Option Text
  health : κ → ℕ → Option HealthStatus

def Tables.empty {κ : Type} : Tables κ := ⟨fun _ _ => none, fun _ _ => none⟩

section Machine

variable {κ : Type} [DecidableEq κ] (lifetimes : Lifetimes) (place : Text × Text → κ)
  (listed : Text × Text → Bool)

/-- The machine with the keys `place (service, x)`; only `listed` servers are sure to be in a
listing. -/
def Tables.answer (t : Tables κ) (now : ℕ) : Op → Tables κ × Answer
  | .stickySessionGet service sessionId =>
    (t, .session (.ok (t.sticky (place (service, sessionId)) now)))
  | .stickySessionSet service sessionId serverUrl ttl =>
    match lifetimes.session ttl with
    | some life =>
      ({ t with
        sticky := update t.sticky (place (service, sessionId))
          (shownUntil (some (now + life)) serverUrl) }, .unit (.ok ()))
    | none => (t, .unit (.error .connection))
  | .stickySessionDelete service sessionId =>
    ({ t with
      sticky := update t.sticky (place (service, sessionId)) fun _ => none },
      .unit (.ok ()))
  | .healthGet service serverUrl => (t, .health (.ok (t.health (place (service, serverUrl)) now)))
  | .healthSet service serverUrl status =>
    ({ t with
      health := update t.health (place (service, serverUrl))
        (shownUntil (lifetimes.health.map (now + ·)) status) }, .unit (.ok ()))
  | .healthGetAll service => (t, .healths (.ok fun serverUrl =>
      if listed (service, serverUrl) then t.health (place (service, serverUrl)) now else none))
  -- what has expired is not shown anyway
  | .cleanup => (t, .unit (.ok ()))

end Machine

/-- What the trait promises: keys are pairs, and all servers are listed. -/
def promised (lifetimes : Lifetimes) :
    Tables (Text × Text) → ℕ → Op → Tables (Text × Text) × Answer :=
  Tables.answer lifetimes id fun _ => true

/-- Both implementations put a pair into one text. -/
def joined (p : Text × Text) : Text := p.1 ++ ':' :: p.2

/-! ## Pairs with one text -/

/-- The service of `q` is that of `p`, a colon and more, and the session of `p` has the missing part
in front. -/
def Clash (p q : Text × Text) : Prop := ∃ w, q.1 = p.1 ++ ':' :: w ∧ p.2 = w ++ ':' :: q.2

variable {p q : Text × Text} {A B : Set (Text × Text)}

lemma joined_eq_of_clash (h : Clash p q) : joined p = joined q := by
  obtain ⟨w, hservice, hrest⟩ := h
  rw [joined, joined, hservice, hrest, append_assoc, cons_append]

lemma ne_of_clash (h : Clash p q) : p ≠ q := by
  rintro rfl
  obtain ⟨w, hservice, -⟩ := h
  have hlength := congrArg length hservice
  rw [length_append, length_cons] at hlength
  omega

lemma eq_or_clash {w : Text} (hservice : q.1 = p.1 ++ w) (hrest : ':' :: p.2 = w ++ ':' :: q.2) :
    p = q ∨ Clash p q := by
  cases w with
  | nil =>
    rw [append_nil] at hservice
    exact .inl (Prod.ext hservice.symm (cons.inj hrest).2)
  | cons c w =>
    obtain ⟨rfl, hmore⟩ := cons.inj hrest
    exact .inr ⟨w, hservice, hmore⟩

/-- Two pairs have the same text exactly if they are equal or clash. -/
lemma joined_eq_iff : joined p = joined q ↔ p = q ∨ Clash p q ∨ Clash q p := by
  constructor
  · intro h
    -- one of the services is the beginning of the other one
    rcases append_eq_append_iff.mp h with ⟨w, hq, hp⟩ | ⟨w, hp, hq⟩
    · exact (eq_or_clash hq hp).imp_right Or.inl
    · exact (eq_or_clash hp hq).imp Eq.symm Or.inr
  · rintro (rfl | h | h)
    · rfl
    · exact joined_eq_of_clash h
    · exact (joined_eq_of_clash h).symm

/-- No pair of the one set clashes with one of the other. -/
def Apart (A B : Set (Text × Text)) : Prop := ∀ p ∈ A, ∀ q ∈ B, ¬Clash p q ∧ ¬Clash q p

lemma apart_iff : Apart A B ↔ ∀ p ∈ A, ∀ q ∈ B, joined p = joined q → p = q := by
  refine forall₄_congr fun p _ q _ => ⟨fun h heq => ?_, fun h => ?_⟩
  · rcases joined_eq_iff.mp heq with heq | hclash | hclash
    · exact heq
    · exact absurd hclash h.1
    · exact absurd hclash h.2
  · exact ⟨fun hclash => ne_of_clash hclash (h (joined_eq_of_clash hclash)),
      fun hclash => ne_of_clash hclash (h (joined_eq_of_clash hclash).symm).symm⟩

lemma apart_of_colonFree (hA : ∀ p ∈ A, ':' ∉ p.1) (hB : ∀ q ∈ B, ':' ∉ q.1) : Apart A B := by
  refine fun p hp q hq => ⟨?_, ?_⟩
  · rintro ⟨w, hservice, -⟩
    exact hB q hq (by simp [hservice])
  · rintro ⟨w, hservice, -⟩
    exact hA p hp (by simp [hservice])

/-! ## Texts as keys -/

/-- The operation is on these sessions or servers, or lists one of these services. -/
def Op.Within (sessions backends : Set (Text × Text)) (services : Set Text) : Op → Prop
  | .stickySessionGet service sessionId | .stickySessionSet service sessionId _ _
  | .stickySessionDelete service sessionId => (service, sessionId) ∈ sessions
  | .healthGet service serverUrl | .healthSet service serverUrl _ => (service, serverUrl) ∈ backends
  | .healthGetAll service => service ∈ services
  | .cleanup => True

section Isolation

variable {σ : Type} (sessions backends : Set (Text × Text)) (services : Set Text)

/-- A machine answers all operations on these as the trait promises. -/
def Isolated (lifetimes : Lifetimes) (answer : σ → ℕ → Op → σ × Answer) (s : σ) : Prop :=
  ∀ inputs, InOrder inputs → (∀ x ∈ inputs, x.2.Within sessions backends services) →
    (operate answer s inputs).log = (operate (promised lifetimes) .empty inputs).log

/-- The servers whose health states can be read. -/
def readable (listed : Text × Text → Bool) : Set (Text × Text) :=
  backends ∪ {q | q.1 ∈ services ∧ listed q = true}

variable {sessions backends services} {κ : Type} [DecidableEq κ] {lifetimes : Lifetimes}
  {place : Text × Text → κ} {listed : Text × Text → Bool} {op : Op} {now : ℕ}

variable (sessions backends services place listed) in
/-- The tables agree where they can be read, and nothing is where nothing is written. -/
structure Mirrors (t : Tables κ) (u : Tables (Text × Text)) : Prop where
  sticky : ∀ q ∈ sessions, t.sticky (place q) = u.sticky q
  health : ∀ q ∈ readable backends services listed, t.health (place q) = u.health q
  other : ∀ q, q ∉ backends → u.health q = fun _ => none

/-- The pairs that are written have keys of their own. -/
structure Separate (sessions backends : Set (Text × Text)) (services : Set Text)
    (place : Text × Text → κ) (listed : Text × Text → Bool) : Prop where
  sticky : ∀ p ∈ sessions, ∀ q ∈ sessions, place p = place q → p = q
  health : ∀ p ∈ backends, ∀ q ∈ readable backends services listed, place p = place q → p = q
  listed : ∀ p ∈ backends, p.1 ∈ services → listed p = true

variable {t : Tables κ} {u : Tables (Text × Text)}

/-- Where no other pair has the key, a write shows exactly if it is to this pair. -/
lemma update_place {β : Type} {table : κ → β} {pairs : Text × Text → β} (f : β)
    (hown : place p = place q → p = q) (h : table (place q) = pairs q) :
    update table (place p) f (place q) = update pairs p f q := by
  rw [update_apply, update_apply]
  by_cases hpq : q = p
  · rw [if_pos (congrArg place hpq), if_pos hpq]
  · rw [if_neg fun heq => hpq (hown heq.symm).symm, if_neg hpq, h]

lemma Mirrors.answer (h : Mirrors sessions backends services place listed t u)
    (hsep : Separate sessions backends services place listed)
    (hop : op.Within sessions backends services) :
    (t.answer lifetimes place listed now op).2 = (promised lifetimes u now op).2 ∧
      Mirrors sessions backends services place listed (t.answer lifetimes place listed now op).1
        (promised lifetimes u now op).1 := by
  match op with
  | .stickySessionGet service sessionId =>
    exact ⟨congrArg (fun a => Answer.session (.ok a)) (congrFun (h.sticky _ hop) now), h⟩
  | .stickySessionSet service sessionId serverUrl ttl =>
    rw [promised, Tables.answer, Tables.answer]
    cases lifetimes.session ttl with
    | none => exact ⟨rfl, h⟩
    | some life =>
      exact ⟨rfl, fun q hq => update_place _ (hsep.sticky _ hop q hq) (h.sticky q hq), h.health,
        h.other⟩
  | .stickySessionDelete service sessionId =>
    exact ⟨rfl, fun q hq => update_place _ (hsep.sticky _ hop q hq) (h.sticky q hq), h.health,
      h.other⟩
  | .healthGet service serverUrl =>
    exact ⟨congrArg (fun a => Answer.health (.ok a)) (congrFun (h.health _ (.inl hop)) now), h⟩
  | .healthSet service serverUrl status =>
    refine ⟨rfl, h.sticky, fun q hq => update_place _ (hsep.health _ hop q hq) (h.health q hq),
      fun q hq => ?_⟩
    have hne : q ≠ (service, serverUrl) := fun heq => hq (heq ▸ hop)
    exact (update_of_ne hne _ _).trans (h.other q hq)
  | .healthGetAll service =>
    refine ⟨congrArg (fun f => Answer.healths (.ok f)) (funext fun serverUrl => ?_), h⟩
    dsimp only [id]
    split
    · next hlisted => rw [h.health (service, serverUrl) (.inr ⟨hop, hlisted⟩), if_pos rfl]
    · next hlisted =>
      -- a server that is left out has never been written
      have hother : (service, serverUrl) ∉ backends :=
        fun hmem => hlisted (hsep.listed _ hmem hop)
      exact (congrFun (h.other _ hother) now).symm
  | .cleanup => exact ⟨rfl, h⟩

lemma isolated_of_separate (hsep : Separate sessions backends services place listed) :
    Isolated sessions backends services lifetimes
      (Tables.answer lifetimes place listed) (Tables.empty : Tables κ) := by
  intro inputs horder hwithin
  refine (log_eq (P := fun x => x.2.Within sessions backends services)
    (R := fun _ t u => Mirrors sessions backends services place listed t u)
    ⟨fun _ _ => rfl, fun _ _ => rfl, fun _ _ => rfl⟩ ?_ horder hwithin).1
  intro _ t u now op h _ hop
  exact h.answer hsep hop

def Lifetimes.Positive (lifetimes : Lifetimes) : Prop :=
  (∃ ttl life, lifetimes.session ttl = some life ∧ 0 < life) ∧
    ∀ life, lifetimes.health = some life → 0 < life

lemma shownUntil_health (hlifetimes : lifetimes.Positive) (status : HealthStatus) :
    shownUntil lifetimes.health status 0 = some status := by
  cases hhealth : lifetimes.health with
  | none => rfl
  | some life => simp [shownUntil, hlifetimes.2 life hhealth]

lemma Isolated.second_answer {answer : σ → ℕ → Op → σ × Answer} {s : σ}
    (h : Isolated sessions backends services lifetimes answer s) (first second : Op)
    (hfirst : first.Within sessions backends services)
    (hsecond : second.Within sessions backends services) :
    (answer (answer s 0 first).1 0 second).2 =
      (promised lifetimes (promised lifetimes .empty 0 first).1 0 second).2 := by
  have hlog := h [(0, first), (0, second)] (by simp [InOrder]) (by simp [hfirst, hsecond])
  simp only [operate, tick, start, foldl_cons, foldl_nil, nil_append,
    cons_append, cons.injEq, Event.mk.injEq] at hlog
  exact hlog.2.1.2.2

variable (h : Isolated sessions backends services lifetimes
  (Tables.answer lifetimes place listed) (Tables.empty : Tables κ))

include h

lemma Isolated.sticky_place (hlifetimes : lifetimes.Positive) :
    ∀ p ∈ sessions, ∀ q ∈ sessions, place p = place q → p = q := by
  obtain ⟨ttl, life, hlife, hpos⟩ := hlifetimes.1
  intro p hp q hq hplace
  have hanswer := h.second_answer (.stickySessionSet p.1 p.2 [] ttl)
    (.stickySessionGet q.1 q.2) hp hq
  by_contra hne
  -- the tables of the trait have nothing for `q` yet, the machine has what was set for `p`
  simp [promised, Tables.answer, hlife, hplace, shownUntil, hpos, Tables.empty,
    update_of_ne (Ne.symm hne)] at hanswer

lemma Isolated.health_place (hlifetimes : lifetimes.Positive) :
    ∀ p ∈ backends, ∀ q ∈ readable backends services listed, place p = place q → p = q := by
  intro p hp q hq hplace
  by_contra hne
  have hshown := shownUntil_health hlifetimes ({} : HealthStatus)
  -- `q` is read by itself, or in a listing of its service
  rcases hq with hq | ⟨hservice, hlisted⟩
  · have hanswer := h.second_answer (.healthSet p.1 p.2 {}) (.healthGet q.1 q.2) hp hq
    simp [promised, Tables.answer, hplace, Tables.empty, hshown,
      update_of_ne (Ne.symm hne)] at hanswer
  · have hanswer := h.second_answer (.healthSet p.1 p.2 {}) (.healthGetAll q.1) hp hservice
    simp only [promised, Tables.answer, Answer.healths.injEq, Except.ok.injEq] at hanswer
    have hanswer := congrFun hanswer q.2
    simp [hlisted, hplace, hshown, Tables.empty, update_of_ne (Ne.symm hne)] at hanswer

lemma Isolated.complete (hlifetimes : lifetimes.Positive) :
    ∀ p ∈ backends, p.1 ∈ services → listed p := by
  intro p hp hservice
  have hshown := shownUntil_health hlifetimes ({} : HealthStatus)
  have hanswer := h.second_answer (.healthSet p.1 p.2 {}) (.healthGetAll p.1) hp hservice
  simp only [promised, Tables.answer, Answer.healths.injEq, Except.ok.injEq] at hanswer
  have hanswer := congrFun hanswer p.2
  by_contra hlisted
  simp [hlisted, hshown] at hanswer

omit h

/-- **Keys of one's own are what isolation takes.** -/
theorem isolated_iff (hlifetimes : lifetimes.Positive) :
    Isolated sessions backends services lifetimes
      (Tables.answer lifetimes place listed) (Tables.empty : Tables κ) ↔
      Separate sessions backends services place listed :=
  ⟨fun h => ⟨h.sticky_place hlifetimes, h.health_place hlifetimes, h.complete hlifetimes⟩,
    isolated_of_separate⟩

lemma separate_joined_iff : Separate sessions backends services joined listed ↔
    Apart sessions sessions ∧ Apart backends (readable backends services listed) ∧
      ∀ p ∈ backends, p.1 ∈ services → listed p := by
  rw [apart_iff, apart_iff]
  exact ⟨fun h => ⟨h.sticky, h.health, h.listed⟩, fun h => ⟨h.1, h.2.1, h.2.2⟩⟩

end Isolation

/-! ## Machines that keep tables -/

section Implementations

variable {κ : Type} [DecidableEq κ] {lifetimes : Lifetimes} {place : Text × Text → κ}
  {listed : Text × Text → Bool}

/-- What is shown of the sessions and of the health states from `now` on is in the tables. -/
structure Tables.Shown {β : Type} (look : (ℕ → Option HealthStatus) → ℕ → β) (now : ℕ)
    (sticky : κ → ℕ → Option Text) (health : κ → ℕ → β) (t : Tables κ) : Prop where
  sticky : Shows (fun shown => shown) now sticky t.sticky
  health : Shows look now health t.health

/-- A machine that answers like tables with texts as keys is isolated exactly if those are. -/
lemma isolated_iff_of_shown {σ β : Type} {look : (ℕ → Option HealthStatus) → ℕ → β}
    {sticky : σ → κ → ℕ → Option Text} {health : σ → κ → ℕ → β} {answer : σ → ℕ → Op → σ × Answer}
    {s : σ} {sessions backends : Set (Text × Text)} {services : Set Text}
    (hstep : ∀ s (t : Tables κ) now op, t.Shown look now (sticky s) (health s) →
      (answer s now op).2 = (t.answer lifetimes place listed now op).2 ∧
      (t.answer lifetimes place listed now op).1.Shown look now (sticky (answer s now op).1)
        (health (answer s now op).1))
    (hstart : Tables.empty.Shown look 0 (sticky s) (health s)) (hlifetimes : lifetimes.Positive) :
    Isolated sessions backends services lifetimes answer s ↔
      Separate sessions backends services place listed := by
  rw [← isolated_iff hlifetimes]
  refine forall_congr' fun inputs => forall_congr' fun horder => forall_congr' fun _ => ?_
  -- the logs are the same, so both keep the promise or neither does
  rw [(log_eq (P := fun _ => True)
    (R := fun now s (t : Tables κ) => t.Shown look now (sticky s) (health s)) hstart
    (fun _ s t now op h hle _ => hstep s t now op ⟨h.sticky.mono hle, h.health.mono hle⟩) horder
    fun _ _ => trivial).1]

end Implementations

end Store

end TrafficCop
