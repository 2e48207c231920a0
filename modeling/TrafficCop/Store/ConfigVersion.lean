import TrafficCop.Lib.Transition
import TrafficCop.Store.Basic

/-!
# The version and the content of the stored configuration

`config_set`, `config_get` and `config_version` of both stores. A `config_set` takes a new version,
writes the content and notifies, in three steps that other calls can come between (`INCR`, `SET` and
`PUBLISH`; `fetch_add`, a write under the lock, and `send`), so there is one model for both.
Versions need not be given out in the order in which contents are written.
-/

namespace TrafficCop

open List Option Function

namespace ConfigStore

open Rust Transition

/-- Where a `config_set` is, with the version that it got. -/
inductive Phase where
  | idle
  | versioned (version : ℕ)
  | written (version : ℕ)
  | returned (version : ℕ)
  deriving Repr, DecidableEq

/-- The version of the call, once it has one. -/
def Phase.version? : Phase → Option ℕ
  | .idle => none
  | .versioned version | .written version | .returned version => some version

/-- The version and the content that are stored, and the calls. -/
structure State (ι : Type) where
  version : ℕ
  current : Option Text
  phase : ι → Phase

/-- The three steps of a call. -/
inductive Action (ι : Type) where
  | incr (i : ι)
  | set (i : ι)
  | notify (i : ι)
  deriving Repr, DecidableEq

def Action.incr? {ι : Type} : Action ι → Option ι
  | .incr i => some i
  | _ => none

def Action.set? {ι : Type} : Action ι → Option ι
  | .set i => some i
  | _ => none

namespace State

variable {ι : Type}

/-- A number here: the `u64` of `LocalStore` wraps, and `INCR` fails, only behind 2^63 calls and
more. -/
def configVersion (s : State ι) : ℕ := s.version

def configGet (s : State ι) : Option Text := s.current

variable [DecidableEq ι]

def setPhase (s : State ι) (i : ι) (phase : Phase) : State ι :=
  { s with phase := update s.phase i phase }

/-- A step of `config_set(content(i))`; `none` where the call is not at that step. -/
def step (content : ι → Text) (s : State ι) : Action ι → Option (State ι)
  | .incr i =>
    match s.phase i with
    | .idle => some ({ s with version := s.version + 1 }.setPhase i (.versioned (s.version + 1)))
    | _ => none
  | .set i =>
    match s.phase i with
    | .versioned version =>
      some ({ s with current := some (content i) }.setPhase i (.written version))
    | _ => none
  | .notify i =>
    match s.phase i with
    | .written version => some (s.setPhase i (.returned version))
    | _ => none

variable {content : ι → Text} {s t t' : State ι} {a : Action ι}

lemma step_cases (h : step content t a = some t') :
    (∃ i, a = .incr i ∧ t.phase i = .idle ∧
      t' = { t with version := t.version + 1 }.setPhase i (.versioned (t.version + 1))) ∨
    (∃ i version, a = .set i ∧ t.phase i = .versioned version ∧
      t' = { t with current := some (content i) }.setPhase i (.written version)) ∨
    ∃ i version, a = .notify i ∧ t.phase i = .written version ∧
      t' = t.setPhase i (.returned version) := by
  match a with
  | .incr i =>
    rw [step] at h
    split at h
    · next hphase => exact .inl ⟨i, rfl, hphase, (some.inj h).symm⟩
    · cases h
  | .set i =>
    rw [step] at h
    split at h
    · next version hphase =>
      exact .inr (Or.inl ⟨i, version, rfl, hphase, (some.inj h).symm⟩)
    · cases h
  | .notify i =>
    rw [step] at h
    split at h
    · next version hphase =>
      exact .inr (Or.inr ⟨i, version, rfl, hphase, (some.inj h).symm⟩)
    · cases h

end State

/-- The call of the last step of a kind. -/
def lastOf {ι : Type} (kind : Action ι → Option ι) (as : List (Action ι)) : Option ι :=
  (as.filterMap kind).getLast?

lemma lastOf_concat {ι : Type} (kind : Action ι → Option ι) (as : List (Action ι))
    (a : Action ι) : lastOf kind (as ++ [a]) = (kind a).or (lastOf kind as) := by
  rw [lastOf, lastOf, filterMap_append]
  cases h : kind a <;> simp [h]

namespace State

variable {ι : Type} [DecidableEq ι] {content : ι → Text} {s t t' : State ι}
  {as : List (Action ι)} {a : Action ι}

/-- What a run from `s` has come to. -/
structure Versions (content : ι → Text) (s : State ι) (as : List (Action ι)) (t : State ι) :
    Prop where
  le : ∀ k version, (t.phase k).version? = some version → version ≤ t.version
  unique : ∀ k k' version, (t.phase k).version? = some version →
    (t.phase k').version? = some version → k = k'
  /-- The last increment gave out the highest version. -/
  highest : ∀ i, lastOf Action.incr? as = some i → (t.phase i).version? = some t.version
  begun : ∀ k, t.phase k ≠ .idle → (lastOf Action.incr? as).isSome = true
  current : t.current = ((lastOf Action.set? as).map content).or s.current
  wrote : ∀ k version, t.phase k = .written version ∨ t.phase k = .returned version →
    (lastOf Action.set? as).isSome = true
  begun_of_wrote : ∀ j, lastOf Action.set? as = some j → t.phase j ≠ .idle

omit [DecidableEq ι] in
lemma Versions.init (hidle : ∀ i, s.phase i = .idle) : Versions content s [] s := by
  constructor <;> simp [hidle, Phase.version?, lastOf]

variable {i : ι} {phase : Phase} {version : ℕ}

lemma Versions.incr (h : Versions content s as t) (hphase : t.phase i = .idle) :
    Versions content s (as ++ [.incr i])
      ({ t with version := t.version + 1 }.setPhase i (.versioned (t.version + 1))) := by
  have hset : lastOf Action.set? (as ++ [.incr i]) = lastOf Action.set? as := lastOf_concat _ _ _
  have hincr : lastOf Action.incr? (as ++ [.incr i]) = some i := lastOf_concat _ _ _
  have hother : ∀ k, k ≠ i → update t.phase i (.versioned (t.version + 1)) k = t.phase k :=
    fun k hk => update_of_ne hk _ _
  have hself : update t.phase i (.versioned (t.version + 1)) i =
      .versioned (t.version + 1) := update_self _ _ _
  constructor
  case le =>
    intro k version hk
    show version ≤ t.version + 1
    by_cases hki : k = i
    · subst hki
      simp only [setPhase, hself, Phase.version?, some.injEq] at hk
      omega
    · simp only [setPhase, hother k hki] at hk
      have := h.le k version hk
      omega
  case unique =>
    intro k k' version hk hk'
    simp only [setPhase] at hk hk'
    -- the new version is above all that were given out
    by_cases hki : k = i <;> by_cases hki' : k' = i
    · rw [hki, hki']
    · rw [hki, hself] at hk
      rw [hother k' hki'] at hk'
      have hle := h.le k' version hk'
      simp only [Phase.version?, some.injEq] at hk
      omega
    · rw [hki', hself] at hk'
      rw [hother k hki] at hk
      have hle := h.le k version hk
      simp only [Phase.version?, some.injEq] at hk'
      omega
    · rw [hother k hki] at hk
      rw [hother k' hki'] at hk'
      exact h.unique k k' version hk hk'
  case highest =>
    intro k hk
    obtain rfl := some.inj (hincr.symm.trans hk)
    simp [setPhase, Phase.version?]
  case begun => simp [hincr]
  case current => exact hset ▸ h.current
  case wrote =>
    intro k version hk
    have hki : k ≠ i := by
      rintro rfl
      simp [setPhase] at hk
    simp only [setPhase, hother k hki] at hk
    exact hset ▸ h.wrote k version hk
  case begun_of_wrote =>
    intro j hj
    have hji : j ≠ i := by
      rintro rfl
      exact h.begun_of_wrote j (hset ▸ hj) hphase
    simp only [setPhase, hother j hji]
    exact h.begun_of_wrote j (hset ▸ hj)

lemma version?_eq_none_iff : phase.version? = none ↔ phase = .idle := by
  cases phase <;> simp [Phase.version?]

lemma version?_update (h : phase.version? = (t.phase i).version?) (k : ι) :
    (update t.phase i phase k).version? = (t.phase k).version? := by
  by_cases hki : k = i
  · rw [hki, update_self, h]
  · rw [update_of_ne hki]

omit [DecidableEq ι] in
lemma Versions.of_same_versions (h : Versions content s as t) (ha : a.incr? = none)
    (hversion : t'.version = t.version)
    (hphase : ∀ k, (t'.phase k).version? = (t.phase k).version?)
    (hcurrent : t'.current = ((lastOf Action.set? (as ++ [a])).map content).or s.current)
    (hwrote : (lastOf Action.set? (as ++ [a])).isSome)
    (hbegun : ∀ j, lastOf Action.set? (as ++ [a]) = some j → t.phase j ≠ .idle) :
    Versions content s (as ++ [a]) t' := by
  have hincr : lastOf Action.incr? (as ++ [a]) = lastOf Action.incr? as := by
    rw [lastOf_concat, ha, none_or]
  have hidle : ∀ k, t'.phase k = .idle ↔ t.phase k = .idle := fun k => by
    rw [← version?_eq_none_iff, hphase, version?_eq_none_iff]
  constructor
  case le => exact fun k v hk => hversion ▸ h.le k v ((hphase k).symm.trans hk)
  case unique =>
    exact fun k k' v hk hk' =>
      h.unique k k' v ((hphase k).symm.trans hk) ((hphase k').symm.trans hk')
  case highest =>
    rw [hversion]
    exact fun k hk => (hphase k).trans (h.highest k (hincr ▸ hk))
  case begun => exact fun k hk => hincr ▸ h.begun k fun hk' => hk ((hidle k).mpr hk')
  case current => exact hcurrent
  case wrote => exact fun _ _ _ => hwrote
  case begun_of_wrote => exact fun j hj hj' => hbegun j hj ((hidle j).mp hj')

lemma Versions.set (h : Versions content s as t) (hphase : t.phase i = .versioned version) :
    Versions content s (as ++ [.set i])
      ({ t with current := some (content i) }.setPhase i (.written version)) := by
  have hset : lastOf Action.set? (as ++ [.set i]) = some i := lastOf_concat _ _ _
  refine h.of_same_versions rfl rfl (version?_update (by rw [hphase]; rfl)) ?_ (by simp [hset]) ?_
  · rw [hset]
    rfl
  · intro j hj
    obtain rfl := some.inj (hset.symm.trans hj)
    simp [hphase]

lemma Versions.notify (h : Versions content s as t) (hphase : t.phase i = .written version) :
    Versions content s (as ++ [.notify i]) (t.setPhase i (.returned version)) := by
  have hset : lastOf Action.set? (as ++ [.notify i]) = lastOf Action.set? as :=
    lastOf_concat _ _ _
  refine h.of_same_versions rfl rfl (version?_update (by rw [hphase]; rfl)) (hset ▸ h.current)
    (hset ▸ h.wrote i version (Or.inl hphase)) ?_
  exact fun j hj => h.begun_of_wrote j (hset ▸ hj)

lemma run_versions (hidle : ∀ i, s.phase i = .idle)
    (hrun : Run (step content) (fun _ _ => True) s as t) : Versions content s as t := by
  refine hrun.history (I := Versions content s) (.init hidle) fun as t a t' h _ hstep => ?_
  obtain ⟨i, rfl, hphase, rfl⟩ | ⟨i, version, rfl, hphase, rfl⟩ | ⟨i, version, rfl, hphase, rfl⟩ :=
    step_cases hstep
  · exact h.incr hphase
  · exact h.set hphase
  · exact h.notify hphase

/-- `config_get` returns the content of the call with the highest version, which is
`config_version`. -/
def Consistent (content : ι → Text) (t : State ι) : Prop :=
  ∀ k version, t.phase k = .returned version →
    (∀ k' version', t.phase k' = .returned version' → version' ≤ version) →
    t.configVersion = version ∧ t.configGet = some (content k)

/-- **Version and content agree exactly if the order of the increments and of the writes agree at
the end**: the call that wrote last has the text of the call that incremented last. -/
theorem config_consistent_iff (content : ι → Text) (s : State ι) (hidle : ∀ i, s.phase i = .idle)
    {as : List (Action ι)} {t : State ι} (hrun : Run (step content) (fun _ _ => True) s as t)
    (hquiet : ∀ i, t.phase i = .idle ∨ ∃ version, t.phase i = .returned version) :
    Consistent content t ↔
      (lastOf Action.set? as).map content = (lastOf Action.incr? as).map content := by
  have hv := run_versions hidle hrun
  cases hincr : lastOf Action.incr? as with
  | none =>
    -- no call has begun
    have hall : ∀ k, t.phase k = .idle := by
      intro k
      by_contra hk
      have := hv.begun k hk
      simp [hincr] at this
    have hset : lastOf Action.set? as = none := by
      cases hset : lastOf Action.set? as with
      | none => rfl
      | some j => exact absurd (hall j) (hv.begun_of_wrote j hset)
    rw [hset]
    refine iff_of_true (fun k version hk => ?_) rfl
    simp [hall k] at hk
  | some i =>
    -- the call that incremented last has returned the highest version
    have hi : t.phase i = .returned t.version := by
      have hversion := hv.highest i hincr
      rcases hquiet i with hidle | ⟨version, hreturned⟩
      · simp [hidle, Phase.version?] at hversion
      · rw [hreturned] at hversion ⊢
        exact congrArg Phase.returned (some.inj hversion)
    obtain ⟨j, hset⟩ := isSome_iff_exists.mp (hv.wrote i t.version (Or.inr hi))
    have hcurrent : t.current = some (content j) := by rw [hv.current, hset]; rfl
    have hmax : ∀ k' version', t.phase k' = .returned version' → version' ≤ t.version :=
      fun k' version' hk' => hv.le k' version' (by rw [hk']; rfl)
    rw [hset, map_some, map_some, some.injEq]
    refine ⟨fun h => ?_, fun heq k version hk hhighest => ?_⟩
    · have := (h i t.version hi hmax).2
      rw [configGet, hcurrent] at this
      exact some.inj this
    · have hversion : t.version = version :=
        Nat.le_antisymm (hhighest i t.version hi) (hmax k version hk)
      -- no other call has this version
      have hki : k = i := by
        refine hv.unique k i version (by rw [hk]; rfl) (by rw [hi, hversion]; rfl)
      exact ⟨hversion, by rw [configGet, hcurrent, heq, hki]⟩

def twoContents : Bool → Text
  | false => "a"
  | true => "b"

def noConfig : State Bool := ⟨0, none, fun _ => .idle⟩

theorem config_consistent_sequential :
    ∃ t, ([.incr false, .set false, .notify false, .incr true, .set true, .notify true] :
        List (Action Bool)).foldlM (step twoContents) noConfig = some t ∧
      Consistent twoContents t := by
  have hrun : ∃ t, Run (step twoContents) (fun _ _ => True) noConfig
      [.incr false, .set false, .notify false, .incr true, .set true, .notify true] t ∧
      ∀ i, t.phase i = .idle ∨ ∃ version, t.phase i = .returned version := by
    refine ⟨_, .of_foldlM rfl, ?_⟩
    rintro (_ | _)
    · exact .inr ⟨1, rfl⟩
    · exact .inr ⟨2, rfl⟩
  obtain ⟨t, hrun, hquiet⟩ := hrun
  exact ⟨t, hrun.foldlM_eq,
    (config_consistent_iff twoContents noConfig (fun _ => rfl) hrun hquiet).mpr rfl⟩

/-- **The content of an older version can win.** Both calls increment; `b`, which got
version 2, writes first and `a` afterwards. All calls have returned, `config_version` is 2
and `config_get` returns `a`. -/
theorem config_inconsistent :
    ∃ t, Run (step twoContents) (fun _ _ => True) noConfig
        [.incr false, .incr true, .set true, .notify true, .set false, .notify false] t ∧
      t.phase true = .returned 2 ∧ t.phase false = .returned 1 ∧ t.configVersion = 2 ∧
      t.configGet = some (twoContents false) ∧ twoContents false ≠ twoContents true :=
  ⟨_, .of_foldlM rfl, rfl, rfl, rfl, rfl, by decide⟩

end State

end ConfigStore

end TrafficCop
