import Mathlib.Data.List.Induction

/-!
# Runs of a transition system

A system is a partial step function `step : σ → α → Option σ`; `none` says that the action cannot be
taken. `Run step allowed s as t` takes the actions `as` from `s` to `t`, each where `allowed`
permits it: restrictions under which a property is proved are in `allowed`, not in the system.
-/

namespace Transition

open List Option

variable {σ α : Type*} {step : σ → α → Option σ} {allowed : σ → α → Prop}

/-- Sequences of allowed steps. -/
inductive Run (step : σ → α → Option σ) (allowed : σ → α → Prop) (s : σ) : List α → σ → Prop
  | refl : Run step allowed s [] s
  | snoc {as t a t'} : Run step allowed s as t → allowed t a → step t a = some t' →
      Run step allowed s (as ++ [a]) t'

variable {s t : σ} {as : List α}

variable {a : α} {I : List α → σ → Prop} {P : σ → Prop}

/-- A step before a run; a given list of actions is executed with it. -/
lemma Run.cons {u : σ} (hallowed : allowed s a)
    (hfirst : step s a = some u) (h : Run step allowed u as t) :
    Run step allowed s (a :: as) t := by
  induction h with
  | refl => exact .snoc .refl hallowed hfirst
  | snoc _ hlast hstep ih => exact .snoc ih hlast hstep

/-- Runs as folds. -/
lemma Run.of_foldlM (h : as.foldlM step s = some t) : Run step (fun _ _ => True) s as t := by
  induction as generalizing s with
  | nil =>
    cases h
    exact .refl
  | cons a as ih =>
    rw [foldlM_cons] at h
    obtain ⟨s', hfirst, hrest⟩ := bind_eq_some_iff.mp h
    exact .cons trivial hfirst (ih hrest)

lemma Run.of_guarded {p : σ → α → Bool} (hp : ∀ s a, p s a → allowed s a)
    (h : as.foldlM (fun s a => if p s a then step s a else none) s = some t) :
    Run step allowed s as t := by
  induction as generalizing s with
  | nil =>
    cases h
    exact .refl
  | cons a as ih =>
    rw [foldlM_cons] at h
    obtain ⟨s', hfirst, hrest⟩ := bind_eq_some_iff.mp h
    split at hfirst
    · next hpass => exact .cons (hp s a hpass) hfirst (ih hrest)
    · cases hfirst

lemma Run.of_concat (h : Run step allowed s (as ++ [a]) t) :
    ∃ u, Run step allowed s as u ∧ allowed u a ∧ step u a = some t := by
  generalize has : as ++ [a] = bs at h
  cases h with
  | refl => simp at has
  | snoc hrun hallowed hlast =>
    obtain ⟨rfl, hlast'⟩ := append_inj' has rfl
    obtain rfl := (List.cons.inj hlast').1
    exact ⟨_, hrun, hallowed, hlast⟩

lemma Run.foldlM_eq (h : Run step allowed s as t) : as.foldlM step s = some t := by
  induction h with
  | refl => rfl
  | snoc _ _ hlast ih =>
    rw [foldlM_append, ih]
    simpa using hlast

/-- Induction over a run for a property of the actions taken and the state reached. -/
lemma Run.history (h : Run step allowed s as t) (hs : I [] s)
    (hstep : ∀ as t a t', I as t → allowed t a → step t a = some t' → I (as ++ [a]) t') :
    I as t := by
  induction h with
  | refl => exact hs
  | snoc _ hallowed hlast ih => exact hstep _ _ _ _ ih hallowed hlast

/-- A property of states that every allowed step keeps holds at the end of a run. -/
lemma Run.invariant {I : σ → Prop} (h : Run step allowed s as t)
    (hs : I s) (hstep : ∀ t a t', I t → allowed t a → step t a = some t' → I t') : I t :=
  h.history (I := fun _ t => I t) hs fun _ => hstep

lemma Run.eq_of_run {allowed' : σ → α → Prop} {u : σ}
    (h : Run step allowed s as t) (h' : Run step allowed' s as u) : t = u :=
  Option.some.inj (h.foldlM_eq.symm.trans h'.foldlM_eq)

/-- A property holds throughout a run exactly if the run keeps to the steps that keep it. -/
lemma Run.throughout_iff {I : σ → Prop} {C : σ → α → Prop}
    (h : Run step allowed s as t) (hI : I s) (hP : P s)
    (hkeep : ∀ t a t', I t → allowed t a → step t a = some t' → I t')
    (hiff : ∀ t a t', I t → P t → step t a = some t' → (P t' ↔ C t a)) :
    (∀ before u, before <+: as → Run step allowed s before u → P u) ↔
      Run step (fun t a => allowed t a ∧ C t a) s as t := by
  induction h with
  | refl =>
    refine ⟨fun _ => .refl, fun _ before u hprefix hrun => ?_⟩
    obtain rfl := prefix_nil.mp hprefix
    rwa [hrun.eq_of_run (.refl : Run step allowed s [] s)]
  | @snoc as t a t' hrun hallowed hlast ih =>
    have hIt : I t := hrun.invariant hI hkeep
    constructor
    · intro hall
      have hbefore : ∀ before u, before <+: as → Run step allowed s before u → P u :=
        fun before u hle => hall before u (hle.trans (prefix_append _ _))
      have hPt := hbefore as t (prefix_refl _) hrun
      have hPt' := hall _ t' (prefix_refl _) (.snoc hrun hallowed hlast)
      exact .snoc (ih.mp hbefore) ⟨hallowed, (hiff t a t' hIt hPt hlast).mp hPt'⟩ hlast
    · intro hcareful before u hprefix hrun'
      obtain ⟨v, hv, ⟨-, hC⟩, -⟩ := hcareful.of_concat
      obtain rfl := hrun.eq_of_run hv
      have hbefore := ih.mpr hv
      rcases prefix_concat_iff.mp hprefix with rfl | hprefix
      · -- the whole run
        rw [hrun'.eq_of_run (.snoc hrun hallowed hlast)]
        exact (hiff t a t' hIt (hbefore as t (prefix_refl _) hrun) hlast).mpr hC
      · exact hbefore before u hprefix hrun'

/-- The rule for conditions that are exact: if from the states with a property exactly the allowed
steps keep it, it holds throughout a run exactly if every step is allowed. -/
lemma throughout_iff {next : σ → α → σ} (hs : P s)
    (hnext : ∀ t a, P t → (P (next t a) ↔ allowed t a)) (as : List α) :
    (∀ before, before <+: as → P (before.foldl next s)) ↔
      ∀ before a, before ++ [a] <+: as → allowed (before.foldl next s) a := by
  constructor
  · intro h before a hprefix
    have hbefore : before <+: as := (prefix_append before [a]).trans hprefix
    have hafter := h _ hprefix
    rw [foldl_append] at hafter
    exact (hnext _ _ (h _ hbefore)).mp hafter
  · intro h before
    -- from the empty run on, one step after the other
    induction before using List.reverseRecOn with
    | nil => exact fun _ => hs
    | append_singleton before a ih =>
      intro hprefix
      have hbefore : before <+: as := (prefix_append before [a]).trans hprefix
      rw [foldl_append]
      exact (hnext _ _ (ih hbefore)).mpr (h _ _ hprefix)

/-- Two conditions on steps agree along a run if they agree wherever an invariant holds that the one
of them keeps. All may speak about the actions so far. -/
lemma steps_congr {f : σ → α → σ} {C D : List α → σ → α → Prop} (hs : I [] s)
    (hkeep : ∀ before t a, I before t → C before t a → I (before ++ [a]) (f t a))
    (hiff : ∀ before t a, I before t → (C before t a ↔ D before t a)) (as : List α) :
    (∀ before a, before ++ [a] <+: as → C before (before.foldl f s) a) ↔
      ∀ before a, before ++ [a] <+: as → D before (before.foldl f s) a := by
  -- as long as the steps meet the first condition, the invariant holds
  have hinv : (∀ before a, before ++ [a] <+: as → I before (before.foldl f s) →
      C before (before.foldl f s) a) → ∀ before, before <+: as → I before (before.foldl f s) := by
    intro h before
    induction before using List.reverseRecOn with
    | nil => exact fun _ => hs
    | append_singleton before a ih =>
      intro hprefix
      have hI := ih ((prefix_append before [a]).trans hprefix)
      rw [foldl_append]
      exact hkeep _ _ _ hI (h before a hprefix hI)
  constructor
  · intro h before a hprefix
    have hI := hinv (fun before a hprefix _ => h before a hprefix) before
      ((prefix_append before [a]).trans hprefix)
    exact (hiff _ _ _ hI).mp (h before a hprefix)
  · intro h before a hprefix
    have hI := hinv (fun before a hprefix hI => (hiff _ _ _ hI).mpr (h before a hprefix)) before
      ((prefix_append before [a]).trans hprefix)
    exact (hiff _ _ _ hI).mpr (h before a hprefix)

end Transition
