import TrafficCop.Lib.Transition

/-!
# Hot reload

`SharedState` of `server/mod.rs` publishes the router, the service manager and the middleware
registry in three cells (`ArcSwap`).

Of a cell only the configuration matters that its content was built from. A request can meet a
reload between two stores and then works with two configurations. For reloads that do not overlap,

`request_configs`: **a request lags by at most one reload**.
-/

namespace TrafficCop

open List Function

namespace Reload

open Transition

variable {γ : Type}

/-! ## States and steps -/

/-- Where a call of `SharedState::reload` is; all components are built before the first store. -/
inductive ReloadPhase (γ : Type) where
  | idle
  | routerNext (config : γ)
  | servicesNext (config : γ)
  | middlewaresNext (config : γ)
  deriving Repr, DecidableEq

/-- Where a request is, with the origins of what it has loaded. -/
inductive RequestPhase (γ : Type) where
  | idle
  | routerLoaded (router : γ)
  | servicesLoaded (router services : γ)
  | handled (router services middlewares : γ)
  deriving Repr, DecidableEq

/-- The origins of the three cells, and the phases of reloads and requests. -/
structure State (γ : Type) where
  router : γ
  services : γ
  middlewares : γ
  reloads : Nat → ReloadPhase γ
  requests : Nat → RequestPhase γ

/-- A reload stores into the cells one after the other, and a request loads them one after the other
(`Listener::serve_connection`). Each store and each load is one atomic step. -/
inductive Action (γ : Type) where
  | beginReload (i : Nat) (config : γ)
  | storeRouter (i : Nat)
  | storeServices (i : Nat)
  | storeMiddlewares (i : Nat)
  | loadRouter (q : Nat)
  | loadServices (q : Nat)
  | loadMiddlewares (q : Nat)
  deriving Repr, DecidableEq

namespace State

def init (config : γ) : State γ where
  router := config
  services := config
  middlewares := config
  reloads _ := .idle
  requests _ := .idle

variable (s : State γ)

def setReload (i : Nat) (phase : ReloadPhase γ) : State γ :=
  { s with reloads := update s.reloads i phase }

def setRequest (q : Nat) (phase : RequestPhase γ) : State γ :=
  { s with requests := update s.requests q phase }

/-- One atomic step; `none` where the reload or the request is not at that point. -/
def step : Action γ → Option (State γ)
  | .beginReload i config =>
    match s.reloads i with
    | .idle => some (s.setReload i (.routerNext config))
    | _ => none
  -- `self.router.store(..)`, then the two others
  | .storeRouter i =>
    match s.reloads i with
    | .routerNext c => some { s.setReload i (.servicesNext c) with router := c }
    | _ => none
  | .storeServices i =>
    match s.reloads i with
    | .servicesNext c => some { s.setReload i (.middlewaresNext c) with services := c }
    | _ => none
  | .storeMiddlewares i =>
    match s.reloads i with
    | .middlewaresNext c => some { s.setReload i .idle with middlewares := c }
    | _ => none
  -- `state.router.load()`, then the two others
  | .loadRouter q =>
    match s.requests q with
    | .idle => some (s.setRequest q (.routerLoaded s.router))
    | _ => none
  | .loadServices q =>
    match s.requests q with
    | .routerLoaded r => some (s.setRequest q (.servicesLoaded r s.services))
    | _ => none
  | .loadMiddlewares q =>
    match s.requests q with
    | .servicesLoaded r sv => some (s.setRequest q (.handled r sv s.middlewares))
    | _ => none

/-- No reload is in progress. -/
def NoReload : Prop := ∀ i, s.reloads i = .idle

end State

/-- A reload begins only when no other is in progress. -/
def Serial (s : State γ) : Action γ → Prop
  | .beginReload _ _ => s.NoReload
  | _ => True

/-- No reload stores into a cell that request `q` has still to load. -/
def Spares (q : Nat) (s : State γ) : Action γ → Prop
  | .storeServices _ => ∀ r, s.requests q ≠ .routerLoaded r
  | .storeMiddlewares _ => ∃ r sv m, s.requests q = .handled r sv m
  | _ => True

def Action.begun : Action γ → List γ
  | .beginReload _ config => [config]
  | _ => []

/-- The configurations the server has had, in the order their reloads began. -/
def published (first : γ) (actions : List (Action γ)) : List γ :=
  first :: actions.flatMap Action.begun

@[simp] lemma published_nil (first : γ) : published first [] = [first] := rfl

@[simp] lemma published_snoc (first : γ) (actions : List (Action γ)) (a : Action γ) :
    published first (actions ++ [a]) = published first actions ++ a.begun := by
  simp [published]

lemma step_cases {s s' : State γ} {a : Action γ} (h : s.step a = some s') :
    (∃ i c, a = .beginReload i c ∧ s.reloads i = .idle ∧ s' = s.setReload i (.routerNext c)) ∨
    (∃ i c, a = .storeRouter i ∧ s.reloads i = .routerNext c ∧
      s' = { s.setReload i (.servicesNext c) with router := c }) ∨
    (∃ i c, a = .storeServices i ∧ s.reloads i = .servicesNext c ∧
      s' = { s.setReload i (.middlewaresNext c) with services := c }) ∨
    (∃ i c, a = .storeMiddlewares i ∧ s.reloads i = .middlewaresNext c ∧
      s' = { s.setReload i .idle with middlewares := c }) ∨
    (∃ q, a = .loadRouter q ∧ s.requests q = .idle ∧ s' = s.setRequest q (.routerLoaded s.router)) ∨
    (∃ q r, a = .loadServices q ∧ s.requests q = .routerLoaded r ∧
      s' = s.setRequest q (.servicesLoaded r s.services)) ∨
    ∃ q r sv, a = .loadMiddlewares q ∧ s.requests q = .servicesLoaded r sv ∧
      s' = s.setRequest q (.handled r sv s.middlewares) := by
  cases a <;> simp only [State.step] at h <;> split at h <;> cases h <;> simp_all

/-! ## Versions

The configurations published so far are numbered from the first. The invariant
says which number each cell has, and which numbers a request has loaded. -/

structure Versions where
  router : Nat
  services : Nat
  middlewares : Nat

/-- How far the cells are in a phase, with `n` configurations before the one being published. -/
def Stage (hist : List γ) (n : Nat) : ReloadPhase γ → Versions → Prop
  | .idle, v => v = ⟨n, n, n⟩ ∧ hist.length = n + 1
  | .routerNext c, v => v = ⟨n, n, n⟩ ∧ hist.length = n + 2 ∧ hist[n + 1]? = some c
  | .servicesNext c, v => v = ⟨n + 1, n, n⟩ ∧ hist.length = n + 2 ∧ hist[n + 1]? = some c
  | .middlewaresNext c, v => v = ⟨n + 1, n + 1, n⟩ ∧ hist.length = n + 2 ∧ hist[n + 1]? = some c

/-- What a request loaded are published configurations, each at most one older than those before it.
-/
def AtMostOneBehind (hist : List γ) (router services middlewares : γ) : Prop :=
  ∃ a b d, hist[a]? = some router ∧ hist[b]? = some services ∧ hist[d]? = some middlewares ∧
    a ≤ b + 1 ∧ a ≤ d + 1 ∧ b ≤ d + 1

/-- What is loaded is at most one ahead of the cells still to load. -/
def Loaded (hist : List γ) (v : Versions) : RequestPhase γ → Prop
  | .idle => True
  | .routerLoaded r => ∃ a, hist[a]? = some r ∧ a ≤ v.services + 1 ∧ a ≤ v.middlewares + 1
  | .servicesLoaded r sv => ∃ a b, hist[a]? = some r ∧ hist[b]? = some sv ∧ a ≤ b + 1 ∧
      a ≤ v.middlewares + 1 ∧ b ≤ v.middlewares + 1
  | .handled r sv m => AtMostOneBehind hist r sv m

/-- Every cell is one of the last two configurations. -/
structure Tracked (hist : List γ) (s : State γ) (v : Versions) : Prop where
  router : hist[v.router]? = some s.router
  services : hist[v.services]? = some s.services
  middlewares : hist[v.middlewares]? = some s.middlewares
  /-- At most reload `i` is in progress. -/
  progress : ∃ i n, (∀ j, j ≠ i → s.reloads j = .idle) ∧ Stage hist n (s.reloads i) v
  requests : ∀ q, Loaded hist v (s.requests q)

lemma tracked_init (c : γ) : Tracked [c] (State.init c) ⟨0, 0, 0⟩ where
  router := rfl
  services := rfl
  middlewares := rfl
  progress := ⟨0, 0, fun _ _ => rfl, rfl, rfl⟩
  requests _ := trivial

section Invariant

variable {hist hist' : List γ} {s s' : State γ} {v v' : Versions} {a : Action γ}

lemma getElem?_mono (h : hist <+: hist') {k : Nat} {c : γ} (hk : hist[k]? = some c) :
    hist'[k]? = some c := by
  obtain ⟨more, rfl⟩ := h
  obtain ⟨hlt, -⟩ := List.getElem?_eq_some_iff.mp hk
  rw [getElem?_append_left hlt, hk]

/-- More publications and stores keep what a request has loaded within its bounds. -/
lemma Loaded.mono {phase : RequestPhase γ} (h : Loaded hist v phase) (hmore : hist <+: hist')
    (hservices : v.services ≤ v'.services) (hmiddlewares : v.middlewares ≤ v'.middlewares) :
    Loaded hist' v' phase := by
  have hget := fun {k c} => @getElem?_mono γ hist hist' hmore k c
  cases phase with
  | idle => trivial
  | routerLoaded r =>
    obtain ⟨k, hk, hs, hm⟩ := h
    exact ⟨k, hget hk, by omega, by omega⟩
  | servicesLoaded r sv =>
    obtain ⟨k, l, hk, hl, hkl, hkm, hlm⟩ := h
    exact ⟨k, l, hget hk, hget hl, hkl, by omega, by omega⟩
  | handled r sv m =>
    obtain ⟨k, l, p, hk, hl, hp, hbounds⟩ := h
    exact ⟨k, l, p, hget hk, hget hl, hget hp, hbounds⟩

variable {n i : Nat} {phase : ReloadPhase γ}

lemma Stage.ordered (h : Stage hist n phase v) :
    v.middlewares ≤ v.services ∧ v.services ≤ v.router ∧ v.router ≤ v.middlewares + 1 := by
  cases phase <;> obtain ⟨rfl, -⟩ := h <;> simp

lemma Tracked.stage_of_reload (h : Tracked hist s v)
    (hi : s.reloads i = phase) (hphase : phase ≠ .idle) :
    ∃ n, (∀ j, j ≠ i → s.reloads j = .idle) ∧ Stage hist n phase v := by
  obtain ⟨j, n, hothers, hstage⟩ := h.progress
  have hij : i = j := Classical.byContradiction fun hne => hphase (hi.symm.trans (hothers i hne))
  subst hij
  rw [hi] at hstage
  exact ⟨n, hothers, hstage⟩

lemma Tracked.stage_of_noReload (h : Tracked hist s v) (hs : s.NoReload) :
    ∃ n, Stage hist n .idle v := by
  obtain ⟨i, n, -, hstage⟩ := h.progress
  rw [hs i] at hstage
  exact ⟨n, hstage⟩

lemma Tracked.ordered (h : Tracked hist s v) :
    v.middlewares ≤ v.services ∧ v.services ≤ v.router ∧ v.router ≤ v.middlewares + 1 := by
  obtain ⟨_, _, _, hstage⟩ := h.progress
  exact Stage.ordered hstage

lemma Tracked.setRequest (h : Tracked hist s v) (q : Nat) {phase : RequestPhase γ}
    (hphase : Loaded hist v phase) : Tracked hist (s.setRequest q phase) v where
  router := h.router
  services := h.services
  middlewares := h.middlewares
  progress := h.progress
  requests p := by
    by_cases hp : p = q
    · subst hp
      simpa [State.setRequest] using hphase
    · simpa [State.setRequest, update_of_ne hp] using h.requests p

lemma Tracked.setReload (h : Tracked hist s v) (hmore : hist <+: hist')
    (hothers : ∀ j, j ≠ i → s.reloads j = .idle)
    (hstage : Stage hist' n phase v') {router services middlewares : γ}
    (hrouter : hist'[v'.router]? = some router) (hservices : hist'[v'.services]? = some services)
    (hmiddlewares : hist'[v'.middlewares]? = some middlewares)
    (hs : v.services ≤ v'.services) (hm : v.middlewares ≤ v'.middlewares) :
    Tracked hist' ⟨router, services, middlewares, update s.reloads i phase, s.requests⟩ v'
    where
  router := hrouter
  services := hservices
  middlewares := hmiddlewares
  progress := by
    refine ⟨i, n, ?_, ?_⟩
    · intro j hj
      exact (update_of_ne hj phase s.reloads).trans (hothers j hj)
    · simpa only [update_self] using hstage
  requests q := (h.requests q).mono hmore hs hm

/-- **One step** keeps the invariant; a reload that begins publishes behind the others. -/
theorem step_tracked (h : Tracked hist s v) (hserial : Serial s a) (hstep : s.step a = some s') :
    ∃ v', Tracked (hist ++ a.begun) s' v' := by
  obtain ⟨i, c, rfl, -, rfl⟩ | ⟨i, c, rfl, hi, rfl⟩ | ⟨i, c, rfl, hi, rfl⟩ | ⟨i, c, rfl, hi, rfl⟩ |
    ⟨q, rfl, -, rfl⟩ | ⟨q, r, rfl, hq, rfl⟩ | ⟨q, r, sv, rfl, hq, rfl⟩ := step_cases hstep
  · -- a reload begins: the cells are settled, and stay as they are
    obtain ⟨n, rfl, hlength⟩ := h.stage_of_noReload hserial
    have hmore : hist <+: hist ++ [c] := prefix_append _ _
    have hlast : (hist ++ [c])[n + 1]? = some c := by simp [← hlength]
    have hstage : Stage (hist ++ [c]) n (.routerNext c) ⟨n, n, n⟩ :=
      ⟨rfl, by simp [hlength], hlast⟩
    exact ⟨_, h.setReload hmore (fun j _ => hserial j) hstage (getElem?_mono hmore h.router)
      (getElem?_mono hmore h.services) (getElem?_mono hmore h.middlewares)
      (Nat.le_refl n) (Nat.le_refl n)⟩
  -- the three stores of the reload in progress, each bringing one cell up to date
  · obtain ⟨n, hothers, rfl, hlength, hlast⟩ := h.stage_of_reload hi (by simp)
    simp only [Action.begun, append_nil]
    have hstage : Stage hist n (.servicesNext c) ⟨n + 1, n, n⟩ := ⟨rfl, hlength, hlast⟩
    exact ⟨_, h.setReload prefix_rfl hothers hstage hlast h.services h.middlewares
      (Nat.le_refl n) (Nat.le_refl n)⟩
  · obtain ⟨n, hothers, rfl, hlength, hlast⟩ := h.stage_of_reload hi (by simp)
    simp only [Action.begun, append_nil]
    have hstage : Stage hist n (.middlewaresNext c) ⟨n + 1, n + 1, n⟩ := ⟨rfl, hlength, hlast⟩
    exact ⟨_, h.setReload prefix_rfl hothers hstage h.router hlast h.middlewares
      (Nat.le_succ n) (Nat.le_refl n)⟩
  · obtain ⟨n, hothers, rfl, hlength, hlast⟩ := h.stage_of_reload hi (by simp)
    simp only [Action.begun, append_nil]
    have hstage : Stage hist (n + 1) .idle ⟨n + 1, n + 1, n + 1⟩ := ⟨rfl, hlength⟩
    exact ⟨_, h.setReload prefix_rfl hothers hstage h.router h.services hlast
      (Nat.le_refl (n + 1)) (Nat.le_succ n)⟩
  -- the three loads: a cell is at most one configuration ahead of those behind it
  · have hordered := h.ordered
    simp only [Action.begun, append_nil]
    exact ⟨v, h.setRequest q ⟨v.router, h.router, by omega, by omega⟩⟩
  · have hordered := h.ordered
    have hloaded := h.requests q
    rw [hq] at hloaded
    obtain ⟨k, hk, hks, hkm⟩ := hloaded
    simp only [Action.begun, append_nil]
    exact ⟨v, h.setRequest q ⟨k, v.services, hk, h.services, hks, hkm, by omega⟩⟩
  · have hloaded := h.requests q
    rw [hq] at hloaded
    obtain ⟨k, l, hk, hl, hkl, hkm, hlm⟩ := hloaded
    simp only [Action.begun, append_nil]
    exact ⟨v, h.setRequest q ⟨k, l, v.middlewares, hk, hl, h.middlewares, hkl, hkm, hlm⟩⟩

end Invariant

variable {c : γ} {actions : List (Action γ)} {q : Nat}

/-- **Every run** whose reloads do not overlap keeps the invariant. -/
theorem run_tracked {s : State γ} (h : Run State.step Serial (State.init c) actions s) :
    ∃ v, Tracked (published c actions) s v := by
  refine h.history (I := fun actions s => ∃ v, Tracked (published c actions) s v)
    ⟨⟨0, 0, 0⟩, tracked_init c⟩ ?_
  intro actions s a s' ⟨v, hv⟩ hserial hstep
  rw [published_snoc]
  exact step_tracked hv hserial hstep

/-! ## Requests -/

/-- A request meets only `c`: what it has loaded is `c`, and so are the cells it has still to load.
-/
def OnlyMeets (c services middlewares : γ) : RequestPhase γ → Prop
  | .idle => False
  | .routerLoaded r => r = c ∧ services = c ∧ middlewares = c
  | .servicesLoaded r sv => r = c ∧ sv = c ∧ middlewares = c
  | .handled r sv m => r = c ∧ sv = c ∧ m = c

lemma step_onlyMeets {s s' : State γ} {a : Action γ}
    (h : OnlyMeets c s.services s.middlewares (s.requests q)) (hspares : Spares q s a)
    (hstep : s.step a = some s') :
    OnlyMeets c s'.services s'.middlewares (s'.requests q) := by
  obtain ⟨i, d, rfl, -, rfl⟩ | ⟨i, d, rfl, -, rfl⟩ | ⟨i, d, rfl, -, rfl⟩ | ⟨i, d, rfl, -, rfl⟩ |
    ⟨p, rfl, hp, rfl⟩ | ⟨p, r, rfl, hp, rfl⟩ | ⟨p, r, sv, rfl, hp, rfl⟩ := step_cases hstep
  · exact h
  · -- the request has its router already
    exact h
  · change OnlyMeets c d s.middlewares (s.requests q)
    cases hq : s.requests q with
    | routerLoaded r => exact absurd hq (hspares r)
    | _ =>
      rw [hq] at h
      exact h
  · obtain ⟨r, sv, m, hq⟩ := hspares
    change OnlyMeets c s.services d (s.requests q)
    rw [hq] at h ⊢
    exact h
  -- the loads: of `q` itself, which read `c`, or of another request
  all_goals
    by_cases hpq : q = p
    · subst hpq
      rw [hp] at h
      simp_all [OnlyMeets, State.setRequest]
    · simpa [State.setRequest, update_of_ne hpq] using h

lemma run_onlyMeets {s t : State γ} (h : OnlyMeets c s.services s.middlewares (s.requests q))
    (hrun : Run State.step (Spares q) s actions t) :
    OnlyMeets c t.services t.middlewares (t.requests q) :=
  hrun.invariant (I := fun s => OnlyMeets c s.services s.middlewares (s.requests q)) h
    fun _ _ _ => step_onlyMeets

/-- With no reload in progress all cells hold the last configuration. -/
lemma settled_of_noReload {s : State γ}
    (h : Run State.step Serial (State.init c) actions s) (hs : s.NoReload) :
    (published c actions).getLast? = some s.router ∧ s.services = s.router ∧
      s.middlewares = s.router := by
  obtain ⟨v, hv⟩ := run_tracked h
  obtain ⟨n, rfl, hlength⟩ := hv.stage_of_noReload hs
  have hrouter := hv.router
  have hservices := hv.services
  have hmiddlewares := hv.middlewares
  refine ⟨?_, ?_, ?_⟩
  · rw [getLast?_eq_getElem?, hlength]
    exact hrouter
  · exact Option.some.inj (hservices.symm.trans hrouter)
  · exact Option.some.inj (hmiddlewares.symm.trans hrouter)

/-- Reloads that overlap can leave the cells apart for good, with none in progress. -/
example : ∃ t, Run State.step (fun _ _ => True) (State.init 0)
    [.beginReload 0 1, .beginReload 1 2, .storeRouter 0, .storeRouter 1, .storeServices 1,
      .storeMiddlewares 1, .storeServices 0, .storeMiddlewares 0] t ∧
    t.router = 2 ∧ t.services = 1 ∧ t.reloads 0 = .idle ∧ t.reloads 1 = .idle := by
  refine ⟨_, .cons trivial rfl (.cons trivial rfl (.cons trivial rfl (.cons trivial rfl
    (.cons trivial rfl (.cons trivial rfl (.cons trivial rfl (.cons trivial rfl .refl))))))),
    rfl, rfl, rfl, rfl⟩

/-- **What a request works with**, when reloads do not overlap: published configurations, none more
than one older than those loaded before it. If no reload is in progress when it loads the router,
and none stores what it has still to load, all three are the one published last. -/
theorem request_configs (c : γ) (q : Nat) (r sv m : γ) :
    (∀ actions t, Run State.step Serial (State.init c) actions t →
      t.requests q = .handled r sv m → AtMostOneBehind (published c actions) r sv m) ∧
    ∀ before s s₁ during t, Run State.step Serial (State.init c) before s → s.NoReload →
      s.step (.loadRouter q) = some s₁ → Run State.step (Spares q) s₁ during t →
      t.requests q = .handled r sv m →
      (published c before).getLast? = some r ∧ sv = r ∧ m = r := by
  refine ⟨?_, ?_⟩
  · intro actions t hrun hq
    obtain ⟨v, hv⟩ := run_tracked hrun
    have hloaded := hv.requests q
    rwa [hq] at hloaded
  · intro before s s₁ during t hbefore hs hload hduring hq
    obtain ⟨hlast, hservices, hmiddlewares⟩ := settled_of_noReload hbefore hs
    have hmeets : OnlyMeets s.router s₁.services s₁.middlewares (s₁.requests q) := by
      simp only [State.step] at hload
      split at hload <;> cases hload
      simp [State.setRequest, OnlyMeets, hservices, hmiddlewares]
    have hend := run_onlyMeets hmeets hduring
    rw [hq] at hend
    obtain ⟨rfl, rfl, rfl⟩ := hend
    exact ⟨hlast, rfl, rfl⟩

/-- A reload that stores each cell behind the request's load of it is not seen; one whose
first store is ahead of the request's loads is seen in the router only. -/
theorem request_configs_cut :
    (∃ s₁ t, (State.init 0).step (.loadRouter 0) = some s₁ ∧
      Run State.step (Spares 0) s₁ [.beginReload 0 1, .storeRouter 0, .loadServices 0,
        .storeServices 0, .loadMiddlewares 0] t ∧
      t.services = 1 ∧ t.requests 0 = .handled 0 0 0 ∧ (published 0 []).getLast? = some 0) ∧
    ∃ t, Run State.step Serial (State.init 0) [.beginReload 0 1, .storeRouter 0, .loadRouter 0,
        .loadServices 0, .loadMiddlewares 0] t ∧
      t.requests 0 = .handled 1 0 0 ∧ AtMostOneBehind [0, 1] 1 0 0 := by
  have hduring : Run State.step (Spares 0) ((State.init 0).setRequest 0 (.routerLoaded 0))
      [.beginReload 0 1, .storeRouter 0, .loadServices 0, .storeServices 0, .loadMiddlewares 0] _ :=
    .cons trivial rfl (.cons trivial rfl (.cons trivial rfl
      (.cons (fun _ h => nomatch h) rfl (.cons trivial rfl .refl))))
  have hrun : Run State.step Serial (State.init 0) [.beginReload 0 1, .storeRouter 0,
      .loadRouter 0, .loadServices 0, .loadMiddlewares 0] _ :=
    .cons (fun _ => rfl) rfl (.cons trivial rfl (.cons trivial rfl (.cons trivial rfl
      (.cons trivial rfl .refl))))
  refine ⟨⟨_, _, rfl, hduring, rfl, rfl, ?_⟩, ⟨_, hrun, rfl, ?_⟩⟩
  · exact ((request_configs 0 0 0 0 0).2 _ _ _ _ _ .refl (fun _ => rfl) rfl hduring rfl).1
  · exact (request_configs 0 0 1 0 0).1 _ _ hrun rfl

/-- The request comes between the first two stores of a reload: new routes, old services
and an old registry. -/
theorem request_torn :
    ∃ t, Run State.step Serial (State.init 0) [.beginReload 0 1, .storeRouter 0, .loadRouter 0,
      .loadServices 0, .loadMiddlewares 0] t ∧ t.requests 0 = .handled 1 0 0 := by
  refine ⟨_, .cons ?_ rfl (.cons trivial rfl (.cons trivial rfl (.cons trivial rfl
    (.cons trivial rfl .refl)))), rfl⟩
  intro i
  rfl

end Reload

end TrafficCop
