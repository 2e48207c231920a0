import TrafficCop.Lib.Transition
import TrafficCop.Rust.Text

/-!
# The configuration watcher

`ConfigWatcher::watch` of `config/watcher.rs`, as a system in time: the file is written, the
operating system reports it, and the loop takes the reports out of its channel. Times are in
nanoseconds, as those of `Instant`. The loop ends when nobody is subscribed any more (`tx.send`
fails); here there always is a subscriber, as in the server.

What is written after a load and reported within 200 ms of the last report is never read.
-/

namespace TrafficCop

open Rust Transition List Option

inductive EventKind where
  | any
  | access
  | create
  | modify
  | remove
  | other
  deriving Repr, DecidableEq

/-- `notify::Event`, with the file names of its paths. -/
structure WatchEvent where
  kind : EventKind
  fileNames : List (Option Text)
  deriving Repr, DecidableEq

/-- The tests on the kind and on the paths. -/
def WatchEvent.concerns (event : WatchEvent) (configFilename : Text) : Bool :=
  (event.kind == .modify || event.kind == .create) &&
    event.fileNames.any (· == some configFilename)

namespace ConfigWatcher

def millis (n : ℕ) : ℕ := n * 1000000

def debounceDuration : ℕ := millis 200

/-- The file, the channel, the loop, and what subscribers were sent. -/
structure State (File Config : Type) where
  now : ℕ
  file : File
  /-- What was written since the start, in order. -/
  written : List File
  /-- There was a report after the last write. -/
  reported : Bool
  /-- The channel; `none` is an error of the watcher. -/
  queue : List (Option WatchEvent)
  lastEvent : ℕ
  /-- The end of the sleep, while the loop sleeps. -/
  sleeping : Option ℕ
  /-- How many writes there were at the last load. -/
  loaded : ℕ
  broadcasts : List Config
  deriving Repr, DecidableEq

/-- The file, the operating system and the loop take turns. -/
inductive Action (File : Type) where
  | advance (nanos : ℕ)
  | write (content : File)
  | report (event : Option WatchEvent)
  /-- The loop takes a report out of the channel. -/
  | receive
  /-- The sleep ends and the file is loaded. -/
  | wake
  deriving Repr, DecidableEq

section

variable {File Config : Type} (load : File → Option Config) (configFilename : Text)

/-- `load` is `Config::load` with the validation. -/
def start (now : ℕ) (file : File) : State File Config where
  now := now
  file := file
  written := []
  reported := true
  queue := []
  lastEvent := now
  sleeping := none
  loaded := 0
  broadcasts := []

def concerning (event : Option WatchEvent) : Bool :=
  event.any fun event => event.concerns configFilename

/-- A report that comes so soon after the last one acted on is dropped. -/
def tooSoon (s : State File Config) : Bool := s.now - s.lastEvent < debounceDuration

/-- What the loop does when it has slept for 100 ms. -/
def reload (s : State File Config) : State File Config :=
  { s with
    sleeping := none
    loaded := s.written.length
    broadcasts := s.broadcasts ++ (load s.file).toList }

def step (s : State File Config) : Action File → Option (State File Config)
  | .advance nanos => some { s with now := s.now + nanos }
  | .write content =>
    some { s with file := content, written := s.written ++ [content], reported := false }
  | .report event =>
    some { s with
      queue := s.queue ++ [event]
      reported := s.reported || concerning configFilename event }
  | .receive =>
    match s.sleeping, s.queue with
    | none, event :: queue =>
      if concerning configFilename event then
        if tooSoon s then some { s with queue := queue }
        else
          some { s with queue := queue, lastEvent := s.now, sleeping := some (s.now + millis 100) }
      else some { s with queue := queue }
    | _, _ => none
  | .wake =>
    match s.sleeping with
    | some wakeAt => if wakeAt ≤ s.now then some (reload load s) else none
    | none => none

variable {load configFilename} {s s' : State File Config}

lemma step_receive (h : step load configFilename s .receive = some s') :
    ∃ event queue, s.sleeping = none ∧ s.queue = event :: queue ∧
      ((concerning configFilename event → tooSoon s) ∧
          s' = { s with queue := queue } ∨
        s' = { s with
          queue := queue, lastEvent := s.now, sleeping := some (s.now + millis 100) }) := by
  rw [step] at h
  split at h
  · next event queue hsleep hqueue =>
    refine ⟨event, queue, hsleep, hqueue, ?_⟩
    split at h
    · split at h
      · next hsoon => exact .inl ⟨fun _ => hsoon, (some.inj h).symm⟩
      · exact .inr (some.inj h).symm
    · next hother =>
      exact .inl ⟨fun hconcerns => absurd hconcerns hother, (some.inj h).symm⟩
  · cases h

lemma step_wake (h : step load configFilename s .wake = some s') : s' = reload load s := by
  rw [step] at h
  split at h
  · split at h
    · exact (some.inj h).symm
    · cases h
  · cases h

variable (configFilename) in
/-- A report is dropped only if no write has come since the last load, or another report is still to
come. -/
def DropsNoWrite (s : State File Config) (a : Action File) : Prop :=
  a = .receive → ∀ event queue, s.queue = event :: queue →
    concerning configFilename event = true → tooSoon s = true →
      s.loaded = s.written.length ∨ s.reported = false ∨
        ∃ event' ∈ queue, concerning configFilename event' = true

/-- Nothing is on its way. -/
structure Settled (s : State File Config) : Prop where
  reported : s.reported = true
  queue : s.queue = []
  awake : s.sleeping = none

variable (load configFilename) in
/-- The invariant as long as no write is dropped. -/
structure Good (s : State File Config) : Prop where
  loaded_le : s.loaded ≤ s.written.length
  file : ∀ content, s.written.getLast? = some content → s.file = content
  pending : s.loaded ≠ s.written.length → s.reported = false ∨
    (∃ event ∈ s.queue, concerning configFilename event = true) ∨ s.sleeping.isSome
  sent : s.loaded = s.written.length → s.written ≠ [] →
    ∀ config, load s.file = some config → s.broadcasts.getLast? = some config

lemma good_start (now : ℕ) (file : File) :
    Good load configFilename (start now file : State File Config) :=
  ⟨le_rfl, nofun, fun h => absurd rfl h, fun _ h => absurd rfl h⟩

lemma good_step {a : Action File} (h : Good load configFilename s)
    (hdrops : DropsNoWrite configFilename s a) (hstep : step load configFilename s a = some s') :
    Good load configFilename s' := by
  cases a with
  | advance nanos =>
    obtain rfl := some.inj hstep
    exact ⟨h.loaded_le, h.file, h.pending, h.sent⟩
  | write content =>
    obtain rfl := some.inj hstep
    refine ⟨?_, ?_, fun _ => .inl rfl, fun heq => ?_⟩
    · rw [length_append]
      exact h.loaded_le.trans (Nat.le_add_right _ _)
    · intro content' hlast
      rw [getLast?_concat] at hlast
      exact some.inj hlast
    · -- the new write has not been loaded
      have hle := h.loaded_le
      simp only [length_append, length_singleton] at heq
      omega
  | report event =>
    obtain rfl := some.inj hstep
    refine ⟨h.loaded_le, h.file, fun hne => ?_, h.sent⟩
    rcases h.pending hne with hreported | ⟨event', hmem, hconcerns⟩ | hsleep
    · cases hconcerns : concerning configFilename event with
      | true => exact .inr (Or.inl ⟨event, mem_append_right _ (by simp), hconcerns⟩)
      | false => exact .inl (Bool.or_eq_false_iff.mpr ⟨hreported, rfl⟩)
    · exact .inr (Or.inl ⟨event', mem_append_left _ hmem, hconcerns⟩)
    · exact .inr (Or.inr hsleep)
  | receive =>
    obtain ⟨event, queue, hsleep, hqueue, ⟨hdropped, rfl⟩ | rfl⟩ := step_receive hstep
    · refine ⟨h.loaded_le, h.file, fun hne => ?_, h.sent⟩
      rcases h.pending hne with hreported | ⟨event', hmem, hconcerns⟩ | hasleep
      · exact .inl hreported
      · rw [hqueue] at hmem
        rcases mem_cons.mp hmem with rfl | hmem
        · -- the report of a write that no load has seen, so there must be another one
          rcases hdrops rfl _ _ hqueue hconcerns (hdropped hconcerns) with heq | hother
          · exact absurd heq hne
          · exact hother.imp_right Or.inl
        · exact .inr (Or.inl ⟨event', hmem, hconcerns⟩)
      · rw [hsleep] at hasleep
        cases hasleep
    · exact ⟨h.loaded_le, h.file, fun _ => .inr (Or.inr rfl), h.sent⟩
  | wake =>
    obtain rfl := step_wake hstep
    refine ⟨le_rfl, h.file, fun hne => absurd rfl hne, fun _ _ config hload => ?_⟩
    have hload : load s.file = some config := hload
    rw [reload, hload]
    exact getLast?_concat

/-- **The last configuration written is broadcast last**, once all reports have been processed,
if the last report was not dropped while a write was waiting to be loaded. -/
theorem watcher_loses_no_update {now : ℕ} {file : File} {actions : List (Action File)}
    (hrun : Run (step load configFilename) (DropsNoWrite configFilename)
      (start now file : State File Config) actions s)
    (hsettled : Settled s) {content : File} (hlast : s.written.getLast? = some content)
    {config : Config} (hvalid : load content = some config) :
    s.broadcasts.getLast? = some config := by
  have hgood : Good load configFilename s :=
    hrun.invariant (good_start now file) fun _ _ _ h => good_step h
  have hloaded : s.loaded = s.written.length := by
    by_contra hne
    rcases hgood.pending hne with hreported | ⟨event, hmem, -⟩ | hsleep
    · rw [hsettled.reported] at hreported
      cases hreported
    · rw [hsettled.queue] at hmem
      cases hmem
    · rw [hsettled.awake] at hsleep
      cases hsleep
  have hwritten : s.written ≠ [] := by
    intro hnil
    rw [hnil] at hlast
    cases hlast
  refine hgood.sent hloaded hwritten config ?_
  rw [hgood.file content hlast]
  exact hvalid

end

def changed : Option WatchEvent := some ⟨.modify, [some "config.yaml"]⟩

def oneWrite : List (Action ℕ) :=
  [.advance (millis 300), .write 1, .report changed, .report changed, .receive,
    .advance (millis 100), .wake, .receive]

def afterOneWrite : State ℕ ℕ :=
  { (start (millis 400) 1 : State ℕ ℕ) with
    written := [1], lastEvent := millis 300, loaded := 1, broadcasts := [1] }

def dropsNoWrite (s : State ℕ ℕ) : Action ℕ → Bool
  | .receive => !tooSoon s || s.loaded == s.written.length
  | _ => true

lemma dropsNoWrite_sound (s : State ℕ ℕ) (a : Action ℕ) (h : dropsNoWrite s a) :
    DropsNoWrite "config.yaml" s a := by
  rintro rfl event queue - - hsoon
  exact .inl (by simpa [dropsNoWrite, hsoon] using h)

theorem watcher_loses_no_update_oneWrite :
    Run (step some "config.yaml") (DropsNoWrite "config.yaml") (start 0 0) oneWrite
      afterOneWrite ∧ Settled afterOneWrite ∧ afterOneWrite.written.getLast? = some 1 ∧
      afterOneWrite.broadcasts.getLast? = some 1 := by
  have hrun : Run (step some "config.yaml") (DropsNoWrite "config.yaml") (start 0 0)
      oneWrite afterOneWrite := Run.of_guarded dropsNoWrite_sound (by decide +kernel)
  exact ⟨hrun, ⟨rfl, rfl, rfl⟩, rfl, watcher_loses_no_update hrun ⟨rfl, rfl, rfl⟩ rfl rfl⟩

/-- The second write is 150 ms after the report of the first and 50 ms after its load. -/
def twoWrites : List (Action ℕ) :=
  [.advance (millis 300), .write 1, .report changed, .receive, .advance (millis 100), .wake,
    .advance (millis 50), .write 2, .report changed, .receive]

def afterTwoWrites : State ℕ ℕ :=
  { (start (millis 450) 2 : State ℕ ℕ) with
    written := [1, 2], lastEvent := millis 300, loaded := 1, broadcasts := [1] }

/-- **The second of two writes is lost.** Its report is dropped, and there is no other. -/
theorem second_write_lost :
    Run (step some "config.yaml") (fun _ _ => True) (start 0 0) twoWrites afterTwoWrites ∧
      Settled afterTwoWrites ∧ afterTwoWrites.written.getLast? = some 2 ∧
      afterTwoWrites.broadcasts.getLast? = some 1 :=
  ⟨Run.of_foldlM (by decide +kernel), ⟨rfl, rfl, rfl⟩, rfl, rfl⟩

end ConfigWatcher

end TrafficCop
