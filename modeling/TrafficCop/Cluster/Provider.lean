import Mathlib.Data.Set.Basic
import TrafficCop.Config.Duration
import TrafficCop.Http.Headers
import TrafficCop.Lib.Transition

/-!
# Configurations from a provider

`HttpConfigProvider::fetch` and `ConfigProviderManager::poll_provider` (`cluster/provider.rs`).
`serde_yml` and the validation are parameters.

The ETag is stored when the headers are there, before the body is read, and a response without one
leaves the old one where it is. So the provider can remember an ETag whose content it has never
returned, and a server that answers 304 to it has no reason to send the content again.
-/

namespace TrafficCop

open Rust Http List Option HeaderValue

/-! ## Fetching -/

/-- What becomes of a request. -/
inductive ConfigReply where
  | failed (e : Text)
  | response (status : ℕ) (etag : Option HeaderValue) (body : Except Text Text)

namespace ConfigReply

def isSuccess (status : ℕ) : Bool := 200 ≤ status && status < 300

def etagText : ConfigReply → Option Text
  | .failed _ => none
  | .response _ etag _ => etag.bind toStr

end ConfigReply

namespace HttpConfigProvider

open ConfigReply

/-- `HttpConfigProvider::fetch`; the remembered ETag goes out as `If-None-Match`, and `Display` of a
status. -/
def fetch (display : ℕ → Text) (lastEtag : Option Text) :
    ConfigReply → Option Text × Except Text Text
  | .failed e => (lastEtag, .error ("HTTP request failed: " ++ e))
  | .response status etag body =>
    if status = 304 then (lastEtag, .error "Config not modified")
    else if isSuccess status = false then
      (lastEtag, .error ("HTTP request failed with status: " ++ display status))
    else
      -- "Store ETag for next request"
      let lastEtag := (etag.bind toStr).or lastEtag
      match body with
      | .error e => (lastEtag, .error ("Failed to read response body: " ++ e))
      | .ok content => (lastEtag, .ok content)

/-- The remembered ETag, and the last content that was returned, with its ETag. -/
structure Fetched where
  lastEtag : Option Text := none
  last : Option (Option Text × Text) := none

def next (display : ℕ → Text) (s : Fetched) (reply : ConfigReply) : Fetched :=
  let r := fetch display s.lastEtag reply
  match r.2 with
  | .ok content => ⟨r.1, some (reply.etagText, content)⟩
  | .error _ => ⟨r.1, s.last⟩

/-- The provider behind a sequence of replies. -/
def fetches (display : ℕ → Text) (replies : List ConfigReply) : Fetched :=
  replies.foldl (next display) {}

/-- The ETag is that of the content returned last. -/
def Remembers (s : Fetched) : Prop := s.lastEtag = s.last.bind Prod.fst

/-- A success whose body fails brings no new ETag; one with a body brings one if there is an old
one. -/
def Keeps (s : Fetched) : ConfigReply → Prop
  | .failed _ => True
  | .response status etag body =>
    isSuccess status = true → match body with
      | .error _ => ∀ text, etag.bind toStr = some text → s.lastEtag = some text
      | .ok _ => etag.bind toStr = none → s.lastEtag = none

/-- The replies have the contents that belong to their ETags. -/
def Serves (content : Text → Text) (replies : List ConfigReply) : Prop :=
  ∀ status etag body text, .response status etag (.ok body) ∈ replies →
    etag.bind toStr = some text → body = content text

variable {display : ℕ → Text} {s : Fetched}

lemma remembers_next (h : Remembers s) (reply : ConfigReply) :
    Remembers (next display s reply) ↔ Keeps s reply := by
  unfold next
  fun_cases fetch with
  | case1 e => exact iff_of_true h trivial
  | case2 etag body => exact iff_of_true h fun hsuccess => absurd hsuccess (by decide)
  | case3 status etag body _ hstatus =>
    exact iff_of_true h fun hsuccess => absurd (hstatus.symm.trans hsuccess) Bool.false_ne_true
  | case4 status etag _ hstatus lastEtag e =>
    rw [Bool.not_eq_false] at hstatus
    simp only [Keeps, forall_prop_of_true hstatus, Remembers]
    rw [← show s.lastEtag = s.last.bind Prod.fst from h]
    cases htext : etag.bind toStr with
    | none => simp [lastEtag, htext]
    | some text => simp [lastEtag, htext, eq_comm]
  | case5 status etag _ hstatus lastEtag content =>
    rw [Bool.not_eq_false] at hstatus
    simp only [Keeps, forall_prop_of_true hstatus, Remembers, etagText, bind_some]
    cases htext : etag.bind toStr with
    | none => simp [lastEtag, htext]
    | some text => simp [lastEtag, htext]

lemma last_of_fetches {replies : List ConfigReply} {etag : Option Text} {content : Text}
    (h : (fetches display replies).last = some (etag, content)) :
    ∃ status value, .response status value (.ok content) ∈ replies ∧ value.bind toStr = etag := by
  induction replies using List.reverseRecOn with
  | nil => cases h
  | append_singleton replies reply ih =>
    have hold (h : (fetches display replies).last = some (etag, content)) :
        ∃ status value, .response status value (.ok content) ∈ replies ++ [reply] ∧
          value.bind toStr = etag := by
      obtain ⟨status, value, hmem, hvalue⟩ := ih h
      exact ⟨status, value, mem_append_left _ hmem, hvalue⟩
    rw [fetches, foldl_append, ← fetches, foldl_cons, foldl_nil] at h
    unfold next at h
    revert h
    fun_cases fetch with
    | case5 status value _ _ _ content' =>
      rintro ⟨⟩
      exact ⟨status, value, by simp, rfl⟩
    | _ => exact hold

/-- **When the remembered ETag is that of the last content**, after every fetch; as long as it is,
and the server has one content for an ETag, a 304 to the remembered ETag means that the provider
has returned what the server has. -/
theorem etag_remembered_iff (display : ℕ → Text) (replies : List ConfigReply) :
    ((∀ before, before <+: replies → Remembers (fetches display before)) ↔
      ∀ before reply, before ++ [reply] <+: replies → Keeps (fetches display before) reply) ∧
    ((∀ before, before <+: replies → Remembers (fetches display before)) →
      ∀ content, Serves content replies → ∀ before, before <+: replies → ∀ text,
        (fetches display before).lastEtag = some text →
          (fetches display before).last = some (some text, content text)) := by
  have hstart : Remembers {} := rfl
  refine ⟨Transition.throughout_iff hstart
    (fun _ reply h => remembers_next h reply) replies, ?_⟩
  intro h content hserves before hbefore text htext
  obtain ⟨⟨etag, body⟩, hlast, rfl⟩ :=
    bind_eq_some_iff.mp ((h before hbefore).symm.trans htext)
  obtain ⟨status, value, hmem, hvalue⟩ := last_of_fetches hlast
  rw [hlast, hserves status value body text (hbefore.subset hmem) hvalue]

def tag (c : Char) (h : (asBytes [c]).all isValidByte = true) : Option HeaderValue :=
  some ⟨asBytes [c], isValidByte_of_all h⟩

/-- The second configuration never comes: its ETag is remembered when its body fails. -/
theorem etag_ahead :
    let replies := [.response 200 (tag 'a' (by decide)) (.ok "v1"),
      .response 200 (tag 'b' (by decide)) (.error "timeout"), .response 304 none (.ok [])]
    (fetches (fun _ => []) replies).lastEtag = some ['b'] ∧
      (fetches (fun _ => []) replies).last = some (some ['a'], "v1".toList) := by
  decide +kernel

end HttpConfigProvider

/-! ## Polling -/

/-- A configuration: the duration at each place that has one, and the rest. -/
structure PolledConfig (ρ κ : Type) where
  rest : ρ
  durations : κ → Option ℕ

/-- `serde_yml::to_string` of the texts of the durations, which can be read back. -/
structure YamlCrate (ρ κ : Type) where
  text : ρ → (κ → Option Text) → Text
  injective : ∀ {r r' f f'}, text r f = text r' f' → f = f'

namespace ConfigProviderManager

open Duration

variable {ρ κ : Type}

def toYaml (yaml : YamlCrate ρ κ) (config : PolledConfig ρ κ) : Text :=
  yaml.text config.rest fun k => (config.durations k).map display

/-- `poll_provider`, with what was fetched: the current configuration, and what the callback gets.
-/
def pollProvider {γ : Type} (fromYaml : Text → Except Text γ) (validate : γ → Except Text Unit)
    (toYaml : γ → Text) (current : Option γ) (fetched : Except Text Text) :
    Option γ × Option γ × Except Text Unit :=
  match fetched with
  | .error e => (current, none, .error e)
  | .ok content =>
    match fromYaml content with
    | .error e => (current, none, .error ("Failed to parse config: " ++ e))
    | .ok new =>
      match validate new with
      | .error e => (current, none, .error ("Config validation failed: " ++ e))
      | .ok () =>
        if current.all fun c => toYaml c ≠ toYaml new then (some new, some new, .ok ())
        else (current, none, .ok ())

/-- A valid configuration with other durations, all among these, is applied. -/
def DetectsChanges (yaml : YamlCrate ρ κ) (D : Set ℕ) : Prop :=
  ∀ fromYaml validate content (current new : PolledConfig ρ κ),
    fromYaml content = .ok new → validate new = .ok () →
    (∀ k d, current.durations k = some d ∨ new.durations k = some d → d ∈ D) →
    current.durations ≠ new.durations →
    pollProvider fromYaml validate (toYaml yaml) (some current) (.ok content) =
      (some new, some new, .ok ())

/-- **When every change of a duration is detected**: no two of the durations in use are equal up to
the smallest unit printed, which is when their texts differ. -/
theorem duration_changes_iff (yaml : YamlCrate ρ κ) (D : Set ℕ) :
    ((∀ d ∈ D, ∀ d' ∈ D, display d = display d' → d = d') ∧ DetectsChanges yaml D) ↔
      ∀ d ∈ D, ∀ d' ∈ D, truncated d = truncated d' → d = d' := by
  simp only [display_eq_iff]
  refine and_iff_left_of_imp fun hinj => ?_
  intro fromYaml validate content current new hparse hvalid hmem hne
  have hchanged : toYaml yaml current ≠ toYaml yaml new := by
    intro htext
    refine hne (funext fun k => ?_)
    have hk := congrFun (yaml.injective htext) k
    cases hc : current.durations k with
    | none => exact (map_eq_none_iff.mp (hk.symm.trans (by rw [hc, map_none]))).symm
    | some d =>
      rw [hc, map_some, eq_comm, map_eq_some_iff] at hk
      obtain ⟨d', hn, htext⟩ := hk
      rw [hn, hinj d (hmem k d (.inl hc)) d' (hmem k d' (.inr hn)) (display_eq_iff.mp htext.symm)]
  simp [pollProvider, hparse, hvalid, hchanged]

def oneField : YamlCrate Unit Unit where
  text _ f := ((f ()).map ('t' :: ·)).getD []
  injective {_ _ f f'} h := by
    refine funext fun k => ?_
    cases hf : f k <;> cases hf' : f' k <;> simp_all

/-- A second and a half is printed as a second, and does not replace it. -/
theorem half_second_lost :
    display 1500000000 = display 1000000000 ∧
      (pollProvider (fun _ => .ok ⟨(), fun _ => some 1500000000⟩) (fun _ => .ok ())
        (toYaml oneField) (some ⟨(), fun _ => some 1000000000⟩) (.ok [])).1.map (·.durations ()) =
        some (some 1000000000) := by
  decide +kernel

end ConfigProviderManager

end TrafficCop
