import TrafficCop.Rust.Core
import TrafficCop.Rust.Text

/-!
# The pending ACME challenges

`AcmeClient::process_authorization` and `wait_for_challenge_valid` (`tls/acme/client.rs`), on the
map that the HTTP-01 handler answers from. The replies to the signed requests come from a sequence;
a request that fails for its nonce or signature is one without a body. How bodies are read, and the
key authorization of a token, are parameters.
-/

namespace TrafficCop

open Rust

structure AcmeChallenge where
  challengeType : Text
  url : Text
  token : Text
  status : Text

/-- `struct AcmeAuthorization`, without the identifier. -/
structure AcmeAuthorization where
  status : Text
  challenges : List AcmeChallenge

structure PendingChallenge where
  token : Text
  keyAuthorization : Text
  deriving DecidableEq

/-- What `signed_request` returns, with the body behind the response. -/
abbrev AcmeReply := Except Text (List UInt8)

/-- `response.json()` for the two kinds of bodies, and `get_key_authorization`. -/
structure AcmeCrates where
  readAuthorization : List UInt8 → Except Text AcmeAuthorization
  readChallenge : List UInt8 → Except Text AcmeChallenge
  keyAuthorization : Text → Except Text Text

namespace AcmeClient

section Calls

variable (crates : AcmeCrates) (replies : ℕ → AcmeReply)

/-- The loop of `AcmeClient::wait_for_challenge_valid`, with the polls left and the number of the
next reply. -/
def pollChallenge : ℕ → ℕ → Except Text Unit
  | 0, _ => .error "Challenge validation timed out"
  | attempts + 1, k =>
    match (replies k).bind crates.readChallenge with
    | .error e => .error e
    | .ok challenge =>
      if challenge.status = "valid" then .ok ()
      else if challenge.status = "invalid" then .error "Challenge failed"
      -- all other statuses are only logged
      else pollChallenge attempts (k + 1)

/-- `AcmeClient::wait_for_challenge_valid`, behind two other requests. -/
def waitForChallengeValid : Except Text Unit := pollChallenge crates replies 30 2

/-- The beginning of `AcmeClient::process_authorization`: the challenge to register, if it gets so
far. -/
def challengeFor : Except Text (Option PendingChallenge) := do
  let authz ← crates.readAuthorization (← replies 0)
  if authz.status = "valid" then return none
  match authz.challenges.find? fun c => c.challengeType = "http-01".toList with
  | none => .error "No HTTP-01 challenge available"
  | some challenge =>
    if challenge.status = "valid" then return none
    return some ⟨challenge.token, ← crates.keyAuthorization challenge.token⟩

/-- The challenge is put into the map before the server is told, and taken out behind the last `?`.
-/
def processAuthorization (pending : HashMap Text PendingChallenge) :
    HashMap Text PendingChallenge × Except Text Unit :=
  match challengeFor crates replies with
  | .error e => (pending, .error e)
  | .ok none => (pending, .ok ())
  | .ok (some challenge) =>
    -- "Register pending challenge"
    let registered := pending.insert challenge.token challenge
    -- "Tell ACME server we're ready", then "Poll for challenge completion"
    match (do let _ ← replies 1; waitForChallengeValid crates replies) with
    | .error e => (registered, .error e)
    -- "Clean up pending challenge"
    | .ok () => (registered.erase challenge.token, .ok ())

/-- A reply with a challenge of such a status. -/
def Says (p : Text → Prop) (reply : AcmeReply) : Prop :=
  ∃ challenge, reply.bind crates.readChallenge = .ok challenge ∧ p challenge.status

/-- The server has not decided yet. -/
def Undecided (status : Text) : Prop := status ≠ "valid" ∧ status ≠ "invalid"

end Calls

variable {crates : AcmeCrates} {replies : ℕ → AcmeReply} {pending : HashMap Text PendingChallenge}

lemma pollChallenge_eq_ok_iff {attempts k : ℕ} :
    pollChallenge crates replies attempts k = .ok () ↔
      ∃ n < attempts, (∀ i < n, Says crates Undecided (replies (k + i))) ∧
        Says crates (· = "valid") (replies (k + n)) := by
  induction attempts generalizing k with
  | zero => simp [pollChallenge]
  | succ attempts ih =>
    -- the first poll decides, or the others do behind it
    have hsplit : (∃ n < attempts + 1, (∀ i < n, Says crates Undecided (replies (k + i))) ∧
        Says crates (· = "valid") (replies (k + n))) ↔
        Says crates (· = "valid") (replies k) ∨ Says crates Undecided (replies k) ∧
          ∃ n < attempts, (∀ i < n, Says crates Undecided (replies (k + 1 + i))) ∧
            Says crates (· = "valid") (replies (k + 1 + n)) := by
      simp only [Nat.exists_lt_succ_left, Nat.forall_lt_succ_left, Nat.add_zero, Nat.not_lt_zero,
        false_implies, implies_true, true_and, Nat.add_assoc, Nat.add_comm 1, ← exists_and_left]
      simp only [and_left_comm, and_assoc]
    rw [hsplit, ← ih, pollChallenge]
    cases hread : (replies k).bind crates.readChallenge with
    | error e => simp [Says, hread]
    | ok challenge =>
      have hstatus (p : Text → Prop) : Says crates p (replies k) ↔ p challenge.status := by
        simp [Says, hread]
      rw [hstatus, hstatus, Undecided]
      dsimp only
      by_cases hvalid : challenge.status = "valid"
      · rw [if_pos hvalid]
        exact iff_of_true rfl (.inl hvalid)
      · rw [if_neg hvalid, or_iff_right hvalid]
        by_cases hinvalid : challenge.status = "invalid"
        · rw [if_pos hinvalid]
          exact iff_of_false (fun h => by cases h) fun h => h.1.2 hinvalid
        · rw [if_neg hinvalid]
          exact (and_iff_right ⟨hvalid, hinvalid⟩).symm

/-- The server is told that the challenge is ready, and the first of 30 polls with an outcome says
`valid`. -/
def Validated (crates : AcmeCrates) (replies : ℕ → AcmeReply) : Prop :=
  (∃ body, replies 1 = .ok body) ∧ ∃ n < 30, (∀ i < n, Says crates Undecided (replies (2 + i))) ∧
    Says crates (· = "valid") (replies (2 + n))

lemma finished_iff : (do let _ ← replies 1; waitForChallengeValid crates replies) = .ok () ↔
    Validated crates replies := by
  rw [Validated, ← pollChallenge_eq_ok_iff, ← waitForChallengeValid]
  cases replies 1 with
  | error e => exact iff_of_false (fun h => by cases h) fun h => by cases h.1.choose_spec
  | ok body => exact (and_iff_right ⟨body, rfl⟩).symm

/-- **When the challenges are cleaned up**: with a fresh token, the map is what it was exactly if
no challenge was registered or the server has validated it. -/
theorem challenges_restored_iff (crates : AcmeCrates) (replies : ℕ → AcmeReply)
    (pending : HashMap Text PendingChallenge)
    (hfresh : ∀ c, challengeFor crates replies = .ok (some c) → pending.get c.token = none) :
    (∀ token, (processAuthorization crates replies pending).1.get token = pending.get token) ↔
      ((∃ c, challengeFor crates replies = .ok (some c)) → Validated crates replies) := by
  unfold processAuthorization
  split
  · next h => simp [h]
  · next h => simp [h]
  · next challenge h =>
    have hnone := hfresh challenge h
    rw [← finished_iff, forall_prop_of_true ⟨challenge, h⟩]
    split
    · next e hfails =>
      refine iff_of_false (fun hsame => ?_) (by rw [hfails]; exact fun h => by cases h)
      have hsame := (hsame challenge.token).symm.trans (HashMap.get_insert.trans (if_pos rfl))
      rw [hnone] at hsame
      cases hsame
    · next hends =>
      refine iff_of_true (fun token => ?_) hends
      rw [HashMap.get_erase, HashMap.get_insert]
      split
      · next heq => rw [heq, hnone]
      · rfl

/-- Bodies that are the status of an authorization and its challenge, or of a challenge. -/
def statusBodies : AcmeCrates where
  readAuthorization body :=
    let status := body.map fun b => Char.ofNat b.toNat
    .ok ⟨status, [⟨"http-01", "https://ca/c", "tok", status⟩]⟩
  readChallenge body := .ok ⟨"http-01", "https://ca/c", "tok", body.map fun b => Char.ofNat b.toNat⟩
  keyAuthorization token := .ok token

def pendingThen (status : String) : ℕ → AcmeReply
  | 0 => .ok (asBytes "pending")
  | _ => .ok (asBytes status.toList)

theorem challenges_restored_valid :
    (processAuthorization statusBodies (pendingThen "valid") .empty).1.get "tok" = none := by
  have hvalid : Says statusBodies (· = "valid") (pendingThen "valid" 2) :=
    ⟨_, rfl, by decide +kernel⟩
  exact (challenges_restored_iff statusBodies (pendingThen "valid") .empty fun _ _ => rfl).mpr
    (fun _ => ⟨⟨_, rfl⟩, 0, by decide, fun i hi => absurd hi (Nat.not_lt_zero i), hvalid⟩) _

/-- The server refuses the challenge, and it stays pending. -/
theorem challenge_left_behind :
    let r := processAuthorization statusBodies (pendingThen "invalid") .empty
    r.2 = .error "Challenge failed".toList ∧
      r.1.get "tok".toList = some ⟨"tok".toList, "tok".toList⟩ := by
  decide +kernel

end AcmeClient

end TrafficCop
