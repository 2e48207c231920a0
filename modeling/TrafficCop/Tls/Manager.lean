import TrafficCop.Tls.Coverage

/-!
# Obtaining the certificates

`AcmeManager::ensure_certificates` of `tls/acme/manager.rs`. A turn of its loop looks up the first
name of a domain set and orders a certificate for the whole set if it finds none, or one that needs
renewal. What the order brings, and the iteration order of the map, are given with the turn. The
clock stands still.
-/

namespace TrafficCop

open Rust List Outcome

/-- What the certificate authority gives for an order. -/
structure Issued where
  certificatePem : Text
  privateKeyPem : Text
  notAfter : ℕ
  notBefore : ℕ
  deriving Repr, DecidableEq

/-- The certificate that `order_certificate` stores. -/
def Issued.certificate (issued : Issued) (primary : Text) (domains : List Text) :
    StoredCertificate where
  domain := primary
  domains := domains
  certificatePem := issued.certificatePem
  privateKeyPem := issued.privateKeyPem
  notAfter := issued.notAfter
  notBefore := issued.notBefore

/-- One turn: the domain set, the iteration order, and what an order would bring. -/
structure Turn where
  domains : List Text
  view : (certs : Certificates) → { certs' : Certificates // certs.Reordered certs' }
  order : Option Issued

/-- `order_certificate` stores what it obtains under the first name, and a failed order is only
logged. -/
def obtainCertificate (certs : Certificates) (turn : Turn) (primary : Text) : Certificates :=
  match turn.order with
  | some issued => certs.storeCertificate (issued.certificate primary turn.domains)
  | none => certs

namespace AcmeManager

variable (renew : StoredCertificate → Bool)

/-- The body of the loop; `renew` is `needs_renewal` at the time of the call. -/
def ensureTurn (certs : Certificates) (turn : Turn) : Outcome Empty Certificates :=
  match turn.domains with
  | [] => .ok certs
  | primary :: _ => do
    -- "Check if we already have a valid certificate"
    match ← Certificates.getCertificate (turn.view certs) primary with
    | some cert =>
      if !renew cert then return certs
      else return obtainCertificate certs turn primary
    | none => return obtainCertificate certs turn primary

/-- Other names than the first are not looked at, so a set is passed over where that one has a
certificate from elsewhere. -/
def ensureCertificates (certs : Certificates) (turns : List Turn) :
    Outcome Empty Certificates :=
  turns.foldlM (ensureTurn renew) certs

/-! ## One turn -/

/-- The first name has no certificate, or one that needs renewal. -/
def missing (certs : Certificates) (turn : Turn) : Outcome Empty Bool :=
  match turn.domains with
  | [] => .ok false
  | primary :: _ => do
    match ← Certificates.getCertificate (turn.view certs) primary with
    | some cert => return renew cert
    | none => return true

lemma ensureTurn_cases (certs : Certificates) (turn : Turn) :
    missing renew certs turn = .ok false ∧ ensureTurn renew certs turn = .ok certs ∨
    missing renew certs turn = .ok true ∧
      ensureTurn renew certs turn = .ok (obtainCertificate certs turn (turn.domains.headD [])) ∨
    missing renew certs turn = .panic ∧ ensureTurn renew certs turn = .panic := by
  obtain ⟨domains, view, order⟩ := turn
  cases domains with
  | nil => exact .inl ⟨rfl, rfl⟩
  | cons primary domains =>
    simp only [missing, ensureTurn, headD_cons]
    rcases Certificates.getCertificate (view certs).1 primary with (_ | cert) | e | _
    · exact .inr (Or.inl ⟨rfl, rfl⟩)
    · simp only [ok_bind, pure_eq]
      cases renew cert with
      | false => exact .inl ⟨rfl, rfl⟩
      | true => exact .inr (Or.inl ⟨rfl, rfl⟩)
    · exact e.elim
    · exact .inr (Or.inr ⟨rfl, rfl⟩)

/-- A certificate in the storage that needs no renewal. -/
def Valid (certs : Certificates) (cert : StoredCertificate) : Prop :=
  cert ∈ certs.values ∧ renew cert = false

/-- The turn orders this certificate, and it does not need renewal at once. -/
def Orders (certs : Certificates) (turn : Turn) (cert : StoredCertificate) : Prop :=
  missing renew certs turn = .ok true ∧
    ∃ issued, turn.order = some issued ∧
      cert = issued.certificate (turn.domains.headD []) turn.domains ∧
      renew cert = false

/-- The turn is taken, and the store is `certs'` then. -/
inductive Taken (renew : StoredCertificate → Bool) :
    Certificates → List Turn → Turn → Certificates → Prop
  | here (certs turn turns) : Taken renew certs (turn :: turns) turn certs
  | there {certs certs₁ certs' first turns turn} : ensureTurn renew certs first = .ok certs₁ →
      Taken renew certs₁ turns turn certs' → Taken renew certs (first :: turns) turn certs'

variable {renew} {certs certs' : Certificates} {turn : Turn} {turns : List Turn}

lemma renew_of_missing {cert : StoredCertificate} (h : missing renew certs turn = .ok true)
    (hget : certs.get (turn.domains.headD []) = some cert) : renew cert := by
  obtain ⟨domains, view, order⟩ := turn
  cases domains with
  | nil => cases h
  | cons primary domains =>
    simp only [missing] at h
    obtain ⟨found, hfound, hmissing⟩ := bind_eq_ok.mp h
    -- the certificate filed under the first name is the one that was found
    have hview : (view certs).1.get primary = some cert := by
      rw [(view certs).2.get_eq]
      exact hget
    rw [Certificates.getCertificate_of_get hview] at hfound
    obtain rfl := ok.inj hfound
    exact ok.inj hmissing

lemma ensureTurn_valid (h : ensureTurn renew certs turn = .ok certs')
    (cert : StoredCertificate) :
    Valid renew certs' cert ↔ Valid renew certs cert ∨ Orders renew certs turn cert := by
  obtain ⟨hhas, hturn⟩ | ⟨hmissing, hturn⟩ | ⟨-, hturn⟩ := ensureTurn_cases renew certs turn
  · -- nothing is ordered
    obtain rfl := ok.inj (hturn.symm.trans h)
    have hnone : ¬Orders renew certs turn cert := fun horders => by
      rw [Orders, hhas] at horders
      cases horders.1
    exact (or_iff_left hnone).symm
  · obtain rfl := ok.inj (hturn.symm.trans h)
    rw [obtainCertificate]
    cases horder : turn.order with
    | none =>
      have hnone : ¬Orders renew certs turn cert := by
        rintro ⟨-, issued, hissued, -⟩
        rw [horder] at hissued
        cases hissued
      exact (or_iff_left hnone).symm
    | some issued =>
      simp only [Valid, HashMap.mem_values_iff, Certificates.storeCertificate, HashMap.get_insert]
      constructor
      · rintro ⟨⟨key, hkey⟩, hfresh⟩
        split at hkey
        · next heq =>
          obtain rfl := Option.some.inj hkey
          exact .inr ⟨hmissing, issued, horder, rfl, hfresh⟩
        · exact .inl ⟨⟨key, hkey⟩, hfresh⟩
      · rintro (⟨⟨key, hkey⟩, hfresh⟩ | ⟨-, issued', hissued, rfl, hfresh⟩)
        · -- a certificate that does not need renewal is not filed where the order goes
          refine ⟨⟨key, ?_⟩, hfresh⟩
          rw [if_neg]
          · exact hkey
          · rintro rfl
            rw [renew_of_missing hmissing hkey] at hfresh
            cases hfresh
        · obtain rfl : issued = issued' := Option.some.inj (horder.symm.trans hissued)
          exact ⟨⟨turn.domains.headD [], if_pos rfl⟩, hfresh⟩
  · cases hturn.symm.trans h

/-! ## The loop -/

lemma taken_cons_iff {certs₁ : Certificates} {first : Turn}
    (hfirst : ensureTurn renew certs first = .ok certs₁) :
    Taken renew certs (first :: turns) turn certs' ↔
      turn = first ∧ certs' = certs ∨ Taken renew certs₁ turns turn certs' := by
  constructor
  · intro h
    cases h with
    | here => exact .inl ⟨rfl, rfl⟩
    | there hstep hrest =>
      obtain rfl := ok.inj (hfirst.symm.trans hstep)
      exact .inr hrest
  · rintro (⟨rfl, rfl⟩ | hrest)
    · exact .here certs' turn turns
    · exact .there hfirst hrest

lemma ensureCertificates_valid {final : Certificates}
    (h : ensureCertificates renew certs turns = .ok final) (cert : StoredCertificate) :
    Valid renew final cert ↔ Valid renew certs cert ∨
      ∃ turn certs', Taken renew certs turns turn certs' ∧ Orders renew certs' turn cert := by
  induction turns generalizing certs with
  | nil =>
    obtain rfl := ok.inj h
    refine (or_iff_left ?_).symm
    rintro ⟨turn, certs', htaken, -⟩
    cases htaken
  | cons first turns ih =>
    rw [ensureCertificates, foldlM_cons] at h
    obtain ⟨certs₁, hfirst, hrest⟩ := bind_eq_ok.mp h
    rw [ih hrest, ensureTurn_valid hfirst, or_assoc]
    refine or_congr_right ?_
    simp only [taken_cons_iff hfirst]
    constructor
    · rintro (horders | ⟨turn, certs', htaken, horders⟩)
      · exact ⟨first, certs, Or.inl ⟨rfl, rfl⟩, horders⟩
      · exact ⟨turn, certs', Or.inr htaken, horders⟩
    · rintro ⟨turn, certs', ⟨rfl, rfl⟩ | htaken, horders⟩
      · exact .inl horders
      · exact .inr ⟨turn, certs', htaken, horders⟩

lemma ensureCertificates_ends_iff :
    (∃ final, ensureCertificates renew certs turns = .ok final) ↔
      ∀ turn certs', Taken renew certs turns turn certs' → missing renew certs' turn ≠ .panic := by
  induction turns generalizing certs with
  | nil =>
    refine iff_of_true ⟨certs, rfl⟩ ?_
    intro turn certs' htaken
    cases htaken
  | cons first turns ih =>
    have hcons : ensureCertificates renew certs (first :: turns) =
        ensureTurn renew certs first >>= fun certs => ensureCertificates renew certs turns :=
      foldlM_cons
    have hgoes : ∀ certs₁, missing renew certs first ≠ .panic →
        ensureTurn renew certs first = .ok certs₁ →
        ((∃ final, ensureCertificates renew certs (first :: turns) = .ok final) ↔
          ∀ turn certs', Taken renew certs (first :: turns) turn certs' →
            missing renew certs' turn ≠ .panic) := by
      intro certs₁ hne hturn
      simp only [hcons, hturn, ok_bind, ih, taken_cons_iff hturn]
      constructor
      · rintro hrest turn certs' (⟨rfl, rfl⟩ | htaken)
        · exact hne
        · exact hrest turn certs' htaken
      · intro h turn certs' htaken
        exact h turn certs' (Or.inr htaken)
    obtain ⟨hhas, hturn⟩ | ⟨hmissing, hturn⟩ | ⟨hpanic, hturn⟩ := ensureTurn_cases renew certs first
    · exact hgoes _ (by rw [hhas]; nofun) hturn
    · exact hgoes _ (by rw [hmissing]; nofun) hturn
    · refine iff_of_false ?_ fun h => h first certs (.here certs first turns) hpanic
      rintro ⟨final, hfinal⟩
      rw [hcons, hturn] at hfinal
      cases hfinal

variable (renew) in
/-- After the call every name is covered by a certificate that needs no renewal. -/
def EnsureRight (certs : Certificates) (turns : List Turn) : Prop :=
  ∃ final, ensureCertificates renew certs turns = .ok final ∧
    ∀ turn ∈ turns, ∀ domain ∈ turn.domains, ∃ cert, Valid renew final cert ∧ Covers cert domain

variable (renew) in
/-- No lookup of a first name panics, and every name is covered by a certificate that needs no
renewal, or by what some turn orders because its first name has none. -/
def EnsureCondition (certs : Certificates) (turns : List Turn) : Prop :=
  (∀ turn certs', Taken renew certs turns turn certs' → missing renew certs' turn ≠ .panic) ∧
  ∀ turn ∈ turns, ∀ domain ∈ turn.domains, ∃ cert, Covers cert domain ∧
    (Valid renew certs cert ∨
      ∃ turn' certs', Taken renew certs turns turn' certs' ∧ Orders renew certs' turn' cert)

/-- **When the certificates are ensured.** -/
theorem ensure_certificates_iff (now : ℕ) (certs : Certificates) (turns : List Turn) :
    EnsureRight (fun cert => cert.needsRenewal now) certs turns ↔
      EnsureCondition (fun cert => cert.needsRenewal now) certs turns := by
  rw [EnsureRight, EnsureCondition, ← ensureCertificates_ends_iff]
  constructor
  · rintro ⟨final, hfinal, hcovered⟩
    refine ⟨⟨final, hfinal⟩, fun turn hturn domain hdomain => ?_⟩
    obtain ⟨cert, hvalid, hcovers⟩ := hcovered turn hturn domain hdomain
    exact ⟨cert, hcovers, (ensureCertificates_valid hfinal cert).mp hvalid⟩
  · rintro ⟨⟨final, hfinal⟩, hcovered⟩
    refine ⟨final, hfinal, fun turn hturn domain hdomain => ?_⟩
    obtain ⟨cert, hcovers, hfrom⟩ := hcovered turn hturn domain hdomain
    exact ⟨cert, (ensureCertificates_valid hfinal cert).mpr hfrom, hcovers⟩

/-- A turn for this set, whose order brings a certificate until second 2000000000. -/
def turnFor (domains : List Text) : Turn where
  domains := domains
  view certs := ⟨certs, .refl _⟩
  order := some ⟨[], [], 2000000000, 1700000000⟩

def firstOrdered : StoredCertificate :=
  Issued.certificate ⟨[], [], 2000000000, 1700000000⟩ "a.com" ["a.com"]

/-- **The second set is passed over.** Its first name has the certificate of the first set, so
nothing is ordered for `b.com`. -/
theorem second_name_not_ensured :
    ensureCertificates (fun cert => cert.needsRenewal 1700000000) .empty
        [turnFor ["a.com".toList], turnFor ["a.com".toList, "b.com".toList]] =
      .ok (.singleton "a.com".toList firstOrdered) ∧
    ¬EnsureRight (fun cert => cert.needsRenewal 1700000000) .empty
      [turnFor ["a.com".toList], turnFor ["a.com".toList, "b.com".toList]] := by
  have hrun : ensureCertificates (fun cert => cert.needsRenewal 1700000000) .empty
      [turnFor ["a.com"], turnFor ["a.com", "b.com"]] =
      .ok (.singleton "a.com" firstOrdered) := by
    rfl
  refine ⟨hrun, ?_⟩
  rintro ⟨final, hfinal, hcovered⟩
  obtain rfl := ok.inj (hrun.symm.trans hfinal)
  obtain ⟨cert, ⟨hstored, -⟩, hcovers⟩ := hcovered (turnFor ["a.com", "b.com"])
    (by simp) "b.com" (by simp [turnFor])
  obtain rfl : cert = firstOrdered := mem_singleton.mp hstored
  have hsplit : splitOnce '.' "b.com".toList = some ("b".toList, "com".toList) := by decide
  exact not_covers_of_split hsplit (by decide) (by decide) hcovers

end AcmeManager

end TrafficCop
