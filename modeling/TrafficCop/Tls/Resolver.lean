import TrafficCop.Lib.Transition
import TrafficCop.Tls.Storage

/-!
# The certificate resolver

`CertificateResolver` of `tls/resolver.rs`, with the storages it is given and the clock. A key is
remembered with where it comes from: `κ` are the keys loaded from files, and a key from ACME storage
is the stored certificate. Making it can fail, for the texts that `loads` says.
-/

namespace TrafficCop

open Rust StoredCertificate List Outcome

/-- `CertifiedKey`, by origin. -/
inductive CertifiedKey (κ : Type) where
  | file (key : κ)
  | acme (stored : StoredCertificate)
  deriving Repr, DecidableEq

def findWildcardMatch {α : Type} (domain : Text) (certs : HashMap Text α) : Option α :=
  match domain.dropWhile (· ≠ '.') with
  | [] => none
  | tail => certs.get ('*' :: tail)

/-- The two looks into a map of certificates. -/
def findIn {α : Type} (domain : Text) (certs : HashMap Text α) : Option α :=
  (certs.get domain).or (findWildcardMatch domain certs)

/-- `struct CertificateResolver`; `ι` names the storages. -/
structure CertificateResolver (κ ι : Type) where
  staticCerts : HashMap Text κ
  acmeStorage : Option ι
  acmeCache : HashMap Text StoredCertificate
  defaultCert : Option κ

/-- The resolver, the storages, the clock, and what lookups have answered and when. -/
structure TlsSystem (κ ι : Type) where
  resolver : CertificateResolver κ ι
  storages : ι → Certificates
  now : ℕ
  served : List (CertifiedKey κ × ℕ)

section

variable {κ ι : Type} (loads : StoredCertificate → Bool)

def cacheCertificate (cache : HashMap Text StoredCertificate) (stored : StoredCertificate) :
    HashMap Text StoredCertificate :=
  stored.domains.foldl (fun cache domain => cache.insert domain stored) cache

def cacheAll (cache : HashMap Text StoredCertificate) (certs : List StoredCertificate) :
    HashMap Text StoredCertificate :=
  certs.foldl
    (fun cache stored => if loads stored then cacheCertificate cache stored else cache) cache

namespace CertificateResolver

variable (r : CertificateResolver κ ι)

def setAcmeStorage (storage : ι) (certs : Certificates) (now : ℕ) : CertificateResolver κ ι :=
  { r with
    acmeCache := cacheAll loads r.acmeCache (certs.getAllCertificates now)
    acmeStorage := some storage }

/-- Expired certificates are left out, as by `set_acme_storage`. -/
def refreshAcmeCache (storages : ι → Certificates) (now : ℕ) : CertificateResolver κ ι :=
  match r.acmeStorage with
  | some storage =>
    { r with acmeCache := cacheAll loads .empty ((storages storage).getAllCertificates now) }
  | none => r

/-- The look into the storage, "in case cache is stale", and the default. -/
def findStored (storages : ι → Certificates) (now : ℕ) (domain : Text) :
    Outcome Empty (Option (CertifiedKey κ) × CertificateResolver κ ι) := do
  match r.acmeStorage with
  | some storage =>
    match ← (storages storage).getCertificate domain with
    | some stored =>
      if !stored.isExpired now && loads stored then
        return (some (.acme stored), { r with acmeCache := cacheCertificate r.acmeCache stored })
      else return (r.defaultCert.map .file, r)
    | none => return (r.defaultCert.map .file, r)
  | none => return (r.defaultCert.map .file, r)

/-- The last look, into the storage, leaves expired certificates out. The two looks into the cache
do not ask, and time goes on. -/
def findCert (storages : ι → Certificates) (now : ℕ) (domain : Text) :
    Outcome Empty (Option (CertifiedKey κ) × CertificateResolver κ ι) :=
  match findIn domain r.staticCerts with
  | some key => .ok (some (.file key), r)
  | none =>
    match findIn domain r.acmeCache with
    | some stored => .ok (some (.acme stored), r)
    | none => r.findStored loads storages now domain

variable {stored : StoredCertificate} {storages : ι → Certificates} {now : ℕ} {domain : Text}

lemma default_ne_acme {d : Option κ} : d.map CertifiedKey.file ≠ some (.acme stored) := by
  cases d with
  | none => simp
  | some key => simp

lemma findStored_not_expired {r' : CertificateResolver κ ι}
    (h : r.findStored loads storages now domain = .ok (some (.acme stored), r')) :
    stored.isExpired now = false := by
  have hdefault : (r.defaultCert.map CertifiedKey.file, r) ≠ (some (.acme stored), r') :=
    fun heq => default_ne_acme (congrArg Prod.fst heq)
  rw [findStored] at h
  cases hstorage : r.acmeStorage with
  | none =>
    rw [hstorage] at h
    exact absurd (ok.inj h) hdefault
  | some storage =>
    rw [hstorage] at h
    obtain ⟨found, -, h⟩ := bind_eq_ok.mp h
    cases found with
    | none => exact absurd (ok.inj h) hdefault
    | some found =>
      simp only at h
      split at h
      · next hfresh =>
        -- the only branch that answers from the storage, behind the check
        obtain rfl : found = stored := by
          have hkey := congrArg Prod.fst (ok.inj h)
          exact CertifiedKey.acme.inj (Option.some.inj hkey)
        simp only [Bool.and_eq_true, Bool.not_eq_true'] at hfresh
        exact hfresh.1
      · exact absurd (ok.inj h) hdefault

lemma findCert_expired_iff :
    (∃ stored r', r.findCert loads storages now domain = .ok (some (.acme stored), r') ∧
        stored.isExpired now) ↔
      findIn domain r.staticCerts = none ∧
        ∃ stored, findIn domain r.acmeCache = some stored ∧ stored.isExpired now = true := by
  rw [findCert]
  rcases findIn domain r.staticCerts with _ | key
  · rcases findIn domain r.acmeCache with _ | cached
    · -- nothing is cached, and the storage is asked for the time
      simp only [reduceCtorEq, false_and, exists_false, and_false, iff_false]
      rintro ⟨stored, r', hfind, hexpired⟩
      rw [findStored_not_expired loads r hfind] at hexpired
      cases hexpired
    · constructor
      · rintro ⟨stored, r', hfind, hexpired⟩
        obtain rfl : cached = stored := by
          have hkey := congrArg Prod.fst (ok.inj hfind)
          exact CertifiedKey.acme.inj (Option.some.inj hkey)
        exact ⟨rfl, cached, rfl, hexpired⟩
      · rintro ⟨-, stored, hcached, hexpired⟩
        obtain rfl := Option.some.inj hcached
        exact ⟨cached, r, rfl, hexpired⟩
  · simp

end CertificateResolver

variable [DecidableEq ι]

/-- The calls; time passes, and a storage's map may be iterated in another order. -/
inductive TlsAction (ι : Type) where
  | setAcmeStorage (storage : ι)
  | refreshAcmeCache
  | storeCertificate (storage : ι) (cert : StoredCertificate)
  | findCert (domain : Text)
  | rehash (storage : ι) (certs : Certificates)
  | advance (seconds : ℕ)

namespace TlsSystem

def start (r : CertificateResolver κ ι) (storages : ι → Certificates) (now : ℕ) :
    TlsSystem κ ι := ⟨r, storages, now, []⟩

variable (s : TlsSystem κ ι)

def next : TlsAction ι → TlsSystem κ ι
  | .setAcmeStorage storage =>
    { s with resolver := s.resolver.setAcmeStorage loads storage (s.storages storage) s.now }
  | .refreshAcmeCache => { s with resolver := s.resolver.refreshAcmeCache loads s.storages s.now }
  | .storeCertificate storage cert =>
    { s with storages :=
        Function.update s.storages storage ((s.storages storage).storeCertificate cert) }
  | .findCert domain =>
    match s.resolver.findCert loads s.storages s.now domain with
    | .ok (some key, r) => { s with resolver := r, served := s.served ++ [(key, s.now)] }
    | .ok (none, r) => { s with resolver := r }
    | .panic => s
  | .rehash storage certs =>
    if (s.storages storage).entries.Perm certs.entries then
      { s with storages := Function.update s.storages storage certs }
    else s
  | .advance seconds => { s with now := s.now + seconds }

/-- No certificate from storage was served after its `not_after`. -/
def NothingExpired : Prop :=
  ∀ stored now, (.acme stored, now) ∈ s.served → stored.isExpired now = false

/-- The cache has no expired certificate for a lookup, unless there is a static one. -/
def FreshLookup : TlsAction ι → Prop
  | .findCert domain =>
    findIn domain s.resolver.staticCerts = none →
      ∀ stored, findIn domain s.resolver.acmeCache = some stored → stored.isExpired s.now = false
  | _ => True

lemma next_nothingExpired_iff (a : TlsAction ι) (h : s.NothingExpired) :
    (s.next loads a).NothingExpired ↔ s.FreshLookup a := by
  cases a with
  | setAcmeStorage storage => exact iff_of_true h trivial
  | refreshAcmeCache => exact iff_of_true h trivial
  | storeCertificate storage cert => exact iff_of_true h trivial
  | rehash storage certs =>
    refine iff_of_true ?_ trivial
    rw [next]
    split
    · exact h
    · exact h
  | advance seconds => exact iff_of_true h trivial
  | findCert domain =>
    have hfresh : s.FreshLookup (.findCert domain) ↔
        ¬∃ stored r', s.resolver.findCert loads s.storages s.now domain =
          .ok (some (.acme stored), r') ∧ stored.isExpired s.now := by
      rw [CertificateResolver.findCert_expired_iff]
      simp only [FreshLookup, not_and, not_exists, Bool.not_eq_true]
    rw [hfresh, next]
    rcases hfind : s.resolver.findCert loads s.storages s.now domain with ⟨answer, r'⟩ | e | _
    · rcases answer with _ | key
      · exact iff_of_true h (by simp)
      · -- one more answer, which must not be an expired one
        constructor
        · rintro hserved ⟨stored, r'', heq, hexpired⟩
          obtain ⟨rfl, rfl⟩ : key = .acme stored ∧ r' = r'' := by
            simpa using heq
          have hfalse := hserved stored s.now (mem_append_right _ (mem_singleton.mpr rfl))
          rw [hfalse] at hexpired
          cases hexpired
        · intro hnone stored now hserved
          rcases mem_append.mp hserved with hserved | hlast
          · exact h stored now hserved
          · obtain ⟨rfl, rfl⟩ : CertifiedKey.acme stored = key ∧ now = s.now := by
              simpa using hlast
            by_contra hexpired
            exact hnone ⟨stored, r', rfl, by simpa using hexpired⟩
    · exact e.elim
    · exact iff_of_true h (by simp)

/-- **No expired certificate is served exactly if no lookup hits one in the cache.** -/
theorem no_expired_certificate_iff (r : CertificateResolver κ ι) (storages : ι → Certificates)
    (now : ℕ) (actions : List (TlsAction ι)) :
    (∀ before, before <+: actions →
        (before.foldl (next loads) (start r storages now)).NothingExpired) ↔
      ∀ before a, before ++ [a] <+: actions →
        (before.foldl (next loads) (start r storages now)).FreshLookup a := by
  refine Transition.throughout_iff ?_ (next_nothingExpired_iff loads) actions
  intro stored now hserved
  cases hserved

/-- A certificate for `a.com` that ends at second 100. -/
def shortLived : StoredCertificate where
  domain := "a.com"
  domains := ["a.com"]
  certificatePem := []
  privateKeyPem := []
  notAfter := 100
  notBefore := 0

/-- **An expired certificate is served from the cache.** It was loaded at second 50 and is asked
for at second 150. -/
theorem expired_certificate_served :
    ¬(([.setAcmeStorage (), .advance 100, .findCert "a.com"] : List (TlsAction Unit)).foldl
      (next fun _ => true)
      (start ⟨.empty, none, .empty, (none : Option ℕ)⟩
        (fun _ => .singleton "a.com" shortLived) 50)).NothingExpired := by
  intro h
  have hserved := h shortLived 150 (by decide +kernel)
  revert hserved
  decide

end TlsSystem

end

end TrafficCop
