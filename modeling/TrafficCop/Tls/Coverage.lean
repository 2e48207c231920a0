import TrafficCop.Tls.Resolver

/-!
# Which certificate is for which domain

The resolver's `find_wildcard_match` computes that wildcard and looks it up
(`covers_iff_findWildcardMatch`). The storage goes from the base of each wildcard to the domain, and
forgets the dot between them: it finds `fooexample.com` under `*.example.com`, does not find
`www.example.com`, and panics on `example.com`.
-/

namespace TrafficCop

open Rust List

/-- A certificate is for the domains it lists, and for those whose first label, replaced by `*`,
gives a wildcard of it. -/
def Covers (cert : StoredCertificate) (domain : Text) : Prop :=
  domain ∈ cert.domains ∨
    ∃ label rest, splitOnce '.' domain = some (label, rest) ∧ label ≠ [] ∧
      "*." ++ rest ∈ cert.domains

lemma not_covers_of_split {cert : StoredCertificate} {domain label rest : Text}
    (hsplit : splitOnce '.' domain = some (label, rest)) (hlists : domain ∉ cert.domains)
    (hwildcard : "*." ++ rest ∉ cert.domains) : ¬Covers cert domain := by
  intro hcovers
  rcases hcovers with hmem | ⟨label', rest', hsplit', -, hmem⟩
  · exact hlists hmem
  · obtain ⟨-, rfl⟩ := Prod.mk.inj (Option.some.inj (hsplit.symm.trans hsplit'))
    exact hwildcard hmem

/-! ## The resolver's wildcards -/

lemma findWildcardMatch_eq_some_iff {α : Type} {domain : Text} {certs : HashMap Text α} {a : α} :
    findWildcardMatch domain certs = some a ↔
      ∃ label rest, splitOnce '.' domain = some (label, rest) ∧
        certs.get ("*." ++ rest) = some a := by
  have hsplit := takeWhile_append_dropWhile (p := fun c => decide (c ≠ '.')) (l := domain)
  rw [findWildcardMatch]
  rcases htail : domain.dropWhile fun c => decide (c ≠ '.') with _ | ⟨c, tail⟩
  · -- no dot
    simp only [reduceCtorEq, false_iff, not_exists, not_and]
    intro label rest hdot
    obtain ⟨rfl, -⟩ := splitOnce_eq_some_iff.mp hdot
    have hall := dropWhile_eq_nil_iff.mp htail '.' (by simp)
    simp at hall
  · obtain rfl : c = '.' := by
      have hhead := head?_dropWhile_not (fun c => decide (c ≠ '.')) domain
      rw [htail] at hhead
      simpa using hhead
    rw [htail] at hsplit
    have honce : splitOnce '.' domain =
        some (domain.takeWhile fun c => decide (c ≠ '.'), tail) := by
      refine splitOnce_eq_some_iff.mpr ⟨hsplit.symm, fun hmem => ?_⟩
      simpa using mem_takeWhile_imp hmem
    rw [honce]
    constructor
    · intro h
      exact ⟨_, tail, rfl, h⟩
    · rintro ⟨label, rest, hpair, h⟩
      obtain ⟨-, rfl⟩ := Prod.mk.inj (Option.some.inj hpair)
      exact h

lemma get_cacheCertificate (cache : HashMap Text StoredCertificate) (stored : StoredCertificate)
    (domain : Text) : (cacheCertificate cache stored).get domain =
      if domain ∈ stored.domains then some stored else cache.get domain := by
  rw [cacheCertificate]
  induction stored.domains generalizing cache with
  | nil => rfl
  | cons name names ih =>
    rw [foldl_cons, ih, HashMap.get_insert]
    by_cases hname : domain = name
    · simp [hname]
    · simp [hname]

lemma covers_iff_findWildcardMatch (cert : StoredCertificate) (domain : Text) :
    Covers cert domain ↔ domain ∈ cert.domains ∨ domain.head? ≠ some '.' ∧
      findWildcardMatch domain (cacheCertificate .empty cert) = some cert := by
  refine or_congr_right ?_
  simp only [findWildcardMatch_eq_some_iff, get_cacheCertificate]
  constructor
  · rintro ⟨label, rest, hsplit, hlabel, hmem⟩
    refine ⟨?_, label, rest, hsplit, if_pos hmem⟩
    obtain ⟨rfl, hdot⟩ := splitOnce_eq_some_iff.mp hsplit
    cases label with
    | nil => exact absurd rfl hlabel
    | cons c label =>
      intro hhead
      obtain rfl : c = '.' := by simpa using hhead
      exact hdot mem_cons_self
  · rintro ⟨hhead, label, rest, hsplit, hget⟩
    refine ⟨label, rest, hsplit, ?_, ?_⟩
    · rintro rfl
      obtain ⟨rfl, -⟩ := splitOnce_eq_some_iff.mp hsplit
      exact hhead rfl
    · by_contra hmem
      rw [if_neg hmem] at hget
      cases hget

/-! ## The storage's lookup -/

/-- In every iteration order the lookup ends, answers if a certificate is for the domain, and then
with such a one. -/
def LookupRight (certs : Certificates) (domain : Text) : Prop :=
  ∀ certs' : Certificates, certs.Reordered certs' →
    ∃ answer, certs'.getCertificate domain = .ok answer ∧
    (answer.isSome ↔ ∃ cert ∈ certs.values, Covers cert domain) ∧
    ∀ cert, answer = some cert → Covers cert domain

/-- Either the certificate filed under the domain is for it. Or none is filed there, every
certificate with a wildcard whose base the domain ends in, without a dot before it, has a true
wildcard for it and a single byte before the base, and without such a certificate and one that
lists the domain none is for it. -/
def LookupCondition (certs : Certificates) (domain : Text) : Prop :=
  (∃ cert, certs.get domain = some cert ∧ Covers cert domain) ∨
  certs.get domain = none ∧
    (∀ cert ∈ certs.values, domain ∉ cert.domains →
      ∀ before, cert.domains.findSome? (beforeBase domain) = some before →
        endsInByte before = true ∧ Covers cert domain) ∧
    ((∀ cert ∈ certs.values, stops domain cert = false) →
      ∀ cert ∈ certs.values, ¬Covers cert domain)

section

variable {certs : Certificates} {domain : Text} {cert : StoredCertificate}

lemma lookupRight_iff_of_get (h : certs.get domain = some cert) :
    LookupRight certs domain ↔ Covers cert domain := by
  have hstored : cert ∈ certs.values := HashMap.mem_values_iff.mpr ⟨domain, h⟩
  constructor
  · intro hright
    obtain ⟨answer, hanswer, -, hcovers⟩ := hright certs (.refl _)
    rw [Certificates.getCertificate_of_get h] at hanswer
    exact hcovers cert (Outcome.ok.inj hanswer).symm
  · intro hcovers certs' hperm
    refine ⟨some cert, Certificates.getCertificate_of_get (by rw [hperm.get_eq, h]), ?_, ?_⟩
    · exact iff_of_true rfl ⟨cert, hstored, hcovers⟩
    · rintro cert' heq
      exact Option.some.inj heq ▸ hcovers

/-- A certificate that ends the search comes first in some order. -/
lemma LookupRight.answers (hright : LookupRight certs domain) (h : certs.get domain = none)
    (hstored : cert ∈ certs.values) (hstops : stops domain cert) :
    answers domain cert ∧ Covers cert domain := by
  obtain ⟨key, hkey⟩ := HashMap.mem_values_iff.mp hstored
  obtain ⟨certs', hperm, rest, hentries⟩ := HashMap.exists_reordered_cons hkey
  obtain ⟨answer, hanswer, -, hcovers⟩ := hright certs' hperm
  have hfirst : certs'.values.find? (stops domain) = some cert := by
    rw [HashMap.values, hentries, map_cons, find?_cons, hstops]
  rw [Certificates.getCertificate_of_not_get (by rw [hperm.get_eq, h]), hfirst,
    searchAnswer] at hanswer
  split at hanswer
  · next hanswers => exact ⟨hanswers, hcovers cert (Outcome.ok.inj hanswer).symm⟩
  · cases hanswer

lemma getCertificate_of_not_stops (h : certs.get domain = none)
    (hnone : ∀ cert ∈ certs.values, stops domain cert = false) :
    certs.getCertificate domain = .ok none := by
  have hfind : certs.values.find? (stops domain) = none :=
    find?_eq_none.mpr fun cert hcert => by simp [hnone cert hcert]
  rw [Certificates.getCertificate_of_not_get h, hfind, searchAnswer]

lemma lookupRight_iff_of_not_get (h : certs.get domain = none) :
    LookupRight certs domain ↔
      (∀ cert ∈ certs.values, stops domain cert → answers domain cert ∧ Covers cert domain) ∧
      ((∀ cert ∈ certs.values, stops domain cert = false) →
        ∀ cert ∈ certs.values, ¬Covers cert domain) := by
  constructor
  · intro hright
    -- the first part takes the order that begins with the certificate, the second any order
    refine ⟨fun cert hstored => hright.answers h hstored, fun hnone cert hstored hcovers => ?_⟩
    obtain ⟨answer, hanswer, hsome, -⟩ := hright certs (.refl _)
    rw [getCertificate_of_not_stops h hnone] at hanswer
    obtain rfl := Outcome.ok.inj hanswer
    cases hsome.mpr ⟨cert, hstored, hcovers⟩
  · rintro ⟨hgood, hnone⟩ certs' hperm
    have hget : certs'.get domain = none := by rw [hperm.get_eq, h]
    rcases hfind : certs'.values.find? (stops domain) with _ | cert
    · have hall : ∀ cert ∈ certs'.values, stops domain cert = false := by
        simpa using find?_eq_none.mp hfind
      refine ⟨none, getCertificate_of_not_stops hget hall, ?_, by simp⟩
      refine iff_of_false (by simp) ?_
      rintro ⟨cert, hstored, hcovers⟩
      exact hnone (fun cert hcert => hall cert (hperm.mem_values.mpr hcert)) cert hstored hcovers
    · have hstored := hperm.mem_values.mp (mem_of_find?_eq_some hfind)
      obtain ⟨hanswers, hcovers⟩ := hgood cert hstored (find?_some hfind)
      refine ⟨some cert, ?_, iff_of_true rfl ⟨cert, hstored, hcovers⟩, ?_⟩
      · rw [Certificates.getCertificate_of_not_get hget, hfind, searchAnswer, if_pos hanswers]
      · rintro cert' heq
        exact Option.some.inj heq ▸ hcovers

lemma stops_imp_iff : (stops domain cert →
      answers domain cert ∧ Covers cert domain) ↔
    (domain ∉ cert.domains → ∀ before, cert.domains.findSome? (beforeBase domain) = some before →
      endsInByte before ∧ Covers cert domain) := by
  by_cases hlists : domain ∈ cert.domains
  · have hcovers : Covers cert domain := Or.inl hlists
    simp [hlists, answers, hcovers]
  · rcases hbase : cert.domains.findSome? (beforeBase domain) with _ | before
    · simp [stops, hlists, hbase]
    · simp [stops, answers, hlists, hbase]

end

/-- **When the lookup is right**, and what the resolver's wildcards have to do with it. -/
theorem certificate_lookup_iff (certs : Certificates) (domain : Text) :
    (LookupRight certs domain ↔ LookupCondition certs domain) ∧
      ∀ cert, Covers cert domain ↔ domain ∈ cert.domains ∨ domain.head? ≠ some '.' ∧
        findWildcardMatch domain (cacheCertificate .empty cert) = some cert := by
  refine ⟨?_, fun cert => covers_iff_findWildcardMatch cert domain⟩
  rw [LookupCondition]
  rcases hget : certs.get domain with _ | filed
  · simp only [lookupRight_iff_of_not_get hget, stops_imp_iff, reduceCtorEq, false_and,
      exists_false, true_and, false_or]
  · simp only [lookupRight_iff_of_get hget, Option.some.injEq, exists_eq_left', reduceCtorEq,
      false_and, or_false]

/-- A certificate for the subdomains of `example.com`. -/
def starCertificate : StoredCertificate where
  domain := "*.example.com"
  domains := ["*.example.com"]
  certificatePem := []
  privateKeyPem := []
  notAfter := 2000000000
  notBefore := 0

def starStore : Certificates := .singleton "*.example.com" starCertificate

/-- **A wildcard in the store.** The subdomain is not found, a name that only ends in the same
letters is, and the domain itself makes the lookup panic. -/
theorem wildcard_lookup_wrong :
    Covers starCertificate "www.example.com".toList ∧
    starStore.getCertificate "www.example.com".toList = .ok none ∧
    ¬Covers starCertificate "fooexample.com".toList ∧
    starStore.getCertificate "fooexample.com".toList = .ok (some starCertificate) ∧
    starStore.getCertificate "example.com".toList = .panic := by
  refine ⟨Or.inr ⟨"www", "example.com", by decide, by decide, by decide⟩,
    by decide +kernel, ?_, by decide +kernel, by decide +kernel⟩
  have hsplit : splitOnce '.' "fooexample.com" =
      some ("fooexample".toList, "com".toList) := by decide
  exact not_covers_of_split hsplit (by decide) (by decide)

end TrafficCop
