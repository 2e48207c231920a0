import TrafficCop.Rust.Core
import TrafficCop.Rust.Text

/-!
# The ACME storage

`StorageManager` of `tls/acme/storage.rs`: the certificates by their main domain. The clock is an
argument, in Unix seconds; the account and the file on disk are left out.
-/

namespace TrafficCop

open Rust List Option

structure StoredCertificate where
  domain : Text
  domains : List Text
  certificatePem : Text
  privateKeyPem : Text
  notAfter : ℕ
  notBefore : ℕ
  deriving Repr, DecidableEq

namespace StoredCertificate

def thirtyDays : ℕ := 30 * 24 * 60 * 60

/-- `StoredCertificate::needs_renewal`; the subtraction saturates. -/
def needsRenewal (cert : StoredCertificate) (now : ℕ) : Bool := cert.notAfter - thirtyDays < now

/-- The end is before the clock. -/
def isExpired (cert : StoredCertificate) (now : ℕ) : Bool := cert.notAfter < now

end StoredCertificate

abbrev Certificates := HashMap Text StoredCertificate

/-- The text before the base of the wildcard, which must have no dot, and then that text without its
last byte. The second cut panics where there is no last byte, or where it belongs to a longer
character. -/
def matchesWildcard (domain certDomain : Text) : Outcome Empty Bool :=
  match stripPrefix "*." certDomain with
  | some base =>
    if base.isSuffixOf domain then
      match sliceTo domain (byteLen domain - byteLen base) with
      | some head =>
        if head.count '.' = 0 then
          -- `len - base - 1` underflows, and then the slice is out of bounds as well
          if byteLen domain - byteLen base = 0 then .panic
          else
            match sliceTo domain (byteLen domain - byteLen base - 1) with
            | some label => .ok (!label.contains '.')
            | none => .panic
        else .ok false
      | none => .panic
    else .ok false
  | none => .ok false

def anyWildcard (domain : Text) : List Text → Outcome Empty Bool
  | [] => .ok false
  | name :: names => do
    if ← matchesWildcard domain name then return true else anyWildcard domain names

def firstCovering (domain : Text) : List StoredCertificate →
    Outcome Empty (Option StoredCertificate)
  | [] => .ok none
  | cert :: certs =>
    if cert.domains.contains domain then .ok (some cert)
    else do
      if ← anyWildcard domain cert.domains then return some cert else firstCovering domain certs

namespace Certificates

variable (certs : Certificates)

/-- A domain is looked up under its own name, then every certificate is asked in turn. -/
def getCertificate (domain : Text) : Outcome Empty (Option StoredCertificate) :=
  -- "First try exact match"
  match certs.get domain with
  | some cert => .ok (some cert)
  -- "Try to find a certificate that covers this domain (including wildcards)"
  | none => firstCovering domain certs.values

def storeCertificate (cert : StoredCertificate) : Certificates :=
  certs.insert cert.domain cert

def getAllCertificates (now : ℕ) : List StoredCertificate :=
  certs.values.filter fun cert => !cert.isExpired now

end Certificates

/-! ## The wildcard test -/

/-- What `domain` has before `base`, for a name `*.base`, if it is without a dot. -/
def beforeBase (domain name : Text) : Option Text :=
  match stripPrefix "*." name with
  | some base =>
    let before := domain.take (domain.length - base.length)
    if before ++ base = domain ∧ '.' ∉ before then some before else none
  | none => none

lemma beforeBase_eq_some_iff {domain name before : Text} :
    beforeBase domain name = some before ↔
      '.' ∉ before ∧ ∃ base, name = "*." ++ base ∧ domain = before ++ base := by
  rw [beforeBase]
  rcases hbase : stripPrefix "*." name with _ | base
  · simp only [reduceCtorEq, false_iff, not_and, not_exists]
    rintro - base rfl
    rw [stripPrefix_append] at hbase
    cases hbase
  · obtain rfl := stripPrefix_eq_some_iff.mp hbase
    simp only [ite_none_right_eq_some, Option.some.injEq]
    constructor
    · rintro ⟨⟨hdomain, hdot⟩, rfl⟩
      exact ⟨hdot, base, rfl, hdomain.symm⟩
    · rintro ⟨hdot, base', hname, rfl⟩
      obtain rfl := append_cancel_left hname
      have htake : (before ++ base).take ((before ++ base).length - base.length) = before := by
        simp
      rw [htake]
      exact ⟨⟨rfl, hdot⟩, rfl⟩

/-- The text has a last character, and it is a single byte. -/
def endsInByte (s : Text) : Bool := s.getLast?.any isAscii

/-- The answer of the test, from the text before the base. -/
def wildcardAnswer : Option Text → Outcome Empty Bool
  | some before => if endsInByte before then .ok true else .panic
  | none => .ok false

lemma sliceTo_last_byte (before base : Text) (c : Char) :
    sliceTo (before ++ [c] ++ base) (byteLen (before ++ [c]) - 1) =
      if isAscii c then some before else none := by
  rw [append_assoc, singleton_append]
  split
  · next hc =>
    have hlen : byteLen (before ++ [c]) - 1 = byteLen before := by
      simp [utf8Size_of_isAscii hc]
    rw [hlen, sliceTo_append]
  · next hc =>
    have hsize : c.utf8Size ≠ 1 := fun h => hc (isAscii_of_utf8Size h)
    have hpos := c.utf8Size_pos
    apply sliceTo_inside
    · simp only [byteLen_append, byteLen_cons, byteLen_nil]
      omega
    · simp only [byteLen_append, byteLen_cons, byteLen_nil]
      omega

lemma matchesWildcard_of_base {before base : Text} (hdot : '.' ∉ before) :
    matchesWildcard (before ++ base) ("*." ++ base) = wildcardAnswer (some before) := by
  have hsuffix : base.isSuffixOf (before ++ base) := by simp
  have hlen : byteLen (before ++ base) - byteLen base = byteLen before := by simp
  rw [matchesWildcard, stripPrefix_append]
  simp only [hsuffix, if_true, hlen, sliceTo_append, count_eq_zero.mpr hdot, wildcardAnswer]
  cases before using List.reverseRecOn with
  | nil => rfl
  | append_singleton label c =>
    have hpos : byteLen (label ++ [c]) ≠ 0 := by
      have := c.utf8Size_pos
      simp only [byteLen_append, byteLen_cons, byteLen_nil]
      omega
    rw [if_neg hpos, sliceTo_last_byte]
    cases hc : isAscii c with
    | false => simp [endsInByte, hc]
    | true =>
      have hlabel : '.' ∉ label := fun h => hdot (mem_append_left _ h)
      simp [endsInByte, hc, hlabel]

lemma matchesWildcard_eq (domain name : Text) :
    matchesWildcard domain name = wildcardAnswer (beforeBase domain name) := by
  rcases hbefore : beforeBase domain name with _ | before
  · rw [matchesWildcard]
    rcases hbase : stripPrefix "*." name with _ | base
    · rfl
    · obtain rfl := stripPrefix_eq_some_iff.mp hbase
      simp only [wildcardAnswer]
      split
      · next hsuffix =>
        -- there is a dot before the base
        obtain ⟨before, rfl⟩ := isSuffixOf_iff_suffix.mp hsuffix
        have hdot : '.' ∈ before := by
          by_contra hdot
          rw [beforeBase_eq_some_iff.mpr ⟨hdot, base, rfl, rfl⟩] at hbefore
          cases hbefore
        have hlen : byteLen (before ++ base) - byteLen base = byteLen before := by simp
        rw [hlen, sliceTo_append]
        exact if_neg fun h => count_eq_zero.mp h hdot
      · rfl
  · obtain ⟨hdot, base, rfl, rfl⟩ := beforeBase_eq_some_iff.mp hbefore
    exact matchesWildcard_of_base hdot

/-! ## The lookup -/

lemma anyWildcard_eq (domain : Text) (names : List Text) :
    anyWildcard domain names = wildcardAnswer (names.findSome? (beforeBase domain)) := by
  induction names with
  | nil => rfl
  | cons name names ih =>
    rw [anyWildcard, matchesWildcard_eq, ih, findSome?_cons]
    rcases beforeBase domain name with _ | before
    · rfl
    · rw [wildcardAnswer]
      split
      · rfl
      · rfl

/-- The certificate ends the search: it lists the domain, or a wildcard whose base the domain ends
in without a dot before it. -/
def stops (domain : Text) (cert : StoredCertificate) : Bool :=
  cert.domains.contains domain || (cert.domains.findSome? (beforeBase domain)).isSome

/-- And it is returned, if the cut does not panic. -/
def answers (domain : Text) (cert : StoredCertificate) : Bool :=
  cert.domains.contains domain || (cert.domains.findSome? (beforeBase domain)).any endsInByte

/-- What the search returns, from the certificate that ends it. -/
def searchAnswer (domain : Text) : Option StoredCertificate →
    Outcome Empty (Option StoredCertificate)
  | some cert => if answers domain cert then .ok (some cert) else .panic
  | none => .ok none

lemma firstCovering_eq (domain : Text) (certs : List StoredCertificate) :
    firstCovering domain certs = searchAnswer domain (certs.find? (stops domain)) := by
  induction certs with
  | nil => rfl
  | cons cert certs ih =>
    rw [firstCovering, anyWildcard_eq, ih, find?_cons]
    by_cases hlists : domain ∈ cert.domains
    · simp [hlists, stops, answers, searchAnswer]
    · rw [if_neg (by simpa using hlists)]
      rcases hbase : cert.domains.findSome? (beforeBase domain) with _ | before
      · have hstops : stops domain cert = false := by simp [stops, hlists, hbase]
        rw [hstops]
        rfl
      · have hstops : stops domain cert := by simp [stops, hbase]
        have hanswers : answers domain cert = endsInByte before := by
          simp [answers, hlists, hbase]
        rw [hstops]
        simp only [wildcardAnswer, searchAnswer, hanswers]
        split
        · rfl
        · rfl

namespace Certificates

variable {certs : Certificates} {domain : Text}

lemma getCertificate_of_get {cert : StoredCertificate}
    (h : certs.get domain = some cert) : certs.getCertificate domain = .ok (some cert) := by
  rw [getCertificate, h]

lemma getCertificate_of_not_get (h : certs.get domain = none) :
    certs.getCertificate domain = searchAnswer domain (certs.values.find? (stops domain)) := by
  rw [getCertificate, h]
  exact firstCovering_eq domain certs.values

end Certificates

end TrafficCop
