import TrafficCop.Http.Headers
import TrafficCop.Http.Uri

/-!
# Http — hosts

The host of an authority `host[:port]`: a registered name, an IPv4 address or an IPv6 address in
brackets.
-/

namespace Http

open Rust List Option

/-! ## Reading -/

/-- `Authority::host`: behind user information, up to the closing bracket, without which the crate
accepts no authority, or the port. -/
def hostOf (authority : Text) : Option Text :=
  -- `rsplit('@').next()`
  let hostPort := (authority.splitOn '@').getLast?.getD authority
  match hostPort with
  | '[' :: rest => (splitOnce ']' rest).map fun r => '[' :: r.1 ++ [']']
  | hostPort => some (hostPort.takeWhile (· != ':'))

def Uri.host (uri : Uri) : Option Text := uri.authority.bind fun authority => hostOf authority.text

def locationHost (location : Text) : Option Text :=
  (splitScheme location).bind fun r => hostOf (leadingAuthority r.2).text

/-! ## Writing -/

/-- The characters of registered names, percent signs among them. -/
def regNameChars : Text :=
  "ABCDEFGHIJKLMNOPQRSTUVWXYZabcdefghijklmnopqrstuvwxyz0123456789-._~!$&'()*+,;=%"

def ipv6Chars : Text := "0123456789abcdefABCDEF:."

/-- Of the characters in brackets only the colons matter, so an IPv6 literal is any text of the
characters of such addresses with a colon in it. -/
inductive Host where
  | regName (text : Text) (nonempty : text ≠ []) (chars : ∀ c ∈ text, c ∈ regNameChars)
  | ipv4 (a b c d : UInt8)
  | ipv6 (text : Text) (chars : ∀ c ∈ text, c ∈ ipv6Chars) (colon : ':' ∈ text)

def octet (n : UInt8) : Text := Nat.toDigits 10 n.toNat

def Host.text : Host → Text
  | .regName text _ _ => text
  | .ipv4 a b c d => octet a ++ '.' :: octet b ++ '.' :: octet c ++ '.' :: octet d
  | .ipv6 text _ _ => '[' :: text ++ [']']

def Host.isIpv6 : Host → Bool
  | .ipv6 .. => true
  | _ => false

structure HostPort where
  host : Host
  port : Option Text
  digits : ∀ p ∈ port, ∀ c ∈ p, c.isDigit = true

def portSuffix (port : Option Text) : Text := port.elim [] (':' :: ·)

def HostPort.text (hp : HostPort) : Text := hp.host.text ++ portSuffix hp.port

/-! ## Characters -/

lemma mem_regNameChars_of_isDigit {c : Char} (h : c.isDigit) : c ∈ regNameChars := by
  obtain ⟨hlow, hhigh⟩ := (isDigit_iff c).mp h
  have hall : ∀ n : Fin 58, 48 ≤ n.val → Char.ofNat n ∈ regNameChars := by decide
  have hmem := hall ⟨c.toNat, by omega⟩ hlow
  rwa [Char.ofNat_toNat] at hmem

lemma Host.mem_regNameChars {host : Host} (h : host.isIpv6 = false) :
    host.text ≠ [] ∧ ∀ c ∈ host.text, c ∈ regNameChars := by
  cases host with
  | regName text nonempty chars => exact ⟨nonempty, chars⟩
  | ipv4 a b c d =>
    have hoctet : ∀ n, ∀ c ∈ octet n, c ∈ regNameChars := fun n c hc =>
      mem_regNameChars_of_isDigit (Nat.isDigit_of_mem_toDigits (by decide) (by decide) hc)
    have hdot : '.' ∈ regNameChars := by decide
    refine ⟨by simp [Host.text], fun ch hch => ?_⟩
    simp only [Host.text, append_assoc, cons_append, mem_append, mem_cons] at hch
    rcases hch with h | rfl | h | rfl | h | rfl | h
    · exact hoctet a ch h
    · exact hdot
    · exact hoctet b ch h
    · exact hdot
    · exact hoctet c ch h
    · exact hdot
    · exact hoctet d ch h
  | ipv6 text chars colon => cases h

def authorityChars : Text := '[' :: ']' :: ':' :: regNameChars

lemma HostPort.mem_authorityChars (hp : HostPort) : ∀ c ∈ hp.text, c ∈ authorityChars := by
  have hname : ∀ c ∈ regNameChars, c ∈ authorityChars := fun c hc => by simp [authorityChars, hc]
  intro c hc
  rcases mem_append.mp hc with hc | hc
  · cases hhost : hp.host.isIpv6 with
    | false => exact hname c ((Host.mem_regNameChars hhost).2 c hc)
    | true =>
      have hsix : ∀ c ∈ ipv6Chars, c ∈ authorityChars := forall_char (by decide +kernel)
      obtain ⟨host, port, digits⟩ := hp
      cases host with
      | ipv6 text chars colon =>
        rcases mem_append.mp hc with hc | hc
        · rcases mem_cons.mp hc with rfl | hc
          · exact mem_cons_self
          · exact hsix c (chars c hc)
        · rw [mem_singleton.mp hc]
          decide
      | _ => cases hhost
  · have hdigits := hp.digits
    cases hport : hp.port with
    | none =>
      rw [hport] at hc
      cases hc
    | some p =>
      rw [hport] at hc
      rcases mem_cons.mp hc with rfl | hc
      · decide
      · exact hname c (mem_regNameChars_of_isDigit (hdigits p hport c hc))

lemma endsAuthority_of_mem : ∀ c ∈ authorityChars, endsAuthority c = false :=
  forall_char (by decide +kernel)

lemma at_notMem_of_authorityChars {s : Text} (h : ∀ c ∈ s, c ∈ authorityChars) : '@' ∉ s :=
  fun hmem => absurd (h '@' hmem) (by decide)

lemma Host.colon_notMem_text {host : Host} (h : host.isIpv6 = false) : ':' ∉ host.text :=
  fun hmem => absurd ((mem_regNameChars h).2 ':' hmem) (by decide)

lemma bracket_notMem_ipv6Chars : ']' ∉ ipv6Chars := by decide

def HostPort.authority (hp : HostPort) : Authority where
  text := hp.text
  chars c hc := endsAuthority_of_mem c (hp.mem_authorityChars c hc)

lemma visible_of_mem_authorityChars {s : Text} (h : ∀ c ∈ s, c ∈ authorityChars) :
    ∀ b ∈ asBytes s, isVisibleAscii b := by
  have hall : ∀ c ∈ authorityChars, (String.utf8EncodeChar c).all isVisibleAscii :=
    forall_char (by decide +kernel)
  intro b hb
  obtain ⟨c, hc, hbyte⟩ := mem_flatMap.mp hb
  exact all_eq_true.mp (hall c (h c hc)) b hbyte

/-! ## Reading what was written -/

lemma takeWhile_portSuffix {host : Text} (h : ':' ∉ host) (port : Option Text) :
    (host ++ portSuffix port).takeWhile (· != ':') = host := by
  have hne : ∀ c ∈ host, (c != ':') = true := by
    intro c hc
    refine bne_iff_ne.mpr ?_
    rintro rfl
    exact h hc
  rw [takeWhile_append_of_pos hne]
  cases port <;> simp [portSuffix]

lemma hostOf_bracket {rest : Text} (hat : '@' ∉ rest) :
    hostOf ('[' :: rest) = (splitOnce ']' rest).map fun r => '[' :: r.1 ++ [']'] := by
  have hsplit : ('[' :: rest).splitOn '@' = ['[' :: rest] := by
    refine splitOn_eq_singleton fun hmem => ?_
    rcases mem_cons.mp hmem with h | h
    · cases h
    · exact hat h
  rw [hostOf, hsplit]
  rfl

lemma hostOf_plain {text : Text} (hat : '@' ∉ text) (hopen : text.head? ≠ some '[') :
    hostOf text = some (text.takeWhile (· != ':')) := by
  rw [hostOf, splitOn_eq_singleton hat]
  dsimp only [getLast?_singleton, getD_some]
  split
  · exact absurd rfl hopen
  · rfl

lemma hostOf_text (hp : HostPort) : hostOf hp.text = some hp.host.text := by
  have hat := at_notMem_of_authorityChars hp.mem_authorityChars
  cases hhost : hp.host.isIpv6 with
  | false =>
    obtain ⟨hne, hchars⟩ := Host.mem_regNameChars hhost
    have hcolon := Host.colon_notMem_text hhost
    have hopen : hp.text.head? ≠ some '[' := by
      intro h
      obtain ⟨c, rest, htext⟩ := exists_cons_of_ne_nil hne
      rw [HostPort.text, htext, cons_append, head?_cons, Option.some.injEq] at h
      exact absurd (hchars '[' (by rw [htext, h]; exact mem_cons_self)) (by decide)
    rw [hostOf_plain hat hopen, HostPort.text, takeWhile_portSuffix hcolon]
  | true =>
    obtain ⟨host, port, digits⟩ := hp
    cases host with
    | ipv6 text chars colon =>
      have htext : HostPort.text ⟨.ipv6 text chars colon, port, digits⟩ =
          '[' :: (text ++ ']' :: portSuffix port) := by
        simp [HostPort.text, Host.text]
      have hclose : ']' ∉ text := fun h => bracket_notMem_ipv6Chars (chars ']' h)
      rw [htext] at hat ⊢
      rw [hostOf_bracket (fun h => hat (mem_cons_of_mem _ h)), splitOnce_append _ hclose]
      rfl
    | _ => cases hhost

lemma locationHost_assembled (scheme : Scheme) (hp : HostPort) {path : Text}
    (hpath : ∀ c, path.head? = some c → endsAuthority c) :
    locationHost (scheme.text ++ ("://" ++ (hp.text ++ path))) = some hp.host.text := by
  have hauthority : leadingAuthority (hp.text ++ path) = hp.authority :=
    (leadingAuthority_eq_iff hp.authority).mpr hpath
  rw [locationHost, splitScheme_assembled, bind_some, hauthority]
  exact hostOf_text hp

lemma locationHost_unclosed (scheme : Scheme) {start path : Text} (hclose : ']' ∉ start)
    (hchars : ∀ c ∈ start, c ∈ authorityChars)
    (hpath : ∀ c, path.head? = some c → endsAuthority c) :
    locationHost (scheme.text ++ ("://" ++ ('[' :: start ++ path))) = none := by
  have hall : ∀ c ∈ '[' :: start, c ∈ authorityChars :=
    forall_mem_cons.mpr ⟨mem_cons_self, hchars⟩
  have hauthority := (leadingAuthority_eq_iff
    ⟨'[' :: start, fun c hc => endsAuthority_of_mem c (hall c hc)⟩).mpr hpath
  have hat := at_notMem_of_authorityChars hchars
  have hsplit : splitOnce ']' start = none := by
    refine eq_none_iff_forall_ne_some.mpr fun r hr => hclose ?_
    rw [(splitOnce_eq_some_iff.mp hr).1]
    simp
  rw [locationHost, splitScheme_assembled, bind_some, hauthority]
  dsimp only
  rw [hostOf_bracket hat, hsplit]
  rfl

end Http
