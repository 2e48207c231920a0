import TrafficCop.Middleware.Base64
import TrafficCop.Middleware.Digest
import TrafficCop.Middleware.Sha2

/-!
# Signatures of JSON Web Tokens

Two tokens with one header and one payload that `validate_token` accepts. The decoder of the
signature takes any number of `=` away from its end, and drops the bits left over behind the last
byte, so several texts stand for the same bytes.
-/

namespace TrafficCop

open Rust Bits List

/-- A text that stands for these bytes: fewer than eight bits of any kind behind the bits of the
bytes, up to the end of a character, and any number of `=` behind the characters. -/
def Spells (text : Text) (bytes : List UInt8) : Prop :=
  ∃ (fill : List Bool) (pads : ℕ), fill.length < 8 ∧ 6 ∣ 8 * bytes.length + fill.length ∧
    text = (Base64.sextets (bytesBits bytes ++ fill)).map Base64.Alphabet.urlSafe.char ++
      replicate pads '='

lemma pad_notMem_sextets (bits : List Bool) :
    '=' ∉ (Base64.sextets bits).map Base64.Alphabet.urlSafe.char := by
  intro hmem
  obtain ⟨n, hn, hchar⟩ := mem_map.mp hmem
  have hlt := Base64.lt_of_mem_sextets hn
  exact Base64.Alphabet.urlSafe.pad_notMem (hchar ▸ Base64.Alphabet.char_mem _ hlt)

lemma base64UrlDecodeBytes_eq_some_iff {text : Text} {bytes : List UInt8} :
    base64UrlDecodeBytes text = some bytes ↔ Spells text bytes := by
  rw [base64UrlDecodeBytes_eq, Base64.decode_eq_some_iff]
  constructor
  · intro h
    obtain ⟨fill, hfill, hdvd, htext⟩ := h
    have hpads : ∀ c ∈ text.rtakeWhile (· == '='), c = '=' :=
      fun c hc => eq_of_beq (mem_rtakeWhile_imp (p := (· == '=')) hc)
    refine ⟨fill, (text.rtakeWhile (· == '=')).length, hfill, hdvd, ?_⟩
    rw [← htext, ← eq_replicate_of_mem hpads, rdropWhile_append_rtakeWhile]
  · intro h
    obtain ⟨fill, pads, hfill, hdvd, htext⟩ := h
    exact ⟨fill, hfill, hdvd, by rw [htext, rdropWhile_pad (pad_notMem_sextets _)]⟩

def hmacOf : JwtAlgorithm → List UInt8 → List UInt8 → List UInt8
  | .hs256 => hmacSha256
  | .hs384 => hmacSha384
  | .hs512 => hmacSha512
  | .none => fun _ _ => []

namespace JwtMiddleware

lemma constantTimeCompare_eq_true_iff {a b : List UInt8} : constantTimeCompare a b ↔ a = b := by
  unfold constantTimeCompare
  split
  · next hlen => exact iff_of_false (by simp) fun heq => hlen (by rw [heq])
  · next hlen =>
    rw [beq_iff_eq, foldl_differences (not_not.mp hlen)]
    exact and_iff_right rfl

def signedMessage (header payload : Text) : List UInt8 :=
  (String.ofList (header ++ '.' :: payload)).toUTF8.toList

section Tokens

variable (hmac : JwtAlgorithm → List UInt8 → List UInt8 → List UInt8) (toUppercase : Text → Text)
  {m : JwtMiddleware}

lemma verifySignature_eq_ok_iff {secret : List UInt8} (hsecret : m.secret = some secret)
    (halgorithm : m.algorithm ≠ .none) {header payload signature : Text} :
    m.verifySignature hmac header payload signature = .ok () ↔
      Spells signature (hmac m.algorithm secret (signedMessage header payload)) := by
  rw [← base64UrlDecodeBytes_eq_some_iff, verifySignature, if_neg halgorithm, hsecret,
    signedMessage]
  cases base64UrlDecodeBytes signature with
  | none => exact iff_of_false (fun h => by cases h) (fun h => by cases h)
  | some actual =>
    show (if constantTimeCompare _ actual then _ else _) = _ ↔ some actual = some _
    split
    · next heq => exact iff_of_true rfl (by rw [constantTimeCompare_eq_true_iff.mp heq])
    · next hne =>
      refine iff_of_false (fun h => by cases h) fun h => hne ?_
      exact constantTimeCompare_eq_true_iff.mpr (Option.some.inj h).symm

lemma verifySignature_congr {header payload signature signature' : Text}
    (h : base64UrlDecodeBytes signature = base64UrlDecodeBytes signature') :
    m.verifySignature hmac header payload signature =
      m.verifySignature hmac header payload signature' := by
  rw [verifySignature, verifySignature, h]

/-- A token with its signature. -/
def token (header payload signature : Text) : Text :=
  header ++ '.' :: (payload ++ '.' :: signature)

section Segments

variable {header payload : Text} (hheader : '.' ∉ header) (hpayload : '.' ∉ payload)

include hheader hpayload

variable {signature : Text} {now : UInt64}

lemma splitOn_token (hsignature : '.' ∉ signature) :
    (token header payload signature).splitOn '.' = [header, payload, signature] := by
  rw [token, splitOn_append_cons_self_of_not_mem hheader,
    splitOn_append_cons_self_of_not_mem hpayload, splitOn_eq_singleton hsignature]

lemma verifySignature_of_ok (hsignature : '.' ∉ signature) {claims : Claims}
    (h : m.validateToken hmac toUppercase now (token header payload signature) = .ok claims) :
    m.verifySignature hmac header payload signature = .ok () := by
  rw [validateToken, splitOn_token hheader hpayload hsignature] at h
  obtain ⟨headerJson, -, h⟩ := bind_eq_ok h
  obtain ⟨fields, -, h⟩ := bind_eq_ok h
  split at h
  · cases h
  · split at h
    · cases h
    · obtain ⟨_, hverify, _⟩ := bind_eq_ok h
      exact hverify

lemma validateToken_congr {signature' : Text}
    (hsignature : '.' ∉ signature) (hsignature' : '.' ∉ signature')
    (h : base64UrlDecodeBytes signature = base64UrlDecodeBytes signature') :
    m.validateToken hmac toUppercase now (token header payload signature) =
      m.validateToken hmac toUppercase now (token header payload signature') := by
  rw [validateToken, validateToken, splitOn_token hheader hpayload hsignature,
    splitOn_token hheader hpayload hsignature']
  simp only [verifySignature_congr hmac h]

end Segments

end Tokens

/-- **One HMAC, several spellings.** The decoder accepts the spellings of bytes; the signatures of
two accepted tokens with the same header and payload stand for the same bytes; and signatures that
stand for the same bytes have the same outcome at any time. -/
theorem signatures_spell (toUppercase : Text → Text) {m : JwtMiddleware} {secret : List UInt8}
    (hsecret : m.secret = some secret) (halgorithm : m.algorithm ≠ .none)
    {header payload signature signature' : Text} (hheader : '.' ∉ header)
    (hpayload : '.' ∉ payload) (hsignature : '.' ∉ signature) (hsignature' : '.' ∉ signature') :
    (∀ text bytes, base64UrlDecodeBytes text = some bytes ↔ Spells text bytes) ∧
    (∀ now now' claims claims',
      m.validateToken hmacOf toUppercase now (token header payload signature) = .ok claims →
      m.validateToken hmacOf toUppercase now' (token header payload signature') = .ok claims' →
      ∃ bytes, Spells signature bytes ∧ Spells signature' bytes) ∧
    ∀ bytes, Spells signature bytes → Spells signature' bytes → ∀ now,
      m.validateToken hmacOf toUppercase now (token header payload signature') =
        m.validateToken hmacOf toUppercase now (token header payload signature) := by
  refine ⟨fun _ _ => base64UrlDecodeBytes_eq_some_iff, ?_, ?_⟩
  · intro now now' claims claims' h h'
    have hverify := verifySignature_of_ok hmacOf toUppercase hheader hpayload hsignature h
    have hverify' := verifySignature_of_ok hmacOf toUppercase hheader hpayload hsignature' h'
    exact ⟨_, (verifySignature_eq_ok_iff hmacOf hsecret halgorithm).mp hverify,
      (verifySignature_eq_ok_iff hmacOf hsecret halgorithm).mp hverify'⟩
  · intro bytes hspells hspells' now
    refine validateToken_congr hmacOf toUppercase hheader hpayload hsignature' hsignature ?_
    rw [base64UrlDecodeBytes_eq_some_iff.mpr hspells, base64UrlDecodeBytes_eq_some_iff.mpr hspells']

def keyed : JwtMiddleware where
  secret := some (asBytes "k")
  algorithm := .hs256

def keyedHeader : Text := "eyJhbGciOiJIUzI1NiJ9"

def keyedPayload : Text := "e30"

def keyedSignature : Text := "CYG8qKSuUG1cj5ZM7YUE3kRjuUjOfiv14zgdYx-7pLo"

def keyedSignature' : Text := "CYG8qKSuUG1cj5ZM7YUE3kRjuUjOfiv14zgdYx-7pLp"

lemma keyedSignature_bytes :
    base64UrlDecodeBytes keyedSignature = base64UrlDecodeBytes keyedSignature' := by
  decide +kernel

lemma validateToken_keyed (now : UInt64) :
    keyed.validateToken hmacOf (map Char.toUpper) now
      (token keyedHeader keyedPayload keyedSignature) = .ok fun _ => none := by
  have hheader : base64UrlDecode keyedHeader = some "\x7b\"alg\":\"HS256\"\x7d" := by
    decide +kernel
  have hpayload : base64UrlDecode keyedPayload = some "\x7b\x7d" := by decide +kernel
  have hverify : keyed.verifySignature hmacOf keyedHeader keyedPayload keyedSignature = .ok () := by
    rw [verifySignature_eq_ok_iff hmacOf rfl (by decide), ← base64UrlDecodeBytes_eq_some_iff]
    decide +kernel
  rw [validateToken, splitOn_token (by decide) (by decide) (by decide)]
  simp only [hheader, hpayload, hverify]
  show keyed.validatePayload now (Json.Document.text { members := [] }) = _
  rw [validatePayload, parseClaims_document, claimsFrom_done rfl]
  rfl

lemma validateToken_keyed' (now : UInt64) :
    keyed.validateToken hmacOf (map Char.toUpper) now
      (token keyedHeader keyedPayload keyedSignature') = .ok fun _ => none := by
  rw [← validateToken_congr hmacOf _ (by decide) (by decide) (by decide) (by decide)
    keyedSignature_bytes, validateToken_keyed]

theorem signatures_spell_keyed :
    ∃ bytes, Spells keyedSignature bytes ∧ Spells keyedSignature' bytes ∧
      keyed.validateToken hmacOf (List.map Char.toUpper) 0
        (token keyedHeader keyedPayload keyedSignature') =
          keyed.validateToken hmacOf (List.map Char.toUpper) 0
            (token keyedHeader keyedPayload keyedSignature) := by
  obtain ⟨-, hsame, halike⟩ := @signatures_spell (map Char.toUpper) keyed _ rfl (by decide)
    keyedHeader keyedPayload keyedSignature keyedSignature' (by decide) (by decide) (by decide)
    (by decide)
  obtain ⟨bytes, hspells, hspells'⟩ :=
    hsame 0 0 _ _ (validateToken_keyed 0) (validateToken_keyed' 0)
  exact ⟨bytes, hspells, hspells', halike bytes hspells hspells' 0⟩

theorem two_signatures :
    keyedSignature ≠ keyedSignature' ∧
      (∃ claims, keyed.validateToken hmacOf (List.map Char.toUpper) 0
        (token keyedHeader keyedPayload keyedSignature) = .ok claims) ∧
      ∃ claims, keyed.validateToken hmacOf (List.map Char.toUpper) 0
        (token keyedHeader keyedPayload keyedSignature') = .ok claims :=
  ⟨by decide, ⟨_, validateToken_keyed 0⟩, ⟨_, validateToken_keyed' 0⟩⟩

end JwtMiddleware

end TrafficCop
