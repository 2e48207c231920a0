import TrafficCop.Lib.Der
import TrafficCop.Rust.Text

/-!
# The names in certificate requests

`build_cn` and `build_san_attribute` of `tls/acme/client.rs`, with the lengths that they write.
-/

namespace TrafficCop

open Rust List Option Der

namespace Csr

/-- A length has two bytes at most; of a longer one the lowest two are written. -/
def encodeLength (len : ℕ) : List UInt8 :=
  if len < 128 then [UInt8.ofNat len]
  else if len < 256 then [0x81, UInt8.ofNat len]
  else [0x82, UInt8.ofNat (len / 256), UInt8.ofNat len]

/-- The tag, `encode_length` and the data. -/
def wrap (tag : UInt8) (data : List UInt8) : List UInt8 :=
  tag :: (encodeLength data.length ++ data)

def wrapSequence (data : List UInt8) : List UInt8 := wrap 0x30 data

def wrapSet (data : List UInt8) : List UInt8 := wrap 0x31 data

def wrapOctetString (data : List UInt8) : List UInt8 := wrap 0x04 data

/-- The OID 2.5.4.3 of common names. -/
def cnOid : List UInt8 := [0x06, 0x03, 0x55, 0x04, 0x03]

/-- The OID 2.5.29.17 of the extension. -/
def sanOid : List UInt8 := [0x06, 0x03, 0x55, 0x1d, 0x11]

/-- The OID 1.2.840.113549.1.9.14 of the attribute. -/
def extReqOid : List UInt8 :=
  [0x06, 0x09, 0x2a, 0x86, 0x48, 0x86, 0xf7, 0x0d, 0x01, 0x09, 0x0e]

/-- The `RelativeDistinguishedName` of `build_cn`. -/
def rdn (cn : Text) : List UInt8 := wrapSet (wrapSequence (cnOid ++ wrap 0x0c (asBytes cn)))

def buildCn (cn : Text) : List UInt8 := wrapSequence (rdn cn)

def attrSeq (domains : List Text) : List UInt8 :=
  let sanSeq := wrapSequence (domains.flatMap fun domain => wrap 0x82 (asBytes domain))
  let extsSeq := wrapSequence (wrapSequence (sanOid ++ wrapOctetString sanSeq))
  wrapSequence (extReqOid ++ wrapSet extsSeq)

def buildSanAttribute (domains : List Text) : List UInt8 := wrap 0xa0 (attrSeq domains)

/-! ## Decoding -/

/-- The common name: sequence, set, pair of its OID and a `UTF8String`. -/
def decodeCn (bytes : List UInt8) : Option (List UInt8) :=
  ((((only 0x30 bytes).bind (only 0x31)).bind (only 0x30)).bind
    (behind 0x06 [0x55, 0x04, 0x03])).bind (only 0x0c)

/-- The extension of the only attribute, an `extensionRequest` for one extension. -/
def decodeExtension (bytes : List UInt8) : Option (List UInt8) :=
  ((((((only 0xa0 bytes).bind (only 0x30)).bind
    (behind 0x06 [0x2a, 0x86, 0x48, 0x86, 0xf7, 0x0d, 0x01, 0x09, 0x0e])).bind
    (only 0x31)).bind (only 0x30)).bind (only 0x30))

/-- Its names: it is a `subjectAltName` with `dNSName` entries. -/
def decodeSan (bytes : List UInt8) : Option (List (List UInt8)) :=
  ((((decodeExtension bytes).bind (behind 0x06 [0x55, 0x1d, 0x11])).bind (only 0x04)).bind
    (only 0x30)).bind fun names => items 0x82 names.length names

/-! ## Lengths -/

lemma length_bigEndian_lt {n : ℕ} (h : n < 65536) : (bigEndian n).length < 128 := by
  rw [bigEndian, length_reverse, length_map]
  exact ((Nat.digits_length_le_iff (k := 2) (by decide) n).mpr h).trans_lt (by decide)

lemma encodeLength_eq_iff (n : ℕ) : encodeLength n = length n ↔ n < 65536 := by
  unfold encodeLength Der.length
  split_ifs with h128 h256
  · exact iff_of_true rfl (by omega)
  · have hdigits : Nat.digits 256 n = [n] := Nat.digits_of_lt 256 n (by omega) h256
    refine iff_of_true ?_ (by omega)
    rw [bigEndian, hdigits]
    rfl
  · constructor
    · intro h
      have hlen := congrArg List.length h
      simp only [bigEndian, length_cons, length_reverse, length_map] at hlen
      exact (Nat.digits_length_le_iff (b := 256) (k := 2) (by decide) n).mp
        (Nat.le_of_succ_le_succ hlen.ge)
    · intro h
      have hdigits : Nat.digits 256 n = [n % 256, n / 256] := by
        rw [Nat.digits_def' (by decide) (by omega), Nat.digits_of_lt 256 _ (by omega) (by omega)]
      have hlow : UInt8.ofNat (n % 256) = UInt8.ofNat n := UInt8.ofNat_mod_size
      rw [bigEndian, hdigits, ← hlow]
      rfl

variable {tag : UInt8} {data first : List UInt8} {n : ℕ}

lemma wrap_eq_tlv (h : data.length < 65536) : wrap tag data = tlv tag data := by
  rw [wrap, (encodeLength_eq_iff _).mpr h, tlv]

lemma only_wrap (h : data.length < 65536) : only tag (wrap tag data) = some data := by
  rw [wrap_eq_tlv h, only_tlv (length_bigEndian_lt h)]

lemma only_wrap_of_le (h : 65536 ≤ data.length) : only tag (wrap tag data) = none := by
  have hlength : encodeLength data.length =
      [0x82, UInt8.ofNat (data.length / 256), UInt8.ofNat data.length] := by
    rw [encodeLength, if_neg (by omega), if_neg (by omega)]
  have hvalue : ∀ a b : UInt8, value [a, b] < 65536 := by
    intro a b
    have ha := a.toNat_lt
    have hb := b.toNat_lt
    simp only [value, reverse_cons, reverse_nil, nil_append, cons_append,
      map_cons, map_nil, Nat.ofDigits_cons, Nat.ofDigits_nil]
    omega
  have hread : ∀ a b, readLength (0x82 :: a :: b :: data) =
      if length (value [a, b]) = [0x82, a, b] then some (value [a, b], data)
      else none := fun _ _ => rfl
  rw [only, wrap, hlength]
  show ((readLength (0x82 :: _ :: _ :: data)).bind _).bind _ = none
  rw [hread]
  generalize hn : value [UInt8.ofNat (data.length / 256), UInt8.ofNat data.length] = n
  have hlt : n < 65536 := hn ▸ hvalue _ _
  split
  · have hle : n ≤ data.length := by omega
    rw [bind_some, if_pos hle, bind_some, if_neg]
    rintro ⟨-, hnil⟩
    have hge : data.length ≤ n := drop_eq_nil_iff.mp hnil
    omega
  · rfl

/-- How long a content of this length is with its tag and length. -/
def wrapped (n : ℕ) : ℕ := if n < 128 then n + 2 else if n < 256 then n + 3 else n + 4

lemma length_wrap : (wrap tag data).length = wrapped data.length := by
  rw [wrap, encodeLength, wrapped, length_cons, length_append]
  split_ifs <;> simp <;> omega

lemma wrapped_lt_iff {k : ℕ} (hk : 264 ≤ k) : wrapped n < k ↔ n < k - 4 := by
  unfold wrapped
  split_ifs <;> omega

/-- What the bounds on the outermost contents mean for the names. -/
lemma length_lt_iff (domains : List Text) (cn : Text) :
    ((attrSeq domains).length < 65536 ↔
      (domains.map fun domain => wrapped (asBytes domain).length).sum < 65496) ∧
    ((rdn cn).length < 65536 ↔ (asBytes cn).length < 65519) := by
  have hadd {n k j : ℕ} (hk : 264 ≤ k) : j + wrapped n < k + j ↔ n < k - 4 := by
    rw [Nat.add_comm j, Nat.add_lt_add_iff_right, wrapped_lt_iff hk]
  have hbytes (d : List Text) : (d.flatMap fun domain => wrap 0x82 (asBytes domain)).length =
      (d.map fun domain => wrapped (asBytes domain).length).sum := by
    simp only [length_flatMap, length_wrap]
  have hsan : extReqOid.length = 11 ∧ sanOid.length = 5 ∧ cnOid.length = 5 := by decide
  simp only [attrSeq, rdn, wrapSequence, wrapSet, wrapOctetString, length_wrap, length_append,
    hbytes, hsan]
  constructor
  · rw [wrapped_lt_iff (by decide), @hadd _ 65521 11 (by decide), wrapped_lt_iff (by decide),
      wrapped_lt_iff (by decide), @hadd _ 65504 5 (by decide), wrapped_lt_iff (by decide)]
  · rw [wrapped_lt_iff (by decide), wrapped_lt_iff (by decide), @hadd _ 65523 5 (by decide)]

lemma lt_of_wrap (h : (wrap tag data).length < n) : data.length < n := by
  rw [wrap, length_cons, length_append] at h
  omega

lemma lt_of_append (h : (first ++ data).length < n) : data.length < n := by
  rw [length_append] at h
  omega

lemma flatMap_wrap_bounds (tag : UInt8) (values : List (List UInt8)) :
    values.length ≤ (values.flatMap (wrap tag)).length ∧
      ∀ c ∈ values, c.length ≤ (values.flatMap (wrap tag)).length := by
  induction values with
  | nil => exact ⟨le_rfl, nofun⟩
  | cons c values ih =>
    have hc : c.length < (wrap tag c).length := by
      rw [wrap, length_cons, length_append]
      omega
    rw [flatMap_cons, length_append, length_cons]
    refine ⟨by omega, forall_mem_cons.mpr ⟨by omega, fun c hc => ?_⟩⟩
    exact (ih.2 c hc).trans (Nat.le_add_left _ _)

lemma items_wrap (tag : UInt8) {values : List (List UInt8)}
    (h : (values.flatMap (wrap tag)).length < 65536) :
    items tag (values.flatMap (wrap tag)).length (values.flatMap (wrap tag)) = some values := by
  obtain ⟨hcount, hbound⟩ := flatMap_wrap_bounds tag values
  have htlv : values.flatMap (wrap tag) = values.flatMap (tlv tag) :=
    flatMap_congr fun c hc => wrap_eq_tlv ((hbound c hc).trans_lt h)
  generalize (values.flatMap (wrap tag)).length = k at hcount hbound h ⊢
  rw [htlv]
  exact items_tlv values (fun c hc => length_bigEndian_lt ((hbound c hc).trans_lt h)) hcount

/-! ## Names -/

lemma behind_oid {oid : List UInt8} (h : oid.length < 65536) (rest : List UInt8) :
    behind 0x06 oid (tlv 0x06 oid ++ rest) = some rest :=
  behind_tlv (length_bigEndian_lt h) rest

lemma decodeCn_buildCn {cn : Text} (h : (rdn cn).length < 65536) :
    decodeCn (buildCn cn) = some (asBytes cn) := by
  have hset := lt_of_wrap h
  have hpair := lt_of_wrap hset
  have htext := lt_of_wrap (lt_of_append hpair)
  have hoid : ∀ rest, behind 0x06 [0x55, 0x04, 0x03] (cnOid ++ rest) = some rest :=
    behind_oid (by decide)
  rw [decodeCn, buildCn, wrapSequence, only_wrap h, bind_some, rdn, wrapSet,
    only_wrap hset, bind_some, wrapSequence, only_wrap hpair, bind_some, hoid,
    bind_some, only_wrap htext]

lemma decodeSan_buildSanAttribute {domains : List Text} (h : (attrSeq domains).length < 65536) :
    decodeSan (buildSanAttribute domains) = some (domains.map asBytes) := by
  -- what is inside is not longer
  have hattr := lt_of_wrap h
  have hset := lt_of_wrap (lt_of_append hattr)
  have hexts := lt_of_wrap hset
  have hext := lt_of_wrap hexts
  have hoctets := lt_of_wrap (lt_of_append hext)
  have hnames := lt_of_wrap hoctets
  have hentries := items_wrap 0x82 (show ((domains.map asBytes).flatMap _).length < 65536 by
    rwa [flatMap_map])
  rw [flatMap_map] at hentries
  have hreq : ∀ rest, behind 0x06 [0x2a, 0x86, 0x48, 0x86, 0xf7, 0x0d, 0x01, 0x09, 0x0e]
      (extReqOid ++ rest) = some rest := behind_oid (by decide)
  have hsan : ∀ rest, behind 0x06 [0x55, 0x1d, 0x11] (sanOid ++ rest) = some rest :=
    behind_oid (by decide)
  rw [decodeSan, decodeExtension, buildSanAttribute, only_wrap h, bind_some, attrSeq,
    wrapSequence, only_wrap hattr, bind_some, hreq, bind_some, wrapSet,
    only_wrap hset, bind_some, wrapSequence, only_wrap hexts, bind_some,
    wrapSequence, only_wrap hext, bind_some, hsan, bind_some, wrapOctetString,
    only_wrap hoctets, bind_some, wrapSequence, only_wrap hnames, bind_some]
  exact hentries

/-- **When names can be read back**: the encodings are right up to the length that two bytes can
say, of the outermost contents as of any other (`length_lt_iff` says how long the names may be). -/
theorem csr_der_iff (domains : List Text) (cn : Text) (len : ℕ) :
    (decodeSan (buildSanAttribute domains) = some (domains.map asBytes) ↔
      (attrSeq domains).length < 65536) ∧
    (decodeCn (buildCn cn) = some (asBytes cn) ↔ (rdn cn).length < 65536) ∧
    (encodeLength len = length len ↔ len < 65536) := by
  refine ⟨⟨fun h => ?_, decodeSan_buildSanAttribute⟩, ⟨fun h => ?_, decodeCn_buildCn⟩,
    encodeLength_eq_iff len⟩
  · by_contra hlong
    rw [decodeSan, decodeExtension, buildSanAttribute,
      only_wrap_of_le (Nat.le_of_not_lt hlong)] at h
    cases h
  · by_contra hlong
    rw [decodeCn, buildCn, wrapSequence, only_wrap_of_le (Nat.le_of_not_lt hlong)] at h
    cases h

theorem encodeLength_truncates :
    encodeLength 65536 = [0x82, 0x00, 0x00] ∧ length 65536 = [0x83, 0x01, 0x00, 0x00] := by
  decide +kernel

end Csr

end TrafficCop
