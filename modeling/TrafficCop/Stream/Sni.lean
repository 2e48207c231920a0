import TrafficCop.Lib.Wire
import TrafficCop.Rust.Core
import TrafficCop.Rust.Text

/-!
# The server name of a ClientHello

`TcpProxy::parse_sni` and `parse_sni_extension` of `tcp/proxy.rs`. The code moves an offset through
the bytes. `readHello` and `walk` read the same from the front, and the grammar of TLS is stated for
them with the fields of `Lib.Wire`.
-/

namespace TrafficCop

open Rust Wire List Option Outcome

namespace TcpProxy

/-! ## The code -/

/-- An index or a slice out of range panics. -/
def byteAt (data : Bytes) (i : ℕ) : Outcome Empty ℕ :=
  match data[i]? with
  | some b => .ok b.toNat
  | none => .panic

def u16At (data : Bytes) (i : ℕ) : Outcome Empty ℕ := do
  let hi ← byteAt data i
  let lo ← byteAt data (i + 1)
  return hi <<< 8 ||| lo

def sliceAt (data : Bytes) (start stop : ℕ) : Outcome Empty Bytes :=
  if start ≤ stop ∧ stop ≤ data.length then .ok ((data.drop start).take (stop - start)) else .panic

/-- Each length is checked before the next field is read, except that of the server_name extension
itself. -/
def parseSniExtension (data : Bytes) : Outcome Empty (Option Text) :=
  if data.length < 5 then .ok none
  else do
    let _listLen ← u16At data 0
    let nameType ← byteAt data 2
    if nameType ≠ 0 then return none
    else do
      let nameLen ← u16At data 3
      if 5 + nameLen > data.length then return none
      else do
        let name ← sliceAt data 5 (5 + nameLen)
        return fromUtf8 name

def parseExtensions (data : Bytes) (extensionsEnd offset : ℕ) : Outcome Empty (Option Text) :=
  if offset + 4 ≤ extensionsEnd then do
    let extType ← u16At data offset
    let extLen ← u16At data (offset + 2)
    if extType = 0 then
      parseSniExtension (← sliceAt data (offset + 4) (offset + 4 + extLen))
    else parseExtensions data extensionsEnd (offset + 4 + extLen)
  else .ok none
termination_by extensionsEnd - offset

def parseSni (data : Bytes) : Outcome Empty (Option Text) :=
  if data.length < 38 then .ok none
  else do
    -- "Handshake type (should be ClientHello = 1)"
    let handshakeType ← byteAt data 0
    if handshakeType ≠ 1 then return none
    -- "Skip: handshake type (1), length (3), version (2), random (32)"
    else if 38 ≥ data.length then return none
    else do
      let sessionIdLen ← byteAt data 38
      let offset := 38 + (1 + sessionIdLen)
      if offset + 2 > data.length then return none
      else do
        let cipherSuitesLen ← u16At data offset
        let offset := offset + (2 + cipherSuitesLen)
        if offset + 1 > data.length then return none
        else do
          let compressionLen ← byteAt data offset
          let offset := offset + (1 + compressionLen)
          if offset + 2 > data.length then return none
          else do
            let extensionsLen ← u16At data offset
            let offset := offset + 2
            let extensionsEnd := offset + extensionsLen
            if extensionsEnd > data.length then return none
            else parseExtensions data extensionsEnd offset

/-! ## The same from the front -/

/-- The extensions within the next `n` bytes. -/
def walk (n : ℕ) (input : Bytes) : Outcome Empty (Option Text) :=
  if 4 ≤ n then
    match readU16 input with
    | none => .ok none
    | some (extType, rest) =>
      match readU16 rest with
      | none => .ok none
      | some (extLen, rest) =>
        if extType = 0 then
          match readBody extLen rest with
          | some (body, _) => parseSniExtension body
          | none => .panic
        else walk (n - 4 - extLen) (rest.drop extLen)
  else .ok none
termination_by n

/-- The length of the extensions, and the extensions with what follows. -/
def readExtensions (input : Bytes) : Option (ℕ × Bytes) :=
  (readU16 input).bind fun p => if p.1 ≤ p.2.length then some p else none

def readCompressionMethods (input : Bytes) : Option (ℕ × Bytes) :=
  (readVec8 input).bind fun p => readExtensions p.2

def readCipherSuites (input : Bytes) : Option (ℕ × Bytes) :=
  (readVec16 input).bind fun p => readCompressionMethods p.2

/-- The extensions of a ClientHello, behind the other fields. -/
def readHello (data : Bytes) : Option (ℕ × Bytes) :=
  if 38 ≤ data.length ∧ data.head? = some 1 then
    (readVec8 (data.drop 38)).bind fun p => readCipherSuites p.2
  else none

/-! ## Reading at an offset -/

lemma shiftLeft_or {hi lo : ℕ} (h : lo < 256) : hi <<< 8 ||| lo = 256 * hi + lo := by
  rw [← Nat.shiftLeft_add_eq_or_of_lt (i := 8) h, Nat.shiftLeft_eq, Nat.mul_comm]

variable {data rest : Bytes} {offset : ℕ}

variable {b : UInt8} {input : Bytes} {n extType extLen : ℕ} {e : Extension}

lemma byteAt_of_drop (h : data.drop offset = b :: rest) : byteAt data offset = .ok b.toNat := by
  have hget : data[offset]? = some b := by
    have hzero := congrArg (·[0]?) h
    simpa using hzero
  rw [byteAt, hget]

lemma drop_add (h : data.drop offset = rest) (n : ℕ) : data.drop (offset + n) = rest.drop n := by
  rw [← h, drop_drop]

lemma u16At_of_drop (h : data.drop offset = input) (hread : readU16 input = some (n, rest)) :
    u16At data offset = .ok n := by
  rcases input with _ | ⟨hi, _ | ⟨lo, tail⟩⟩ <;> cases hread
  have hnext : data.drop (offset + 1) = lo :: rest := drop_add h 1
  rw [u16At, byteAt_of_drop h, byteAt_of_drop hnext]
  exact congrArg ok (shiftLeft_or lo.toNat_lt)

lemma length_of_drop (h : data.drop offset = rest) (hle : offset ≤ data.length) :
    data.length = offset + rest.length := by
  rw [← h, length_drop]
  omega

lemma sliceAt_eq (h : data.drop offset = rest) (hle : offset ≤ data.length) (n : ℕ) :
    sliceAt data offset (offset + n) =
      match readBody n rest with
      | some (body, _) => .ok body
      | none => .panic := by
  have hlength := length_of_drop h hle
  rw [sliceAt, readBody, h, Nat.add_sub_cancel_left]
  by_cases hn : n ≤ rest.length
  · rw [if_pos (by omega), if_pos hn]
  · rw [if_neg (by omega), if_neg hn]

lemma walk_header (hn : 4 ≤ n) (ht : extType < 65536) (hl : extLen < 65536) (rest : Bytes) :
    walk n (u16 extType ++ (u16 extLen ++ rest)) =
      if extType = 0 then
        match readBody extLen rest with
        | some (body, _) => parseSniExtension body
        | none => .panic
      else walk (n - 4 - extLen) (rest.drop extLen) := by
  rw [walk, if_pos hn, readU16_append ht]
  dsimp only
  rw [readU16_append hl]

lemma walk_of_lt (hn : n < 4) (input : Bytes) : walk n input = .ok none := by
  rw [walk, if_neg (by omega)]

lemma parseExtensions_eq {extensionsEnd : ℕ} (hend : extensionsEnd ≤ data.length) (offset : ℕ) :
    parseExtensions data extensionsEnd offset =
      walk (extensionsEnd - offset) (data.drop offset) := by
  rw [parseExtensions]
  by_cases hmore : offset + 4 ≤ extensionsEnd
  · have hlength : (data.drop offset).length = data.length - offset := length_drop
    obtain ⟨extType, r, ht, hdrop⟩ := exists_u16 (show 2 ≤ (data.drop offset).length by omega)
    rw [hdrop, length_append, length_u16] at hlength
    obtain ⟨extLen, rest, hl, rfl⟩ := exists_u16 (show 2 ≤ r.length by omega)
    have hlen : data.drop (offset + 2) = u16 extLen ++ rest := drop_add hdrop 2
    have hbody : data.drop (offset + 4) = rest := drop_add hdrop 4
    rw [if_pos hmore, u16At_of_drop hdrop (readU16_append ht _),
      u16At_of_drop hlen (readU16_append hl _), hdrop, walk_header (by omega) ht hl]
    simp only [ok_bind]
    split
    · rw [sliceAt_eq hbody (by omega)]
      cases readBody extLen rest <;> rfl
    · rw [parseExtensions_eq hend, ← drop_add hbody]
      congr 1
      omega
  · rw [if_neg hmore, walk_of_lt (by omega)]
termination_by extensionsEnd - offset

/-! ## The fields before the extensions -/

lemma checked_byte (data : Bytes) (offset : ℕ) (k : ℕ → Outcome Empty (Option Text)) :
    (if offset + 1 > data.length then .ok none else byteAt data offset >>= k) =
      match data.drop offset with
      | [] => .ok none
      | b :: _ => k b.toNat := by
  have hlength : (data.drop offset).length = data.length - offset := length_drop
  cases h : data.drop offset with
  | nil =>
    rw [h, length_nil] at hlength
    rw [if_pos (by omega)]
  | cons b rest =>
    rw [h, length_cons] at hlength
    rw [if_neg (by omega), byteAt_of_drop h, ok_bind]

lemma checked_u16 (data : Bytes) (offset : ℕ) (k : ℕ → Outcome Empty (Option Text)) :
    (if offset + 2 > data.length then .ok none else u16At data offset >>= k) =
      match readU16 (data.drop offset) with
      | none => .ok none
      | some (n, _) => k n := by
  have hlength : (data.drop offset).length = data.length - offset := length_drop
  rcases h : data.drop offset with _ | ⟨hi, _ | ⟨lo, rest⟩⟩
  · rw [h, length_nil] at hlength
    rw [if_pos (by omega)]
    rfl
  · rw [h, length_singleton] at hlength
    rw [if_pos (by omega)]
    rfl
  · rw [h, length_cons, length_cons] at hlength
    rw [if_neg (by omega), u16At_of_drop h rfl, ok_bind]
    rfl

lemma drop_byte (h : data.drop offset = b :: rest) (n : ℕ) :
    data.drop (offset + (1 + n)) = rest.drop n := by
  rw [drop_add h, Nat.add_comm, drop_succ_cons]

lemma drop_u16 (h : data.drop offset = input) (hread : readU16 input = some (n, rest)) (k : ℕ) :
    data.drop (offset + (2 + k)) = rest.drop k := by
  obtain ⟨-, rfl⟩ := readU16_eq_some.mp hread
  rw [drop_add h, ← drop_drop]
  rfl

lemma checked_extensions (h : data.drop offset = input) (hread : readU16 input = some (n, rest)) :
    (if offset + 2 + n > data.length then .ok none
      else parseExtensions data (offset + 2 + n) (offset + 2)) =
      if n ≤ rest.length then walk n rest else .ok none := by
  have hrest : data.drop (offset + 2) = rest := drop_u16 h hread 0
  have hlength : data.length - offset = rest.length + 2 := by
    obtain ⟨-, rfl⟩ := readU16_eq_some.mp hread
    rw [← length_drop, h, length_append, length_u16, Nat.add_comm]
  by_cases hfits : n ≤ rest.length
  · rw [if_neg (by omega), if_pos hfits, parseExtensions_eq (by omega), hrest,
      Nat.add_sub_cancel_left]
  · rw [if_pos (by omega), if_neg hfits]

/-- If a skipped field is cut short, nothing is left for the next. -/
lemma readHello_eq (hlength : 38 ≤ data.length) (hhead : data.head? = some 1) :
    readHello data = skipVec8 (skipVec16 (skipVec8 readExtensions)) (data.drop 38) := by
  have hcompression : readCompressionMethods = skipVec8 readExtensions :=
    funext (readVec8_bind rfl)
  have hsuites : readCipherSuites = skipVec16 readCompressionMethods :=
    funext (readVec16_bind rfl)
  rw [readHello, if_pos ⟨hlength, hhead⟩, ← hcompression, ← hsuites]
  exact readVec8_bind (f := readCipherSuites) rfl _

lemma parseSni_eq (data : Bytes) :
    parseSni data =
      match readHello data with
      | none => .ok none
      | some (n, rest) => walk n rest := by
  by_cases hlength : 38 ≤ data.length
  swap
  · rw [parseSni, if_pos (by omega), readHello, if_neg fun h => hlength h.1]
  obtain ⟨t, body, rfl⟩ : ∃ t body, data = t :: body :=
    exists_cons_of_length_pos (by omega)
  have hfirst : byteAt (t :: body) 0 = .ok t.toNat := rfl
  rw [parseSni, if_neg (by omega), hfirst, ok_bind]
  by_cases ht : t = 1
  swap
  · have hnat : t.toNat ≠ 1 := fun h => ht (UInt8.toNat_inj.mp h)
    rw [if_pos hnat, readHello, if_neg fun h => ht (Option.some.inj h.2)]
    rfl
  subst ht
  generalize hdata : (1 : UInt8) :: body = data at *
  have hhead : data.head? = some 1 := by rw [← hdata, head?_cons]
  rw [readHello_eq hlength hhead, if_neg (by simp)]
  -- field by field: a check of the code is a read that may fail
  have hbound : (38 ≥ data.length) = (38 + 1 > data.length) := by simp only [eq_iff_iff]; omega
  rw [if_congr (iff_of_eq hbound) rfl rfl]
  refine (checked_byte data 38 _).trans ?_
  cases hsession : data.drop 38 with
  | nil => rfl
  | cons sessionIdLen r =>
    have hsuites := drop_byte hsession sessionIdLen.toNat
    refine (checked_u16 data _ _).trans ?_
    rw [hsuites, skipVec8, skipVec16]
    cases hc : readU16 (r.drop sessionIdLen.toNat) with
    | none => rfl
    | some p =>
      obtain ⟨cipherSuitesLen, r⟩ := p
      have hcompression := drop_u16 hsuites hc cipherSuitesLen
      refine (checked_byte data _ _).trans ?_
      rw [hcompression, bind_some]
      cases hm : r.drop cipherSuitesLen with
      | nil => rfl
      | cons compressionLen r =>
        rw [hm] at hcompression
        have hextensions := drop_byte hcompression compressionLen.toNat
        refine (checked_u16 data _ _).trans ?_
        rw [hextensions, skipVec8, readExtensions]
        cases hn : readU16 (r.drop compressionLen.toNat) with
        | none => rfl
        | some p =>
          obtain ⟨extensionsLen, rest⟩ := p
          refine (checked_extensions hextensions hn).trans ?_
          rw [bind_some]
          split <;> rfl

/-! ## The grammar -/

structure Extension where
  extType : ℕ
  body : Bytes
  extType_lt : extType < 65536
  body_lt : body.length < 65536

def Extension.encode (e : Extension) : Bytes := u16 e.extType ++ vec16 e.body

def encodeExtensions (extensions : List Extension) : Bytes := extensions.flatMap Extension.encode

@[simp] lemma encodeExtensions_nil : encodeExtensions [] = [] := rfl

@[simp] lemma encodeExtensions_cons (e : Extension) (extensions : List Extension) :
    encodeExtensions (e :: extensions) = e.encode ++ encodeExtensions extensions := rfl

lemma encodeExtensions_append (xs ys : List Extension) :
    encodeExtensions (xs ++ ys) = encodeExtensions xs ++ encodeExtensions ys :=
  flatMap_append

lemma Extension.encode_append (e : Extension) (rest : Bytes) :
    e.encode ++ rest = u16 e.extType ++ (u16 e.body.length ++ (e.body ++ rest)) := by
  rw [encode, vec16, append_assoc, append_assoc]

@[simp] lemma Extension.length_encode (e : Extension) : e.encode.length = e.body.length + 4 := by
  rw [encode, length_append, length_u16, length_vec16]
  omega

/-- The fields before the extensions. The first of the 38 bytes is the message type; length, version
and random are not looked at. -/
structure Preamble where
  head : Bytes
  sessionId : Bytes
  cipherSuites : Bytes
  compressionMethods : Bytes
  head_length : head.length = 38
  head_type : head.head? = some 1
  sessionId_lt : sessionId.length < 256
  cipherSuites_lt : cipherSuites.length < 65536
  compressionMethods_lt : compressionMethods.length < 256

def Preamble.encode (p : Preamble) : Bytes :=
  p.head ++ (vec8 p.sessionId ++ (vec16 p.cipherSuites ++ vec8 p.compressionMethods))

lemma readExtensions_eq_some :
    readExtensions input = some (n, rest) ↔
      n < 65536 ∧ n ≤ rest.length ∧ input = u16 n ++ rest := by
  rw [readExtensions, bind_eq_some_iff]
  constructor
  · rintro ⟨p, hp, h⟩
    split at h
    · next hle =>
      obtain rfl := Option.some.inj h
      obtain ⟨hn, rfl⟩ := readU16_eq_some.mp hp
      exact ⟨hn, hle, rfl⟩
    · cases h
  · rintro ⟨hn, hle, rfl⟩
    exact ⟨(n, rest), readU16_append hn rest, if_pos hle⟩

/-- A message is read exactly if its fields up to the extensions are there. -/
lemma readHello_eq_some :
    readHello data = some (n, rest) ↔
      n < 65536 ∧ n ≤ rest.length ∧ ∃ p : Preamble, data = p.encode ++ (u16 n ++ rest) := by
  rw [readHello]
  constructor
  · intro h
    split at h
    swap
    · cases h
    next hhead =>
    obtain ⟨⟨sessionId, r1⟩, hsession, h1⟩ := bind_eq_some_iff.mp h
    obtain ⟨⟨cipherSuites, r2⟩, hsuites, h2⟩ := bind_eq_some_iff.mp h1
    obtain ⟨⟨compressionMethods, r3⟩, hcompression, h3⟩ := bind_eq_some_iff.mp h2
    obtain ⟨hsession_lt, hdrop⟩ := readVec8_eq_some.mp hsession
    obtain ⟨hsuites_lt, rfl⟩ := readVec16_eq_some.mp hsuites
    obtain ⟨hcompression_lt, rfl⟩ := readVec8_eq_some.mp hcompression
    obtain ⟨hn, hle, rfl⟩ := readExtensions_eq_some.mp h3
    -- of the first 38 bytes only the type is looked at
    have htake : (data.take 38).length = 38 := length_take_of_le hhead.1
    refine ⟨hn, hle, ⟨data.take 38, sessionId, cipherSuites, compressionMethods, htake, ?_,
      hsession_lt, hsuites_lt, hcompression_lt⟩, ?_⟩
    · rw [head?_take, if_neg (by decide), hhead.2]
    · simp only [Preamble.encode, append_assoc]
      rw [← hdrop, take_append_drop]
  · rintro ⟨hn, hle, p, rfl⟩
    have hlength := p.head_length
    have hhead : (p.encode ++ (u16 n ++ rest)).head? = some 1 := by
      rw [Preamble.encode, append_assoc, head?_append, p.head_type, some_or]
    have hdrop : (p.encode ++ (u16 n ++ rest)).drop 38 =
        vec8 p.sessionId ++ (vec16 p.cipherSuites ++ (vec8 p.compressionMethods ++
          (u16 n ++ rest))) := by
      simp only [Preamble.encode, append_assoc]
      rw [← hlength, drop_left]
    rw [if_pos ⟨by simp [Preamble.encode, hlength], hhead⟩, hdrop,
      readVec8_eq_some.mpr ⟨p.sessionId_lt, rfl⟩, bind_some, readCipherSuites,
      readVec16_eq_some.mpr ⟨p.cipherSuites_lt, rfl⟩, bind_some, readCompressionMethods,
      readVec8_eq_some.mpr ⟨p.compressionMethods_lt, rfl⟩, bind_some]
    exact readExtensions_eq_some.mpr ⟨hn, hle, rfl⟩

/-! ## The walk over the extensions -/

lemma walk_cons (he : e.extType ≠ 0) (n : ℕ) (rest : Bytes) :
    walk (e.encode.length + n) (e.encode ++ rest) = walk n rest := by
  rw [e.encode_append, e.length_encode, walk_header (by omega) e.extType_lt e.body_lt, if_neg he,
    drop_left]
  congr 1
  omega

lemma walk_extensions {extensions : List Extension} (h : ∀ e ∈ extensions, e.extType ≠ 0) (n : ℕ)
    (rest : Bytes) :
    walk ((encodeExtensions extensions).length + n) (encodeExtensions extensions ++ rest) =
      walk n rest := by
  induction extensions with
  | nil => rw [encodeExtensions_nil, length_nil, Nat.zero_add, nil_append]
  | cons e extensions ih =>
    rw [encodeExtensions_cons, length_append, Nat.add_assoc, append_assoc,
      walk_cons (h e mem_cons_self), ih fun e he => h e (mem_cons_of_mem _ he)]

/-! ## The server name -/

lemma parseSniExtension_eq (l1 l2 t : UInt8) (rest : Bytes) :
    parseSniExtension (l1 :: l2 :: t :: rest) =
      .ok (if t = 0 then (readVec16 rest).bind fun p => fromUtf8 p.1 else none) := by
  rcases rest with _ | ⟨n1, _ | ⟨n2, rest⟩⟩
  · split <;> rfl
  · split <;> rfl
  generalize hdata : l1 :: l2 :: t :: n1 :: n2 :: rest = data
  have hlist : data.drop 0 = l1 :: l2 :: t :: n1 :: n2 :: rest := hdata.symm
  have htype : data.drop 2 = t :: n1 :: n2 :: rest := drop_add hlist 2
  have hname : data.drop 3 = n1 :: n2 :: rest := drop_add hlist 3
  have hbody : data.drop 5 = rest := drop_add hlist 5
  have hlength : data.length = rest.length + 5 := by rw [← hdata]; rfl
  rw [parseSniExtension, if_neg (by omega), u16At_of_drop hlist rfl, byteAt_of_drop htype,
    u16At_of_drop hname rfl]
  simp only [ok_bind]
  by_cases ht : t = 0
  swap
  · have hnat : t.toNat ≠ 0 := fun h => ht (UInt8.toNat_inj.mp h)
    rw [if_pos hnat, if_neg ht]
    rfl
  have hnat : ¬t.toNat ≠ 0 := fun h => h (congrArg UInt8.toNat ht)
  rw [if_neg hnat, if_pos ht, sliceAt_eq hbody (by omega), readVec16, readU16, bind_some]
  dsimp only
  rw [readBody]
  by_cases hfits : 256 * n1.toNat + n2.toNat ≤ rest.length
  · rw [if_neg (by omega), if_pos hfits]
    rfl
  · rw [if_pos (by omega), if_neg hfits]
    rfl

lemma parseSniExtension_ok (data : Bytes) : ∃ sni, parseSniExtension data = .ok sni := by
  rcases data with _ | ⟨l1, _ | ⟨l2, _ | ⟨t, rest⟩⟩⟩
  case cons.cons.cons => exact ⟨_, parseSniExtension_eq l1 l2 t rest⟩
  all_goals exact ⟨none, rfl⟩

/-! ## Panics -/

/-- Within `n` bytes, behind other extensions, is the header of a server_name longer than what is
left. -/
def ServerNameOverrun (n : ℕ) (input : Bytes) : Prop :=
  ∃ (extensions : List Extension) (extLen : ℕ) (rest : Bytes),
    input = encodeExtensions extensions ++ (u16 0 ++ (u16 extLen ++ rest)) ∧
    (∀ e ∈ extensions, e.extType ≠ 0) ∧
    (encodeExtensions extensions).length + 4 ≤ n ∧
    extLen < 65536 ∧ rest.length < extLen

lemma ServerNameOverrun.cons (he : e.extType ≠ 0) (h : ServerNameOverrun n rest) :
    ServerNameOverrun (e.encode.length + n) (e.encode ++ rest) := by
  obtain ⟨extensions, extLen, tail, rfl, hothers, hbytes, hl, hshort⟩ := h
  refine ⟨e :: extensions, extLen, tail, ?_, ?_, ?_, hl, hshort⟩
  · rw [encodeExtensions_cons, append_assoc]
  · exact forall_mem_cons.mpr ⟨he, hothers⟩
  · rw [encodeExtensions_cons, length_append]
    omega

lemma exists_extension (ht : extType < 65536) (hl : extLen < 65536)
    (hfits : extLen ≤ rest.length) :
    ∃ e : Extension, e.extType = extType ∧ e.encode.length = extLen + 4 ∧
      e.encode ++ rest.drop extLen = u16 extType ++ (u16 extLen ++ rest) := by
  have htake : (rest.take extLen).length = extLen := length_take_of_le hfits
  obtain ⟨e, htype, hbody⟩ : ∃ e : Extension, e.extType = extType ∧ e.body = rest.take extLen :=
    ⟨⟨extType, rest.take extLen, ht, by rwa [htake]⟩, rfl, rfl⟩
  refine ⟨e, htype, ?_, ?_⟩
  · rw [e.length_encode, hbody, htake]
  · rw [e.encode_append, htype, hbody, htake, take_append_drop]

lemma ServerNameOverrun.of_walk_eq_panic (hn : n ≤ input.length)
    (h : walk n input = .panic) : ServerNameOverrun n input := by
  -- one header at a time; the bytes that are left get fewer
  induction n using Nat.strong_induction_on generalizing input with
  | h n ih =>
    have hfour : 4 ≤ n := by
      by_contra hlt
      rw [walk_of_lt (by omega)] at h
      cases h
    obtain ⟨extType, r, ht, rfl⟩ := exists_u16 (show 2 ≤ input.length by omega)
    simp only [length_append, length_u16] at hn
    obtain ⟨extLen, r, hl, rfl⟩ := exists_u16 (show 2 ≤ r.length by omega)
    simp only [length_append, length_u16] at hn
    rw [walk_header hfour ht hl] at h
    by_cases hname : extType = 0
    · -- a server_name extension that is there is parsed, and that returns
      subst hname
      refine ⟨[], extLen, r, rfl, by simp, by simpa using hfour, hl, ?_⟩
      by_contra hfits
      obtain ⟨sni, hsni⟩ := parseSniExtension_ok (r.take extLen)
      rw [if_pos rfl, readBody, if_pos (by omega)] at h
      dsimp only at h
      rw [hsni] at h
      cases h
    · -- any other one is complete, for otherwise the walk ends behind it
      rw [if_neg hname] at h
      have hlong : extLen + 4 ≤ n := by
        by_contra hlt
        rw [walk_of_lt (by omega)] at h
        cases h
      have hlength : (r.drop extLen).length = r.length - extLen := length_drop
      obtain ⟨e, rfl, hencode_length, hencode⟩ :=
        exists_extension ht hl (show extLen ≤ r.length by omega)
      have hinner := (ih (n - 4 - extLen) (by omega) (by omega) h).cons hname
      rwa [hencode, hencode_length, show extLen + 4 + (n - 4 - extLen) = n by omega] at hinner

lemma walk_eq_panic (hn : n ≤ input.length) :
    walk n input = .panic ↔ ServerNameOverrun n input := by
  refine ⟨.of_walk_eq_panic hn, ?_⟩
  rintro ⟨extensions, extLen, rest, rfl, hothers, hbytes, hl, hshort⟩
  obtain ⟨k, rfl⟩ := Nat.exists_eq_add_of_le hbytes
  rw [Nat.add_assoc, walk_extensions hothers, walk_header (by omega) (by omega) hl, if_pos rfl,
    readBody, if_neg (by omega)]

/-- A ClientHello whose server_name extension is longer than the message, all other lengths
consistent. -/
def Overrun (data : Bytes) : Prop :=
  ∃ (p : Preamble) (n : ℕ) (rest : Bytes),
    data = p.encode ++ (u16 n ++ rest) ∧ n < 65536 ∧ n ≤ rest.length ∧ ServerNameOverrun n rest

lemma parseSni_eq_panic (data : Bytes) : parseSni data = .panic ↔ Overrun data := by
  rw [parseSni_eq]
  constructor
  · intro h
    split at h
    · cases h
    · next n rest hread =>
      obtain ⟨hn, hle, p, hdata⟩ := readHello_eq_some.mp hread
      exact ⟨p, n, rest, hdata, hn, hle, (walk_eq_panic hle).mp h⟩
  · rintro ⟨p, n, rest, hdata, hn, hle, hoverrun⟩
    rw [readHello_eq_some.mpr ⟨hn, hle, p, hdata⟩]
    exact (walk_eq_panic hle).mpr hoverrun

/-- The byte strings from which both functions return: those that are no ClientHello with a
server_name extension that is longer than the message. -/
theorem parseSni_safe_iff (data : Bytes) :
    ((∃ sni, parseSni data = .ok sni) ∧ ∃ sni, parseSniExtension data = .ok sni) ↔
      ¬Overrun data := by
  rw [and_iff_left (parseSniExtension_ok data), exists_eq_ok_iff, ne_eq, parseSni_eq_panic]

/-- A message of 48 bytes that ends with the header of a server_name extension of one byte. -/
theorem parseSni_overrun :
    parseSni (1 :: List.replicate 37 0 ++ [0, 0, 0, 0, 0, 4, 0, 0, 0, 1]) = .panic := by
  have hread : readHello (1 :: List.replicate 37 0 ++ [0, 0, 0, 0, 0, 4, 0, 0, 0, 1]) =
      some (4, u16 0 ++ (u16 1 ++ [])) := by decide
  rw [parseSni_eq, hread]
  exact walk_header (le_refl 4) (by decide) (by decide) []

/-! ## Well-formed messages -/

def u24 (n : ℕ) : Bytes := UInt8.ofNat (n / 65536) :: u16 (n % 65536)

structure ClientHello where
  version : Bytes
  random : Bytes
  sessionId : Bytes
  cipherSuites : Bytes
  compressionMethods : Bytes
  extensions : List Extension
  version_length : version.length = 2
  random_length : random.length = 32
  sessionId_lt : sessionId.length < 256
  cipherSuites_lt : cipherSuites.length < 65536
  compressionMethods_lt : compressionMethods.length < 256
  extensions_lt : (encodeExtensions extensions).length < 65536

namespace ClientHello

variable (hello : ClientHello)

def body : Bytes :=
  hello.version ++ hello.random ++ vec8 hello.sessionId ++ vec16 hello.cipherSuites ++
    vec8 hello.compressionMethods ++ vec16 (encodeExtensions hello.extensions)

def encode : Bytes := 1 :: u24 hello.body.length ++ hello.body

def preamble : Preamble where
  head := 1 :: u24 hello.body.length ++ hello.version ++ hello.random
  sessionId := hello.sessionId
  cipherSuites := hello.cipherSuites
  compressionMethods := hello.compressionMethods
  head_length := by
    rw [length_append, length_append, hello.version_length, hello.random_length]
    rfl
  head_type := rfl
  sessionId_lt := hello.sessionId_lt
  cipherSuites_lt := hello.cipherSuites_lt
  compressionMethods_lt := hello.compressionMethods_lt

lemma encode_append (trailing : Bytes) : hello.encode ++ trailing = hello.preamble.encode ++
      (u16 (encodeExtensions hello.extensions).length ++
        (encodeExtensions hello.extensions ++ trailing)) := by
  simp only [encode, body, preamble, Preamble.encode, vec16, append_assoc, cons_append]

end ClientHello

/-- The first server_name extension is read, whatever comes behind. -/
lemma parseSni_clientHello (hello : ClientHello) (trailing : Bytes) :
    parseSni (hello.encode ++ trailing) =
      match hello.extensions.find? (·.extType = 0) with
      | some e => parseSniExtension e.body
      | none => .ok none := by
  have hread : readHello (hello.encode ++ trailing) =
      some ((encodeExtensions hello.extensions).length,
        encodeExtensions hello.extensions ++ trailing) :=
    readHello_eq_some.mpr
      ⟨hello.extensions_lt, by simp, hello.preamble, hello.encode_append trailing⟩
  rw [parseSni_eq, hread]
  dsimp only
  cases hfind : hello.extensions.find? (·.extType = 0) with
  | none =>
    have hothers : ∀ e ∈ hello.extensions, e.extType ≠ 0 := by simpa using hfind
    have hwalk := walk_extensions hothers 0 trailing
    rw [Nat.add_zero] at hwalk
    exact hwalk.trans (walk_of_lt (by decide) trailing)
  | some e =>
    obtain ⟨he, before, after, hsplit, hothers⟩ := find?_eq_some_iff_append.mp hfind
    have hbefore : ∀ x ∈ before, x.extType ≠ 0 := by simpa using hothers
    have htype : e.extType = 0 := by simpa using he
    rw [hsplit, encodeExtensions_append, encodeExtensions_cons, length_append,
      append_assoc, walk_extensions hbefore, append_assoc, length_append, e.encode_append, htype,
      walk_header (by simp; omega) (by decide) e.body_lt, if_pos rfl,
      readBody_eq_some.mpr ⟨rfl, rfl⟩]

/-- An entry of a server_name extension; type 0 is host_name. -/
structure ServerName where
  nameType : UInt8
  name : Bytes
  name_lt : name.length < 65536

def ServerName.encode (entry : ServerName) : Bytes := entry.nameType :: vec16 entry.name

def encodeServerNames (entries : List ServerName) : Bytes :=
  vec16 (entries.flatMap ServerName.encode)

lemma parseSniExtension_serverNames {entry : ServerName} (htype : entry.nameType = 0)
    (entries : List ServerName) :
    parseSniExtension (encodeServerNames (entry :: entries)) = .ok (fromUtf8 entry.name) := by
  have hread : readVec16 (vec16 entry.name ++ entries.flatMap ServerName.encode) =
      some (entry.name, entries.flatMap ServerName.encode) :=
    readVec16_eq_some.mpr ⟨entry.name_lt, rfl⟩
  refine (parseSniExtension_eq _ _ entry.nameType
    (vec16 entry.name ++ entries.flatMap ServerName.encode)).trans ?_
  rw [if_pos htype, hread, bind_some]

/-- The server name of every well-formed message, with anything behind it. -/
theorem parseSni_correct (hello : ClientHello) (trailing : Bytes) :
    ((∀ e ∈ hello.extensions, e.extType ≠ 0) → parseSni (hello.encode ++ trailing) = .ok none) ∧
    ∀ (before after : List Extension) (e : Extension) (entry : ServerName)
      (entries : List ServerName) (name : Text),
      hello.extensions = before ++ e :: after → (∀ x ∈ before, x.extType ≠ 0) → e.extType = 0 →
      e.body = encodeServerNames (entry :: entries) → entry.nameType = 0 →
      entry.name = asBytes name →
      parseSni (hello.encode ++ trailing) = .ok (some name) := by
  rw [parseSni_clientHello]
  constructor
  · intro hothers
    have hfind : hello.extensions.find? (·.extType = 0) = none := by simpa using hothers
    rw [hfind]
  · intro before after e entry entries name hsplit hbefore htype hbody hname hbytes
    have hfind : hello.extensions.find? (·.extType = 0) = some e :=
      find?_eq_some_iff_append.mpr
        ⟨by simpa using htype, before, after, hsplit, by simpa using hbefore⟩
    rw [hfind]
    dsimp only
    rw [hbody, parseSniExtension_serverNames hname, hbytes, fromUtf8_asBytes]

def bareHello : ClientHello where
  version := [3, 3]
  random := List.replicate 32 0
  sessionId := []
  cipherSuites := [19, 1]
  compressionMethods := [0]
  extensions := []
  version_length := rfl
  random_length := rfl
  sessionId_lt := by decide
  cipherSuites_lt := by decide
  compressionMethods_lt := by decide
  extensions_lt := by decide

def hostName : ServerName := ⟨0, asBytes ['a', '.', 'b'], by decide⟩

def serverNameExtension : Extension := ⟨0, encodeServerNames [hostName], by decide, by decide⟩

def namedHello : ClientHello :=
  { bareHello with extensions := [serverNameExtension], extensions_lt := by decide }

theorem parseSni_correct_hellos :
    parseSni (bareHello.encode ++ [0]) = .ok none ∧
      parseSni (namedHello.encode ++ [0]) = .ok (some ['a', '.', 'b']) :=
  ⟨(parseSni_correct bareHello [0]).1 nofun,
    (parseSni_correct namedHello [0]).2 [] [] serverNameExtension hostName [] _ rfl nofun rfl rfl
      rfl rfl⟩

end TcpProxy

end TrafficCop
