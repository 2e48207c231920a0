import TrafficCop.Lib.Percent
import TrafficCop.Proxy.Headers

/-!
# Trace contexts

`telemetry/propagation.rs`. A trace context is read from `traceparent`, from the B3 fields or from
the field of Jaeger, or drawn anew, and is written to `traceparent` and the B3 fields. What is read
from B3 and Jaeger is not checked.
-/

namespace TrafficCop

open Rust Http List Option HeaderValue

structure TraceContext where
  traceId : Text
  parentId : Text
  traceFlags : UInt8
  traceState : Option Text := none
  deriving DecidableEq

namespace TraceContext

def hexChars : Text := "0123456789abcdef"

/-- A byte with two digits: one round of `to_hex`, and `{:02x}`. -/
def hexByte (b : UInt8) : Text :=
  [hexChars.getD (b >>> 4).toNat '0', hexChars.getD (b &&& 0x0f).toNat '0']

def hexValue (digits : Text) : ℕ :=
  digits.foldl (fun n c => 16 * n + (Percent.digitValue c).getD 0) 0

/-- The digits of a `u8`; at least one. -/
def parseHex (digits : Text) : Option UInt8 :=
  if digits.isEmpty || !digits.all isAsciiHexdigit then none
  else if hexValue digits < 256 then some (UInt8.ofNat (hexValue digits)) else none

/-- `u8::from_str_radix(s, 16).ok()`. -/
def fromStrRadix16 : Text → Option UInt8
  | '+' :: digits => parseHex digits
  | digits => parseHex digits

/-- What `fill_random` finds: the shared state, and the clock in nanoseconds. -/
structure Draw where
  state : UInt64
  nanos : UInt64

/-- The bytes of `fill_random`, one round each. -/
def fillRandom : ℕ → UInt64 → List UInt8
  | 0, _ => []
  | n + 1, state =>
    let state := state ^^^ (state <<< 13)
    let state := state ^^^ (state >>> 7)
    let state := state ^^^ (state <<< 17)
    state.toUInt8 :: fillRandom n state

/-- `generate_trace_id` and `generate_span_id`, with 16 and 8 bytes. -/
def generateId (n : ℕ) (draw : Draw) : Text :=
  (fillRandom n (if draw.state = 0 then draw.nanos ||| 1 else draw.state)).flatMap hexByte

def new (trace span : Draw) : TraceContext where
  traceId := generateId 16 trace
  parentId := generateId 8 span
  traceFlags := 0x01

/-- The check of an id of `n` digits. -/
def validId (n : ℕ) (id : Text) : Bool :=
  byteLen id == n && id.all isAsciiHexdigit && id != replicate n '0'

/-- The ids are ASCII when they are changed to lower case. -/
def parseTraceparent (value : Text) : Option TraceContext :=
  match value.splitOn '-' with
  | [version, traceId, parentId, flags] =>
    if version ≠ "00" then none
    else if !validId 32 traceId then none
    else if !validId 16 parentId then none
    else
      (fromStrRadix16 flags).map fun traceFlags =>
        { traceId := toAsciiLowercase traceId, parentId := toAsciiLowercase parentId, traceFlags }
  | _ => none

/-- The format of `to_traceparent`. -/
def traceparent (traceId parentId flags : Text) : Text :=
  "00" ++ '-' :: (traceId ++ '-' :: (parentId ++ '-' :: flags))

def toTraceparent (ctx : TraceContext) : Text :=
  traceparent ctx.traceId ctx.parentId (hexByte ctx.traceFlags)

def isSampled (ctx : TraceContext) : Bool := ctx.traceFlags &&& 0x01 != 0

def headerText (headers : HeaderMap) (name : Text) : Option Text :=
  (headers.get name).bind toStr

/-- "Normalize trace_id to 32 chars". -/
def normalizeTraceId (id : Text) : Text :=
  toAsciiLowercase (if byteLen id = 16 then replicate 16 '0' ++ id else id)

/-- "Try W3C traceparent header first". -/
def extractW3c (headers : HeaderMap) : Option TraceContext :=
  ((headerText headers "traceparent").bind parseTraceparent).map fun ctx =>
    { ctx with traceState := headerText headers "tracestate" }

/-- "Try B3 propagation format (used by Zipkin)". -/
def extractB3 (headers : HeaderMap) : Option TraceContext :=
  match headerText headers "x-b3-traceid".toList, headerText headers "x-b3-spanid".toList with
  | some tid, some sid =>
    let sampled := ((headerText headers "x-b3-sampled".toList).map fun v =>
      v == "1".toList || eqIgnoreAsciiCase v "true".toList).getD true
    some { traceId := normalizeTraceId tid, parentId := toAsciiLowercase sid,
           traceFlags := if sampled then 0x01 else 0x00 }
  | _, _ => none

/-- "Try Jaeger format". -/
def extractJaeger (headers : HeaderMap) : Option TraceContext :=
  (headerText headers "uber-trace-id").bind fun value =>
    match value.splitOn ':' with
    | traceId :: spanId :: _ :: flags :: _ =>
      some { traceId := normalizeTraceId traceId, parentId := toAsciiLowercase spanId,
             traceFlags := (fromStrRadix16 flags).getD 1 }
    | _ => none

/-- `extract_context`, with the draws that a new context would take. -/
def extractContext (headers : HeaderMap) (trace span : Draw) : TraceContext :=
  (((extractW3c headers).or (extractB3 headers)).or (extractJaeger headers)).getD (.new trace span)

def injectContext (headers : HeaderMap) (ctx : TraceContext) : HeaderMap :=
  let headers := insertText headers "traceparent" (some ctx.toTraceparent)
  let headers := insertText headers "tracestate" ctx.traceState
  let headers := insertText headers "x-b3-traceid" (some ctx.traceId)
  let headers := insertText headers "x-b3-spanid" (some ctx.parentId)
  insertText headers "x-b3-sampled"
    (some (if ctx.isSampled then "1" else "0"))

/-! ## Digits -/

lemma forall_ascii {p : Char → Bool} (h : ∀ n : Fin 128, p (Char.ofNat n)) {c : Char}
    (hc : isAscii c) : p c := by
  have hlt : c.toNat < 128 := of_decide_eq_true hc
  have hp := h ⟨c.toNat, hlt⟩
  rwa [Char.ofNat_toNat] at hp

lemma isAscii_of_hexdigit {c : Char} (h : isAsciiHexdigit c) : isAscii c := by
  simp only [isAsciiHexdigit, Bool.or_eq_true, Bool.and_eq_true, decide_eq_true_eq,
    Char.le_def, UInt32.le_iff_toNat_le] at h
  rw [isAscii, decide_eq_true_eq]
  show c.val.toNat < 128
  simp only [Char.reduceVal, UInt32.reduceToNat] at h
  omega

/-- In lower case a digit is one of `HEX_CHARS`, and no other digit becomes a zero. -/
lemma toLower_of_hexdigit {c : Char} (h : isAsciiHexdigit c) :
    c.toLower ∈ hexChars ∧ (c.toLower = '0' → c = '0') ∧ c ≠ '-' := by
  have hall := forall_ascii (p := fun c => !isAsciiHexdigit c ||
    decide (c.toLower ∈ hexChars ∧ (c.toLower = '0' → c = '0') ∧ c ≠ '-'))
    (by decide +kernel) (isAscii_of_hexdigit h)
  rw [h] at hall
  exact of_decide_eq_true hall

lemma of_mem_hexChars : ∀ c ∈ hexChars, isAsciiHexdigit c ∧ c.toLower = c ∧
    (String.utf8EncodeChar c).all isVisibleAscii = true :=
  forall_char (by decide +kernel)

/-- A number of digits of `HEX_CHARS`. -/
def LowerHex (n : ℕ) (s : Text) : Prop := s.length = n ∧ ∀ c ∈ s, c ∈ hexChars

lemma byteLen_of_hexdigits {s : Text} (h : ∀ c ∈ s, isAsciiHexdigit c) : byteLen s = s.length :=
  byteLen_of_ascii fun c hc => isAscii_of_hexdigit (h c hc)

lemma LowerHex.lowercase {n : ℕ} {s : Text} (h : LowerHex n s) : toAsciiLowercase s = s :=
  (map_congr_left fun c hc => (of_mem_hexChars c (h.2 c hc)).2.1).trans (map_id s)

/-- An id: `n` digits, not all zero. -/
def HexId (n : ℕ) (id : Text) : Prop := LowerHex n id ∧ id ≠ replicate n '0'

lemma fromStrRadix16_hexByte (f : UInt8) :
    fromStrRadix16 (hexByte f) = some f ∧ LowerHex 2 (hexByte f) := by
  have hall : ∀ n : Fin 256, fromStrRadix16 (hexByte (UInt8.ofNat n)) = some (UInt8.ofNat n) ∧
      (hexByte (UInt8.ofNat n)).all (· ∈ hexChars) = true := by decide +kernel
  have hf := hall ⟨f.toNat, f.toNat_lt⟩
  rw [UInt8.ofNat_toNat] at hf
  exact ⟨hf.1, rfl, fun c hc => of_decide_eq_true (all_eq_true.mp hf.2 c hc)⟩

lemma exists_hexByte {flags : Text} (h : LowerHex 2 flags) :
    ∃ f, fromStrRadix16 flags = some f ∧ hexByte f = flags := by
  have hall : (hexChars.all fun a => hexChars.all fun b =>
      (fromStrRadix16 [a, b]).map hexByte == some [a, b]) := by decide +kernel
  obtain ⟨a, b, rfl⟩ := length_eq_two.mp h.1
  have hrow := all_eq_true.mp hall a (h.2 a (by simp))
  have hpair := all_eq_true.mp hrow b (h.2 b (by simp))
  exact map_eq_some_iff.mp (beq_iff_eq.mp hpair)

variable {v tid pid flags : Text} {n : ℕ} {id : Text} {f : UInt8} {ctx : TraceContext}

lemma validId_iff : validId n id ↔
    id.length = n ∧ (∀ c ∈ id, isAsciiHexdigit c) ∧ id ≠ replicate n '0' := by
  simp only [validId, Bool.and_eq_true, beq_iff_eq, bne_iff_ne, List.all_eq_true, and_assoc]
  refine and_congr_left fun h => ?_
  rw [byteLen_of_hexdigits h.1]

lemma validId_of_hexId (h : HexId n id) : validId n id :=
  validId_iff.mpr ⟨h.1.1, fun c hc => (of_mem_hexChars c (h.1.2 c hc)).1, h.2⟩

lemma hexId_of_validId (h : validId n id) : HexId n (toAsciiLowercase id) := by
  obtain ⟨hlen, hdigits, hne⟩ := validId_iff.mp h
  refine ⟨⟨(length_map _).trans hlen, fun c hc => ?_⟩, fun heq => hne ?_⟩
  · obtain ⟨d, hd, rfl⟩ := mem_map.mp hc
    exact (toLower_of_hexdigit (hdigits d hd)).1
  · -- the digits that become zeros are zeros
    refine eq_replicate_iff.mpr ⟨hlen, fun d hd => ?_⟩
    have hzero : d.toLower ∈ replicate n '0' := heq ▸ mem_map_of_mem hd
    exact (toLower_of_hexdigit (hdigits d hd)).2.1 (eq_of_mem_replicate hzero)

lemma hexdigit_of_toLower {c : Char} (h : c.toLower ∈ hexChars) : isAsciiHexdigit c := by
  have hall := forall_ascii (p := fun c => !decide (c.toLower ∈ hexChars) || isAsciiHexdigit c)
    (by decide +kernel) (isAscii_of_toLower (isAscii_of_hexdigit (of_mem_hexChars _ h).1))
  rwa [decide_eq_true h] at hall

lemma hexId_lowercase_iff : HexId n (toAsciiLowercase id) ↔ validId n id := by
  refine ⟨fun h => validId_iff.mpr ⟨?_, fun c hc => ?_, fun hzero => h.2 ?_⟩, hexId_of_validId⟩
  · exact (length_map _).symm.trans h.1.1
  · exact hexdigit_of_toLower (h.1.2 _ (mem_map_of_mem hc))
  · rw [hzero]
    exact map_replicate

/-- Only an id of 16 digits is padded, so the text has 32 digits or 16. -/
lemma hexId_normalize_iff :
    HexId 32 (normalizeTraceId id) ↔ validId 32 id ∨ validId 16 id := by
  rw [normalizeTraceId, hexId_lowercase_iff]
  have hlen : ∀ {m}, validId m id → byteLen id = m := fun h => by
    simp only [validId, Bool.and_eq_true, beq_iff_eq] at h
    exact h.1.1
  by_cases h16 : byteLen id = 16
  · have hpadded : validId 32 (replicate 16 '0' ++ id) ↔ validId 16 id := by
      rw [validId_iff, validId_iff, replicate_add 16 16, Ne, append_cancel_left_eq, length_append,
        length_replicate, forall_mem_append]
      refine and_congr (by omega) (and_congr (and_iff_right fun c hc => ?_) Iff.rfl)
      rw [eq_of_mem_replicate hc]
      rfl
    rw [if_pos h16, hpadded]
    exact (or_iff_right fun h => absurd (h16.symm.trans (hlen h)) (by decide)).symm
  · rw [if_neg h16]
    exact (or_iff_left fun h => h16 (hlen h)).symm

lemma lowerHex_generateId (n : ℕ) (draw : Draw) : LowerHex (2 * n) (generateId n draw) := by
  have hall : ∀ n state, LowerHex (2 * n) ((fillRandom n state).flatMap hexByte) := by
    intro n
    induction n with
    | zero => exact fun _ => ⟨rfl, fun c hc => absurd hc not_mem_nil⟩
    | succ n ih =>
      intro state
      obtain ⟨hlen, hchars⟩ := (fromStrRadix16_hexByte _).2
      refine ⟨?_, fun c hc => ?_⟩
      · rw [fillRandom, flatMap_cons, length_append, hlen, (ih _).1]
        omega
      · rcases mem_append.mp hc with hc | hc
        · exact hchars c hc
        · exact (ih _).2 c hc
  exact hall n _

lemma dash_notMem_of_validId (h : validId n id) : '-' ∉ id := fun hmem =>
  (toLower_of_hexdigit ((validId_iff.mp h).2.1 _ hmem)).2.2 rfl

lemma dash_notMem_of_flags (h : fromStrRadix16 flags = some f) : '-' ∉ flags := by
  have hdigits : ∀ {s : Text}, parseHex s = some f → '-' ∉ s := by
    intro s hs hmem
    unfold parseHex at hs
    split at hs
    · cases hs
    · next hall =>
      simp only [Bool.or_eq_true, not_or, Bool.not_eq_true, Bool.not_eq_false',
        List.all_eq_true] at hall
      exact (toLower_of_hexdigit (hall.2 _ hmem)).2.2 rfl
  unfold fromStrRadix16 at h
  split at h
  · exact fun hmem => hdigits h (mem_of_ne_of_mem (by decide) hmem)
  · exact hdigits h

/-! ## What is accepted -/

/-- The parts of a text that is accepted. -/
def Reads (v tid pid flags : Text) (f : UInt8) : Prop :=
  v = traceparent tid pid flags ∧ validId 32 tid = true ∧ validId 16 pid = true ∧
    fromStrRadix16 flags = some f

lemma intercalate_eq_traceparent (tid pid flags : Text) :
    ['-'].intercalate ["00", tid, pid, flags] = traceparent tid pid flags := by
  simp [traceparent]

lemma splitOn_of_reads (h : Reads v tid pid flags f) :
    v.splitOn '-' = ["00".toList, tid, pid, flags] := by
  obtain ⟨rfl, htid, hpid, hflags⟩ := h
  rw [← intercalate_eq_traceparent]
  refine splitOn_intercalate _ (fun part hpart => ?_) (cons_ne_nil _ _)
  simp only [mem_cons, not_mem_nil, or_false] at hpart
  rcases hpart with rfl | rfl | rfl | rfl
  · decide
  · exact dash_notMem_of_validId htid
  · exact dash_notMem_of_validId hpid
  · exact dash_notMem_of_flags hflags

lemma parseTraceparent_of_reads (h : Reads v tid pid flags f) :
    parseTraceparent v = some ⟨toAsciiLowercase tid, toAsciiLowercase pid, f, none⟩ := by
  unfold parseTraceparent
  rw [splitOn_of_reads h]
  simp only [h.2.1, h.2.2.1, h.2.2.2, ne_eq, not_true_eq_false, if_false, Bool.not_true,
    Bool.false_eq_true, map_some]

lemma parseTraceparent_eq_some_iff : parseTraceparent v = some ctx ↔ ∃ tid pid flags f,
    Reads v tid pid flags f ∧ ctx = ⟨toAsciiLowercase tid, toAsciiLowercase pid, f, none⟩ := by
  constructor
  · intro h
    unfold parseTraceparent at h
    split at h
    · next version tid pid flags hsplit =>
      split_ifs at h with hversion htid hpid
      obtain ⟨f, hflags, rfl⟩ := map_eq_some_iff.mp h
      refine ⟨tid, pid, flags, f, ⟨?_, ?_, ?_, hflags⟩, rfl⟩
      · rw [← intercalate_eq_traceparent, ← of_not_not hversion, ← hsplit, intercalate_splitOn]
      · exact Bool.not_not_eq.mp htid
      · exact Bool.not_not_eq.mp hpid
    · cases h
  · rintro ⟨tid, pid, flags, f, h, rfl⟩
    exact parseTraceparent_of_reads h

/-! ## The grammar -/

/-- The `traceparent` of the specification. -/
def Grammar (v : Text) : Prop :=
  ∃ tid pid flags, v = traceparent tid pid flags ∧ HexId 32 tid ∧ HexId 16 pid ∧ LowerHex 2 flags

/-- **When the grammar decides**: the texts that fit it are accepted, but so are others: those
with an id that is not in lower case or with flags that are not two digits in lower case. -/
theorem traceparent_grammar_iff (v : Text) :
    (((parseTraceparent v).isSome = true ↔ Grammar v) ∧
      ∀ ctx, parseTraceparent v = some ctx → ctx.toTraceparent = v) ↔
    ∀ tid pid flags f, Reads v tid pid flags f →
      LowerHex 32 tid ∧ LowerHex 16 pid ∧ LowerHex 2 flags := by
  have hreads : ∀ {tid pid flags}, HexId 32 tid → HexId 16 pid → LowerHex 2 flags →
      ∃ f, Reads (traceparent tid pid flags) tid pid flags f := by
    intro tid pid flags htid hpid hflags
    obtain ⟨f, hf, -⟩ := exists_hexByte hflags
    exact ⟨f, rfl, validId_of_hexId htid, validId_of_hexId hpid, hf⟩
  constructor
  · rintro ⟨hgrammar, -⟩ tid pid flags f h
    -- the parts are the pieces between the dashes, so there is one reading
    obtain ⟨tid', pid', flags', rfl, htid, hpid, hflags⟩ :=
      hgrammar.mp (isSome_of_eq_some (parseTraceparent_of_reads h))
    obtain ⟨f', h'⟩ := hreads htid hpid hflags
    have hparts := (splitOn_of_reads h).symm.trans (splitOn_of_reads h')
    simp only [cons.injEq, true_and, and_true] at hparts
    obtain ⟨rfl, rfl, rfl⟩ := hparts
    exact ⟨htid.1, hpid.1, hflags⟩
  · intro hlower
    refine ⟨⟨fun h => ?_, ?_⟩, fun ctx h => ?_⟩
    · obtain ⟨ctx, hctx⟩ := isSome_iff_exists.mp h
      obtain ⟨tid, pid, flags, f, hread, -⟩ := parseTraceparent_eq_some_iff.mp hctx
      obtain ⟨htid, hpid, hflags⟩ := hlower tid pid flags f hread
      exact ⟨tid, pid, flags, hread.1, ⟨htid, (validId_iff.mp hread.2.1).2.2⟩,
        ⟨hpid, (validId_iff.mp hread.2.2.1).2.2⟩, hflags⟩
    · rintro ⟨tid, pid, flags, rfl, htid, hpid, hflags⟩
      obtain ⟨f, h⟩ := hreads htid hpid hflags
      exact isSome_of_eq_some (parseTraceparent_of_reads h)
    · obtain ⟨tid, pid, flags, f, hread, rfl⟩ := parseTraceparent_eq_some_iff.mp h
      obtain ⟨htid, hpid, hflags⟩ := hlower tid pid flags f hread
      obtain ⟨f', hf', hwritten⟩ := exists_hexByte hflags
      obtain rfl : f' = f := Option.some.inj (hf'.symm.trans hread.2.2.2)
      rw [toTraceparent, htid.lowercase, hpid.lowercase, hwritten, hread.1]

/-- An id in upper case and a flag with a sign are accepted, and are written in another way. -/
theorem upper_case_accepted :
    let v := "00-4BF92F3577B34DA6A3CE929D0E0E4736-00f067aa0ba902b7-+1".toList
    (parseTraceparent v).map toTraceparent =
        some "00-4bf92f3577b34da6a3ce929d0e0e4736-00f067aa0ba902b7-01" ∧
      ¬ Grammar v := by
  refine ⟨by decide +kernel, ?_⟩
  rintro ⟨tid, pid, flags, hv, htid, hpid, hflags⟩
  obtain ⟨f, hf, -⟩ := exists_hexByte hflags
  have hread : Reads _ tid pid flags f :=
    ⟨hv, validId_of_hexId htid, validId_of_hexId hpid, hf⟩
  have hlast : ("00-4BF92F3577B34DA6A3CE929D0E0E4736-00f067aa0ba902b7-+1".toList.splitOn
      '-').getLast? = some "+1" := by decide +kernel
  rw [splitOn_of_reads hread] at hlast
  obtain rfl : flags = "+1" := Option.some.inj hlast
  exact absurd (hflags.2 '+' (by decide)) (by decide)

/-! ## A hop -/

/-- The ids are those of the specification. -/
def Wellformed (ctx : TraceContext) : Prop := HexId 32 ctx.traceId ∧ HexId 16 ctx.parentId

lemma wellformed_of_parse (h : parseTraceparent v = some ctx) : Wellformed ctx := by
  obtain ⟨tid, pid, flags, f, hread, rfl⟩ := parseTraceparent_eq_some_iff.mp h
  exact ⟨hexId_of_validId hread.2.1, hexId_of_validId hread.2.2.1⟩

/-! ## The ids that a request gives -/

variable {headers : HeaderMap} {trace span : Draw}

def jaegerIds (headers : HeaderMap) : Option (Text × Text) :=
  (headerText headers "uber-trace-id").bind fun value =>
    match value.splitOn ':' with
    | tid :: sid :: _ :: _ :: _ => some (tid, sid)
    | _ => none

/-- The texts of the ids in the B3 fields or, without these, in the field of Jaeger. -/
def givenIds (headers : HeaderMap) : Option (Text × Text) :=
  match headerText headers "x-b3-traceid", headerText headers "x-b3-spanid" with
  | some tid, some sid => some (tid, sid)
  | _, _ => jaegerIds headers

/-- What the fields of a request have to say for its ids to be those of the specification: they
have an accepted `traceparent`, or else ids of 32 or 16 and of 16 digits that are not zero. Without
ids it is up to the digits that are drawn. -/
def GivesIds (headers : HeaderMap) (trace span : Draw) : Prop :=
  (∃ value ∈ headerText headers "traceparent", ∃ tid pid flags f, Reads value tid pid flags f) ∨
    match givenIds headers with
    | some (tid, sid) => (validId 32 tid = true ∨ validId 16 tid = true) ∧ validId 16 sid = true
    | none => generateId 16 trace ≠ replicate 32 '0' ∧ generateId 8 span ≠ replicate 16 '0'

/-- The ids of a context, from those that are given. -/
def contextIds (trace span : Draw) : Option (Text × Text) → Text × Text
  | some (tid, sid) => (normalizeTraceId tid, toAsciiLowercase sid)
  | none => (generateId 16 trace, generateId 8 span)

lemma extractJaeger_ids (headers : HeaderMap) (trace span : Draw) :
    let ctx := (extractJaeger headers).getD (.new trace span)
    (ctx.traceId, ctx.parentId) = contextIds trace span (jaegerIds headers) := by
  unfold extractJaeger jaegerIds
  cases headerText headers "uber-trace-id" with
  | none => rfl
  | some value =>
    rw [bind_some, bind_some]
    rcases value.splitOn ':' with _ | ⟨tid, _ | ⟨sid, _ | ⟨_, _ | _⟩⟩⟩ <;> rfl

/-- Where no `traceparent` is accepted, the ids are the given ones, or are drawn. -/
lemma extractContext_ids (trace span : Draw) (h : extractW3c headers = none) :
    let ctx := extractContext headers trace span
    (ctx.traceId, ctx.parentId) = contextIds trace span (givenIds headers) := by
  have hjaeger := extractJaeger_ids headers trace span
  unfold extractContext givenIds extractB3
  rw [h, none_or]
  cases headerText headers "x-b3-traceid".toList with
  | none => exact hjaeger
  | some tid =>
    cases headerText headers "x-b3-spanid".toList with
    | none => exact hjaeger
    | some sid => rfl

lemma wellformed_extractContext_iff :
    Wellformed (extractContext headers trace span) ↔ GivesIds headers trace span := by
  unfold GivesIds
  cases hw3c : extractW3c headers with
  | some ctx =>
    obtain ⟨ctx', hparse, rfl⟩ := map_eq_some_iff.mp hw3c
    obtain ⟨value, hvalue, hparse⟩ := bind_eq_some_iff.mp hparse
    obtain ⟨tid, pid, flags, f, hread, -⟩ := parseTraceparent_eq_some_iff.mp hparse
    refine iff_of_true ?_ (.inl ⟨value, hvalue, tid, pid, flags, f, hread⟩)
    unfold extractContext
    rw [hw3c]
    have hformed := wellformed_of_parse hparse
    exact hformed
  | none =>
    rw [or_iff_right]
    · have hids := extractContext_ids trace span hw3c
      unfold Wellformed
      cases hgiven : givenIds headers with
      | some ids =>
        rw [hgiven, contextIds, Prod.mk.injEq] at hids
        rw [hids.1, hids.2]
        exact and_congr hexId_normalize_iff hexId_lowercase_iff
      | none =>
        rw [hgiven, contextIds, Prod.mk.injEq] at hids
        rw [hids.1, hids.2]
        exact and_congr (and_iff_right (lowerHex_generateId 16 trace))
          (and_iff_right (lowerHex_generateId 8 span))
    · rintro ⟨value, hvalue, tid, pid, flags, f, hread⟩
      rw [extractW3c, mem_def.mp hvalue, bind_some, parseTraceparent_of_reads hread] at hw3c
      cases hw3c

lemma parse_toTraceparent (h : Wellformed ctx) :
    parseTraceparent ctx.toTraceparent = some { ctx with traceState := none } := by
  have hread : Reads ctx.toTraceparent ctx.traceId ctx.parentId (hexByte ctx.traceFlags)
      ctx.traceFlags :=
    ⟨rfl, validId_of_hexId h.1, validId_of_hexId h.2, (fromStrRadix16_hexByte _).1⟩
  rw [parseTraceparent_of_reads hread, h.1.1.lowercase, h.2.1.lowercase]

lemma visible_of_wellformed (h : Wellformed ctx) :
    ∀ b ∈ asBytes ctx.toTraceparent, isVisibleAscii b := by
  have hchar : ∀ c ∈ ctx.toTraceparent, c = '-' ∨ c ∈ hexChars := by
    intro c hc
    simp only [toTraceparent, traceparent, mem_append, mem_cons] at hc
    rcases hc with hc | rfl | hc | rfl | hc | rfl | hc
    · exact .inr (forall_char (p := (· ∈ hexChars)) (s := "00") (by decide) c hc)
    · exact .inl rfl
    · exact .inr (h.1.1.2 c hc)
    · exact .inl rfl
    · exact .inr (h.2.1.2 c hc)
    · exact .inl rfl
    · exact .inr ((fromStrRadix16_hexByte _).2.2 c hc)
  intro b hb
  obtain ⟨c, hc, hb⟩ := mem_flatMap.mp hb
  rcases hchar c hc with rfl | hdigit
  · exact all_eq_true.mp (by decide +kernel) b hb
  · exact all_eq_true.mp (of_mem_hexChars c hdigit).2.2 b hb

lemma headerText_injectContext (outgoing : HeaderMap) (h : Wellformed ctx) :
    headerText (injectContext outgoing ctx) "traceparent" = some ctx.toTraceparent := by
  have hvisible := visible_of_wellformed h
  have hvalue : (some ctx.toTraceparent).bind fromStr = some _ :=
    fromStr_eq_some fun b hb =>
      isValidByte_of_isVisibleAscii (hvisible b hb)
  unfold injectContext headerText Multimap.get
  -- the fields that are set behind it have other names
  show (Multimap.getAll (insertText _ "x-b3-sampled" _) _).head?.bind _ = _
  rw [getAll_insertText_of_ne _ (by decide), getAll_insertText_of_ne _ (by decide),
    getAll_insertText_of_ne _ (by decide), getAll_insertText_of_ne _ (by decide),
    getAll_insertText_of_some _ hvalue]
  exact toStr_of_bytes rfl hvisible

/-- The context comes out of a header map as it went in: same ids, flags and decision. -/
def Survives (ctx : TraceContext) (headers : HeaderMap) (trace span : Draw) : Prop :=
  (∃ value ctx', headerText headers "traceparent" = some value ∧
    parseTraceparent value = some ctx' ∧ ctx'.traceId = ctx.traceId ∧
    ctx'.parentId = ctx.parentId ∧ ctx'.traceFlags = ctx.traceFlags) ∧
  (extractContext headers trace span).traceId = ctx.traceId ∧
  (extractContext headers trace span).parentId = ctx.parentId ∧
  (extractContext headers trace span).isSampled = ctx.isSampled

/-- **When a context survives**, whichever way it was found: if the fields that it is taken from
give ids of the right lengths, in digits and not zero. An accepted `traceparent` always does; what
the other formats give is not looked at. -/
theorem context_survives_iff (headers outgoing : HeaderMap) (trace span trace' span' : Draw) :
    Survives (extractContext headers trace span)
        (injectContext outgoing (extractContext headers trace span)) trace' span' ↔
      GivesIds headers trace span := by
  rw [← wellformed_extractContext_iff]
  generalize extractContext headers trace span = ctx
  constructor
  · rintro ⟨⟨value, ctx', -, hparse, htid, hpid, -⟩, -⟩
    have hformed := wellformed_of_parse hparse
    rwa [Wellformed, htid, hpid] at hformed
  · intro h
    have hsent := headerText_injectContext outgoing h
    have hagain : extractContext (injectContext outgoing ctx) trace' span' = { ctx with
        traceState := headerText (injectContext outgoing ctx) "tracestate" } := by
      unfold extractContext extractW3c
      rw [hsent, bind_some, parse_toTraceparent h, map_some, some_or, some_or, getD_some]
    exact ⟨⟨_, _, hsent, parse_toTraceparent h, rfl, rfl, rfl⟩,
      hagain ▸ rfl, hagain ▸ rfl, hagain ▸ rfl⟩

/-- The context of a short span id is not accepted behind the hop. -/
theorem short_span_rejected :
    let headers : HeaderMap := ⟨[("uber-trace-id",
      ⟨asBytes "6f6f6d646e6f6873:1:0:1", isValidByte_of_all (by decide +kernel)⟩)]⟩
    let ctx := extractContext headers ⟨1, 0⟩ ⟨1, 0⟩
    ctx = ⟨"00000000000000006f6f6d646e6f6873", "1", 1, none⟩ ∧
      headerText (injectContext ⟨[]⟩ ctx) "traceparent" =
        some "00-00000000000000006f6f6d646e6f6873-1-01" ∧
      parseTraceparent "00-00000000000000006f6f6d646e6f6873-1-01" = none := by
  decide +kernel

end TraceContext

end TrafficCop
