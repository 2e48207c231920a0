import TrafficCop.Http.Headers
import TrafficCop.Lib.Percent
import TrafficCop.Rust.Core

/-!
# The messages of gRPC errors

`percent_encode` of `proxy/grpc.rs` and the responses that carry its result in `grpc-message`.
-/

namespace TrafficCop

open Rust Http Percent List

/-- The codes of gRPC. -/
inductive GrpcStatus
  | ok
  | cancelled
  | unknown
  | invalidArgument
  | deadlineExceeded
  | notFound
  | alreadyExists
  | permissionDenied
  | resourceExhausted
  | failedPrecondition
  | aborted
  | outOfRange
  | unimplemented
  | internal
  | unavailable
  | dataLoss
  | unauthenticated
  deriving Repr, DecidableEq

def GrpcStatus.code : GrpcStatus → ℕ
  | ok => 0
  | cancelled => 1
  | unknown => 2
  | invalidArgument => 3
  | deadlineExceeded => 4
  | notFound => 5
  | alreadyExists => 6
  | permissionDenied => 7
  | resourceExhausted => 8
  | failedPrecondition => 9
  | aborted => 10
  | outOfRange => 11
  | unimplemented => 12
  | internal => 13
  | unavailable => 14
  | dataLoss => 15
  | unauthenticated => 16

def GrpcStatus.fromHttpStatus (status : UInt16) : GrpcStatus :=
  if status = 200 then ok
  else if status = 400 then invalidArgument
  else if status = 401 then unauthenticated
  else if status = 403 then permissionDenied
  else if status = 404 then notFound
  else if status = 408 then deadlineExceeded
  else if status = 409 then aborted
  else if status = 429 then resourceExhausted
  else if status = 499 then cancelled
  else if status = 500 then internal
  else if status = 501 then unimplemented
  else if status = 502 ∨ status = 503 then unavailable
  else if status = 504 then deadlineExceeded
  else unknown

/-- Characters that are sent as they are. -/
def isUnreserved (c : Char) : Bool := c.isAlphanum || "-_.~".toList.contains c

/-- The four characters with a branch of their own are written as their bytes would be. -/
def percentEncodeChar (c : Char) : Text :=
  if c = '%' then "%25"
  else if c = ' ' then "%20"
  else if c = '\n' then "%0A"
  else if c = '\r' then "%0D"
  else if isUnreserved c then [c]
  else (asBytes [c]).flatMap escape

def percentEncode (s : Text) : Text := s.flatMap percentEncodeChar

def grpcLines (status : GrpcStatus) (message : Text) : List (Text × Text) :=
  [("content-type", "application/grpc"),
    ("grpc-status", Nat.toDigits 10 status.code),
    ("grpc-message", percentEncode message)]

def grpcErrorResponse (status : GrpcStatus) (message : Text) : Outcome Empty Http.Response :=
  Outcome.unwrap (Http.Response.build 200 (grpcLines status message))

/-- `grpc_gateway_error`, which has the text of `grpc_error_response` once more. -/
def grpcGatewayError (httpStatus : UInt16) (message : Text) : Outcome Empty Http.Response :=
  grpcErrorResponse (.fromHttpStatus httpStatus) message

/-! ## The encoding -/

lemma percentEncodeChar_eq (c : Char) :
    percentEncodeChar c =
      if isUnreserved c then [c] else (String.utf8EncodeChar c).flatMap escape := by
  have hbytes : (asBytes [c]).flatMap escape = (String.utf8EncodeChar c).flatMap escape := by
    rw [asBytes, flatMap_singleton]
  rw [percentEncodeChar, hbytes]
  -- the branches for single characters do what the last one does
  split
  · next h => subst h; decide
  split
  · next h => subst h; decide
  split
  · next h => subst h; decide
  split
  · next h => subst h; decide
  rfl

lemma ne_percent_of_isUnreserved {c : Char} (h : isUnreserved c) : c ≠ '%' := by
  rintro rfl
  revert h
  decide

lemma percentEncode_cons (c : Char) (s : Text) :
    percentEncode (c :: s) = percentEncodeChar c ++ percentEncode s :=
  flatMap_cons

lemma percentEncode_encoded (s : Text) : Encoded isUnreserved (percentEncode s) := by
  induction s with
  | nil => exact .nil
  | cons c s ih =>
    rw [percentEncode_cons, percentEncodeChar_eq]
    split
    · next hc => exact .plain hc ih
    · exact (Encoded.escapes _).append ih

lemma decode_percentEncode (s : Text) : decode (percentEncode s) = asBytes s := by
  induction s with
  | nil => rfl
  | cons c s ih =>
    rw [percentEncode_cons, percentEncodeChar_eq, asBytes, flatMap_cons, ← asBytes]
    split
    · next hc =>
      rw [singleton_append, decode_cons (ne_percent_of_isUnreserved hc), ih]
    · rw [decode_escapes, ih]

lemma percentEncode_injective : Function.Injective percentEncode := by
  intro s t h
  apply asBytes_injective
  rw [← decode_percentEncode, ← decode_percentEncode, h]

/-! ## The responses -/

lemma visible_of_forall {s : Text} (h : ∀ c ∈ s, 32 ≤ c.toNat ∧ c.toNat < 127) :
    ∀ b ∈ asBytes s, isVisibleAscii b := by
  intro b hb
  obtain ⟨c, hc, hb⟩ := mem_flatMap.mp hb
  obtain ⟨hlow, hhigh⟩ := h c hc
  have hascii : isAscii c := decide_eq_true (by omega)
  rw [utf8EncodeChar_of_isAscii hascii, mem_singleton] at hb
  have hnat : b.toNat = c.toNat := by
    rw [hb]
    exact UInt8.toNat_ofNat_of_lt' (by show c.toNat < 256; omega)
  simp only [isVisibleAscii, Bool.or_eq_true, Bool.and_eq_true, decide_eq_true_eq]
  refine .inl ⟨UInt8.le_iff_toNat_le.mpr ?_, UInt8.lt_iff_toNat_lt.mpr ?_⟩
  · show 32 ≤ b.toNat
    omega
  · show b.toNat < 127
    omega

lemma visible_of_isUnreserved {c : Char} (h : isUnreserved c) : 32 ≤ c.toNat ∧ c.toNat < 127 := by
  rcases Bool.or_eq_true_iff.mp h with halnum | hmark
  · rcases (isAlphanum_iff c).mp halnum with h | h | h <;> omega
  · have hmarks : ∀ c ∈ "-_.~".toList, 32 ≤ c.toNat ∧ c.toNat < 127 := forall_char (by decide)
    exact hmarks c (contains_iff_mem.mp hmark)

lemma visible_percentEncode (message : Text) :
    ∀ b ∈ asBytes (percentEncode message), isVisibleAscii b := by
  refine visible_of_forall fun c hc => of_decide_eq_true ?_
  refine (percentEncode_encoded message).forall_mem
    (p := fun c => decide (32 ≤ c.toNat ∧ c.toNat < 127)) ?_ (by decide) (by decide) c hc
  exact fun c hc => decide_eq_true (visible_of_isUnreserved hc)

variable (status : GrpcStatus)

lemma visible_code : ∀ b ∈ asBytes (Nat.toDigits 10 status.code), isVisibleAscii b := by
  refine visible_of_forall fun c hc => ?_
  have hdigit := Nat.isDigit_of_mem_toDigits (by decide) (by decide) hc
  rw [isDigit_iff] at hdigit
  omega

lemma valid_grpcLines (message : Text) :
    ∀ line ∈ grpcLines status message, ∀ b ∈ asBytes line.2, isValidByte b := by
  have hvalid : ∀ s : Text, (∀ b ∈ asBytes s, isVisibleAscii b) → ∀ b ∈ asBytes s, isValidByte b :=
    fun s h b hb => HeaderValue.isValidByte_of_isVisibleAscii (h b hb)
  intro line hline
  simp only [grpcLines, mem_cons, not_mem_nil, or_false] at hline
  rcases hline with rfl | rfl | rfl
  · exact isValidByte_of_all (by decide)
  · exact hvalid _ (visible_code status)
  · exact hvalid _ (visible_percentEncode message)

lemma grpcErrorResponse_ok (message : Text) :
    ∃ response, grpcErrorResponse status message = .ok response ∧
      ∃ value, response.headers.get "grpc-message" = some value ∧
        value.toStr = some (percentEncode message) := by
  obtain ⟨response, hbuilt⟩ :=
    Http.Response.exists_build_iff.mpr (valid_grpcLines status message)
  refine ⟨response, Outcome.unwrap_eq_ok.mpr hbuilt, ?_⟩
  obtain ⟨-, hlines⟩ := Http.Response.build_eq_some_iff.mp hbuilt
  obtain ⟨contentType, rest, hall, hcontentType, hrest⟩ := map_eq_cons_iff.mp hlines
  obtain ⟨code, rest, rfl, hcode, hrest⟩ := map_eq_cons_iff.mp hrest
  obtain ⟨value, rest, rfl, hvalue, hrest⟩ := map_eq_cons_iff.mp hrest
  obtain rfl := map_eq_nil_iff.mp hrest
  obtain ⟨hname, hbytes⟩ := Prod.mk.inj hvalue
  have hother : contentType.1 ≠ "grpc-message".toList ∧ code.1 ≠ "grpc-message".toList := by
    rw [(Prod.mk.inj hcontentType).1, (Prod.mk.inj hcode).1]
    show "content-type".toList ≠ "grpc-message".toList ∧
      "grpc-status".toList ≠ "grpc-message".toList
    decide
  refine ⟨value.2, ?_, HeaderValue.toStr_of_bytes hbytes (visible_percentEncode message)⟩
  rw [Multimap.get, Multimap.getAll, hall]
  simp only [filterMap_cons, hother.1, hother.2, hname, if_false, if_true, head?_cons]

/-- **Messages arrive as they are.** An encoded message consists of unreserved characters and
escapes, percent-decoding gives its UTF-8 bytes back, no other message has the same form, and the
response to a gateway error can be built with it. -/
theorem grpc_message_encoding (s : Text) :
    Encoded isUnreserved (percentEncode s) ∧ decode (percentEncode s) = asBytes s ∧
      (∀ t, percentEncode t = percentEncode s → t = s) ∧
      ∀ httpStatus, ∃ response, grpcGatewayError httpStatus s = .ok response ∧
        ∃ value, response.headers.get "grpc-message" = some value ∧
          value.toStr = some (percentEncode s) :=
  ⟨percentEncode_encoded s, decode_percentEncode s, fun _ h => percentEncode_injective h,
    fun httpStatus => grpcErrorResponse_ok (.fromHttpStatus httpStatus) s⟩

end TrafficCop
