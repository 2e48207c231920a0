import TrafficCop.Proxy.WebSocket

/-!
# Which backend responses upgrade a WebSocket

`handle_websocket_upgrade` does not read the status line. It looks for the digits anywhere in the
header.
-/

namespace TrafficCop

open Rust List

def answeredStatus (backend : BackendIo) : UInt16 :=
  match readResponse [] backend with
  | .ok _ => 101
  | .error _ => 502

/-! ## Headers of responses -/

def digitByte (d : ℕ) : UInt8 := UInt8.ofNat (48 + d)

def statusCode (status : Fin 1000) : List UInt8 :=
  [digitByte (status / 100), digitByte (status / 10 % 10), digitByte (status % 10)]

/-- As in `HTTP/1.1 101 Switching Protocols`. -/
structure StatusLine where
  major : Fin 10
  minor : Fin 10
  status : Fin 1000
  reason : List UInt8
  reason_line : 13 ∉ reason ∧ 10 ∉ reason

def StatusLine.bytes (line : StatusLine) : List UInt8 :=
  asBytes "HTTP/" ++ [digitByte line.major] ++ asBytes "." ++ [digitByte line.minor] ++
    asBytes " " ++ statusCode line.status ++ asBytes " " ++ line.reason

/-- A header up to the first blank line; `fields` is behind the status line. -/
structure ResponseHeader extends StatusLine where
  fields : List UInt8
  block : HeaderBlock (toStatusLine.bytes ++ asBytes "\r\n" ++ fields)

def ResponseHeader.bytes (header : ResponseHeader) : List UInt8 :=
  header.toStatusLine.bytes ++ asBytes "\r\n" ++ header.fields

lemma ResponseHeader.isBlock (header : ResponseHeader) : HeaderBlock header.bytes := header.block

/-! ## The digits 101 -/

lemma infix_append_cons_iff {α : Type} {l a b : List α} {sep : α} (hsep : sep ∉ l) :
    l <:+: a ++ sep :: b ↔ l <:+: a ∨ l <:+: b := by
  constructor
  · intro h
    obtain ⟨s, t, heq⟩ := h
    rcases append_eq_append_iff.mp heq with ⟨a', ha, -⟩ | ⟨a', hleft, hright⟩
    · exact .inl ⟨s, a', ha.symm⟩
    · rcases cons_eq_append_iff.mp hright with ⟨rfl, -⟩ | ⟨a'', rfl, hb⟩
      · rw [append_nil] at hleft
        exact .inl ⟨s, [], by rw [append_nil, hleft]⟩
      · -- the separator is in front of `l`, for it is not in it
        rcases append_eq_append_iff.mp hleft with ⟨c, -, hl⟩ | ⟨c, -, hc⟩
        · exact absurd (hl ▸ mem_append_right c mem_cons_self) hsep
        · rcases cons_eq_append_iff.mp hc with ⟨rfl, hl⟩ | ⟨c', rfl, hb'⟩
          · exact absurd (hl ▸ mem_cons_self) hsep
          · exact .inr ⟨c', t, by rw [hb, hb', append_assoc]⟩
  · rintro (h | h)
    · exact h.trans (prefix_append a _).isInfix
    · exact h.trans ((suffix_cons sep b).trans (suffix_append a _)).isInfix

def oneZeroOne : List UInt8 := asBytes "101"

lemma digitByte_inj {d e : ℕ} (hd : d < 10) (he : e < 10) (h : digitByte d = digitByte e) :
    d = e := by
  have hnat := congrArg UInt8.toNat h
  simp only [digitByte, UInt8.toNat_ofNat'] at hnat
  omega

lemma oneZeroOne_infix_statusCode_iff {status : Fin 1000} :
    oneZeroOne <:+: statusCode status ↔ status = 101 := by
  constructor
  · intro h
    have heq : oneZeroOne = statusCode status := h.eq_of_length rfl
    have hdigits : oneZeroOne = [digitByte 1, digitByte 0, digitByte 1] := by decide
    rw [hdigits, statusCode] at heq
    injection heq with hhundreds heq
    injection heq with htens heq
    injection heq with hones
    have hlt := status.isLt
    have h₁ := digitByte_inj (by decide) (by omega) hhundreds
    have h₂ := digitByte_inj (by decide) (by omega) htens
    have h₃ := digitByte_inj (by decide) (by omega) hones
    refine Fin.ext ?_
    show status.val = 101
    omega
  · rintro rfl
    decide

lemma not_infix_singleton (b : UInt8) : ¬oneZeroOne <:+: [b] :=
  fun h => absurd h.length_le (show ¬oneZeroOne.length ≤ 1 by decide)

/-- **Where the digits can stand**: status, reason, or behind the status line. -/
theorem ResponseHeader.contains_iff (header : ResponseHeader) :
    oneZeroOne <:+: header.bytes ↔ header.status = 101 ∨
      oneZeroOne <:+: header.reason ∨ oneZeroOne <:+: header.fields := by
  have hhttp : asBytes "HTTP/" = asBytes "HTTP" ++ [47] := by decide
  have hdot : asBytes "." = [46] := by decide
  have hspace : asBytes " " = [32] := by decide
  have hline : asBytes "\r\n" = [13, 10] := by decide
  have hbytes : header.bytes = asBytes "HTTP" ++ 47 :: ([digitByte header.major] ++ 46 ::
      ([digitByte header.minor] ++ 32 :: (statusCode header.status ++ 32 ::
        (header.reason ++ 13 :: ([] ++ 10 :: header.fields))))) := by
    simp only [ResponseHeader.bytes, StatusLine.bytes, hhttp, hdot, hspace, hline,
      append_assoc, cons_append, nil_append]
  have hversion : ¬oneZeroOne <:+: asBytes "HTTP" := by decide
  have hnil : ¬oneZeroOne <:+: [] := fun h => absurd h.length_le (by decide)
  rw [hbytes, infix_append_cons_iff (by decide), infix_append_cons_iff (by decide),
    infix_append_cons_iff (by decide), infix_append_cons_iff (by decide),
    infix_append_cons_iff (by decide), infix_append_cons_iff (by decide),
    oneZeroOne_infix_statusCode_iff]
  simp only [hversion, hnil, not_infix_singleton, false_or]

/-! ## What the client is answered -/

lemma answeredStatus_eq_iff {header : ResponseHeader} {payload : List UInt8}
    {backend : BackendIo} (hstream : backend.elems = header.bytes ++ payload) :
    answeredStatus backend = 101 ↔
      header.bytes.length ≤ bufferLength ∧ oneZeroOne <:+: header.bytes := by
  have hstart : [] ++ backend.elems = header.bytes ++ payload := hstream
  rcases Nat.lt_or_ge bufferLength header.bytes.length with hlong | hfits
  · have hanswer := header.isBlock.readResponse_tooLarge hlong hstart (by decide)
    rw [answeredStatus, hanswer]
    exact iff_of_false (by decide) fun h => absurd h.1 (Nat.not_le_of_lt hlong)
  · obtain ⟨backend', hanswer, -⟩ :=
      header.isBlock.readResponse_eq hfits hstart header.isBlock.length_pos
    have haccepts : acceptsUpgrade header.bytes ↔ oneZeroOne <:+: header.bytes :=
      decide_eq_true_iff
    rw [answeredStatus, hanswer]
    by_cases hcontains : oneZeroOne <:+: header.bytes
    · rw [if_pos (haccepts.mpr hcontains)]
      exact iff_of_true rfl ⟨hfits, hcontains⟩
    · rw [if_neg (mt haccepts.mp hcontains)]
      exact iff_of_false (by decide) fun h => hcontains h.2

/-- **The headers for which the status decides**, with any bytes behind them and however all of it
arrives: those of status 101 that fit in the buffer, and of the others those that do not fit or have
no digits 101 in the reason or the fields. -/
theorem upgrade_status_iff (header : ResponseHeader) :
    (∀ (payload : List UInt8) (backend : BackendIo), backend.elems = header.bytes ++ payload →
      (answeredStatus backend = 101 ↔ header.status = 101)) ↔
    (header.status = 101 → header.bytes.length ≤ bufferLength) ∧
      (header.status ≠ 101 → header.bytes.length ≤ bufferLength →
        ¬oneZeroOne <:+: header.reason ∧ ¬oneZeroOne <:+: header.fields) := by
  constructor
  · intro hall
    -- the header alone, at once
    have hne : ∀ c ∈ [header.bytes], c ≠ [] :=
      forall_mem_singleton.mpr (ne_nil_of_length_pos header.isBlock.length_pos)
    have hstream : (⟨[header.bytes], hne⟩ : BackendIo).elems = header.bytes ++ [] := by
      simp [ChunkedStream.elems]
    have hstatus := hall [] _ hstream
    rw [answeredStatus_eq_iff hstream, header.contains_iff] at hstatus
    refine ⟨fun h => (hstatus.mpr h).1, fun hother hfits => ?_⟩
    exact not_or.mp fun h => hother (hstatus.mp ⟨hfits, Or.inr h⟩)
  · rintro ⟨hupgrades, hothers⟩ payload backend hstream
    rw [answeredStatus_eq_iff hstream, header.contains_iff]
    constructor
    · rintro ⟨hfits, h⟩
      by_contra hother
      exact (h.resolve_left hother).elim (hothers hother hfits).1 (hothers hother hfits).2
    · intro h
      exact ⟨hupgrades h, Or.inl h⟩

def badRequest : ResponseHeader where
  major := 1
  minor := 1
  status := 400
  reason := asBytes "Bad Request"
  reason_line := by decide +kernel
  fields := asBytes "Content-Length: 101\r\n\r\n"
  block := by
    have hinits : ∀ head ∈
        (asBytes "HTTP/1.1 400 Bad Request\r\nContent-Length: 101\r\n\r\n").inits,
        blankLine <:+ head →
          head = asBytes "HTTP/1.1 400 Bad Request\r\nContent-Length: 101\r\n\r\n" := by
      decide +kernel
    exact ⟨by decide +kernel, fun head hprefix => hinits head ((mem_inits _ _).mpr hprefix)⟩

/-- **A response with status 400 upgrades the client**, for the length of its body is 101. -/
theorem upgrade_status_length :
    badRequest.status = 400 ∧
      badRequest.bytes =
        asBytes "HTTP/1.1 400 Bad Request\r\nContent-Length: 101\r\n\r\n" ∧
      answeredStatus ⟨[badRequest.bytes], by decide +kernel⟩ = 101 := by
  refine ⟨rfl, by decide +kernel, ?_⟩
  unfold answeredStatus
  rw [readResponse]
  decide +kernel

end TrafficCop
