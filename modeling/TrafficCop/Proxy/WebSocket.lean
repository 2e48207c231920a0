import TrafficCop.Lib.ChunkedStream
import TrafficCop.Rust.Text

/-!
# The WebSocket tunnel

The part of `handle_websocket_upgrade` of `proxy/websocket.rs` behind the upgrade request.
-/

namespace TrafficCop

open Rust List Option ChunkedStream

abbrev BackendIo := ChunkedStream UInt8

def blankLine : List UInt8 := asBytes "\r\n\r\n"

def findHeaderEnd (buf : List UInt8) : Option ℕ :=
  ((List.range (buf.length - 3)).find? fun i => (buf.drop i).take 4 = blankLine).map (· + 4)

/-- `response_text.contains("101")`. The lossy text keeps ASCII bytes, so it is looked for in the
bytes. -/
def acceptsUpgrade (response : List UInt8) : Bool := asBytes "101" <:+: response

def bufferLength : ℕ := 4096

/-- Why the client is answered with `BAD_GATEWAY`. -/
inductive Refusal
  | closed
  | rejected
  | tooLarge
  deriving Repr, DecidableEq

/-- The loop over the reads, with the bytes `buf[..total_read]`; it leaves what is still to come. -/
def readResponse (buf : List UInt8) (backend : BackendIo) : Except Refusal BackendIo :=
  let bytes := (backend.read (bufferLength - buf.length)).1
  let backend' := (backend.read (bufferLength - buf.length)).2
  if bytes = [] then .error .closed
  else
    match findHeaderEnd (buf ++ bytes) with
    -- the bytes behind `pos` are dropped with the buffer
    | some pos => if acceptsUpgrade ((buf ++ bytes).take pos) then .ok backend'
      else .error .rejected
    | none => if bufferLength ≤ (buf ++ bytes).length then .error .tooLarge
      else readResponse (buf ++ bytes) backend'
termination_by bufferLength - buf.length
decreasing_by
  next hread hfull =>
    have hpos : 0 < bytes.length := length_pos_iff.mpr hread
    show bufferLength - (buf ++ bytes).length < bufferLength - buf.length
    rw [length_append] at hfull ⊢
    omega

/-- `proxy_streams`, from the backend to a client that stays: all that comes. -/
def proxyStreams (backend : BackendIo) : List UInt8 := backend.elems

/-- The response of the backend is read into a buffer up to its blank line, and then the streams are
copied into each other. What was read behind the blank line stays in the buffer. -/
def handleWebsocketUpgrade (backend : BackendIo) : Except Refusal (List UInt8) := do
  let backend ← readResponse [] backend
  return proxyStreams backend

/-! ## The end of the header -/

lemma take_drop_eq_blankLine_iff {buf : List UInt8} {i : ℕ} (hi : i + 4 ≤ buf.length) :
    (buf.drop i).take 4 = blankLine ↔ blankLine <:+ buf.take (i + 4) := by
  have hlength : (buf.take (i + 4)).length - blankLine.length = i := by
    rw [length_take, Nat.min_eq_left hi]
    show i + 4 - 4 = i
    omega
  rw [suffix_iff_eq_drop, hlength, take_drop]
  exact eq_comm

lemma four_le_of_blankLine_suffix {buf : List UInt8} {pos : ℕ}
    (h : blankLine <:+ buf.take pos) : 4 ≤ pos ∧ 4 ≤ buf.length := by
  have hle : 4 ≤ (buf.take pos).length := h.length_le
  rw [length_take] at hle
  omega

lemma findHeaderEnd_eq_some_iff {buf : List UInt8} {pos : ℕ} :
    findHeaderEnd buf = some pos ↔ pos ≤ buf.length ∧ blankLine <:+ buf.take pos ∧
      ∀ q < pos, ¬blankLine <:+ buf.take q := by
  unfold findHeaderEnd
  simp only [map_eq_some_iff, find?_range_eq_some, mem_range, decide_eq_true_eq,
    Bool.not_eq_true', decide_eq_false_iff_not]
  constructor
  · intro hfound
    obtain ⟨i, ⟨hat, hlt, hfirst⟩, rfl⟩ := hfound
    refine ⟨by omega, (take_drop_eq_blankLine_iff (by omega)).mp hat, fun q hq hsuffix => ?_⟩
    have hfour := four_le_of_blankLine_suffix hsuffix
    refine hfirst (q - 4) (by omega) ((take_drop_eq_blankLine_iff (by omega)).mpr ?_)
    rwa [Nat.sub_add_cancel hfour.1]
  · intro hfirst
    obtain ⟨hle, hsuffix, hbefore⟩ := hfirst
    have hfour := four_le_of_blankLine_suffix hsuffix
    refine ⟨pos - 4, ⟨?_, by omega, fun j hj hat => ?_⟩, by omega⟩
    · rw [take_drop_eq_blankLine_iff (by omega), Nat.sub_add_cancel hfour.1]
      exact hsuffix
    · exact hbefore (j + 4) (by omega) ((take_drop_eq_blankLine_iff (by omega)).mp hat)

lemma findHeaderEnd_eq_none_iff {buf : List UInt8} :
    findHeaderEnd buf = none ↔ ∀ q ≤ buf.length, ¬blankLine <:+ buf.take q := by
  unfold findHeaderEnd
  simp only [map_eq_none_iff, find?_range_eq_none, Bool.not_eq_true', decide_eq_false_iff_not]
  constructor
  · intro hnone q hq hsuffix
    have hfour := four_le_of_blankLine_suffix hsuffix
    refine hnone (q - 4) (by omega) ((take_drop_eq_blankLine_iff (by omega)).mpr ?_)
    rwa [Nat.sub_add_cancel hfour.1]
  · intro hnone i hi hat
    exact hnone (i + 4) (by omega) ((take_drop_eq_blankLine_iff (by omega)).mp hat)

/-- Bytes up to their first blank line. -/
structure HeaderBlock (bytes : List UInt8) : Prop where
  ends : blankLine <:+ bytes
  first : ∀ head, head <+: bytes → blankLine <:+ head → head = bytes

namespace HeaderBlock

variable {bytes payload buf : List UInt8}

lemma length_pos (h : HeaderBlock bytes) : 0 < bytes.length :=
  Nat.lt_of_lt_of_le (show 0 < blankLine.length by decide) h.ends.length_le

lemma not_blankLine_suffix_take (h : HeaderBlock bytes) (hbuf : buf <+: bytes ++ payload) {q : ℕ}
    (hq : q < bytes.length) : ¬blankLine <:+ buf.take q := by
  intro hsuffix
  have htake : buf.take q <+: bytes := by
    have htake := hbuf.take q
    rw [take_append_of_le_length (by omega)] at htake
    exact htake.trans (List.take_prefix q _)
  have heq := congrArg List.length (h.first _ htake hsuffix)
  rw [length_take] at heq
  omega

lemma take_eq (hbuf : buf <+: bytes ++ payload) (hle : bytes.length ≤ buf.length) :
    buf.take bytes.length = bytes := by
  obtain ⟨rest, hrest⟩ := hbuf
  have hlonger : (buf ++ rest).take bytes.length = buf.take bytes.length :=
    take_append_of_le_length hle
  rw [← hlonger, hrest, take_left]

lemma findHeaderEnd_eq_some (h : HeaderBlock bytes) (hbuf : buf <+: bytes ++ payload)
    (hle : bytes.length ≤ buf.length) : findHeaderEnd buf = some bytes.length := by
  refine findHeaderEnd_eq_some_iff.mpr ⟨hle, ?_, fun q hq => h.not_blankLine_suffix_take hbuf hq⟩
  rw [take_eq hbuf hle]
  exact h.ends

lemma findHeaderEnd_eq_none (h : HeaderBlock bytes) (hbuf : buf <+: bytes ++ payload)
    (hlt : buf.length < bytes.length) : findHeaderEnd buf = none :=
  findHeaderEnd_eq_none_iff.mpr fun _ hq => h.not_blankLine_suffix_take hbuf (by omega)

variable {backend : BackendIo}

/-- A read before the header is complete gives something, and the rest is still to come. -/
lemma read_more {room : ℕ} (hroom : 0 < room)
    (hstream : buf ++ backend.elems = bytes ++ payload) (hlt : buf.length < bytes.length) :
    (backend.read room).1 ≠ [] ∧
      buf ++ (backend.read room).1 ++ (backend.read room).2.elems = bytes ++ payload := by
  constructor
  · refine read_ne_nil hroom fun hnil => ?_
    rw [hnil, append_nil] at hstream
    rw [hstream, length_append] at hlt
    omega
  · rw [append_assoc, read_append_elems, hstream]

/-- **A header that fits** is found with the read that completes it; what that read took behind it
is gone. -/
theorem readResponse_eq (h : HeaderBlock bytes) (hfits : bytes.length ≤ bufferLength)
    (hstream : buf ++ backend.elems = bytes ++ payload)
    (hlt : buf.length < bytes.length) :
    ∃ backend' : BackendIo,
      readResponse buf backend = (if acceptsUpgrade bytes then .ok backend' else .error .rejected) ∧
      (backend'.elems = payload ↔ bytes.length = bufferLength ∨
        backend.Boundary (bytes.length - buf.length)) := by
  induction hroom : bufferLength - buf.length using Nat.strong_induction_on
    generalizing buf backend with
  | _ room ih =>
    obtain ⟨hread, hbuf⟩ := read_more (show 0 < room by omega) hstream hlt
    have hpos : 0 < (backend.read room).1.length := length_pos_iff.mpr hread
    have hlength : (buf ++ (backend.read room).1).length =
        buf.length + (backend.read room).1.length := length_append
    rw [readResponse, hroom]
    simp only [if_neg hread]
    rcases Nat.lt_or_ge (buf ++ (backend.read room).1).length bytes.length with hshort | hlong
    · -- the header goes on, so there is room left and the read took a whole chunk
      have hfree : ¬bufferLength ≤ (buf ++ (backend.read room).1).length := by omega
      rw [h.findHeaderEnd_eq_none ⟨_, hbuf⟩ hshort]
      simp only [if_neg hfree]
      obtain ⟨backend', hanswer, hkept⟩ := ih _ (by omega) hbuf hshort rfl
      refine ⟨backend', hanswer, hkept.trans ?_⟩
      have hboundary := boundary_read (n := bytes.length - buf.length)
        (show (backend.read room).1.length < room by omega) (by omega)
      rw [hboundary, hlength, Nat.sub_sub]
    · -- the read reached the end of the header, and what it took beyond stays in the buffer
      rw [h.findHeaderEnd_eq_some ⟨_, hbuf⟩ hlong]
      simp only [take_eq ⟨_, hbuf⟩ hlong]
      refine ⟨_, rfl, ?_⟩
      have hend : (backend.read room).2.elems = payload ↔
          (backend.read room).1.length = bytes.length - buf.length := by
        have htotal := congrArg List.length hbuf
        simp only [length_append] at htotal
        constructor
        · intro hrest
          rw [hrest] at htotal
          omega
        · intro hlast
          exact (append_inj hbuf (by omega)).2
      rw [hend, length_read_eq_iff (by omega) (by omega)]
      exact or_congr_left (by omega)

lemma readResponse_tooLarge (h : HeaderBlock bytes) (hlong : bufferLength < bytes.length)
    (hstream : buf ++ backend.elems = bytes ++ payload)
    (hlt : buf.length < bufferLength) : readResponse buf backend = .error .tooLarge := by
  induction hroom : bufferLength - buf.length using Nat.strong_induction_on
    generalizing buf backend with
  | _ room ih =>
    obtain ⟨hread, hbuf⟩ := read_more (show 0 < room by omega) hstream (by omega)
    have hpos : 0 < (backend.read room).1.length := length_pos_iff.mpr hread
    have hle : (backend.read room).1.length ≤ room := backend.length_read_le room
    have hlength : (buf ++ (backend.read room).1).length =
        buf.length + (backend.read room).1.length := length_append
    rw [readResponse, hroom]
    simp only [if_neg hread]
    rw [h.findHeaderEnd_eq_none ⟨_, hbuf⟩ (by omega)]
    dsimp only
    split
    · rfl
    · next hfree => exact ih _ (by omega) hbuf (by omega) rfl

end HeaderBlock

/-! ## The response of a backend that upgrades -/

/-- A header with status 101 that fits in the buffer, up to the first blank line. -/
structure UpgradeHeader where
  bytes : List UInt8
  ends : blankLine <:+ bytes
  first : ∀ head, head <+: bytes → blankLine <:+ head → head = bytes
  accepts : asBytes "101" <:+: bytes
  fits : bytes.length ≤ 4096

lemma UpgradeHeader.block (header : UpgradeHeader) : HeaderBlock header.bytes :=
  ⟨header.ends, header.first⟩

section

variable {header : UpgradeHeader} {payload : List UInt8}

/-- The payload is delivered if the buffer or a read ends with the header. -/
lemma handleWebsocketUpgrade_eq_payload_iff {backend : BackendIo}
    (hstream : backend.elems = header.bytes ++ payload) :
    handleWebsocketUpgrade backend = .ok payload ↔
      header.bytes.length = 4096 ∨ backend.Boundary header.bytes.length := by
  obtain ⟨backend', hanswer, hkept⟩ := header.block.readResponse_eq header.fits
    (show [] ++ backend.elems = header.bytes ++ payload from hstream) header.block.length_pos
  have haccepts : acceptsUpgrade header.bytes := decide_eq_true header.accepts
  have hserved : handleWebsocketUpgrade backend = .ok backend'.elems := by
    unfold handleWebsocketUpgrade
    rw [hanswer, if_pos haccepts]
    rfl
  rw [hserved, Except.ok.injEq]
  exact hkept

lemma not_boundary_of_single {h : ∀ c ∈ [header.bytes ++ payload], c ≠ []}
    (hpayload : payload ≠ []) :
    ¬(⟨[header.bytes ++ payload], h⟩ : BackendIo).Boundary header.bytes.length := by
  have hheader := header.block.length_pos
  have hpos : 0 < payload.length := length_pos_iff.mpr hpayload
  rw [boundary_cons, length_append]
  omega

end

/-- The client gets exactly the payload from the streams where a read ends with the header, unless
that fills the buffer; from all of them only if the header fills the buffer or there is nothing
behind it. -/
theorem tunnel_loses_nothing_iff (header : UpgradeHeader) (payload : List UInt8) :
    (∀ backend : BackendIo, backend.elems = header.bytes ++ payload →
      (handleWebsocketUpgrade backend = .ok payload ↔
        header.bytes.length = 4096 ∨ backend.Boundary header.bytes.length)) ∧
    ((∀ backend : BackendIo, backend.elems = header.bytes ++ payload →
        handleWebsocketUpgrade backend = .ok payload) ↔
      header.bytes.length = 4096 ∨ payload = []) := by
  refine ⟨fun backend => handleWebsocketUpgrade_eq_payload_iff, ?_, ?_⟩
  · intro hall
    by_cases hpayload : payload = []
    · exact .inr hpayload
    · -- the stream that sends everything in one chunk
      have hne : ∀ c ∈ [header.bytes ++ payload], c ≠ [] := by simp [hpayload]
      have hstream : (⟨[header.bytes ++ payload], hne⟩ : BackendIo).elems =
          header.bytes ++ payload := by simp [elems]
      have hend := (handleWebsocketUpgrade_eq_payload_iff hstream).mp (hall _ hstream)
      exact .inl (hend.resolve_right (not_boundary_of_single hpayload))
  · intro hcond backend hstream
    rw [handleWebsocketUpgrade_eq_payload_iff hstream]
    rcases hcond with hfull | rfl
    · exact .inl hfull
    · -- the last chunk ends with the header
      rw [append_nil] at hstream
      exact .inr ⟨backend.chunks, [], (append_nil _).symm, congrArg List.length hstream⟩

def switchingProtocols : UpgradeHeader where
  bytes := asBytes "HTTP/1.1 101 Switching Protocols\r\n\r\n"
  ends := by decide +kernel
  first := by
    have hinits : ∀ head ∈ (asBytes "HTTP/1.1 101 Switching Protocols\r\n\r\n").inits,
        blankLine <:+ head → head = asBytes "HTTP/1.1 101 Switching Protocols\r\n\r\n" := by
      decide +kernel
    exact fun head hprefix => hinits head ((mem_inits _ _).mpr hprefix)
  accepts := by decide +kernel
  fits := by decide +kernel

/-- A first frame of the backend: the text "hi". -/
def helloFrame : List UInt8 := [0x81, 0x02, 0x68, 0x69]

theorem tunnel_loses_nothing_separate :
    (⟨[switchingProtocols.bytes, helloFrame], by decide +kernel⟩ : BackendIo).Boundary
        switchingProtocols.bytes.length ∧
      handleWebsocketUpgrade ⟨[switchingProtocols.bytes, helloFrame], by decide +kernel⟩ =
        .ok helloFrame := by
  have hboundary : (⟨[switchingProtocols.bytes, helloFrame], by decide +kernel⟩ :
      BackendIo).Boundary switchingProtocols.bytes.length :=
    ⟨[switchingProtocols.bytes], [helloFrame], rfl, by simp⟩
  exact ⟨hboundary, ((tunnel_loses_nothing_iff switchingProtocols helloFrame).1 _
    (by simp [elems])).mpr (Or.inr hboundary)⟩

/-- The frame arrives with the header and is not forwarded. -/
theorem first_frame_lost :
    (⟨[switchingProtocols.bytes ++ helloFrame], by decide +kernel⟩ : BackendIo).elems =
        switchingProtocols.bytes ++ helloFrame ∧
      handleWebsocketUpgrade ⟨[switchingProtocols.bytes ++ helloFrame], by decide +kernel⟩ =
        .ok [] := by
  refine ⟨by simp [elems], ?_⟩
  unfold handleWebsocketUpgrade
  rw [readResponse]
  decide +kernel

end TrafficCop
