import TrafficCop.Stream.Routing
import TrafficCop.Stream.Sni

/-!
# Peeking at the server name

`TcpProxy::peek_tls_sni` of `tcp/proxy.rs` looks at a connection twice without taking bytes out of
it: for the header of the TLS record, and for the whole of it. A peek waits for the first byte and
gives what has arrived by then and fits into the buffer.
-/

namespace TrafficCop

open Rust Wire List

namespace TcpProxy

/-! ## The code -/

/-- What `timeout(SNI_READ_TIMEOUT, stream.peek(&mut buf))` comes to. -/
inductive Peek where
  | ready (available : Bytes)
  | failed
  | timedOut

/-- `peek` copies what there is into the buffer, as far as it fits. -/
def peekInto (buf available : Bytes) : ℕ × Bytes :=
  (min available.length buf.length, available.take buf.length ++ buf.drop available.length)

def unfailing {α : Type} : Outcome Empty α → Outcome Unit α
  | .ok a => .ok a
  | .panic => .panic

/-- `peek_tls_sni`, without the initial data, which are always empty, and the second test of the
content type. -/
def peekTlsSni (first second : Peek) : Outcome Unit (Option Text) :=
  match first with
  | .failed => .err ()
  | .timedOut => .ok none
  | .ready available =>
    let (n, buf) := peekInto (List.replicate 1024 0) available
    if n < 5 then .ok none
    else if buf[0]? ≠ some 0x16 then .ok none
    else do
      let recordLength ← unfailing (u16At buf 3)
      let totalNeeded := 5 + recordLength
      let buf := if totalNeeded > buf.length then resize (min totalNeeded 16384) 0 buf else buf
      match second with
      | .failed => .err ()
      | .timedOut => .ok none
      | .ready available =>
        let (n, buf) := peekInto buf available
        if n < min totalNeeded buf.length then .ok none
        else unfailing (parseSni (buf.drop 5))

variable {Net Ip : Type} [IpCrate Net Ip]

/-- The route of a connection in `handle_connection`; a failed peek is no name. -/
def connectionRoute (router : TcpRouter Net) (entrypoint : Text) (clientAddr : Ip) :
    Outcome Unit (Option Text) → Outcome Empty (Option (StreamRoute (TcpRule Net)))
  | .ok sni => .ok (router.matchConnection entrypoint sni (some clientAddr))
  | .err () => .ok (router.matchConnection entrypoint none (some clientAddr))
  | .panic => .panic

/-! ## Records and arrivals -/

/-- A handshake record of at most 16384 bytes with its header. -/
structure Record where
  version : Bytes
  payload : Bytes
  version_length : version.length = 2
  payload_le : payload.length + 5 ≤ 16384

def Record.encode (record : Record) : Bytes := 0x16 :: record.version ++ vec16 record.payload

@[simp] lemma Record.length_encode (record : Record) :
    record.encode.length = record.payload.length + 5 := by
  rw [encode, length_append, length_cons, record.version_length, length_vec16]
  omega

/-- How many bytes are there at each instant; the peeks are over at `first` and `second`. -/
structure Arrival (stream : Bytes) where
  arrived : ℕ → ℕ
  first : ℕ
  second : ℕ
  arrived_mono : Monotone arrived
  arrived_le : ∀ t, arrived t ≤ stream.length
  first_le_second : first ≤ second
  first_pos : 1 ≤ arrived first

/-- If the header is not there at the first peek, or the record at the second, there is no server
name. -/
def Arrival.sni {stream : Bytes} (a : Arrival stream) : Outcome Unit (Option Text) :=
  peekTlsSni (.ready (stream.take (a.arrived a.first))) (.ready (stream.take (a.arrived a.second)))

/-! ## The buffer -/

/-- A buffer of `size` bytes with a copy of what is available, then zeros. -/
def view (size : ℕ) (available : Bytes) : Bytes :=
  available.take size ++ List.replicate (size - available.length) 0

@[simp] lemma length_view (size : ℕ) (available : Bytes) :
    (view size available).length = size := by
  rw [view, length_append, length_take, length_replicate]
  omega

lemma view_append {start rest : Bytes} {size : ℕ} (h : start.length ≤ size) :
    view size (start ++ rest) = start ++ view (size - start.length) rest := by
  rw [view, view, take_append, take_of_length_le h, length_append, append_assoc, Nat.sub_add_eq]

lemma drop_view {size n : ℕ} {available : Bytes} (h : available.length ≤ n) :
    (view size available).drop n = List.replicate (size - n) 0 := by
  have htake : (available.take size).length ≤ n := by
    rw [length_take]
    omega
  rw [view, drop_append, drop_eq_nil_of_le htake, nil_append, drop_replicate, length_take]
  congr 1
  omega

lemma peekInto_zeros (size : ℕ) (available : Bytes) :
    peekInto (List.replicate size 0) available =
      (min available.length size, view size available) := by
  rw [peekInto, view, length_replicate, drop_replicate]

lemma peekInto_resize {size size' : ℕ} {a b : Bytes} (hsize : size ≤ size')
    (hle : a.length ≤ b.length) :
    peekInto (resize size' 0 (view size a)) b = (min b.length size', view size' b) := by
  have htake : (view size a).take size' = view size a :=
    take_of_length_le (by rw [length_view]; exact hsize)
  have hlength : (resize size' 0 (view size a)).length = size' := by
    rw [resize, htake, length_append, length_view, length_replicate]
    omega
  have hzeros : (resize size' 0 (view size a)).drop b.length =
      List.replicate (size' - b.length) 0 := by
    rw [resize, htake, drop_append, drop_view hle, length_view, drop_replicate,
      replicate_append_replicate]
    congr 1
    omega
  rw [peekInto, hlength, hzeros, view]

/-! ## The two peeks -/

section Peeks

variable (record : Record) (trailing : Bytes)

/-- What the parser sees behind the record when `n` bytes have arrived. -/
def behind (n : ℕ) : Bytes :=
  view (max 1024 record.encode.length - record.encode.length)
    (trailing.take (n - record.encode.length))

def Record.header : Bytes := 0x16 :: record.version ++ u16 record.payload.length

lemma Record.encode_eq : record.encode = record.header ++ record.payload := by
  rw [encode, header, vec16, append_assoc]

lemma Record.header_length : record.header.length = 5 := by
  rw [header, length_append, length_cons, record.version_length, length_u16]

lemma u16At_header (rest : Bytes) :
    u16At (record.header ++ rest) 3 = .ok record.payload.length := by
  have hdrop : (record.header ++ rest).drop 3 = u16 record.payload.length ++ rest := by
    rw [Record.header, append_assoc, cons_append, drop_succ_cons,
      ← record.version_length, drop_left]
  have hpayload := record.payload_le
  exact u16At_of_drop hdrop (readU16_append (by omega) rest)

/-- The second buffer has room for the record, and at least 1024 bytes. -/
lemma resize_buffer {buf : Bytes} (hbuf : buf.length = 1024) :
    (if 5 + record.payload.length > buf.length then
        resize (min (5 + record.payload.length) 16384) 0 buf else buf) =
      resize (max 1024 record.encode.length) 0 buf := by
  have hpayload := record.payload_le
  have htotal := record.length_encode
  split
  · congr 1
    omega
  · have hmax : max 1024 record.encode.length = buf.length := by omega
    rw [hmax, resize, take_length, Nat.sub_self, replicate_zero, append_nil]

/-- The record and something behind it, if the header is there at the first peek and all of it at
the second. -/
lemma peekTlsSni_eq {n m : ℕ} (hnm : n ≤ m)
    (hm : m ≤ (record.encode ++ trailing).length) :
    peekTlsSni (.ready ((record.encode ++ trailing).take n))
        (.ready ((record.encode ++ trailing).take m)) =
      if 5 ≤ n ∧ record.encode.length ≤ m then
        unfailing (parseSni (record.payload ++ behind record trailing m))
      else .ok none := by
  have htotal := record.length_encode
  have hn : ((record.encode ++ trailing).take n).length = n := length_take_of_le (by omega)
  have hm : ((record.encode ++ trailing).take m).length = m := length_take_of_le hm
  rw [peekTlsSni, peekInto_zeros, hn]
  dsimp only
  by_cases hheader : 5 ≤ n
  swap
  · rw [if_pos (by omega), if_neg fun h => hheader h.1]
  -- with five bytes the header is in the buffer, whatever comes behind it
  obtain ⟨rest, hfirst⟩ :
      ∃ rest, view 1024 ((record.encode ++ trailing).take n) = record.header ++ rest := by
    have hlength := record.header_length
    rw [record.encode_eq, append_assoc, take_append,
      take_of_length_le (by omega), view_append (by omega)]
    exact ⟨_, rfl⟩
  have hzero : (view 1024 ((record.encode ++ trailing).take n))[0]? = some 0x16 := by
    rw [hfirst]
    rfl
  have hlength : u16At (view 1024 ((record.encode ++ trailing).take n)) 3 =
      .ok record.payload.length := by
    rw [hfirst, u16At_header]
  rw [if_neg (by omega), if_neg (not_not.mpr hzero), hlength, unfailing, Outcome.ok_bind,
    resize_buffer record (length_view _ _), peekInto_resize (le_max_left _ _) (by omega), hm,
    length_view]
  by_cases hwhole : record.encode.length ≤ m
  · have hview :
        (view (max 1024 record.encode.length) ((record.encode ++ trailing).take m)).drop 5 =
          record.payload ++ behind record trailing m := by
      rw [take_append, take_of_length_le hwhole, view_append (le_max_right _ _),
        ← behind, record.encode_eq, append_assoc, ← record.header_length, drop_left]
    rw [if_neg (by omega), if_pos ⟨hheader, hwhole⟩, hview]
  · rw [if_pos (by omega), if_neg fun h => hwhole h.2]

variable {record trailing}

lemma Arrival.sni_eq (a : Arrival (record.encode ++ trailing)) :
    a.sni =
      if 5 ≤ a.arrived a.first ∧ record.encode.length ≤ a.arrived a.second then
        unfailing (parseSni (record.payload ++ behind record trailing (a.arrived a.second)))
      else .ok none :=
  peekTlsSni_eq record trailing (a.arrived_mono a.first_le_second) (a.arrived_le _)

/-- What comes behind a record is not read, if it is zeros or the message is well formed. -/
lemma parseSni_behind
    (h : trailing = [] ∨ ∃ (hello : ClientHello) (inner : Bytes),
      record.payload = hello.encode ++ inner) {n m : ℕ} :
    parseSni (record.payload ++ behind record trailing n) =
      parseSni (record.payload ++ behind record trailing m) := by
  obtain rfl | ⟨hello, inner, hpayload⟩ := h
  · rw [behind, behind, take_nil, take_nil]
  · rw [hpayload, append_assoc, append_assoc, parseSni_clientHello, parseSni_clientHello]

variable {Net Ip : Type} [IpCrate Net Ip]

lemma unfailing_eq_none_iff {x : Outcome Empty (Option Text)} :
    unfailing x = .ok none ↔ x = .ok none := by
  rcases x with _ | e | _
  · simp [unfailing]
  · exact e.elim
  · simp [unfailing]

/-- The ways to arrive that give the same server name, and the same route, as a record that is all
there at the first peek: those with the header at the first peek and all of the record at the
second, or any if `parse_sni` finds no name in the record, with the zeros that the buffer has behind
it. Behind the record there may be more, if it starts with a well-formed ClientHello. -/
theorem peek_boundaries_iff
    (hbehind : trailing = [] ∨ ∃ (hello : ClientHello) (inner : Bytes),
      record.payload = hello.encode ++ inner)
    (a b : Arrival (record.encode ++ trailing)) (hb : record.encode.length ≤ b.arrived b.first) :
    (a.sni = b.sni ∧ ∀ (router : TcpRouter Net) (entrypoint : Text) (clientAddr : Ip),
        connectionRoute router entrypoint clientAddr a.sni =
          connectionRoute router entrypoint clientAddr b.sni) ↔
      (5 ≤ a.arrived a.first ∧ record.encode.length ≤ a.arrived a.second) ∨
        parseSni (record.payload ++ List.replicate (1024 - record.encode.length) 0) =
          .ok none := by
  have hroute : a.sni = b.sni → ∀ (router : TcpRouter Net) (entrypoint : Text) (clientAddr : Ip),
      connectionRoute router entrypoint clientAddr a.sni =
        connectionRoute router entrypoint clientAddr b.sni := by
    intro h router entrypoint clientAddr
    rw [h]
  have hfive := record.length_encode
  have hsecond := b.arrived_mono b.first_le_second
  rw [and_iff_left_of_imp hroute, b.sni_eq, if_pos ⟨by omega, by omega⟩, a.sni_eq]
  by_cases hwhole : 5 ≤ a.arrived a.first ∧ record.encode.length ≤ a.arrived a.second
  · rw [if_pos hwhole, parseSni_behind hbehind]
    exact iff_of_true rfl (.inl hwhole)
  · -- the code gives up, which is right only if there was no name
    have hzeros : behind record trailing 0 = List.replicate (1024 - record.encode.length) 0 := by
      rw [behind, view, Nat.zero_sub, take_zero, take_nil, nil_append, length_nil]
      congr 1
      omega
    rw [if_neg hwhole, or_iff_right hwhole, eq_comm, unfailing_eq_none_iff,
      @parseSni_behind _ _ hbehind _ 0, hzeros]

end Peeks

def namedRecord : Record := ⟨[3, 1], namedHello.encode, rfl, by decide⟩

def inParts (n : ℕ) (hpos : 1 ≤ n) (hn : n ≤ namedRecord.encode.length) :
    Arrival (namedRecord.encode ++ []) where
  arrived t := if t = 0 then n else namedRecord.encode.length
  first := 0
  second := 0
  arrived_mono := by
    intro t t' h
    dsimp only
    split_ifs with h1 h2
    · exact le_rfl
    · exact hn
    · omega
    · exact le_rfl
  arrived_le t := by
    rw [append_nil]
    split
    · exact hn
    · exact le_rfl
  first_le_second := le_rfl
  first_pos := hpos

def allAtOnce : Arrival (namedRecord.encode ++ []) :=
  inParts namedRecord.encode.length (by decide) le_rfl

def lastPartLater : Arrival (namedRecord.encode ++ []) := inParts 60 (by decide) (by decide)

theorem peek_boundaries_iff_named :
    (lastPartLater.sni = allAtOnce.sni ∧
        ∀ (router : TcpRouter Text) (entrypoint clientAddr : Text),
          connectionRoute router entrypoint clientAddr lastPartLater.sni =
            connectionRoute router entrypoint clientAddr allAtOnce.sni) ↔
      (5 ≤ 60 ∧ namedRecord.encode.length ≤ 60) ∨
        parseSni (namedRecord.payload ++ List.replicate (1024 - namedRecord.encode.length) 0) =
          .ok none :=
  peek_boundaries_iff (.inl rfl) lastPartLater allAtOnce le_rfl

def namedRoute : StreamRoute (TcpRule Text) := ⟨['n'], ['s'], [], .hostSNI [['a', '.', 'b']], 0⟩

def otherRoute : StreamRoute (TcpRule Text) := ⟨['o'], ['t'], [], .catchAll, 0⟩

def namedRouter : TcpRouter Text := ⟨fun _ => some [namedRoute], fun _ => some otherRoute⟩

lemma parseSni_namedHello (trailing : Bytes) :
    parseSni (namedHello.encode ++ trailing) = .ok (some ['a', '.', 'b']) := by
  refine (parseSni_clientHello namedHello trailing).trans ?_
  show parseSniExtension (encodeServerNames [hostName]) = _
  rw [parseSniExtension_serverNames rfl]
  exact congrArg Outcome.ok (fromUtf8_asBytes _)

/-- **A message whose last bytes come later has no server name**, and the connection goes to another
service. -/
theorem peek_in_parts :
    allAtOnce.sni = .ok (some ['a', '.', 'b']) ∧ lastPartLater.sni = .ok none ∧
    (∀ entrypoint clientAddr : Text,
      connectionRoute namedRouter entrypoint clientAddr allAtOnce.sni = .ok (some namedRoute) ∧
      connectionRoute namedRouter entrypoint clientAddr lastPartLater.sni =
        .ok (some otherRoute)) := by
  have hwhole : allAtOnce.sni = .ok (some ['a', '.', 'b']) := by
    rw [allAtOnce.sni_eq, if_pos (by decide)]
    exact congrArg unfailing (parseSni_namedHello _)
  have hparts : lastPartLater.sni = .ok none := by
    rw [lastPartLater.sni_eq, if_neg (by decide)]
  refine ⟨hwhole, hparts, fun entrypoint clientAddr => ?_⟩
  rw [hwhole, hparts]
  exact ⟨rfl, rfl⟩

end TcpProxy

end TrafficCop
