import TrafficCop.Http.Headers
import TrafficCop.Http.Uri

/-!
# The headers of a proxied request

The header part of `ProxyHandler::build_proxied_request` of `proxy/handler.rs`.
-/

namespace TrafficCop

open Rust Http List HeaderValue

structure IpText where
  text : Text
  visible : ∀ b ∈ asBytes text, isVisibleAscii b = true

def hopByHopHeaders : List Text :=
  ["connection", "transfer-encoding", "upgrade"]

/-- "Also remove these which aren't in the static list". -/
def alsoRemoved : List Text :=
  ["keep-alive", "proxy-authenticate", "proxy-authorization", "te", "trailers"]

def xForwardedFor : Text := "x-forwarded-for"
def xForwardedHost : Text := "x-forwarded-host"
def xForwardedProto : Text := "x-forwarded-proto"
def hostName : Text := "host"

def removeHopByHop (headers : HeaderMap) (isGrpc : Bool) : HeaderMap :=
  if !isGrpc then (headers.removeAll hopByHopHeaders).removeAll alsoRemoved
  else
    let headers := headers.removeAll
      ["keep-alive", "proxy-authenticate", "proxy-authorization"]
    -- "Ensure TE: trailers is set (required for gRPC over HTTP/2)"
    if headers.containsKey "te" then headers
    else
      match fromStr "trailers" with
      | some value => headers.insert "te" value
      | none => headers

/-- The peer is appended to the first `X-Forwarded-For` line, and the result replaces all of them.
-/
def forwardedFor (headers : HeaderMap) (ip : IpText) : Text :=
  match headers.get xForwardedFor with
  | some existing =>
    match existing.toStr with
    | some existing => existing ++ ", " ++ ip.text
    | none => ip.text
  | none => ip.text

/-- `if let Ok(val) = HeaderValue::from_str(..) { headers.insert(name, val) }`. -/
def insertText (headers : HeaderMap) (name : Text) (text : Option Text) : HeaderMap :=
  match text.bind fromStr with
  | some value => headers.insert name value
  | none => headers

def buildHeaders (headers : HeaderMap) (backendUri : Uri) (ip : IpText)
    (originalHost : Option Text) (isTls isGrpc : Bool) : HeaderMap :=
  let headers := removeHopByHop headers isGrpc
  let headers := insertText headers xForwardedFor (some (forwardedFor headers ip))
  let headers := insertText headers xForwardedHost originalHost
  let headers := insertText headers xForwardedProto
    (some (if isTls then "https" else "http"))
  insertText headers hostName (backendUri.authority.map Authority.text)

/-! ## The values of each field -/

/-- A fixed list, which has `trailers` where the field is `Trailer`; those that `Connection` names
are not looked up. -/
def removedNames : List Text := hopByHopHeaders ++ alsoRemoved

def setNames : List Text := [xForwardedFor, xForwardedHost, xForwardedProto, hostName]

lemma setNames_distinct :
    (xForwardedFor ≠ xForwardedHost ∧ xForwardedFor ≠ xForwardedProto ∧ xForwardedFor ≠ hostName) ∧
    (xForwardedHost ≠ xForwardedProto ∧ xForwardedHost ≠ hostName) ∧
    xForwardedProto ≠ hostName := by
  decide +kernel

lemma not_removed_of_set : ∀ name ∈ setNames, name ∉ removedNames := by
  decide +kernel

section

variable (headers : HeaderMap) (backendUri : Uri) (ip : IpText) (originalHost : Option Text)
  (isTls : Bool)

lemma getAll_removeHopByHop (name : Text) :
    (removeHopByHop headers false).getAll name =
      if name ∈ removedNames then [] else headers.getAll name := by
  show ((headers.removeAll hopByHopHeaders).removeAll alsoRemoved).getAll name = _
  simp only [Multimap.getAll_removeAll, removedNames, mem_append]
  by_cases hfirst : name ∈ hopByHopHeaders
  · simp [hfirst]
  · simp [hfirst]

variable {name : Text} {text : Option Text}

lemma getAll_insertText_of_ne {name' : Text} (h : name' ≠ name) (text : Option Text) :
    (insertText headers name text).getAll name' = headers.getAll name' := by
  unfold insertText
  cases text.bind fromStr with
  | none => rfl
  | some value => rw [Multimap.getAll_insert, if_neg h]

lemma getAll_insertText_of_some {value : HeaderValue}
    (h : text.bind fromStr = some value) (name : Text) :
    (insertText headers name text).getAll name = [value] := by
  unfold insertText
  rw [h, Multimap.getAll_insert, if_pos rfl]

lemma getAll_insertText_eq_nil_iff :
    (insertText headers name text).getAll name = [] ↔
      text.bind fromStr = none ∧ headers.getAll name = [] := by
  unfold insertText
  cases text.bind fromStr with
  | none => simp
  | some value => simp [Multimap.getAll_insert]

lemma getAll_buildHeaders_of_not_set (h : name ∉ setNames) :
    (buildHeaders headers backendUri ip originalHost isTls false).getAll name =
      if name ∈ removedNames then [] else headers.getAll name := by
  simp only [setNames, mem_cons, not_mem_nil, or_false, not_or] at h
  obtain ⟨hfor, hhost, hproto, hname⟩ := h
  unfold buildHeaders
  rw [getAll_insertText_of_ne _ hname, getAll_insertText_of_ne _ hproto,
    getAll_insertText_of_ne _ hhost, getAll_insertText_of_ne _ hfor, getAll_removeHopByHop]

lemma getAll_buildHeaders_host_eq_nil_iff :
    (buildHeaders headers backendUri ip originalHost isTls false).getAll hostName = [] ↔
      (backendUri.authority.map Authority.text).bind fromStr = none ∧
        headers.getAll hostName = [] := by
  obtain ⟨⟨-, -, hfor⟩, ⟨-, hhost⟩, hproto⟩ := setNames_distinct
  unfold buildHeaders
  rw [getAll_insertText_eq_nil_iff, getAll_insertText_of_ne _ hproto.symm,
    getAll_insertText_of_ne _ hhost.symm, getAll_insertText_of_ne _ hfor.symm,
    getAll_removeHopByHop, if_neg (not_removed_of_set hostName (by simp [setNames]))]

lemma getAll_buildHeaders_xForwardedHost_eq_nil_iff :
    (buildHeaders headers backendUri ip originalHost isTls false).getAll xForwardedHost = [] ↔
      originalHost.bind fromStr = none ∧ headers.getAll xForwardedHost = [] := by
  obtain ⟨⟨hfor, -, -⟩, ⟨hproto, hname⟩, -⟩ := setNames_distinct
  unfold buildHeaders
  rw [getAll_insertText_of_ne _ hname, getAll_insertText_of_ne _ hproto,
    getAll_insertText_eq_nil_iff, getAll_insertText_of_ne _ hfor.symm,
    getAll_removeHopByHop, if_neg (not_removed_of_set xForwardedHost (by simp [setNames]))]

lemma getAll_buildHeaders_xForwardedProto_ne_nil :
    (buildHeaders headers backendUri ip originalHost isTls false).getAll xForwardedProto ≠ [] := by
  unfold buildHeaders
  rw [getAll_insertText_of_ne _ setNames_distinct.2.2, Ne, getAll_insertText_eq_nil_iff]
  intro h
  have hnone := h.1
  revert hnone
  cases isTls with
  | false => decide +kernel
  | true => decide +kernel

lemma isVisibleAscii_forwardedFor :
    ∀ b ∈ asBytes (forwardedFor headers ip), isVisibleAscii b := by
  unfold forwardedFor
  split
  · next existing _ =>
    split
    · next text htext =>
      intro b hb
      have hvisible := (toStr_eq_some_iff.mp htext).1
      rw [← asBytes_of_toStr htext] at hvisible
      simp only [asBytes, flatMap_append, mem_append] at hb hvisible
      rcases hb with (hb | hb) | hb
      · exact hvisible b hb
      · -- the comma and the blank
        have hsep : ∀ b ∈ ", ".toList.flatMap String.utf8EncodeChar, isVisibleAscii b := by
          decide +kernel
        exact hsep b hb
      · exact ip.visible b hb
    · exact ip.visible
  · exact ip.visible

lemma getAll_buildHeaders_xForwardedFor : ∃ value : HeaderValue,
    (buildHeaders headers backendUri ip originalHost isTls false).getAll xForwardedFor = [value] ∧
      value.bytes = asBytes (forwardedFor headers ip) := by
  have hkept : (removeHopByHop headers false).get xForwardedFor = headers.get xForwardedFor := by
    unfold Multimap.get
    rw [getAll_removeHopByHop, if_neg (not_removed_of_set xForwardedFor (by simp [setNames]))]
  have htext : forwardedFor (removeHopByHop headers false) ip = forwardedFor headers ip := by
    unfold forwardedFor
    rw [hkept]
  have hvalid : ∀ b ∈ asBytes (forwardedFor headers ip), isValidByte b :=
    fun b hb => isValidByte_of_isVisibleAscii
      (isVisibleAscii_forwardedFor headers ip b hb)
  refine ⟨⟨_, hvalid⟩, ?_, rfl⟩
  obtain ⟨⟨hhost, hproto, hname⟩, -, -⟩ := setNames_distinct
  unfold buildHeaders
  rw [getAll_insertText_of_ne _ hname, getAll_insertText_of_ne _ hproto,
    getAll_insertText_of_ne _ hhost]
  refine getAll_insertText_of_some _ ?_ _
  rw [htext]
  exact fromStr_eq_some hvalid

end

/-! ## What a proxy should forward -/

/-- The fields that are meant for one hop. -/
def hopByHopFields : List Text :=
  ["connection", "keep-alive", "proxy-authenticate",
    "proxy-authorization", "te", "trailer", "transfer-encoding",
    "upgrade"]

def isOws (b : UInt8) : Bool := b == 32 || b == 9

def toLowerByte (b : UInt8) : UInt8 := if 65 ≤ b && b ≤ 90 then b + 32 else b

/-- The names that `Connection` lists. -/
def connectionOptions (headers : HeaderMap) : List (List UInt8) :=
  (headers.getAll "connection").flatMap fun value =>
    (value.bytes.splitOn 44).map fun option =>
      ((option.dropWhile isOws).rdropWhile isOws).map toLowerByte

/-- `Connection` names the field. -/
def NamedByConnection (headers : HeaderMap) (name : Text) : Prop :=
  asBytes name ∈ connectionOptions headers

def combined : List (List UInt8) → List UInt8
  | [] => []
  | [value] => value
  | value :: next :: rest => value ++ asBytes ", " ++ combined (next :: rest)

/-- The request built has the fields received but those for one hop, and the peer in
`X-Forwarded-For`. -/
structure ForwardedRight (received built : HeaderMap) (ip : IpText) : Prop where
  hopByHop : ∀ name ∈ hopByHopFields, built.getAll name = []
  named : ∀ name, NamedByConnection received name → built.getAll name = []
  forwardedFor : combined ((built.getAll xForwardedFor).map bytes) =
    combined ((received.getAll xForwardedFor).map bytes ++ [asBytes ip.text])
  others : ∀ name, name ∉ hopByHopFields → ¬NamedByConnection received name →
    name ∉ setNames → built.getAll name = received.getAll name

structure ForwardedCondition (received : HeaderMap) (backendUri : Uri)
    (originalHost : Option Text) : Prop where
  /-- There is no `Trailer`. -/
  trailer : received.getAll "trailer" = []
  /-- A field that is called `trailers` is there only if `Connection` names it. -/
  trailers : received.getAll "trailers" = [] ∨ NamedByConnection received "trailers"
  /-- There is at most one line of `X-Forwarded-For`, and it is visible ASCII. -/
  forwardedFor : received.getAll xForwardedFor = [] ∨ ∃ value : HeaderValue,
    received.getAll xForwardedFor = [value] ∧ ∀ b ∈ value.bytes, isVisibleAscii b = true
  /-- A field that `Connection` names is one of those that are removed, or it is missing and is
  not set either. -/
  named : ∀ name, NamedByConnection received name → name ∈ removedNames ∨
    received.getAll name = [] ∧ name ≠ xForwardedFor ∧ name ≠ xForwardedProto ∧
      (name = xForwardedHost → originalHost.bind fromStr = none) ∧
      (name = hostName → (backendUri.authority.map Authority.text).bind fromStr = none)

lemma length_combined_concat (values : List (List UInt8)) (last : List UInt8) :
    last.length + 2 * values.length ≤ (combined (values ++ [last])).length := by
  induction values with
  | nil => simp [combined]
  | cons value values ih =>
    have hsep : (asBytes ", ").length = 2 := by decide
    obtain ⟨next, rest, hrest⟩ : ∃ next rest, values ++ [last] = next :: rest :=
      exists_cons_of_ne_nil (by simp)
    rw [cons_append, hrest, combined, ← hrest]
    simp only [length_append, length_cons, hsep]
    omega

section

variable (received : HeaderMap) (backendUri : Uri) (ip : IpText) (originalHost : Option Text)
  (isTls : Bool)

/-- Only the first line is looked at: a second one is lost, and one that is no text is lost with the
rest. -/
lemma forwardedFor_eq_combined_iff :
    asBytes (forwardedFor received ip) =
        combined ((received.getAll xForwardedFor).map bytes ++ [asBytes ip.text]) ↔
      received.getAll xForwardedFor = [] ∨ ∃ value : HeaderValue,
        received.getAll xForwardedFor = [value] ∧ ∀ b ∈ value.bytes, isVisibleAscii b := by
  unfold forwardedFor Multimap.get
  rcases received.getAll xForwardedFor with _ | ⟨first, rest⟩
  · simp [combined]
  · rcases htext : first.toStr with _ | text
    · -- no text: the peer stands alone
      have hlength := length_combined_concat ((first :: rest).map bytes)
        (asBytes ip.text)
      simp only [head?_cons, htext]
      refine iff_of_false (fun heq => ?_) ?_
      · rw [← heq] at hlength
        simp only [length_map, length_cons] at hlength
        omega
      · simp only [reduceCtorEq, List.cons.injEq, false_or]
        intro hsingle
        obtain ⟨value, ⟨hvalue, -⟩, hvisible⟩ := hsingle
        rw [← hvalue] at hvisible
        rw [toStr_eq_some_iff.mpr ⟨hvisible, rfl⟩] at htext
        cases htext
    · have hvisible := (toStr_eq_some_iff.mp htext).1
      have hbytes : asBytes (text ++ ", " ++ ip.text) =
          first.bytes ++ asBytes ", " ++ asBytes ip.text := by
        rw [← asBytes_of_toStr htext]
        simp [asBytes]
      simp only [head?_cons, htext, hbytes]
      rcases rest with _ | ⟨second, rest⟩
      · refine iff_of_true ?_ (Or.inr ⟨first, rfl, hvisible⟩)
        simp [combined]
      · -- what should stand behind the first line is longer than the peer
        have hlength := length_combined_concat ((second :: rest).map bytes)
          (asBytes ip.text)
        refine iff_of_false (fun heq => ?_) (by simp)
        rw [map_cons, map_cons, cons_append, cons_append, combined,
          append_cancel_left_eq, ← cons_append, ← map_cons] at heq
        rw [← heq] at hlength
        simp only [length_map, length_cons] at hlength
        omega

lemma getAll_buildHeaders_eq_nil_iff (name : Text) :
    (buildHeaders received backendUri ip originalHost isTls false).getAll name = [] ↔
      name ∈ removedNames ∨ received.getAll name = [] ∧ name ≠ xForwardedFor ∧
        name ≠ xForwardedProto ∧
        (name = xForwardedHost → originalHost.bind fromStr = none) ∧
        (name = hostName → (backendUri.authority.map Authority.text).bind fromStr = none) := by
  by_cases hset : name ∈ setNames
  · have hremoved := not_removed_of_set name hset
    obtain ⟨⟨hforHost, -, hforName⟩, ⟨hhostProto, hhostName⟩, hprotoName⟩ := setNames_distinct
    simp only [setNames, mem_cons, not_mem_nil, or_false] at hset
    rcases hset with rfl | rfl | rfl | rfl
    · obtain ⟨value, hvalue, -⟩ :=
        getAll_buildHeaders_xForwardedFor received backendUri ip originalHost isTls
      simp [hvalue, hremoved]
    · rw [getAll_buildHeaders_xForwardedHost_eq_nil_iff]
      simp [hremoved, hforHost.symm, hhostProto, hhostName, and_comm]
    · have hproto := getAll_buildHeaders_xForwardedProto_ne_nil received backendUri ip
        originalHost isTls
      simp [hproto, hremoved]
    · rw [getAll_buildHeaders_host_eq_nil_iff]
      simp [hremoved, hforName.symm, hhostName.symm, hprotoName.symm, and_comm]
  · rw [getAll_buildHeaders_of_not_set _ _ _ _ _ hset]
    simp only [setNames, mem_cons, not_mem_nil, or_false, not_or] at hset
    by_cases hremoved : name ∈ removedNames
    · simp [hremoved]
    · simp [hremoved, hset]

/-- The request that is built is the one received, without the fields for one hop and with the
peer in `X-Forwarded-For`, exactly if the condition holds. -/
theorem forwarded_headers_iff :
    ForwardedRight received (buildHeaders received backendUri ip originalHost isTls false) ip ↔
      ForwardedCondition received backendUri originalHost := by
  obtain ⟨value, hvalue, hbytes⟩ :=
    getAll_buildHeaders_xForwardedFor received backendUri ip originalHost isTls
  have hfor : combined ([value].map bytes) = asBytes (forwardedFor received ip) :=
    hbytes
  constructor
  · intro hright
    refine ⟨?_, ?_, ?_, ?_⟩
    · have hbuilt := hright.hopByHop "trailer" (by decide)
      rwa [getAll_buildHeaders_of_not_set _ _ _ _ _ (by decide), if_neg (by decide)] at hbuilt
    · by_cases hnamed : NamedByConnection received "trailers"
      · exact .inr hnamed
      · -- it is removed and should be as it was
        have hbuilt := hright.others "trailers" (by decide) hnamed (by decide)
        rw [getAll_buildHeaders_of_not_set _ _ _ _ _ (by decide), if_pos (by decide)] at hbuilt
        exact .inl hbuilt.symm
    · have hjoined := hright.forwardedFor
      rw [hvalue, hfor] at hjoined
      exact (forwardedFor_eq_combined_iff received ip).mp hjoined
    · intro name hnamed
      exact (getAll_buildHeaders_eq_nil_iff received backendUri ip originalHost isTls name).mp
        (hright.named name hnamed)
  · intro hcond
    refine ⟨?_, ?_, ?_, ?_⟩
    · intro name hname
      have hlisted : ∀ name ∈ hopByHopFields, name ∉ setNames ∧
          (name ∈ removedNames ∨ name = "trailer") := by decide
      obtain ⟨hset, hremoved⟩ := hlisted name hname
      rw [getAll_buildHeaders_of_not_set _ _ _ _ _ hset]
      -- all but one are on the list
      rcases hremoved with hremoved | rfl
      · rw [if_pos hremoved]
      · rw [if_neg (by decide), hcond.trailer]
    · intro name hnamed
      exact (getAll_buildHeaders_eq_nil_iff received backendUri ip originalHost isTls name).mpr
        (hcond.named name hnamed)
    · rw [hvalue, hfor]
      exact (forwardedFor_eq_combined_iff received ip).mpr hcond.forwardedFor
    · intro name hname hnamed hset
      rw [getAll_buildHeaders_of_not_set _ _ _ _ _ hset]
      split
      · next hremoved =>
        -- the one name on the list that is no field for one hop
        have hlisted : ∀ name ∈ removedNames, name ∉ hopByHopFields → name = "trailers" := by decide
        obtain rfl := hlisted name hremoved hname
        exact (hcond.trailers.resolve_right hnamed).symm
      · rfl

end

/-- A request with a `Trailer`, two lines of `X-Forwarded-For` and a field that `Connection` names.
-/
def mixedRequest : HeaderMap :=
  let value (text : List UInt8) (h : ∀ b ∈ text, isValidByte b = true) : HeaderValue := ⟨text, h⟩
  ⟨[("connection", value (asBytes "x-custom") (by decide +kernel)),
    ("x-custom", value (asBytes "1") (by decide +kernel)),
    ("trailer", value (asBytes "expires") (by decide +kernel)),
    (xForwardedFor, value (asBytes "10.0.0.1") (by decide +kernel)),
    (xForwardedFor, value (asBytes "10.0.0.2") (by decide +kernel))]⟩

def mixedPeer : IpText := ⟨"10.0.0.3", by decide +kernel⟩

def mixedBackend : Uri where
  scheme := some ⟨"https", forall_char (by decide)⟩
  authority := some ⟨"10.0.0.9:8080", forall_char (by decide)⟩
  pathAndQuery := ⟨['/'], none⟩

def mixedBuilt : HeaderMap :=
  buildHeaders mixedRequest mixedBackend mixedPeer (some "example.com") false false

/-- `Trailer` and the field that `Connection` names are forwarded, and the second line of
`X-Forwarded-For` is lost. -/
theorem mixed_request_misforwarded :
    mixedBuilt.getAll "trailer" ≠ [] ∧
    (NamedByConnection mixedRequest "x-custom" ∧
      mixedBuilt.getAll "x-custom" ≠ []) ∧
    (mixedBuilt.getAll xForwardedFor).map HeaderValue.bytes =
      [asBytes "10.0.0.1, 10.0.0.3"] ∧
    ¬ForwardedRight mixedRequest mixedBuilt mixedPeer := by
  have htrailer : mixedBuilt.getAll "trailer" ≠ [] := by decide +kernel
  have hnamed : NamedByConnection mixedRequest "x-custom" := by
    unfold NamedByConnection
    decide +kernel
  refine ⟨htrailer, ⟨hnamed, ?_⟩, ?_, ?_⟩
  · decide +kernel
  · decide +kernel
  · intro hright
    exact htrailer (hright.hopByHop _ (by decide))

end TrafficCop
