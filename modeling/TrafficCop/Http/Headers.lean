import TrafficCop.Lib.Multimap
import TrafficCop.Rust.Text

/-!
# Http — header fields

`HeaderMap` and `HeaderValue` of the `http` crate, and responses without a body.
-/

namespace Http

open Rust List Option

def isValidByte (b : UInt8) : Bool := 32 ≤ b && b != 127 || b == 9

def isVisibleAscii (b : UInt8) : Bool := 32 ≤ b && b < 127 || b == 9

/-- Bytes without control characters other than the tab. -/
structure HeaderValue where
  bytes : List UInt8
  valid : ∀ b ∈ bytes, isValidByte b = true
  deriving DecidableEq

lemma isValidByte_of_all {s : Text} (h : (asBytes s).all isValidByte = true) :
    ∀ b ∈ asBytes s, isValidByte b := all_eq_true.mp h

/-- Names are the lower-case texts of `HeaderName`. -/
abbrev HeaderMap := Multimap Text HeaderValue

namespace HeaderValue

/-- Only visible ASCII is a text. -/
def toStr (v : HeaderValue) : Option Text :=
  if v.bytes.all isVisibleAscii then some (v.bytes.map fun b => Char.ofNat b.toNat) else none

def fromStr (s : Text) : Option HeaderValue :=
  if h : (asBytes s).all isValidByte = true then some ⟨asBytes s, all_eq_true.mp h⟩ else none

variable {b : UInt8} {s : Text} {v : HeaderValue}

lemma isValidByte_of_isVisibleAscii (h : isVisibleAscii b) : isValidByte b := by
  simp only [isVisibleAscii, isValidByte, Bool.or_eq_true, Bool.and_eq_true, decide_eq_true_eq,
    beq_iff_eq, bne_iff_ne] at h ⊢
  rcases h with ⟨hlow, hhigh⟩ | htab
  · refine .inl ⟨hlow, fun heq => ?_⟩
    rw [heq] at hhigh
    exact absurd hhigh (by decide)
  · exact .inr htab

lemma fromStr_eq_some (h : ∀ b ∈ asBytes s, isValidByte b) : fromStr s = some ⟨asBytes s, h⟩ :=
  dif_pos (all_eq_true.mpr h)

lemma fromStr_eq_some_iff : fromStr s = some v ↔ v.bytes = asBytes s := by
  constructor
  · intro h
    unfold fromStr at h
    split at h
    · cases h
      rfl
    · cases h
  · intro h
    rw [fromStr_eq_some (h ▸ v.valid), Option.some.injEq]
    cases v
    cases h
    rfl

lemma isSome_fromStr_iff : (fromStr s).isSome ↔ ∀ b ∈ asBytes s, isValidByte b = true := by
  constructor
  · intro h
    obtain ⟨v, hv⟩ := Option.isSome_iff_exists.mp h
    exact fromStr_eq_some_iff.mp hv ▸ v.valid
  · intro h
    rw [fromStr_eq_some h]
    rfl

lemma utf8EncodeChar_ofNat (h : isVisibleAscii b) :
    String.utf8EncodeChar (Char.ofNat b.toNat) = [b] := by
  have hall : ∀ n : Fin 128, String.utf8EncodeChar (Char.ofNat n) = [UInt8.ofNat n] := by
    decide +kernel
  have hlt : b.toNat < 128 := by
    simp only [isVisibleAscii, Bool.or_eq_true, Bool.and_eq_true, decide_eq_true_eq,
      beq_iff_eq] at h
    rcases h with ⟨-, hhigh⟩ | htab
    · exact Nat.lt_trans (UInt8.lt_iff_toNat_lt.mp hhigh) (by decide)
    · rw [htab]
      decide
  rw [hall ⟨b.toNat, hlt⟩, UInt8.ofNat_toNat]

lemma toStr_eq_some_iff :
    v.toStr = some s ↔ (∀ b ∈ v.bytes, isVisibleAscii b) ∧
      s = v.bytes.map fun b => Char.ofNat b.toNat := by
  unfold toStr
  rw [← List.all_eq_true]
  split
  · next hall =>
    rw [Option.some.injEq]
    exact ⟨fun h => ⟨hall, h.symm⟩, fun h => h.2.symm⟩
  · next hall => exact ⟨fun h => (by cases h), fun h => absurd h.1 hall⟩

lemma asBytes_of_toStr (h : v.toStr = some s) : asBytes s = v.bytes := by
  obtain ⟨hvisible, rfl⟩ := toStr_eq_some_iff.mp h
  have hencode : ∀ bytes : List UInt8, (∀ b ∈ bytes, isVisibleAscii b) →
      asBytes (bytes.map fun b => Char.ofNat b.toNat) = bytes := by
    intro bytes hbytes
    induction bytes with
    | nil => rfl
    | cons b bytes ih =>
      have hhead := utf8EncodeChar_ofNat (hbytes b mem_cons_self)
      have htail := ih fun b hb => hbytes b (mem_cons_of_mem _ hb)
      unfold asBytes at htail ⊢
      rw [map_cons, flatMap_cons, hhead, htail, singleton_append]
  exact hencode v.bytes hvisible

lemma toStr_of_bytes (h : v.bytes = asBytes s)
    (hs : ∀ b ∈ asBytes s, isVisibleAscii b) : v.toStr = some s := by
  have htext := toStr_eq_some_iff.mpr ⟨h ▸ hs, rfl⟩
  rw [htext, asBytes_injective ((asBytes_of_toStr htext).trans h)]

end HeaderValue

structure Response where
  status : UInt16
  headers : HeaderMap := ⟨[]⟩
  deriving DecidableEq

namespace Response

/-- A builder with a status and a call of `header` for each line: an error if a text is no value. -/
def build (status : UInt16) (lines : List (Text × Text)) : Option Response :=
  (lines.mapM fun line => (HeaderValue.fromStr line.2).map (line.1, ·)).map fun lines =>
    { status := status, headers := ⟨lines⟩ }

variable {status : UInt16} {lines : List (Text × Text)}

lemma build_eq_some_iff {response : Response} :
    build status lines = some response ↔ response.status = status ∧
      response.headers.lines.map (fun line => (line.1, line.2.bytes)) =
        lines.map fun line => (line.1, asBytes line.2) := by
  have hvalues : ∀ values : List (Text × HeaderValue),
      lines.mapM (fun line => (HeaderValue.fromStr line.2).map (line.1, ·)) = some values ↔
        values.map (fun line => (line.1, line.2.bytes)) =
          lines.map fun line => (line.1, asBytes line.2) := by
    intro values
    induction lines generalizing values with
    | nil =>
      rw [mapM_nil, map_nil, map_eq_nil_iff]
      exact ⟨fun h => (Option.some.inj h).symm, fun h => by rw [h]; rfl⟩
    | cons line lines ih =>
      rw [mapM_cons, map_cons]
      constructor
      · intro h
        obtain ⟨value, hvalue, h⟩ := bind_eq_some_iff.mp h
        obtain ⟨rest, hrest, h⟩ := bind_eq_some_iff.mp h
        obtain ⟨v, hv, rfl⟩ := map_eq_some_iff.mp hvalue
        cases h
        rw [map_cons, (ih rest).mp hrest, HeaderValue.fromStr_eq_some_iff.mp hv]
      · intro h
        obtain ⟨value, rest, rfl, hvalue, hrest⟩ := map_eq_cons_iff.mp h
        obtain ⟨hname, hbytes⟩ := Prod.mk.inj hvalue
        rw [HeaderValue.fromStr_eq_some_iff.mpr hbytes, (ih rest).mpr hrest, ← hname]
        rfl
  rw [build, map_eq_some_iff]
  constructor
  · intro h
    obtain ⟨values, hlines, rfl⟩ := h
    exact ⟨rfl, (hvalues values).mp hlines⟩
  · intro h
    obtain ⟨rfl, hlines⟩ := h
    exact ⟨_, (hvalues _).mpr hlines, rfl⟩

lemma exists_build_iff :
    (∃ response, build status lines = some response) ↔
      ∀ line ∈ lines, ∀ b ∈ asBytes line.2, isValidByte b := by
  constructor
  · intro h line hline
    obtain ⟨response, h⟩ := h
    have hmem : (line.1, asBytes line.2) ∈
        response.headers.lines.map fun line => (line.1, line.2.bytes) := by
      rw [(build_eq_some_iff.mp h).2]
      exact mem_map_of_mem hline
    obtain ⟨value, -, hvalue⟩ := mem_map.mp hmem
    obtain ⟨-, hbytes⟩ := Prod.mk.inj hvalue
    rw [← hbytes]
    exact value.2.valid
  · intro h
    have hvalues : ∃ values : List (Text × HeaderValue),
        values.map (fun line => (line.1, line.2.bytes)) =
          lines.map fun line => (line.1, asBytes line.2) := by
      induction lines with
      | nil => exact ⟨[], rfl⟩
      | cons line lines ih =>
        obtain ⟨hline, hrest⟩ := forall_mem_cons.mp h
        obtain ⟨values, hvalues⟩ := ih hrest
        exact ⟨(line.1, ⟨_, hline⟩) :: values, by rw [map_cons, map_cons, hvalues]⟩
    obtain ⟨values, hvalues⟩ := hvalues
    exact ⟨⟨status, ⟨values⟩⟩, build_eq_some_iff.mpr ⟨rfl, hvalues⟩⟩

end Response

end Http
