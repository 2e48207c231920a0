import TrafficCop.Middleware.Digest

/-!
# The parameters of a digest header

`parse_digest_params` of `middleware/builtin/digest_auth.rs` against the texts that it is meant for.
-/

namespace TrafficCop.DigestParams

open Rust List Option

/-! ## Rendering -/

inductive ParamValue where
  | quoted (value : Text) (noQuote : '"' ∉ value)
  | token (value : Text)
      (plain : ∀ c ∈ value, c ≠ '"' ∧ c ≠ ',' ∧ isWhitespace c = false)

namespace ParamValue

def content : ParamValue → Text
  | quoted value _ => value
  | token value _ => value

def text : ParamValue → Text
  | quoted value _ => '"' :: (value ++ ['"'])
  | token value _ => value

end ParamValue

/-- `name="value"` or `name=value`. -/
structure Param where
  name : Text
  value : ParamValue
  nonempty : name ≠ []
  lower : ∀ c ∈ name, isAscii c = true ∧ c.toLower = c
  plain : ∀ c ∈ name, c ≠ '=' ∧ c ≠ ',' ∧ c ≠ '"' ∧ isWhitespace c = false

structure Gap where
  text : Text
  blank : ∀ c ∈ text, isWhitespace c = true

def Param.text (p : Param) : Text := p.name ++ '=' :: p.value.text

/-- Parameters, each behind its gap, with commas between them. -/
def render (params : List (Gap × Param)) : Text :=
  [','].intercalate (params.map fun q => q.1.text ++ q.2.text)

/-- Every parameter behind its comma. -/
def renderRest (params : List (Gap × Param)) : Text :=
  params.flatMap fun q => ',' :: (q.1.text ++ q.2.text)

variable (q : Gap × Param)

lemma render_cons (params : List (Gap × Param)) :
    render (q :: params) = q.1.text ++ q.2.text ++ renderRest params := by
  induction params generalizing q with
  | nil => simp [render, renderRest]
  | cons q' params ih =>
    have hcons : render (q :: q' :: params) =
        q.1.text ++ q.2.text ++ ',' :: render (q' :: params) := by
      simp [render, List.intercalate]
    rw [hcons, ih, renderRest, renderRest, flatMap_cons, cons_append]

/-! ## One parameter -/

namespace Param

variable (p : Param)

lemma trim_name : trim p.name = p.name := by
  refine trim_of_trimmed ⟨fun c hc => ?_, fun c hc => ?_⟩
  · exact (p.plain c (mem_of_head? hc)).2.2.2
  · exact (p.plain c (mem_of_getLast? hc)).2.2.2

lemma toAsciiLowercase_name : toAsciiLowercase p.name = p.name :=
  (map_congr_left fun c hc => (p.lower c hc).2).trans (map_id _)

end Param

/-- What the scanner leaves after a parameter. -/
def Ends (rest : Text) : Prop := rest = [] ∨ ∃ after, rest = ',' :: after

variable (params : List (Gap × Param))

lemma ends_renderRest : Ends (renderRest params) := by
  cases params with
  | nil => exact .inl rfl
  | cons q params => exact .inr ⟨_, rfl⟩

lemma parseParam_text (p : Param) {rest : Text} (hrest : Ends rest) :
    parseParam (p.text ++ rest) = some ((p.name, p.value.content), rest) := by
  have hname : '=' ∉ p.name := fun h => (p.plain _ h).1 rfl
  rw [parseParam, Param.text, append_assoc, cons_append, splitOnce_append _ hname]
  simp only [bind_eq_bind, bind_some, p.trim_name, p.toAsciiLowercase_name]
  cases p.value with
  | quoted value noQuote =>
    have hclose : '"' :: (value ++ ['"']) ++ rest = '"' :: (value ++ '"' :: rest) := by simp
    rw [ParamValue.text, hclose]
    simp only [splitOnce_append rest noQuote, bind_some]
    rfl
  | token value plain =>
    -- the value goes up to the comma or the end
    have hstop : ∀ c ∈ value, decide (c ≠ ',') = true := fun c hc =>
      decide_eq_true (plain c hc).2.1
    have htake : (value ++ rest).takeWhile (· ≠ ',') = value := by
      rw [takeWhile_append_of_pos hstop]
      rcases hrest with rfl | ⟨after, rfl⟩ <;> simp
    have hdrop : (value ++ rest).dropWhile (· ≠ ',') = rest := by
      rw [dropWhile_append_of_pos hstop]
      rcases hrest with rfl | ⟨after, rfl⟩ <;> simp
    have htrim : trim value = value :=
      trim_of_trimmed ⟨fun c hc => (plain c (mem_of_head? hc)).2.2,
        fun c hc => (plain c (mem_of_getLast? hc)).2.2⟩
    simp only [ParamValue.text]
    split
    · next after hquote =>
      have hhead : (value ++ rest).head? = some '"' := by rw [hquote]; rfl
      cases value with
      | nil => rcases hrest with rfl | ⟨after, rfl⟩ <;> cases hhead
      | cons c value =>
        cases hhead
        exact absurd rfl (plain _ mem_cons_self).1
    · rw [htake, hdrop, htrim]
      rfl

/-! ## The loop -/

lemma dropWhile_text (g : Gap) (p : Param) (rest : Text) :
    (g.text ++ p.text ++ rest).dropWhile (fun c => isWhitespace c || c == ',') =
      p.text ++ rest := by
  have hgap : ∀ c ∈ g.text, (isWhitespace c || c == ',') = true := by
    intro c hc
    rw [g.blank c hc, Bool.true_or]
  rw [append_assoc, dropWhile_append_of_pos hgap, Param.text]
  obtain ⟨c, name, hname⟩ := exists_cons_of_ne_nil p.nonempty
  obtain ⟨-, hcomma, -, hblank⟩ := p.plain c (hname ▸ mem_cons_self)
  rw [hname, cons_append, cons_append, dropWhile_cons_of_neg]
  simp [hcomma, hblank]

lemma parseParams_skip {s t : Text} (h : s.dropWhile (fun c => isWhitespace c || c == ',') =
    t.dropWhile fun c => isWhitespace c || c == ',') (fuel : ℕ) (m : HashMap Text Text) :
    parseParams fuel s m = parseParams fuel t m := by
  cases fuel with
  | zero => rfl
  | succ fuel => rw [parseParams, parseParams, h]

lemma dropWhile_renderRest (params : List (Gap × Param)) :
    (renderRest (q :: params)).dropWhile (fun c => isWhitespace c || c == ',') =
      q.2.text ++ renderRest params := by
  rw [renderRest, flatMap_cons, ← renderRest, cons_append,
    dropWhile_cons_of_pos (by decide), dropWhile_text]

def insertAll (m : HashMap Text Text) (params : List (Gap × Param)) : HashMap Text Text :=
  params.foldl (fun m q => m.insert q.2.name q.2.value.content) m

lemma parseParams_renderRest {fuel : ℕ} (hfuel : params.length < fuel) (m : HashMap Text Text) :
    parseParams fuel (renderRest params) m = some (insertAll m params) := by
  induction params generalizing fuel m with
  | nil =>
    obtain ⟨fuel, rfl⟩ : ∃ n, fuel = n + 1 := ⟨fuel - 1, by omega⟩
    rfl
  | cons q params ih =>
    obtain ⟨fuel, rfl⟩ : ∃ n, fuel = n + 1 := ⟨fuel - 1, by omega⟩
    rw [parseParams, dropWhile_renderRest]
    split
    · next hnil => simp [Param.text] at hnil
    · rw [parseParam_text q.2 (ends_renderRest params)]
      exact ih (by simpa using hfuel) _

/-! ## Rendering and parsing -/

lemma Param.last_text (p : Param) {c : Char} (h : p.text.getLast? = some c) :
    isWhitespace c = false := by
  rw [Param.text, getLast?_append] at h
  cases hvalue : p.value with
  | quoted value noQuote =>
    have hquote : ('=' :: p.value.text).getLast? = some '"' := by
      rw [hvalue, ParamValue.text, ← cons_append, ← cons_append, getLast?_concat]
    rw [hquote] at h
    cases h
    decide
  | token value plain =>
    rw [hvalue, ParamValue.text, getLast?_cons] at h
    cases hlast : value.getLast? with
    | none =>
      rw [hlast] at h
      cases h
      decide
    | some d =>
      rw [hlast] at h
      cases h
      exact (plain _ (mem_of_getLast? hlast)).2.2

lemma exists_append_text (p : Param) (params : List (Gap × Param)) :
    ∃ (before : Text) (last : Param), p.text ++ renderRest params = before ++ last.text := by
  rcases eq_nil_or_concat params with rfl | ⟨init, q, rfl⟩
  · exact ⟨[], p, by simp [renderRest]⟩
  · refine ⟨p.text ++ (renderRest init ++ ',' :: q.1.text), q.2, ?_⟩
    simp [renderRest]

lemma trim_render (params : List (Gap × Param)) :
    trim (render (q :: params)) = q.2.text ++ renderRest params := by
  rw [render_cons, append_assoc, trim_ws_append q.1.blank]
  refine trim_of_trimmed ⟨fun c hc => ?_, fun c hc => ?_⟩
  · obtain ⟨d, name, hname⟩ := exists_cons_of_ne_nil q.2.nonempty
    obtain ⟨-, -, -, hblank⟩ := q.2.plain d (hname ▸ mem_cons_self)
    rw [Param.text, hname] at hc
    cases hc
    exact hblank
  · obtain ⟨before, last, heq⟩ := exists_append_text q.2 params
    have hne : last.text ≠ [] := by simp [Param.text]
    rw [heq, getLast?_append_of_ne_nil _ hne] at hc
    exact last.last_text hc

lemma length_le_renderRest : params.length ≤ (renderRest params).length := by
  induction params with
  | nil => exact Nat.le_refl 0
  | cons q params ih =>
    rw [renderRest, flatMap_cons, ← renderRest, length_append, length_cons, length_cons]
    omega

/-- The parameters end up in the map in their order, whether their names are distinct or not. -/
lemma parseDigestParams_eq :
    parseDigestParams (render params) = some (insertAll .empty params) := by
  cases params with
  | nil => rfl
  | cons q params =>
    have hfuel : (q :: params).length < (q.2.text ++ renderRest params).length + 1 := by
      have hle := length_le_renderRest params
      have hpos : q.2.text ≠ [] := by simp [Param.text]
      have hpos := length_pos_iff.mpr hpos
      rw [length_cons, length_append]
      omega
    -- the first parameter may as well be read behind a comma
    have hcomma : (q.2.text ++ renderRest params).dropWhile (fun c => isWhitespace c || c == ',') =
        (renderRest (q :: params)).dropWhile fun c => isWhitespace c || c == ',' := by
      rw [dropWhile_renderRest]
      exact dropWhile_text ⟨[], by simp⟩ q.2 _
    rw [parseDigestParams, trim_render, parseParams_skip hcomma, parseParams_renderRest _ hfuel]

/-- **Parsing inverts rendering.** -/
theorem parseDigestParams_render (params : List (Gap × Param))
    (hnames : (params.map fun q => q.2.name).Nodup) :
    ∃ m, parseDigestParams (render params) = some m ∧ ∀ key value, m.get key = some value ↔
      ∃ q ∈ params, q.2.name = key ∧ q.2.value.content = value := by
  have hpairs : insertAll .empty params =
      HashMap.collect (params.map fun q => (q.2.name, q.2.value.content)) := by
    rw [insertAll, HashMap.collect, foldl_map]
  refine ⟨_, parseDigestParams_eq params, fun key value => ?_⟩
  rw [hpairs, HashMap.get_collect, List.mem_map]
  · simp only [Prod.mk.injEq]
  · -- of two parameters with one name, only one is there
    intro p hp p' hp' hname
    obtain ⟨q, hq, rfl⟩ := mem_map.mp hp
    obtain ⟨q', hq', rfl⟩ := mem_map.mp hp'
    rw [inj_on_of_nodup_map hnames hq hq' hname]

/-- A quoted value with a comma and `=`, and an unquoted one. -/
theorem parseDigestParams_username :
    ∃ m, parseDigestParams "username=\"ann, b=c\", nc=1=" = some m ∧
      m.get "username" = some "ann, b=c" ∧ m.get "nc" = some "1=" := by
  have husername : "username".toList ≠ [] := by decide
  have hnc : "nc".toList ≠ [] := by decide
  have hblank : ∀ c ∈ " ".toList, isWhitespace c := forall_char (by decide)
  let params : List (Gap × Param) :=
    [(⟨[], by simp⟩, ⟨"username", .quoted "ann, b=c" (by decide), husername,
        forall_char (by decide +kernel), forall_char (by decide +kernel)⟩),
      (⟨" ", hblank⟩, ⟨"nc", .token "1=" (forall_char (by decide +kernel)),
        hnc, forall_char (by decide +kernel), forall_char (by decide +kernel)⟩)]
  have hnames : ["username".toList, "nc".toList].Nodup := by decide
  obtain ⟨m, hparse, hget⟩ := parseDigestParams_render params hnames
  exact ⟨m, hparse, (hget _ _).mpr ⟨_, mem_cons_self, rfl, rfl⟩,
    (hget _ _).mpr ⟨_, mem_cons_of_mem _ mem_cons_self, rfl, rfl⟩⟩

end TrafficCop.DigestParams
