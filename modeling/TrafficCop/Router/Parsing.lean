import TrafficCop.Router.Grammar

/-!
# What the rule parser accepts

The parser against the grammar, on ASCII texts (where its byte offsets are right). The parser reads
the skeleton of a text, and the grammar derives the text exactly when the skeleton's matcher texts
are calls.
-/

namespace TrafficCop

open Rust List Option Outcome Matcher

/-! ## Whitespace around a text -/

variable {op w w' : Text}

lemma isPrefixOf_append_blank (hop : ∀ c ∈ op, isWhitespace c = false) (hw : Blank w) (s : Text) :
    op.isPrefixOf (s ++ w) = op.isPrefixOf s := by
  rw [Bool.eq_iff_iff, isPrefixOf_iff_prefix, isPrefixOf_iff_prefix]
  refine ⟨fun h => ?_, fun h => h.trans (prefix_append s w)⟩
  rcases prefix_or_prefix_of_prefix h (prefix_append s w) with hs | ⟨y, rfl⟩
  · exact hs
  · -- what of the operator would stand in the whitespace is empty
    have hy : y <+: w := (prefix_append_right_inj s).mp h
    cases y with
    | nil => simp
    | cons c y =>
      have := hw c (hy.subset mem_cons_self)
      simp [hop c (by simp)] at this

lemma steady_of_blank {ch : Char} (hop : ∀ c ∈ op, isWhitespace c = false)
    (hch : op.head? = some ch) (hw : Blank w) (st : ScanState) : Steady ch st w := by
  refine steady_of_plain (fun c hc => plain_of_isWhitespace (hw c hc)) (.inr fun hmem => ?_)
  have := hop ch (mem_of_mem_head? hch)
  simp [hw ch hmem] at this

lemma splitTopFrom_append_blank (hop : ∀ c ∈ op, isWhitespace c = false) (hne : op ≠ [])
    (hw : Blank w) (st : ScanState) (s : Text) :
    splitTopFrom op st (s ++ w) = (splitTopFrom op st s).map fun p => (p.1, p.2 ++ w) := by
  induction s generalizing st with
  | nil =>
    obtain ⟨ch, hch⟩ := isSome_iff_exists.mp (isSome_head?.mpr hne)
    have := splitTopFrom_quiet hch (steady_of_blank hop hch hw st).2 []
    rw [append_nil] at this
    rw [nil_append, this]
    rfl
  | cons c s ih =>
    rw [cons_append, splitTopFrom, splitTopFrom, ← cons_append, isPrefixOf_append_blank hop hw]
    split
    · next hyes =>
      rw [Bool.and_eq_true, isPrefixOf_iff_prefix] at hyes
      rw [drop_append_of_le_length hyes.2.length_le]
      rfl
    · rw [ih, Option.map_map, Option.map_map]
      rfl

lemma splitTop_pad (hop : ∀ c ∈ op, isWhitespace c = false) (hne : op ≠ []) (hw : Blank w)
    (hw' : Blank w') (s : Text) :
    splitTop op (w ++ s ++ w') = (splitTop op s).map fun p => (w ++ p.1, p.2 ++ w') := by
  obtain ⟨ch, hch⟩ := isSome_iff_exists.mp (isSome_head?.mpr hne)
  have hquiet := steady_of_blank hop hch hw .start
  rw [splitTop, splitTopFrom_append_blank hop hne hw', splitTopFrom_quiet hch hquiet.2, hquiet.1,
    Option.map_map]
  rfl

/-- A level that cuts at `op`, or is the next level `g`, does not see whitespace around a text when
`g` does not. -/
lemma pad_of_splitTop (hop : ∀ c ∈ op, isWhitespace c = false) (hne : op ≠ [])
    {f g : Text → Skeleton} {k : Skeleton → Skeleton → Skeleton}
    (hnone : ∀ {s}, splitTop op s = none → f s = g s)
    (hsome : ∀ {s l r}, splitTop op s = some (l, r) → f s = k (f l) (f r))
    (hg : ∀ {w w'}, Blank w → Blank w' → ∀ s, g (w ++ s ++ w') = g s)
    {w w' : Text} (hw : Blank w) (hw' : Blank w') (s : Text) : f (w ++ s ++ w') = f s := by
  have hpad := splitTop_pad hop hne hw hw' s
  cases hcut : splitTop op s with
  | none =>
    rw [hcut] at hpad
    rw [hnone hpad, hnone hcut]
    exact hg hw hw' s
  | some p =>
    obtain ⟨l, r⟩ := p
    have hlt := splitTop_lt hne hcut
    rw [hcut] at hpad
    -- the whitespace goes to the outer ends of the two pieces, which are shorter
    have hl : f (w ++ l) = f l := by
      have := pad_of_splitTop hop hne hnone hsome hg hw blank_nil l
      rwa [append_nil] at this
    have hr : f (r ++ w') = f r :=
      pad_of_splitTop hop hne hnone hsome hg blank_nil hw' r
    rw [hsome hpad, hsome hcut, hl, hr]
termination_by s.length

lemma skeletonAnd_pad (hw : Blank w) (hw' : Blank w') (s : Text) :
    skeletonAnd (w ++ s ++ w') = skeletonAnd s := by
  refine @pad_of_splitTop "&&" (forall_char (by decide)) (by decide) _ _ _
    skeletonAnd_none skeletonAnd_some ?_ _ _ hw hw' s
  intro w w' hw hw' s
  exact skeletonUnary_congr (by rw [trim_append_ws hw', trim_ws_append hw])

lemma skeletonOr_pad (hw : Blank w) (hw' : Blank w') (s : Text) :
    skeletonOr (w ++ s ++ w') = skeletonOr s :=
  @pad_of_splitTop "||" (forall_char (by decide)) (by decide) _ _ _
    skeletonOr_none skeletonOr_some skeletonAnd_pad _ _ hw hw' s

lemma skeletonOr_trim (s : Text) : skeletonOr (trim s) = skeletonOr s := by
  obtain ⟨w, w', hw, hw', hs⟩ := exists_trim_padding s
  rw [← skeletonOr_pad hw hw' (trim s), ← hs]

/-! ## Reading a matcher text -/

lemma parseArgsFrom_gap {g : Text} (hg : Gap g) (rest cur : Text) :
    parseArgsFrom (g ++ rest) false cur = parseArgsFrom rest false cur := by
  induction g with
  | nil => rfl
  | cons c g ih =>
    have hc : c ≠ '`' := by
      rcases hg c mem_cons_self with rfl | hws
      · decide
      · exact (plain_of_isWhitespace hws).1
    rw [cons_append, parseArgsFrom, if_neg hc, if_neg (by simp)]
    exact ih fun d hd => hg d (mem_cons_of_mem c hd)

lemma parseArgsFrom_quoted {a : Text} (ha : '`' ∉ a) (rest cur : Text) :
    parseArgsFrom (a ++ '`' :: rest) true cur = (cur ++ a) :: parseArgsFrom rest false [] := by
  induction a generalizing cur with
  | nil => simp [parseArgsFrom]
  | cons c a ih =>
    have hc : c ≠ '`' := fun h => ha (by rw [h]; exact mem_cons_self)
    rw [cons_append, parseArgsFrom, if_neg hc, if_pos rfl,
      ih fun h => ha (mem_cons_of_mem c h), append_assoc, singleton_append]

lemma parseArgs_argList {as : List Text} {s : Text} (h : ArgList as s) : parseArgs s = as := by
  unfold parseArgs
  induction h with
  | nil hg =>
    have := parseArgsFrom_gap hg [] []
    rw [append_nil] at this
    rw [this, parseArgsFrom]
  | cons hg ha _ ih =>
    rw [parseArgsFrom_gap hg, parseArgsFrom, if_pos rfl, if_neg (by simp),
      parseArgsFrom_quoted ha, nil_append, ih]

section Reader

variable {Regex : Type} [RegexCrate Regex]

/-- The rule of a matcher, if its regular expression compiles. -/
def Matcher.rule : Matcher → ParseResult (Rule Regex)
  | host h => .ok (.host h)
  | hostRegexp p => do return .hostRegex (← compileRegex p)
  | path p => .ok (.path p)
  | pathPrefix p => .ok (.pathPrefix p)
  | pathRegexp p => do return .pathRegex (← compileRegex p)
  | header n v => .ok (.header n v)
  | headerRegexp n p => do return .headerRegex n (← compileRegex p)
  | method m => .ok (.method m)
  | query k v => .ok (.query k v)

/-- The quoted texts begin with the matcher's arguments; only the two-argument matchers count them.
-/
def Matcher.Takes (m : Matcher) (quoted : List Text) : Prop :=
  ∃ extra, quoted = m.args ++ extra ∧ (m.args.length = 2 → extra = [])

lemma compileRegex_eq_ok {p : Text} {re : Regex} :
    compileRegex p = .ok re ↔ RegexCrate.new p = .ok re := by
  unfold compileRegex
  split <;> next h => simp [h]

variable {m : Matcher} {quoted : List Text} {rule : Rule Regex} {t : Text}

lemma Matcher.compiles_of_none (h : m.pattern? = none) : m.Compiles Regex := by
  intro p hp
  rw [h] at hp
  cases hp

lemma regexRule_eq_ok {p : Text} {k : Regex → Rule Regex}
    (h : (do return k (← compileRegex p) : ParseResult (Rule Regex)) = .ok rule) :
    ∃ re, RegexCrate.new p = .ok re ∧ rule = k re := by
  obtain ⟨re, hre, hk⟩ := bind_eq_ok.mp h
  cases hk
  exact ⟨re, compileRegex_eq_ok.mp hre, rfl⟩

lemma Matcher.compiles_of_rule (h : m.rule = .ok rule) : m.Compiles Regex := by
  cases m with
  | hostRegexp p | pathRegexp p | headerRegexp n p =>
    obtain ⟨re, hre, -⟩ := regexRule_eq_ok h
    intro q hq
    cases hq
    exact ⟨re, hre⟩
  | _ => exact compiles_of_none rfl

lemma Matcher.rule_ne_panic (m : Matcher) : (m.rule : ParseResult (Rule Regex)) ≠ .panic := by
  have hregex : ∀ p, (compileRegex p : ParseResult Regex) ≠ .panic := by
    intro p
    unfold compileRegex
    split <;> exact nofun
  cases m <;> simp [rule, bind_eq_panic, hregex]

lemma Matcher.rule_eq_ok_of_compiles (h : m.Compiles Regex) :
    ∃ rule : Rule Regex, m.rule = .ok rule := by
  have hre : ∀ p, m.pattern? = some p → ∃ re : Regex, compileRegex p = .ok re := by
    intro p hp
    obtain ⟨re, hre⟩ := h p hp
    exact ⟨re, compileRegex_eq_ok.mpr hre⟩
  cases m with
  | hostRegexp p =>
    obtain ⟨re, hre⟩ := hre p rfl
    exact ⟨_, by rw [rule, hre]; rfl⟩
  | pathRegexp p =>
    obtain ⟨re, hre⟩ := hre p rfl
    exact ⟨_, by rw [rule, hre]; rfl⟩
  | headerRegexp n p =>
    obtain ⟨re, hre⟩ := hre p rfl
    exact ⟨_, by rw [rule, hre]; rfl⟩
  | _ => exact ⟨_, rfl⟩

lemma buildMatcher_of_takes (h : m.Takes quoted) :
    (buildMatcher m.name quoted : ParseResult (Rule Regex)) = m.rule := by
  obtain ⟨extra, rfl, hextra⟩ := h
  cases m with
  | header n v => obtain rfl := hextra rfl; rfl
  | headerRegexp n p => obtain rfl := hextra rfl; rfl
  | query k v => obtain rfl := hextra rfl; rfl
  | _ => rfl

variable (Regex) in
/-- A name and quoted texts are a matcher's, or the answer is an error. -/
lemma buildMatcher_cases (name : Text) (quoted : List Text) :
    (∃ m : Matcher, name = m.name ∧ m.Takes quoted) ∨
      ∃ e, (buildMatcher name quoted : ParseResult (Rule Regex)) = .err e := by
  have hone : ∀ {m : Text → Matcher} {message : String} {k : Text → ParseResult (Rule Regex)},
      (∀ a, name = (m a).name ∧ (m a).args = [a]) →
      (∃ m : Matcher, name = m.name ∧ m.Takes quoted) ∨
        ∃ e, (firstArg quoted message >>= k) = .err e := by
    intro m message k hm
    cases quoted with
    | nil => exact .inr ⟨_, rfl⟩
    | cons a extra =>
      exact .inl ⟨m a, (hm a).1, extra, by rw [(hm a).2]; rfl, by simp [(hm a).2]⟩
  have htwo : ∀ {m : Text → Text → Matcher} {message : String}
      {k : Text × Text → ParseResult (Rule Regex)},
      (∀ a b, name = (m a b).name ∧ (m a b).args = [a, b]) →
      (∃ m : Matcher, name = m.name ∧ m.Takes quoted) ∨
        ∃ e, (twoArgs quoted message >>= k) = .err e := by
    intro m message k hm
    unfold twoArgs
    split
    · next a b => exact .inl ⟨m a b, (hm a b).1, [], by rw [(hm a b).2]; rfl, fun _ => rfl⟩
    · exact .inr ⟨_, rfl⟩
  -- the names in the order of the tests
  unfold buildMatcher
  split
  · next hn => exact hone (m := host) fun a => ⟨hn, rfl⟩
  split
  · next hn => exact hone (m := hostRegexp) fun a => ⟨hn, rfl⟩
  split
  · next hn => exact hone (m := path) fun a => ⟨hn, rfl⟩
  split
  · next hn => exact hone (m := pathPrefix) fun a => ⟨hn, rfl⟩
  split
  · next hn => exact hone (m := pathRegexp) fun a => ⟨hn, rfl⟩
  split
  · next hn => exact htwo (m := header) fun a b => ⟨hn, rfl⟩
  split
  · next hn => exact htwo (m := headerRegexp) fun a b => ⟨hn, rfl⟩
  split
  · next hn => exact hone (m := method) fun a => ⟨hn, rfl⟩
  split
  · next hn => exact htwo (m := query) fun a b => ⟨hn, rfl⟩
  · exact .inr ⟨_, rfl⟩

lemma buildMatcher_eq_ok {name : Text} (h : buildMatcher name quoted = .ok rule) :
    ∃ m : Matcher, name = m.name ∧ m.Takes quoted ∧ m.Compiles Regex := by
  rcases buildMatcher_cases Regex name quoted with ⟨m, rfl, htakes⟩ | ⟨e, he⟩
  · rw [buildMatcher_of_takes htakes] at h
    exact ⟨m, rfl, htakes, compiles_of_rule h⟩
  · rw [h] at he
    cases he

lemma buildMatcher_ne_panic (name : Text) (quoted : List Text) :
    (buildMatcher name quoted : ParseResult (Rule Regex)) ≠ .panic := by
  rcases buildMatcher_cases Regex name quoted with ⟨m, rfl, htakes⟩ | ⟨e, he⟩
  · rw [buildMatcher_of_takes htakes]
    exact m.rule_ne_panic
  · rw [he]
    exact nofun

lemma parseFunction_applied (m : Matcher) (body : Text) :
    (parseFunction (m.applied body) : ParseResult (Rule Regex)) =
      buildMatcher m.name (parseArgs body) := by
  have hname : ∀ c ∈ m.name, (c != '(') = true := by
    intro c hc
    exact bne_iff_ne.mpr (m.name_chars c hc).1.2.1
  have hspan : (m.applied body).span (· != '(') = (m.name, '(' :: (body ++ [')'])) := by
    rw [span_eq_takeWhile_dropWhile, applied, takeWhile_append_of_pos hname,
      dropWhile_append_of_pos hname]
    simp
  unfold parseFunction
  rw [trim_of_trimmed (m.trimmed_applied body)]
  dsimp only
  rw [hspan]
  dsimp only
  rw [if_pos (m.getLast?_applied body), dropLast_concat]

/-- What `parse_function` accepts: a known name, a parenthesis behind it and one at the end, and
somewhere between the quoted arguments. -/
def LenientCall (Regex : Type) [RegexCrate Regex] (t : Text) : Prop :=
  ∃ (m : Matcher) (body : Text), trim t = m.applied body ∧ m.Takes (parseArgs body) ∧
    m.Compiles Regex

lemma lenientCall_of_ok (h : parseFunction t = .ok rule) : LenientCall Regex t := by
  unfold parseFunction at h
  dsimp only at h
  split at h
  · cases h
  next name c rest hspan =>
  split at h
  next hlast =>
    obtain ⟨m, rfl, htakes, hre⟩ := buildMatcher_eq_ok h
    rw [span_eq_takeWhile_dropWhile, Prod.mk.injEq] at hspan
    have heq : trim t = m.name ++ c :: rest := by
      rw [← hspan.1, ← hspan.2, takeWhile_append_dropWhile]
    -- the character that ended the name is the first parenthesis
    have hc : c = '(' := by
      have := head?_dropWhile_not (· != '(') (trim t)
      rw [hspan.2] at this
      simpa using this
    subst hc
    -- the last character is not that one, so it ends the argument text
    have hrest : rest = rest.dropLast ++ [')'] := by
      cases rest using List.reverseRecOn with
      | nil => rw [heq, getLast?_concat] at hlast; cases hlast
      | append_singleton rest d =>
        rw [heq, ← cons_append, ← append_assoc, getLast?_concat] at hlast
        cases hlast
        simp
    exact ⟨m, rest.dropLast, by rw [heq, applied, ← hrest], htakes, hre⟩
  next => cases h

lemma parseFunction_of_lenientCall (h : LenientCall Regex t) :
    ∃ rule : Rule Regex, parseFunction t = .ok rule := by
  obtain ⟨m, body, ht, htakes, hre⟩ := h
  obtain ⟨rule, hrule⟩ := rule_eq_ok_of_compiles hre
  have htrim : (parseFunction t : ParseResult (Rule Regex)) = parseFunction (trim t) := by
    unfold parseFunction
    rw [trim_trim]
  refine ⟨rule, ?_⟩
  rw [htrim, ht, parseFunction_applied, buildMatcher_of_takes htakes, hrule]

lemma parseFunction_of_callText (h : CallText m t) :
    (parseFunction t : ParseResult (Rule Regex)) = m.rule := by
  obtain ⟨body, hbody, rfl⟩ := h
  rw [parseFunction_applied, parseArgs_argList hbody]
  exact buildMatcher_of_takes ⟨[], by simp, fun _ => rfl⟩

/-! ## Rules mean what their expressions say -/

lemma Matcher.matches_iff (h : m.rule = .ok rule)
    (req : Request) : rule.matches req ↔ m.Holds Regex req := by
  cases m with
  | hostRegexp p =>
    obtain ⟨re, hnew, rfl⟩ := regexRule_eq_ok h
    simp [Rule.matches, Holds, hnew, Option.any_eq_true]
  | pathRegexp p =>
    obtain ⟨re, hnew, rfl⟩ := regexRule_eq_ok h
    simp [Rule.matches, Holds, hnew]
  | headerRegexp n p =>
    obtain ⟨re, hnew, rfl⟩ := regexRule_eq_ok h
    simp [Rule.matches, Holds, hnew, Option.any_eq_true]
  | _ =>
    cases h
    simp [Rule.matches, Holds, Option.any_eq_true, eqIgnoreAsciiCase_iff]

lemma Skeleton.toRule_of_reads {sk : Skeleton} {e : Expr} (h : sk.Reads e)
    (hre : e.Compiles Regex) :
    ∃ rule : Rule Regex, sk.toRule = .ok rule ∧ ∀ req, rule.matches req ↔ e.Holds Regex req := by
  induction sk generalizing e with
  | call t =>
    rcases e with m | _ | _ | _ <;> try exact h.elim
    obtain ⟨rule, hrule⟩ := rule_eq_ok_of_compiles hre
    exact ⟨rule, (parseFunction_of_callText h).trans hrule, fun req => m.matches_iff hrule req⟩
  | not a ih =>
    rcases e with _ | a' | _ | _ <;> try exact h.elim
    obtain ⟨r, hr, hmeans⟩ := ih h hre
    refine ⟨.not r, by rw [toRule, hr]; rfl, fun req => ?_⟩
    rw [Rule.matches, Expr.Holds, ← hmeans req, Bool.not_eq_true', Bool.not_eq_true]
  | and a b iha ihb =>
    rcases e with _ | _ | ⟨a', b'⟩ | _ <;> try exact h.elim
    obtain ⟨l, hl, hlmeans⟩ := iha h.1 hre.1
    obtain ⟨r, hr, hrmeans⟩ := ihb h.2 hre.2
    refine ⟨.and l r, by rw [toRule, hl, hr]; rfl, fun req => ?_⟩
    rw [Rule.matches, Expr.Holds, Bool.and_eq_true, hlmeans, hrmeans]
  | or a b iha ihb =>
    rcases e with _ | _ | _ | ⟨a', b'⟩ <;> try exact h.elim
    obtain ⟨l, hl, hlmeans⟩ := iha h.1 hre.1
    obtain ⟨r, hr, hrmeans⟩ := ihb h.2 hre.2
    refine ⟨.or l r, by rw [toRule, hl, hr]; rfl, fun req => ?_⟩
    rw [Rule.matches, Expr.Holds, Bool.or_eq_true, hlmeans, hrmeans]

/-- **The parser is correct on the grammar.** A text of the grammar whose regular
expressions compile is parsed, and the rule matches a request exactly when the
expression holds of it. -/
theorem parse_grammar {s : Text} {e : Expr} (hs : AsciiText s) (h : Derives .or e s)
    (hre : e.Compiles Regex) :
    ∃ rule : Rule Regex, parse s = .ok rule ∧
      ∀ req, rule.matches req = true ↔ e.Holds Regex req := by
  rw [parse_eq_of_ascii hs, skeletonOr_trim]
  exact Skeleton.toRule_of_reads (derives_iff_reads.mp h) hre

end Reader

theorem parse_grammar_negated_and :
    ∃ rule : Rule Literal, parse "!Host(`a`) &&(Path(`/||`))" = .ok rule ∧
      ∀ req, rule.matches req = true ↔
        (Expr.and (.not (.call (.host "a"))) (.call (.path "/||"))).Holds
          Literal req := by
  have hcall : ∀ {m : Matcher} {a : Text}, m.args = [a] → '`' ∉ a →
      Derives .primary (.call m) (m.applied ('`' :: (a ++ ['`']))) := by
    intro m a hm ha
    refine .call ⟨_, ?_, rfl⟩
    rw [hm]
    exact .cons (g := []) (by simp [Gap]) ha (.nil (by simp [Gap]))
  have hspace : Blank [' '] := forall_char (by decide)
  have hhost : Derives .unary (.not (.call (.host "a"))) "!Host(`a`) " :=
    .not blank_nil (.ofPrimary blank_nil hspace (hcall (a := "a") rfl (by decide)))
  have hpath : Derives .unary (.call (.path "/||")) "(Path(`/||`))" :=
    .ofPrimary blank_nil blank_nil
      (.paren (.ofAnd (.ofUnary
        (.ofPrimary blank_nil blank_nil (hcall (a := "/||") rfl (by decide))))))
  have hall : Derives .or _ "!Host(`a`) &&(Path(`/||`))" :=
    .ofAnd (.and hhost (.ofUnary hpath))
  exact parse_grammar (forall_char (by decide)) hall
    ⟨compiles_of_none rfl, compiles_of_none rfl⟩

/-! ## What a parsed text is made of -/

/-- What is left of a text without its operators outside backticks, its `!`s and its enclosing
parentheses. -/
def matcherTexts (s : Text) : List Text := (skeletonOr (trim s)).calls

section

variable {Regex : Type} [RegexCrate Regex]

omit [RegexCrate Regex] in
lemma toRule_both {a b : ParseResult (Rule Regex)} {k : Rule Regex → Rule Regex → Rule Regex} :
    (∃ rule, (do let l ← a; let r ← b; return k l r) = ok rule) ↔
      (∃ l, a = .ok l) ∧ ∃ r, b = .ok r := by
  refine ⟨fun ⟨rule, h⟩ => ?_, fun ⟨⟨l, hl⟩, r, hr⟩ => ⟨k l r, by rw [hl, hr]; rfl⟩⟩
  obtain ⟨l, hl, h⟩ := bind_eq_ok.mp h
  obtain ⟨r, hr, -⟩ := bind_eq_ok.mp h
  exact ⟨⟨l, hl⟩, r, hr⟩

lemma Skeleton.toRule_eq_ok_iff {sk : Skeleton} :
    (∃ rule : Rule Regex, sk.toRule = .ok rule) ↔ ∀ t ∈ sk.calls, LenientCall Regex t := by
  induction sk with
  | call t =>
    simp only [calls, mem_singleton, forall_eq]
    exact ⟨fun ⟨_, h⟩ => lenientCall_of_ok h, parseFunction_of_lenientCall⟩
  | not a ih =>
    rw [calls, ← ih]
    refine ⟨fun ⟨rule, h⟩ => ?_, fun ⟨r, hr⟩ => ⟨.not r, by rw [toRule, hr]; rfl⟩⟩
    obtain ⟨r, hr, -⟩ := bind_eq_ok.mp h
    exact ⟨r, hr⟩
  | and a b iha ihb =>
    rw [calls, forall_mem_append, ← iha, ← ihb]
    exact toRule_both
  | or a b iha ihb =>
    rw [calls, forall_mem_append, ← iha, ← ihb]
    exact toRule_both

lemma Skeleton.toRule_ne_panic (sk : Skeleton) :
    (sk.toRule : ParseResult (Rule Regex)) ≠ .panic := by
  induction sk with
  | call t =>
    rw [toRule]
    unfold parseFunction
    dsimp only
    split
    · simp
    · split
      · exact buildMatcher_ne_panic _ _
      · simp
  | not a ih => simp [toRule, bind_eq_panic, ih]
  | and a b iha ihb => simp [toRule, bind_eq_panic, iha, ihb]
  | or a b iha ihb => simp [toRule, bind_eq_panic, iha, ihb]

end

lemma Skeleton.exists_reads_iff {sk : Skeleton} :
    (∃ e, sk.Reads e) ↔ ∀ t ∈ sk.calls, ∃ m, CallText m t := by
  induction sk with
  | call t =>
    simp only [calls, mem_singleton, forall_eq]
    refine ⟨?_, fun ⟨m, hm⟩ => ⟨.call m, hm⟩⟩
    rintro ⟨e, h⟩
    rcases e with m | _ | _ | _ <;> try exact h.elim
    exact ⟨m, h⟩
  | not a ih =>
    rw [calls, ← ih]
    refine ⟨?_, fun ⟨e, he⟩ => ⟨.not e, he⟩⟩
    rintro ⟨e, h⟩
    rcases e with _ | a' | _ | _ <;> try exact h.elim
    exact ⟨a', h⟩
  | and a b iha ihb =>
    rw [calls, forall_mem_append, ← iha, ← ihb]
    refine ⟨?_, fun ⟨⟨e, he⟩, f, hf⟩ => ⟨.and e f, he, hf⟩⟩
    rintro ⟨e, h⟩
    rcases e with _ | _ | ⟨a', b'⟩ | _ <;> try exact h.elim
    exact ⟨⟨a', h.1⟩, b', h.2⟩
  | or a b iha ihb =>
    rw [calls, forall_mem_append, ← iha, ← ihb]
    refine ⟨?_, fun ⟨⟨e, he⟩, f, hf⟩ => ⟨.or e f, he, hf⟩⟩
    rintro ⟨e, h⟩
    rcases e with _ | _ | _ | ⟨a', b'⟩ <;> try exact h.elim
    exact ⟨⟨a', h.1⟩, b', h.2⟩

/-- **What a parsed text is made of.** Its matcher texts are accepted by the matcher reader, which
skips what stands outside the backticks; and the text is of the grammar exactly when each holds
just its arguments, commas and whitespace. -/
theorem parse_ok_matchers {Regex : Type} [RegexCrate Regex] {s : Text} {rule : Rule Regex}
    (hs : AsciiText s) (h : parse s = .ok rule) :
    (∀ t ∈ matcherTexts s, LenientCall Regex t) ∧
      ((∃ e, Derives .or e s) ↔ ∀ t ∈ matcherTexts s, ∃ m, CallText m t) := by
  rw [parse_eq_of_ascii hs] at h
  refine ⟨Skeleton.toRule_eq_ok_iff.mp ⟨rule, h⟩, ?_⟩
  rw [matcherTexts, ← Skeleton.exists_reads_iff, skeletonOr_trim]
  exact exists_congr fun e => derives_iff_reads

theorem parse_ok_matchers_host :
    (∀ t ∈ matcherTexts "Host(`a`)", LenientCall Literal t) ∧
      ((∃ e, Derives .or e "Host(`a`)") ↔
        ∀ t ∈ matcherTexts "Host(`a`)", ∃ m, CallText m t) := by
  have hparse : (parse "Host(`a`)" : ParseResult (Rule Literal)) = .ok (.host "a") := by
    rw [parse_call (by decide) (by decide) (by decide) (by decide)]
    decide
  exact parse_ok_matchers (forall_char (by decide)) hparse

lemma ArgList.getLast? {as : List Text} {s : Text} (h : ArgList as s) :
    ∀ c ∈ s.getLast?, c = '`' ∨ c = ',' ∨ isWhitespace c := by
  induction h with
  | nil hg =>
    intro c hc
    exact .inr (hg c (mem_of_getLast? hc))
  | @cons g a as rest _ _ _ ih =>
    intro c hc
    have heq : g ++ '`' :: (a ++ '`' :: rest) = (g ++ '`' :: a ++ ['`']) ++ rest := by simp
    rw [heq, getLast?_append] at hc
    cases hrest : rest.getLast? with
    | some d =>
      rw [hrest] at hc
      cases hc
      exact ih c hrest
    | none =>
      rw [hrest, getLast?_concat] at hc
      cases hc
      exact .inl rfl

/-- Text outside the backticks, without any parenthesis in it, is skipped. -/
theorem parse_skips_stray :
    ¬ ∀ s : Text, AsciiText s → (∃ rule : Rule Literal, parse s = .ok rule) →
      ∃ e, Derives .or e s := by
  intro h
  have hparse : (parse "Host(`a` x)" : ParseResult (Rule Literal)) = .ok (.host "a") := by
    rw [parse_call (by decide) (by decide) (by decide) (by decide)]
    decide
  obtain ⟨e, he⟩ := h "Host(`a` x)" (forall_char (by decide)) ⟨_, hparse⟩
  have hsk : skeletonOr "Host(`a` x)" = .call "Host(`a` x)" := by
    rw [skeletonOr_none (by decide), skeletonAnd_none (by decide),
      skeletonUnary_primary (by decide), skeletonPrimary_eq]
    decide
  obtain ⟨m, body, hbody, heq⟩ := Skeleton.exists_reads_iff.mp ⟨e, derives_iff_reads.mp he⟩
    "Host(`a` x)" (by rw [hsk]; exact mem_singleton_self _)
  -- the character before the final parenthesis is neither a backtick nor a gap
  have hlast : (m.name ++ '(' :: body).getLast? = some 'x' := by
    have := congrArg List.dropLast heq
    rw [applied, ← cons_append, ← append_assoc, dropLast_concat] at this
    rw [← this]
    decide
  rw [getLast?_append, getLast?_cons] at hlast
  cases hb : body.getLast? with
  | none =>
    rw [hb, getD_none, some_or] at hlast
    exact absurd (Option.some.inj hlast) (by decide)
  | some c =>
    rw [hb] at hlast
    obtain rfl : c = 'x' := by simpa using hlast
    exact absurd (hbody.getLast? 'x' hb) (by decide)

end TrafficCop
