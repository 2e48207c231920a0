import TrafficCop.Router.Skeleton

/-!
# The rule grammar

The language of routing rules, independent of the parser.
-/

namespace TrafficCop

open Rust List Option ScanState RegexCrate

/-! ## Expressions and their meaning -/

/-- The matchers of the rule language. -/
inductive Matcher where
  | host (host : Text)
  | hostRegexp (pattern : Text)
  | path (path : Text)
  | pathPrefix (pre : Text)
  | pathRegexp (pattern : Text)
  | header (name value : Text)
  | headerRegexp (name pattern : Text)
  | method (method : Text)
  | query (key value : Text)
  deriving Repr, DecidableEq

namespace Matcher

def name : Matcher → Text
  | host _ => "Host"
  | hostRegexp _ => "HostRegexp"
  | path _ => "Path"
  | pathPrefix _ => "PathPrefix"
  | pathRegexp _ => "PathRegexp"
  | header _ _ => "Header"
  | headerRegexp _ _ => "HeaderRegexp"
  | method _ => "Method"
  | query _ _ => "Query"

def args : Matcher → List Text
  | host h => [h]
  | hostRegexp p => [p]
  | path p => [p]
  | pathPrefix p => [p]
  | pathRegexp p => [p]
  | header n v => [n, v]
  | headerRegexp n p => [n, p]
  | method m => [m]
  | query k v => [k, v]

def pattern? : Matcher → Option Text
  | hostRegexp p => some p
  | pathRegexp p => some p
  | headerRegexp _ p => some p
  | _ => none

section

variable (Regex : Type) [RegexCrate Regex]

/-- The pattern of the matcher is accepted. -/
def Compiles (m : Matcher) : Prop :=
  ∀ p ∈ m.pattern?, ∃ re : Regex, new p = .ok re

/-- What a matcher says about a request. -/
def Holds (req : Request) : Matcher → Prop
  | host h => ∃ host, req.host = some host ∧ toAsciiLowercase host = toAsciiLowercase h
  | hostRegexp p => ∃ re : Regex, new p = .ok re ∧
      ∃ host, req.host = some host ∧ isMatch re host = true
  | path p => req.path = p
  | pathPrefix p => p <+: req.path
  | pathRegexp p => ∃ re : Regex, new p = .ok re ∧ isMatch re req.path = true
  | header n v => req.header n = some v
  | headerRegexp n p => ∃ re : Regex, new p = .ok re ∧
      ∃ v, req.header n = some v ∧ isMatch re v = true
  | method m => ∃ m', req.method = some m' ∧ toAsciiLowercase m' = toAsciiLowercase m
  | query k v => ∃ q, req.query = some q ∧ queryParamMatches q k v = true

end

end Matcher

/-- Or-expressions of and-expressions of `!`-prefixed primaries, a primary being a parenthesised
expression or a matcher call with backtick-quoted arguments. -/
inductive Expr where
  | call (m : Matcher)
  | not (arg : Expr)
  | and (left right : Expr)
  | or (left right : Expr)
  deriving Repr, DecidableEq

namespace Expr

variable (Regex : Type) [RegexCrate Regex]

def Compiles : Expr → Prop
  | call m => m.Compiles Regex
  | not a => a.Compiles
  | and a b => a.Compiles ∧ b.Compiles
  | or a b => a.Compiles ∧ b.Compiles

/-- What an expression says about a request. -/
def Holds (req : Request) : Expr → Prop
  | call m => m.Holds Regex req
  | not a => ¬ a.Holds req
  | and a b => a.Holds req ∧ b.Holds req
  | or a b => a.Holds req ∨ b.Holds req

end Expr

/-! ## Derivations -/

def Blank (w : Text) : Prop := ∀ c ∈ w, isWhitespace c = true

lemma blank_nil : Blank [] := fun _ h => absurd h not_mem_nil

/-- What may stand outside the backticks of an argument list. -/
def Gap (g : Text) : Prop := ∀ c ∈ g, c = ',' ∨ isWhitespace c = true

/-- Backtick-quoted arguments between gaps. -/
inductive ArgList : List Text → Text → Prop where
  | nil {g} : Gap g → ArgList [] g
  | cons {g a as rest} : Gap g → '`' ∉ a → ArgList as rest →
      ArgList (a :: as) (g ++ '`' :: (a ++ '`' :: rest))

/-- The matcher's name and, directly behind it, a text in parentheses. -/
def Matcher.applied (m : Matcher) (body : Text) : Text := m.name ++ '(' :: (body ++ [')'])

/-- The text of a matcher call, with exactly the matcher's arguments. -/
def CallText (m : Matcher) (t : Text) : Prop := ∃ body, ArgList m.args body ∧ t = m.applied body

/-- The grammar, a level for each function of the descent. Operators associate to the right. -/
inductive Derives : Level → Expr → Text → Prop where
  | or {a b s t} : Derives .and a s → Derives .or b t →
      Derives .or (.or a b) (s ++ ("||" ++ t))
  | ofAnd {e s} : Derives .and e s → Derives .or e s
  | and {a b s t} : Derives .unary a s → Derives .and b t →
      Derives .and (.and a b) (s ++ ("&&" ++ t))
  | ofUnary {e s} : Derives .unary e s → Derives .and e s
  | not {e w s} : Blank w → Derives .unary e s → Derives .unary (.not e) (w ++ '!' :: s)
  | ofPrimary {e w s w'} : Blank w → Blank w' → Derives .primary e s →
      Derives .unary e (w ++ s ++ w')
  | paren {e s} : Derives .or e s → Derives .primary e ('(' :: (s ++ [')']))
  | call {m t} : CallText m t → Derives .primary (.call m) t

/-! ## The scan of a derived text -/

/-- The scan tests no such character. -/
def Quiet (ch : Char) : ScanState → Text → Prop
  | _, [] => True
  | st, c :: cs => (st.tests c = true → c ≠ ch) ∧ Quiet ch (st.next c) cs

variable {ch : Char} {st : ScanState} {s t op : Text} {d : Int} {e : Expr}

lemma quiet_append : Quiet ch st (s ++ t) ↔ Quiet ch st s ∧ Quiet ch (st.after s) t := by
  induction s generalizing st with
  | nil => simp [Quiet]
  | cons c s ih => simp only [cons_append, Quiet, ih, after_cons, and_assoc]

lemma splitTopFrom_quiet (hop : op.head? = some ch) (h : Quiet ch st s) (rest : Text) :
    splitTopFrom op st (s ++ rest) =
      (splitTopFrom op (st.after s) rest).map fun p => (s ++ p.1, p.2) := by
  obtain ⟨op, rfl⟩ := head?_eq_some_iff.mp hop
  induction s generalizing st with
  | nil => simp
  | cons c s ih =>
    have hno : (st.tests c && (ch :: op).isPrefixOf (c :: (s ++ rest))) = false := by
      cases htest : st.tests c with
      | false => rfl
      | true =>
        have hne : (ch == c) = false := beq_eq_false_iff_ne.mpr (h.1 htest).symm
        simp [List.isPrefixOf, hne]
    rw [List.cons_append, splitTopFrom, hno, ih h.2, Option.map_map]
    rfl

lemma splitTop_quiet (hop : op.head? = some ch)
    (h : Quiet ch .start s) : splitTop op s = none := by
  have := splitTopFrom_quiet hop h []
  rw [append_nil] at this
  rw [splitTop, this]
  rfl

lemma splitTop_operator (hop : op.head? = some ch)
    (hch : start.tests ch) (hquiet : Quiet ch .start s)
    (hafter : start.after s = .start) (t : Text) :
    splitTop op (s ++ (op ++ t)) = some (s, t) := by
  have hfirst : splitTopFrom op .start (op ++ t) = some ([], t) := by
    have hpre : op.isPrefixOf (op ++ t) :=
      isPrefixOf_iff_prefix.mpr (prefix_append _ _)
    obtain ⟨op, rfl⟩ := head?_eq_some_iff.mp hop
    rw [cons_append] at hpre
    rw [cons_append, splitTopFrom, hch, hpre, Bool.and_self, if_pos rfl, ← cons_append, drop_left]
  rw [splitTop, splitTopFrom_quiet hop hquiet, hafter, hfirst]
  simp

/-- The scan of the text ends in the state it began in and compares no `ch`. -/
def Steady (ch : Char) (st : ScanState) (s : Text) : Prop := st.after s = st ∧ Quiet ch st s

lemma Steady.append (hs : Steady ch st s) (ht : Steady ch st t) : Steady ch st (s ++ t) := by
  refine ⟨by rw [after_append, hs.1, ht.1], quiet_append.mpr ⟨hs.2, ?_⟩⟩
  rw [hs.1]
  exact ht.2

/-- A text between two characters that are not compared and undo each other. -/
lemma Steady.enclosed {o c : Char} {st' : ScanState} (hs : Steady ch st' s)
    (hopen : st.next o = st') (hclose : st'.next c = st) (ho : st.tests o = false)
    (hc : st'.tests c = false) : Steady ch st (o :: (s ++ [c])) := by
  refine ⟨?_, by simp [ho], ?_⟩
  · rw [after_cons, hopen, after_append, hs.1, after_cons, hclose, after_nil]
  · rw [hopen]
    refine quiet_append.mpr ⟨hs.2, ?_⟩
    rw [hs.1]
    exact ⟨by simp [hc], True.intro⟩

def Plain (c : Char) : Prop := c ≠ '`' ∧ c ≠ '(' ∧ c ≠ ')'

instance : DecidablePred Plain := fun c => inferInstanceAs (Decidable (c ≠ '`' ∧ c ≠ '(' ∧ c ≠ ')'))

lemma steady_of_plain (h : ∀ c ∈ s, Plain c) (hch : st.depth ≠ 0 ∨ ch ∉ s) : Steady ch st s := by
  induction s with
  | nil => exact ⟨rfl, True.intro⟩
  | cons c s ih =>
    have hc := h c mem_cons_self
    have hnext : st.next c = st := by simp [ScanState.next, hc.1, hc.2.1, hc.2.2]
    obtain ⟨hafter, hquiet⟩ := ih (fun d hd => h d (mem_cons_of_mem c hd))
      (hch.imp id fun hmem hs => hmem (mem_cons_of_mem c hs))
    refine ⟨by rw [after_cons, hnext, hafter], fun htest heq => ?_, by rwa [hnext]⟩
    rcases hch with hdepth | hmem
    · simp [tests, hdepth] at htest
    · exact hmem (by rw [heq]; exact mem_cons_self)

lemma plain_of_isWhitespace {c : Char} (h : isWhitespace c) : Plain c := by
  refine ⟨?_, ?_, ?_⟩ <;> rintro rfl <;> exact absurd h (by decide)

lemma steady_quoted {a : Text} (ha : '`' ∉ a) (d : Int) (ch : Char) : Steady ch ⟨d, true⟩ a := by
  induction a with
  | nil => exact ⟨rfl, True.intro⟩
  | cons c a ih =>
    have hc : c ≠ '`' := fun h => ha (by rw [h]; exact mem_cons_self)
    have hnext : next ⟨d, true⟩ c = ⟨d, true⟩ := by simp [ScanState.next, hc]
    obtain ⟨hafter, hquiet⟩ := ih fun h => ha (mem_cons_of_mem c h)
    refine ⟨by rw [after_cons, hnext, hafter], ?_, by rwa [hnext]⟩
    intro htest
    simp [tests] at htest

lemma steady_argList {as : List Text} (h : ArgList as s) (hd : d ≠ 0)
    (ch : Char) : Steady ch ⟨d, false⟩ s := by
  have hgap : ∀ {g : Text}, Gap g → Steady ch ⟨d, false⟩ g := by
    intro g hg
    refine steady_of_plain (fun c hc => ?_) (.inl hd)
    rcases hg c hc with rfl | hws
    · exact ⟨by decide, by decide, by decide⟩
    · exact plain_of_isWhitespace hws
  induction h with
  | nil hg => exact hgap hg
  | @cons g a as rest hg ha _ ih =>
    have hquoted : Steady ch ⟨d, false⟩ ('`' :: (a ++ ['`'])) :=
      (steady_quoted ha d ch).enclosed rfl rfl (by simp [tests])
        (by simp [tests])
    have heq : g ++ '`' :: (a ++ '`' :: rest) = g ++ ('`' :: (a ++ ['`']) ++ rest) := by simp
    rw [heq]
    exact (hgap hg).append (hquoted.append ih)

lemma Steady.parens (h : Steady ch ⟨d + 1, false⟩ s) :
    Steady ch ⟨d, false⟩ ('(' :: (s ++ [')'])) :=
  h.enclosed rfl (by simp [ScanState.next]) (by simp [tests]) (by simp [tests])

variable (m : Matcher)

lemma Matcher.name_chars :
    ∀ c ∈ m.name, Plain c ∧ isWhitespace c = false ∧ c ≠ '|' ∧ c ≠ '&' ∧ c ≠ '!' := by
  cases m <;> exact forall_char rfl

/-- The operator characters never met by the scan of a level's text at depth 0. -/
def Level.Avoids : Level → Char → Prop
  | .or, _ => False
  | .and, ch => ch = '|'
  | _, ch => ch = '|' ∨ ch = '&'

/-- **The scan of a derived text** leaves the state as it was and compares no character of a weaker
operator. -/
theorem derives_steady {lvl : Level} (h : Derives lvl e s)
    (hd : 0 ≤ d) (hch : d ≠ 0 ∨ lvl.Avoids ch) : Steady ch ⟨d, false⟩ s := by
  have hblank : ∀ {w : Text} {d : Int}, Blank w → (d ≠ 0 ∨ ch = '|' ∨ ch = '&') →
      Steady ch ⟨d, false⟩ w := by
    intro w d hw hch
    refine steady_of_plain (fun c hc => plain_of_isWhitespace (hw c hc)) (hch.imp id ?_)
    rintro (rfl | rfl) hmem <;> exact absurd (hw _ hmem) (by decide)
  -- the depth is general: the texts in parentheses are scanned one level deeper
  induction h generalizing d with
  | or _ _ ihs iht =>
    -- an or-expression has its operators in the open, so it must be in parentheses
    have hd0 : d ≠ 0 := hch.resolve_right id
    have hop : Steady ch ⟨d, false⟩ "||" :=
      steady_of_plain (forall_char (by decide)) (.inl hd0)
    exact (ihs hd (.inl hd0)).append (hop.append (iht hd (.inl hd0)))
  | ofAnd _ ih => exact ih hd (.inl (hch.resolve_right id))
  | and _ _ ihs iht =>
    have hop : Steady ch ⟨d, false⟩ "&&" := by
      refine steady_of_plain (forall_char (by decide)) (hch.imp id ?_)
      rintro rfl
      decide
    exact (ihs hd (hch.imp id .inl)).append (hop.append (iht hd hch))
  | ofUnary _ ih => exact ih hd (hch.imp id .inl)
  | @not e w s hw _ ih =>
    have hbang : Steady ch ⟨d, false⟩ ['!'] := by
      refine steady_of_plain (forall_char (by decide)) (hch.imp id ?_)
      rintro (rfl | rfl) <;> decide
    exact (hblank hw hch).append (hbang.append (ih hd hch))
  | ofPrimary hw hw' _ ih => exact ((hblank hw hch).append (ih hd hch)).append (hblank hw' hch)
  | paren _ ih =>
    -- from depth 0 upwards the depth inside is not 0
    exact (ih (by omega) (.inl (by omega))).parens
  | @call m t ht =>
    obtain ⟨body, hbody, rfl⟩ := ht
    have hname : Steady ch ⟨d, false⟩ m.name := by
      refine steady_of_plain (fun c hc => (m.name_chars c hc).1) (hch.imp id ?_)
      rintro (rfl | rfl) hmem
      · exact (m.name_chars _ hmem).2.2.1 rfl
      · exact (m.name_chars _ hmem).2.2.2.1 rfl
    exact hname.append (steady_argList hbody (by omega) ch).parens

/-! ## Derivations and skeletons -/

/-- The skeleton is the expression, with the texts of its matcher calls. -/
def Skeleton.Reads : Skeleton → Expr → Prop
  | call t, .call m => CallText m t
  | not a, .not e => a.Reads e
  | and a b, .and e f => a.Reads e ∧ b.Reads f
  | or a b, .or e f => a.Reads e ∧ b.Reads f
  | _, _ => False

lemma eq_of_parenthesised (h : parenthesised s) : s = '(' :: (inner s ++ [')']) := by
  rw [parenthesised, Bool.and_eq_true, beq_iff_eq, beq_iff_eq] at h
  obtain ⟨t, rfl⟩ := head?_eq_some_iff.mp h.1
  cases t using List.reverseRecOn with
  | nil => simp at h
  | append_singleton t c =>
    obtain rfl : c = ')' := by
      have := h.2
      rwa [← cons_append, getLast?_concat, Option.some.injEq] at this
    simp [inner]

lemma skeletonUnary_congr (h : trim s = trim t) : skeletonUnary s = skeletonUnary t := by
  by_cases hbang : (trim s).head? = some '!'
  · obtain ⟨rest, hrest⟩ := head?_eq_some_iff.mp hbang
    rw [skeletonUnary_bang hrest, skeletonUnary_bang (h.symm.trans hrest)]
  · rw [skeletonUnary_primary hbang, skeletonUnary_primary (h ▸ hbang), h]

lemma Matcher.head?_applied (body : Text) : ∃ c ∈ m.name, (m.applied body).head? = some c := by
  have hne : m.name ≠ [] := by cases m <;> (dsimp only [Matcher.name]; decide)
  obtain ⟨c, cs, hname⟩ := exists_cons_of_ne_nil hne
  refine ⟨c, by rw [hname]; exact mem_cons_self, ?_⟩
  rw [Matcher.applied, hname]
  rfl

lemma Matcher.getLast?_applied (body : Text) : (m.applied body).getLast? = some ')' := by
  rw [Matcher.applied, ← cons_append, ← append_assoc, getLast?_concat]

lemma Matcher.trimmed_applied (body : Text) : Trimmed (m.applied body) := by
  obtain ⟨c, hmem, hhead⟩ := m.head?_applied body
  rw [Trimmed, hhead, m.getLast?_applied]
  refine ⟨?_, ?_⟩
  · rintro d ⟨⟩
    exact (m.name_chars c hmem).2.1
  · rintro d ⟨⟩
    decide

lemma derives_primary (h : Derives .primary e s) : Trimmed s ∧ s.head? ≠ some '!' := by
  cases h with
  | @paren _ t _ =>
    refine ⟨⟨?_, ?_⟩, by simp⟩
    · intro c hc
      obtain rfl : '(' = c := by simpa using hc
      decide
    · intro c hc
      rw [← cons_append, getLast?_concat] at hc
      obtain rfl : ')' = c := by simpa using hc
      decide
  | @call m _ ht =>
    obtain ⟨body, -, rfl⟩ := ht
    obtain ⟨c, hmem, hhead⟩ := m.head?_applied body
    refine ⟨m.trimmed_applied body, ?_⟩
    rw [hhead]
    rintro ⟨⟩
    exact (m.name_chars _ hmem).2.2.2.2 rfl

lemma derives_reads {lvl : Level} (h : Derives lvl e s) : (skeletonAt lvl s).Reads e := by
  induction h with
  | @or a b s t hs _ ihs iht =>
    have hquiet := derives_steady hs (Int.le_refl 0) (.inr rfl : _ ∨ Level.and.Avoids '|')
    show (skeletonOr _).Reads _
    -- the first `||` of the text is the one of this production
    rw [skeletonOr_some (splitTop_operator rfl (by decide) hquiet.2 hquiet.1 t)]
    refine ⟨?_, iht⟩
    rw [skeletonOr_none (splitTop_quiet rfl hquiet.2)]
    exact ihs
  | ofAnd hs ih =>
    have hquiet := derives_steady hs (Int.le_refl 0) (.inr rfl : _ ∨ Level.and.Avoids '|')
    show (skeletonOr _).Reads _
    rw [skeletonOr_none (splitTop_quiet rfl hquiet.2)]
    exact ih
  | @and a b s t hs _ ihs iht =>
    have hquiet := derives_steady hs (Int.le_refl 0) (.inr (.inr rfl) : _ ∨ Level.unary.Avoids '&')
    show (skeletonAnd _).Reads _
    rw [skeletonAnd_some (splitTop_operator rfl (by decide) hquiet.2 hquiet.1 t)]
    refine ⟨?_, iht⟩
    rw [skeletonAnd_none (splitTop_quiet rfl hquiet.2)]
    exact ihs
  | ofUnary hs ih =>
    have hquiet := derives_steady hs (Int.le_refl 0) (.inr (.inr rfl) : _ ∨ Level.unary.Avoids '&')
    show (skeletonAnd _).Reads _
    rw [skeletonAnd_none (splitTop_quiet rfl hquiet.2)]
    exact ih
  | @not e w s hw _ ih =>
    show (skeletonUnary _).Reads _
    -- trimming takes the whitespace before the `!` and some behind its operand
    obtain ⟨rest, hrest, htrim⟩ := trim_cons_visible (c := '!') (s := s) (by decide)
    rw [skeletonUnary_bang (by rw [trim_ws_append hw, hrest]), skeletonUnary_congr htrim]
    exact ih
  | @ofPrimary e w s w' hw hw' hs ih =>
    show (skeletonUnary _).Reads _
    have htrim : trim (w ++ s ++ w') = s := by
      rw [trim_append_ws hw', trim_ws_append hw, trim_of_trimmed (derives_primary hs).1]
    rw [skeletonUnary_primary (by rw [htrim]; exact (derives_primary hs).2), htrim]
    exact ih
  | @paren e s hs ih =>
    show (skeletonPrimary _).Reads _
    rw [skeletonPrimary_eq, trim_of_trimmed (derives_primary (.paren hs)).1]
    have hparen : parenthesised ('(' :: (s ++ [')'])) := by
      rw [parenthesised, ← cons_append, getLast?_concat]
      simp
    have hinner : inner ('(' :: (s ++ [')'])) = s := by simp [inner]
    rw [if_pos hparen, hinner]
    exact ih
  | @call m t ht =>
    show (skeletonPrimary _).Reads _
    -- a call starts with a letter, so the test for outer parentheses fails
    have hparen : parenthesised t = false := by
      obtain ⟨body, -, rfl⟩ := ht
      obtain ⟨c, hmem, hhead⟩ := m.head?_applied body
      have hc : c ≠ '(' := (m.name_chars c hmem).1.2.1
      simp [parenthesised, hhead, hc]
    rw [skeletonPrimary_eq, trim_of_trimmed (derives_primary (.call ht)).1, hparen]
    exact ht

lemma splitTopFrom_left {l r : Text}
    (h : splitTopFrom op st s = some (l, r)) : splitTopFrom op st l = none := by
  induction s generalizing st l with
  | nil => simp [splitTopFrom] at h
  | cons c cs ih =>
    rw [splitTopFrom] at h
    split at h
    · cases h
      rfl
    · next hno =>
      obtain ⟨⟨l', r'⟩, hp, heq⟩ := map_eq_some_iff.mp h
      cases heq
      -- an operator at the head of `c :: l'` would be one at the head of `c :: cs`
      have hl : ¬ (st.tests c && op.isPrefixOf (c :: l')) = true := by
        intro hyes
        rw [Bool.and_eq_true, isPrefixOf_iff_prefix] at hyes hno
        refine hno ⟨hyes.1, hyes.2.trans ?_⟩
        rw [splitTopFrom_eq hp]
        exact prefix_append (c :: l') _
      rw [splitTopFrom, if_neg hl, ih hp]
      rfl

lemma derives_unary_append {w : Text} (h : Derives .unary e s) (hw : Blank w) :
    Derives .unary e (s ++ w) := by
  generalize hlvl : Level.unary = lvl at h
  induction h with
  | not hv _ ih =>
    rw [append_assoc, cons_append]
    exact .not hv (ih rfl)
  | @ofPrimary _ v s v' hv hv' hs =>
    have hvw : Blank (v' ++ w) := fun c hc => (mem_append.mp hc).elim (hv' c) (hw c)
    rw [append_assoc]
    exact .ofPrimary hv hvw hs
  | _ => cases hlvl

/-- What a text of a level derives; a primary without the whitespace around it. -/
def Level.Derived : Level → Expr → Text → Prop
  | .primary, e, s => Derives .primary e (trim s)
  | lvl, e, s => Derives lvl e s

lemma derived_of_reads : ∀ (lvl : Level) (s : Text) {e : Expr},
    (skeletonAt lvl s).Reads e → lvl.Derived e s
  | .or, s, e, h => by
    change (skeletonOr s).Reads e at h
    cases hcut : splitTop "||" s with
    | none =>
      rw [skeletonOr_none hcut] at h
      exact .ofAnd (derived_of_reads .and s h)
    | some p =>
      obtain ⟨l, r⟩ := p
      have hlt := splitTop_lt (by decide) hcut
      rw [skeletonOr_some hcut] at h
      rcases e with _ | _ | _ | ⟨a, b⟩ <;> try exact h.elim
      obtain ⟨hl, hr⟩ := h
      -- the first operator is the outermost: `l` is an and-expression
      rw [skeletonOr_none (splitTopFrom_left hcut)] at hl
      rw [splitTopFrom_eq hcut]
      exact .or (derived_of_reads .and l hl) (derived_of_reads .or r hr)
  | .and, s, e, h => by
    change (skeletonAnd s).Reads e at h
    cases hcut : splitTop "&&" s with
    | none =>
      rw [skeletonAnd_none hcut] at h
      exact .ofUnary (derived_of_reads .unary s h)
    | some p =>
      obtain ⟨l, r⟩ := p
      have hlt := splitTop_lt (by decide) hcut
      rw [skeletonAnd_some hcut] at h
      rcases e with _ | _ | ⟨a, b⟩ | _ <;> try exact h.elim
      obtain ⟨hl, hr⟩ := h
      rw [skeletonAnd_none (splitTopFrom_left hcut)] at hl
      rw [splitTopFrom_eq hcut]
      exact .and (derived_of_reads .unary l hl) (derived_of_reads .and r hr)
  | .unary, s, e, h => by
    change (skeletonUnary s).Reads e at h
    obtain ⟨w, w', hw, hw', hs⟩ := exists_trim_padding s
    by_cases hbang : (trim s).head? = some '!'
    · obtain ⟨rest, hrest⟩ := head?_eq_some_iff.mp hbang
      have hlt := trim_tail_lt hrest
      rw [skeletonUnary_bang hrest] at h
      rcases e with _ | a | _ | _ <;> try exact h.elim
      have harg : Derives .unary a rest := derived_of_reads .unary rest h
      -- the whitespace that was trimmed at the end goes to the operand
      rw [hrest] at hs
      show Derives .unary _ s
      rw [hs, append_assoc]
      exact .not hw (derives_unary_append harg hw')
    · have hle := trim_length_le s
      rw [skeletonUnary_primary hbang] at h
      have hprim : Derives .primary e (trim (trim s)) := derived_of_reads .primary (trim s) h
      rw [trim_trim] at hprim
      show Derives .unary e s
      rw [hs]
      exact .ofPrimary hw hw' hprim
  | .primary, s, e, h => by
    change (skeletonPrimary s).Reads e at h
    rw [skeletonPrimary_eq] at h
    show Derives .primary e (trim s)
    split at h
    · next hparen =>
      have hlt := inner_length_lt hparen
      have hle := trim_length_le s
      have hin : Derives .or e (inner (trim s)) := derived_of_reads .or _ h
      rw [eq_of_parenthesised hparen]
      exact .paren hin
    · rcases e with m | _ | _ | _ <;> try exact h.elim
      exact .call h
termination_by lvl s => (s.length, lvl.rank)
decreasing_by
  all_goals
    simp only [Prod.lex_def, Level.rank, true_and]
    omega

/-- **A text is derived exactly when its skeleton is the expression.** -/
theorem derives_iff_reads : Derives .or e s ↔ (skeletonOr s).Reads e :=
  ⟨derives_reads, derived_of_reads .or s⟩

end TrafficCop
