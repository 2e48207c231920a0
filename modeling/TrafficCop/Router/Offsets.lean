import TrafficCop.Router.Parsing

/-!
# The rule parser beyond ASCII

`find_operator` uses character numbers as byte offsets. Behind a multi-byte character the two
differ, so a slice may fall inside a character (a panic) or be taken too early (an operator missed,
or found where none stands). This module says exactly for which texts nothing of this happens.

The condition is about characters alone.
-/

namespace TrafficCop

open Rust List ScanState

/-! ## One scan -/

def stateAt (t : Text) (i : Nat) : ScanState := start.after (t.take i)

/-- The scan looks for the operator at this character. -/
def Tested (t : Text) (i : Nat) : Prop := ∃ c, t[i]? = some c ∧ (stateAt t i).tests c = true

/-- The byte offset `i` is inside a character, or the operator stands there. -/
def stopsAt (t op : Text) (i : Nat) : Bool :=
  match sliceFrom t i with
  | none => true
  | some rest => op.isPrefixOf rest

/-- The loop ends at `i` if it gets there. -/
def Stops (t op : Text) (i : Nat) : Prop := Tested t i ∧ stopsAt t op i = true

/-- The offsets tried are harmless up to the operator's own, which is tried. -/
def Exact (t op : Text) : Prop :=
  match splitTop op t with
  | some (l, _) => Tested t (byteLen l) ∧ ∀ i < byteLen l, ¬ Stops t op i
  | none => ∀ i, ¬ Stops t op i

lemma tested_iff {pre cs : Text} {c : Char} :
    Tested (pre ++ c :: cs) pre.length ↔ (start.after pre).tests c := by
  simp [Tested, stateAt]

lemma findOperatorFrom_cases {op : Text} (cs pre : Text) :
    ((∀ i, pre.length ≤ i → ¬ Stops (pre ++ cs) op i) ∧
      findOperatorFrom (pre ++ cs) op cs pre.length (start.after pre) = .ok none) ∨
    ∃ k, Stops (pre ++ cs) op k ∧ (∀ i, pre.length ≤ i → i < k → ¬ Stops (pre ++ cs) op i) ∧
      findOperatorFrom (pre ++ cs) op cs pre.length (start.after pre) =
        match sliceFrom (pre ++ cs) k with
        | none => .panic
        | some _ => .ok (some k) := by
  induction cs generalizing pre with
  | nil =>
    refine .inl ⟨fun i hi hstop => ?_, rfl⟩
    obtain ⟨⟨c, hc, -⟩, -⟩ := hstop
    rw [append_nil, getElem?_eq_none hi] at hc
    cases hc
  | cons c cs ih =>
    have happ : pre ++ c :: cs = pre ++ [c] ++ cs := by simp
    by_cases hstop : Stops (pre ++ c :: cs) op pre.length
    · -- the loop ends here, by a panic or with this number
      refine .inr ⟨pre.length, hstop, fun i hi hlt => by omega, ?_⟩
      obtain ⟨htest, hstop⟩ := hstop
      rw [findOperatorFrom, if_pos (tested_iff.mp htest)]
      unfold stopsAt at hstop
      split at hstop
      · next hnone => rw [hnone]
      · next rest hsome => simp only [hsome, hstop, if_true]
    · have hstep : findOperatorFrom (pre ++ c :: cs) op (c :: cs) pre.length
          (start.after pre) = findOperatorFrom (pre ++ [c] ++ cs) op cs
            (pre ++ [c]).length (start.after (pre ++ [c])) := by
        rw [findOperatorFrom, ← happ, length_append, length_singleton, after_append]
        by_cases htest : (start.after pre).tests c
        · have hno : stopsAt (pre ++ c :: cs) op pre.length = false := by
            rw [← Bool.not_eq_true]
            exact fun h => hstop ⟨tested_iff.mpr htest, h⟩
          rw [if_pos htest]
          rw [stopsAt] at hno
          cases hslice : sliceFrom (pre ++ c :: cs) pre.length with
          | none =>
            rw [hslice] at hno
            cases hno
          | some rest =>
            rw [hslice] at hno
            simp only [hno, Bool.false_eq_true, if_false]
            rfl
        · rw [if_neg htest]
          rfl
      -- numbers from `pre.length` on are this one and those of the rest of the loop
      have hbelow : ∀ i, pre.length ≤ i → i < (pre ++ [c]).length →
          ¬ Stops (pre ++ c :: cs) op i := by
        intro i hi hlt
        rw [length_append, length_singleton] at hlt
        obtain rfl : i = pre.length := by omega
        exact hstop
      have hrec := ih (pre ++ [c])
      rw [← hstep, ← happ] at hrec
      rcases hrec with ⟨hall, heq⟩ | ⟨k, hk, hfirst, heq⟩
      · refine .inl ⟨fun i hi => ?_, heq⟩
        by_cases hlt : i < (pre ++ [c]).length
        · exact hbelow i hi hlt
        · exact hall i (by omega)
      · refine .inr ⟨k, hk, fun i hi hlt => ?_, heq⟩
        by_cases hlt' : i < (pre ++ [c]).length
        · exact hbelow i hi hlt'
        · exact hfirst i (by omega) hlt

lemma findOperator_cases (t op : Text) :
    ((∀ i, ¬ Stops t op i) ∧ findOperator t op = .ok none) ∨
    ∃ k, Stops t op k ∧ (∀ i < k, ¬ Stops t op i) ∧
      findOperator t op =
        match sliceFrom t k with
        | none => .panic
        | some _ => .ok (some k) := by
  rcases @findOperatorFrom_cases op t [] with ⟨hall, heq⟩ | ⟨k, hk, hfirst, heq⟩
  · exact .inl ⟨fun i => hall i (Nat.zero_le i), heq⟩
  · exact .inr ⟨k, hk, fun i => hfirst i (Nat.zero_le i), heq⟩

lemma foundAtOffset_iff_exact {t op : Text} : FoundAtOffset t op ↔ Exact t op := by
  unfold FoundAtOffset Exact
  cases hcut : splitTop op t with
  | none =>
    rcases findOperator_cases t op with ⟨hall, heq⟩ | ⟨k, hk, -, heq⟩
    · rw [heq]
      exact ⟨fun _ => hall, fun _ => rfl⟩
    · refine ⟨fun h => ?_, fun h => absurd hk (h k)⟩
      rw [heq] at h
      split at h <;> cases h
  | some p =>
    obtain ⟨l, r⟩ := p
    have hslice : sliceFrom t (byteLen l) = some (op ++ r) := by
      rw [splitTopFrom_eq hcut, sliceFrom_append]
    have hpre : stopsAt t op (byteLen l) := by
      simp [stopsAt, hslice]
    rcases findOperator_cases t op with ⟨hall, heq⟩ | ⟨k, hk, hfirst, heq⟩
    · refine ⟨fun h => ?_, fun h => absurd ⟨h.1, hpre⟩ (hall _)⟩
      rw [heq] at h
      cases h
    · refine ⟨fun h => ?_, fun ⟨htest, hbelow⟩ => ?_⟩
      · -- the answer is the first stop, so that is the operator's offset
        rw [heq] at h
        split at h
        · cases h
        · cases h
          exact ⟨hk.1, hfirst⟩
      · -- both `k` and the operator's offset are first stops
        have hkl : k = byteLen l := by
          rcases Nat.lt_trichotomy k (byteLen l) with hlt | heq' | hgt
          · exact absurd hk (hbelow k hlt)
          · exact heq'
          · exact absurd ⟨htest, hpre⟩ (hfirst _ hgt)
        rw [heq, hkl, hslice]
        rfl

/-! ## Runs of the parser -/

section Runs

variable (Regex : Type) [RegexCrate Regex]

/-- The parser gives a rule. -/
def ReadOk (lvl : Level) (s : Text) : Prop := ∃ rule : Rule Regex, parseAt lvl s = .ok rule

/-- What is left to be read are calls. -/
def Readable (lvl : Level) (s : Text) : Prop :=
  ∀ t ∈ (skeletonAt lvl s).calls, LenientCall Regex t

/-- The calls that `parse` makes on a text. -/
def Made (s : Text) : Level × Text → Prop :=
  Relation.ReflTransGen (Calls splitAtOperator (ReadOk Regex)) (.or, trim s)

/-- The calls of a descent that cuts at the first operator outside backticks and
parentheses. -/
def Due (s : Text) : Level × Text → Prop :=
  Relation.ReflTransGen (Calls topCut (Readable Regex)) (.or, trim s)

/-- The scan that a call makes is exact. -/
def ScansExactly : Level × Text → Prop
  | (.or, s) => Exact s "||"
  | (.and, s) => Exact s "&&"
  | _ => True

variable {Regex} {x y : Level × Text} {read : Level → Text → Prop}

omit [RegexCrate Regex] in
lemma scansRight_iff : ScansRight x ↔ ScansExactly x := by
  obtain ⟨lvl, s⟩ := x
  cases lvl <;> first | exact foundAtOffset_iff_exact | exact Iff.rfl

/-- A call made under one reading of the left operands is made under another that reads the same
texts. -/
lemma Calls.mono {cut : Text → Text → ParseResult (Option (Text × Text))}
    {read' : Level → Text → Prop} (h : Calls cut read x y)
    (hread : ∀ lvl l, (∀ any, Calls cut any x (lvl, l)) → read lvl l → read' lvl l) :
    Calls cut read' x y := by
  cases h with
  | orLeft hcut => exact .orLeft hcut
  | orRight hcut hl => exact .orRight hcut (hread .or _ (fun _ => .orLeft hcut) hl)
  | orAnd hcut => exact .orAnd hcut
  | andLeft hcut => exact .andLeft hcut
  | andRight hcut hl => exact .andRight hcut (hread .and _ (fun _ => .andLeft hcut) hl)
  | andUnary hcut => exact .andUnary hcut
  | bang htrim => exact .bang htrim
  | primary hbang => exact .primary hbang
  | paren hparen => exact .paren hparen

lemma Calls.recut {cut cut' : Text → Text → ParseResult (Option (Text × Text))}
    (h : Calls cut read x y) (hor : x.1 = .or → cut x.2 "||" = cut' x.2 "||")
    (hand : x.1 = .and → cut x.2 "&&" = cut' x.2 "&&") : Calls cut' read x y := by
  cases h with
  | orLeft h => exact .orLeft ((hor rfl).symm.trans h)
  | orRight h hl => exact .orRight ((hor rfl).symm.trans h) hl
  | orAnd h => exact .orAnd ((hor rfl).symm.trans h)
  | andLeft h => exact .andLeft ((hand rfl).symm.trans h)
  | andRight h hl => exact .andRight ((hand rfl).symm.trans h) hl
  | andUnary h => exact .andUnary ((hand rfl).symm.trans h)
  | bang h => exact .bang h
  | primary h => exact .primary h
  | paren h => exact .paren h

lemma calls_splitAtOperator_iff (hx : ScansRight x) :
    Calls splitAtOperator read x y ↔ Calls topCut read x y := by
  obtain ⟨lvl, s⟩ := x
  have hor : lvl = .or → splitAtOperator s "||" = topCut s "||" := by
    rintro rfl
    exact splitAtOperator_of_found (by decide) hx
  have hand : lvl = .and → splitAtOperator s "&&" = topCut s "&&" := by
    rintro rfl
    exact splitAtOperator_of_found (by decide) hx
  exact ⟨fun h => h.recut hor hand, fun h => h.recut (fun e => (hor e).symm) fun e => (hand e).symm⟩

lemma readable_iff {lvl : Level} {s : Text} :
    Readable Regex lvl s ↔ ∃ rule : Rule Regex, (skeletonAt lvl s).toRule = .ok rule :=
  Skeleton.toRule_eq_ok_iff.symm

section Agreement

variable {s : Text}

lemma parseAt_of_made (hmade : ∀ x, Made Regex s x → ScansRight x) {lvl : Level} {t : Text}
    (ht : Made Regex s (lvl, t)) :
    (parseAt lvl t : ParseResult (Rule Regex)) = (skeletonAt lvl t).toRule := by
  refine parseAt_eq hmade (fun x y hx hcall => ?_) lvl t ht
  refine hx.tail ((calls_splitAtOperator_iff (hmade x hx)).mpr (hcall.mono ?_))
  rintro lvl l - ⟨rule, hrule, -⟩
  exact ⟨rule, hrule⟩

lemma parseAt_of_due (hdue : ∀ x, Due Regex s x → ScansRight x) {lvl : Level} {t : Text}
    (ht : Due Regex s (lvl, t)) :
    (parseAt lvl t : ParseResult (Rule Regex)) = (skeletonAt lvl t).toRule := by
  refine parseAt_eq hdue (fun x y hx hcall => hx.tail (hcall.mono ?_)) lvl t ht
  rintro lvl l - ⟨rule, -, hrule⟩
  exact readable_iff.mpr ⟨rule, hrule⟩

lemma made_of_due (hmade : ∀ x, Made Regex s x → ScansRight x) {x : Level × Text}
    (hx : Due Regex s x) : Made Regex s x := by
  induction hx with
  | refl => exact .refl
  | @tail x y _ hcall hx =>
    have hright := hmade x hx
    refine hx.tail ((calls_splitAtOperator_iff hright).mpr (hcall.mono fun lvl l hleft hread => ?_))
    -- the text before the operator is scanned by the parser too
    have hl : Made Regex s (lvl, l) :=
      hx.tail ((calls_splitAtOperator_iff hright).mpr (hleft _))
    obtain ⟨rule, hrule⟩ := readable_iff.mp hread
    exact ⟨rule, (parseAt_of_made hmade hl).trans hrule⟩

lemma due_of_made (hdue : ∀ x, Due Regex s x → ScansRight x) {x : Level × Text}
    (hx : Made Regex s x) : Due Regex s x := by
  induction hx with
  | refl => exact .refl
  | @tail x y _ hcall hx =>
    -- the scan of `x` is due, so it is right and cuts where the code cuts
    rw [calls_splitAtOperator_iff (hdue x hx)] at hcall
    refine hx.tail (hcall.mono fun lvl l hleft hread => ?_)
    have hl : Due Regex s (lvl, l) := hx.tail (hleft _)
    obtain ⟨rule, hrule⟩ := hread
    exact readable_iff.mpr ⟨rule, (parseAt_of_due hdue hl).symm.trans hrule⟩

end Agreement

/-- **When the parser is right about offsets.** A parse does not panic and finds
every operator it looks for at its byte offset, exactly when the scans of the
right descent are exact. -/
theorem parse_scans_right_iff (s : Text) :
    ((parse s : ParseResult (Rule Regex)) ≠ .panic ∧ ∀ x, Made Regex s x → ScansRight x) ↔
      ∀ x, Due Regex s x → ScansExactly x := by
  refine ⟨fun ⟨_, hmade⟩ x hx => ?_, fun hexact => ?_⟩
  · exact scansRight_iff.mp (hmade x (made_of_due hmade hx))
  · have hdue : ∀ x, Due Regex s x → ScansRight x := fun x hx => scansRight_iff.mpr (hexact x hx)
    refine ⟨?_, fun x hx => hdue x (due_of_made hdue hx)⟩
    -- the skeleton slices nothing, so what it reads cannot panic
    have heq : (parse s : ParseResult (Rule Regex)) = (skeletonOr (trim s)).toRule :=
      @parseAt_of_due Regex _ s hdue .or (trim s) .refl
    rw [heq]
    exact Skeleton.toRule_ne_panic _

end Runs

/-- An internationalised host before an operator: the slice behind it falls into
a character. -/
theorem parse_panics_umlaut :
    ¬ ∀ s : Text, (parse s : ParseResult (Rule Literal)) ≠ .panic ∧
      ∀ x, Made Literal s x → ScansRight x := by
  intro h
  have hcut : splitAtOperator (trim "Host(`ééééééé`) && Path(`/`)") "||" = .panic := by decide
  refine (h "Host(`ééééééé`) && Path(`/`)").1 ?_
  rw [parse, parseOr_eq, hcut]
  rfl

end TrafficCop
