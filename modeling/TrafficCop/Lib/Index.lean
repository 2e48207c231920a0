import Mathlib.Data.List.Sort

/-!
# Ranked scans and inverted indexes

Two general tools for lookups that are supposed to be shortcuts of a linear scan.

* **Ranked scan** — in descending rank, the first hit has the greatest rank
  (`Descending.find?_max`).
* **Answers** — `Answers rank P o` says what a search for the best `P` is for. Searching one class
  first (`tiered`) gives the best of both only under a condition (`tiered_max_iff`).
* **Inverted index** — `invert keys is` files every `i` under each of its keys, in list order
  (`mem_invert`, `pairwise_invert`).
-/

namespace Index

open List Option

/-! ## Ranked scans -/

section Ranked

variable {α β : Type*} [LinearOrder β] {rank : α → β} {l l' : List α}

/-- Elements in descending rank. -/
def Descending (rank : α → β) (l : List α) : Prop := l.Pairwise fun a b => rank b ≤ rank a

lemma descending_insertionSort (rank : α → β) (l : List α) :
    Descending rank (l.insertionSort fun a b => rank b ≤ rank a) := by
  have : Std.Total fun a b : α => rank b ≤ rank a := ⟨fun a b => le_total (rank b) (rank a)⟩
  have : IsTrans α fun a b => rank b ≤ rank a := ⟨fun _ _ _ hab hbc => hbc.trans hab⟩
  exact pairwise_insertionSort _ l

/-- The first hit of a scan in descending rank is a hit of greatest rank. -/
lemma Descending.find?_max (hl : Descending rank l) {p : α → Bool} {x : α}
    (hx : l.find? p = some x) : ∀ y ∈ l, p y = true → rank y ≤ rank x := by
  obtain ⟨-, before, behind, rfl, hbefore⟩ := find?_eq_some_iff_append.mp hx
  intro y hy hpy
  rcases mem_append.mp hy with hy | hy
  · have hno := hbefore y hy
    rw [hpy] at hno
    simp at hno
  · rcases mem_cons.mp hy with rfl | hy
    · exact le_refl _
    · have htail := (pairwise_append.mp hl).2.1
      exact (pairwise_cons.mp htail).1 y hy

lemma Descending.merge (hl : Descending rank l) (hl' : Descending rank l') :
    Descending rank (l.merge l' fun a b => decide (rank b ≤ rank a)) := by
  have hmerge : (l.merge l' fun a b => decide (rank b ≤ rank a)).Pairwise
      fun a b => decide (rank b ≤ rank a) = true := by
    refine pairwise_merge ?trans ?total l l' ?left ?right
    case trans =>
      intro a b c hab hbc
      rw [decide_eq_true_eq] at hab hbc ⊢
      exact hbc.trans hab
    case total =>
      intro a b
      rw [Bool.or_eq_true, decide_eq_true_eq, decide_eq_true_eq]
      exact le_total _ _
    case left => exact hl.imp fun h => decide_eq_true h
    case right => exact hl'.imp fun h => decide_eq_true h
  exact hmerge.imp fun h => of_decide_eq_true h

lemma Descending.filter (hl : Descending rank l) (p : α → Bool) : Descending rank (l.filter p) :=
  List.Pairwise.filter p hl

/-! ## Answers of a search -/

/-- `o` is an element of `P` of greatest rank, or `none` when `P` is empty. -/
def Answers (rank : α → β) (P : α → Prop) : Option α → Prop
  | some x => P x ∧ ∀ y, P y → rank y ≤ rank x
  | none => ∀ y, ¬ P y

variable {P Q : α → Prop} {o o' : Option α}

/-- A scan in descending rank answers the search for the hits. -/
lemma answers_find? (hl : Descending rank l) {p : α → Bool}
    (hP : ∀ y, P y ↔ y ∈ l ∧ p y) : Answers rank P (l.find? p) := by
  cases hx : l.find? p with
  | none =>
    intro y hy
    obtain ⟨hmem, hpy⟩ := (hP y).mp hy
    exact find?_eq_none.mp hx y hmem hpy
  | some x =>
    refine ⟨(hP x).mpr ⟨mem_of_find?_eq_some hx, find?_some hx⟩, fun y hy => ?_⟩
    obtain ⟨hmem, hpy⟩ := (hP y).mp hy
    exact hl.find?_max hx y hmem hpy

/-- A running answer: a new element takes the place of one of lower rank. -/
def keepBest (rank : α → β) (o : Option α) (x : α) : Option α :=
  match o with
  | some y => if rank y < rank x then some x else some y
  | none => some x

/-- Whoever keeps the best of the elements so far has the answer in the end. -/
lemma Answers.keepBest (h : Answers rank P o) (x : α) :
    Answers rank (fun y => P y ∨ y = x) (keepBest rank o x) := by
  match o, h with
  | none, h =>
    refine ⟨Or.inr rfl, ?_⟩
    rintro y (hy | rfl)
    · exact absurd hy (h y)
    · exact le_refl _
  | some z, h =>
    rw [Index.keepBest]
    split
    · next hlt =>
      refine ⟨Or.inr rfl, ?_⟩
      rintro y (hy | rfl)
      · exact (h.2 y hy).trans hlt.le
      · exact le_refl _
    · next hle =>
      refine ⟨Or.inl h.1, ?_⟩
      rintro y (hy | rfl)
      · exact h.2 y hy
      · exact not_lt.mp hle

lemma Answers.congr (hPQ : ∀ x, P x ↔ Q x) (h : Answers rank P o) : Answers rank Q o := by
  have hPQ : P = Q := funext fun x => propext (hPQ x)
  exact hPQ ▸ h

lemma Answers.rank_eq (h : Answers rank P o) (h' : Answers rank P o') :
    o.map rank = o'.map rank := by
  match o, o', h, h' with
  | none, none, _, _ => rfl
  | some x, none, h, h' => exact absurd h.1 (h' x)
  | none, some x, h, h' => exact absurd h'.1 (h x)
  | some x, some x', h, h' =>
    simp only [map_some, some.injEq]
    exact le_antisymm (h'.2 x h.1) (h.2 x' h'.1)

/-- The second answer is used only when the first one is `none`. -/
def tiered (o o' : Option α) : Option α :=
  match o with
  | some x => some x
  | none => o'

lemma tiered_mem (h : Answers rank P o) (h' : Answers rank Q o') {x : α}
    (hx : tiered o o' = some x) : P x ∨ Q x := by
  match o, h, hx with
  | some y, h, hx =>
    obtain rfl : y = x := some.inj hx
    exact .inl h.1
  | none, _, hx =>
    have hx : o' = some x := hx
    rw [hx] at h'
    exact .inr h'.1

/-- A tiered search finds something exactly when one of the classes is inhabited. -/
lemma tiered_isSome_iff (h : Answers rank P o) (h' : Answers rank Q o') :
    (tiered o o').isSome ↔ ∃ x, P x ∨ Q x := by
  refine ⟨fun hsome => ?_, fun ⟨x, hx⟩ => ?_⟩
  · obtain ⟨x, hx⟩ := isSome_iff_exists.mp hsome
    exact ⟨x, tiered_mem h h' hx⟩
  · match o, o', h, h' with
    | some _, _, _, _ => rfl
    | none, some _, _, _ => rfl
    | none, none, h, h' => exact absurd hx (not_or.mpr ⟨h x, h' x⟩)

/-- **When a tiered search gives the best of both classes**: if the first class is inhabited, no
element of the second outranks all of it. -/
theorem tiered_max_iff (h : Answers rank P o) (h' : Answers rank Q o') :
    (∀ x, tiered o o' = some x → ∀ y, P y ∨ Q y → rank y ≤ rank x) ↔
      ((∃ x, P x) → ∀ y, Q y → ∃ x, P x ∧ rank y ≤ rank x) := by
  match o, h with
  | some x, h =>
    refine ⟨fun hmax _ y hy => ⟨x, h.1, hmax x rfl y (Or.inr hy)⟩, fun hcond x' hx' y hy => ?_⟩
    obtain rfl : x = x' := some.inj hx'
    rcases hy with hy | hy
    · exact h.2 y hy
    · obtain ⟨z, hz, hyz⟩ := hcond ⟨x, h.1⟩ y hy
      exact hyz.trans (h.2 z hz)
  | none, h =>
    refine ⟨fun _ ⟨x, hx⟩ => absurd hx (h x), fun _ x hx y hy => ?_⟩
    have hx : o' = some x := hx
    rw [hx] at h'
    exact h'.2 y (hy.resolve_left (h y))

lemma rel_imp {R S : α → α → Prop} (h : ∀ x x', R x x' → S x x') (hR : Option.Rel R o o') :
    Option.Rel S o o' := by
  cases hR with
  | some hx => exact .some (h _ _ hx)
  | none => exact .none

/-- Two tiered searches over the same classes agree on whether they find something, its rank and its
class. -/
lemma tiered_agree {p p' : Option α} (h : Answers rank P o) (h' : Answers rank P o')
    (hp : Answers rank Q p) (hp' : Answers rank Q p') :
    Option.Rel (fun x x' => rank x = rank x' ∧ (P x ∧ P x' ∨ Q x ∧ Q x'))
      (tiered o p) (tiered o' p') := by
  match o, o', h, h', h.rank_eq h' with
  | some x, some x', h, h', hrank =>
    exact .some ⟨some.inj hrank, Or.inl ⟨h.1, h'.1⟩⟩
  | none, none, _, _, _ =>
    match p, p', hp, hp', hp.rank_eq hp' with
    | some x, some x', hp, hp', hrank =>
      exact .some ⟨some.inj hrank, Or.inr ⟨hp.1, hp'.1⟩⟩
    | none, none, _, _, _ => exact .none

end Ranked

/-! ## Inverted indexes -/

section Inverted

variable {ι κ : Type*} [DecidableEq κ]

/-- `map.entry(k).or_default().push(i)`. -/
def push (m : κ → Option (List ι)) (k : κ) (i : ι) : κ → Option (List ι) :=
  Function.update m k (some ((m k).getD [] ++ [i]))

/-- Every `i` of the list filed under each of its keys, in list order. -/
def invert (keys : ι → List κ) (is : List ι) : κ → Option (List ι) :=
  is.foldl (fun m i => (keys i).foldl (fun m k => push m k i) m) fun _ => none

/-- The elements filed under `k`: each `i` as often as `k` is among its keys. -/
def filed (keys : ι → List κ) (is : List ι) (k : κ) : List ι :=
  is.flatMap fun i => ((keys i).filter (· = k)).map fun _ => i

def extend (entry : Option (List ι)) (more : List ι) : Option (List ι) :=
  if more = [] then entry else some (entry.getD [] ++ more)

lemma extend_extend (entry : Option (List ι)) (a b : List ι) :
    extend (extend entry a) b = extend entry (a ++ b) := by
  by_cases ha : a = []
  · simp [extend, ha]
  · by_cases hb : b = []
    · simp [extend, hb]
    · simp [extend, ha, hb]

lemma foldl_push (ks : List κ) (m : κ → Option (List ι)) (i : ι) (k : κ) :
    (ks.foldl (fun m k => push m k i) m) k = extend (m k) ((ks.filter (· = k)).map fun _ => i) := by
  induction ks generalizing m with
  | nil => simp [extend]
  | cons k' ks ih =>
    rw [foldl_cons, ih]
    by_cases hk : k' = k
    · subst hk
      have hone : push m k' i k' = extend (m k') [i] := by simp [push, extend]
      rw [hone, extend_extend]
      simp
    · have hother : push m k' i k = m k := by simp [push, Function.update, Ne.symm hk]
      rw [hother]
      simp [hk]

lemma invert_eq (keys : ι → List κ) (is : List ι) (k : κ) :
    invert keys is k = extend none (filed keys is k) := by
  -- the loop invariant: what the map held before, extended by what is filed
  have hloop : ∀ (is : List ι) (m : κ → Option (List ι)),
      (is.foldl (fun m i => (keys i).foldl (fun m k => push m k i) m) m) k =
        extend (m k) (filed keys is k) := by
    intro is
    induction is with
    | nil => intro m; simp [filed, extend]
    | cons i is ih =>
      intro m
      rw [foldl_cons, ih, foldl_push, extend_extend]
      rfl
  exact hloop is fun _ => none

variable {keys : ι → List κ} {is : List ι} {k : κ} {i : ι}

lemma mem_filed : i ∈ filed keys is k ↔ i ∈ is ∧ k ∈ keys i := by
  simp only [filed, List.mem_flatMap, List.mem_map, List.mem_filter, decide_eq_true_eq]
  refine ⟨?_, fun ⟨hi, hk⟩ => ⟨i, hi, k, ⟨hk, rfl⟩, rfl⟩⟩
  rintro ⟨j, hj, k', ⟨hk', rfl⟩, rfl⟩
  exact ⟨hj, hk'⟩

lemma mem_invert : i ∈ (invert keys is k).getD [] ↔ i ∈ is ∧ k ∈ keys i := by
  rw [invert_eq, extend, ← mem_filed]
  split
  next hnil => simp [hnil]
  next => simp

/-- The order of the list survives in every entry. -/
lemma pairwise_invert {R : ι → ι → Prop} (hrefl : ∀ i, R i i)
    (his : is.Pairwise R) (k : κ) : ((invert keys is k).getD []).Pairwise R := by
  have hfiled : (filed keys is k).Pairwise R := by
    refine pairwise_flatMap.mpr ⟨fun i _ => ?_, his.imp fun {i j} hij => ?_⟩
    · rw [pairwise_map]
      exact pairwise_of_forall fun _ _ => hrefl i
    · intro x hx y hy
      obtain ⟨-, -, rfl⟩ := mem_map.mp hx
      obtain ⟨-, -, rfl⟩ := mem_map.mp hy
      exact hij
  rw [invert_eq, extend]
  split
  next => exact List.Pairwise.nil
  next => simpa using hfiled

end Inverted

end Index
