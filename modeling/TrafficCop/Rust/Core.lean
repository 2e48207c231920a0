import Mathlib.Data.List.Perm.Lattice
import Mathlib.Data.List.Induction

/-!
# Rust — outcomes and hash maps

The part of the language and of its standard library that the models share
and that has no direct counterpart in Lean:

* `Outcome` — a value, an `Err` or a panic.
* `HashMap` — the entries in *some* order, every key once.

The last section has facts about vectors, which are lists in the models.
-/

namespace Rust

open List Option

/-! ## Outcomes -/

/-- The result of a Rust function of type `Result<α, ε>` that may also panic. -/
inductive Outcome (ε α : Type) where
  | ok (a : α)
  | err (e : ε)
  | panic
  deriving Repr, DecidableEq

namespace Outcome

variable {ε α β : Type}

/-- The `?` operator; only the `Err` can be intercepted. -/
protected def bind : Outcome ε α → (α → Outcome ε β) → Outcome ε β
  | .ok a, f => f a
  | .err e, _ => .err e
  | .panic, _ => .panic

instance : Monad (Outcome ε) where
  pure := .ok
  bind := Outcome.bind

@[simp] lemma ok_bind (a : α) (f : α → Outcome ε β) : (Outcome.ok a >>= f) = f a := rfl
@[simp] lemma err_bind (e : ε) (f : α → Outcome ε β) : (Outcome.err e >>= f) = .err e := rfl
@[simp] lemma panic_bind (f : α → Outcome ε β) : (Outcome.panic >>= f) = .panic := rfl
@[simp] lemma pure_eq (a : α) : (pure a : Outcome ε α) = .ok a := rfl

variable {x : Outcome ε α} {f : α → Outcome ε β}

lemma bind_eq_ok {b : β} : (x >>= f) = .ok b ↔ ∃ a, x = .ok a ∧ f a = .ok b := by
  cases x <;> simp

/-- A `?` panics when the first part does, or when the rest does after its success. -/
lemma bind_eq_panic : (x >>= f) = .panic ↔ x = .panic ∨ ∃ a, x = .ok a ∧ f a = .panic := by
  cases x <;> simp

lemma ok_ne_panic (a : α) : (.ok a : Outcome ε α) ≠ .panic := by
  intro h
  cases h

lemma exists_eq_ok_iff {x : Outcome Empty α} : (∃ a, x = .ok a) ↔ x ≠ .panic := by
  cases x with
  | ok a => exact iff_of_true ⟨a, rfl⟩ (ok_ne_panic a)
  | err e => exact e.elim
  | panic =>
    refine iff_of_false ?_ fun h => h rfl
    rintro ⟨a, ha⟩
    exact ok_ne_panic a ha.symm

def unwrap : Option α → Outcome ε α
  | some a => .ok a
  | none => .panic

lemma unwrap_eq_ok {x : Option α} {a : α} : (unwrap x : Outcome ε α) = .ok a ↔ x = some a := by
  cases x <;> simp [unwrap]

end Outcome

/-! ## Hash maps -/

/-- A `HashMap<κ, α>`: its entries in iteration order, with distinct keys. -/
structure HashMap (κ α : Type) where
  entries : List (κ × α)
  nodup : (entries.map Prod.fst).Nodup

namespace HashMap

variable {κ α : Type}

def empty : HashMap κ α := ⟨[], by simp⟩

def singleton (k : κ) (a : α) : HashMap κ α := ⟨[(k, a)], by simp⟩

variable [DecidableEq κ]

def get (m : HashMap κ α) (k : κ) : Option α := m.entries.lookup k

def containsKey (m : HashMap κ α) (k : κ) : Bool := (m.get k).isSome

/-- The same content in another order. -/
def Reordered (m m' : HashMap κ α) : Prop := m.entries.Perm m'.entries

variable {k k' : κ} {a : α} {m : HashMap κ α}

variable {l : List (κ × α)} {m' : HashMap κ α}

lemma lookup_eq_some_iff_mem (hl : (l.map Prod.fst).Nodup)
    : l.lookup k = some a ↔ (k, a) ∈ l := by
  induction l with
  | nil => simp
  | cons p rest ih =>
    obtain ⟨k', a'⟩ := p
    rw [map_cons, nodup_cons] at hl
    rw [lookup_cons]
    by_cases hk : k = k'
    · subst hk
      have hnot : (k, a) ∉ rest := fun h => hl.1 (mem_map.mpr ⟨(k, a), h, rfl⟩)
      simp [hnot, eq_comm]
    · have hbeq : (k == k') = false := beq_eq_false_iff_ne.mpr hk
      simp [hbeq, hk, ih hl.2]

lemma get_eq_some_iff : m.get k = some a ↔ (k, a) ∈ m.entries :=
  lookup_eq_some_iff_mem m.nodup

def values (m : HashMap κ α) : List α := m.entries.map Prod.snd

lemma mem_values_iff : a ∈ m.values ↔ ∃ k, m.get k = some a := by
  simp only [values, List.mem_map, Prod.exists, exists_eq_right, get_eq_some_iff]

lemma Reordered.get_eq (h : m.Reordered m') (k : κ) : m'.get k = m.get k :=
  ext fun a => by rw [get_eq_some_iff, get_eq_some_iff, h.mem_iff]

lemma Reordered.mem_values (h : m.Reordered m') : a ∈ m'.values ↔ a ∈ m.values := by
  simp only [mem_values_iff, h.get_eq]

lemma exists_reordered_cons (h : m.get k = some a) :
    ∃ m' : HashMap κ α, m.Reordered m' ∧ ∃ rest, m'.entries = (k, a) :: rest := by
  obtain ⟨before, after, hsplit⟩ := append_of_mem (get_eq_some_iff.mp h)
  have hperm : m.entries.Perm ((k, a) :: (before ++ after)) := by
    rw [hsplit]
    exact perm_middle
  exact ⟨⟨(k, a) :: (before ++ after), (hperm.map Prod.fst).nodup_iff.mp m.nodup⟩, hperm, _, rfl⟩

/-- The map that collects what a function makes of the entries. -/
def filterMap {β : Type} (f : κ → α → Option β) (m : HashMap κ α) : HashMap κ β where
  entries := m.entries.filterMap fun entry => (f entry.1 entry.2).map (entry.1, ·)
  nodup := by
    have hkeys : ∀ l : List (κ × α),
        ((l.filterMap fun entry => (f entry.1 entry.2).map (entry.1, ·)).map Prod.fst).Sublist
          (l.map Prod.fst) := by
      intro l
      induction l with
      | nil => exact List.Sublist.slnil
      | cons entry l ih =>
        cases h : f entry.1 entry.2 with
        | none => simpa [h] using ih.cons entry.1
        | some b => simpa [h] using ih
    exact m.nodup.sublist (hkeys m.entries)

lemma get_filterMap {β : Type} {f : κ → α → Option β} :
    (m.filterMap f).get k = (m.get k).bind (f k) := by
  refine ext fun b => ?_
  rw [get_eq_some_iff, bind_eq_some_iff, filterMap, mem_filterMap]
  refine ⟨?_, ?_⟩
  · rintro ⟨⟨k', a⟩, hmem, h⟩
    obtain ⟨b', hb', heq⟩ := map_eq_some_iff.mp h
    cases heq
    exact ⟨a, get_eq_some_iff.mpr hmem, hb'⟩
  · rintro ⟨a, ha, hb⟩
    exact ⟨(k, a), get_eq_some_iff.mp ha, by rw [hb]; rfl⟩

def retain (keep : κ → α → Bool) (m : HashMap κ α) : HashMap κ α where
  entries := m.entries.filter fun entry => keep entry.1 entry.2
  nodup := m.nodup.sublist (filter_sublist.map Prod.fst)

lemma get_retain {keep : κ → α → Bool} : (m.retain keep).get k = (m.get k).filter (keep k) := by
  refine ext fun a => ?_
  rw [get_eq_some_iff, filter_eq_some_iff, get_eq_some_iff, retain, mem_filter]

def erase (m : HashMap κ α) (k : κ) : HashMap κ α := m.retain fun k' _ => decide (k' ≠ k)

lemma get_erase : (m.erase k).get k' = if k' = k then none else m.get k' := by
  rw [erase, get_retain]
  split
  · next h => simp [h]
  · next h => cases m.get k' <;> simp [h]

lemma get_of_get_erase (h : (m.erase k).get k' = some a) : m.get k' = some a := by
  rw [get_erase] at h
  split at h
  · cases h
  · exact h

lemma not_mem_erase (m : HashMap κ α) (k : κ) : k ∉ (m.erase k).entries.map Prod.fst := by
  intro h
  obtain ⟨⟨k', a⟩, hmem, rfl⟩ := mem_map.mp h
  simpa using (mem_filter.mp hmem).2

/-- `map.insert(k, a)`; a new key comes last, one of the unspecified orders. -/
def insert (m : HashMap κ α) (k : κ) (a : α) : HashMap κ α where
  entries := (m.erase k).entries ++ [(k, a)]
  nodup := by
    rw [map_append]
    exact (m.erase k).nodup.append (nodup_singleton k)
      (disjoint_singleton.mpr (m.not_mem_erase k))

lemma get_insert : (m.insert k a).get k' = if k' = k then some a else m.get k' := by
  refine ext fun b => ?_
  rw [get_eq_some_iff, insert, mem_append, ← get_eq_some_iff, get_erase, mem_singleton]
  split
  · next h => simp [h, eq_comm]
  · next h => simp [h]

lemma entries_insert_of_get_none (h : m.get k = none) (a : α) :
    (m.insert k a).entries = m.entries ++ [(k, a)] := by
  have herase : (m.erase k).entries = m.entries := by
    refine filter_eq_self.mpr fun entry hentry => ?_
    rw [decide_eq_true_eq]
    rintro rfl
    rw [get_eq_some_iff.mpr hentry] at h
    cases h
  exact congrArg (· ++ [(k, a)]) herase

/-- `HashMap::new()` and an `insert` for each of these pairs. -/
def collect (l : List (κ × α)) : HashMap κ α := l.foldl (fun m p => m.insert p.1 p.2) empty

lemma get_collect (hl : ∀ p ∈ l, ∀ q ∈ l, p.1 = q.1 → p.2 = q.2)
    : (collect l).get k = some a ↔ (k, a) ∈ l := by
  induction l using List.reverseRecOn with
  | nil => simp [collect, empty, get]
  | append_singleton l p ih =>
    have hrest := ih fun q hq q' hq' =>
      hl q (mem_append_left _ hq) q' (mem_append_left _ hq')
    rw [collect, foldl_append, ← collect, foldl_cons, foldl_nil, get_insert,
      mem_append, mem_singleton]
    split
    · next hk =>
      -- an earlier pair with this key has the same value
      constructor
      · rintro h
        exact .inr (Prod.ext hk (some.inj h).symm)
      · rintro (hmem | rfl)
        · exact congrArg some (hl p (by simp) (k, a) (by simp [hmem]) hk.symm)
        · rfl
    · next hk => rw [hrest, or_iff_left fun h => hk (congrArg Prod.fst h)]

lemma get_collect_graph {f : κ → Option α} (h : ∀ k a, (k, a) ∈ l ↔ f k = some a) :
    (collect l).get = f := by
  funext k
  refine ext fun a => ?_
  rw [get_collect, h]
  rintro ⟨k, a⟩ hp ⟨k', a'⟩ hq rfl
  exact some.inj (((h _ _).mp hp).symm.trans ((h _ _).mp hq))

lemma get_collect_eq (l : List (κ × α)) (k : κ) :
    (collect l).get k = ((l.filter fun p => p.1 = k).getLast?).map Prod.snd := by
  induction l using List.reverseRecOn with
  | nil => rfl
  | append_singleton l p ih =>
    rw [collect, foldl_append, ← collect, foldl_cons, foldl_nil, get_insert, filter_append]
    split
    · next hk => simp [hk]
    · next hk => simp [ih, Ne.symm hk]

end HashMap

/-! ## Vectors -/

section Vectors

variable {α β : Type}

lemma map_modify_eq {l : List α} {idx : Nat} {g : α → α} {f : α → β} (hf : ∀ a, f (g a) = f a) :
    (l.modify idx g).map f = l.map f := by
  induction l generalizing idx with
  | nil => simp
  | cons a l ih =>
    cases idx with
    | zero => simp [hf]
    | succ idx => simp [ih]

/-- An index of an enumeration that started at `idx`, once past the first element. -/
lemma getElem?_sub_cons {a : α} {l : List α} {idx k : Nat} (hk : idx + 1 ≤ k) :
    (a :: l)[k - idx]? = l[k - (idx + 1)]? := by
  rw [show k - idx = k - (idx + 1) + 1 by omega]
  rfl

lemma getElem?_flag_iff (l : List α) (f : α → Bool) (idx : Nat) :
    (l.map f)[idx]?.getD false ↔ ∃ a, l[idx]? = some a ∧ f a := by
  rw [getElem?_map]
  cases l[idx]? <;> simp

/-- `chunks(n)`, with a bound on their number. -/
def chunksUpTo (n : Nat) : Nat → List α → List (List α)
  | 0, _ => []
  | _, [] => []
  | count + 1, v => v.take n :: chunksUpTo n count (v.drop n)

/-- `chunks(n)`: the last one may be shorter. -/
def chunks (n : Nat) (v : List α) : List (List α) := chunksUpTo n v.length v

def resize (n : Nat) (x : α) (v : List α) : List α := v.take n ++ List.replicate (n - v.length) x

/-- `while v.len() % m != r { v.push(x) }`, with a bound on the turns. -/
def padTo (m r : Nat) (x : α) : Nat → List α → List α
  | 0, v => v
  | turns + 1, v => if v.length % m = r then v else padTo m r x turns (v ++ [x])

/-- The loop pushes as often as it takes to reach the length for the first time. -/
lemma padTo_eq {m r d turns : Nat} (x : α) (v : List α) (hturns : d ≤ turns)
    (hend : (v.length + d) % m = r) (hbefore : ∀ j < d, (v.length + j) % m ≠ r) :
    padTo m r x turns v = v ++ List.replicate d x := by
  induction turns generalizing v d with
  | zero =>
    have hd : d = 0 := by omega
    simp [padTo, hd]
  | succ turns ih =>
    rw [padTo]
    cases d with
    | zero =>
      rw [if_pos (show v.length % m = r from hend)]
      exact (append_nil v).symm
    | succ d =>
      have hlength : (v ++ [x]).length = v.length + 1 := by simp
      rw [if_neg (show v.length % m ≠ r from hbefore 0 (by omega)),
        ih (d := d) (v ++ [x]) (by omega)]
      · rw [append_assoc]
        rfl
      · rw [hlength, show v.length + 1 + d = v.length + (d + 1) by omega]
        exact hend
      · intro j hj
        rw [hlength, show v.length + 1 + j = v.length + (j + 1) by omega]
        exact hbefore (j + 1) (by omega)

end Vectors

end Rust
