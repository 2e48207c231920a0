import Mathlib.Data.List.Basic

/-!
# Streams that arrive in chunks

What a read leaves of a chunk is the first chunk of the next one. `Boundary` says that a chunk ends
after so many elements, for a reader that stops at a position it does not know beforehand.
-/

/-- A reader gets at most one chunk at a time, and no more of it than it has room for. -/
structure ChunkedStream (α : Type*) where
  chunks : List (List α)
  nonempty : ∀ c ∈ chunks, c ≠ []

namespace ChunkedStream

open List

variable {α : Type*}

/-- All that is still to come. -/
def elems (s : ChunkedStream α) : List α := s.chunks.flatten

/-- One read. It gives nothing only at the end, or if there is no room. -/
def read (room : ℕ) : ChunkedStream α → List α × ChunkedStream α
  | ⟨[], h⟩ => ([], ⟨[], h⟩)
  | ⟨c :: cs, h⟩ =>
    if hc : c.length ≤ room then (c, ⟨cs, fun d hd => h d (mem_cons_of_mem _ hd)⟩)
    else (c.take room, ⟨c.drop room :: cs, by
      intro d hd
      rcases mem_cons.mp hd with rfl | hd
      · exact fun hnil => hc (drop_eq_nil_iff.mp hnil)
      · exact h d (mem_cons_of_mem _ hd)⟩)

/-- A chunk ends after `n` elements. -/
def Boundary (s : ChunkedStream α) (n : ℕ) : Prop :=
  ∃ before after, s.chunks = before ++ after ∧ before.flatten.length = n

section

variable {c : List α} {cs : List (List α)} {h : ∀ d ∈ c :: cs, d ≠ []} {room n : ℕ}

lemma read_whole (hc : c.length ≤ room) :
    (⟨c :: cs, h⟩ : ChunkedStream α).read room =
      (c, ⟨cs, fun d hd => h d (mem_cons_of_mem _ hd)⟩) :=
  dif_pos hc

lemma read_part (hc : room < c.length) : ∃ h',
    (⟨c :: cs, h⟩ : ChunkedStream α).read room = (c.take room, ⟨c.drop room :: cs, h'⟩) :=
  ⟨_, dif_neg (Nat.not_le_of_lt hc)⟩

lemma boundary_cons : (⟨c :: cs, h⟩ : ChunkedStream α).Boundary n ↔
    n = 0 ∨ c.length ≤ n ∧
      (⟨cs, fun d hd => h d (mem_cons_of_mem _ hd)⟩ : ChunkedStream α).Boundary
        (n - c.length) := by
  constructor
  · intro hboundary
    obtain ⟨before, after, hchunks, hlength⟩ := hboundary
    rcases before with _ | ⟨d, before⟩
    · exact .inl hlength.symm
    · obtain ⟨rfl, hrest⟩ := List.cons.inj hchunks
      rw [flatten_cons, length_append] at hlength
      exact .inr ⟨by omega, before, after, hrest, by omega⟩
  · intro hsplit
    rcases hsplit with rfl | ⟨hle, before, after, hchunks, hlength⟩
    · exact ⟨[], c :: cs, rfl, rfl⟩
    · refine ⟨c :: before, after, congrArg (c :: ·) hchunks, ?_⟩
      rw [flatten_cons, length_append, hlength]
      omega

end

section

variable {room n : ℕ} {s : ChunkedStream α}

lemma read_append_elems (room : ℕ) (s : ChunkedStream α) :
    (s.read room).1 ++ (s.read room).2.elems = s.elems := by
  obtain ⟨_ | ⟨c, cs⟩, h⟩ := s
  · rfl
  · rcases Nat.lt_or_ge room c.length with hc | hc
    · obtain ⟨h', hread⟩ := read_part (h := h) hc
      rw [hread]
      show c.take room ++ (c.drop room ++ cs.flatten) = c ++ cs.flatten
      rw [← append_assoc, take_append_drop]
    · rw [read_whole hc]
      rfl

lemma length_read_le (room : ℕ) (s : ChunkedStream α) : (s.read room).1.length ≤ room := by
  obtain ⟨_ | ⟨c, cs⟩, h⟩ := s
  · exact Nat.zero_le room
  · rcases Nat.lt_or_ge room c.length with hc | hc
    · obtain ⟨h', hread⟩ := read_part (h := h) hc
      rw [hread]
      exact length_take_le room c
    · rw [read_whole hc]
      exact hc

lemma read_ne_nil (hroom : 0 < room) (hs : s.elems ≠ []) : (s.read room).1 ≠ [] := by
  obtain ⟨_ | ⟨c, cs⟩, h⟩ := s
  · exact absurd rfl hs
  · have hne := h c mem_cons_self
    rcases Nat.lt_or_ge room c.length with hc | hc
    · obtain ⟨h', hread⟩ := read_part (h := h) hc
      rw [hread]
      intro hnil
      exact (take_eq_nil_iff.mp hnil).elim (fun hzero => by omega) hne
    · rw [read_whole hc]
      exact hne

/-- A read that did not fill the room took a whole chunk. -/
lemma boundary_read (hroom : (s.read room).1.length < room) (hn : (s.read room).1.length < n) :
    s.Boundary n ↔ (s.read room).2.Boundary (n - (s.read room).1.length) := by
  obtain ⟨_ | ⟨c, cs⟩, h⟩ := s
  · rfl
  · rcases Nat.lt_or_ge room c.length with hc | hc
    · obtain ⟨h', hread⟩ := read_part (h := h) hc
      rw [hread, length_take] at hroom
      omega
    · rw [read_whole hc] at hn ⊢
      rw [boundary_cons]
      constructor
      · intro hsplit
        exact (hsplit.resolve_left (by omega)).2
      · intro hrest
        exact .inr ⟨Nat.le_of_lt hn, hrest⟩

/-- A read that reaches a position ends there exactly if the room or a chunk does. -/
lemma length_read_eq_iff (hpos : 0 < n) (hn : n ≤ (s.read room).1.length) :
    (s.read room).1.length = n ↔ n = room ∨ s.Boundary n := by
  obtain ⟨_ | ⟨c, cs⟩, h⟩ := s
  · exact absurd (Nat.lt_of_lt_of_le hpos hn) (Nat.lt_irrefl 0)
  · rw [boundary_cons]
    rcases Nat.lt_or_ge room c.length with hc | hc
    · -- the position is inside the chunk, where no chunk ends
      obtain ⟨h', hread⟩ := read_part (h := h) hc
      rw [hread, length_take] at hn ⊢
      omega
    · rw [read_whole hc] at hn ⊢
      replace hn : n ≤ c.length := hn
      show c.length = n ↔ _
      constructor
      · intro hlength
        exact .inr (Or.inr ⟨Nat.le_of_eq hlength, [], cs, rfl, by simp [hlength]⟩)
      · intro hend
        omega

end

end ChunkedStream
