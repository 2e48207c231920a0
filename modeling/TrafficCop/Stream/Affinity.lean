import TrafficCop.Stream.Service

/-!
# Client affinity of a UDP service

`get_server_by_hash` while the health flags stay and other selections happen. The counter wraps at
`2 ^ 64`: a call from the last positions before the wrap can come to no healthy server.
-/

namespace TrafficCop

open Rust List Option

namespace StreamBackends

variable {σ : Type}

/-! ## Selections -/

inductive Selection where
  | nextServer
  | getServerByHash (hash : ℕ)
  deriving Repr, DecidableEq

/-- A call whose hashed server is down goes on in the rotation of `next_server`, which all calls
move on. -/
def select (s : StreamBackends σ) : Selection → StreamBackends σ
  | .nextServer => ((s.nextIndex s.servers.length).map Prod.snd).getD s
  | .getServerByHash hash => (s.hashIndex hash).2

/-- The service behind other selections. -/
def after (s : StreamBackends σ) (selections : List Selection) : StreamBackends σ :=
  selections.foldl select s

/-- **Affinity**: two calls with the hash return the same healthy server, whatever is selected
around them. -/
def Affine (s : StreamBackends σ) (hash : ℕ) : Prop :=
  ∀ before between : List Selection, ∃ idx, s.isHealthy idx = true ∧
    ((s.after before).hashIndex hash).1 = some idx ∧
    ((s.after (before ++ .getServerByHash hash :: between)).hashIndex hash).1 = some idx

variable {s : StreamBackends σ}

variable {hash : ℕ} {idx : Option ℕ} {s' : StreamBackends σ}

lemma hashIndex_of_healthy (h : s.isHealthy (hash % s.servers.length)) :
    s.hashIndex hash = (some (hash % s.servers.length), s) := by
  have hempty : ¬s.servers.isEmpty := by
    rw [List.isEmpty_iff]
    exact ne_nil_of_length_pos (Nat.zero_lt_of_lt (lt_length_of_isHealthy h))
  rw [hashIndex, if_neg hempty, if_pos h]

variable {c i k : ℕ}

/-! ## Runs -/

lemma hashIndex_of_down (hk : s.isHealthy k)
    (hdown : s.isHealthy (hash % s.servers.length) = false)
    (hnext : (s.atCounter c).nextIndex s.servers.length = some (idx, s')) :
    (s.atCounter c).hashIndex hash = (idx, s') := by
  have hempty : ¬(s.atCounter c).servers.isEmpty := by
    rw [servers_atCounter, List.isEmpty_iff]
    exact ne_nil_of_length_pos (Nat.zero_lt_of_lt (lt_length_of_isHealthy hk))
  have hdown' : ¬(s.atCounter c).isHealthy (hash % (s.atCounter c).servers.length) := by
    rw [isHealthy_atCounter, servers_atCounter, hdown]
    exact Bool.false_ne_true
  rw [hashIndex, if_neg hempty, if_neg hdown', servers_atCounter, hnext, getD_some]

lemma select_nextServer (hnext : (s.atCounter c).nextIndex s.servers.length = some (idx, s')) :
    (s.atCounter c).select .nextServer = s' := by
  rw [select, servers_atCounter, hnext]
  rfl

lemma exists_select_eq (hk : s.isHealthy k) (c : ℕ) (selection : Selection) :
    ∃ c', (s.atCounter c).select selection = s.atCounter c' := by
  obtain ⟨idx, c', hnext⟩ : ∃ idx c', (s.atCounter c).nextIndex s.servers.length =
      some (idx, s.atCounter c') := by
    rcases nextIndex_cases (healthyCount_pos hk) (Nat.le_refl _) c with
      ⟨position, -, -, -, -, hnext⟩ | ⟨-, hnext⟩
    · exact ⟨_, _, hnext⟩
    · exact ⟨_, _, hnext⟩
  cases selection with
  | nextServer => exact ⟨c', select_nextServer hnext⟩
  | getServerByHash hash =>
    cases hhash : s.isHealthy (hash % s.servers.length) with
    | true => exact ⟨c, by rw [select, hashIndex_of_healthy (s := s.atCounter c) hhash]⟩
    | false => exact ⟨c', by rw [select, hashIndex_of_down hk hhash hnext]⟩

lemma exists_after_eq (hk : s.isHealthy k) (selections : List Selection) (c : ℕ) :
    ∃ c', (s.atCounter c).after selections = s.atCounter c' := by
  induction selections generalizing c with
  | nil => exact ⟨c, rfl⟩
  | cons selection selections ih =>
    obtain ⟨c', hselect⟩ := exists_select_eq hk c selection
    rw [after, foldl_cons, hselect]
    exact ih c'

lemma after_append (selections selections' : List Selection) :
    s.after (selections ++ selections') = (s.after selections).after selections' :=
  foldl_append ..

/-- **The rotation comes to every position with a healthy server** behind the counter. -/
theorem exists_returning {m : ℕ} (hm : s.isHealthy (s.index m)) (hc : c ≤ m) :
    ∃ selections c', (s.atCounter c).after selections = s.atCounter c' ∧
      (s.atCounter c').nextIndex s.servers.length =
        some (some (s.index m), s.atCounter (m + 1)) := by
  -- every call before it brings the counter closer
  induction hdistance : m - c using Nat.strong_induction_on generalizing c with
  | h distance ih =>
    have hcloser : ∀ {idx c''}, (s.atCounter c).nextIndex s.servers.length =
        some (idx, s.atCounter c'') → c < c'' → c'' ≤ m →
        ∃ selections c', (s.atCounter c).after selections = s.atCounter c' ∧
          (s.atCounter c').nextIndex s.servers.length =
            some (some (s.index m), s.atCounter (m + 1)) := by
      intro idx c'' hnext hlt hle
      obtain ⟨selections, c', hafter, hrest⟩ := ih (m - c'') (by omega) hle rfl
      refine ⟨.nextServer :: selections, c', ?_, hrest⟩
      rwa [after, foldl_cons, select_nextServer hnext]
    have hpos : 0 < s.servers.length := Nat.zero_lt_of_lt (lt_length_of_isHealthy hm)
    rcases nextIndex_cases (healthyCount_pos hm) (Nat.le_refl _) c with
      ⟨position, hle, -, hfound, hbefore, hnext⟩ | ⟨hnone, hnext⟩
    · rcases Nat.lt_trichotomy position m with hlt | rfl | hgt
      · exact hcloser hnext (by omega) hlt
      · exact ⟨[], c, rfl, hnext⟩
      · rw [hbefore _ hc hgt] at hm
        cases hm
    · refine hcloser hnext (by omega) ?_
      by_contra hin
      rw [hnone _ hc (by omega)] at hm
      cases hm

/-! ## When the rotation comes to one server only -/

/-- No call misses this server at a wrap: it is before the rest that the counter's range leaves, if
any. -/
def FitsRange (s : StreamBackends σ) (i : ℕ) : Prop :=
  i < 2 ^ 64 % s.servers.length ∨ 2 ^ 64 % s.servers.length = 0

instance (s : StreamBackends σ) (i : ℕ) : Decidable (s.FitsRange i) :=
  inferInstanceAs (Decidable (_ ∨ _))

lemma nextIndex_only (hi : s.isHealthy i) (honly : ∀ k, s.isHealthy k → k = i)
    (hfits : s.FitsRange i) (c : ℕ) :
    ∃ s', (s.atCounter c).nextIndex s.servers.length = some (some i, s') := by
  rcases nextIndex_cases (healthyCount_pos hi) (Nat.le_refl _) c with
    ⟨position, -, -, hfound, -, hnext⟩ | ⟨hnone, -⟩
  · rw [honly _ hfound] at hnext
    exact ⟨_, hnext⟩
  · obtain ⟨p, hle, hlt, hindex⟩ :=
      Cycle.exists_mod_mod_eq (R := 2 ^ 64) (by decide) (lt_length_of_isHealthy hi) hfits c
    have hdown := hnone p hle hlt
    rw [index, hindex, hi] at hdown
    cases hdown

/-- **If all later calls return `i`**, no other server is healthy and no wrap matters. -/
theorem only_of_hashIndex (hi : s.isHealthy i) (hlength : s.servers.length ≤ 2 ^ 64)
    (hdown : s.isHealthy (hash % s.servers.length) = false)
    (hall : ∀ selections, (((s.atCounter c).after selections).hashIndex hash).1 = some i) :
    (∀ k, s.isHealthy k → k = i) ∧ s.FitsRange i := by
  have hcount := healthyCount_pos hi
  have hturn : ∀ p < s.servers.length, s.index (2 ^ 64 * (c + 1) + p) = p := by
    intro p hp
    rw [index, Nat.mul_add_mod, Nat.mod_eq_of_lt (show p < 2 ^ 64 by omega), Nat.mod_eq_of_lt hp]
  have honly : ∀ x y, x < y → s.isHealthy x → s.isHealthy y → False := by
    intro x y hlt hx hy
    -- the next healthy server behind `x`, which the rotation comes to next
    have hex : ∃ j, x < j ∧ s.isHealthy j := ⟨y, hlt, hy⟩
    obtain ⟨hxj, hj⟩ := Nat.find_spec hex
    have hxlt := lt_length_of_isHealthy hx
    have hjlt := lt_length_of_isHealthy hj
    obtain ⟨selections, c', hafter, hfirst⟩ :=
      exists_returning (m := 2 ^ 64 * (c + 1) + x) (by rwa [hturn x hxlt]) (c := c) (by omega)
    have hsecond := nextIndex_found hcount (Nat.le_refl _) (c := 2 ^ 64 * (c + 1) + x + 1)
      (m := 2 ^ 64 * (c + 1) + Nat.find hex) (by omega) (by omega) (by rwa [hturn _ hjlt])
      fun p hle hlt' => by
        have hp := hturn (p - 2 ^ 64 * (c + 1)) (by omega)
        rw [Nat.add_sub_cancel' (by omega)] at hp
        have hnot := Nat.find_min hex (m := p - 2 ^ 64 * (c + 1)) (by omega)
        rw [hp]
        exact Bool.eq_false_iff.mpr fun hhealthy => hnot ⟨by omega, hhealthy⟩
    rw [hturn x hxlt] at hfirst
    rw [hturn _ hjlt] at hsecond
    have hx' := hall selections
    rw [hafter, hashIndex_of_down hi hdown hfirst, Option.some.injEq] at hx'
    have hj' := hall (selections ++ [.getServerByHash hash])
    rw [after_append, hafter, after, foldl_cons, foldl_nil, select,
      hashIndex_of_down hi hdown hfirst, hashIndex_of_down hi hdown hsecond,
      Option.some.injEq] at hj'
    omega
  have hself : ∀ k, s.isHealthy k → k = i := by
    intro k hk
    rcases Nat.lt_trichotomy k i with hlt | heq | hgt
    · exact (honly k i hlt hk hi).elim
    · exact heq
    · exact (honly i k hgt hi hk).elim
  refine ⟨hself, ?_⟩
  by_contra hfits
  rw [FitsRange, not_or, Nat.not_lt] at hfits
  obtain ⟨M, hle, hM, hgap⟩ := Cycle.exists_gap_mod_mod (lt_length_of_isHealthy hi) hlength
    hfits.1 hfits.2 c
  -- behind the last turn before the wrap a call finds no healthy server
  obtain ⟨selections, c', hafter, hfirst⟩ :=
    exists_returning (m := M) (by rwa [index, hM]) (c := c) hle
  have hzero := hall (selections ++ [.nextServer])
  rw [after_append, hafter, after, foldl_cons, foldl_nil, select_nextServer hfirst] at hzero
  rcases nextIndex_cases hcount (Nat.le_refl _) (M + 1) with
    ⟨position, hle', hlt, hfound, -, -⟩ | ⟨-, hfallback⟩
  · exact hgap position hle' (by omega) (hself _ hfound)
  · rw [hashIndex_of_down hi hdown hfallback, Option.some.injEq] at hzero
    omega

end StreamBackends

open StreamBackends

/-- **When a UDP service keeps to a server.** With a healthy server, all calls with a hash return
the same healthy server exactly if the hashed server is healthy, or there is just one healthy
server, and it is not missed when the counter wraps. -/
theorem udp_affinity_iff (s : UdpService) (hash : ℕ) (hhealthy : ∃ k, s.isHealthy k = true)
    (hlength : s.servers.length < 2 ^ 64) :
    s.Affine hash ↔ s.isHealthy (hash % s.servers.length) = true ∨
      ∃ i, (∀ k, s.isHealthy k = true ↔ k = i) ∧ s.FitsRange i := by
  obtain ⟨k, hk⟩ := hhealthy
  have hcounter : ∀ selections, ∃ c, s.after selections = s.atCounter c := by
    intro selections
    have hafter := exists_after_eq hk selections s.rrCounter.toNat
    rwa [s.atCounter_self] at hafter
  constructor
  · intro h
    rw [or_iff_not_imp_left, Bool.not_eq_true]
    intro hdown
    -- the server of the first call is that of every later one
    obtain ⟨i, hi, hfirst, -⟩ := h [] []
    obtain ⟨c, hc⟩ := hcounter [.getServerByHash hash]
    have hall : ∀ selections, (((s.atCounter c).after selections).hashIndex hash).1 = some i := by
      intro selections
      obtain ⟨i', -, hfirst', hlater⟩ := h [] selections
      rw [← hc, ← after_append, ← hfirst, hfirst']
      exact hlater
    obtain ⟨honly, hfits⟩ := only_of_hashIndex hi hlength.le hdown hall
    exact ⟨i, fun k => ⟨honly k, fun heq => heq ▸ hi⟩, hfits⟩
  · intro h
    have hall : ∃ i, s.isHealthy i ∧
        ∀ selections, ((s.after selections).hashIndex hash).1 = some i := by
      cases hhash : s.isHealthy (hash % s.servers.length) with
      | true =>
        refine ⟨_, hhash, fun selections => ?_⟩
        obtain ⟨c, hc⟩ := hcounter selections
        rw [hc, hashIndex_of_healthy (s := s.atCounter c) hhash]
        rfl
      | false =>
        rw [hhash] at h
        obtain ⟨i, honly, hfits⟩ := h.resolve_left Bool.false_ne_true
        have hi := (honly i).mpr rfl
        refine ⟨i, hi, fun selections => ?_⟩
        obtain ⟨c, hc⟩ := hcounter selections
        obtain ⟨s', hnext⟩ := nextIndex_only hi (fun k => (honly k).mp) hfits c
        rw [hc, hashIndex_of_down hi hhash hnext]
    obtain ⟨i, hi, hall⟩ := hall
    exact fun before between => ⟨i, hi, hall _, hall _⟩

def withOneDown : UdpService :=
  (new "dns" [⟨"10.0.0.1:53", 1⟩, ⟨"10.0.0.2:53", 1⟩, ⟨"10.0.0.3:53", 1⟩]).markUnhealthy 0

theorem udp_affinity_up : withOneDown.Affine 1 :=
  (udp_affinity_iff withOneDown 1 ⟨1, by decide⟩ (by decide)).mpr (Or.inl (by decide))

/-- Two datagrams of a client in a row, with the server of its hash down. -/
theorem udp_affinity_down :
    (withOneDown.getServerByHash 0).1 = some ⟨"10.0.0.2:53", 1⟩ ∧
      ((withOneDown.getServerByHash 0).2.getServerByHash 0).1 =
        some ⟨"10.0.0.3:53", 1⟩ := by
  decide

end TrafficCop
