import TrafficCop.Stream.Rules

/-!
# Upper and lower case in HostSNI rules

`TcpRule::matches` compares a host of a rule with the server name up to ASCII case, but the domain
of a wildcard `*.domain` letter by letter. So a rule ignores case only where every wildcard is one
without letters, or is for part of the names of such a one.
-/

namespace TrafficCop

open Rust List

/-! ## ASCII letters -/

lemma toNat_toLower (c : Char) :
    c.toLower.toNat = if 65 ≤ c.toNat ∧ c.toNat ≤ 90 then c.toNat + 32 else c.toNat := by
  delta Char.toLower
  split
  · next hupper =>
    have hge : 65 ≤ c.val.toNat := hupper.1
    have hle : c.val.toNat ≤ 90 := hupper.2
    rw [if_pos ⟨hge, hle⟩]
    refine (UInt32.toNat_add _ _).trans ?_
    exact Nat.mod_eq_of_lt (Nat.lt_of_le_of_lt (Nat.add_le_add_right hle 32) (by decide))
  · next hother => exact (if_neg (show ¬(65 ≤ c.toNat ∧ c.toNat ≤ 90) from hother)).symm

lemma toNat_toUpper (c : Char) :
    c.toUpper.toNat = if 97 ≤ c.toNat ∧ c.toNat ≤ 122 then c.toNat - 32 else c.toNat := by
  delta Char.toUpper
  split
  · next hlower =>
    have hge : 97 ≤ c.val.toNat := hlower.1
    have hle : c.val.toNat ≤ 122 := hlower.2
    rw [if_pos ⟨hge, hle⟩]
    refine (UInt32.toNat_add _ _).trans ?_
    have hshift : ('A'.val - 'a'.val).toNat = 4294967264 := by decide
    rw [hshift]
    show (c.val.toNat + 4294967264) % 4294967296 = c.val.toNat - 32
    omega
  · next hother => exact (if_neg (show ¬(97 ≤ c.toNat ∧ c.toNat ≤ 122) from hother)).symm

lemma toLower_toUpper (c : Char) : c.toUpper.toLower = c.toLower := by
  apply Char.toNat_inj.mp
  rw [toNat_toLower, toNat_toLower, toNat_toUpper]
  split_ifs <;> omega

lemma toLower_toLower (c : Char) : c.toLower.toLower = c.toLower := by
  apply Char.toNat_inj.mp
  rw [toNat_toLower, toNat_toLower]
  split_ifs <;> omega

lemma lowercase_lowercase (s : Text) :
    toAsciiLowercase (toAsciiLowercase s) = toAsciiLowercase s := by
  rw [toAsciiLowercase, toAsciiLowercase, map_map]
  exact map_congr_left fun c _ => toLower_toLower c

lemma lowercase_map_toUpper (s : Text) :
    toAsciiLowercase (s.map Char.toUpper) = toAsciiLowercase s := by
  rw [toAsciiLowercase, map_map]
  exact map_congr_left fun c _ => toLower_toUpper c

lemma lowercase_dot_toUpper (domain : Text) :
    toAsciiLowercase ('.' :: domain.map Char.toUpper) = toAsciiLowercase ('.' :: domain) :=
  congrArg (Char.toLower '.' :: ·) (lowercase_map_toUpper domain)

/-- Upper-case form of one letter and lower-case form of another: no letter. -/
lemma isAlpha_of_both {c d : Char} (h : c.toLower = d.toUpper) : c.toLower.isAlpha = false := by
  have hupper : ¬c.toLower.isUpper := by
    rw [isUpper_iff, toNat_toLower]
    split_ifs <;> omega
  have hlower : ¬c.toLower.isLower := by
    rw [h, isLower_iff, toNat_toUpper]
    split_ifs <;> omega
  exact Bool.or_eq_false_iff.mpr ⟨Bool.not_eq_true _ ▸ hupper, Bool.not_eq_true _ ▸ hlower⟩

/-- A text without letters. -/
def Caseless (s : Text) : Prop := ∀ c ∈ s, c.isAlpha = false

variable {s e domain sni h label : Text} {hosts : List Text}

lemma Caseless.eq_of_lowercase (he : Caseless e) (h : toAsciiLowercase s = e) : s = e :=
  eq_of_lowercase_eq (fun c hc => (Bool.or_eq_false_iff.mp (he c hc)).2) h

lemma Caseless.lowercase (he : Caseless e) : toAsciiLowercase e = e := by
  refine (map_congr_left fun c hc => ?_).trans (map_id' e)
  have hupper : ¬c.isUpper := by
    rw [(Bool.or_eq_false_iff.mp (he c hc)).1]
    exact Bool.false_ne_true
  rw [isUpper_iff] at hupper
  apply Char.toNat_inj.mp
  rw [toNat_toLower, if_neg hupper]

lemma Caseless.suffix_lowercase_iff (he : Caseless e) : e <:+ toAsciiLowercase s ↔ e <:+ s := by
  constructor
  · intro h
    obtain ⟨t, ht, hlower⟩ := suffix_map_iff.mp h
    rwa [he.eq_of_lowercase hlower.symm] at ht
  · intro h
    have hmap := h.map Char.toLower
    rwa [show e.map Char.toLower = e from he.lowercase] at hmap

lemma Caseless.cons_dot (he : Caseless e) : Caseless ('.' :: e) :=
  forall_mem_cons.mpr ⟨by decide, he⟩

/-! ## Hosts -/

/-- How `matches` compares a host of a rule with a server name. -/
def hostMatches (h sni : Text) : Bool :=
  match h with
  | '*' :: '.' :: domain => ('.' :: domain).isSuffixOf sni || sni == domain
  | h => eqIgnoreAsciiCase h sni

lemma matches_hostSNI {Net Ip : Type} [IpCrate Net Ip] (hosts : List Text) (sni : Text)
    (clientAddr : Option Ip) :
    (TcpRule.hostSNI hosts : TcpRule Net).matches (some sni) clientAddr =
      hosts.any (hostMatches · sni) := rfl

def IsWildcard (h : Text) : Prop := ∃ domain, h = '*' :: '.' :: domain

lemma hostMatches_wildcard :
    hostMatches ('*' :: '.' :: domain) sni ↔ '.' :: domain <:+ sni ∨ sni = domain := by
  rw [hostMatches, Bool.or_eq_true, isSuffixOf_iff_suffix, beq_iff_eq]

lemma hostMatches_literal (hlit : ¬IsWildcard h) :
    hostMatches h sni ↔ toAsciiLowercase h = toAsciiLowercase sni := by
  rw [← eqIgnoreAsciiCase_iff, hostMatches]
  exact fun domain hdomain => hlit ⟨domain, hdomain⟩

lemma lowercase_eq_wildcard (he : toAsciiLowercase h = '*' :: '.' :: e) :
    ∃ domain, h = '*' :: '.' :: domain ∧ toAsciiLowercase domain = e := by
  rcases h with _ | ⟨a, _ | ⟨b, domain⟩⟩
  · cases he
  · cases (cons.inj he).2
  · obtain ⟨ha, htail⟩ := cons.inj he
    obtain ⟨hb, hdomain⟩ := cons.inj htail
    rw [eq_of_toLower_eq (by decide) ha, eq_of_toLower_eq (by decide) hb]
    exact ⟨domain, rfl, hdomain⟩

lemma isWildcard_lowercase : IsWildcard (toAsciiLowercase h) ↔ IsWildcard h := by
  constructor
  · rintro ⟨e, he⟩
    obtain ⟨domain, rfl, -⟩ := lowercase_eq_wildcard he
    exact ⟨domain, rfl⟩
  · rintro ⟨domain, rfl⟩
    exact ⟨toAsciiLowercase domain, rfl⟩

/-! ## Rules that ignore case -/

/-- Every wildcard is for part of the names that a wildcard without letters is for. -/
def CaselessWildcards (hosts : List Text) : Prop :=
  ∀ domain, '*' :: '.' :: domain ∈ hosts →
    ∃ e, Caseless e ∧ '*' :: '.' :: e ∈ hosts ∧ '.' :: e <:+ '.' :: domain

/-- What a rule matches by lower-case forms: literal hosts, and wildcards without letters. -/
def Folded (hosts : List Text) (sni : Text) : Prop :=
  sni ∈ hosts ∧ ¬IsWildcard sni ∨
    ∃ e, Caseless e ∧ '*' :: '.' :: e ∈ hosts ∧ ('.' :: e <:+ sni ∨ sni = e)

lemma Caseless.mem_lowercase_iff (he : Caseless e) :
    '*' :: '.' :: e ∈ hosts.map toAsciiLowercase ↔ '*' :: '.' :: e ∈ hosts := by
  have hall : Caseless ('*' :: '.' :: e) := forall_mem_cons.mpr ⟨by decide, he.cons_dot⟩
  rw [mem_map]
  constructor
  · rintro ⟨h, hmem, hlower⟩
    rwa [hall.eq_of_lowercase hlower] at hmem
  · exact fun hmem => ⟨_, hmem, hall.lowercase⟩

lemma matches_iff_folded (hhosts : CaselessWildcards hosts) (sni : Text) :
    hosts.any (hostMatches · sni) = true ↔
      Folded (hosts.map toAsciiLowercase) (toAsciiLowercase sni) := by
  rw [any_eq_true]
  constructor
  · rintro ⟨h, hmem, hmatch⟩
    by_cases hwild : IsWildcard h
    · -- in place of the wildcard that matches, the one without letters
      obtain ⟨domain, rfl⟩ := hwild
      obtain ⟨e, he, hemem, hsuffix⟩ := hhosts domain hmem
      refine .inr ⟨e, he, he.mem_lowercase_iff.mpr hemem, ?_⟩
      rw [he.cons_dot.suffix_lowercase_iff]
      obtain hends | rfl := hostMatches_wildcard.mp hmatch
      · exact .inl (hsuffix.trans hends)
      · -- the domain itself, of which the other one is all or a part behind a dot
        obtain heq | htail := suffix_cons_iff.mp hsuffix
        · obtain ⟨-, rfl⟩ := cons.inj heq
          exact .inr he.lowercase
        · exact .inl htail
    · have hlower := (hostMatches_literal hwild).mp hmatch
      refine .inl ⟨?_, ?_⟩
      · rw [← hlower]
        exact mem_map_of_mem hmem
      · rwa [← hlower, isWildcard_lowercase]
  · rintro (⟨hmem, hlit⟩ | ⟨e, he, hemem, hmatch⟩)
    · obtain ⟨h, hmem, hlower⟩ := mem_map.mp hmem
      rw [← hlower, isWildcard_lowercase] at hlit
      exact ⟨h, hmem, (hostMatches_literal hlit).mpr hlower⟩
    · refine ⟨_, he.mem_lowercase_iff.mp hemem, hostMatches_wildcard.mpr ?_⟩
      exact hmatch.imp he.cons_dot.suffix_lowercase_iff.mp he.eq_of_lowercase

lemma CaselessWildcards.of_variant {hosts' : List Text}
    (hvariant : hosts'.map toAsciiLowercase = hosts.map toAsciiLowercase)
    (h : CaselessWildcards hosts) : CaselessWildcards hosts' := by
  intro domain hmem
  have hlower : toAsciiLowercase ('*' :: '.' :: domain) ∈ hosts.map toAsciiLowercase :=
    hvariant ▸ mem_map_of_mem hmem
  obtain ⟨host, hhost, hsame⟩ := mem_map.mp hlower
  obtain ⟨domain', rfl, hdomain⟩ := lowercase_eq_wildcard hsame
  obtain ⟨e, he, hemem, hsuffix⟩ := h domain' hhost
  refine ⟨e, he, ?_, ?_⟩
  · rwa [← he.mem_lowercase_iff, hvariant, he.mem_lowercase_iff]
  · have hmap : toAsciiLowercase ('.' :: domain') = toAsciiLowercase ('.' :: domain) :=
      congrArg (Char.toLower '.' :: ·) hdomain
    rwa [← he.cons_dot.suffix_lowercase_iff, ← hmap, he.cons_dot.suffix_lowercase_iff]

lemma suffix_of_dotless {rest : Text} (hlabel : '.' ∉ label)
    (h : '.' :: e <:+ label ++ rest) : '.' :: e <:+ rest := by
  obtain hsuffix | ⟨q, hq⟩ := suffix_or_suffix_of_suffix h (suffix_append label rest)
  · exact hsuffix
  · cases q with
    | nil => exact hq ▸ suffix_refl _
    | cons c q =>
      obtain ⟨rfl, -⟩ := cons.inj hq
      obtain ⟨t, ht⟩ := h
      rw [← hq, ← append_assoc] at ht
      rw [← append_cancel_right ht] at hlabel
      exact absurd (mem_append_right t mem_cons_self) hlabel

/-- Lower-case hosts that match a name in capitals under a long label have a wildcard without
letters for it. -/
lemma exists_caseless_of_capitals
    (hlabel : '.' ∉ label) (hlong : ∀ h ∈ hosts, h.length < label.length)
    (hmatch : (hosts.map toAsciiLowercase).any
      (hostMatches · (label ++ '.' :: domain.map Char.toUpper))) :
    ∃ e, Caseless e ∧ '*' :: '.' :: e ∈ hosts ∧ '.' :: e <:+ '.' :: domain := by
  obtain ⟨h, hmem, hmatch⟩ := any_eq_true.mp hmatch
  obtain ⟨host, hhost, rfl⟩ := mem_map.mp hmem
  have hlt := hlong host hhost
  by_cases hwild : IsWildcard (toAsciiLowercase host)
  swap
  · -- a literal host is too short
    have hsame := (hostMatches_literal hwild).mp hmatch
    have hlength := congrArg length hsame
    simp only [toAsciiLowercase, length_map, length_append] at hlength
    omega
  obtain ⟨e, he⟩ := hwild
  obtain ⟨e₀, rfl, rfl⟩ := lowercase_eq_wildcard he
  have hsuffix : '.' :: toAsciiLowercase e₀ <:+ '.' :: domain.map Char.toUpper := by
    obtain hends | hequal := hostMatches_wildcard.mp hmatch
    · exact suffix_of_dotless hlabel hends
    · have hlength := congrArg length hequal
      simp only [length_map, length_append, length_cons] at hlength hlt
      omega
  -- its characters are those of a lower-case host and of a name in capitals
  have hcaseless : Caseless (toAsciiLowercase e₀) := by
    intro c hc
    obtain ⟨a, -, rfl⟩ := mem_map.mp hc
    obtain hdot | hupper := mem_cons.mp (hsuffix.subset (mem_cons_of_mem _ hc))
    · rw [hdot]
      decide
    · obtain ⟨b, -, hb⟩ := mem_map.mp hupper
      exact isAlpha_of_both hb.symm
  have hfixed : e₀ = toAsciiLowercase e₀ := hcaseless.eq_of_lowercase rfl
  refine ⟨toAsciiLowercase e₀, hcaseless, hfixed ▸ hhost, ?_⟩
  rw [← hcaseless.cons_dot.suffix_lowercase_iff] at hsuffix ⊢
  rwa [lowercase_dot_toUpper] at hsuffix

section Rules

variable {Net Ip : Type} [IpCrate Net Ip]

/-- The rules that ignore ASCII case: in the server name, and in their hosts. -/
theorem sni_case_iff (hosts : List Text) (clientAddr : Option Ip) :
    ((∀ s s', toAsciiLowercase s = toAsciiLowercase s' →
        (TcpRule.hostSNI hosts : TcpRule Net).matches (some s) clientAddr =
          (TcpRule.hostSNI hosts : TcpRule Net).matches (some s') clientAddr) ∧
      ∀ hosts', hosts'.map toAsciiLowercase = hosts.map toAsciiLowercase → ∀ s,
        (TcpRule.hostSNI hosts : TcpRule Net).matches (some s) clientAddr =
          (TcpRule.hostSNI hosts' : TcpRule Net).matches (some s) clientAddr) ↔
      CaselessWildcards hosts := by
  simp only [matches_hostSNI]
  constructor
  · rintro ⟨hnames, hvariants⟩ domain hmem
    -- in lower case the name matches, so it does in capitals, and there with the lower-case hosts
    have hlower : (hosts.map toAsciiLowercase).map toAsciiLowercase =
        hosts.map toAsciiLowercase := by
      rw [map_map]
      exact map_congr_left fun h _ => lowercase_lowercase h
    have hsame := hvariants _ hlower
    -- the label is longer than every host, so that no literal host is the name
    have hlong : ∀ h ∈ hosts, h.length < (replicate (hosts.flatten.length + 1) 'x').length := by
      intro h hh
      rw [length_replicate]
      exact Nat.lt_succ_of_le (sublist_flatten_of_mem hh).length_le
    refine exists_caseless_of_capitals (by simp) hlong ?_
    rw [← hsame, ← hnames (replicate (hosts.flatten.length + 1) 'x' ++ '.' :: domain)]
    · refine any_eq_true.mpr ⟨_, hmem, hostMatches_wildcard.mpr (.inl ?_)⟩
      exact suffix_append _ _
    · rw [toAsciiLowercase, map_append, toAsciiLowercase, map_append, ← toAsciiLowercase,
        ← toAsciiLowercase, ← toAsciiLowercase, lowercase_dot_toUpper]
  · intro hhosts
    refine ⟨fun s s' h => ?_, fun hosts' h s => ?_⟩
    · rw [Bool.eq_iff_iff, matches_iff_folded hhosts, matches_iff_folded hhosts, h]
    · rw [Bool.eq_iff_iff, matches_iff_folded hhosts, matches_iff_folded (hhosts.of_variant h), h]

end Rules

/-- **The domain of a wildcard is compared letter by letter**, on both sides. -/
theorem sni_case_wildcard :
    (TcpRule.hostSNI ["*.example.com"] : TcpRule Ipv4Network).matches
        (some "www.example.com") (none : Option ℕ) = true ∧
      (TcpRule.hostSNI ["*.example.com"] : TcpRule Ipv4Network).matches
        (some "www.Example.com") (none : Option ℕ) = false ∧
      (TcpRule.hostSNI ["*.Example.com"] : TcpRule Ipv4Network).matches
        (some "www.example.com") (none : Option ℕ) = false := by
  refine ⟨by decide +kernel, by decide +kernel, by decide +kernel⟩

end TrafficCop
