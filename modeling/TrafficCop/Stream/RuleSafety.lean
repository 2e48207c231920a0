import TrafficCop.Rust.Lowercase
import TrafficCop.Stream.Rules

/-!
# Rules that are parsed without a panic

`TcpRule::parse` and `UdpRule::parse` look for `hostsni(` and `clientip(` in the lower-case form of
a rule, and cut the arguments out of the rule itself: behind the name, up to its last byte. Here the
lower-case form is that of Unicode, whose length may differ (`Lowercasing`).

The start of the slice is a character boundary all the same. The end is not checked: there may be
nothing behind the name, and the last byte may be part of a character.
-/

namespace TrafficCop

open Rust List Outcome

/-! ## Only ASCII letters count -/

lemma telling_hostsni : Telling "hostsni(" where
  ascii := forall_char (by decide)
  kelvin := by decide
  dotted := by decide

lemma telling_clientip : Telling "clientip(" where
  ascii := forall_char (by decide)
  kelvin := by decide
  dotted := by decide

lemma telling_hostsni_any : Telling "hostsni(`*`)" where
  ascii := forall_char (by decide)
  kelvin := by decide
  dotted := by decide

section Parsers

variable {Net Ip : Type} [IpCrate Net Ip] (L : Lowercasing)

lemma extractBy_eq {name : Text} (hname : Telling name) (args : Text → List Text) (rule : Text) :
    extractBy L.toLowercase name args rule = extractBy toAsciiLowercase name args rule := by
  rw [extractBy, extractBy, L.isPrefixOf_toLowercase hname]

lemma clientNetworksBy_eq (rule : Text) :
    (clientNetworksBy Ip L.toLowercase rule : Outcome Empty (Option (List Net))) =
      clientNetworksBy Ip toAsciiLowercase rule := by
  simp only [clientNetworksBy, extractClientip, extractBy_eq L telling_clientip]

lemma TcpRule.parseBy_eq (rule : Text) :
    (TcpRule.parseBy Ip L.toLowercase rule : Outcome Empty (TcpRule Net)) =
      TcpRule.parse Ip rule := by
  simp only [TcpRule.parse, TcpRule.parseBy, TcpRule.extractHostsni,
    L.toLowercase_eq_iff telling_hostsni_any, extractBy_eq L telling_hostsni, clientNetworksBy_eq]

lemma UdpRule.parseBy_eq (rule : Text) :
    (UdpRule.parseBy Ip L.toLowercase rule : Outcome Empty (UdpRule Net)) =
      UdpRule.parse Ip rule := by
  simp only [UdpRule.parse, UdpRule.parseBy, clientNetworksBy_eq]

end Parsers

/-! ## Slices out of range -/

/-- The name in any case, and the end or a character of several bytes. -/
def Unterminated (name rule : Text) : Prop :=
  name.isPrefixOf (toAsciiLowercase rule) = true ∧
    (rule.length = name.length ∨ ∃ c, rule.getLast? = some c ∧ isAscii c = false)

lemma exists_arguments_iff {name rule : Text}
    (h : name.isPrefixOf (toAsciiLowercase rule)) :
    (∃ inner, Arguments name rule inner) ↔ ¬Unterminated name rule := by
  obtain ⟨r, hr⟩ := isPrefixOf_iff_prefix.mp h
  obtain ⟨start, rest, rfl, hstart, -⟩ := map_eq_append_iff.mp hr.symm
  have hlength : start.length = name.length := by rw [← hstart, length_map]
  constructor
  · -- with arguments there is an ASCII character behind the name that ends them
    rintro ⟨inner, start', c, hrule, hstart', hc⟩ ⟨-, hshort | ⟨d, hlast, hd⟩⟩
    · have hlength' : start'.length = name.length := by
        rw [← hstart', toAsciiLowercase, length_map]
      rw [hrule, length_append, length_append, length_singleton] at hshort
      omega
    · rw [hrule, getLast?_concat] at hlast
      obtain rfl := Option.some.inj hlast
      rw [hc] at hd
      cases hd
  · intro hterminated
    obtain rfl | ⟨inner, c, rfl⟩ := eq_nil_or_concat' rest
    · rw [append_nil] at hterminated h
      exact absurd ⟨h, .inl hlength⟩ hterminated
    · refine ⟨inner, start, c, (append_assoc _ _ _).symm, hstart, ?_⟩
      by_contra hc
      refine hterminated ⟨h, .inr ⟨c, ?_, Bool.not_eq_true _ ▸ hc⟩⟩
      rw [← append_assoc, getLast?_concat]

lemma extractBy_eq_panic {name : Text} (hne : name ≠ []) (hname : ∀ c ∈ name, isAscii c = true)
    (args : Text → List Text) (rule : Text) :
    extractBy toAsciiLowercase name args rule = .panic ↔ Unterminated name rule := by
  rw [extractBy]
  by_cases h : name.isPrefixOf (toAsciiLowercase rule)
  swap
  · rw [if_neg h]
    exact iff_of_false (ok_ne_panic _) fun hun => h hun.1
  rw [if_pos h, ← not_iff_not, ← exists_arguments_iff h]
  cases hslice : slice rule name.length (byteLen rule - 1) with
  | none =>
    refine iff_of_false (fun hne => hne rfl) ?_
    rintro ⟨inner, hinner⟩
    rw [(slice_eq_some_iff_arguments hne hname h).mpr hinner] at hslice
    cases hslice
  | some inner =>
    exact iff_of_true (ok_ne_panic _)
      ⟨inner, (slice_eq_some_iff_arguments hne hname h).mp hslice⟩

/-! ## The parsers -/

section Panics

variable {Net Ip : Type} [IpCrate Net Ip] {rule : Text}

lemma clientNetworksBy_eq_panic :
    (clientNetworksBy Ip toAsciiLowercase rule : Outcome Empty (Option (List Net))) = .panic ↔
      Unterminated "clientip(" rule := by
  rw [← extractBy_eq_panic (by decide) telling_clientip.ascii ruleArguments, clientNetworksBy,
    bind_eq_panic, or_iff_left]
  · rfl
  rintro ⟨ips, -, h⟩
  cases ips <;> cases h

lemma not_unterminated_of_any {name : Text} (hlength : name.length < 12)
    (h : toAsciiLowercase rule = "hostsni(`*`)") : ¬Unterminated name rule := by
  rintro ⟨-, hshort | ⟨c, hlast, hc⟩⟩
  · have htwelve : rule.length = 12 := by
      have hmap := congrArg length h
      rwa [toAsciiLowercase, length_map] at hmap
    omega
  · rw [isAscii_of_lowercase telling_hostsni_any.ascii h c (mem_of_getLast? hlast)] at hc
    cases hc

lemma not_unterminated_star {name : Text} (hlength : 1 < name.length) :
    ¬Unterminated name "*" := by
  rintro ⟨hpre, -⟩
  have hle := (List.isPrefixOf_iff_prefix.mp hpre).length_le
  have hone : (toAsciiLowercase "*").length = 1 := by decide
  omega

lemma extractHostsni_of_clientip
    (h : "clientip(".toList.isPrefixOf (toAsciiLowercase rule)) :
    TcpRule.extractHostsni toAsciiLowercase rule = .ok none := by
  have hother : ¬"hostsni(".toList.isPrefixOf (toAsciiLowercase rule) := by
    intro hhost
    obtain ⟨r, hr⟩ := isPrefixOf_iff_prefix.mp h
    obtain ⟨r', hr'⟩ := isPrefixOf_iff_prefix.mp hhost
    have hhead : some 'c' = some 'h' := congrArg head? (hr.trans hr'.symm)
    cases hhead
  rw [TcpRule.extractHostsni, extractBy, if_neg hother]

lemma TcpRule.parse_eq_panic :
    (TcpRule.parse Ip rule : Outcome Empty (TcpRule Net)) = .panic ↔
      Unterminated "hostsni(" (trim rule) ∨ Unterminated "clientip(" (trim rule) := by
  rw [TcpRule.parse, TcpRule.parseBy]
  split
  · -- the catch-all is found before any slice is taken
    next hany =>
    refine iff_of_false (ok_ne_panic _) ?_
    rw [not_or]
    obtain hstar | hany := hany
    · rw [hstar]
      exact ⟨not_unterminated_star (by decide), not_unterminated_star (by decide)⟩
    · exact ⟨not_unterminated_of_any (by decide) hany, not_unterminated_of_any (by decide) hany⟩
  · rw [bind_eq_panic, TcpRule.extractHostsni,
      extractBy_eq_panic (by decide) telling_hostsni.ascii]
    refine or_congr_right ⟨?_, fun hclient => ?_⟩
    · rintro ⟨_ | hosts, -, h⟩
      · rw [bind_eq_panic, clientNetworksBy_eq_panic] at h
        refine h.resolve_right ?_
        rintro ⟨networks, -, h⟩
        cases networks <;> cases h
      · cases h
    · -- a rule for addresses is none for names, so the second slice is reached
      refine ⟨none, extractHostsni_of_clientip hclient.1, ?_⟩
      rw [bind_eq_panic, clientNetworksBy_eq_panic]
      exact .inl hclient

lemma UdpRule.parse_eq_panic :
    (UdpRule.parse Ip rule : Outcome Empty (UdpRule Net)) = .panic ↔
      Unterminated "clientip(" (trim rule) := by
  rw [UdpRule.parse, UdpRule.parseBy]
  split
  · next hstar =>
    rw [hstar]
    exact iff_of_false (ok_ne_panic _) (not_unterminated_star (by decide))
  · rw [bind_eq_panic, clientNetworksBy_eq_panic, or_iff_left]
    rintro ⟨networks, -, h⟩
    cases networks <;> cases h

end Panics

/-- The rules that the parsers return from: after trimming, they neither are `HostSNI(` or
`ClientIP(` in any case, nor start so and end with a character of several bytes. -/
theorem rule_parse_safe_iff {Net Ip : Type} [IpCrate Net Ip] (L : Lowercasing) (rule : Text) :
    ((∃ tcp : TcpRule Net, TcpRule.parseBy Ip L.toLowercase rule = .ok tcp) ↔
      ¬Unterminated "hostsni(" (trim rule) ∧ ¬Unterminated "clientip(" (trim rule)) ∧
    ((∃ udp : UdpRule Net, UdpRule.parseBy Ip L.toLowercase rule = .ok udp) ↔
      ¬Unterminated "clientip(" (trim rule)) := by
  rw [exists_eq_ok_iff, exists_eq_ok_iff, TcpRule.parseBy_eq, UdpRule.parseBy_eq,
    ne_eq, TcpRule.parse_eq_panic, ne_eq, UdpRule.parse_eq_panic, not_or]
  exact ⟨.rfl, .rfl⟩

/-- **Rules without an end, and one that ends with a character of two bytes.** -/
theorem rule_parse_panics :
    ((TcpRule.parseBy ℕ plainLowercasing.toLowercase "HostSNI(" :
        Outcome Empty (TcpRule Ipv4Network)) = .panic ∧
      (TcpRule.parseBy ℕ plainLowercasing.toLowercase "HostSNI(`é" :
        Outcome Empty (TcpRule Ipv4Network)) = .panic) ∧
    (UdpRule.parseBy ℕ plainLowercasing.toLowercase "ClientIP(" :
        Outcome Empty (UdpRule Ipv4Network)) = .panic := by
  rw [TcpRule.parseBy_eq, TcpRule.parseBy_eq, UdpRule.parseBy_eq, TcpRule.parse_eq_panic,
    TcpRule.parse_eq_panic, UdpRule.parse_eq_panic]
  refine ⟨⟨.inl ⟨by decide +kernel, .inl ?_⟩, .inl ⟨by decide +kernel, .inr ⟨'é', ?_, by decide⟩⟩⟩,
    by decide +kernel, .inl ?_⟩
  all_goals decide +kernel

end TrafficCop
