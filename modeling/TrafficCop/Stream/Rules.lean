import TrafficCop.Rust.Ipv4
import TrafficCop.Stream.Router

/-!
# What the rule of a TCP or UDP router lets through

`TcpRule::parse` and `UdpRule::parse` take a rule apart with string slices, drop what they cannot
read, and make a catch-all of a rule of which nothing is left. Here the reading is stated without
slices (`Arguments`, `HostNamed`, `NetworkNamed`) and compared with what comes out.
-/

namespace TrafficCop

open Rust List Option Outcome

/-! ## The arguments of a matcher -/

/-- `rule` is the matcher `name` in any case, its arguments, and one byte that is not looked at. -/
def Arguments (name rule inner : Text) : Prop :=
  ∃ start c, rule = start ++ inner ++ [c] ∧ toAsciiLowercase start = name ∧ isAscii c = true

lemma eq_of_toLower_eq {c d : Char} (hd : d.isLower = false) (h : c.toLower = d) : c = d := by
  delta Char.toLower at h
  split at h
  · next hupper =>
    have hlower : d.isLower := by
      subst h
      have hge : 65 ≤ c.val.toNat := hupper.1
      have hle : c.val.toNat ≤ 90 := hupper.2
      have hadd : (c.val + ('a'.val - 'A'.val)).toNat = c.val.toNat + 32 := by
        rw [UInt32.toNat_add]
        exact Nat.mod_eq_of_lt (Nat.lt_of_le_of_lt (Nat.add_le_add_right hle 32) (by decide))
      delta Char.isLower
      simp only [Bool.and_eq_true, decide_eq_true_eq, ge_iff_le, UInt32.le_iff_toNat_le, hadd]
      exact ⟨Nat.add_le_add_right hge 32, Nat.add_le_add_right hle 32⟩
    rw [hlower] at hd
    cases hd
  · exact h

variable {t name rule inner : Text}

lemma eq_of_lowercase_eq {s : Text} (ht : ∀ c ∈ t, c.isLower = false)
    (h : toAsciiLowercase s = t) : s = t := by
  subst h
  rw [toAsciiLowercase, List.forall_mem_map] at ht
  refine (map_id' s).symm.trans (map_congr_left fun c hc => ?_)
  exact eq_of_toLower_eq (ht c hc) rfl

lemma byteLen_eq_length_of_lowercase {start : Text} (hname : ∀ c ∈ name, isAscii c)
    (h : toAsciiLowercase start = name) : byteLen start = name.length := by
  rw [byteLen_of_ascii (isAscii_of_lowercase hname h), ← h, toAsciiLowercase, length_map]

lemma exists_ascii_of_byteLen (h : byteLen t = 1) : ∃ c, t = [c] ∧ isAscii c := by
  cases t with
  | nil => simp at h
  | cons c t =>
    have hpos := c.utf8Size_pos
    have hlen := length_le_byteLen t
    rw [byteLen_cons] at h
    have hnil : t = [] := length_eq_zero_iff.mp (by omega)
    exact ⟨c, by rw [hnil], isAscii_of_utf8Size (by omega)⟩

lemma Arguments.isPrefixOf (h : Arguments name rule inner) :
    name.isPrefixOf (toAsciiLowercase rule) := by
  obtain ⟨start, c, rfl, rfl, -⟩ := h
  rw [List.isPrefixOf_iff_prefix]
  refine List.IsPrefix.map _ ?_
  rw [append_assoc]
  exact prefix_append start _

lemma slice_eq_some_iff_arguments (hne : name ≠ []) (hname : ∀ c ∈ name, isAscii c = true)
    (h : name.isPrefixOf (toAsciiLowercase rule)) :
    slice rule name.length (byteLen rule - 1) = some inner ↔ Arguments name rule inner := by
  rw [slice, bind_eq_some_iff]
  constructor
  · rintro ⟨p, hp, hinner⟩
    obtain ⟨t, rfl, hlen⟩ := sliceTo_eq_some_iff.mp hp
    obtain ⟨q, rfl, hq⟩ := sliceFrom_eq_some_iff.mp hinner
    -- the first characters are the name, so `q` is
    obtain ⟨r, hr⟩ := List.isPrefixOf_iff_prefix.mp h
    obtain ⟨start, rest, hrule, hstart, -⟩ := map_eq_append_iff.mp hr.symm
    have hstartlen := byteLen_eq_length_of_lowercase hname hstart
    have hsame : some q = some start := by
      rw [← sliceTo_append q (inner ++ t), ← sliceTo_append start rest, hq, hstartlen, ← hrule,
        append_assoc]
    obtain rfl := Option.some.inj hsame
    have hpos : 0 < name.length := length_pos_iff.mpr hne
    simp only [byteLen_append] at hlen
    obtain ⟨c, rfl, hc⟩ := exists_ascii_of_byteLen (t := t) (by omega)
    exact ⟨q, c, rfl, hstart, hc⟩
  · rintro ⟨start, c, rfl, hstart, hc⟩
    have hstartlen := byteLen_eq_length_of_lowercase hname hstart
    have hlen : byteLen (start ++ inner ++ [c]) - 1 = byteLen (start ++ inner) := by
      simp [utf8Size_of_isAscii hc]
    refine ⟨start ++ inner, ?_, ?_⟩
    · rw [hlen, sliceTo_append]
    · rw [← hstartlen, sliceFrom_append]

lemma nonEmpty_reads {α : Type} (l : List α) :
    (if l.isEmpty then none else some l) ≠ some [] ∧
      (if l.isEmpty then none else some l).getD [] = l := by
  cases l with
  | nil => simp
  | cons a l => simp

lemma extract_reads {args : Text → List Text} {o : Option (List Text)}
    (hne : name ≠ []) (hname : ∀ c ∈ name, isAscii c = true)
    (h : extractBy toAsciiLowercase name args rule = .ok o) :
    o ≠ some [] ∧ ∀ a, a ∈ o.getD [] ↔ ∃ inner, Arguments name rule inner ∧ a ∈ args inner := by
  rw [extractBy] at h
  split at h
  · next hpre =>
    rcases hslice : slice rule name.length (byteLen rule - 1) with _ | inner
    · rw [hslice] at h
      cases h
    · rw [hslice] at h
      obtain rfl := ok.inj h
      have hinner := (slice_eq_some_iff_arguments hne hname hpre).mp hslice
      -- the offsets depend on the name alone, so a text has one list of arguments
      have honly : ∀ inner', Arguments name rule inner' → inner' = inner := by
        intro inner' h'
        have hslice' := (slice_eq_some_iff_arguments hne hname hpre).mpr h'
        exact Option.some.inj (hslice'.symm.trans hslice)
      refine ⟨(nonEmpty_reads _).1, fun a => ?_⟩
      rw [(nonEmpty_reads _).2]
      constructor
      · exact fun ha => ⟨inner, hinner, ha⟩
      · rintro ⟨inner', hinner', ha⟩
        rwa [honly inner' hinner'] at ha
  · next hpre =>
    obtain rfl := ok.inj h
    refine ⟨by simp, fun a => ?_⟩
    simp only [getD_none, not_mem_nil, false_iff]
    rintro ⟨inner, harguments, -⟩
    exact hpre harguments.isPrefixOf

/-! ## What a rule names -/

/-- `HostSNI(…)` with this host, other than `*`, among its arguments. -/
def HostNamed (s host : Text) : Prop :=
  ∃ inner, Arguments "hostsni(" (trim s) inner ∧ host ∈ ruleArguments inner ∧ host ≠ [] ∧ host ≠ "*"

section

variable {Net Ip : Type} [IpCrate Net Ip]

variable (Ip) in
/-- `ClientIP(…)` with an argument that parses as this network. -/
def NetworkNamed (s : Text) (net : Net) : Prop :=
  ∃ inner, Arguments "clientip(" (trim s) inner ∧
    ∃ ip ∈ ruleArguments inner, IpCrate.parse Ip ip = some net

omit [IpCrate Net Ip] in
lemma extractHostsni_reads {s : Text} {o : Option (List Text)}
    (h : TcpRule.extractHostsni toAsciiLowercase (trim s) = .ok o) :
    o ≠ some [] ∧ ∀ host, host ∈ o.getD [] ↔ HostNamed s host := by
  obtain ⟨hne, hmem⟩ := extract_reads (by decide) (forall_char (by decide)) h
  refine ⟨hne, fun host => (hmem host).trans ?_⟩
  simp only [HostNamed, mem_filter, decide_eq_true_eq]

lemma clientNetworksBy_reads {s : Text} {o : Option (List Net)}
    (h : clientNetworksBy Ip toAsciiLowercase (trim s) = .ok o) :
    o ≠ some [] ∧ ∀ net, net ∈ o.getD [] ↔ NetworkNamed Ip s net := by
  obtain ⟨ips, hips, ho⟩ := bind_eq_ok.mp h
  obtain ⟨-, hmem⟩ := extract_reads (by decide) (forall_char (by decide)) hips
  -- the networks are read from the arguments, of which there may be none
  have hnamed : ∀ net : Net, net ∈ (ips.getD []).filterMap (IpCrate.parse Ip) ↔
      NetworkNamed Ip s net := by
    intro net
    simp only [mem_filterMap, hmem, NetworkNamed]
    constructor
    · rintro ⟨ip, ⟨inner, harguments, hip⟩, hparse⟩
      exact ⟨inner, harguments, ip, hip, hparse⟩
    · rintro ⟨inner, harguments, ip, hip, hparse⟩
      exact ⟨ip, ⟨inner, harguments, hip⟩, hparse⟩
  cases ips with
  | none =>
    obtain rfl := ok.inj ho
    exact ⟨by simp, hnamed⟩
  | some ips =>
    obtain rfl := ok.inj ho
    refine ⟨(nonEmpty_reads _).1, fun net => ?_⟩
    rw [(nonEmpty_reads _).2]
    exact hnamed net

lemma clientMatches_iff {networks : List Net} {clientAddr : Option Ip} :
    clientMatches networks clientAddr ↔ ∃ net ∈ networks,
      ∃ addr, clientAddr = some addr ∧ IpCrate.contains net addr := by
  cases clientAddr with
  | none => simp [clientMatches]
  | some addr => simp [clientMatches]

lemma HostNamed.not_networkNamed {s host : Text} (h : HostNamed s host) (net : Net) :
    ¬NetworkNamed Ip s net := by
  obtain ⟨inner, hhost, -⟩ := h
  rintro ⟨inner', hnet, -⟩
  have hprefix := prefix_or_prefix_of_prefix
    (List.isPrefixOf_iff_prefix.mp hhost.isPrefixOf)
    (List.isPrefixOf_iff_prefix.mp hnet.isPrefixOf)
  revert hprefix
  decide

lemma not_named_of_any {s : Text}
    (h : trim s = "*" ∨ toAsciiLowercase (trim s) = "hostsni(`*`)") :
    (∀ host, ¬HostNamed s host) ∧ ∀ net : Net, ¬NetworkNamed Ip s net := by
  rcases h with h | h
  · -- `*` has no matcher in it
    have hnone : ∀ name inner, name.isPrefixOf (toAsciiLowercase "*") = false →
        ¬Arguments name (trim s) inner := by
      intro name inner hname harguments
      have hpre := harguments.isPrefixOf
      rw [h, hname] at hpre
      cases hpre
    constructor
    · rintro host ⟨inner, harguments, -⟩
      exact hnone _ _ (by decide) harguments
    · rintro net ⟨inner, harguments, -⟩
      exact hnone _ _ (by decide) harguments
  · constructor
    · -- the one argument is a star, whatever the case of the letters
      rintro host ⟨inner, ⟨start, c, hrule, hstart, -⟩, hhost, -, hstar⟩
      have hlower : toAsciiLowercase start ++ toAsciiLowercase (inner ++ [c]) =
          "hostsni(" ++ "`*`)" := by
        rw [toAsciiLowercase, toAsciiLowercase, ← map_append, ← append_assoc, ← hrule]
        exact h
      rw [hstart] at hlower
      have htail : inner ++ [c] = "`*`" ++ [')'] :=
        eq_of_lowercase_eq (forall_char (by decide)) (append_cancel_left hlower)
      obtain rfl : inner = "`*`" := append_inj_left' htail rfl
      have honly : host ∈ ["*".toList] := hhost
      exact hstar (mem_singleton.mp honly)
    · rintro net ⟨inner, harguments, -⟩
      have hpre := harguments.isPrefixOf
      rw [h] at hpre
      exact absurd hpre (by decide)

namespace TcpRule

variable {s : Text} {rule : TcpRule Net}

lemma parse_reads (h : parse Ip s = .ok rule) :
    (∃ hosts, rule = .hostSNI hosts ∧ hosts ≠ [] ∧ ∀ host, host ∈ hosts ↔ HostNamed s host) ∨
    (∃ networks, rule = .clientIP networks ∧ networks ≠ [] ∧ (∀ host, ¬HostNamed s host) ∧
      ∀ net, net ∈ networks ↔ NetworkNamed Ip s net) ∨
    rule = .catchAll ∧ (∀ host, ¬HostNamed s host) ∧ ∀ net : Net, ¬NetworkNamed Ip s net := by
  rw [parse, parseBy] at h
  split at h
  · next hany =>
    exact .inr (Or.inr ⟨(ok.inj h).symm, not_named_of_any hany⟩)
  · obtain ⟨hosts, hhosts, h⟩ := bind_eq_ok.mp h
    obtain ⟨hne, hhost⟩ := extractHostsni_reads hhosts
    cases hosts with
    | some hosts =>
      obtain rfl := ok.inj h
      exact .inl ⟨hosts, rfl, fun hnil => hne (by rw [hnil]), hhost⟩
    | none =>
      -- no hosts, so the text is tried as `ClientIP`
      have hnohost : ∀ host, ¬HostNamed s host := fun host h => by simpa using (hhost host).mpr h
      obtain ⟨networks, hnetworks, h⟩ := bind_eq_ok.mp h
      obtain ⟨hne, hnet⟩ := clientNetworksBy_reads hnetworks
      cases networks with
      | some networks =>
        obtain rfl := ok.inj h
        exact .inr (Or.inl ⟨networks, rfl, fun hnil => hne (by rw [hnil]), hnohost, hnet⟩)
      | none =>
        refine .inr (Or.inr ⟨(ok.inj h).symm, hnohost, fun net h => ?_⟩)
        simpa using (hnet net).mpr h

lemma hostSNI_matches_iff {hosts : List Text} {sni : Option Text} {clientAddr : Option Ip} :
    (hostSNI hosts : TcpRule Net).matches sni clientAddr ↔
      ∃ host ∈ hosts, (hostSNI [host] : TcpRule Net).matches sni clientAddr := by
  cases sni with
  | none => simp [«matches»]
  | some sni => simp only [«matches», List.any_eq_true, List.any_cons, List.any_nil, Bool.or_false]

lemma matches_iff_named (h : parse Ip s = .ok rule)
    (hcatch : rule ≠ .catchAll) (sni : Option Text) (clientAddr : Option Ip) :
    rule.matches sni clientAddr ↔
      (∃ host, HostNamed s host ∧ (hostSNI [host] : TcpRule Net).matches sni clientAddr) ∨
      ∃ net : Net, NetworkNamed Ip s net ∧
        ∃ addr, clientAddr = some addr ∧ IpCrate.contains net addr := by
  obtain ⟨hosts, rfl, hne, hhost⟩ | ⟨networks, rfl, -, hnohost, hnet⟩ | ⟨rfl, -⟩ := parse_reads h
  · -- the rule has a host, so its text names no network
    obtain ⟨host, hmem⟩ := exists_mem_of_ne_nil hosts hne
    have hnonet : ∀ net : Net, ¬NetworkNamed Ip s net := ((hhost host).mp hmem).not_networkNamed
    rw [hostSNI_matches_iff]
    simp only [hhost, hnonet, false_and, exists_false, or_false]
  · simp only [hnohost, false_and, exists_false, false_or]
    rw [«matches», clientMatches_iff]
    simp only [hnet]
  · exact absurd rfl hcatch

lemma matches_all_iff (h : parse Ip s = .ok rule) :
    (∀ sni (clientAddr : Option Ip), rule.matches sni clientAddr) ↔
      (∀ host, ¬HostNamed s host) ∧ ∀ net : Net, ¬NetworkNamed Ip s net := by
  constructor
  · -- a connection without a name and without an address is matched by catch-alls only
    intro hall
    have hopen := hall none none
    obtain ⟨hosts, rfl, -⟩ | ⟨networks, rfl, -⟩ | ⟨-, hnone⟩ := parse_reads h
    · cases hopen
    · cases hopen
    · exact hnone
  · rintro ⟨hnohost, hnonet⟩ sni clientAddr
    obtain ⟨hosts, -, hne, hhost⟩ | ⟨networks, -, hne, -, hnet⟩ | ⟨rfl, -⟩ := parse_reads h
    · obtain ⟨host, hmem⟩ := exists_mem_of_ne_nil hosts hne
      exact absurd ((hhost host).mp hmem) (hnohost host)
    · obtain ⟨net, hmem⟩ := exists_mem_of_ne_nil networks hne
      exact absurd ((hnet net).mp hmem) (hnonet net)
    · rfl

end TcpRule

namespace UdpRule

variable {s : Text} {rule : UdpRule Net}

lemma parse_reads (h : parse Ip s = .ok rule) :
    (∃ networks, rule = .clientIP networks ∧ networks ≠ [] ∧
      ∀ net, net ∈ networks ↔ NetworkNamed Ip s net) ∨
    rule = .catchAll ∧ ∀ net : Net, ¬NetworkNamed Ip s net := by
  rw [parse, parseBy] at h
  split at h
  · next hany =>
    exact .inr ⟨(ok.inj h).symm, (not_named_of_any (Or.inl hany)).2⟩
  · obtain ⟨networks, hnetworks, h⟩ := bind_eq_ok.mp h
    obtain ⟨hne, hnet⟩ := clientNetworksBy_reads hnetworks
    cases networks with
    | some networks =>
      obtain rfl := ok.inj h
      exact .inl ⟨networks, rfl, fun hnil => hne (by rw [hnil]), hnet⟩
    | none =>
      refine .inr ⟨(ok.inj h).symm, fun net h => ?_⟩
      simpa using (hnet net).mpr h

lemma matches_iff_named (h : parse Ip s = .ok rule)
    (hcatch : rule ≠ .catchAll) (clientAddr : Option Ip) :
    rule.matches clientAddr ↔ ∃ net : Net, NetworkNamed Ip s net ∧
      ∃ addr, clientAddr = some addr ∧ IpCrate.contains net addr := by
  obtain ⟨networks, rfl, -, hnet⟩ | ⟨rfl, -⟩ := parse_reads h
  · rw [«matches», clientMatches_iff]
    simp only [hnet]
  · exact absurd rfl hcatch

lemma matches_all_iff (h : parse Ip s = .ok rule) :
    (∀ clientAddr : Option Ip, rule.matches clientAddr) ↔ ∀ net : Net, ¬NetworkNamed Ip s net := by
  obtain ⟨networks, rfl, hne, hnet⟩ | ⟨rfl, hnone⟩ := parse_reads h
  · obtain ⟨net, hmem⟩ := exists_mem_of_ne_nil networks hne
    constructor
    · intro hall
      cases hall none
    · intro hnone
      exact absurd ((hnet net).mp hmem) (hnone net)
  · exact iff_of_true (fun _ => rfl) hnone

end UdpRule

/-- **A rule lets through what its text names, and everything if that is nothing.** The texts
`*` and, for TCP, ``HostSNI(`*`)`` name nothing on purpose. -/
theorem stream_rules_fall_back (s : Text) :
    (∀ rule : TcpRule Net, TcpRule.parse Ip s = .ok rule →
      ((∀ sni (clientAddr : Option Ip), rule.matches sni clientAddr = true) ↔
        (∀ host, ¬HostNamed s host) ∧ ∀ net : Net, ¬NetworkNamed Ip s net) ∧
      (trim s = "*" ∨ toAsciiLowercase (trim s) = "hostsni(`*`)" →
        ∀ sni (clientAddr : Option Ip), rule.matches sni clientAddr = true) ∧
      ((∃ host, HostNamed s host) ∨ (∃ net : Net, NetworkNamed Ip s net) →
        ∀ sni (clientAddr : Option Ip), rule.matches sni clientAddr = true ↔
          (∃ host, HostNamed s host ∧
            (TcpRule.hostSNI [host] : TcpRule Net).matches sni clientAddr = true) ∨
          ∃ net : Net, NetworkNamed Ip s net ∧
            ∃ addr, clientAddr = some addr ∧ IpCrate.contains net addr = true)) ∧
    ∀ rule : UdpRule Net, UdpRule.parse Ip s = .ok rule →
      ((∀ clientAddr : Option Ip, rule.matches clientAddr = true) ↔
        ∀ net : Net, ¬NetworkNamed Ip s net) ∧
      (trim s = "*" → ∀ clientAddr : Option Ip, rule.matches clientAddr = true) ∧
      ((∃ net : Net, NetworkNamed Ip s net) →
        ∀ clientAddr : Option Ip, rule.matches clientAddr = true ↔
          ∃ net : Net, NetworkNamed Ip s net ∧
            ∃ addr, clientAddr = some addr ∧ IpCrate.contains net addr = true) := by
  constructor
  · intro rule h
    have hall := TcpRule.matches_all_iff h
    refine ⟨hall, fun hany => hall.mpr (not_named_of_any hany), fun hnamed => ?_⟩
    refine TcpRule.matches_iff_named h ?_
    rintro rfl
    obtain ⟨hnohost, hnonet⟩ := hall.mp fun _ _ => rfl
    rcases hnamed with ⟨host, hhost⟩ | ⟨net, hnet⟩
    · exact hnohost host hhost
    · exact hnonet net hnet
  · intro rule h
    have hall := UdpRule.matches_all_iff h
    refine ⟨hall, fun hany => hall.mpr (not_named_of_any (Or.inl hany)).2, fun hnamed => ?_⟩
    refine UdpRule.matches_iff_named h ?_
    rintro rfl
    obtain ⟨net, hnet⟩ := hnamed
    exact hall.mp (fun _ => rfl) net hnet

end

instance ipv4Crate : IpCrate Ipv4Network ℕ := ⟨Ipv4Network.parse, Ipv4Network.contains⟩

def mistypedRule : Text := "ClientIP(`10.0.0.0/8`, `192.168.0.0/33`)"

lemma parse_mistypedRule :
    TcpRule.parse ℕ mistypedRule = .ok (.clientIP [(⟨10 * 2 ^ 24, 8⟩ : Ipv4Network)]) ∧
    UdpRule.parse ℕ mistypedRule = .ok (.clientIP [(⟨10 * 2 ^ 24, 8⟩ : Ipv4Network)]) := by
  decide +kernel

lemma networkNamed_mistypedRule : NetworkNamed ℕ mistypedRule (⟨10 * 2 ^ 24, 8⟩ : Ipv4Network) :=
  ⟨"`10.0.0.0/8`, `192.168.0.0/33`",
    ⟨"ClientIP(", ')', by decide, by decide, by decide⟩,
    "10.0.0.0/8", by decide, by decide⟩

theorem stream_rules_fall_back_mistyped :
    ∃ (tcp : TcpRule Ipv4Network) (udp : UdpRule Ipv4Network),
      TcpRule.parse ℕ mistypedRule = .ok tcp ∧ UdpRule.parse ℕ mistypedRule = .ok udp ∧
      (∃ net : Ipv4Network, NetworkNamed ℕ mistypedRule net) ∧
      ¬(∀ sni (clientAddr : Option ℕ), tcp.matches sni clientAddr = true) ∧
      tcp.matches none (some (10 * 2 ^ 24 + 1)) = true ∧
      udp.matches (some (10 * 2 ^ 24 + 1)) = true := by
  have h := @stream_rules_fall_back Ipv4Network ℕ _ mistypedRule
  have hnamed := networkNamed_mistypedRule
  have hin : ∃ addr, some (10 * 2 ^ 24 + 1) = some addr ∧
      IpCrate.contains (⟨10 * 2 ^ 24, 8⟩ : Ipv4Network) addr := ⟨_, rfl, by decide⟩
  have htcp := h.1 _ parse_mistypedRule.1
  have hudp := h.2 _ parse_mistypedRule.2
  refine ⟨_, _, parse_mistypedRule.1, parse_mistypedRule.2, ⟨_, hnamed⟩, fun hall => ?_, ?_, ?_⟩
  · exact (htcp.1.mp hall).2 _ hnamed
  · exact (htcp.2.2 (Or.inr ⟨_, hnamed⟩) _ _).mpr (Or.inr ⟨_, hnamed, hin⟩)
  · exact (hudp.2.2 ⟨_, hnamed⟩ _).mpr ⟨_, hnamed, hin⟩

/-- **Mistakes open a rule.** A misspelled matcher, an empty list, a list without a network that
parses and trailing text each make a catch-all. -/
theorem stream_rules_with_mistakes :
    (∀ s ∈ ["ClientIpp(`10.0.0.1`)", "ClientIP()", "ClientIP(`10.0.0.0/33`)",
        "ClientIP(`10.0.0.1`) || all"],
      TcpRule.parse ℕ s.toList = .ok (.catchAll : TcpRule Ipv4Network) ∧
      UdpRule.parse ℕ s.toList = .ok (.catchAll : UdpRule Ipv4Network) ∧
      trim s.toList ≠ "*" ∧ toAsciiLowercase (trim s.toList) ≠ "hostsni(`*`)") ∧
    TcpRule.parse ℕ mistypedRule = .ok (.clientIP [(⟨10 * 2 ^ 24, 8⟩ : Ipv4Network)]) ∧
    UdpRule.parse ℕ mistypedRule = .ok (.clientIP [(⟨10 * 2 ^ 24, 8⟩ : Ipv4Network)]) :=
  ⟨by decide +kernel, parse_mistypedRule⟩

end TrafficCop
