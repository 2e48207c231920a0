import TrafficCop.Stream.Rules

/-!
# The IP allow list

`IpAllowListMiddleware` of `middleware/builtin/ip_filter.rs` and the `IpAllowWrapper` of
`middleware/registry.rs`.
-/

namespace TrafficCop

open Rust

/-- What the list needs of `ipnetwork` and the addresses. -/
class AddrCrate (Net Ip : Type) extends IpCrate Net Ip where
  parseIp : Text → Option Ip
  /-- The network of one address: `Ipv4Network::new(v4, 32)` or `Ipv6Network::new(v6, 128)`. -/
  single : Ip → Option Net

section

variable {Net Ip : Type} [AddrCrate Net Ip]

variable (Ip) in
def parseNetwork (s : Text) : Option Net :=
  -- "Try parsing as CIDR first", then "as single IP address"
  (IpCrate.parse Ip s).or ((AddrCrate.parseIp Net s).bind fun ip : Ip => AddrCrate.single ip)

structure IpAllowListMiddleware (Net : Type) where
  sourceRange : List Net
  ipStrategy : Option IpStrategy
  excludedNetworks : List Net
  rejectStatusCode : UInt16
  deriving Repr, DecidableEq

namespace IpAllowListMiddleware

variable (Ip) in
/-- Entries that do not parse are dropped. -/
def new (config : IpAllowListConfig) : IpAllowListMiddleware Net where
  sourceRange := config.sourceRange.filterMap (parseNetwork Ip)
  ipStrategy := config.ipStrategy
  excludedNetworks :=
    (config.ipStrategy.map fun s => s.excludedIps.filterMap (parseNetwork Ip)).getD []
  rejectStatusCode := config.rejectStatusCode.getD 403

variable (mw : IpAllowListMiddleware Net)

def isAllowed (ip : Ip) : Bool :=
  -- "No rules means allow all"
  mw.sourceRange.isEmpty || mw.sourceRange.any fun network => IpCrate.contains network ip

/-- Reads `X-Forwarded-For` as the strategy says. The wrapper does not call it and takes the address
of the connection. -/
def getClientIp (forwardedFor : Option Text) (remoteAddr : Ip) : Ip :=
  match mw.ipStrategy, forwardedFor with
  | some strategy, some xff =>
    let ips := (xff.splitOn ',').map trim
    let depth := strategy.depth.toNat
    if depth < ips.length then
      match (ips[ips.length - 1 - depth]?).bind (AddrCrate.parseIp Net) with
      | some ip =>
        if mw.excludedNetworks.any fun net => IpCrate.contains net ip then remoteAddr else ip
      | none => remoteAddr
    else remoteAddr
  | _, _ => remoteAddr

def hasRules : Bool := !mw.sourceRange.isEmpty

def rejectStatus : UInt16 :=
  if 100 ≤ mw.rejectStatusCode ∧ mw.rejectStatusCode < 1000 then mw.rejectStatusCode else 403

/-- `IpAllowWrapper::handle`: the status of the rejection, or `none` where the request is passed on.
-/
def handle (clientIp : Option Ip) : Option UInt16 :=
  if mw.hasRules then
    match clientIp with
    | some ip => if mw.isAllowed ip then none else some mw.rejectStatus
    | none => none
  else none

end IpAllowListMiddleware

open IpAllowListMiddleware

variable (Net Ip) in
/-- The list that is kept is not empty. -/
def AnyParses (config : IpAllowListConfig) : Prop :=
  ∃ entry ∈ config.sourceRange, ∃ net : Net, parseNetwork Ip entry = some net

variable (Net) in
/-- The address is in a network of the list. -/
def Listed (config : IpAllowListConfig) (ip : Ip) : Prop :=
  ∃ entry ∈ config.sourceRange, ∃ net : Net, parseNetwork Ip entry = some net ∧
    IpCrate.contains net ip = true

variable {config : IpAllowListConfig} {ip : Ip}

lemma any_contains_iff :
    ((new Ip config).sourceRange.any fun network : Net => IpCrate.contains network ip) = true ↔
      Listed Net config ip := by
  simp only [new, List.any_eq_true, List.mem_filterMap, Listed]
  constructor
  · rintro ⟨net, ⟨entry, hentry, hparse⟩, hcontains⟩
    exact ⟨entry, hentry, net, hparse, hcontains⟩
  · rintro ⟨entry, hentry, net, hparse, hcontains⟩
    exact ⟨net, ⟨entry, hentry, hparse⟩, hcontains⟩

lemma hasRules_iff :
    (new Ip config : IpAllowListMiddleware Net).hasRules ↔ AnyParses Net Ip config := by
  rw [hasRules, Bool.not_eq_true', List.isEmpty_eq_false_iff_exists_mem]
  simp only [new, List.mem_filterMap]
  constructor
  · rintro ⟨net, entry, hentry, hparse⟩
    exact ⟨entry, hentry, net, hparse⟩
  · rintro ⟨entry, hentry, net, hparse⟩
    exact ⟨net, entry, hentry, hparse⟩

lemma handle_eq_none_iff {peer : Ip} :
    (new Ip config : IpAllowListMiddleware Net).handle (some peer) = none ↔
      ¬AnyParses Net Ip config ∨ Listed Net config peer := by
  rw [← hasRules_iff, ← any_contains_iff, handle]
  cases hrules : (new Ip config : IpAllowListMiddleware Net).hasRules with
  | false => simp
  | true =>
    have hne : (new Ip config : IpAllowListMiddleware Net).sourceRange.isEmpty = false := by
      simpa [hasRules] using hrules
    simp [isAllowed, hne]

lemma Listed.anyParses (h : Listed Net config ip) : AnyParses Net Ip config := by
  obtain ⟨entry, hentry, net, hparse, -⟩ := h
  exact ⟨entry, hentry, net, hparse⟩

variable (Net) in
/-- A request that passes comes from a client on the list. -/
def OnlyListed (config : IpAllowListConfig) (forwardedFor : Option Text) (peer : Ip) : Prop :=
  (new Ip config : IpAllowListMiddleware Net).handle (some peer) = none →
    Listed Net config ((new Ip config : IpAllowListMiddleware Net).getClientIp forwardedFor peer)

/-- **When only clients on the list pass**: some entry parses, and if the address of the
connection is on the list, then so is that of the client. -/
theorem ip_allow_list_iff (config : IpAllowListConfig) (forwardedFor : Option Text) (peer : Ip) :
    OnlyListed Net config forwardedFor peer ↔
      AnyParses Net Ip config ∧
        (Listed Net config peer → Listed Net config
          ((new Ip config : IpAllowListMiddleware Net).getClientIp forwardedFor peer)) := by
  rw [OnlyListed, handle_eq_none_iff]
  constructor
  · intro h
    have hparses : AnyParses Net Ip config := by
      by_contra hnone
      exact hnone (h (Or.inl hnone)).anyParses
    exact ⟨hparses, fun hlisted => h (Or.inr hlisted)⟩
  · rintro ⟨hparses, hclient⟩ (hnone | hlisted)
    · exact absurd hparses hnone
    · exact hclient hlisted

end

open IpAllowListMiddleware

instance ipv4AddrCrate : AddrCrate Ipv4Network ℕ :=
  { ipv4Crate with parseIp := parseIpv4, single := fun ip => some ⟨ip, 32⟩ }

def mistypedList : IpAllowListConfig where
  sourceRange := ["10.0.0.0/33"]

def forwardedList : IpAllowListConfig where
  sourceRange := ["10.0.0.0/8"]
  ipStrategy := some { depth := 0 }

/-- **Others are let in.** The first list admits everybody. The second admits `203.0.113.9`,
which comes through a proxy with an address on the list. -/
theorem others_let_in :
    (new ℕ mistypedList : IpAllowListMiddleware Ipv4Network).handle (some 1) = none ∧
    ¬AnyParses Ipv4Network ℕ mistypedList ∧
    (new ℕ forwardedList : IpAllowListMiddleware Ipv4Network).handle
      (some (10 * 2 ^ 24 + 1)) = none ∧
    parseIpv4 "203.0.113.9" =
      some ((new ℕ forwardedList : IpAllowListMiddleware Ipv4Network).getClientIp
        (some "203.0.113.9") (10 * 2 ^ 24 + 1)) ∧
    ¬Listed Ipv4Network forwardedList
      ((new ℕ forwardedList : IpAllowListMiddleware Ipv4Network).getClientIp
        (some "203.0.113.9") (10 * 2 ^ 24 + 1)) := by
  refine ⟨by decide +kernel, ?_, by decide +kernel, by decide +kernel, ?_⟩
  · rw [← hasRules_iff]
    decide +kernel
  · rw [← any_contains_iff]
    decide +kernel

end TrafficCop
