import TrafficCop.Rust.Text

/-!
# IPv4 addresses and networks

The texts that `Ipv4Addr::from_str` and `Ipv4Network::from_str` read, and when a network has an
address. The model takes networks from a given crate; its examples are run on these.
-/

namespace Rust

/-- One of the four numbers: up to three digits, and no leading zero. -/
def parseOctet (s : Text) : Option ℕ := do
  if 3 < s.length ∨ 1 < s.length ∧ s.head? = some '0' then none
  let n ← parseDigits s
  if n < 256 then some n else none

def parseIpv4 (s : Text) : Option ℕ :=
  match (s.splitOn '.').mapM parseOctet with
  | some [a, b, c, d] => some (((a * 256 + b) * 256 + c) * 256 + d)
  | _ => none

/-- An address, which is its number, and a length; the form with a netmask is left out. -/
structure Ipv4Network where
  addr : ℕ
  bits : ℕ
  deriving Repr, DecidableEq

namespace Ipv4Network

def parse (s : Text) : Option Ipv4Network :=
  match splitOnce '/' s with
  | some (addr, bits) => do
    let addr ← parseIpv4 addr
    let bits ← parseDigits bits
    if bits ≤ 32 then some ⟨addr, bits⟩ else none
  | none => (parseIpv4 s).map fun addr => ⟨addr, 32⟩

/-- `Ipv4Network::contains`: the same leading bits. -/
def contains (net : Ipv4Network) (ip : ℕ) : Bool :=
  ip / 2 ^ (32 - net.bits) == net.addr / 2 ^ (32 - net.bits)

example : (parse "10.1.0.0/16").map (·.contains (10 * 2 ^ 24 + 2 ^ 16 + 7)) = some true := by
  decide

example : parse "10.0.0.0/33" = none ∧ parse "10.0.0" = none := by decide

end Ipv4Network

end Rust
