import Mathlib.Tactic.Common

/-!
# IP addresses as text

The parser behind `str::parse::<IpAddr>` of Rust's standard library: four decimal octets
without leading zeros, or up to eight groups of hexadecimal digits with one `::` among them and
an IPv4 address possibly in the place of the last two. A reader that fails has read nothing.
-/

namespace TuxStack.Net

structure Ipv4Addr where
  octets : Vector UInt8 4
deriving DecidableEq

structure Ipv6Addr where
  segments : Vector UInt16 8
deriving DecidableEq

inductive IpAddr where
  | v4 (address : Ipv4Addr)
  | v6 (address : Ipv6Addr)
deriving DecidableEq

/-- `IpAddr::is_unspecified`: `0.0.0.0` or `::`. -/
def IpAddr.isUnspecified : IpAddr → Bool
  | v4 address => address.octets = Vector.replicate 4 0
  | v6 address => address.segments = Vector.replicate 8 0

/-- A reader takes a value from the front of a text. -/
abbrev Reader := StateT (List Char) Option

/-- `char::to_digit`. -/
def toDigit (radix : Nat) (c : Char) : Option Nat :=
  let n :=
    if '0' ≤ c ∧ c ≤ '9' then c.toNat - 48
    else if 'a' ≤ c ∧ c ≤ 'z' then c.toNat - 97 + 10
    else if 'A' ≤ c ∧ c ≤ 'Z' then c.toNat - 65 + 10
    else radix
  if n < radix then some n else none

/-- The digits of a number: how many there are, and what they say; one digit more than
`maxDigits` fails. -/
def readDigits (radix maxDigits : Nat) (count number : Nat) : Reader (Nat × Nat)
  | [] => some ((count, number), [])
  | c :: text =>
    match toDigit radix c with
    | none => some ((count, number), c :: text)
    | some digit =>
      if count + 1 > maxDigits then none
      else readDigits radix maxDigits (count + 1) (number * radix + digit) text

def readNumber (radix maxDigits : Nat) (allowZeroPrefix : Bool) (bound : Nat) : Reader Nat := do
  let hasLeadingZero := (← get).head? = some '0'
  let (count, number) ← readDigits radix maxDigits 0 0
  if count = 0 ∨ (¬ allowZeroPrefix ∧ hasLeadingZero ∧ count > 1) ∨ number ≥ bound then failure
  return number

def readGivenChar (target : Char) : Reader Unit
  | [] => none
  | c :: text => if c = target then some ((), text) else none

/-- `read_separator`: the separator stands in front of every value but the first. -/
def readSeparator {α : Type} (separator : Char) (index : Nat) (inner : Reader α) : Reader α := do
  if index > 0 then readGivenChar separator
  inner

def readIpv4Addr : Reader Ipv4Addr := do
  let octet := fun index => readSeparator '.' index (readNumber 10 3 false 256)
  let a ← octet 0
  let b ← octet 1
  let c ← octet 2
  let d ← octet 3
  return ⟨#v[a.toUInt8, b.toUInt8, c.toUInt8, d.toUInt8]⟩

/-- `read_groups` from the group `index` on, with room for `left` more: the groups, and if they
end with an IPv4 address. -/
def readGroups (index : Nat) : Nat → List Char → (List UInt16 × Bool) × List Char
  | 0, text => (([], false), text)
  | left + 1, text =>
    let embedded := if left > 0 then readSeparator ':' index readIpv4Addr text else none
    match embedded with
    | some (address, text) =>
      let octet := fun i : Fin 4 => address.octets[i].toUInt16
      (([octet 0 * 256 + octet 1, octet 2 * 256 + octet 3], true), text)
    | none =>
      match readSeparator ':' index (readNumber 16 4 true 65536) text with
      | none => (([], false), text)
      | some (group, text) =>
        let ((groups, ipv4), text) := readGroups (index + 1) left text
        ((group.toUInt16 :: groups, ipv4), text)

/-- The groups of both sides of `::` in their places. -/
def fillZeros (head tail : List UInt16) : Ipv6Addr :=
  ⟨Vector.ofFn fun i =>
    if 8 - tail.length ≤ i then tail.getD (i - (8 - tail.length)) 0 else head.getD i 0⟩

def readIpv6Addr : Reader Ipv6Addr := do
  let (head, headIpv4) ← fun text => some (readGroups 0 8 text)
  if head.length = 8 then return fillZeros head []
  -- an IPv4 address may not stand before `::`
  if headIpv4 then failure
  readGivenChar ':'
  readGivenChar ':'
  let (tail, _) ← fun text => some (readGroups 0 (8 - (head.length + 1)) text)
  return fillZeros head tail

/-- `parse_with`: nothing may be left. -/
def parseWith {α : Type} (inner : Reader α) (text : String) : Option α :=
  match inner text.toList with
  | some (a, []) => some a
  | _ => none

/-- `Ipv4Addr::from_str`. -/
def parseIpv4Addr (text : String) : Option Ipv4Addr :=
  if text.utf8ByteSize > 15 then none else parseWith readIpv4Addr text

/-- `Ipv6Addr::from_str`. -/
def parseIpv6Addr (text : String) : Option Ipv6Addr := parseWith readIpv6Addr text

/-- `IpAddr::from_str`. -/
def parseIpAddr (text : String) : Option IpAddr :=
  parseWith ((.v4 <$> readIpv4Addr) <|> (.v6 <$> readIpv6Addr)) text

example : (parseIpAddr "0.0.0.0").map IpAddr.isUnspecified = some true := by decide +kernel

example : (parseIpAddr "::").map IpAddr.isUnspecified = some true := by decide +kernel

example : parseIpAddr "127.0.0.01" = none ∧ parseIpAddr "1::2::3" = none := by decide +kernel

example : parseIpAddr "::FFFF:1.2.3.4" = parseIpAddr "0:0::ffff:102:304" := by decide +kernel

end TuxStack.Net
