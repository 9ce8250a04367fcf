import Voidns.Base.Net
import Voidns.Base.Text

/-!
# Reading an address

`str::parse::<IpAddr>` with its value.  `isIpAddr` says which texts are addresses; the
numbers are those that its readers have passed over.
-/

namespace Voidns

open Text

namespace IpAddr

/-- The number that `readSeparator` has passed over, with `readNumber` in it. -/
def numberAt (radix index : Nat) (s : List Char) : Nat :=
  (readDigits radix (if 0 < index then s.tail else s) 0 0).1

/-- The four octets of `readIpv4Addr`, and what follows them. -/
def readOctets (s : List Char) : Option ((UInt8 × UInt8 × UInt8 × UInt8) × List Char) := do
  let octet := fun i s => readSeparator '.' i (readNumber 10 3 255 false) s
  let s₁ ← octet 0 s
  let s₂ ← octet 1 s₁
  let s₃ ← octet 2 s₂
  let rest ← octet 3 s₃
  return ((.ofNat (numberAt 10 0 s), .ofNat (numberAt 10 1 s₁), .ofNat (numberAt 10 2 s₂),
    .ofNat (numberAt 10 3 s₃)), rest)

/-- The words of `readGroups`. -/
def groupWords (limit : Nat) : Nat → List Char → List UInt16
  | 0, _ => []
  | left + 1, s =>
    let i := limit - (left + 1)
    let octets := if 0 < left then readOctets (if 0 < i then s.tail else s) else none
    let ipv4 := if 0 < left then readSeparator ':' i readIpv4Addr s else none
    match ipv4, octets with
    | some _, some ((a, b, c, d), _) =>
      [a.toUInt16 <<< 8 ||| b.toUInt16, c.toUInt16 <<< 8 ||| d.toUInt16]
    | _, _ =>
      match readSeparator ':' i (readNumber 16 4 0xffff true) s with
      | some rest => .ofNat (numberAt 16 i s) :: groupWords limit left rest
      | none => []

/-- The segments of `readIpv6Addr`, with zeros for what `::` leaves out. -/
def readSegments (s : List Char) : List UInt16 :=
  let (headSize, _, rest) := readGroups 8 8 s
  let limit := 8 - (headSize + 1)
  let head := groupWords 8 8 s
  let tail := if headSize = 8 then [] else groupWords limit limit (rest.drop 2)
  head ++ List.replicate (8 - head.length - tail.length) 0 ++ tail

/-- `s.parse::<IpAddr>().ok()`. -/
def parse (s : String) : Option IpAddr :=
  if isIpAddr s.toList then
    match readOctets s.toList with
    | some ((a, b, c, d), _) => some (v4 a b c d)
    | none => some (v6 fun i => (readSegments s.toList).getD i 0)
  else none

theorem parse_isSome (s : String) : (parse s).isSome = isIpAddr s.toList := by
  unfold parse
  split
  · split <;> simp [*]
  · simp [*]

example : ["1.1.1.1", "9.9.9.10", "::1", "2606:4700:4700::1111", "::ffff:10.0.0.1", "1::2:3.4.5.6",
      "1.1.1", "::1 "].map (fun s => (parse s).map text) =
    [some "1.1.1.1", some "9.9.9.10", some "::1", some "2606:4700:4700::1111",
      some "::ffff:10.0.0.1", some "1::2:304:506", none, none] := by decide +kernel

end IpAddr

end Voidns
