import Mathlib.Data.List.Infix
import Mathlib.Tactic.Common

/-!
# Text

The string functions the parsers call, on lists of characters: `lines`,
`trim`, `split_whitespace`, `contains`, and `str::parse::<IpAddr>` as far as
its success goes.  The address reader follows the one in `std::net`: it reads
decimal octets of at most three digits without a leading zero, and groups of at
most four hexadecimal digits around at most one `::`, where the last two groups
may be written as four octets.
-/

namespace Voidns.Text

/-- `char::is_whitespace`: the Unicode property `White_Space`. -/
def isWhitespace (c : Char) : Bool :=
  let n := c.toNat
  (0x09 ≤ n && n ≤ 0x0D) || n == 0x20 || n == 0x85 || n == 0xA0 || n == 0x1680 ||
    (0x2000 ≤ n && n ≤ 0x200A) || n == 0x2028 || n == 0x2029 || n == 0x202F || n == 0x205F ||
    n == 0x3000

/-- Strip the `\r` of a line that ended in `\r\n`; the line comes in reverse. -/
def stripCr : List Char → List Char
  | '\r' :: cs => cs.reverse
  | cs => cs.reverse

/-- `str::lines`, with the characters of the current line so far in reverse.  A
line ends in `\n` or `\r\n`; nothing after the last `\n` is not a line. -/
def linesFrom : List Char → List Char → List (List Char)
  | [], [] => []
  | [], cur => [cur.reverse]
  | '\n' :: cs, cur => stripCr cur :: linesFrom cs []
  | c :: cs, cur => linesFrom cs (c :: cur)

/-- `str::lines`. -/
def lines (s : List Char) : List (List Char) := linesFrom s []

/-- `str::trim`. -/
def trim (s : List Char) : List Char :=
  ((s.dropWhile isWhitespace).reverse.dropWhile isWhitespace).reverse

/-- `str::split_whitespace`, with the characters of the current word so far in
reverse. -/
def wordsFrom : List Char → List Char → List (List Char)
  | [], [] => []
  | [], cur => [cur.reverse]
  | c :: cs, cur =>
    if isWhitespace c then
      if cur = [] then wordsFrom cs [] else cur.reverse :: wordsFrom cs []
    else wordsFrom cs (c :: cur)

/-- `str::split_whitespace`. -/
def splitWhitespace (s : List Char) : List (List Char) := wordsFrom s []

/-- `str::contains`. -/
def contains (s pat : List Char) : Bool := decide (pat <:+: s)

/-- `str::eq_ignore_ascii_case`. -/
def eqIgnoreAsciiCase (s t : List Char) : Bool := s.map Char.toLower == t.map Char.toLower

/-! ### IP addresses -/

/-- The value of a digit in the radix, or nothing. -/
def toDigit (radix : Nat) (c : Char) : Option Nat :=
  let d :=
    if '0' ≤ c ∧ c ≤ '9' then some (c.toNat - '0'.toNat)
    else if 'a' ≤ c ∧ c ≤ 'z' then some (c.toNat - 'a'.toNat + 10)
    else if 'A' ≤ c ∧ c ≤ 'Z' then some (c.toNat - 'A'.toNat + 10)
    else none
  d.filter (· < radix)

/-- The digits at the front of the text, as a number, with how many there are
and what follows. -/
def readDigits (radix : Nat) : List Char → Nat → Nat → Nat × Nat × List Char
  | [], value, count => (value, count, [])
  | c :: cs, value, count =>
    match toDigit radix c with
    | some d => readDigits radix cs (value * radix + d) (count + 1)
    | none => (value, count, c :: cs)

/-- `Parser::read_number`: a nonempty run of at most `maxDigits` digits whose
value is at most `bound`. -/
def readNumber (radix maxDigits bound : Nat) (allowZeroPrefix : Bool) (s : List Char) :
    Option (List Char) :=
  let (value, count, rest) := readDigits radix s 0 0
  if count = 0 ∨ maxDigits < count then none
  else if !allowZeroPrefix ∧ s.head? = some '0' ∧ 1 < count then none
  else if bound < value then none
  else some rest

/-- `Parser::read_given_char`. -/
def readGivenChar (c : Char) : List Char → Option (List Char)
  | [] => none
  | d :: cs => if d = c then some cs else none

/-- `Parser::read_separator`: every item but the first has `sep` before it. -/
def readSeparator (sep : Char) (index : Nat) (item : List Char → Option (List Char))
    (s : List Char) : Option (List Char) :=
  if 0 < index then (readGivenChar sep s).bind item else item s

/-- `Parser::read_ipv4_addr`: what follows four octets. -/
def readIpv4Addr (s : List Char) : Option (List Char) :=
  let octet := fun i s => readSeparator '.' i (readNumber 10 3 255 false) s
  (((octet 0 s).bind (octet 1)).bind (octet 2)).bind (octet 3)

/-- The loop of `read_groups`, with `left` of the `limit` groups still to read:
how many groups were read, whether the last two were octets, and what follows. -/
def readGroups (limit : Nat) : Nat → List Char → Nat × Bool × List Char
  | 0, s => (limit, false, s)
  | left + 1, s =>
    let i := limit - (left + 1)
    let ipv4 := if 0 < left then readSeparator ':' i readIpv4Addr s else none
    match ipv4 with
    | some rest => (i + 2, true, rest)
    | none =>
      match readSeparator ':' i (readNumber 16 4 0xffff true) s with
      | some rest => readGroups limit left rest
      | none => (i, false, s)

/-- `Parser::read_ipv6_addr`: what follows the address. -/
def readIpv6Addr (s : List Char) : Option (List Char) :=
  let (headSize, headIpv4, rest) := readGroups 8 8 s
  if headSize = 8 then some rest
  else if headIpv4 then none
  else
    ((readGivenChar ':' rest).bind (readGivenChar ':')).map fun rest =>
      let limit := 8 - (headSize + 1)
      (readGroups limit limit rest).2.2

/-- `s.parse::<IpAddr>().is_ok()`: an address and nothing after it. -/
def isIpAddr (s : List Char) : Bool :=
  ((readIpv4Addr s).or (readIpv6Addr s)) == some []

example : (["127.0.0.1", "::1", "fe80::1:2", "::ffff:10.0.0.1"].map (isIpAddr ·.toList),
    ["01.0.0.1", "256.0.0.1", "1.2.3", "1::2::3", ":1", "1.2.3.4 "].map (isIpAddr ·.toList)) =
    ([true, true, true, true], [false, false, false, false, false, false]) := by decide

end Voidns.Text
