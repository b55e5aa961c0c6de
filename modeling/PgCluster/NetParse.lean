import Mathlib.Data.List.Basic

/-!
# Parsing of numbers and socket addresses

What the standard library's `str::parse` accepts as a `u16` and as a
`SocketAddr`. Only acceptance matters to the callers, so a parser returns
what it left of the input, as the standard library's internal `Parser` does,
and an address is accepted when nothing is left.

An IPv4 octet may not have a leading zero; ports and IPv6 groups may. An
IPv6 address has eight groups, or fewer on the two sides of one `::`, and
its last two groups may be written as an IPv4 address.
-/

namespace PgCluster

def digitValue (radix : Nat) (c : Char) : Option Nat :=
  let value :=
    if '0' ≤ c ∧ c ≤ '9' then some (c.toNat - '0'.toNat)
    else if 'a' ≤ c ∧ c ≤ 'f' then some (c.toNat - 'a'.toNat + 10)
    else if 'A' ≤ c ∧ c ≤ 'F' then some (c.toNat - 'A'.toNat + 10)
    else none
  value.filter (· < radix)

def isDigitOf (radix : Nat) (c : Char) : Bool := (digitValue radix c).isSome

/-- The digits at the front, as a number. -/
def digitsValue (radix : Nat) (cs : List Char) : Nat :=
  cs.foldl (fun acc c => acc * radix + (digitValue radix c).getD 0) 0

/-- `Parser::read_number`: all the digits there are, at most `maxDigits` of
them, with a value below `bound`. -/
def readNumber (radix bound : Nat) (maxDigits : Option Nat) (allowZeroPrefix : Bool)
    (cs : List Char) : Option (List Char) :=
  let digits := cs.takeWhile (isDigitOf radix)
  if digits.isEmpty || maxDigits.any (· < digits.length)
      || decide (bound ≤ digitsValue radix digits)
      || (!allowZeroPrefix && digits.head? == some '0' && decide (1 < digits.length))
  then none else some (cs.dropWhile (isDigitOf radix))

def readGivenChar (c : Char) : List Char → Option (List Char)
  | x :: cs => if x = c then some cs else none
  | [] => none

/-- `Parser::read_separator`: `inner`, after a separator unless it is the
first of its list. -/
def readSeparator (sep : Char) (index : Nat) (inner : List Char → Option (List Char))
    (cs : List Char) : Option (List Char) :=
  if index = 0 then inner cs else (readGivenChar sep cs).bind inner

/-! ## IP addresses -/

def readOctet : List Char → Option (List Char) := readNumber 10 256 (some 3) false

def readIpv4Addr (cs : List Char) : Option (List Char) := do
  let cs ← readSeparator '.' 0 readOctet cs
  let cs ← readSeparator '.' 1 readOctet cs
  let cs ← readSeparator '.' 2 readOctet cs
  readSeparator '.' 3 readOctet cs

def readIpv6Group : List Char → Option (List Char) := readNumber 16 65536 (some 4) true

/-- `read_groups` with `slots` groups to go: how many were read, whether the
last two came from an IPv4 address, and the rest. -/
def readGroups : (slots index : Nat) → List Char → Nat × Bool × List Char
  | 0, index, cs => (index, false, cs)
  | slots + 1, index, cs =>
    match if 0 < slots then readSeparator ':' index readIpv4Addr cs else none with
    | some rest => (index + 2, true, rest)
    | none =>
      match readSeparator ':' index readIpv6Group cs with
      | some rest => readGroups slots (index + 1) rest
      | none => (index, false, cs)

def readIpv6Addr (cs : List Char) : Option (List Char) :=
  match readGroups 8 0 cs with
  | (headSize, headIpv4, rest) =>
    if headSize = 8 then some rest
    else if headIpv4 then none
    else do
      let rest ← readGivenChar ':' rest
      let rest ← readGivenChar ':' rest
      some (readGroups (8 - (headSize + 1)) 0 rest).2.2

/-! ## Socket addresses -/

def readPort (cs : List Char) : Option (List Char) :=
  (readGivenChar ':' cs).bind (readNumber 10 65536 none true)

def readSocketAddrV4 (cs : List Char) : Option (List Char) :=
  (readIpv4Addr cs).bind readPort

/-- The scope id after `%` may be missing. -/
def readScopeId (cs : List Char) : List Char :=
  ((readGivenChar '%' cs).bind (readNumber 10 UInt32.size none true)).getD cs

def readSocketAddrV6 (cs : List Char) : Option (List Char) := do
  let cs ← readGivenChar '[' cs
  let cs ← readIpv6Addr cs
  let cs ← readGivenChar ']' (readScopeId cs)
  readPort cs

/-- `s.parse::<SocketAddr>().is_ok()`. -/
def parsesSocketAddr (s : String) : Bool :=
  ((readSocketAddrV4 s.toList).or (readSocketAddrV6 s.toList)) == some []

/-- `s.parse::<u16>().is_ok()`: decimal digits, after an optional plus. -/
def parsesU16 (cs : List Char) : Bool :=
  let digits := match cs with
    | '+' :: rest => rest
    | _ => cs
  !digits.isEmpty && digits.all (isDigitOf 10) && decide (digitsValue 10 digits < 65536)

/-- `char::is_whitespace`: the Unicode `White_Space` property. -/
def isWhitespace (c : Char) : Bool :=
  let n := c.toNat
  (0x9 ≤ n && n ≤ 0xD) || n == 0x20 || n == 0x85 || n == 0xA0 || n == 0x1680
    || (0x2000 ≤ n && n ≤ 0x200A) || n == 0x2028 || n == 0x2029 || n == 0x202F
    || n == 0x205F || n == 0x3000

end PgCluster
