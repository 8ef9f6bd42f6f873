import StaticSite.Text.Quoted
import StaticSite.Text.Split
import StaticSite.Url.Escape

/-!
# Bracketed hosts

`[…]` in an authority holds an IPv6 address, with an optional zone after `%`, or a future address
form `v1.…`. Nothing but a port may stand next to the brackets.
-/

namespace StaticSite.Url

/-- Why a text is no URL. -/
inductive Fault where
  /-- Brackets that do not match or do not enclose the host. -/
  | brackets
  | futureAddress
  | notAnAddress (host : String)
  | bracketedV4
  /-- A character that stands for a delimiter. -/
  | hiddenDelimiter (authority : String)
  deriving DecidableEq, Repr

def Fault.message : Fault → String
  | .brackets => "Invalid IPv6 URL"
  | .futureAddress => "IPvFuture address is invalid"
  | .notAnAddress host => Text.quote host ++ " does not appear to be an IPv4 or IPv6 address"
  | .bracketedV4 => "An IPv4 address cannot be in brackets"
  | .hiddenDelimiter authority =>
    "netloc '" ++ authority ++ "' contains invalid characters under NFKC normalization"

def isOctet (cs : List Char) : Bool :=
  !cs.isEmpty && cs.all isAsciiDigit && cs.length ≤ 3 && (cs == ['0'] || cs.head? != some '0') &&
    cs.foldl (fun n c => n * 10 + (c.toNat - 48)) 0 ≤ 255

def isV4 (cs : List Char) : Bool :=
  let octets := Text.splitOn '.' cs
  octets.length == 4 && octets.all isOctet

def isHextet (cs : List Char) : Bool := !cs.isEmpty && cs.all isHexDigit && cs.length ≤ 4

/-- The groups of an IPv6 address; an IPv4 address in the last place counts as two. -/
def groups? (cs : List Char) : Option (List (List Char)) :=
  let parts := Text.splitOn ':' cs
  let last := parts.getLastD []
  if parts.length < 3 then none
  else if '.' ∈ last then if isV4 last then some (parts.dropLast ++ [['0'], ['0']]) else none
  else some parts

/-- Groups with one gap `::`, which stands for at least one group and may lie at an end. -/
def isGapped (parts : List (List Char)) (gap : Nat) : Bool :=
  let hi := parts.take gap
  let lo := parts.drop (gap + 1)
  let hi := if hi == [[]] then [] else hi
  let lo := if lo == [[]] then [] else lo
  hi.all isHextet && lo.all isHextet && hi.length + lo.length ≤ 7

def isV6Groups (parts : List (List Char)) : Bool :=
  let inner := (List.range parts.length).filter fun i =>
    0 < i && i + 1 < parts.length && parts[i]? == some []
  match inner with
  | [] => parts.length == 8 && parts.all isHextet
  | [gap] => parts.length ≤ 9 && isGapped parts gap
  | _ => false

def isV6 (cs : List Char) : Bool :=
  let (addr, zone) := Text.cut '%' cs
  (match zone with | none => true | some z => !z.isEmpty && '%' ∉ z) &&
    match groups? addr with | none => false | some parts => isV6Groups parts

/-- `v`, hexadecimal digits, a dot and at least one character. -/
def isFuture (cs : List Char) : Bool :=
  let (version, rest) := Text.cut '.' (cs.drop 1)
  !version.isEmpty && version.all isHexDigit && (rest.getD []) != []

def checkHost (host : List Char) : Except Fault Unit :=
  if host.head? = some 'v' then if isFuture host then .ok () else .error .futureAddress
  else if isV4 host then .error .bracketedV4
  else if isV6 host then .ok ()
  else .error (.notAnAddress (String.ofList host))

/-- What follows the last `@`. -/
def afterUser (cs : List Char) : List Char := (cs.reverse.takeWhile (· ≠ '@')).reverse

/-- Checks an authority in which both brackets occur. -/
def checkBracketed (authority : List Char) : Except Fault Unit :=
  let hostPort := afterUser authority
  match Text.cut '[' hostPort with
  | (before, some bracketed) =>
    let (host, port) := Text.cut ']' bracketed
    if before ≠ [] ∨ (port.getD []).headD ':' ≠ ':' then .error .brackets else checkHost host
  | (_, none) => checkHost (Text.cut ':' hostPort).1

/-- Characters whose compatibility form holds one of `/ ? # @ :`. -/
def hiddenDelimiters : List Nat := [
  0x2047, 0x2048, 0x2049, 0x2100, 0x2101, 0x2105, 0x2106, 0x2a74, 0xfe13, 0xfe16, 0xfe55, 0xfe56,
  0xfe5f, 0xfe6b, 0xff03, 0xff0f, 0xff1a, 0xff1f, 0xff20]

def checkAuthority (authority : List Char) : Except Fault Unit :=
  if authority.any fun c => hiddenDelimiters.contains c.toNat then
    .error (.hiddenDelimiter (String.ofList authority))
  else .ok ()

end StaticSite.Url
