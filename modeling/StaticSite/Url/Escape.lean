import StaticSite.Text.Split
import StaticSite.Text.Quoted

/-!
# Percent escapes

`escape safe` writes every ASCII character that is neither unreserved nor `safe` as `%XX`. Existing
escapes and characters beyond ASCII pass unchanged, so escaping twice is escaping once.
-/

namespace StaticSite.Url

def isHexDigit (c : Char) : Bool :=
  ('0' ≤ c && c ≤ '9') || ('a' ≤ c && c ≤ 'f') || ('A' ≤ c && c ≤ 'F')

def isAsciiAlpha (c : Char) : Bool := ('a' ≤ c && c ≤ 'z') || ('A' ≤ c && c ≤ 'Z')

def isAsciiDigit (c : Char) : Bool := '0' ≤ c && c ≤ '9'

/-- Letters, digits and `_ . - ~`, which are never escaped. -/
def isUnreserved (c : Char) : Bool :=
  isAsciiAlpha c || isAsciiDigit c || c == '_' || c == '.' || c == '-' || c == '~'

/-- What a path segment may hold unescaped, the percent sign excepted. -/
def segmentSafe : List Char := "!$&'()*+,;=:@-._~".toList

def upperHexDigit (n : Nat) : Char := (Nat.digitChar (n % 16)).toUpper

/-- The escape of an ASCII character. -/
def percent (c : Char) : List Char :=
  ['%', upperHexDigit (c.toNat / 16), upperHexDigit c.toNat]

def escapeOne (safe : List Char) (c : Char) : List Char :=
  if c.toNat > 0x7f ∨ isUnreserved c ∨ c ∈ safe then [c] else percent c

def escape (safe : List Char) : List Char → List Char
  | '%' :: a :: b :: rest =>
    if isHexDigit a && isHexDigit b then '%' :: a :: b :: escape safe rest
    else escapeOne safe '%' ++ escape safe (a :: b :: rest)
  | c :: rest => escapeOne safe c ++ escape safe rest
  | [] => []

/-- Escapes the segments of a path. -/
def escapePath (path : List Char) : List Char :=
  Text.joinWith '/' ((Text.splitOn '/' path).map (escape segmentSafe))

/-- Escapes what follows the first `=` of a `key=value` pair. -/
def escapePair : List Char → List Char
  | [] => []
  | c :: cs => if c = '=' then '=' :: escape [] cs else c :: escapePair cs

/-- Escapes the values of a query and leaves its keys. -/
def escapeQuery (query : List Char) : List Char :=
  Text.joinWith '&' ((Text.splitOn '&' query).map escapePair)

end StaticSite.Url
