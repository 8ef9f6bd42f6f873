import StaticSite.Text.CodeSet
import StaticSite.Text.Half
import StaticSite.Text.PrintableTable

/-!
# Quoted text

`quote s` writes `s` between quotation marks, escaping the mark, the backslash and every character
that is not printable. A single quote is the mark unless the text holds one and no double quote.
-/

namespace StaticSite.Text

def isPrintable (c : Char) : Bool := printableSet.mem c

/-- The escape of a character that is not printable, by its code. -/
def escapeCode (n : Nat) : List Char :=
  if n < 0x100 then '\\' :: 'x' :: hexDigits 2 n
  else if n < 0x10000 then '\\' :: 'u' :: hexDigits 4 n
  else '\\' :: 'U' :: hexDigits 8 n

def escapeChar (mark c : Char) : List Char :=
  if c = mark ∨ c = '\\' then ['\\', c]
  else if c = '\n' then ['\\', 'n']
  else if c = '\r' then ['\\', 'r']
  else if c = '\t' then ['\\', 't']
  else if isPrintable c then [c]
  else escapeCode ((half? c).getD c.toNat)

def quoteMark (cs : List Char) : Char := if cs.contains '\'' && !cs.contains '"' then '"' else '\''

def quote (s : String) : String :=
  let mark := quoteMark s.toList
  String.ofList (mark :: s.toList.flatMap (escapeChar mark) ++ [mark])

/-! ## Bytes -/

def escapeByte (mark : Char) (b : UInt8) : List Char :=
  let c := Char.ofNat b.toNat
  if b.toNat < 0x80 then escapeChar mark c else '\\' :: 'x' :: hexDigits 2 b.toNat

/-- Bytes as a quoted text with a mark before it: those of ASCII as their characters, others by number. -/
def quoteBytes (bytes : List UInt8) : String :=
  let mark := quoteMark (bytes.map fun b => Char.ofNat b.toNat)
  String.ofList ('b' :: mark :: bytes.flatMap (escapeByte mark) ++ [mark])

end StaticSite.Text
