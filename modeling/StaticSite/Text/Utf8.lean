/-!
# Reading UTF-8

`decode` gives the text of some bytes, or the first place where they are no UTF-8: a byte that begins
nothing, a sequence broken off by another byte, or one broken off by the end.
-/

namespace StaticSite.Text

namespace Utf8

inductive Issue where
  | start
  | continuation
  | truncated
  deriving DecidableEq, Repr

structure Fault where
  issue : Issue
  /-- The offset of the first bad byte. -/
  position : Nat
  /-- How many bytes are bad. -/
  count : Nat
  byte : UInt8
  deriving DecidableEq, Repr

def Issue.text : Issue → String
  | .start => "invalid start byte"
  | .continuation => "invalid continuation byte"
  | .truncated => "unexpected end of data"

def hex (b : UInt8) : String :=
  String.ofList [Nat.digitChar (b.toNat / 16), Nat.digitChar (b.toNat % 16)]

def Fault.message (f : Fault) : String :=
  "'utf-8' codec can't decode " ++
    (if f.count = 1 then s!"byte 0x{hex f.byte} in position {f.position}"
      else s!"bytes in position {f.position}-{f.position + f.count - 1}") ++ ": " ++ f.issue.text

/-- The ranges that the bytes after the first byte `b` must lie in; none if `b` begins nothing. -/
def followers (b : UInt8) : Option (List (UInt8 × UInt8)) :=
  let any := (0x80, 0xBF)
  if b < 0x80 then some []
  else if b < 0xC2 then none
  else if b < 0xE0 then some [any]
  else if b = 0xE0 then some [(0xA0, 0xBF), any]
  else if b = 0xED then some [(0x80, 0x9F), any]
  else if b < 0xF0 then some [any, any]
  else if b = 0xF0 then some [(0x90, 0xBF), any, any]
  else if b < 0xF4 then some [any, any, any]
  else if b = 0xF4 then some [(0x80, 0x8F), any, any]
  else none

/-- How many bytes follow in the given ranges, and what is wrong with the next one, if anything. -/
def followed : List (UInt8 × UInt8) → List UInt8 → Nat × Option Issue
  | [], _ => (0, none)
  | _ :: _, [] => (0, some .truncated)
  | (lo, hi) :: ranges, b :: bs =>
    if lo ≤ b ∧ b ≤ hi then
      let (n, issue) := followed ranges bs
      (n + 1, issue)
    else (0, some .continuation)

/-- The first fault from `position` on; `skip` bytes belong to a character already seen. -/
def firstFault (position skip : Nat) : List UInt8 → Option Fault
  | [] => none
  | b :: bs =>
    if skip > 0 then firstFault (position + 1) (skip - 1) bs
    else match followers b with
      | none => some ⟨.start, position, 1, b⟩
      | some ranges => match followed ranges bs with
        | (n, none) => firstFault (position + 1) n bs
        | (n, some issue) => some ⟨issue, position, n + 1, b⟩

end Utf8

def decode (bytes : ByteArray) : Except Utf8.Fault String :=
  match String.fromUTF8? bytes with
  | some s => .ok s
  | none => .error ((Utf8.firstFault 0 0 bytes.toList).getD ⟨.start, 0, 1, 0⟩)

/-- Every line end as one line feed. -/
def unixLines : List Char → List Char
  | '\r' :: '\n' :: cs => '\n' :: unixLines cs
  | '\r' :: cs => '\n' :: unixLines cs
  | c :: cs => c :: unixLines cs
  | [] => []

/-- The text of a file: its bytes as UTF-8, with unix line ends. -/
def ofFile (bytes : ByteArray) : Except Utf8.Fault String := do
  return String.ofList (unixLines (← decode bytes).toList)

end StaticSite.Text
