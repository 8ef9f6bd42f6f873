import StaticSite.Json.Reader
import StaticSite.Yaml.Cursor
import StaticSite.Yaml.Fault

/-!
# Scalars as they are written

Plain scalars, scalars in quotes and block scalars: each function gives the text that stands at a cursor
and the place after it. Line ends inside are folded to spaces as each style has it.
-/

namespace StaticSite.Yaml

/-- A text and the place after it. -/
abbrev Scanned := Except Fault (List Char × Cursor)

/-! ## Plain scalars -/

def isFlowMark (c : Char) : Bool := c == ',' || c == '[' || c == ']' || c == '{' || c == '}'

/-- The characters of a plain scalar up to a gap or a mark; `flow` inside brackets. -/
def plainRun (flow : Bool) : List Char → List Char
  | [] => []
  | c :: cs =>
    if isGap (some c) || (c == ':' && (isGap cs.head? || (flow && cs.head?.any isFlowMark))) ||
        (flow && (c == '?' || isFlowMark c)) then []
    else c :: plainRun flow cs

/-- Line ends and blanks at the beginning of lines; none if a document ends among them. -/
def plainBreaks : Nat → List Char → Cursor → Option (List Char) × Cursor
  | 0, acc, c => (some acc, c)
  | n + 1, acc, c =>
    match c.peek? with
    | some ' ' => plainBreaks n acc c.next
    | some ch =>
      if isBreak ch then
        let (br, c) := c.lineBreak
        if c.atSeparator then (none, c) else plainBreaks n (acc ++ br) c
      else (some acc, c)
    | none => (some acc, c)

/-- How a line end and the empty lines after it count. -/
def folded (br breaks : List Char) : List Char :=
  (if br ≠ ['\n'] then br else if breaks = [] then [' '] else []) ++ breaks

/-- What stands between two runs of a plain scalar. -/
structure PlainGap where
  /-- Empty if the scalar ends here. -/
  text : List Char
  newLine : Bool
  after : Cursor

def plainGap (c : Cursor) : PlainGap :=
  let (blanks, c) := c.span (· == ' ')
  if c.peek?.any isBreak then
    let (br, c) := c.lineBreak
    if c.atSeparator then ⟨[], true, c⟩
    else match plainBreaks (c.rest.length + 1) [] c with
      | (none, c) => ⟨[], true, c⟩
      | (some breaks, c) => ⟨folded br breaks, true, c⟩
  else ⟨blanks, false, c⟩

/-- A plain scalar after the text `acc` and the gap `gap`; says also whether a line end is the last thing
seen. -/
def plainScalar (flow : Bool) (indent : Int) :
    Nat → List Char → PlainGap → List Char × Cursor × Bool
  | 0, acc, gap => (acc, gap.after, gap.newLine)
  | n + 1, acc, gap =>
    let c := gap.after
    let run := plainRun flow c.rest
    if c.peek? = some '#' ∨ run = [] then (acc, c, gap.newLine)
    else
      let acc := acc ++ gap.text ++ run
      let gap := plainGap (c.skip run.length)
      if gap.text = [] ∨ gap.after.peek? = some '#' ∨ (!flow ∧ (gap.after.column : Int) < indent) then
        (acc, gap.after, gap.newLine)
      else plainScalar flow indent n acc gap

/-! ## Scalars in quotes -/

def escape? (c : Char) : Option Char :=
  match c with
  | '0' => some '\x00'
  | 'a' => some '\x07'
  | 'b' => some '\x08'
  | 't' | '\t' => some '\t'
  | 'n' => some '\n'
  | 'v' => some '\x0b'
  | 'f' => some '\x0c'
  | 'r' => some '\r'
  | 'e' => some '\x1b'
  | ' ' => some ' '
  | '"' => some '"'
  | '\\' => some '\\'
  | '/' => some '/'
  | 'N' => some '\u0085'
  | '_' => some '\u00a0'
  | 'L' => some '\u2028'
  | 'P' => some '\u2029'
  | _ => none

/-- The number of digits of an escape by code. -/
def codeWidth? (c : Char) : Option Nat :=
  match c with
  | 'x' => some 2
  | 'u' => some 4
  | 'U' => some 8
  | _ => none

/-- The character with the code in the next `width` digits. -/
def coded (width : Nat) (c : Cursor) : Scanned :=
  let digits := c.rest.take width
  match if digits.length = width then Json.hexValue? digits else none with
  | none => .error .notYaml
  | some n =>
    if 0x7FFFFFFF < n then .error .codeTooLarge
    else if 0x10FFFF < n then .error .noCharacter
    else .ok ([Text.ofCode n], c.skip width)

/-- Line ends inside quotes, with the blanks at the beginning of lines. -/
def quotedBreaks : Nat → List Char → Cursor → Scanned
  | 0, acc, c => .ok (acc, c)
  | n + 1, acc, c =>
    if c.atSeparator then .error .notYaml
    else
      let c := c.skipWhile fun ch => ch == ' ' || ch == '\t'
      if c.peek?.any isBreak then
        let (br, c) := c.lineBreak
        quotedBreaks n (acc ++ br) c
      else .ok (acc, c)

def quotedGap (c : Cursor) : Scanned :=
  let (blanks, c) := c.span fun ch => ch == ' ' || ch == '\t'
  match c.peek? with
  | none => .error .notYaml
  | some ch =>
    if isBreak ch then do
      let (br, c) := c.lineBreak
      let (breaks, c) ← quotedBreaks (c.rest.length + 1) [] c
      return (folded br breaks, c)
    else .ok (blanks, c)

/-- The character or the folded lines that an escape stands for. -/
def quotedEscape (c : Cursor) : Scanned :=
  match c.peek? with
  | none => .error .notYaml
  | some ch => match escape? ch, codeWidth? ch with
    | some d, _ => .ok ([d], c.next)
    | none, some width => coded width c.next
    | none, none =>
      if isBreak ch then quotedBreaks (c.rest.length + 1) [] c.lineBreak.2 else .error .notYaml

/-- A scalar in quotes after the text `acc`, up to the closing quote. -/
def quotedScalar (double : Bool) : Nat → List Char → Cursor → Scanned
  | 0, _, _ => .error .notYaml
  | n + 1, acc, c =>
    match c.rest with
    | [] => .error .notYaml
    | '\'' :: '\'' :: _ =>
      if double then quotedScalar double n (acc ++ ['\'']) c.next
      else quotedScalar double n (acc ++ ['\'']) (c.skip 2)
    | ch :: _ =>
      if ch = (if double then '"' else '\'') then .ok (acc, c.next)
      else if double && ch == '\\' then do
        let (text, c) ← quotedEscape c.next
        quotedScalar double n (acc ++ text) c
      else if isGap (some ch) then do
        let (text, c) ← quotedGap c
        quotedScalar double n (acc ++ text) c
      else quotedScalar double n (acc ++ [ch]) c.next

/-! ## Block scalars -/

/-- What becomes of the line ends at the end of a block scalar. -/
inductive Chomp where
  | strip
  | clip
  | keep
  deriving DecidableEq

structure BlockHeader where
  chomp : Chomp := .clip
  indent : Option Nat := none

def chomp? : Option Char → Option Chomp
  | some '+' => some .keep
  | some '-' => some .strip
  | _ => none

/-- The digit for the indentation, none if it is zero. -/
def indentDigit (c : Cursor) : Except Fault (Option Nat × Cursor) :=
  match c.peek? with
  | some ch =>
    if ch = '0' then .error .notYaml
    else if Number.isDigit ch then .ok (some (ch.toNat - 48), c.next)
    else .ok (none, c)
  | none => .ok (none, c)

def blockHeader (c : Cursor) : Except Fault (BlockHeader × Cursor) := do
  let (header, c) ← match chomp? c.peek? with
    | some chomp => do
      let (indent, c) ← indentDigit c.next
      pure (⟨chomp, indent⟩, c)
    | none => do
      let (indent, c) ← indentDigit c
      match indent, chomp? c.peek? with
      | some _, some chomp => pure ((⟨chomp, indent⟩ : BlockHeader), c.next)
      | _, _ => pure ({ indent }, c)
  if !isPlainGap c.peek? then throw .notYaml
  match c.skipComment with
  | some c => return (header, c)
  | none => throw .notYaml

/-- The line ends before the first line of a block scalar, and the widest indentation among them. -/
def blockLead : Nat → List Char → Nat → Cursor → List Char × Nat × Cursor
  | 0, acc, widest, c => (acc, widest, c)
  | n + 1, acc, widest, c =>
    match c.peek? with
    | some ' ' => blockLead n acc (max widest c.next.column) c.next
    | some ch =>
      if isBreak ch then
        let (br, c) := c.lineBreak
        blockLead n (acc ++ br) widest c
      else (acc, widest, c)
    | none => (acc, widest, c)

/-- The blanks of the indentation, as far as they go. -/
def skipIndent (indent : Nat) (c : Cursor) : Cursor :=
  c.skip ((c.rest.take (indent - c.column)).takeWhile (· == ' ')).length

/-- Line ends between the lines of a block scalar. -/
def blockBreaks (indent : Nat) : Nat → List Char → Cursor → List Char × Cursor
  | 0, acc, c => (acc, c)
  | n + 1, acc, c =>
    let c := skipIndent indent c
    if c.peek?.any isBreak then
      let (br, c) := c.lineBreak
      blockBreaks indent n (acc ++ br) c
    else (acc, c)

def isBlank (c : Option Char) : Bool := c == some ' ' || c == some '\t'

/-- The lines of a block scalar from the cursor on, after `acc` and the empty lines `breaks`: the text with
the last line end and the empty lines after it. -/
def blockLines (fold : Bool) (indent : Nat) :
    Nat → List Char → List Char → Cursor → List Char × List Char × List Char × Cursor
  | 0, acc, breaks, c => (acc, [], breaks, c)
  | n + 1, acc, breaks, c =>
    if c.column ≠ indent ∨ c.peek? = none then (acc, [], breaks, c)
    else
      let indented := isBlank c.peek?
      let (line, c) := c.span (!isBreak ·)
      let acc := acc ++ breaks ++ line
      let (br, c) := c.lineBreak
      let (breaks, c) := blockBreaks indent (c.rest.length + 1) [] c
      if c.column = indent ∧ c.peek? ≠ none then
        let joint :=
          if fold && br == ['\n'] && !indented && !isBlank c.peek? then
            if breaks = [] then [' '] else []
          else br
        blockLines fold indent n (acc ++ joint) breaks c
      else (acc, br, breaks, c)

/-- A block scalar after its mark; `parent` is the indentation of the block that holds it. -/
def blockScalar (fold : Bool) (parent : Int) (c : Cursor) : Scanned := do
  let (header, c) ← blockHeader c
  let least := max 1 (parent + 1).toNat
  let (breaks, indent, c) := match header.indent with
    | none =>
      let (breaks, widest, c) := blockLead (c.rest.length + 1) [] 0 c
      (breaks, max least widest, c)
    | some digit =>
      let indent := least + digit - 1
      let (breaks, c) := blockBreaks indent (c.rest.length + 1) [] c
      (breaks, indent, c)
  let (text, br, breaks, c) := blockLines fold indent (c.rest.length + 1) [] breaks c
  return (text ++ (if header.chomp = .strip then [] else br) ++
    (if header.chomp = .keep then breaks else []), c)

end StaticSite.Yaml
