import StaticSite.Text.Utf8
import StaticSite.Yaml.Scalar

/-!
# YAML tokens

`tokens` takes a text apart. Blocks are marked by their indentation: a token opens a block where a line
begins further in, and closes it where one begins further out. A key is recognised by the colon after
it, so a token may turn out to be a key on the same line only.
-/

namespace StaticSite.Yaml

inductive Directive where
  | version (major : Nat)
  | tag (handle replacement : String)
  | reserved
  deriving DecidableEq, Repr

inductive Token where
  | directive (d : Directive)
  | documentStart
  | documentEnd
  | blockSequence
  | blockMapping
  | blockEnd
  | flowSequence
  | flowSequenceEnd
  | flowMapping
  | flowMappingEnd
  | blockEntry
  | flowEntry
  | key
  | value
  | alias (name : String)
  | anchor (name : String)
  | tag (handle : Option String) (suffix : String)
  | scalar (plain : Bool) (text : String)
  deriving DecidableEq, Repr

/-! ## Names, tags and directives -/

def isWordChar (c : Char) : Bool :=
  ('0' ≤ c && c ≤ '9') || ('A' ≤ c && c ≤ 'Z') || ('a' ≤ c && c ≤ 'z') || c == '-' || c == '_'

/-- A word of one character or more. -/
def word (c : Cursor) : Scanned :=
  match c.span isWordChar with
  | ([], _) => .error .notYaml
  | found => .ok found

/-- The name of an anchor or alias, after its mark. -/
def anchorName (c : Cursor) : Scanned := do
  let (name, c) ← word c
  if isGap c.peek? || c.peek?.any fun ch => "?:,]\x7d%@`".toList.contains ch then return (name, c)
  else throw .notYaml

def isUriChar (c : Char) : Bool := isWordChar c || ";/?:@&=+$,.!~*'()[]".toList.contains c

/-- The bytes of a run of escapes. -/
def uriBytes : Nat → List UInt8 → Cursor → Except Fault (List UInt8 × Cursor)
  | 0, acc, c => .ok (acc, c)
  | n + 1, acc, c =>
    match c.rest with
    | '%' :: a :: b :: _ => match Json.hexValue? [a, b] with
      | some v => uriBytes n (acc ++ [v.toUInt8]) (c.skip 3)
      | none => .error .notYaml
    | '%' :: _ => .error .notYaml
    | _ => .ok (acc, c)

def uriChars : Nat → List Char → Cursor → Scanned
  | 0, acc, c => .ok (acc, c)
  | n + 1, acc, c =>
    match c.peek? with
    | some '%' => do
      let (bytes, c) ← uriBytes (c.rest.length + 1) [] c
      match Text.decode ⟨bytes.toArray⟩ with
      | .ok s => uriChars n (acc ++ s.toList) c
      | .error _ => throw .notYaml
    | some ch => if isUriChar ch then uriChars n (acc ++ [ch]) c.next else .ok (acc, c)
    | none => .ok (acc, c)

def uri (c : Cursor) : Scanned := do
  match ← uriChars (c.rest.length + 1) [] c with
  | ([], _) => throw .notYaml
  | found => return found

/-- A handle: `!`, or a word between two of them. -/
def tagHandle (c : Cursor) : Scanned :=
  match c.peek? with
  | some '!' =>
    let (name, after) := c.next.span isWordChar
    if after.peek? = some '!' then .ok ('!' :: name ++ ['!'], after.next)
    else if name = [] ∧ (after.peek? = some ' ') then .ok (['!'], after)
    else .error .notYaml
  | _ => .error .notYaml

def tagToken (c : Cursor) : Except Fault (Token × Cursor) := do
  let (token, c) ←
    if c.peekAt? 1 = some '<' then do
      let (suffix, c) ← uri (c.skip 2)
      if c.peek? ≠ some '>' then throw .notYaml
      pure (Token.tag none (String.ofList suffix), c.next)
    else if isGap (c.peekAt? 1) then pure (Token.tag none "!", c.next)
    else
      let name := c.rest.tail.takeWhile fun ch => !isPlainGap (some ch)
      let (handle, c) ← if name.contains '!' then tagHandle c else pure (['!'], c.next)
      let (suffix, c) ← uri c
      pure (Token.tag (some (String.ofList handle)) (String.ofList suffix), c)
  if isPlainGap c.peek? then return (token, c) else throw .notYaml

def number (c : Cursor) : Except Fault (Nat × Cursor) :=
  match c.span Number.isDigit with
  | ([], _) => .error .notYaml
  | (ds, c) => .ok (Number.digitsValue ds, c)

def versionDirective (c : Cursor) : Except Fault (Directive × Cursor) := do
  let (major, c) ← number c.skipSpaces
  if c.peek? ≠ some '.' then throw .notYaml
  let (_, c) ← number c.next
  if isPlainGap c.peek? then return (.version major, c) else throw .notYaml

def tagDirective (c : Cursor) : Except Fault (Directive × Cursor) := do
  let (handle, c) ← tagHandle c.skipSpaces
  if c.peek? ≠ some ' ' then throw .notYaml
  let (replacement, c) ← uri c.skipSpaces
  if isPlainGap c.peek? then
    return (.tag (String.ofList handle) (String.ofList replacement), c)
  else throw .notYaml

/-- A directive with its line, from the percent sign on. -/
def directiveLine (c : Cursor) : Except Fault (Directive × Cursor) := do
  let (name, c) ← word c.next
  if !isPlainGap c.peek? then throw .notYaml
  let (directive, c) ← match String.ofList name with
    | "YAML" => versionDirective c
    | "TAG" => tagDirective c
    | _ => pure (.reserved, c.skipWhile (!isBreak ·))
  match c.skipComment with
  | some c => return (directive, c)
  | none => throw .notYaml

/-! ## The scanner -/

/-- A token that may turn out to be a key. -/
structure KeyMark where
  /-- The number of tokens before it. -/
  before : Nat
  required : Bool
  index : Nat
  line : Nat
  column : Nat

structure Scanner where
  cursor : Cursor
  tokens : Array Token := #[]
  /-- How many brackets are open. -/
  flow : Nat := 0
  indent : Int := -1
  /-- The indentations of the blocks around the current one. -/
  outer : List Int := []
  keyAllowed : Bool := true
  /-- For each number of open brackets the token that may be a key. -/
  keys : List (Nat × KeyMark) := []

namespace Scanner

def push (s : Scanner) (token : Token) : Scanner := { s with tokens := s.tokens.push token }

/-- How far a key may be from its colon. -/
def keyReach : Nat := 1024

/-- Forgets keys that the current place is too far from. -/
def dropStale (s : Scanner) : Except Fault Scanner :=
  let stale := fun (k : KeyMark) => k.line ≠ s.cursor.line || s.cursor.index - k.index > keyReach
  if s.keys.any fun (_, k) => stale k && k.required then .error .notYaml
  else .ok { s with keys := s.keys.filter fun (_, k) => !stale k }

def dropKey (s : Scanner) : Except Fault Scanner :=
  if s.keys.any fun (level, k) => level == s.flow && k.required then .error .notYaml
  else .ok { s with keys := s.keys.filter fun (level, _) => level ≠ s.flow }

/-- The token that comes next may be a key. -/
def markKey (s : Scanner) : Except Fault Scanner :=
  if s.keyAllowed then do
    let required := s.flow == 0 && s.indent == (s.cursor.column : Int)
    let s ← s.dropKey
    let mark : KeyMark :=
      ⟨s.tokens.size, required, s.cursor.index, s.cursor.line, s.cursor.column⟩
    return { s with keys := (s.flow, mark) :: s.keys }
  else .ok s

def unwindFrom (column : Int) (tokens : Array Token) (indent : Int) :
    List Int → Array Token × Int × List Int
  | [] => (tokens, indent, [])
  | i :: outer =>
    if indent > column then unwindFrom column (tokens.push .blockEnd) i outer
    else (tokens, indent, i :: outer)

/-- Closes the blocks that are further in than `column`. -/
def unwind (s : Scanner) (column : Int) : Scanner :=
  if s.flow ≠ 0 then s
  else
    let (tokens, indent, outer) := unwindFrom column s.tokens s.indent s.outer
    { s with tokens, indent, outer }

/-- Opens a block at `column` if that is further in; `token` goes where the token numbered `place` is. -/
def openBlock (s : Scanner) (column place : Nat) (token : Token) : Scanner :=
  if s.indent < (column : Int) then
    { s with
      tokens := (s.tokens.toList.take place ++ token :: s.tokens.toList.drop place).toArray
      outer := s.indent :: s.outer
      indent := column }
  else s

/-- The place of the next token: blanks, comments and line ends are skipped. -/
def skipToToken : Nat → Scanner → Scanner
  | 0, s => s
  | n + 1, s =>
    let c := s.cursor.skipSpaces
    let c := if c.peek? = some '#' then c.skipWhile (!isBreak ·) else c
    if c.peek?.any isBreak then
      skipToToken n { s with
        cursor := c.lineBreak.2
        keyAllowed := if s.flow = 0 then true else s.keyAllowed }
    else { s with cursor := c }

/-- A mark between documents, or a directive: every block ends before it. -/
def documentMark (s : Scanner) : Except Fault Scanner := do
  let s ← (s.unwind (-1)).dropKey
  return { s with keyAllowed := false }

def openFlow (s : Scanner) (token : Token) : Except Fault Scanner := do
  let s ← s.markKey
  return { (s.push token) with
    flow := s.flow + 1, keyAllowed := true, cursor := s.cursor.next }

def closeFlow (s : Scanner) (token : Token) : Except Fault Scanner := do
  let s ← s.dropKey
  if s.flow = 0 then throw .notYaml
  return { (s.push token) with
    flow := s.flow - 1, keyAllowed := false, cursor := s.cursor.next }

def flowEntry (s : Scanner) : Except Fault Scanner := do
  let s ← s.dropKey
  return { (s.push .flowEntry) with keyAllowed := true, cursor := s.cursor.next }

def blockEntry (s : Scanner) : Except Fault Scanner := do
  if s.flow = 0 ∧ !s.keyAllowed then throw .notYaml
  let s := if s.flow = 0 then s.openBlock s.cursor.column s.tokens.size .blockSequence else s
  let s ← s.dropKey
  return { (s.push .blockEntry) with keyAllowed := true, cursor := s.cursor.next }

def explicitKey (s : Scanner) : Except Fault Scanner := do
  if s.flow = 0 ∧ !s.keyAllowed then throw .notYaml
  let s := if s.flow = 0 then s.openBlock s.cursor.column s.tokens.size .blockMapping else s
  let s ← s.dropKey
  return { (s.push .key) with keyAllowed := s.flow == 0, cursor := s.cursor.next }

/-- A colon: the token that may be a key is one, or the colon follows an explicit key. -/
def valueMark (s : Scanner) : Except Fault Scanner := do
  match s.keys.lookup s.flow with
  | some k =>
    let s := { s with
      keys := s.keys.filter fun (level, _) => level ≠ s.flow
      tokens := (s.tokens.toList.take k.before ++ Token.key :: s.tokens.toList.drop k.before).toArray
      keyAllowed := false }
    let s := if s.flow = 0 then s.openBlock k.column k.before .blockMapping else s
    return { (s.push .value) with cursor := s.cursor.next }
  | none =>
    if s.flow = 0 ∧ !s.keyAllowed then throw .notYaml
    let s := if s.flow = 0 then s.openBlock s.cursor.column s.tokens.size .blockMapping else s
    let s ← { s with keyAllowed := s.flow == 0 }.dropKey
    return { (s.push .value) with cursor := s.cursor.next }

/-- A token that may be a key: an alias, an anchor, a tag or a scalar. -/
def keyToken (s : Scanner) (read : Cursor → Except Fault (Token × Cursor)) :
    Except Fault Scanner := do
  let s ← s.markKey
  let (token, cursor) ← read s.cursor
  return { (s.push token) with keyAllowed := false, cursor }

def block (s : Scanner) (fold : Bool) : Except Fault Scanner := do
  let s ← { s with keyAllowed := true }.dropKey
  let (text, cursor) ← blockScalar fold s.indent s.cursor.next
  return { (s.push (.scalar false (String.ofList text))) with cursor }

def quoted (double : Bool) (c : Cursor) : Except Fault (Token × Cursor) := do
  let (text, c) ← quotedScalar double (c.rest.length + 1) [] c.next
  return (.scalar false (String.ofList text), c)

def named (make : String → Token) (c : Cursor) : Except Fault (Token × Cursor) := do
  let (name, c) ← anchorName c.next
  return (make (String.ofList name), c)

def plain (s : Scanner) : Except Fault Scanner := do
  let s ← s.markKey
  let (text, cursor, newLine) :=
    plainScalar (s.flow ≠ 0) (s.indent + 1) (s.cursor.rest.length + 1) [] ⟨[], false, s.cursor⟩
  return { (s.push (.scalar true (String.ofList text))) with keyAllowed := newLine, cursor }

/-- Marks that begin no plain scalar. -/
def marks : List Char := "-?:,[]\x7b\x7d#&*!|>'\"%@`".toList

def startsPlain (s : Scanner) (ch : Char) : Bool :=
  (!isGap (some ch) && !marks.contains ch) ||
    (!isGap (s.cursor.peekAt? 1) && (ch == '-' || (s.flow == 0 && (ch == '?' || ch == ':'))))

/-- Scans the token at the cursor, whose first character is `ch`. -/
def token (s : Scanner) (ch : Char) : Except Fault Scanner := do
  let c := s.cursor
  let alone := s.flow ≠ 0 || isGap (c.peekAt? 1)
  if ch = '%' ∧ c.column = 0 then
    let s ← s.documentMark
    let (directive, cursor) ← directiveLine s.cursor
    return { (s.push (.directive directive)) with cursor }
  else if c.column = 0 ∧ c.isMarker ['-', '-', '-'] then
    let s ← s.documentMark
    return { (s.push .documentStart) with cursor := c.skip 3 }
  else if c.column = 0 ∧ c.isMarker ['.', '.', '.'] then
    let s ← s.documentMark
    return { (s.push .documentEnd) with cursor := c.skip 3 }
  else if ch = '[' then s.openFlow .flowSequence
  else if ch = '{' then s.openFlow .flowMapping
  else if ch = ']' then s.closeFlow .flowSequenceEnd
  else if ch = '}' then s.closeFlow .flowMappingEnd
  else if ch = ',' then s.flowEntry
  else if ch = '-' ∧ isGap (c.peekAt? 1) then s.blockEntry
  else if ch = '?' ∧ alone then s.explicitKey
  else if ch = ':' ∧ alone then s.valueMark
  else if ch = '*' then s.keyToken (named .alias)
  else if ch = '&' then s.keyToken (named .anchor)
  else if ch = '!' then s.keyToken tagToken
  else if ch = '|' ∧ s.flow = 0 then s.block false
  else if ch = '>' ∧ s.flow = 0 then s.block true
  else if ch = '\'' then s.keyToken (quoted false)
  else if ch = '"' then s.keyToken (quoted true)
  else if s.startsPlain ch then s.plain
  else throw .notYaml

def run : Nat → Scanner → Except Fault Scanner
  | 0, _ => .error .notYaml
  | n + 1, s => do
    let s ← (skipToToken (s.cursor.rest.length + 1) s).dropStale
    let s := s.unwind s.cursor.column
    match s.cursor.peek? with
    | none => (s.unwind (-1)).dropKey
    | some ch => run n (← s.token ch)

end Scanner

/-- The characters a YAML text may hold. -/
def isYamlChar (c : Char) : Bool :=
  let n := c.toNat
  n == 9 || n == 10 || n == 13 || (32 ≤ n && n ≤ 126) || n == 0x85 ||
    (0xA0 ≤ n && n ≤ 0xFFFD) || 0x10000 ≤ n

def tokens (cs : List Char) : Except Fault (List Token) :=
  if !cs.all isYamlChar then .error .notYaml
  else
    let cursor : Cursor := { rest := cs }
    let cursor := if cursor.peek? = some Cursor.byteOrderMark then cursor.next else cursor
    (Scanner.run (cs.length + 2) { cursor }).map (·.tokens.toList)

end StaticSite.Yaml
