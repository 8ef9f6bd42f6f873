import StaticSite.Number.Reading
import StaticSite.Template.Fault
import StaticSite.Template.Settings
import StaticSite.Text.Digit
import StaticSite.Text.Half
import StaticSite.Text.NameTable

/-!
# Tokens of a template

`Token.ofText marks text` splits a template into plain text and the tokens inside its tags. Comments are
dropped, and what stands between `raw` and `endraw` is plain text. Of the marks that begin a tag the
first in the text counts, and of several at one place the longest. A minus next to a mark drops the blanks on
its outer side.
-/

namespace StaticSite.Template

inductive Token where
  | data (s : String)
  | outputStart
  | outputEnd
  | blockStart
  | blockEnd
  | name (s : String)
  | text (s : String)
  | int (n : Nat)
  | float (x : Binary64)
  /-- An operator, a bracket or a separator. -/
  | mark (s : String)
  deriving DecidableEq, Repr, Inhabited

/-- A token with the line that it stands on. -/
structure Lexeme where
  line : Nat
  token : Token
  deriving Repr, Inhabited

namespace Token

open Text (isBlank)

def skipBlanks (cs : List Char) : List Char := cs.dropWhile isBlank

/-- What is left of `cs` behind `start`, if it begins so. -/
def behind? (start cs : List Char) : Option (List Char) :=
  if start.isPrefixOf cs then some (cs.drop start.length) else none

/-! ## Where tags begin and end -/

inductive Opening where
  | raw
  | comment
  | block
  | output
  deriving DecidableEq, Repr

/-- The sign of a mark and what follows it. -/
def sign : List Char → Option Char × List Char
  | '-' :: cs => (some '-', cs)
  | '+' :: cs => (some '+', cs)
  | cs => (none, cs)

/-- What follows the end of a block tag. -/
def blockEnd? (m : Marks) (cs : List Char) : Option (List Char) :=
  match behind? ('+' :: m.blockEnd) cs with
  | some rest => some rest
  | none => match behind? ('-' :: m.blockEnd) cs with
    | some rest => some (skipBlanks rest)
    | none => (behind? m.blockEnd cs).map fun rest => match m.trim, rest with
      | true, '\n' :: rest => rest
      | _, rest => rest

def outputEnd? (m : Marks) (cs : List Char) : Option (List Char) :=
  match behind? ('-' :: m.outputEnd) cs with
  | some rest => some (skipBlanks rest)
  | none => behind? m.outputEnd cs

def commentEnd? (m : Marks) (cs : List Char) : Option (List Char) :=
  blockEnd? { m with blockEnd := m.commentEnd } cs

/-- The sign of a block tag that holds only the given word, and what follows the word. -/
def loneWord? (m : Marks) (word : String) (cs : List Char) :
    Option (Option Char × List Char) := do
  let (s, rest) := sign (← behind? m.blockStart cs)
  return (s, skipBlanks (← behind? word.toList (skipBlanks rest)))

/-- The tag that begins a raw section: its sign and what follows it. -/
def rawStart? (m : Marks) (cs : List Char) : Option (Option Char × List Char) := do
  let (s, rest) ← loneWord? m "raw" cs
  match behind? ('-' :: m.blockEnd) rest with
  | some rest => return (s, skipBlanks rest)
  | none => return (s, ← behind? m.blockEnd rest)

/-- The tag that ends a raw section. -/
def rawEnd? (m : Marks) (cs : List Char) : Option (Option Char × List Char) := do
  let (s, rest) ← loneWord? m "endraw" cs
  return (s, ← blockEnd? m rest)

/-- Puts an opening before those whose marks are no longer. -/
def insertOpening (o : Opening × List Char) : List (Opening × List Char) → List (Opening × List Char)
  | [] => [o]
  | p :: rest => if p.2.length ≤ o.2.length then o :: p :: rest else p :: insertOpening o rest

/-- The openings with their marks, longer marks first. -/
def openings (m : Marks) : List (Opening × List Char) :=
  [(.output, m.outputStart), (.comment, m.commentStart), (.block, m.blockStart)].foldr insertOpening []

/-- The opening at the beginning of `cs`, its sign, and what follows it. -/
def opening? (m : Marks) (cs : List Char) : Option (Opening × Option Char × List Char) :=
  match rawStart? m cs with
  | some (s, rest) => some (.raw, s, rest)
  | none => (openings m).findSome? fun (o, start) =>
    (behind? start cs).map fun rest => (o, sign rest)

/-- The characters before the first place where `here` finds something, and what it finds. -/
def find? {α : Type} (here : List Char → Option α) (cs : List Char) : Option (List Char × α) :=
  match here cs, cs with
  | some a, _ => some ([], a)
  | none, [] => none
  | none, c :: cs => (find? here cs).map fun (before, a) => (c :: before, a)

/-! ## Blanks around tags -/

def dropBlanksAtEnd (cs : List Char) : List Char := (cs.reverse.dropWhile isBlank).reverse

/-- The part of `cs` behind its last line end. -/
def lastLine (cs : List Char) : List Char := (cs.reverse.takeWhile (· ≠ '\n')).reverse

/-- The text before a tag without the blanks that the tag drops; `lineStart` says that the text begins a
line. -/
def textBefore (m : Marks) (lineStart : Bool) (o : Opening) (s : Option Char) (cs : List Char) :
    List Char :=
  let last := lastLine cs
  if s = some '-' then dropBlanksAtEnd cs
  else if s ≠ some '+' ∧ m.trim ∧ o ≠ .output ∧ (lineStart ∨ '\n' ∈ cs) ∧ last.all isBlank then
    cs.take (cs.length - last.length)
  else cs

/-! ## Words, numbers and texts -/

def isDigit (c : Char) : Bool := '0' ≤ c && c ≤ '9'

/-- Digits with single underscores between them; `first` says that none was read yet. -/
def digits (p : Char → Bool) (first : Bool) : List Char → List Char × List Char
  | [] => ([], [])
  | c :: cs =>
    if p c then let (ds, rest) := digits p false cs; (c :: ds, rest)
    else match c == '_' && !first, cs with
      | true, d :: _ => if p d then digits p true cs else ([], c :: cs)
      | _, _ => ([], c :: cs)

/-- The digits after an `e`, with their sign. -/
def exponent? : List Char → Option (List Char × List Char)
  | e :: cs =>
    if e ≠ 'e' ∧ e ≠ 'E' then none
    else
      let (s, rest) := sign cs
      match digits isDigit true rest with
      | ([], _) => none
      | (ds, rest) => some ('e' :: s.toList ++ ds, rest)
  | [] => none

def fraction? : List Char → Option (List Char × List Char)
  | '.' :: cs => match digits isDigit true cs with
    | ([], _) => none
    | (ds, rest) => some ('.' :: ds, rest)
  | _ => none

/-- A number with a fraction or an exponent. -/
def float? (cs : List Char) : Option (List Char × List Char) :=
  match digits isDigit true cs with
  | ([], _) => none
  | (whole, rest) => match fraction? rest with
    | some (part, rest) => match exponent? rest with
      | some (power, rest) => some (whole ++ part ++ power, rest)
      | none => some (whole ++ part, rest)
    | none => (exponent? rest).map fun (power, rest) => (whole ++ power, rest)

def valueIn (base : Nat) (ds : List Char) : Nat :=
  ds.foldl (fun n d => n * base + Number.digitValue d) 0

/-- The digits of a number in a base other than ten. -/
def based? (base : Nat) (cs : List Char) : Option (Nat × List Char) :=
  let cs := match cs with
    | '_' :: cs => cs
    | cs => cs
  match digits (fun c => c.isAlphanum && Number.digitValue c < base) true cs with
  | ([], _) => none
  | (ds, rest) => some (valueIn base ds, rest)

/-- A number without fraction and exponent. -/
def int? (cs : List Char) : Option (Nat × List Char) :=
  match cs with
  | '0' :: rest =>
    let marked := match rest with
      | b :: rest =>
        if b = 'b' ∨ b = 'B' then based? 2 rest
        else if b = 'o' ∨ b = 'O' then based? 8 rest
        else if b = 'x' ∨ b = 'X' then based? 16 rest
        else none
      | [] => none
    match marked with
    | some found => some found
    | none => some (0, (digits (· == '0') true cs).2)
  | c :: _ =>
    if isDigit c then
      let (ds, rest) := digits (fun c => (Text.digit? c).isSome) true cs
      some (valueIn 10 (ds.map Number.plainDigit), rest)
    else none
  | [] => none

/-- The number of digits of an integer in base ten, if there are too many; `cs` is how it is written. -/
def excess? (t : Token) (cs : List Char) : Option Nat :=
  let count := cs.countP fun c => (Text.digit? c).isSome
  if (t matches .int _) && cs.all (fun c => c == '_' || (Text.digit? c).isSome) &&
      Number.maxDigits < count then
    some count
  else none

/-- A text between quotation marks: the characters up to the closing mark, and what follows it. -/
def quoted? (mark : Char) : List Char → Option (List Char × List Char)
  | [] => none
  | '\\' :: c :: cs => (quoted? mark cs).map fun (s, rest) => ('\\' :: c :: s, rest)
  | c :: cs => if c = mark then some ([], cs) else
    (quoted? mark cs).map fun (s, rest) => (c :: s, rest)

/-- Every character beyond ASCII as an escape. -/
def spelled (c : Char) : List Char :=
  let n := c.toNat
  if n < 0x80 then [c]
  else if n < 0x100 then '\\' :: 'x' :: Text.hexDigits 2 n
  else if n < 0x10000 then '\\' :: 'u' :: Text.hexDigits 4 n
  else '\\' :: 'U' :: Text.hexDigits 8 n

def hexValue? (ds : List Char) : Option Nat :=
  ds.foldlM (fun n d =>
    if d.isAlphanum ∧ Number.digitValue d < 16 then some (n * 16 + Number.digitValue d)
    else none) 0

def simpleEscapes : List (Char × Char) :=
  [('\\', '\\'), ('\'', '\''), ('"', '"'), ('a', '\x07'), ('b', '\x08'), ('f', '\x0c'),
    ('n', '\n'), ('r', '\r'), ('t', '\t'), ('v', '\x0b')]

def isOctal (c : Char) : Bool := '0' ≤ c && c ≤ '7'

/-- What the text after a backslash begins with, and what follows; none if it is no escape. -/
def unescapeOne? : List Char → Option (List Char × List Char)
  | [] => none
  | '\n' :: cs => some ([], cs)
  | c :: cs =>
    let coded (width : Nat) :=
      if cs.length < width then none
      else match hexValue? (cs.take width) with
        | some n => if n < 0x110000 then some ([Text.ofCode n], cs.drop width) else none
        | none => none
    match simpleEscapes.lookup c with
    | some d => some ([d], cs)
    | none =>
      if isOctal c then
        let more := (cs.take 2).takeWhile isOctal
        some ([Text.ofCode (valueIn 8 (c :: more))], cs.drop more.length)
      else if c = 'x' then coded 2
      else if c = 'u' then coded 4
      else if c = 'U' then coded 8
      else if c = 'N' then none
      else some (['\\', c], cs)

/-- A text with its escapes replaced. -/
def unescape (cs : List Char) : Option (List Char) :=
  match cs with
  | [] => some []
  | '\\' :: after => match unescapeOne? after with
    | none => none
    | some (found, rest) =>
      if rest.length < after.length + 1 then (unescape rest).map (found ++ ·) else none
  | c :: rest => (unescape rest).map (c :: ·)
termination_by cs.length

def longMarks : List String := ["//", "**", "==", "!=", ">=", "<="]

def shortMarks : List Char :=
  ['+', '-', '/', '*', '%', '~', '[', ']', '(', ')', '\x7b', '\x7d', '>', '<', '=', '.', ':',
    '|', ',', ';']

def mark? (cs : List Char) : Option (String × List Char) :=
  match longMarks.find? fun s => s.toList.isPrefixOf cs with
  | some s => some (s, cs.drop 2)
  | none => match cs with
    | c :: rest => if c ∈ shortMarks then some (c.toString, rest) else none
    | [] => none

/-- The token at the beginning of `cs`, which is no blank, and what follows it; directly behind a point
there is no fraction. -/
def first? (afterPoint : Bool) (cs : List Char) : Option (Token × List Char) :=
  match if afterPoint then none else float? cs with
  | some (ds, rest) => match Number.readReal (String.ofList ds) with
    | .ok x => some (.float x, rest)
    | .error _ => none
  | none => match int? cs with
    | some (n, rest) => some (.int n, rest)
    | none => match cs with
      | [] => none
      | c :: rest =>
        if Text.isNameStart c then
          some (.name (String.ofList (cs.takeWhile Text.isNameChar)),
            cs.dropWhile Text.isNameChar)
        else if c = '\'' ∨ c = '"' then do
          let (s, rest) ← quoted? c rest
          return (.text (String.ofList (← unescape (s.flatMap spelled))), rest)
        else (mark? cs).map fun (s, rest) => (.mark s, rest)

/-! ## Tags -/

/-- The brackets that are open after a token; none if it closes another one than the last. -/
def brackets? (opened : List String) : Token → Option (List String)
  | .mark "(" => some (")" :: opened)
  | .mark "[" => some ("]" :: opened)
  | .mark "\x7b" => some ("\x7d" :: opened)
  | .mark s =>
    if s = ")" ∨ s = "]" ∨ s = "\x7d" then match opened with
      | b :: opened => if b = s then some opened else none
      | [] => none
    else some opened
  | _ => some opened

def lineEnds (cs : List Char) : Nat := cs.count '\n'

theorem length_skipBlanks_le (cs : List Char) : (skipBlanks cs).length ≤ cs.length :=
  (List.dropWhile_suffix isBlank).length_le

/-- The tokens of a tag up to its end, which `isEnd?` finds outside of all brackets, and what follows; a
tag may be broken off by the end of the template. An end is looked for at tokens only, and the blanks
between two tokens are one. -/
def tag (isEnd? : List Char → Option (List Char)) (close : Token) (line : Nat)
    (opened : List String) (afterPoint : Bool) (cs : List Char) :
    Except Fault (List Lexeme × List Char) :=
  match if opened.isEmpty then isEnd? cs else none with
  | some rest => .ok ([⟨line, close⟩], rest)
  | none => match cs with
    | [] => .ok ([], [])
    | c :: after =>
      if isBlank c then
        let passed := c :: after.takeWhile isBlank
        tag isEnd? close (line + lineEnds passed) opened false (skipBlanks after)
      else match first? afterPoint (c :: after) with
        | none => .error (.malformed "unexpected character")
        | some (token, rest) => match brackets? opened token with
          | none => .error (.malformed "unexpected bracket")
          | some opened =>
            if rest.length < after.length + 1 then do
              let passed := (c :: after).take (after.length + 1 - rest.length)
              match excess? token passed with
              | some count => throw (.tooManyDigits count)
              | none => pure ()
              let (more, left) ← tag isEnd? close (line + lineEnds passed) opened
                (token == .mark ".") rest
              return (⟨line, token⟩ :: more, left)
            else .error (.malformed "unexpected character")
termination_by cs.length
decreasing_by
  · exact Nat.lt_succ_of_le (length_skipBlanks_le after)
  · assumption

/-- What follows a comment or a raw section, with the lexemes it gives. -/
def section? {α : Type} (isEnd? : List Char → Option α) (problem : String) (cs : List Char) :
    Except Fault (Option (List Char × α)) :=
  match find? isEnd? cs, cs with
  | some found, _ => .ok (some found)
  | none, [] => .ok none
  | none, _ :: _ => .error (.malformed problem)

/-- The lexemes of one tag behind its opening, and what follows it. -/
def tagLexemes (m : Marks) (o : Opening) (line : Nat) (rest : List Char) (lineStart : Bool) :
    Except Fault (List Lexeme × List Char) :=
  match o with
  | .comment => do
    match ← section? (commentEnd? m) "Missing end of comment tag" rest with
    | some (_, rest) => return ([], rest)
    | none => return ([], [])
  | .raw => do
    match ← section? (rawEnd? m) "Missing end of raw directive" rest with
    | some (inner, s, rest) =>
      let inner := textBefore m lineStart .raw s inner
      return ([⟨line, .data (String.ofList inner)⟩], rest)
    | none => return ([], [])
  | .block => do
    let (found, rest) ← tag (blockEnd? m) .blockEnd line [] false rest
    return (⟨line, .blockStart⟩ :: found, rest)
  | .output => do
    let (found, rest) ← tag (outputEnd? m) .outputEnd line [] false rest
    return (⟨line, .outputStart⟩ :: found, rest)

/-- Whether the characters passed between `cs` and `rest` end a line. -/
def endsLine (cs rest : List Char) : Bool :=
  (cs.take (cs.length - rest.length)).getLast? == some '\n'

def lexemes (m : Marks) (line : Nat) (lineStart : Bool) (cs : List Char) :
    Except Fault (List Lexeme) :=
  match find? (opening? m) cs with
  | none => .ok (if cs.isEmpty then [] else [⟨line, .data (String.ofList cs)⟩])
  | some (before, o, s, behind) => do
    let shown := textBefore m lineStart o s before
    let data := if shown.isEmpty then [] else [⟨line, .data (String.ofList shown)⟩]
    let opened := line + lineEnds (cs.take (cs.length - behind.length))
    let (found, rest) ← tagLexemes m o opened behind (endsLine cs behind)
    if rest.length < cs.length then
      let passed := line + lineEnds (cs.take (cs.length - rest.length))
      return data ++ found ++ (← lexemes m passed (endsLine cs rest) rest)
    else throw (.malformed "empty tag")
termination_by cs.length

/-- The tokens of a template. -/
def ofText (m : Marks) (s : String) : Except Fault (List Lexeme) := lexemes m 1 true s.toList

end Token

end StaticSite.Template
