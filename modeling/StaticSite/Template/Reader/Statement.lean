import StaticSite.Template.Reader.Expr

/-!
# Reading statements

`statements n ends` reads statements up to a tag whose name is in `ends`, or up to the end of the template,
and leaves that name to its caller; `n` bounds how many tags follow or enclose each other.
-/

namespace StaticSite.Template

namespace Reader

def reserved : List String := ["true", "false", "none", "True", "False", "None"]

mutual

/-- An expression as what takes a value. -/
def targetOf? : Expr → Option Target
  | .name s => if s ∈ reserved then none else some (.name s)
  | .tuple items => (targetsOf? items).map .tuple
  | _ => none

def targetsOf? : List Expr → Option (List Target)
  | [] => some []
  | e :: es => do return (← targetOf? e) :: (← targetsOf? es)

end

def beginsItems (t : Option Token) : Bool := t = some (.name "in") || endsTuple t

def target (isEnd : Option Token → Bool) : Reader Target := do
  match targetOf? (← tuple (operand expression) isEnd) with
  | some t => return t
  | none => fail "cannot assign to this expression"

/-- What `set` gives a value to. -/
def setTarget : Reader Target := do
  match ← peek?, ← peekSecond? with
  | some (.name s), some (.mark ".") =>
    skip
    skip
    return .field s (← expectName)
  | _, _ => target endsTuple

/-- The statements inside a tag, whose end is still to come, up to one of the given tags. -/
def inside (body : List String → Reader (List Statement)) (ends : List String) :
    Reader (List Statement) := do
  let _ ← accept (.mark ":")
  expect .blockEnd
  let found ← body ends
  if (← peek?).isNone then fail "unexpected end of template"
  return found

/-- As `inside`, with the name of the closing tag. -/
def upTo (body : List String → Reader (List Statement)) (close : String) :
    Reader (List Statement) := do
  let found ← inside body [close]
  skip
  return found

def branches (body : List String → Reader (List Statement)) :
    Nat → Reader (List (Expr × List Statement) × List Statement)
  | 0 => fail "unexpected end"
  | n + 1 => do
    let test ← condition
    let found ← inside body ["elif", "else", "endif"]
    let close ← expectName
    if close = "elif" then
      let (more, otherwise) ← branches body n
      return ((test, found) :: more, otherwise)
    else if close = "else" then return ([(test, found)], ← upTo body "endif")
    else return ([(test, found)], [])

def loop (body : List String → Reader (List Statement)) : Reader Statement := do
  let t ← target beginsItems
  expect (.name "in")
  let items ← condition fun t => t = some (.name "recursive") || endsTuple t
  let test ← if ← accept (.name "if") then pure (some (← expression)) else pure none
  let found ← inside body ["endfor", "else"]
  let close ← expectName
  let otherwise ← if close = "else" then upTo body "endfor" else pure []
  return .loop t items test found otherwise

def assignment (body : List String → Reader (List Statement)) : Reader Statement := do
  let t ← setTarget
  if ← accept (.mark "=") then return .assign t (← expressions)
  else return .capture t (← upTo body "endset")

def block (body : List String → Reader (List Statement)) : Reader Statement := do
  let name ← expectName
  let seesLoops ← accept (.name "scoped")
  let found ← upTo body "endblock"
  let _ ← accept (.name name)
  return .block name seesLoops found

def embed : Reader Statement := do
  let e ← expression
  match ← peek?, ← peekSecond? with
  | some (.name "ignore"), some (.name "missing") =>
    skip
    skip
    return .embed e true
  | _, _ => return .embed e false

/-- The statement of a tag, up to the end of its last tag. -/
def statement (body : List String → Reader (List Statement)) : Reader Statement := do
  match ← expectName with
  | "if" =>
    let (found, otherwise) ← branches body ((← get).length + 1)
    return .branch found otherwise
  | "for" => loop body
  | "set" => assignment body
  | "block" => block body
  | "include" => embed
  | "extends" => return .extend (← expression)
  | _ => fail "unknown tag"

def statements : Nat → List String → Reader (List Statement)
  | 0, _ => fail "unexpected end"
  | n + 1, ends => do
    let t ← peek?
    match t with
    | none => return []
    | some (.data s) =>
      skip
      return .data s :: (← statements n ends)
    | some .outputStart =>
      skip
      let e ← expressions
      expect .outputEnd
      return .output e :: (← statements n ends)
    | some .blockStart =>
      skip
      match ← peek? with
      | some (.name s) =>
        if s ∈ ends then return []
        let found ← statement (statements n)
        expect .blockEnd
        return found :: (← statements n ends)
      | _ => fail "expected a tag"
    | some _ => fail "unexpected token"

end Reader

/-- The statements of a list of lexemes. -/
def statementsOf (lexemes : List Lexeme) : Except Fault (List Statement) := do
  return (← (Reader.statements (lexemes.length + 1) []).run lexemes).1

end StaticSite.Template
