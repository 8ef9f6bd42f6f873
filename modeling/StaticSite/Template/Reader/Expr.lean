import StaticSite.Template.Expr
import StaticSite.Template.Reader.Basic

/-!
# Reading expressions

One reader for each level of binding, from loose to tight: choice, `or`, `and`, `not`, comparison, sum,
joining with `~`, product, sign and filter, part. Each takes the reader `inner` for whole expressions
in brackets.
-/

namespace StaticSite.Template

namespace Reader

/-! ## Operands -/

/-- Items between commas up to a token that `isEnd` accepts, and whether there was a comma. -/
def sequence (item : Reader Expr) (isEnd : Option Token → Bool) : Nat → Reader (List Expr × Bool)
  | 0 => fail "unexpected end"
  | n + 1 => do
    if isEnd (← peek?) then return ([], false)
    let e ← item
    if ← accept (.mark ",") then return (e :: (← sequence item isEnd n).1, true)
    else return ([e], false)

def endsTuple : Option Token → Bool
  | some .outputEnd => true
  | some .blockEnd => true
  | some (.mark ")") => true
  | _ => false

/-- One expression, or several with commas as a tuple; nothing is a tuple only in brackets. -/
def tuple (item : Reader Expr) (isEnd : Option Token → Bool) (inBrackets : Bool := false) :
    Reader Expr := do
  match ← sequence item isEnd ((← get).length + 1) with
  | (items, true) => return .tuple items
  | (e :: _, false) => return e
  | ([], false) => if inBrackets then return .tuple [] else fail "expected an expression"

def word (s : String) : Expr :=
  if s = "true" ∨ s = "True" then .literal (.bool true)
  else if s = "false" ∨ s = "False" then .literal (.bool false)
  else if s = "none" ∨ s = "None" then .literal (.plain .null)
  else .name s

/-- Texts that stand next to each other are one. -/
def moreText (s : String) : Reader (Option String) := do
  match ← peek? with
  | some (.text t) =>
    skip
    return some (s ++ t)
  | _ => return none

def entry (inner : Reader Expr) : Reader (Expr × Expr) := do
  let k ← inner
  expect (.mark ":")
  return (k, ← inner)

def operand (inner : Reader Expr) : Reader Expr := do
  let t ← peek?
  skip
  match t with
  | some (.name s) => return word s
  | some (.text s) => return .literal (.text (← steps moreText s))
  | some (.int n) => return .literal (.int n)
  | some (.float x) => return .literal (.plain (.float x))
  | some (.mark "(") =>
    let e ← tuple inner endsTuple true
    expect (.mark ")")
    return e
  | some (.mark "[") => return .list (← listed inner "]")
  | some (.mark "\x7b") => return .map (← listed (entry inner) "\x7d")
  | _ => fail "expected an expression"

/-! ## Parts, calls and filters -/

/-- An argument with its name, if it has one. -/
def argument (inner : Reader Expr) : Reader (Option String × Expr) := do
  match ← peek?, ← peekSecond? with
  | some (.name s), some (.mark "=") =>
    skip
    skip
    return (some s, ← inner)
  | _, _ => return (none, ← inner)

/-- The arguments behind an opening bracket, those with a name last. -/
def arguments (inner : Reader Expr) : Reader (List Expr × List (String × Expr)) := do
  let args ← listed (argument inner) ")"
  let (plain, rest) := args.span fun a => a.1.isNone
  let named := rest.filterMap fun (s, e) => s.map (·, e)
  if named.length = rest.length then return (plain.map (·.2), named)
  else fail "invalid arguments"

def optionalArguments (inner : Reader Expr) : Reader (List Expr × List (String × Expr)) := do
  if ← accept (.mark "(") then arguments inner else return ([], [])

/-- A field, a part or a call of `e`, if one follows. -/
def morePart (inner : Reader Expr) (e : Expr) : Reader (Option Expr) := do
  if ← accept (.mark ".") then
    match ← peek? with
    | some (.name s) =>
      skip
      return some (.field e s)
    | some (.int n) =>
      skip
      return some (.part e (.literal (.int n)))
    | _ => fail "expected name or number"
  else if ← accept (.mark "[") then
    match ← listed inner "]" false with
    | [key] => return some (.part e key)
    | keys => return some (.part e (.tuple keys))
  else if ← accept (.mark "(") then
    let (args, named) ← arguments inner
    return some (.call e args named)
  else return none

def moreName (s : String) : Reader (Option String) := do
  if ← accept (.mark ".") then return some (s ++ "." ++ (← expectName)) else return none

def dottedName : Reader String := do steps moreName (← expectName)

/-- A token that the argument of a test can begin with. -/
def beginsArgument : Option Token → Bool
  | some (.name s) => s ≠ "else" && s ≠ "or" && s ≠ "and"
  | some (.text _) => true
  | some (.int _) => true
  | some (.float _) => true
  | some (.mark s) => s = "[" || s = "\x7b"
  | _ => false

def test (inner : Reader Expr) (e : Expr) : Reader Expr := do
  let negated ← accept (.name "not")
  let name ← dottedName
  let (args, named) ←
    if beginsArgument (← peek?) then do
      if (← peek?) = some (.name "is") then fail "tests cannot be chained"
      pure ([← steps (morePart inner) (← operand inner)], [])
    else optionalArguments inner
  let found := Expr.test e name args named
  return if negated then .not found else found

/-- A filter, a test or a call of `e`, if one follows. -/
def moreFilter (inner : Reader Expr) (e : Expr) : Reader (Option Expr) := do
  if ← accept (.mark "|") then
    let name ← dottedName
    let (args, named) ← optionalArguments inner
    return some (.filter e name args named)
  else if ← accept (.name "is") then return some (← test inner e)
  else if ← accept (.mark "(") then
    let (args, named) ← arguments inner
    return some (.call e args named)
  else return none

/-! ## Operators -/

def moreSign (signs : List Bool) : Reader (Option (List Bool)) := do
  if ← accept (.mark "-") then return some (true :: signs)
  else if ← accept (.mark "+") then return some (false :: signs)
  else return none

def factor (inner : Reader Expr) : Reader Expr := do
  let signs ← steps moreSign []
  let e ← steps (morePart inner) (← operand inner)
  steps (moreFilter inner) (signs.foldl (fun e negative => .signed negative e) e)

/-- An operation on `a` with one of the operators given by their marks, if one follows. -/
def moreOperation (operators : List (String × Operator)) (next : Reader Expr) (a : Expr) :
    Reader (Option Expr) := do
  match ← peek? with
  | some (.mark s) => match operators.lookup s with
    | some op =>
      skip
      return some (.operate op a (← next))
    | none => return none
  | _ => return none

def product (inner : Reader Expr) : Reader Expr := do
  steps (moreOperation [("*", .mul), ("/", .div)] (factor inner)) (← factor inner)

def moreJoined (inner : Reader Expr) (es : List Expr) : Reader (Option (List Expr)) := do
  if ← accept (.mark "~") then return some (es ++ [← product inner]) else return none

def joined (inner : Reader Expr) : Reader Expr := do
  match ← steps (moreJoined inner) [← product inner] with
  | [e] => return e
  | es => return .join es

def sum (inner : Reader Expr) : Reader Expr := do
  steps (moreOperation [("+", .add), ("-", .sub)] (joined inner)) (← joined inner)

def comparisons : List (String × Comparison) :=
  [("==", .eq), ("!=", .ne), ("<", .lt), ("<=", .le), (">", .gt), (">=", .ge)]

/-- A comparison, if one follows. -/
def comparison? : Reader (Option Comparison) := do
  match ← peek?, ← peekSecond? with
  | some (.mark s), _ => match comparisons.lookup s with
    | some c =>
      skip
      return some c
    | none => return none
  | some (.name "in"), _ =>
    skip
    return some .mem
  | some (.name "not"), some (.name "in") =>
    skip
    skip
    return some .notMem
  | _, _ => return none

def moreCompared (inner : Reader Expr) (rest : List (Comparison × Expr)) :
    Reader (Option (List (Comparison × Expr))) := do
  match ← comparison? with
  | some c => return some (rest ++ [(c, ← sum inner)])
  | none => return none

def compared (inner : Reader Expr) : Reader Expr := do
  let e ← sum inner
  match ← steps (moreCompared inner) [] with
  | [] => return e
  | rest => return .compare e rest

def moreNot (n : Nat) : Reader (Option Nat) := do
  if ← accept (.name "not") then return some (n + 1) else return none

def negated (inner : Reader Expr) : Reader Expr := do
  let n ← steps moreNot 0
  return n.repeat .not (← compared inner)

def moreAnd (inner : Reader Expr) (a : Expr) : Reader (Option Expr) := do
  if ← accept (.name "and") then return some (.and a (← negated inner)) else return none

def conjunction (inner : Reader Expr) : Reader Expr := do
  steps (moreAnd inner) (← negated inner)

def moreOr (inner : Reader Expr) (a : Expr) : Reader (Option Expr) := do
  if ← accept (.name "or") then return some (.or a (← conjunction inner)) else return none

/-- An expression without a choice at its top. -/
def disjunction (inner : Reader Expr) : Reader Expr := do
  steps (moreOr inner) (← conjunction inner)

def moreChoice (inner : Reader Expr) (e : Expr × Nat) : Reader (Option (Expr × Nat)) := do
  if ← accept (.name "if") then
    let condition ← disjunction inner
    let no ← if ← accept (.name "else") then inner else pure (.noBranch e.2)
    return some (.choose condition e.1 no, ← line)
  else return none

def choice (inner : Reader Expr) : Reader Expr := do
  let start ← line
  return (← steps (moreChoice inner) (← disjunction inner, start)).1

/-- An expression with brackets nested at most `n` deep. -/
def expressionWithin : Nat → Reader Expr
  | 0 => fail "unexpected end"
  | n + 1 => choice (expressionWithin n)

def expression : Reader Expr := do expressionWithin ((← get).length + 1)

/-- A condition, or the items of a loop: no choice at the top. -/
def condition (isEnd : Option Token → Bool := endsTuple) : Reader Expr := tuple (disjunction expression) isEnd

/-- One expression or a tuple. -/
def expressions : Reader Expr := tuple expression endsTuple

end Reader

end StaticSite.Template
