import StaticSite.Template.Token

/-!
# Reading lexemes

A reader takes lexemes from the front of a list, or fails. The readers here take single tokens and repeat
others; no reader takes more lexemes than there are.
-/

namespace StaticSite.Template

abbrev Reader (α : Type) := StateT (List Lexeme) (Except Fault) α

namespace Reader

def fail {α : Type} (problem : String) : Reader α := throw (.malformed problem)

def peek? : Reader (Option Token) := return (← get).head?.map (·.token)

/-- The token after the next one. -/
def peekSecond? : Reader (Option Token) := return (← get)[1]?.map (·.token)

/-- The line of the next lexeme. -/
def line : Reader Nat := return ((← get).head?.map (·.line)).getD 0

def skip : Reader Unit := modify (·.drop 1)

/-- Takes the token if it comes next, and tells whether it did. -/
def accept (t : Token) : Reader Bool := do
  if (← peek?) = some t then
    skip
    return true
  else return false

def expect (t : Token) : Reader Unit := do
  if !(← accept t) then fail "unexpected token"

def expectName : Reader String := do
  match ← peek? with
  | some (.name s) =>
    skip
    return s
  | _ => fail "expected a name"

/-- Takes steps from `a` on until one gives nothing, `n` at most. -/
def stepping {α : Type} (step : α → Reader (Option α)) : Nat → α → Reader α
  | 0, a => return a
  | n + 1, a => do
    match ← step a with
    | some a => stepping step n a
    | none => return a

/-- Takes steps from `a` on until one gives nothing. -/
def steps {α : Type} (step : α → Reader (Option α)) (a : α) : Reader α := do
  stepping step (← get).length a

/-- What `item` reads between commas up to the closing mark; a last comma is allowed if `lastComma`. -/
def listing {α : Type} (item : Reader α) (close : Token) (lastComma first : Bool) :
    Nat → Reader (List α)
  | 0 => fail "unexpected end"
  | n + 1 => do
    if ← accept close then return []
    if !first then
      expect (.mark ",")
      if lastComma then
        if ← accept close then return []
    let a ← item
    return a :: (← listing item close lastComma false n)

def listed {α : Type} (item : Reader α) (close : String) (lastComma : Bool := true) :
    Reader (List α) := do
  listing item (.mark close) lastComma true ((← get).length + 1)

end Reader

end StaticSite.Template
