import StaticSite.Template.Fault
import StaticSite.Value.Knot
import StaticSite.Value.Text

/-!
# Values in a template

An `Item` is a value that a template works with: a data value, a text that is safe to print as it is, or
a missing value, which stands for itself until it is used. Lists and maps hold items.
-/

namespace StaticSite.Template

inductive Item where
  /-- A value that is no list, tuple or map, or a knot of these. -/
  | plain (v : Value)
  | safe (s : String)
  | list (items : List Item)
  | tuple (items : List Item)
  | map (entries : List (Item × Item))
  /-- A missing value; if it is `strict`, any use is a fault. -/
  | missing (what : Missing) (strict : Bool)
  /-- The state of a loop: the number of its rounds and how many are done. -/
  | loop (length index : Nat)
  /-- A block of an extended template, `level` steps up. -/
  | upper (block : String) (level : Nat)
  /-- An operation of a kind of values, which a template can name but not apply. -/
  | operation (owner name : String)
  deriving Repr, Inhabited

namespace Item

mutual

def ofValue : Value → Item
  | .list items => .list (ofValues items)
  | .tuple items => .tuple (ofValues items)
  | .map entries => .map (ofEntries entries)
  | v => .plain v

def ofValues : List Value → List Item
  | [] => []
  | v :: vs => ofValue v :: ofValues vs

def ofEntries : List (Value × Value) → List (Item × Item)
  | [] => []
  | (k, v) :: es => (ofValue k, ofValue v) :: ofEntries es

end

def text (s : String) : Item := .plain (.text s)

def bool (b : Bool) : Item := .plain (.bool b)

def int (n : Int) : Item := .plain (.int n)

/-- The text that an item is, safe or not. -/
def text? : Item → Option String
  | .plain (.text s) => some s
  | .safe s => some s
  | _ => none

def typeName : Item → String
  | .plain v => v.longTypeName
  | .safe _ => "Markup"
  | .list _ => "list"
  | .tuple _ => "tuple"
  | .map _ => "dict"
  | .missing _ strict => if strict then "StrictUndefined" else "Undefined"
  | .loop _ _ => "LoopContext"
  | .upper _ _ => "BlockReference"
  | .operation _ _ => "builtin_function_or_method"

/-- How messages about missing parts call an item. -/
def ownerName : Item → String
  | .plain .null => "None"
  | .safe _ => "markupsafe.Markup object"
  | .loop _ _ => "jinja2.runtime.LoopContext object"
  | .upper _ _ => "jinja2.runtime.BlockReference object"
  | item => item.typeName ++ " object"

/-! ## Text -/

mutual

/-- The text of an item inside a list or map. -/
def literal : Item → String
  | .plain v => v.literal
  | .safe s => "Markup(" ++ Text.quote s ++ ")"
  | .list items => "[" ++ ", ".intercalate (literals items) ++ "]"
  | .tuple [item] => "(" ++ literal item ++ ",)"
  | .tuple items => "(" ++ ", ".intercalate (literals items) ++ ")"
  | .map entries => "\x7b" ++ ", ".intercalate (entryLiterals entries) ++ "\x7d"
  | .missing _ _ => "Undefined"
  | .loop length index => "<LoopContext " ++ toString (index + 1) ++ "/" ++ toString length ++ ">"
  | .upper block _ => "<BlockReference " ++ Text.quote block ++ ">"
  | .operation owner name => "<built-in method " ++ name ++ " of " ++ owner ++ " object>"

def literals : List Item → List String
  | [] => []
  | item :: items => literal item :: literals items

def entryLiterals : List (Item × Item) → List String
  | [] => []
  | (k, v) :: es => (literal k ++ ": " ++ literal v) :: entryLiterals es

end

mutual

/-- The items that an item is made of and that are no lists, tuples or maps, in their order. -/
def leaves : Item → List Item
  | .list items => leavesOf items
  | .tuple items => leavesOf items
  | .map entries => leavesOfEntries entries
  | item => [item]

def leavesOf : List Item → List Item
  | [] => []
  | item :: items => leaves item ++ leavesOf items

def leavesOfEntries : List (Item × Item) → List Item
  | [] => []
  | (k, v) :: es => leaves k ++ leaves v ++ leavesOfEntries es

end

/-- No integer in the item has too many digits. -/
def isWritable (item : Item) : Bool :=
  item.leaves.all fun
    | .plain v => v.isWritable
    | _ => true

/-- The item is made of data and safe texts only. -/
def isData (item : Item) : Bool :=
  item.leaves.all fun
    | .plain _ | .safe _ => true
    | _ => false

/-- The first number in the item that is not finite, without its sign. -/
def endless? (item : Item) : Option String :=
  item.leaves.findSome? fun
    | .plain (.float x) => if x.isInfinite then some "inf" else if x.isNan then some "nan" else none
    | _ => none

/-- The text of an item as it stands in a list. -/
def literal? (item : Item) : Except Fault String :=
  if item.isWritable then .ok item.literal else .error .tooLongToWrite

def misuse {α : Type} (what : Misuse) : Except Fault α := .error (.misuse what)

/-- An item printed without escapes. -/
def toText : Item → Except Fault String
  | .plain v => v.toText.mapError fun _ => .tooLongToWrite
  | .safe s => .ok s
  | .missing what strict => if strict then .error (.missing what) else .ok ""
  | item => item.literal?

def escapeChar (c : Char) : List Char :=
  match c with
  | '&' => "&amp;".toList
  | '<' => "&lt;".toList
  | '>' => "&gt;".toList
  | '"' => "&#34;".toList
  | '\'' => "&#39;".toList
  | c => [c]

/-- A text with the marks of HTML written as references. -/
def escapeText (s : String) : String := String.ofList (s.toList.flatMap escapeChar)

/-- The text that is printed for an item: a safe text as it is, all else escaped. -/
def printed : Item → Except Fault String
  | .safe s => .ok s
  | item => item.toText.map escapeText

/-! ## Truth and parts -/

def isTrue : Item → Except Fault Bool
  | .plain v => .ok v.isTrue
  | .safe s => .ok (s ≠ "")
  | .list items => .ok !items.isEmpty
  | .tuple items => .ok !items.isEmpty
  | .map entries => .ok !entries.isEmpty
  | .missing what strict => if strict then .error (.missing what) else .ok false
  | .loop _ _ => .ok true
  | .upper _ _ => .ok true
  | .operation _ _ => .ok true

def characters (s : String) : List Item := s.toList.map fun c => text c.toString

def octets (bs : List UInt8) : List Item := bs.map fun b => int b.toNat

/-- A knot as a list or map of its parts; any other item as it is. -/
def untied : Item → Item
  | .plain (.knot v) => match (Value.knot v).items?, (Value.knot v).record? with
    | some items, _ => .list (ofValues items)
    | none, some entries => .map (ofEntries entries)
    | none, none => .plain (.knot v)
  | item => item

/-- The items that a loop over an item goes through. -/
def elements (item : Item) : Except Fault (List Item) :=
  match item.untied with
  | .plain (.text s) => .ok (characters s)
  | .plain (.bytes bs) => .ok (octets bs)
  | .plain (.set items) => .ok (ofValues items)
  | .safe s => .ok (characters s)
  | .list items => .ok items
  | .tuple items => .ok items
  | .map entries => .ok (entries.map (·.1))
  | .missing what strict => if strict then .error (.missing what) else .ok []
  | item => misuse (.notIterable item.typeName)

def length (item : Item) : Except Fault Nat :=
  match item.untied with
  | .plain (.text s) => .ok s.length
  | .plain (.bytes bs) => .ok bs.length
  | .plain (.set items) => .ok items.length
  | .safe s => .ok s.length
  | .list items => .ok items.length
  | .tuple items => .ok items.length
  | .map entries => .ok entries.length
  | .missing what strict => if strict then .error (.missing what) else .ok 0
  | item => misuse (.noLength item.typeName)

/-! ## Equality -/

/-- Both are the float that is no number. It differs from itself, but lists and maps find it. -/
def areNan : Item → Item → Bool
  | .plain (.float x), .plain (.float y) => x.isNan && y.isNan
  | _, _ => false

mutual

def eq : Item → Item → Except Fault Bool
  | .missing what strict, other =>
    if strict then .error (.missing what)
    else match other with
      | .missing what strict => if strict then .error (.missing what) else .ok true
      | _ => .ok false
  | .plain v, .plain w => .ok (v.eq w)
  | .safe s, other => match other with
    | .missing what true => .error (.missing what)
    | other => .ok (other.text? == some s)
  | .list items, .list others =>
    if items.length = others.length then eqItems items others else .ok false
  | .tuple items, .tuple others =>
    if items.length = others.length then eqItems items others else .ok false
  | .map entries, .map others =>
    if entries.length = others.length then eqEntries entries others else .ok false
  | .loop n i, .loop m j => .ok (n == m && i == j)
  | _, .missing what true => .error (.missing what)
  | .plain (.text s), .safe t => .ok (s == t)
  | _, _ => .ok false

def eqItems : List Item → List Item → Except Fault Bool
  | a :: as, b :: bs => do if (← eq a b) || areNan a b then eqItems as bs else return false
  | _, _ => .ok true

/-- Every entry of the first list has its equal in the second. -/
def eqEntries : List (Item × Item) → List (Item × Item) → Except Fault Bool
  | [], _ => .ok true
  | (k, v) :: es, others => do if ← eqEntry k v others then eqEntries es others else return false

def eqEntry (k v : Item) : List (Item × Item) → Except Fault Bool
  | [] => .ok false
  | (k', v') :: others => do
    if (← eq k k') || areNan k k' then return (← eq v v') || areNan v v' else eqEntry k v others

end

mutual

/-- Whether an item can be a key; if not, why. -/
def asKey : Item → Except Fault Unit
  | .list _ => misuse (.unhashable "list")
  | .map _ => misuse (.unhashable "dict")
  | .plain (.set _) => misuse (.unhashable "set")
  | .plain (.knot v) => misuse (.unhashable v.typeName)
  | .missing what true => .error (.missing what)
  | .tuple items => asKeys items
  | _ => .ok ()

def asKeys : List Item → Except Fault Unit
  | [] => .ok ()
  | item :: items => do asKey item; asKeys items

end

def entryOf? (key : Item) : List (Item × Item) → Except Fault (Option Item)
  | [] => .ok none
  | (k, v) :: es => do
    if (← k.eq key) || k.areNan key then return some v else entryOf? key es

/-- The value of a key in a map. -/
def lookup (key : Item) (entries : List (Item × Item)) : Except Fault (Option Item) := do
  asKey key
  entryOf? key entries

/-- Sets the value of a key, in place if the key is there. -/
def setEntry (key v : Item) : List (Item × Item) → Except Fault (List (Item × Item))
  | [] => .ok [(key, v)]
  | (k, w) :: es => do
    if (← k.eq key) || k.areNan key then return (k, v) :: es
    else return (k, w) :: (← setEntry key v es)

/-! ## Looking into items -/

/-- The number of a plain item, a truth value counting as zero or one. -/
def numeric? : Item → Option Value.Numeric
  | .plain v => v.numeric?
  | _ => none

/-- The item at a place counted from the front, or if negative from the back. -/
def at? {α : Type} (items : List α) (i : Int) : Option α :=
  if i ≥ 0 then items[i.toNat]?
  else if i + items.length ≥ 0 then items[(i + items.length).toNat]? else none

/-- The part of an item with a key. -/
def part? (item key : Item) : Except Fault (Option Item) :=
  match item.untied, key.numeric? with
  | .map entries, _ => match asKey key with
    | .ok () => entryOf? key entries
    | .error (.misuse _) => .ok none
    | .error fault => .error fault
  | .list items, some (.int i) => .ok (at? items i)
  | .tuple items, some (.int i) => .ok (at? items i)
  | .plain (.text s), some (.int i) => .ok (at? (characters s) i)
  | .plain (.bytes bs), some (.int i) => .ok (at? (octets bs) i)
  | .safe s, some (.int i) => .ok ((at? s.toList i).map fun c => .safe c.toString)
  | _, _ => .ok none

end Item

end StaticSite.Template
