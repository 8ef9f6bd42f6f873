import StaticSite.Number.Reading
import StaticSite.Template.Item

/-!
# Operators

Arithmetic, joining of texts, order and membership of items. A missing operand is a fault; a safe text makes
the other text of a sum safe by escaping it.
-/

namespace StaticSite.Template

inductive Operator where
  | add
  | sub
  | mul
  | div
  deriving DecidableEq, Repr

def Operator.text : Operator → String
  | .add => "+"
  | .sub => "-"
  | .mul => "*"
  | .div => "/"

inductive Comparison where
  | eq
  | ne
  | lt
  | le
  | gt
  | ge
  | mem
  | notMem
  deriving DecidableEq, Repr

def Comparison.text : Comparison → String
  | .eq => "=="
  | .ne => "!="
  | .lt => "<"
  | .le => "<="
  | .gt => ">"
  | .ge => ">="
  | .mem => "in"
  | .notMem => "not in"

namespace Item

/-! ## Arithmetic -/

def toReal : Value.Numeric → Except Fault Binary64
  | .float x => .ok x
  | .int n => (Number.realOfInteger n).mapError fun _ => .numberTooLarge

/-- The quotient of two integers, rounded once. -/
def quotient (a b : Int) : Except Fault Item :=
  if b = 0 then .error (.division true)
  else
    let x := Binary64.ofRatio ((a < 0) != (b < 0)) a.natAbs b.natAbs
    if x.isInfinite then .error .quotientTooLarge else .ok (.plain (.float x))

def realOperation (op : Operator) (x y : Binary64) : Except Fault Item :=
  match op with
  | .add => .ok (.plain (.float (x.add y)))
  | .sub => .ok (.plain (.float (x.sub y)))
  | .mul => .ok (.plain (.float (x.mul y)))
  | .div => if y.isZero then .error (.division false) else .ok (.plain (.float (x.div y)))

def arithmetic (op : Operator) : Value.Numeric → Value.Numeric → Except Fault Item
  | .int a, .int b => match op with
    | .add => .ok (int (a + b))
    | .sub => .ok (int (a - b))
    | .mul => .ok (int (a * b))
    | .div => quotient a b
  | a, b => do realOperation op (← toReal a) (← toReal b)

/-! ## Sequences -/

def sequence? : Item → Bool
  | .plain (.text _) | .plain (.bytes _) | .safe _ | .list _ | .tuple _ => true
  | _ => false

/-- The sum of two sequences of one kind. -/
def concat? : Item → Item → Option Item
  | .plain (.text s), .plain (.text t) => some (text (s ++ t))
  | .safe s, .safe t => some (.safe (s ++ t))
  | .safe s, .plain (.text t) => some (.safe (s ++ escapeText t))
  | .plain (.text s), .safe t => some (.safe (escapeText s ++ t))
  | .plain (.bytes s), .plain (.bytes t) => some (.plain (.bytes (s ++ t)))
  | .list items, .list others => some (.list (items ++ others))
  | .tuple items, .tuple others => some (.tuple (items ++ others))
  | _, _ => none

def repeated {α : Type} (n : Int) (items : List α) : List α :=
  (List.replicate n.toNat items).flatten

/-- A sequence several times. -/
def times? (n : Int) : Item → Option Item
  | .plain (.text s) => some (text (String.ofList (repeated n s.toList)))
  | .safe s => some (.safe (String.ofList (repeated n s.toList)))
  | .plain (.bytes bs) => some (.plain (.bytes (repeated n bs)))
  | .list items => some (.list (repeated n items))
  | .tuple items => some (.tuple (repeated n items))
  | _ => none

/-- The name of a sequence's kind. -/
def sequenceName (item : Item) : String := if item.text?.isSome then "str" else item.typeName

def sum (a b : Item) : Except Fault Item :=
  match concat? a b with
  | some c => .ok c
  | none =>
    if a matches .plain (.bytes _) then misuse (.concatBytes b.typeName)
    else if a.sequence? then misuse (.concat a.sequenceName b.typeName)
    else misuse (.operands "+" a.typeName b.typeName)

def product (a b : Item) : Except Fault Item :=
  match a.sequence?, a.numeric?, b.sequence?, b.numeric? with
  | true, _, _, some (.int n) => .ok ((a.times? n).getD a)
  | true, _, _, _ => misuse (.times b.typeName)
  | _, some (.int n), true, _ => .ok ((b.times? n).getD b)
  | _, _, true, _ => misuse (.times a.typeName)
  | _, _, _, _ => misuse (.operands "*" a.typeName b.typeName)

def operate (op : Operator) (a b : Item) : Except Fault Item :=
  match a, b with
  | .missing what _, _ => .error (.missing what)
  | _, .missing what _ => .error (.missing what)
  | a, b => match a.numeric?, b.numeric? with
    | some x, some y => arithmetic op x y
    | _, _ => match op with
      | .add => sum a b
      | .mul => product a b
      | op => misuse (.operands op.text a.typeName b.typeName)

/-- `-a`, or `+a` if `negative` is not set. -/
def signed (negative : Bool) (a : Item) : Except Fault Item :=
  match a, a.numeric? with
  | .missing what _, _ => .error (.missing what)
  | _, some (.int n) => .ok (int (if negative then -n else n))
  | _, some (.float x) => .ok (.plain (.float (if negative then x.neg else x)))
  | a, none => misuse (.sign (if negative then "-" else "+") a.typeName)

/-! ## Joining texts -/

/-- The texts of the items one after the other; if one is safe the others are escaped. -/
def join (items : List Item) : Except Fault Item := do
  if items.any fun item => item matches .safe _ then
    return .safe (String.join (← items.mapM printed))
  else return text (String.join (← items.mapM toText))

/-! ## Order and membership -/

def holds (c : Comparison) : Ordering → Bool
  | .lt => c == .lt || c == .le
  | .eq => c == .le || c == .ge
  | .gt => c == .gt || c == .ge

/-- Sets are ordered by inclusion. -/
def holdsOfSets (c : Comparison) (s t : List Value) : Bool :=
  match c with
  | .lt => s.length < t.length && Value.subset s t
  | .le => Value.subset s t
  | .gt => t.length < s.length && Value.subset t s
  | .ge => Value.subset t s
  | _ => false

def valueOrder (c : Comparison) : Value → Value → Except Fault Bool
  | .text s, .text t => .ok (holds c (compare s t))
  | .bytes s, .bytes t => .ok (holds c (compare s t))
  | .set s, .set t => .ok (holdsOfSets c s t)
  | .date d, .date e => .ok (holds c (compare d.dayNumber e.dayNumber))
  | .moment s, .moment t =>
    if s.offset.isSome = t.offset.isSome then .ok (holds c (compare s.instant t.instant))
    else misuse .offsetOrder
  | .moment _, .date _ | .date _, .moment _ =>
    misuse (.momentOrder "datetime.datetime" "datetime.date")
  | v, w => match v.numeric?, w.numeric? with
    | some m, some n => .ok ((m.compare? n).any (holds c))
    | _, _ => misuse (.order c.text v.longTypeName w.longTypeName)

mutual

def order (c : Comparison) : Item → Item → Except Fault Bool
  | .missing _ false, .missing what true => .error (.missing what)
  | .missing what _, _ => .error (.missing what)
  | .list items, .list others => orderItems c items others
  | .tuple items, .tuple others => orderItems c items others
  | .plain v, .plain w => valueOrder c v w
  | _, .missing what _ => .error (.missing what)
  | a, b => match a.text?, b.text? with
    | some s, some t => .ok (holds c (compare s t))
    | _, _ => misuse (.order c.text a.typeName b.typeName)

/-- The order of the first two items that differ, or of the lengths. -/
def orderItems (c : Comparison) : List Item → List Item → Except Fault Bool
  | a :: as, b :: bs => do
    if (← a.eq b) || a.areNan b then orderItems c as bs else order c a b
  | [], [] => .ok (holds c .eq)
  | [], _ :: _ => .ok (holds c .lt)
  | _ :: _, [] => .ok (holds c .gt)

end

def member (a : Item) : List Item → Except Fault Bool
  | [] => .ok false
  | b :: bs => do if (← b.eq a) || b.areNan a then return true else member a bs

def isPart {α : Type} [BEq α] (needle : List α) : List α → Bool
  | [] => needle.isEmpty
  | c :: cs => needle.isPrefixOf (c :: cs) || isPart needle cs

def isInBytes (a : Item) (bs : List UInt8) : Except Fault Bool :=
  match a, a.numeric? with
  | _, some (.int n) => if 0 ≤ n ∧ n < 256 then .ok (bs.contains n.toNat.toUInt8) else .error .noByte
  | .plain (.bytes needle), _ => .ok (isPart needle bs)
  | a, _ => misuse (.memberOfBytes a.typeName)

def isIn (a b : Item) : Except Fault Bool :=
  match b.untied with
  | .plain (.bytes bs) => isInBytes a bs
  | .plain (.set items) => do
    asKey a
    member a (ofValues items)
  | .list items => member a items
  | .tuple items => member a items
  | .map entries => do return (← lookup a entries).isSome
  | .missing what strict => if strict then .error (.missing what) else .ok false
  | b => match b.text?, a.text? with
    | some s, some needle => .ok (isPart needle.toList s.toList)
    | some _, none => misuse (.memberOfText a.typeName)
    | none, _ => misuse (.notContainer b.typeName)

def compare (c : Comparison) (a b : Item) : Except Fault Bool :=
  match c with
  | .eq => a.eq b
  | .ne => (a.eq b).map (!·)
  | .mem => a.isIn b
  | .notMem => (a.isIn b).map (!·)
  | c => order c a b

end Item

end StaticSite.Template
