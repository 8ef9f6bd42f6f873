import StaticSite.Calendar
import StaticSite.Number.Binary64

/-!
# Data values

The values of data files and configurations. A map keeps its entries in order of insertion; its keys
may be any scalars, and keys that are equal as numbers are one key.
-/

namespace StaticSite

inductive Value where
  | null
  | bool (b : Bool)
  | int (n : Int)
  | float (x : Binary64)
  | text (s : String)
  | bytes (bs : List UInt8)
  | list (items : List Value)
  | tuple (items : List Value)
  | set (items : List Value)
  | map (entries : List (Value × Value))
  | date (d : Date)
  | moment (t : Moment)
  /-- A list or map that holds itself, with `back` where it does. -/
  | knot (v : Value)
  /-- The list or map around, `level` steps beyond the innermost collection. -/
  | back (level : Nat) (isMap : Bool)
  deriving Repr, Inhabited

/-- The entries of a map, in order. -/
abbrev Record := List (Value × Value)

namespace Value

/-- The name of a value's type, as messages give it. -/
def typeName : Value → String
  | .null => "NoneType"
  | .bool _ => "bool"
  | .int _ => "int"
  | .float _ => "float"
  | .text _ => "str"
  | .bytes _ => "bytes"
  | .list _ => "list"
  | .tuple _ => "tuple"
  | .set _ => "set"
  | .map _ => "dict"
  | .date _ => "date"
  | .moment _ => "datetime"
  | .knot v => v.typeName
  | .back _ isMap => if isMap then "dict" else "list"

/-- The type name with its module, where a message gives that. -/
def longTypeName : Value → String
  | .date _ => "datetime.date"
  | .moment _ => "datetime.datetime"
  | v => v.typeName

/-- Neither nothing, nor zero, nor empty. -/
def isTrue : Value → Bool
  | .null => false
  | .bool b => b
  | .int n => n ≠ 0
  | .float x => !x.isZero
  | .text s => s ≠ ""
  | .bytes bs => !bs.isEmpty
  | .list items => !items.isEmpty
  | .tuple items => !items.isEmpty
  | .set items => !items.isEmpty
  | .map entries => !entries.isEmpty
  | .date _ => true
  | .moment _ => true
  | .knot _ => true
  | .back _ _ => true

/-! ## Equality -/

/-- A number, a truth value counting as zero or one. -/
inductive Numeric where
  | int (n : Int)
  | float (x : Binary64)

def numeric? : Value → Option Numeric
  | .bool b => some (.int (if b then 1 else 0))
  | .int n => some (.int n)
  | .float x => some (.float x)
  | _ => none

def Numeric.compare? : Numeric → Numeric → Option Ordering
  | .int a, .int b => some (compare a b)
  | .float x, .float y => x.compare? y
  | .float x, .int n => x.compareInt? n
  | .int n, .float x => (x.compareInt? n).map Ordering.swap

mutual

/-- Equality of values: numbers by their value, maps without regard to order. -/
def eq : Value → Value → Bool
  | .list as, .list bs => eqList as bs
  | .tuple as, .tuple bs => eqList as bs
  | .set as, .set bs => as.length == bs.length && subset as bs
  | .map as, .map bs => as.length == bs.length && eqEntries as bs
  | .null, .null => true
  | .text a, .text b => a == b
  | .bytes a, .bytes b => a == b
  | .knot a, .knot b => eq a b
  | .back m _, .back n _ => m == n
  | .date a, .date b => a == b
  | .moment a, .moment b => a.sameInstant b
  | a, b => match a.numeric?, b.numeric? with
    | some m, some n => m.compare? n == some .eq
    | _, _ => false

def eqList : List Value → List Value → Bool
  | [], [] => true
  | a :: as, b :: bs => eq a b && eqList as bs
  | _, _ => false

/-- Every item of the first list has its equal in the second. -/
def subset : List Value → List Value → Bool
  | [], _ => true
  | a :: as, bs => bs.any (fun b => eq a b) && subset as bs

/-- Every entry of the first list has its equal in the second. -/
def eqEntries : List (Value × Value) → List (Value × Value) → Bool
  | [], _ => true
  | (k, v) :: as, bs => (match bs.find? fun (k', _) => eq k k' with
      | some (_, v') => eq v v'
      | none => false) && eqEntries as bs

end

/-- The two keys are one: equal, or the same NaN. -/
def sameKey (a b : Value) : Bool :=
  a.eq b || match a, b with
    | .float x, .float y => x == y
    | _, _ => false

end Value

/-! ## Maps -/

namespace Record

def get? (r : Record) (key : Value) : Option Value :=
  (r.find? fun (k, _) => k.sameKey key).map (·.2)

/-- The value of a text key. -/
def field? (r : Record) (name : String) : Option Value := r.get? (.text name)

/-- Sets the value of a key, in place if the key is there. -/
def set (key v : Value) : Record → Record
  | [] => [(key, v)]
  | (k, w) :: rest => if k.sameKey key then (k, v) :: rest else (k, w) :: set key v rest

/-- `r` with the entries of `s` set over it. -/
def update (r s : Record) : Record := s.foldl (fun acc (k, v) => set k v acc) r

/-- The record of entries in order of arrival, a later one of a key replacing the value. -/
def ofEntries (entries : List (Value × Value)) : Record := update [] entries

def keys (r : Record) : List Value := r.map (·.1)

end Record

end StaticSite
