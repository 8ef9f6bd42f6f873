import StaticSite.Template.Item

/-!
# Fields

An item has fields besides its parts: a date has a year, the state of a loop has an index, a text or a map
has operations. `Item.get` is what `.name` means, a field or else a part; `Item.part` is what `[key]` means, a
part or else a field.
-/

namespace StaticSite.Template.Item

/-- What the state of a loop tells. -/
def loopField? (length index : Nat) : String → Option Item
  | "index" => some (int (index + 1))
  | "index0" => some (int index)
  | "revindex" => some (int (length - index))
  | "revindex0" => some (int (length - index - 1))
  | "first" => some (bool (index == 0))
  | "last" => some (bool (index + 1 == length))
  | "length" => some (int length)
  | "depth" => some (int 1)
  | "depth0" => some (int 0)
  | _ => none

def dateField? (d : Date) : String → Option Item
  | "year" => some (int d.year)
  | "month" => some (int d.month)
  | "day" => some (int d.day)
  | _ => none

def momentField? (t : Moment) : String → Option Item
  | "hour" => some (int t.hour)
  | "minute" => some (int t.minute)
  | "second" => some (int t.second)
  | "microsecond" => some (int t.microsecond)
  | name => dateField? t.date name

def numberField? : Value.Numeric → String → Option Item
  | .int n, name =>
    if name = "real" ∨ name = "numerator" then some (int n)
    else if name = "imag" then some (int 0)
    else if name = "denominator" then some (int 1)
    else none
  | .float x, name =>
    if name = "real" then some (.plain (.float x))
    else if name = "imag" then some (.plain (.float Binary64.zero))
    else none

/-! ## Operations -/

def textOperations : List String := [
  "capitalize", "casefold", "center", "count", "encode", "endswith", "expandtabs", "find", "format",
  "format_map", "index", "isalnum", "isalpha", "isascii", "isdecimal", "isdigit", "isidentifier",
  "islower", "isnumeric", "isprintable", "isspace", "istitle", "isupper", "join", "ljust", "lower",
  "lstrip", "maketrans", "partition", "removeprefix", "removesuffix", "replace", "rfind", "rindex",
  "rjust", "rpartition", "rsplit", "rstrip", "split", "splitlines", "startswith", "strip", "swapcase",
  "title", "translate", "upper", "zfill"]

def safeOperations : List String := ["escape", "striptags", "unescape"] ++ textOperations

def bytesOperations : List String := [
  "capitalize", "center", "count", "decode", "endswith", "expandtabs", "find", "fromhex", "hex", "index",
  "isalnum", "isalpha", "isascii", "isdigit", "islower", "isspace", "istitle", "isupper", "join", "ljust",
  "lower", "lstrip", "maketrans", "partition", "removeprefix", "removesuffix", "replace", "rfind",
  "rindex", "rjust", "rpartition", "rsplit", "rstrip", "split", "splitlines", "startswith", "strip",
  "swapcase", "title", "translate", "upper", "zfill"]

def setOperations : List String := [
  "add", "clear", "copy", "difference", "difference_update", "discard", "intersection",
  "intersection_update", "isdisjoint", "issubset", "issuperset", "pop", "remove", "symmetric_difference",
  "symmetric_difference_update", "union", "update"]

def dateOperations : List String := [
  "ctime", "fromisocalendar", "fromisoformat", "fromordinal", "fromtimestamp", "isocalendar", "isoformat",
  "isoweekday", "replace", "strftime", "timetuple", "today", "toordinal", "weekday"]

def momentOperations : List String := [
  "astimezone", "combine", "date", "dst", "now", "strptime", "time", "timestamp", "timetz", "tzname",
  "utcfromtimestamp", "utcnow", "utcoffset", "utctimetuple"] ++ dateOperations

def numberOperations : Value.Numeric → List String
  | .int _ => ["as_integer_ratio", "bit_count", "bit_length", "conjugate", "from_bytes", "to_bytes"]
  | .float _ => ["as_integer_ratio", "conjugate", "fromhex", "hex", "is_integer"]

def mapOperations : List String :=
  ["clear", "copy", "fromkeys", "get", "items", "keys", "pop", "popitem", "setdefault", "update", "values"]

def listOperations : List String :=
  ["append", "clear", "copy", "count", "extend", "index", "insert", "pop", "remove", "reverse", "sort"]

def tupleOperations : List String := ["count", "index"]

/-- The operations of an item. -/
def operations : Item → List String
  | .plain (.text _) => textOperations
  | .plain (.bytes _) => bytesOperations
  | .plain (.set _) => setOperations
  | .plain (.date _) => dateOperations
  | .plain (.moment _) => momentOperations
  | .plain v => (v.numeric?.map numberOperations).getD []
  | .safe _ => safeOperations
  | .map _ => mapOperations
  | .list _ => listOperations
  | .tuple _ => tupleOperations
  | _ => []

/-- A field that is no operation. -/
def value? (item : Item) (name : String) : Option Item :=
  match item with
  | .loop length index => loopField? length index name
  | .plain (.date d) => dateField? d name
  | .plain (.moment t) => momentField? t name
  | .plain v => v.numeric?.bind (numberField? · name)
  | _ => none

/-- What an item has by name apart from its parts. -/
def field? (item : Item) (name : String) : Option Item :=
  let item := item.untied
  item.value? name <|>
    if name ∈ item.operations then some (.operation item.typeName name) else none

/-- What is missing when an item has no part with a key. -/
def noPart (item key : Item) : Missing :=
  match key.text? with
  | some name => .attribute item.ownerName name
  | none => .element item.ownerName key.literal

/-- The part of an item with a key, or else its field of that name; a missing item has neither. -/
def part (strict : Bool) (item key : Item) : Except Fault Item :=
  match item with
  | .missing what _ => .error (.missing what)
  | item => do
    let found := (← item.part? key) <|> key.text? >>= item.field?
    return found.getD (.missing (noPart item key) strict)

/-- A field of an item, or else its part with that name as key. -/
def get (strict : Bool) (item : Item) (name : String) : Except Fault Item :=
  match item.field? name with
  | some found => .ok found
  | none => item.part strict (text name)

/-- An entry of a map is found by its name, unless it has the name of an operation. -/
theorem field?_map_eq_none {entries : List (Item × Item)} {name : String}
    (h : name ∉ mapOperations) : field? (.map entries) name = none := by
  simp [field?, untied, value?, operations, h]

end StaticSite.Template.Item
