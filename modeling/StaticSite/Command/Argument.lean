import StaticSite.Text.Split

/-!
# Arguments

The command takes entry patterns and options. An option has a long name, as in `--out`, and may have a short
one, as in `-o`. A value is attached to its option, as in `--out=dist` and `-odist`, or is the next argument.
Short names of options without a value may share a dash. What follows `--` are patterns.
-/

namespace StaticSite.Command

/-- An option without a value. -/
inductive Switch where
  | help
  | version
  | watch
  | poll
  | rmWhitespace
  | sitemap
  | noWrite
  | verbose
  deriving DecidableEq, Repr

/-- An option with a value. -/
inductive Setting where
  | out
  | delimiter
  | openDelimiter
  | closeDelimiter
  | dataFile
  | globalData
  | sitemapPrefix
  | copyPattern
  | config
  | parallel
  | templateExt
  deriving DecidableEq, Repr

inductive Choice where
  | switch (s : Switch)
  | setting (s : Setting)
  deriving DecidableEq, Repr

def longNames : List (String × Choice) := [
  ("--help", .switch .help),
  ("--version", .switch .version),
  ("--watch", .switch .watch),
  ("--poll", .switch .poll),
  ("--out", .setting .out),
  ("--delimiter", .setting .delimiter),
  ("--open-delimiter", .setting .openDelimiter),
  ("--close-delimiter", .setting .closeDelimiter),
  ("--rm-whitespace", .switch .rmWhitespace),
  ("--data-file", .setting .dataFile),
  ("--global-data", .setting .globalData),
  ("--sitemap", .switch .sitemap),
  ("--sitemap-prefix", .setting .sitemapPrefix),
  ("--copy-pattern", .setting .copyPattern),
  ("--config", .setting .config),
  ("--parallel", .setting .parallel),
  ("--template-ext", .setting .templateExt),
  ("--no-write", .switch .noWrite),
  ("--verbose", .switch .verbose)]

def shortNames : List (Char × Choice) := [
  ('h', .switch .help),
  ('w', .switch .watch),
  ('o', .setting .out),
  ('m', .setting .delimiter),
  ('p', .setting .openDelimiter),
  ('c', .setting .closeDelimiter),
  ('f', .setting .dataFile),
  ('j', .setting .parallel),
  ('v', .switch .verbose)]

def usage : String := "\n".intercalate [
  "Usage: pagesmith [OPTIONS] [ENTRIES]...",
  "",
  "  Compile templates matched by ENTRIES into static HTML.",
  "",
  "Options:",
  "  --version                   Show version and exit.",
  "  -w, --watch                 Rebuild incrementally on changes.",
  "  --poll                      Watch by polling.",
  "  -o, --out TEXT              Output directory.",
  "  -m, --delimiter TEXT        Tag delimiter.",
  "  -p, --open-delimiter TEXT   Opening bracket.",
  "  -c, --close-delimiter TEXT  Closing bracket.",
  "  --rm-whitespace             Strip whitespace around block tags.",
  "  -f, --data-file TEXT        JSON file merged into the global data.",
  "  --global-data TEXT          Inline JSON object merged into the global data.",
  "  --sitemap                   Write sitemap.txt into the output root.",
  "  --sitemap-prefix TEXT       URL prefix for sitemap entries.",
  "  --copy-pattern TEXT         Glob of assets to copy.",
  "  --config FILE               Config file.",
  "  -j, --parallel INTEGER      Worker threads.",
  "  --template-ext TEXT         Template file extension.",
  "  --no-write                  Render without writing output files.",
  "  -v, --verbose               Enable debug logging.",
  "  -h, --help                  Show this message and exit."]

/-- Why arguments mean nothing. -/
inductive UsageFault where
  | unknown (name : String)
  | noValue (name : String)
  | unwantedValue (name : String)
  /-- A value that is no integer. -/
  | notInteger (name value : String)
  /-- A directory in the place of a file. -/
  | directory (name value : String)
  deriving DecidableEq, Repr

def UsageFault.message : UsageFault → String
  | .unknown name => "No such option: " ++ name
  | .noValue name => "Option '" ++ name ++ "' requires an argument."
  | .unwantedValue name => "Option '" ++ name ++ "' does not take a value."
  | .notInteger name value =>
    "Invalid value for '" ++ name ++ "': '" ++ value ++ "' is not a valid integer."
  | .directory name value =>
    "Invalid value for '" ++ name ++ "': File '" ++ value ++ "' is a directory."

/-- The usage is shown with the fault. -/
def UsageFault.showsUsage : UsageFault → Bool
  | .noValue _ => false
  | .unwantedValue _ => false
  | _ => true

/-- An option as it was given. -/
inductive Given where
  | switch (s : Switch)
  | setting (s : Setting) (value : String)
  deriving DecidableEq, Repr

structure Arguments where
  /-- The options in the order in which they were given. -/
  given : List Given := []
  entries : List String := []
  deriving DecidableEq, Repr

namespace Arguments

def isSet (a : Arguments) (s : Switch) : Bool := a.given.contains (.switch s)

/-- The value of an option; the last one counts. -/
def value? (a : Arguments) (s : Setting) : Option String :=
  a.given.reverse.findSome? fun
    | .setting t value => if t = s then some value else none
    | .switch _ => none

end Arguments

/-! ## Reading -/

/-- Options that were read from one argument, and whether they took the next one as a value. -/
structure Reading where
  given : List Given
  usesNext : Bool := false

/-- The option `s` with its value: what is attached or else the next argument. -/
def withValue (name : String) (s : Setting) (attached next : Option String) :
    Except UsageFault Reading :=
  match attached, next with
  | some value, _ => .ok { given := [.setting s value] }
  | none, some value => .ok { given := [.setting s value], usesNext := true }
  | none, none => .error (.noValue name)

/-- Reads short names that share a dash. -/
def readShort (next : Option String) : List Char → Except UsageFault Reading
  | [] => .ok { given := [] }
  | c :: cs =>
    let name := String.ofList ['-', c]
    match shortNames.lookup c with
    | none => .error (.unknown name)
    | some (.switch s) => do
      let more ← readShort next cs
      return { more with given := .switch s :: more.given }
    | some (.setting s) =>
      withValue name s (if cs.isEmpty then none else some (String.ofList cs)) next

/-- A name and the value that is attached with `=`. -/
def splitValue (arg : String) : String × Option String :=
  match arg.toList.span (· ≠ '=') with
  | (name, '=' :: value) => (String.ofList name, some (String.ofList value))
  | _ => (arg, none)

/-- Reads an argument that begins with a dash. -/
def readOption (arg : String) (next : Option String) : Except UsageFault Reading :=
  let (name, attached) := splitValue arg
  match longNames.lookup name with
  | some (.setting s) => withValue name s attached next
  | some (.switch s) =>
    if attached.isSome then .error (.unwantedValue name) else .ok { given := [.switch s] }
  | none =>
    if arg.startsWith "--" then .error (.unknown name) else readShort next (arg.toList.drop 1)

def isOption (arg : String) : Bool := arg.startsWith "-" && arg ≠ "-"

/-- Reads the arguments of the command. -/
def readArguments : List String → Except UsageFault Arguments
  | [] => .ok {}
  | arg :: rest =>
    if arg = "--" then .ok { entries := rest }
    else if isOption arg then do
      let reading ← readOption arg rest.head?
      let more ← readArguments (if reading.usesNext then rest.tail else rest)
      return { more with given := reading.given ++ more.given }
    else do
      let more ← readArguments rest
      return { more with entries := arg :: more.entries }
termination_by args => args.length
decreasing_by
  · rw [List.length_cons]
    split
    · rw [List.length_tail]; omega
    · omega
  · simp

end StaticSite.Command
