import StaticSite.Hook.Basic
import StaticSite.Text.Quoted

/-!
# Importing hooks

A configuration names a hook by a module and a path of names in it, `module:name`. The modules that can be
imported are given; none of them holds others.
-/

namespace StaticSite

/-- What a name in a module stands for. -/
inductive Member where
  | hook (hook : Hook)
  /-- Something that can be called and holds other names. -/
  | scope (hook : Hook) (members : List (String × Member))
  /-- Something that cannot be called. -/
  | constant (members : List (String × Member))

structure HookModule where
  name : String
  members : List (String × Member)

inductive HookFault where
  | malformed (given : String)
  | relative (module : String)
  | noModule (module missing : String)
  | notPackage (module missing parent : String)
  | notFound (given module : String)
  | notCallable (given : String)
  deriving DecidableEq, Repr

def HookFault.message : HookFault → String
  | .malformed given => "Hook must look like 'module:function', got '" ++ given ++ "'"
  | .relative module =>
    "the 'package' argument is required to perform a relative import for " ++ Text.quote module
  | .noModule module missing =>
    "Cannot import hook module '" ++ module ++ "': No module named " ++ Text.quote missing
  | .notPackage module missing parent =>
    "Cannot import hook module '" ++ module ++ "': No module named " ++ Text.quote missing ++ "; " ++
      Text.quote parent ++ " is not a package"
  | .notFound given module => "Hook '" ++ given ++ "' not found in " ++ module
  | .notCallable given => "Hook '" ++ given ++ "' is not callable"

namespace HookModule

/-- The member that a path of names leads to. -/
def follow (members : List (String × Member)) : List String → Option Member
  | [] => none
  | name :: rest => match members.lookup name, rest with
    | none, _ => none
    | some member, [] => some member
    | some (.hook _), _ :: _ => none
    | some (.scope _ inner), rest => follow inner rest
    | some (.constant inner), rest => follow inner rest

/-- The module with a dotted name. -/
def find (modules : List HookModule) (name : String) : Except HookFault HookModule :=
  match Text.pieces '.' name with
  | [] => .error (.noModule name name)
  | first :: rest => match modules.find? (·.name == first), rest with
    | none, _ => .error (.noModule name first)
    | some found, [] => .ok found
    | some _, second :: _ => .error (.notPackage name (first ++ "." ++ second) first)

end HookModule

/-- The hook that a text names. -/
def importHook (modules : List HookModule) (given : String) : Except HookFault Hook := do
  match Text.cut ':' given.toList with
  | (_, none) | ([], _) | (_, some []) => throw (.malformed given)
  | (moduleName, some names) =>
    let moduleName := String.ofList moduleName
    if moduleName.toList.head? = some '.' then throw (.relative moduleName)
    let found ← HookModule.find modules moduleName
    match HookModule.follow found.members (Text.pieces '.' (String.ofList names)) with
    | none => throw (.notFound given moduleName)
    | some (.constant _) => throw (.notCallable given)
    | some (.hook hook) => return hook
    | some (.scope hook _) => return hook

end StaticSite
