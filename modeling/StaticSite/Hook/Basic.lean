import StaticSite.Page

/-!
# Hooks

A site may name three hooks: one sees every page before it is saved and may change it, one is told of every
copied file, and one is told when a build is done. What a hook does is not known; it answers with a value or
fails.
-/

namespace StaticSite

inductive HookKind where
  | beforeSave
  | afterCopy
  | done
  deriving DecidableEq, Repr

/-- The name of a hook in a configuration. -/
def HookKind.name : HookKind → String
  | .beforeSave => "before_save_html"
  | .afterCopy => "after_copy_file"
  | .done => "done"

def HookKind.all : List HookKind := [.beforeSave, .afterCopy, .done]

def HookKind.ofName? (name : String) : Option HookKind := all.find? (·.name == name)

/-- What a hook is called with. -/
inductive HookCall where
  | beforeSave (html : String) (out template : Path)
  | afterCopy (source target : Path)
  | done (sitemap : List String) (out : Path) (pages : List Page)
  deriving Repr

/-- The failure of a hook: the kind of its error and the text. -/
structure HookFailure where
  kind : String
  message : String
  deriving DecidableEq, Repr

structure Hook where
  /-- The module and the name in it. -/
  name : String
  run : HookCall → Except HookFailure Value

structure Hooks where
  beforeSave : Option Hook := none
  afterCopy : Option Hook := none
  done : Option Hook := none

namespace Hooks

def get (h : Hooks) : HookKind → Option Hook
  | .beforeSave => h.beforeSave
  | .afterCopy => h.afterCopy
  | .done => h.done

def set (h : Hooks) (kind : HookKind) (hook : Hook) : Hooks :=
  match kind with
  | .beforeSave => { h with beforeSave := some hook }
  | .afterCopy => { h with afterCopy := some hook }
  | .done => { h with done := some hook }

/-- `h` with the hooks of `other` over it. -/
def override (h other : Hooks) : Hooks :=
  ⟨other.beforeSave <|> h.beforeSave, other.afterCopy <|> h.afterCopy, other.done <|> h.done⟩

end Hooks

end StaticSite
