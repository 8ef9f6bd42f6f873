import StaticSite.Config.Files
import StaticSite.Proofs.Failing

/-!
# The layers of a configuration

`Config.stackOf` reads the layers of a configuration one by one, each from its own source. The configuration is the
stack of them merged (`merged_eq`), and a source that is not given is a layer that sets nothing.
-/

namespace StaticSite

namespace Layer

theorem mergeMaps_none {α : Type} {f : List α → List α → List α} (hf : ∀ as, f as [] = as) (x : Option (List α)) :
    mergeMaps f x none = x := by
  cases x with
  | none => rfl
  | some as => exact congrArg some (hf as)

/-- A layer that sets nothing changes nothing. -/
@[simp] theorem merge_empty (c : Layer) : c.merge {} = c := by
  simp [merge, mergeMaps_none (fun _ => rfl : ∀ r, Record.update r [] = r),
    mergeMaps_none (fun _ => rfl : ∀ hooks, mergeHooks hooks [] = hooks)]

end Layer

namespace Config

/-- The layers over the defaults, from the lowest up. -/
structure Stack where
  project : Layer
  named : Layer
  flags : Layer
  dataFile : Layer
  inlineData : Layer

/-- The layers from the highest down to the defaults. -/
def Stack.layers (k : Stack) : List Layer := [k.inlineData, k.dataFile, k.flags, k.named, k.project, .default]

def Stack.merged (k : Stack) : Layer :=
  ((((Layer.default.merge k.project).merge k.named).merge k.flags).merge k.dataFile).merge k.inlineData

/-- The layer in a file, which sets nothing if the file is missing or empty. -/
def fileLayer (t : FileTree) (cwd file : Path) : Except ConfigFault Layer := do
  match ← loadFile t cwd file with
  | none => return {}
  | some entries => (Layer.ofRecord entries).mapError .number

def namedLayer (t : FileTree) (cwd : Path) : Option Path → Except ConfigFault Layer
  | none => return {}
  | some file => if t.isThere (cwd / file) then fileLayer t cwd file else throw (.missing file)

def dataLayer (t : FileTree) (cwd : Path) (given : Option String) : Except ConfigFault Layer :=
  match Layer.filled? given with
  | none => return {}
  | some given => return { globalData := some (← loadObject t cwd given) }

def inlineLayer (text : Option String) : Except ConfigFault Layer :=
  match Layer.filled? text with
  | none => return {}
  | some text => return { globalData := some (← readInline text) }

def stackOf (t : FileTree) (cwd : Path) (s : Sources) : Except ConfigFault Stack := do
  return {
    project := ← fileLayer t cwd (localFile cwd)
    named := ← namedLayer t cwd s.file
    flags := s.flags.getD {}
    dataFile := ← dataLayer t cwd s.dataFile
    inlineData := ← inlineLayer s.inlineData }

variable {t : FileTree} {cwd file : Path} {s : Sources}

/-- Each layer of a stack comes from its own source. -/
theorem parts_of_stackOf {k : Stack} (h : stackOf t cwd s = .ok k) : fileLayer t cwd (localFile cwd) = .ok k.project ∧
    namedLayer t cwd s.file = .ok k.named ∧ k.flags = s.flags.getD {} ∧ dataLayer t cwd s.dataFile = .ok k.dataFile ∧
    inlineLayer s.inlineData = .ok k.inlineData := by
  obtain ⟨project, hp, h⟩ := bind_eq_ok_iff.1 h
  obtain ⟨named, hn, h⟩ := bind_eq_ok_iff.1 h
  obtain ⟨data, hd, h⟩ := bind_eq_ok_iff.1 h
  obtain ⟨inline, hi, h⟩ := bind_eq_ok_iff.1 h
  cases h
  exact ⟨hp, hn, rfl, hd, hi⟩

theorem withFile_eq (c : Layer) : withFile t cwd file c = c.merge <$> fileLayer t cwd file := by
  unfold withFile fileLayer
  rw [map_bind]
  refine bind_congr fun found => ?_
  split
  · simp
  · have nothing : Layer.ofRecord [] = .ok {} := rfl
    simp [nothing, Functor.map, Except.map, pure, Except.pure]
  · rfl

theorem ofFiles_eq : ofFiles t cwd s.file =
    (do return (Layer.default.merge (← fileLayer t cwd (localFile cwd))).merge (← namedLayer t cwd s.file)) := by
  unfold ofFiles
  rw [withFile_eq, bind_map_left]
  refine bind_congr fun project => ?_
  cases s.file with
  | none => simp [namedLayer]
  | some file =>
    simp only [namedLayer, withFile_eq]
    cases t.isThere (cwd / file)
    · rfl
    · simp

/-- The configuration is the stack of its layers merged. -/
theorem merged_eq : merged t cwd s = Stack.merged <$> stackOf t cwd s := by
  unfold merged stackOf
  simp only [ofFiles_eq, bind_assoc, pure_bind, map_bind, map_pure]
  refine bind_congr fun project => bind_congr fun named => ?_
  -- A source that is not given adds a layer that sets nothing.
  cases s.flags <;> cases hd : Layer.filled? s.dataFile <;> cases hi : Layer.filled? s.inlineData <;>
    simp [dataLayer, inlineLayer, hd, hi, Stack.merged, withGlobalData]

end Config

end StaticSite
