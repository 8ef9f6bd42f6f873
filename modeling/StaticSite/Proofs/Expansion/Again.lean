import StaticSite.Proofs.Expansion.Places
import StaticSite.Proofs.Site.Reading

/-!
# Pages planned again

Where the patterns find the same files and the arrays of partials are the same, the same pages are planned
(`expandEntries_again`). Why a data file cannot be read may be told with another reason of the system.
-/

namespace StaticSite

variable {t t' : FileTree} {b : Bindings} {ext : String} {exact : Prop}

/-- Expansions with the same pages and skips, whose faults differ at most in the system's reason. -/
structure Expansion.Agree (exact : Prop) (x x' : Expansion) : Prop where
  pages : x'.pages = x.pages
  skips : x'.skips = x.skips
  faults : List.Forall₂ Data.Fault.Alike x.faults x'.faults
  same : exact → x'.faults = x.faults

namespace Expansion

theorem Agree.refl (x : Expansion) : x.Agree exact x :=
  ⟨rfl, rfl, List.forall₂_same.2 fun f _ => .refl f, fun _ => rfl⟩

theorem Agree.append {x x' y y' : Expansion} (hx : x.Agree exact x') (hy : y.Agree exact y') :
    (x.append y).Agree exact (x'.append y') where
  pages := congrArg₂ _ hx.pages hy.pages
  skips := congrArg₂ _ hx.skips hy.skips
  faults := List.rel_append hx.faults hy.faults
  same he := congrArg₂ _ (hx.same he) (hy.same he)

theorem isOfFile_of_alike {f f' : Data.Fault} (h : f.Alike f') : f'.isOfFile = f.isOfFile := by
  cases h <;> rfl

/-- A template gives the same pages where its array is the same. -/
theorem ofTemplate_again {template : Path} {x : Expansion}
    (hn : Near Data.Fault.Alike exact (b.array? t template) (b.array? t' template))
    (h : ofTemplate t b ext template = .ok x) : ∃ x', ofTemplate t' b ext template = .ok x' ∧ x.Agree exact x' := by
  rcases hn with he | ⟨hx, f, f', hf, hf', alike⟩
  · exact ⟨x, by rw [← h, ofTemplate, he]; rfl, .refl x⟩
  · unfold ofTemplate at h ⊢
    rw [hf] at h
    rw [hf']
    split at h
    · next whole =>
      cases h
      rw [if_pos whole]
      exact ⟨_, rfl, .refl _⟩
    · next isPartial =>
      dsimp only at h ⊢
      split at h
      · next isOfFile =>
        cases h
        rw [if_neg isPartial, isOfFile_of_alike alike, if_pos isOfFile]
        exact ⟨_, rfl, rfl, rfl, .cons alike .nil, fun he => absurd he hx⟩
      · cases h

/-- Templates give the same pages where their arrays are the same. -/
theorem mapM_again {templates : List Path} {xs : List Expansion}
    (hn : ∀ template ∈ templates, Near Data.Fault.Alike exact (b.array? t template) (b.array? t' template))
    (h : templates.mapM (ofTemplate t b ext) = .ok xs) :
    ∃ xs', templates.mapM (ofTemplate t' b ext) = .ok xs' ∧ List.Forall₂ (Agree exact) xs xs' := by
  have each := forall₂_of_mapM h
  clear h
  induction each with
  | nil => exact ⟨[], rfl, .nil⟩
  | cons hx _ ih =>
    obtain ⟨x', hx', agree⟩ := ofTemplate_again (hn _ List.mem_cons_self) hx
    obtain ⟨xs', hxs', agrees⟩ := ih fun template hm => hn template (List.mem_cons_of_mem _ hm)
    refine ⟨x' :: xs', ?_, .cons agree agrees⟩
    rw [List.mapM_cons, hx', hxs']
    rfl

theorem agree_foldr {xs xs' : List Expansion} (h : List.Forall₂ (Agree exact) xs xs') :
    (xs.foldr append {}).Agree exact (xs'.foldr append {}) := by
  induction h with
  | nil => exact .refl _
  | cons h _ ih => exact h.append ih

theorem ofTemplates_again {templates : List Path} {x : Expansion}
    (hn : ∀ template ∈ templates, Near Data.Fault.Alike exact (b.array? t template) (b.array? t' template))
    (h : ofTemplates t b ext templates = .ok x) :
    ∃ x', ofTemplates t' b ext templates = .ok x' ∧ x.Agree exact x' := by
  unfold ofTemplates at h ⊢
  cases hs : templates.mapM (ofTemplate t b ext) with
  | error fault => rw [hs] at h; cases h
  | ok xs =>
    obtain ⟨xs', hs', agrees⟩ := mapM_again hn hs
    rw [hs] at h
    cases h
    rw [hs']
    exact ⟨_, rfl, agree_foldr agrees⟩

/-- Templates that are no partials have one page each. -/
theorem ofTemplates_of_whole {templates : List Path} (h : ∀ template ∈ templates, template.isPartial = false) :
    ofTemplates t b ext templates = .ok { pages := templates.map fun template => { template } } := by
  have each : templates.mapM (ofTemplate t b ext) =
      .ok (templates.map fun template => { pages := [{ template }] }) := by
    induction templates with
    | nil => rfl
    | cons template templates ih =>
      have whole : ofTemplate t b ext template = .ok { pages := [{ template }] } := by
        rw [ofTemplate, h template List.mem_cons_self]
        rfl
      rw [List.mapM_cons, whole, ih fun other hm => h other (List.mem_cons_of_mem _ hm)]
      rfl
  rw [ofTemplates, each]
  refine congrArg Except.ok ?_
  clear each h
  induction templates with
  | nil => rfl
  | cons template templates ih =>
    rw [List.map_cons, List.foldr_cons, ih]
    rfl

end Expansion

/-- The expansion of entries whose matches are all right and whose templates are no partials. -/
theorem expandEntries_of_whole {patterns : List String} (templates : List Path)
    (found : distinct ((untilFault (matchesOf t b.cwd ext patterns)).1.filterMap id) = templates)
    (good : (untilFault (matchesOf t b.cwd ext patterns)).2 = none)
    (whole : ∀ template ∈ templates, template.isPartial = false) :
    expandEntries t b ext patterns = .ok { pages := templates.map fun template => { template } } :=
  expandEntries_eq_ok.2 ⟨by rw [found, Expansion.ofTemplates_of_whole whole], good⟩

/-- The same pages are planned where the patterns find the same files and the arrays of the templates are the same. -/
theorem expandEntries_again {patterns : List String} {x : Expansion}
    (files : ∀ pattern ∈ patterns, Glob.files t' b.cwd pattern = Glob.files t b.cwd pattern)
    (hn : ∀ pattern ∈ patterns, ∀ p ∈ Glob.files t b.cwd pattern, ∀ template,
      matchTemplate b.cwd ext p = .ok (some template) →
        Near Data.Fault.Alike exact (b.array? t template) (b.array? t' template))
    (h : expandEntries t b ext patterns = .ok x) :
    ∃ x', expandEntries t' b ext patterns = .ok x' ∧ x.Agree exact x' := by
  have same : matchesOf t' b.cwd ext patterns = matchesOf t b.cwd ext patterns :=
    congrArg _ (List.flatMap_congr files)
  obtain ⟨expanded, good⟩ := expandEntries_eq_ok.1 h
  obtain ⟨x', expanded', agree⟩ := Expansion.ofTemplates_again (fun template hm => by
    obtain ⟨pattern, hpattern, p, hp, isMatch⟩ := matched_of_mem hm
    exact hn pattern hpattern p hp template isMatch) expanded
  exact ⟨x', expandEntries_eq_ok.2 ⟨same ▸ expanded', same ▸ good⟩, agree⟩

end StaticSite
