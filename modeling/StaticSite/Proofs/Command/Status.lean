import StaticSite.Command.Run
import StaticSite.Proofs.Site.Delivering

/-!
# What the status of a run says

A run that is told to build and not to watch ends with a status. It is 2 just if nothing could be planned for a mistake
of the user, and then no file was touched; it is 0 just if all was planned and built without a fault; otherwise it is 1
(`exit_status_tells`). After status 0 everything that was planned stands below the output root. This holds in whatever
order the workers take up pages and assets; `run` takes them up one by one (`run_eq`).
-/

namespace StaticSite.Command

open Site (buildIn Schedule Step)

variable {w : Surroundings} {t : FileTree} {args : List String} {s : Config.Sources} {p : Plan}

/-! ## Runs in some order -/

/-- How a run goes on after the build of what was planned. -/
def Plan.after (p : Plan) (watch : Bool) (step : Step Site.Result) : Run :=
  let pages := p.expansion.pages
  let told := (if pages.isEmpty then [Message.noTemplates] else []) ++
    p.expansion.faults.map (fun fault => .report (.failed (.data fault))) ++
    step.reports.map .report
  match step.result with
  | .error fault => { tree := step.tree, told, next := .ends (.failed (.site fault)) }
  | .ok r =>
    let faults := p.expansion.faults.length + r.faults.length
    { tree := step.tree
      told := told ++ [.summary r.rendered.length r.copied.length p.site.out] ++
        if faults = 0 then [] else [.faultCount faults]
      next :=
        if watch then .watches (.ofEntries p.site p.patterns r.pages)
        else .ends (.done (if faults = 0 then 0 else 1)) }

theorem Plan.build_eq (p : Plan) (t : FileTree) (watch : Bool) :
    p.build t watch = p.after watch (p.site.build t p.patterns p.expansion.pages) := rfl

/-- The build of what was planned, the pages and assets taken up in the order of schedules. -/
def Plan.step (p : Plan) (renders copies : Schedule) (t : FileTree) : Step Site.Result :=
  buildIn renders copies p.site t p.patterns p.expansion.pages

/-- What comes of the sources of a configuration. -/
def runFrom (renders copies : Schedule) (w : Surroundings) (t : FileTree) (watch : Bool) (s : Config.Sources) : Run :=
  match plan w t s with
  | .ok p => p.after watch (p.step renders copies t)
  | .error fault =>
    if fault.isMistake then endAt t [.error fault.message] (.done 2) else endAt t [] (.failed fault)

/-- A run whose workers take up pages and assets in the order of schedules. -/
def runIn (renders copies : Schedule) (w : Surroundings) (t : FileTree) (args : List String) : Run :=
  match readArguments args with
  | .error fault => refuse t fault
  | .ok a => match a.early? with
    | some .version =>
      endAt t [.text (name ++ " " ++ Message.marked "bold cyan" version)] (.done 0)
    | some _ => endAt t [] (.usage none)
    | none => match a.sources t w.dir with
      | .error fault => refuse t fault
      | .ok s => runFrom renders copies w t (a.isSet .watch) s

/-- The command takes up one page and one asset after the other. -/
theorem run_eq (w : Surroundings) (t : FileTree) (args : List String) :
    run w t args = runIn .forward .forward w t args := by
  unfold run runIn
  cases readArguments args with
  | error fault => rfl
  | ok a =>
    dsimp only
    cases a.early? with
    | some early => cases early <;> rfl
    | none =>
      unfold runWith
      cases a.sources t w.dir with
      | error fault => rfl
      | ok s =>
        unfold runFrom
        dsimp only
        cases plan w t s with
        | error fault => rfl
        | ok p =>
          dsimp only
          rw [Plan.build_eq, Plan.step, Site.build_forward]

/-! ## Status -/

/-- The arguments are accepted and ask for a build, from these sources of a configuration. -/
structure Accepts (w : Surroundings) (t : FileTree) (args : List String) (s : Config.Sources) : Prop where
  arguments : ∃ a, readArguments args = .ok a ∧ a.early? = none ∧ a.isSet .watch = false ∧ a.sources t w.dir = .ok s

theorem Accepts.runIn_eq (h : Accepts w t args s) (σ τ : Schedule) : runIn σ τ w t args = runFrom σ τ w t false s := by
  obtain ⟨a, read, early, watch, sources⟩ := h.arguments
  simp only [runIn, read, early, watch, sources]

/-- The status says how far the run came. -/
structure Tells (σ τ : Schedule) (w : Surroundings) (t : FileTree) (s : Config.Sources) (status : Nat) : Prop where
  mistake : status = 2 ↔ ∃ fault, plan w t s = .error fault ∧ fault.isMistake = true
  good : status = 0 ↔ ∃ p r, plan w t s = .ok p ∧ p.expansion.faults = [] ∧ (p.step σ τ t).result = .ok r ∧
    r.isOk = true
  other : status ≠ 2 → status ≠ 0 → status = 1

/-- The tree that a run leaves is that of the build, or the old one if there was none. -/
theorem tree_runFrom (σ τ : Schedule) (w : Surroundings) (t : FileTree) (watch : Bool) (s : Config.Sources) :
    (runFrom σ τ w t watch s).tree = match plan w t s with
      | .ok p => (p.step σ τ t).tree
      | .error _ => t := by
  unfold runFrom
  cases plan w t s with
  | error fault => dsimp only; split <;> rfl
  | ok p =>
    dsimp only [Plan.after]
    cases (p.step σ τ t).result <;> rfl

theorem tells_runFrom (σ τ : Schedule) (w : Surroundings) (t : FileTree) (s : Config.Sources) :
    ∃ ending, (runFrom σ τ w t false s).next = .ends ending ∧ Tells σ τ w t s ending.status := by
  unfold runFrom
  cases planned : plan w t s with
  | error fault =>
    cases isMistake : fault.isMistake with
    | true =>
      refine ⟨.done 2, by simp [isMistake, endAt], ⟨iff_of_true rfl ⟨fault, planned, isMistake⟩, ?_, nofun⟩⟩
      simp [planned, Ending.status]
    | false =>
      refine ⟨.failed fault, by simp [isMistake, endAt], ⟨?_, ?_, fun _ _ => rfl⟩⟩
      · simp [planned, Ending.status, isMistake]
      · simp [planned, Ending.status]
  | ok p =>
    dsimp only [Plan.after]
    cases built : (p.step σ τ t).result with
    | error fault =>
      refine ⟨.failed (.site fault), rfl, ⟨?_, ?_, fun _ _ => rfl⟩⟩
      · simp [planned, Ending.status]
      · simp [planned, Ending.status, built]
    | ok r =>
      refine ⟨_, rfl, ⟨?_, ?_, ?_⟩⟩
      · dsimp only [Ending.status]
        split <;> simp [planned]
      · have none : p.expansion.faults.length + r.faults.length = 0 ↔ p.expansion.faults = [] ∧ r.isOk = true := by
          rw [Nat.add_eq_zero_iff, List.length_eq_zero_iff, List.length_eq_zero_iff, Site.Result.isOk, List.isEmpty_iff]
        dsimp only [Ending.status]
        split
        · next h => exact iff_of_true rfl ⟨p, r, planned, (none.1 h).1, built, (none.1 h).2⟩
        · next h =>
          refine iff_of_false nofun ?_
          rintro ⟨p', r', planned', faults, built', ok⟩
          cases planned.symm.trans planned'
          cases built.symm.trans built'
          exact h (none.2 ⟨faults, ok⟩)
      · dsimp only [Ending.status]
        split
        · exact fun _ h => absurd rfl h
        · exact fun _ _ => rfl

/-! ## What was planned -/

/-- The pages of a plan are those that the entries expand to. -/
theorem expandEntries_of_plan (h : plan w t s = .ok p) :
    expandEntries t p.site.bindings p.site.ext p.patterns = .ok p.expansion := by
  obtain ⟨⟨config, options⟩, -, h⟩ := bind_eq_ok_iff.1 h
  dsimp only at h
  split at h
  · cases h
  · obtain ⟨bindings, -, h⟩ := bind_eq_ok_iff.1 h
    obtain ⟨expansion, expanded, h⟩ := bind_eq_ok_iff.1 h
    cases h
    exact mapError_eq_ok_iff.1 expanded

/-- Everything that was planned stands after a build without a fault, if files are to be written, the output root was
empty, and the outputs are apart from each other. -/
def Delivers (σ : Schedule) (t : FileTree) (p : Plan) (r : Site.Result) (u : FileTree) : Prop :=
  let sources := Site.foundAssets σ p.site t p.patterns p.expansion.pages
  t.Named → p.site.options.noWrite = false → (∀ l, p.site.IsInside l → t.get? l = none) →
    p.site.Apart p.expansion.pages sources → p.site.Delivers p.expansion.pages sources r u

/-- The status of a run tells what has become of it, and a run that ends before the build has touched nothing. After
status 0 all that was planned is there. -/
theorem exit_status_tells (accepts : Accepts w t args s) (σ τ : Schedule) :
    ∃ ending, (runIn σ τ w t args).next = .ends ending ∧ Tells σ τ w t s ending.status ∧
      ((∃ fault, plan w t s = .error fault) → (runIn σ τ w t args).tree = t) ∧
      (ending.status = 0 → ∃ p r, plan w t s = .ok p ∧ (p.step σ τ t).result = .ok r ∧
        Delivers σ t p r (runIn σ τ w t args).tree) := by
  rw [accepts.runIn_eq σ τ]
  obtain ⟨ending, ends, tells⟩ := tells_runFrom σ τ w t s
  have tree := tree_runFrom σ τ w t false s
  refine ⟨ending, ends, tells, ?_, fun zero => ?_⟩
  · rintro ⟨fault, planned⟩
    rw [tree, planned]
  · obtain ⟨p, r, planned, -, built, ok⟩ := tells.good.1 zero
    refine ⟨p, r, planned, built, fun named writes empty apart => ?_⟩
    rw [tree, planned]
    refine Site.delivers_of_isOk (fun page hm => ?_) apart writes empty built ok
    exact (planned_of_expandEntries named (expandEntries_of_plan planned) hm).1

/-! ### A run of the small project -/

def smallSurroundings : Surroundings := { dir := ⟨.slash, ["p"]⟩, now := ⟨⟨2024, 1, 1⟩, 0, 0, 0, 0, none⟩ }

def smallSources : Config.Sources := { flags := some { entries := some ["site/**/*.j2"], sitemap := some true } }

theorem accepts_small : Accepts smallSurroundings Site.smallTree ["--sitemap", "site/**/*.j2"] smallSources := by
  refine ⟨{ entries := ["site/**/*.j2"], given := [.switch .sitemap] }, ?_, rfl, rfl, rfl⟩
  have rest : readArguments ["site/**/*.j2"] = .ok { entries := ["site/**/*.j2"] } := by
    rw [readArguments, if_neg (by decide), if_neg (by decide +kernel), readArguments]
    rfl
  have option : readOption "--sitemap" (some "site/**/*.j2") = .ok { given := [.switch .sitemap] } := by rfl
  rw [readArguments, if_neg (by decide), if_pos (by decide +kernel)]
  show readOption "--sitemap" (some "site/**/*.j2") >>= _ = _
  rw [option]
  show readArguments ["site/**/*.j2"] >>= _ = _
  rw [rest]
  rfl


/-- The run of the small project ends with status 0, and its two pages, its style sheet and the sitemap are there. -/
theorem exit_status_tells_small :
    let run := runIn .backward .forward smallSurroundings Site.smallTree ["--sitemap", "site/**/*.j2"]
    Accepts smallSurroundings Site.smallTree ["--sitemap", "site/**/*.j2"] smallSources ∧
      (∃ ending, run.next = .ends ending ∧ ending.status = 0) ∧
      ∃ (p : Plan) (r : Site.Result), p.expansion.pages.length = 2 ∧
        Site.foundAssets .backward p.site Site.smallTree p.patterns p.expansion.pages =
          [⟨.relative, ["site", "c.css"]⟩] ∧ p.site.options.sitemap = true ∧
        p.site.Delivers p.expansion.pages
          (Site.foundAssets .backward p.site Site.smallTree p.patterns p.expansion.pages) r run.tree := by
  have computed : ((plan smallSurroundings Site.smallTree smallSources).toOption.bind fun p =>
      (p.step .backward .forward Site.smallTree).result.toOption.map fun r =>
        decide ((p.expansion.faults = [] ∧ r.isOk = true ∧ p.expansion.pages.length = 2) ∧
          Site.foundAssets .backward p.site Site.smallTree p.patterns p.expansion.pages =
            [⟨.relative, ["site", "c.css"]⟩] ∧ p.site.options.sitemap = true ∧ p.site.options.noWrite = false ∧
          p.site.Apart p.expansion.pages
            (Site.foundAssets .backward p.site Site.smallTree p.patterns p.expansion.pages) ∧
          ∀ e ∈ Site.smallTree.entries, ¬ p.site.IsInside e.1)) = some true := by
    decide +kernel
  obtain ⟨p, planned, computed⟩ := Option.bind_eq_some_iff.1 computed
  obtain ⟨r, built, computed⟩ := Option.map_eq_some_iff.1 computed
  rw [toOption_eq_some_iff] at planned built
  obtain ⟨⟨faults, ok, pages⟩, found, sitemap, writes, apart, free⟩ := of_decide_eq_true computed
  obtain ⟨ending, ends, tells, -, delivers⟩ := exit_status_tells accepts_small .backward .forward
  have zero : ending.status = 0 := tells.good.2 ⟨p, r, planned, faults, built, ok⟩
  obtain ⟨p', r', planned', built', stands⟩ := delivers zero
  cases planned.symm.trans planned'
  cases built.symm.trans built'
  have named : Site.smallTree.Named := FileTree.named_of_entries (by decide +kernel)
  exact ⟨accepts_small, ⟨ending, ends, zero⟩, p, r, pages, found, sitemap, stands named writes (Site.empty_of_entries free) apart⟩

end StaticSite.Command
