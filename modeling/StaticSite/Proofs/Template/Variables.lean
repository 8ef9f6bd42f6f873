import StaticSite.Proofs.Value.Record
import StaticSite.Template.Rendering

/-!
# What a template sees

A template sees its data by name only. Data that give every name the same item have the same output (`render_agree`),
in whatever order they stand and whatever else is in them.
-/

namespace StaticSite.Template

/-! ## Variables -/

/-- Every name has the same item. -/
def Variables.Agree (vs ws : Variables) : Prop := ∀ s, ws.lookup s = vs.lookup s

theorem Variables.Agree.append {vs ws : Variables} (h : vs.Agree ws) (found : Variables) :
    Variables.Agree (found ++ vs) (found ++ ws) := fun s => by
  rw [List.lookup_append, List.lookup_append, h s]

/-! ## Expressions -/

/-- The scopes differ in the variables of the template at most, and there every name has the same item. -/
structure Scope.Agree (a b : Scope) : Prop where
  rest : b = { a with globals := b.globals }
  globals : a.globals.Agree b.globals

namespace Scope.Agree

variable {a b : Scope} (h : a.Agree b)
include h

theorem strict : b.strict = a.strict := by rw [h.rest]

theorem find (s : String) : b.find s = a.find s := by
  have same := h.globals s
  rw [Scope.find, Scope.find, same, h.rest]
  rfl

theorem literal (item : Item) : b.literal item = a.literal item := by
  rw [h.rest]
  rfl

theorem noBranch (line : Nat) : b.noBranch line = a.noBranch line := by
  rw [h.rest]
  rfl

theorem join (items : List Item) : b.join items = a.join items := by
  rw [h.rest]
  rfl

theorem call (f : Item) (args : List Item) (named : List (String × Item)) : b.call f args named = a.call f args named := by
  rw [h.rest]
  rfl

end Scope.Agree

namespace Expr

variable {a b : Scope}

mutual

theorem eval_agree (h : a.Agree b) : (e : Expr) → e.eval b = e.eval a
  | .literal item => by rw [eval, eval, h.literal]
  | .name s => by rw [eval, eval, h.find]
  | .list items => by rw [eval, eval, evalAll_agree h items]
  | .tuple items => by rw [eval, eval, evalAll_agree h items]
  | .map entries => by rw [eval, eval, evalEntries_agree h [] entries]
  | .part e key => by rw [eval, eval, eval_agree h e, eval_agree h key, h.strict]
  | .field e s => by rw [eval, eval, eval_agree h e, h.strict]
  | .call f args named => by
    simp only [eval, eval_agree h f, evalAll_agree h args, evalNamed_agree h named, h.call]
  | .filter e s args named => by
    simp only [eval, eval_agree h e, evalAll_agree h args, evalNamed_agree h named, h.strict]
  | .test e s args named => by
    simp only [eval, eval_agree h e, evalAll_agree h args, evalNamed_agree h named]
  | .signed negative e => by rw [eval, eval, eval_agree h e]
  | .operate op x y => by simp only [eval, eval_agree h x, eval_agree h y]
  | .join items => by simp only [eval, evalAll_agree h items, h.join]
  | .compare e rest => by simp only [eval, eval_agree h e, evalRest_agree h _ rest]
  | .not e => by rw [eval, eval, eval_agree h e]
  | .and x y => by simp only [eval, eval_agree h x, eval_agree h y]
  | .or x y => by simp only [eval, eval_agree h x, eval_agree h y]
  | .choose c yes no => by simp only [eval, eval_agree h c, eval_agree h yes, eval_agree h no]
  | .noBranch line => by rw [eval, eval, h.noBranch]
  | .known _ item => by rw [eval, eval, h.literal]

theorem evalAll_agree (h : a.Agree b) : (es : List Expr) → evalAll b es = evalAll a es
  | [] => rfl
  | e :: es => by simp only [evalAll, eval_agree h e, evalAll_agree h es]

theorem evalEntries_agree (h : a.Agree b) (done : List (Item × Item)) :
    (es : List (Expr × Expr)) → evalEntries b done es = evalEntries a done es
  | [] => rfl
  | (k, v) :: es => by simp only [evalEntries, eval_agree h k, eval_agree h v, evalEntries_agree h _ es]

theorem evalNamed_agree (h : a.Agree b) : (es : List (String × Expr)) → evalNamed b es = evalNamed a es
  | [] => rfl
  | (s, e) :: es => by simp only [evalNamed, eval_agree h e, evalNamed_agree h es]

theorem evalRest_agree (h : a.Agree b) (item : Item) :
    (es : List (Comparison × Expr)) → evalRest b item es = evalRest a item es
  | [] => rfl
  | (c, e) :: es => by simp only [evalRest, eval_agree h e, evalRest_agree h _ es]

end

end Expr

/-! ## Results -/

/-- Results that are the same fault, or good ones that are related. -/
inductive Agreeing {α : Type} (R : α → α → Prop) : Except Fault α → Except Fault α → Prop where
  | error (fault : Fault) : Agreeing R (.error fault) (.error fault)
  | ok {x y : α} (h : R x y) : Agreeing R (.ok x) (.ok y)

namespace Agreeing

variable {α β : Type} {R : α → α → Prop} {S : β → β → Prop} {x y : Except Fault α}

theorem bind {f g : α → Except Fault β} (h : Agreeing R x y) (next : ∀ a b, R a b → Agreeing S (f a) (g b)) :
    Agreeing S (x >>= f) (y >>= g) := by
  cases h with
  | error fault => exact .error fault
  | ok related => exact next _ _ related

/-- What comes after the same result. -/
theorem after {f g : α → Except Fault β} (next : ∀ a, Agreeing S (f a) (g a)) : Agreeing S (x >>= f) (x >>= g) := by
  cases x with
  | error fault => exact .error fault
  | ok a => exact next a

theorem foldlM {γ : Type} {f g : α → γ → Except Fault α} (next : ∀ a b c, R a b → Agreeing R (f a c) (g b c))
    (cs : List γ) {a b : α} (h : R a b) : Agreeing R (cs.foldlM f a) (cs.foldlM g b) := by
  induction cs generalizing a b with
  | nil => exact .ok h
  | cons c cs ih =>
    rw [List.foldlM_cons, List.foldlM_cons]
    exact (next a b c h).bind fun _ _ => ih

theorem eq (h : Agreeing Eq x y) : x = y := by
  cases h with
  | error fault => rfl
  | ok same => rw [same]

end Agreeing

/-! ## Runs -/

/-- The contexts have the same blocks, and every name has the same item in both. -/
structure Context.Agree (c d : Context) : Prop where
  blocks : d.blocks = c.blocks
  globals : c.globals.Agree d.globals

/-- The outputs are the same in contexts that agree. -/
structure Outputs.Faithful (o : Outputs) : Prop where
  document : ∀ (document : Document) {c d : Context}, c.Agree d → o.document document d = o.document document c
  block : ∀ {c d : Context}, c.Agree d → o.block d = o.block c

/-- The runs differ in the variables of the template at most, and there every name has the same item. -/
structure Run.Agree (r s : Run) : Prop where
  rest : s = { r with context := s.context }
  context : r.context.Agree s.context

theorem Run.Agree.start {c d : Context} (h : c.Agree d) (pending known : List String) :
    Run.Agree { context := c, pending, known } { context := d, pending, known } := ⟨rfl, h⟩

namespace Run.Agree

variable {setting : Setting} {r s r₀ s₀ : Run} (h : r.Agree s)
include h

theorem frames : s.frames = r.frames := by rw [h.rest]

theorem pending : s.pending = r.pending := by rw [h.rest]

theorem known : s.known = r.known := by rw [h.rest]

theorem upper : s.upper = r.upper := by rw [h.rest]

theorem output : s.output = r.output := by rw [h.rest]

theorem visible : r.visible.Agree s.visible := by
  rw [Run.visible, Run.visible, h.frames]
  exact h.context.globals.append _

theorem eval (ho : setting.outputs.Faithful) (e : Expr) : s.eval setting e = r.eval setting e := by
  refine Expr.eval_agree ⟨?_, h.context.globals⟩ e
  rw [scope, scope, h.frames, h.pending, ho.block h.context]

theorem add (text : String) : (r.add text).Agree (s.add text) := by
  refine ⟨?_, h.context⟩
  rw [Run.add, h.rest]
  rfl

theorem addOwn (text : String) : (r.addOwn text).Agree (s.addOwn text) := by
  rw [Run.addOwn, Run.addOwn, h.upper]
  split
  · exact h
  · exact h.add text

theorem bind (found : Variables) : (r.bind found).Agree (s.bind found) := by
  rw [Run.bind, Run.bind, h.frames]
  split
  · exact ⟨by rw [h.rest], h.context.blocks, h.context.globals.append _⟩
  · exact ⟨by rw [h.rest], h.context⟩

theorem enter (values : Variables) (names : Names) : (r.enter values names).Agree (s.enter values names) :=
  ⟨by rw [Run.enter, h.rest]; rfl, h.context⟩

theorem leave (h₀ : r₀.Agree s₀) : (r.leave r₀).Agree (s.leave s₀) :=
  ⟨by rw [Run.leave, h.rest, h₀.frames, h₀.known]; rfl, h.context⟩

end Run.Agree

namespace Statement

variable {setting : Setting} {r s : Run}

theorem passes_agree (ho : setting.outputs.Faithful) (h : r.Agree s) (target : Target) (test : Option Expr) :
    passes setting s target test = passes setting r target test := by
  funext item
  cases test with
  | none => rfl
  | some e =>
    simp only [passes]
    refine bind_congr fun bound => ?_
    rw [(h.enter bound {}).eval ho]

/-- The rounds of a loop agree if its body does. -/
theorem rounds_agree (h : r.Agree s) {body : Run → Except Fault Run}
    (agree : ∀ {a b : Run}, a.Agree b → Agreeing Run.Agree (body a) (body b)) (test : Item → Except Fault Bool)
    (take : Item → Except Fault Variables) (values : Variables → Nat → Variables) (names : Names) (items : List Item) :
    let rounds (outer : Run) := items.foldlM (fun (x : Nat × Run) item => do
      let passed ← test item
      if passed then
        return (x.1 + 1, ← body ((x.2.leave outer).enter (values (← take item) x.1) names))
      else return (x.1, x.2)) (0, outer)
    Agreeing (fun x y => y.1 = x.1 ∧ x.2.Agree y.2) (rounds r) (rounds s) := by
  refine Agreeing.foldlM (fun x y item ⟨count, inner⟩ => ?_) items ⟨rfl, h⟩
  refine Agreeing.after fun passed => ?_
  rw [count]
  split
  · refine Agreeing.after fun found => ?_
    exact (agree ((inner.leave h).enter _ _)).bind fun _ _ after => .ok ⟨rfl, after⟩
  · exact .ok ⟨rfl, inner⟩

mutual

theorem exec_agree (ho : setting.outputs.Faithful) : (statement : Statement) → {r s : Run} → r.Agree s →
    Agreeing Run.Agree (exec setting statement r) (exec setting statement s)
  | .data text, r, s, h => .ok (h.addOwn text)
  | .output e, r, s, h => by
    simp only [exec, h.upper, h.eval ho]
    split
    · exact .ok h
    · have printed (item : Item) : Agreeing Run.Agree (do return r.add (← item.printed)) (do return s.add (← item.printed)) :=
        Agreeing.after fun text => .ok (h.add text)
      split
      · exact printed _
      · exact Agreeing.after printed
  | .branch branches otherwise, r, s, h => by
    simp only [exec]
    refine (execBranches_agree ho branches h).bind fun a b related => ?_
    cases related with
    | none => exact execAll_agree ho otherwise h
    | some related => exact .ok related
  | .loop target items test body otherwise, r, s, h => by
    simp only [exec, h.eval ho, h.known, passes_agree ho h]
    have ended : ∀ {x y : Nat × Run}, y.1 = x.1 ∧ x.2.Agree y.2 → Agreeing Run.Agree
        (if x.1 = 0 then do
          return (← execAll setting otherwise (r.enter [] (namesOfAll r.known otherwise {}))).leave r
        else return x.2.leave r)
        (if y.1 = 0 then do
          return (← execAll setting otherwise (s.enter [] (namesOfAll r.known otherwise {}))).leave s
        else return y.2.leave s) := by
      rintro x y ⟨count, inner⟩
      rw [count]
      split
      · exact (execAll_agree ho otherwise (h.enter _ _)).bind fun _ _ after => .ok (after.leave h)
      · exact .ok (inner.leave h)
    refine Agreeing.after fun item => Agreeing.after fun all => ?_
    cases keepsState body otherwise with
    | true =>
      simp only [if_true]
      refine Agreeing.after fun chosen => ?_
      exact (rounds_agree h (execAll_agree ho body) _ _ _ _ _).bind fun _ _ => ended
    | false =>
      simp only [Bool.false_eq_true, if_false]
      exact (rounds_agree h (execAll_agree ho body) _ _ _ _ _).bind fun _ _ => ended
  | .assign (.field _ _) _, r, s, h => by
    simp only [exec]
    exact .error _
  | .assign (.name x) e, r, s, h | .assign (.tuple targets) e, r, s, h => by
    simp only [exec, h.eval ho]
    exact Agreeing.after fun item => Agreeing.after fun found => .ok (h.bind found)
  | .capture target body, r, s, h => by
    simp only [exec, h.known]
    refine (execAll_agree ho body (r := { r.enter [] (namesOfAll r.known body {}) with upper := none, output := "" })
      (s := { s.enter [] (namesOfAll r.known body {}) with upper := none, output := "" }) ?_).bind fun a b inner => ?_
    · have entered := h.enter [] (namesOfAll r.known body {})
      exact ⟨by rw [entered.rest], entered.context⟩
    · rw [inner.output]
      exact Agreeing.after fun found => .ok (h.bind found)
  | .embed e mayMiss, r, s, h => by
    simp only [exec, h.eval ho]
    refine Agreeing.after fun item => ?_
    split
    · split
      · exact .ok h
      · exact .error _
    · next document _ =>
      have seen : Context.Agree ⟨r.visible, document.versions⟩ ⟨s.visible, document.versions⟩ := ⟨rfl, h.visible⟩
      rw [ho.document document seen]
      exact Agreeing.after fun text => .ok (h.add text)
  | .extend e, r, s, h => by
    simp only [exec, h.eval ho, h.upper, h.context.blocks]
    split
    · exact .error _
    · refine Agreeing.after fun item => Agreeing.after fun document => .ok ⟨?_, rfl, h.context.globals⟩
      rw [h.rest]
  | .block name seesLoops body, r, s, h => by
    simp only [exec, h.upper, h.frames]
    split
    · exact .ok h
    · have seen : Context.Agree (if seesLoops then { r.context with globals := r.visible } else r.context)
          (if seesLoops then { s.context with globals := s.visible } else s.context) := by
        split
        · exact ⟨h.context.blocks, h.visible⟩
        · exact h.context
      rw [ho.block seen]
      exact Agreeing.after fun text => .ok (h.add text)

theorem execAll_agree (ho : setting.outputs.Faithful) : (ss : List Statement) → {r s : Run} → r.Agree s →
    Agreeing Run.Agree (execAll setting ss r) (execAll setting ss s)
  | [], r, s, h => .ok h
  | statement :: ss, r, s, h => by
    rw [execAll, execAll]
    exact (exec_agree ho statement h).bind fun _ _ => execAll_agree ho ss

theorem execBranches_agree (ho : setting.outputs.Faithful) : (bs : List (Expr × List Statement)) → {r s : Run} →
    r.Agree s → Agreeing (Option.Rel Run.Agree) (execBranches setting bs r) (execBranches setting bs s)
  | [], r, s, h => .ok .none
  | (e, body) :: bs, r, s, h => by
    simp only [execBranches, h.eval ho]
    refine Agreeing.after fun item => Agreeing.after fun holds => ?_
    split
    · exact (execAll_agree ho body h).bind fun _ _ related => .ok (.some related)
    · exact execBranches_agree ho bs h

end

end Statement

/-! ## Templates and blocks -/

theorem blockOutput_agree {setting : Setting} (ho : setting.outputs.Faithful) {c d : Context} (h : c.Agree d)
    (block : String) (level : Nat) : blockOutput setting d block level = blockOutput setting c block level := by
  have versions : d.versions block = c.versions block := by rw [Context.versions, h.blocks, Context.versions]
  simp only [blockOutput, versions]
  split
  · rfl
  · next template body _ =>
    have own : ({ setting with template } : Setting).outputs.Faithful := ho
    refine (Agreeing.eq (Agreeing.bind (R := Run.Agree) ?_ fun a b inner => .ok inner.output.symm)).symm
    exact Statement.execAll_agree own body ((Run.Agree.start h [] []).enter _ _)

theorem documentOutput_agree {setting : Setting} (ho : setting.outputs.Faithful) (document : Document) {c d : Context}
    (h : c.Agree d) : documentOutput setting document d = documentOutput setting document c := by
  have own : ({ setting with template := document.name } : Setting).outputs.Faithful := ho
  refine (Agreeing.eq (Agreeing.bind (R := Run.Agree) ?_ fun a b inner => ?_)).symm
  · exact Statement.execAll_agree own document.body (.start h _ _)
  · rw [inner.upper, inner.output]
    split
    · exact .ok rfl
    · next upper _ =>
      rw [ho.document upper inner.context]
      exact Agreeing.after fun text => .ok rfl

theorem faithful_outputs (strict : Bool) (find : String → Except Fault Document) (depth : Nat) :
    (outputs strict find depth).Faithful := by
  induction depth with
  | zero => exact ⟨fun _ _ _ _ => rfl, fun _ => rfl⟩
  | succ depth ih =>
    exact ⟨fun document _ _ => documentOutput_agree ih document,
      fun h => funext fun block => funext fun level => blockOutput_agree ih h block level⟩

/-! ## Data -/

theorem lookup_variablesOf (r : Record) (s : String) : (variablesOf r).lookup s = (r.field? s).map Item.ofValue := by
  induction r with
  | nil => rfl
  | cons e r ih =>
    obtain ⟨k, v⟩ := e
    simp only [Record.field?, Record.get?_cons, Value.sameKey_iff (b := .text s) (.inr rfl)]
    cases k with
    | text t =>
      by_cases same : t = s
      · rw [same, if_pos rfl, variablesOf, List.filterMap_cons]
        exact List.lookup_cons_self
      · have other : (s == t) = false := beq_false_of_ne (Ne.symm same)
        rw [if_neg (by simpa [Value.key?] using same), variablesOf, List.filterMap_cons]
        exact (List.lookup_cons ..).trans (by rw [other]; exact ih)
    | null | bool | int | float | bytes | list | tuple | set | map | date | moment | knot | back =>
      rw [if_neg (by simp [Value.key?])]
      exact ih

/-- A template makes the same of data in which every name has the same value. -/
theorem render_agree {r s : Record} (h : ∀ name, s.field? name = r.field? name) (settings : TemplateSettings)
    (source : String → Except Fault String) (name : String) :
    render settings source name s = render settings source name r := by
  have agree : (variablesOf r).Agree (variablesOf s) := fun name => by
    rw [lookup_variablesOf, lookup_variablesOf, h]
  unfold render
  split
  · rfl
  · refine bind_congr fun document => ?_
    exact (faithful_outputs _ _ _).document document ⟨rfl, agree⟩

end StaticSite.Template
