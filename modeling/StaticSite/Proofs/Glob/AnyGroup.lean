import StaticSite.Glob.Braces

/-!
# Groups in any order

Expansion replaces the first group of alternatives that holds no brace, again and again. Groups without inner
braces do not overlap (`Group.eq_or_apart`), so any of them may be the one that is replaced first
(`mem_expand_text`).
-/

namespace StaticSite.Glob

/-! ## Groups in a text -/

/-- The group holds no brace. -/
structure Group.Innermost (g : Group) : Prop where
  opening : '{' ∉ g.body
  closing : '}' ∉ g.body

/-- The group can be replaced by its alternatives. -/
structure Group.Splits (g : Group) : Prop extends g.Innermost where
  comma : ',' ∈ g.body

namespace Group

/-- The text that the group stands in. -/
def text (g : Group) : List Char := g.head ++ '{' :: g.body ++ '}' :: g.tail

/-- The text with `piece` in the place of the group. -/
def put (g : Group) (piece : List Char) : List Char := g.head ++ piece ++ g.tail

def alternatives (g : Group) : List (List Char) := Text.splitOn ',' g.body

/-- Whether a group can be replaced does not depend on the text around it. -/
theorem Splits.of_body {f g : Group} (h : f.Splits) (same : g.body = f.body) : g.Splits :=
  ⟨⟨same ▸ h.opening, same ▸ h.closing⟩, same ▸ h.comma⟩

/-- The groups can be replaced independently of each other: `F a` is `f` in the text with `a` in the place of `g`, and
`G b` is `g` in the text with `b` in the place of `f`. -/
def Apart (f g : Group) : Prop :=
  ∃ F G : List Char → Group, (∀ a, (F a).body = f.body ∧ (F a).text = g.put a) ∧
    (∀ b, (G b).body = g.body ∧ (G b).text = f.put b) ∧ ∀ a b, (F a).put b = (G b).put a

theorem Apart.symm {f g : Group} (h : f.Apart g) : g.Apart f := by
  obtain ⟨F, G, hF, hG, same⟩ := h
  exact ⟨G, F, hG, hF, fun b a => (same a b).symm⟩

/-- A group that ends where the other has not begun stands apart from it. -/
theorem apart_of_before {f g : Group} {between : List Char} (head : g.head = f.head ++ '{' :: f.body ++ '}' :: between)
    (tail : f.tail = between ++ '{' :: g.body ++ '}' :: g.tail) : f.Apart g :=
  ⟨fun a => ⟨f.head, f.body, between ++ a ++ g.tail⟩, fun b => ⟨f.head ++ b ++ between, g.body, g.tail⟩,
    fun a => ⟨rfl, by simp [text, put, head]⟩, fun b => ⟨rfl, by simp [text, put, tail]⟩,
    fun a b => by simp [put]⟩

/-- What follows the place where `f` begins holds `g` from its beginning or behind its end. -/
theorem Innermost.rest_eq {f g : Group} (hf : f.Innermost) (hg : g.Innermost) {gap : List Char}
    (h : '{' :: f.body ++ '}' :: f.tail = gap ++ '{' :: g.body ++ '}' :: g.tail) :
    gap = [] ∧ f.body = g.body ∧ f.tail = g.tail ∨
      ∃ between, gap = '{' :: f.body ++ '}' :: between ∧ f.tail = between ++ '{' :: g.body ++ '}' :: g.tail := by
  cases gap with
  | nil =>
    have inner : f.body ++ '}' :: f.tail = g.body ++ '}' :: g.tail := (List.cons.inj h).2
    have cuts := congrArg (Text.cut '}') inner
    rw [Text.cut_append hf.closing, Text.cut_append hg.closing] at cuts
    obtain ⟨body, tail⟩ := Prod.mk.inj cuts
    exact .inl ⟨rfl, body, Option.some.inj tail⟩
  | cons c gap =>
    obtain ⟨rfl, inner⟩ : '{' = c ∧ f.body ++ '}' :: f.tail = gap ++ ('{' :: g.body ++ '}' :: g.tail) := by
      simpa using h
    rcases List.append_eq_append_iff.1 inner with ⟨more, hgap, hrest⟩ | ⟨more, hbody, hrest⟩
    · cases more with
      | nil => simp at hrest
      | cons d between =>
        obtain ⟨rfl, hrest⟩ := List.cons.inj hrest
        exact .inr ⟨between, by simp [hgap], by simpa using hrest⟩
    · -- the opening brace of `g` would stand in `f`
      cases more with
      | nil => simp at hrest
      | cons d more =>
        obtain ⟨rfl, -⟩ := List.cons.inj hrest
        exact absurd (hbody ▸ by simp) hf.opening

/-- Two groups of one text that hold no brace are the same or stand apart. -/
theorem eq_or_apart {f g : Group} (hf : f.Innermost) (hg : g.Innermost) (h : f.text = g.text) : f = g ∨ f.Apart g := by
  have equal : ∀ {f g : Group}, f.head = g.head → f.body = g.body → f.tail = g.tail → f = g := by
    rintro ⟨⟩ ⟨⟩ rfl rfl rfl
    rfl
  have same : f.head ++ ('{' :: f.body ++ '}' :: f.tail) = g.head ++ ('{' :: g.body ++ '}' :: g.tail) := by
    simpa [text] using h
  rcases List.append_eq_append_iff.1 same with ⟨gap, hhead, hrest⟩ | ⟨gap, hhead, hrest⟩
  · rcases hf.rest_eq hg (by simpa using hrest) with ⟨rfl, hbody, htail⟩ | ⟨between, rfl, htail⟩
    · exact .inl (equal (by simpa using hhead.symm) hbody htail)
    · exact .inr (apart_of_before (by simpa using hhead) htail)
  · rcases hg.rest_eq hf (by simpa using hrest) with ⟨rfl, hbody, htail⟩ | ⟨between, rfl, htail⟩
    · exact .inl (equal (by simpa using hhead) hbody.symm htail.symm)
    · exact .inr (apart_of_before (by simpa using hhead) htail).symm

end Group

/-! ## The first group -/

theorem groupBody_append {body : List Char} (ho : '{' ∉ body) (hc : '}' ∉ body) (rest : List Char) :
    groupBody (body ++ '}' :: rest) = some (body, rest) := by
  induction body with
  | nil => rfl
  | cons c cs ih =>
    simp only [List.mem_cons, not_or] at ho hc
    rw [List.cons_append, groupBody, ih ho.2 hc.2]
    · rfl
    · exact fun he => hc.1 he.symm
    · exact fun he => ho.1 he.symm

theorem text_of_firstGroup {cs : List Char} {f : Group} (h : firstGroup cs = some f) : f.text = cs ∧ f.Splits := by
  obtain ⟨text, comma, opening, closing⟩ := firstGroup_eq h
  exact ⟨text.symm, ⟨⟨opening, closing⟩, comma⟩⟩

/-- A text with a group that can be replaced has a first one. -/
theorem Group.Splits.exists_firstGroup {g : Group} (hg : g.Splits) : ∃ f, firstGroup g.text = some f := by
  obtain ⟨head, body, tail⟩ := g
  unfold text
  dsimp only
  induction head with
  | nil =>
    have found := groupBody_append hg.opening hg.closing tail
    dsimp only at found
    have comma : ',' ∈ body := hg.comma
    exact ⟨⟨[], body, tail⟩, by simp [firstGroup, found, comma]⟩
  | cons c head ih =>
    obtain ⟨f, hf⟩ := ih ⟨⟨hg.opening, hg.closing⟩, hg.comma⟩
    simp only [List.cons_append, firstGroup]
    split
    · split
      · exact ⟨_, rfl⟩
      · exact ⟨_, congrArg (Option.map _) hf⟩
    · exact ⟨_, congrArg (Option.map _) hf⟩

/-! ## Any group -/

theorem Group.count_put_lt {g : Group} (hg : g.Splits) {a : List Char} (ha : a ∈ g.alternatives) :
    (g.put a).count '{' < g.text.count '{' :=
  count_lt_of_alternative hg.opening ha

theorem Group.mem_text_of_mem_put {g : Group} {a : List Char} (ha : a ∈ g.alternatives) {c : Char} (hc : c ∈ g.put a) :
    c ∈ g.text := by
  simp only [put, text, List.mem_append, List.mem_cons] at hc ⊢
  rcases hc with (hc | hc) | hc
  · exact .inl (.inl hc)
  · exact .inl (.inr (.inr (Text.mem_of_mem_splitOn ha hc)))
  · exact .inr (.inr hc)

/-- Any group that can be replaced may be replaced first. -/
theorem mem_expand_text {g : Group} (hg : g.Splits) {r : List Char} :
    r ∈ expand g.text ↔ ∃ a ∈ g.alternatives, r ∈ expand (g.put a) := by
  induction hn : g.text.count '{' using Nat.strongRecOn generalizing g with
  | ind n ih =>
    obtain ⟨f, first⟩ := hg.exists_firstGroup
    obtain ⟨same, hf⟩ := text_of_firstGroup first
    have opened : r ∈ expand g.text ↔ ∃ b ∈ f.alternatives, r ∈ expand (f.put b) := by
      rw [expand_eq_of_firstGroup first, mem_distinct, List.mem_flatMap]
      rfl
    rcases Group.eq_or_apart hf.toInnermost hg.toInnermost same with rfl | ⟨F, G, hF, hG, both⟩
    · exact opened
    · -- where one group is replaced, the other stands in a text with fewer braces
      have left : ∀ b ∈ f.alternatives, (r ∈ expand (f.put b) ↔ ∃ a ∈ g.alternatives, r ∈ expand ((G b).put a)) :=
        fun b hb => by
          obtain ⟨body, text⟩ := hG b
          have fewer := Group.count_put_lt hf hb
          rw [same, hn, ← text] at fewer
          simpa only [text, Group.alternatives, body] using ih _ fewer (hg.of_body body) rfl
      have right : ∀ a ∈ g.alternatives, (r ∈ expand (g.put a) ↔ ∃ b ∈ f.alternatives, r ∈ expand ((F a).put b)) :=
        fun a ha => by
          obtain ⟨body, text⟩ := hF a
          have fewer := Group.count_put_lt hg ha
          rw [hn, ← text] at fewer
          simpa only [text, Group.alternatives, body] using ih _ fewer (hf.of_body body) rfl
      rw [opened]
      constructor
      · rintro ⟨b, hb, hr⟩
        obtain ⟨a, ha, hr⟩ := (left b hb).1 hr
        exact ⟨a, ha, (right a ha).2 ⟨b, hb, both a b ▸ hr⟩⟩
      · rintro ⟨a, ha, hr⟩
        obtain ⟨b, hb, hr⟩ := (right a ha).1 hr
        exact ⟨b, hb, (left b hb).2 ⟨a, ha, both a b ▸ hr⟩⟩

/-! ## What expansion gives -/

theorem expand_ne_nil (cs : List Char) : expand cs ≠ [] := by
  induction cs using expand.induct with
  | case1 cs none => simp [expand_of_firstGroup_eq_none none]
  | case2 cs g some ih =>
    obtain ⟨a, as, ha⟩ := List.exists_cons_of_ne_nil (Text.splitOn_ne_nil ',' g.body)
    have mem : a ∈ Text.splitOn ',' g.body := ha ▸ List.mem_cons_self
    obtain ⟨r, hr⟩ := List.exists_mem_of_ne_nil _ (ih a mem)
    rw [expand_eq_of_firstGroup some]
    exact List.ne_nil_of_mem (mem_distinct.2 (List.mem_flatMap.2 ⟨a, mem, hr⟩))

theorem nodup_expand (cs : List Char) : (expand cs).Nodup := by
  cases first : firstGroup cs with
  | none => simp [expand_of_firstGroup_eq_none first]
  | some g => simpa [expand_eq_of_firstGroup first] using nodup_distinct _

/-- Expansion brings in no character. -/
theorem mem_of_mem_expand {cs r : List Char} (h : r ∈ expand cs) {c : Char} (hc : c ∈ r) : c ∈ cs := by
  induction cs using expand.induct generalizing r with
  | case1 cs none =>
    rw [expand_of_firstGroup_eq_none none, List.mem_singleton] at h
    exact h ▸ hc
  | case2 cs g some ih =>
    rw [expand_eq_of_firstGroup some, mem_distinct, List.mem_flatMap] at h
    obtain ⟨a, ha, hr⟩ := h
    exact (text_of_firstGroup some).1 ▸ Group.mem_text_of_mem_put ha (ih a ha hr hc)

/-- A text without an opening brace is its only expansion. -/
theorem expand_of_notMem {cs : List Char} (h : '{' ∉ cs) : expand cs = [cs] := by
  cases first : firstGroup cs with
  | none => exact expand_of_firstGroup_eq_none first
  | some g => exact absurd ((firstGroup_eq first).1 ▸ by simp) h

theorem mem_expandBraces {pattern s : String} : s ∈ expandBraces pattern ↔ s.toList ∈ expand pattern.toList := by
  rw [expandBraces, List.mem_map]
  constructor
  · rintro ⟨cs, hcs, rfl⟩
    rwa [String.toList_ofList]
  · exact fun h => ⟨_, h, String.ofList_toList⟩

theorem nodup_expandBraces (pattern : String) : (expandBraces pattern).Nodup :=
  List.Pairwise.map String.ofList (fun _ _ ne same => ne (String.ofList_inj.1 same)) (nodup_expand _)

end StaticSite.Glob
