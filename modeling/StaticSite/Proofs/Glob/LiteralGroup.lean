import StaticSite.Proofs.Glob.BraceTree

/-!
# Groups without a comma

A group without a comma is plain text and stays as it is. As only groups without inner braces are expanded, it also
keeps every group around it from being expanded. So it can be taken for a character and put back afterwards exactly
where it does not stand in a group of alternatives (`expandBraces_literal_iff`).
-/

namespace StaticSite.Glob

/-- The character stands in a group of alternatives. -/
def Enclosed (c : Char) (cs : List Char) : Prop :=
  ∃ (before : List Char) (t : BraceTree .alternatives) (after : List Char),
    cs = before ++ '{' :: t.write ++ '}' :: after ∧ c ∈ t.write

theorem Group.Splits.plain_of_mem_alternatives {g : Group} (hg : g.Splits) {a : List Char} (ha : a ∈ g.alternatives)
    {c : Char} (hc : c ∈ a) : IsPlain true c where
  opening he := hg.opening (he ▸ Text.mem_of_mem_splitOn ha hc)
  closing he := hg.closing (he ▸ Text.mem_of_mem_splitOn ha hc)
  comma _ he := Text.notMem_of_mem_splitOn ha (he ▸ hc)

/-! ## Groups put into trees -/

/-- A text without `d` stands before a `d` or behind it. -/
theorem append_cons_eq_append {d : Char} {x y u a v : List Char} (h : x ++ d :: y = u ++ a ++ v) (hd : d ∉ a) :
    (∃ v', x = u ++ a ++ v' ∧ v = v' ++ d :: y) ∨ ∃ u', u = x ++ d :: u' ∧ y = u' ++ a ++ v := by
  rcases List.append_eq_append_iff.1 h with ⟨more, hua, hy⟩ | ⟨v', hx, hv⟩
  · cases more with
    | nil => exact .inl ⟨[], by simpa using hua.symm, by simpa using hy.symm⟩
    | cons e more =>
      obtain ⟨rfl, rfl⟩ := List.cons.inj hy
      rcases List.append_eq_append_iff.1 hua with ⟨w, -, ha⟩ | ⟨w, hu, hmore⟩
      · exact absurd (ha ▸ by simp) hd
      · cases w with
        | nil =>
          rw [List.nil_append] at hmore
          exact absurd (hmore ▸ List.mem_cons_self) hd
        | cons e u' =>
          obtain ⟨rfl, rfl⟩ := List.cons.inj hmore
          exact .inr ⟨u', hu, rfl⟩
  · exact .inl ⟨v', hx, hv⟩

namespace BraceTree

variable {part : Part} {inside : Bool} {u a v : List Char}

theorem exists_row_write {cs : List Char} (h : ∀ c ∈ cs, IsPlain inside c) :
    ∃ t : BraceTree (.row inside), t.write = cs := by
  induction cs with
  | nil => exact ⟨.done, rfl⟩
  | cons c cs ih =>
    obtain ⟨t, rfl⟩ := ih fun d hd => h d (List.mem_cons_of_mem _ hd)
    exact ⟨.char c (h c List.mem_cons_self) t, rfl⟩

/-- What a group without inner braces holds is a tree. -/
theorem exists_alternatives_write {g : Group} (hg : g.Splits) : ∃ t : BraceTree .alternatives, t.write = g.body := by
  have pieces : ∀ piece ∈ g.alternatives, ∃ t : BraceTree (.row true), t.write = piece := fun piece hp =>
    exists_row_write fun c hc => hg.plain_of_mem_alternatives hp hc
  have joined : ∀ (rest : List (List Char)) (piece next : List Char),
      (∀ p ∈ piece :: next :: rest, ∃ t : BraceTree (.row true), t.write = p) →
      ∃ t : BraceTree .alternatives, t.write = Text.joinWith ',' (piece :: next :: rest) := by
    intro rest
    induction rest with
    | nil =>
      intro piece next trees
      obtain ⟨first, rfl⟩ := trees piece (by simp)
      obtain ⟨second, rfl⟩ := trees next (by simp)
      exact ⟨.pair first second, rfl⟩
    | cons third rest ih =>
      intro piece next trees
      obtain ⟨first, rfl⟩ := trees piece (by simp)
      obtain ⟨others, hw⟩ := ih next third fun p hp => trees p (List.mem_cons_of_mem _ hp)
      exact ⟨.more first others, by rw [write, hw]; rfl⟩
  have whole : Text.joinWith ',' g.alternatives = g.body := Text.joinWith_splitOn ',' g.body
  rw [← whole]
  obtain ⟨piece, others, split⟩ := List.exists_cons_of_ne_nil (Text.splitOn_ne_nil ',' g.body)
  change g.alternatives = piece :: others at split
  rw [split] at whole pieces ⊢
  cases others with
  | nil =>
    -- a single piece holds no comma
    have alone : piece = g.body := whole
    exact absurd (alone ▸ hg.comma) (Text.notMem_of_mem_splitOn (split ▸ List.mem_singleton_self piece))
  | cons next rest => exact joined rest piece next pieces

/-- Plain characters at the beginning of a row can be taken away. -/
theorem exists_row_drop (plain : ∀ c ∈ a, IsPlain true c) {t : BraceTree (.row inside)} (h : t.write = a ++ v) :
    ∃ t' : BraceTree (.row inside), t'.write = v := by
  induction a generalizing t with
  | nil => exact ⟨t, h⟩
  | cons c a ih =>
    cases t with
    | done => cases h
    | char d hd rest => exact ih (fun e he => plain e (List.mem_cons_of_mem _ he)) (List.cons.inj h).2
    | group alternatives rest => exact absurd (List.cons.inj h).1.symm (plain c List.mem_cons_self).opening

/-- In a tree a group can stand in the place of plain characters. -/
theorem exists_write_group (w : BraceTree .alternatives) (plain : ∀ c ∈ a, IsPlain true c) {t : BraceTree part}
    (h : t.write = u ++ a ++ v) : ∃ t' : BraceTree part, t'.write = u ++ '{' :: w.write ++ '}' :: v := by
  have outOf : ∀ {d : Char}, (¬ IsPlain true d) → d ∉ a := fun hd hm => hd (plain _ hm)
  induction t generalizing u v with
  | done =>
    obtain ⟨hua, rfl⟩ := List.append_eq_nil_iff.1 h.symm
    obtain ⟨rfl, rfl⟩ := List.append_eq_nil_iff.1 hua
    exact ⟨.group w .done, by simp [write]⟩
  | char c hc rest ih =>
    cases u with
    | nil =>
      obtain ⟨t, rfl⟩ := exists_row_drop plain h
      exact ⟨.group w t, by simp [write]⟩
    | cons d u =>
      obtain ⟨rfl, inner⟩ : c = d ∧ rest.write = u ++ a ++ v := by simpa [write] using h
      obtain ⟨t, ht⟩ := ih inner
      exact ⟨.char c hc t, by simp [write, ht]⟩
  | group alternatives rest ihAlternatives ihRest =>
    cases u with
    | nil =>
      obtain ⟨t, rfl⟩ := exists_row_drop plain h
      exact ⟨.group w t, by simp [write]⟩
    | cons d u =>
      obtain ⟨rfl, inner⟩ : '{' = d ∧ alternatives.write ++ '}' :: rest.write = u ++ a ++ v := by simpa [write] using h
      rcases append_cons_eq_append inner (outOf fun hp => hp.closing rfl) with ⟨v', hx, rfl⟩ | ⟨u', rfl, hy⟩
      · obtain ⟨t, ht⟩ := ihAlternatives hx
        exact ⟨.group t rest, by simp [write, ht]⟩
      · obtain ⟨t, ht⟩ := ihRest hy
        exact ⟨.group alternatives t, by simp [write, ht]⟩
  | pair first second ihFirst ihSecond =>
    rcases append_cons_eq_append h (outOf fun hp => hp.comma rfl rfl) with ⟨v', hx, rfl⟩ | ⟨u', rfl, hy⟩
    · obtain ⟨t, ht⟩ := ihFirst hx
      exact ⟨.pair t second, by simp [write, ht]⟩
    · obtain ⟨t, ht⟩ := ihSecond hy
      exact ⟨.pair first t, by simp [write, ht]⟩
  | more first others ihFirst ihOthers =>
    rcases append_cons_eq_append h (outOf fun hp => hp.comma rfl rfl) with ⟨v', hx, rfl⟩ | ⟨u', rfl, hy⟩
    · obtain ⟨t, ht⟩ := ihFirst hx
      exact ⟨.more t others, by simp [write, ht]⟩
    · obtain ⟨t, ht⟩ := ihOthers hy
      exact ⟨.more first t, by simp [write, ht]⟩

/-- A character that stands once in a group is left out by some choice. -/
theorem exists_choice_without {t : BraceTree .alternatives} {c : Char} (h : t.write.count c ≤ 1) :
    ∃ s ∈ t.choices, c ∉ s := by
  have without : ∀ {part : Part} {t : BraceTree part}, c ∉ t.write → ∃ s ∈ t.choices, c ∉ s := fun {_ t} hc => by
    obtain ⟨s, hs⟩ := List.exists_mem_of_ne_nil _ t.choices_ne_nil
    exact ⟨s, hs, fun hm => hc (mem_of_mem_choices hs hm)⟩
  cases t with
  | pair first others | more first others =>
    rw [write, List.count_append, List.count_cons] at h
    by_cases hc : c ∈ first.write
    · have behind : c ∉ others.write := by
        have := List.count_pos_iff.2 hc
        rw [← List.count_eq_zero]
        omega
      obtain ⟨s, hs, hn⟩ := without behind
      exact ⟨s, List.mem_append_right _ hs, hn⟩
    · obtain ⟨s, hs, hn⟩ := without hc
      exact ⟨s, List.mem_append_left _ hs, hn⟩

end BraceTree

/-! ## Replacing a group beside the character -/

/-- What stands in a group when another one has been replaced stood in it before. -/
theorem Enclosed.of_put {f : Group} (hf : f.Splits) {a : List Char} (ha : a ∈ f.alternatives) {c : Char}
    (h : Enclosed c (f.put a)) : Enclosed c f.text := by
  obtain ⟨before, t, after, text, hc⟩ := h
  have plain : ∀ d ∈ a, IsPlain true d := fun d hd => hf.plain_of_mem_alternatives ha hd
  have cut : before ++ '{' :: (t.write ++ '}' :: after) = f.head ++ a ++ f.tail := by simpa [Group.put] using text.symm
  rcases append_cons_eq_append cut (fun hm => (plain _ hm).opening rfl) with ⟨v, rfl, htail⟩ | ⟨u, hhead, rest⟩
  · exact ⟨f.head ++ '{' :: f.body ++ '}' :: v, t, after, by simp [Group.text, htail], hc⟩
  · rcases append_cons_eq_append rest (fun hm => (plain _ hm).closing rfl) with ⟨v, hw, htail⟩ | ⟨u', rfl, rfl⟩
    · -- the replaced group stood in the other one
      obtain ⟨w, hbody⟩ := BraceTree.exists_alternatives_write hf
      obtain ⟨t', ht'⟩ := BraceTree.exists_write_group w plain hw
      rw [hbody] at ht'
      refine ⟨before, t', after, by simp [Group.text, hhead, htail, ht'], ?_⟩
      rw [hw] at hc
      rw [ht']
      simp only [List.mem_append, List.mem_cons] at hc ⊢
      rcases hc with (hc | hc) | hc
      · exact .inl (.inl hc)
      · exact .inl (.inr (.inr (Text.mem_of_mem_splitOn ha hc)))
      · exact .inr (.inr hc)
    · exact ⟨before, t, u' ++ '{' :: f.body ++ '}' :: f.tail, by simp [Group.text, hhead], hc⟩

/-- A character that stands in a group and nowhere else is left out by some expansion. -/
theorem Enclosed.exists_expand_without {c : Char} {cs : List Char} (h : Enclosed c cs) (once : cs.count c = 1) :
    ∃ r ∈ expand cs, c ∉ r := by
  obtain ⟨before, t, after, rfl, hc⟩ := h
  simp only [List.count_append, List.count_cons] at once
  have inside := List.count_pos_iff.2 hc
  obtain ⟨s, hs, without⟩ := BraceTree.exists_choice_without (t := t) (c := c) (by omega)
  obtain ⟨r, hr⟩ := List.exists_mem_of_ne_nil _ (expand_ne_nil (before ++ s ++ after))
  refine ⟨r, (t.mem_expand_alternatives before after).2 ⟨s, hs, hr⟩, fun hm => ?_⟩
  have front : c ∉ before := by
    rw [← List.count_eq_zero]
    omega
  have back : c ∉ after := by
    rw [← List.count_eq_zero]
    omega
  simpa [front, back, without] using mem_of_mem_expand hr hm

/-! ## Braces and commas -/

/-- The braces and commas of a text. -/
def skeleton (cs : List Char) : List Char := cs.filter fun c => c = '{' ∨ c = '}' ∨ c = ','

@[simp] theorem skeleton_append (cs ds : List Char) : skeleton (cs ++ ds) = skeleton cs ++ skeleton ds :=
  List.filter_append ..

theorem skeleton_of_plain {cs : List Char} (h : ∀ c ∈ cs, IsPlain true c) : skeleton cs = [] := by
  rw [skeleton, List.filter_eq_nil_iff]
  intro c hc
  have plain := h c hc
  simp [plain.opening, plain.closing, plain.comma rfl]

theorem count_skeleton (cs : List Char) : (skeleton cs).count '{' = cs.count '{' :=
  List.count_filter (by simp)

theorem mem_skeleton {cs : List Char} {c : Char} : c ∈ skeleton cs ↔ c ∈ cs ∧ (c = '{' ∨ c = '}' ∨ c = ',') := by
  simp [skeleton]

/-- A text with the same braces and commas has the same groups. -/
theorem exists_group_of_skeleton {g : Group} (hg : g.Splits) {cs : List Char} (h : skeleton cs = skeleton g.text) :
    ∃ f : Group, f.text = cs ∧ f.Splits ∧ skeleton f.head = skeleton g.head ∧ skeleton f.tail = skeleton g.tail := by
  have parts : skeleton cs = skeleton g.head ++ '{' :: (skeleton g.body ++ '}' :: skeleton g.tail) := by
    rw [h, Group.text]
    simp [skeleton, List.filter_append]
  obtain ⟨head, rest, rfl, hhead, hrest⟩ := List.filter_eq_append_iff.1 parts
  obtain ⟨before, rest, rfl, hbefore, -, hrest⟩ := List.filter_eq_cons_iff.1 hrest
  obtain ⟨body, rest, rfl, hbody, hrest⟩ := List.filter_eq_append_iff.1 hrest
  obtain ⟨behind, tail, rfl, hbehind, -, htail⟩ := List.filter_eq_cons_iff.1 hrest
  have plainBefore : skeleton before = [] := List.filter_eq_nil_iff.2 hbefore
  have plainBehind : skeleton behind = [] := List.filter_eq_nil_iff.2 hbehind
  have same : ∀ {c : Char}, c = '{' ∨ c = '}' ∨ c = ',' → (c ∈ body ++ behind ↔ c ∈ g.body) := fun {c} hc => by
    have whole : skeleton (body ++ behind) = skeleton g.body := by
      rw [skeleton_append, plainBehind, List.append_nil]
      exact hbody
    have among := congrArg (c ∈ ·) whole
    simpa [mem_skeleton, hc] using among
  refine ⟨⟨head ++ before, body ++ behind, tail⟩, by simp [Group.text], ⟨⟨?_, ?_⟩, ?_⟩, ?_, htail⟩
  · exact fun hm => hg.opening ((same (.inl rfl)).1 hm)
  · exact fun hm => hg.closing ((same (.inr (.inl rfl))).1 hm)
  · exact (same (.inr (.inr rfl))).2 hg.comma
  · rw [skeleton_append, plainBefore, List.append_nil]
    exact hhead

theorem count_le_of_mem_expand {cs r : List Char} (h : r ∈ expand cs) : r.count '{' ≤ cs.count '{' := by
  induction cs using expand.induct generalizing r with
  | case1 cs none =>
    rw [expand_of_firstGroup_eq_none none, List.mem_singleton] at h
    exact h ▸ Nat.le_refl _
  | case2 cs g some ih =>
    rw [expand_eq_of_firstGroup some, mem_distinct, List.mem_flatMap] at h
    obtain ⟨a, ha, hr⟩ := h
    exact Nat.le_trans (ih a ha hr) (Nat.le_of_lt (firstGroup_count some ha))

/-! ## Literal groups -/

/-- The group is plain text: it holds no brace and no comma. -/
structure Group.Literal (g : Group) : Prop extends g.Innermost where
  comma : ',' ∉ g.body

theorem Group.Literal.of_body {f g : Group} (h : f.Literal) (same : g.body = f.body) : g.Literal :=
  ⟨⟨same ▸ h.opening, same ▸ h.closing⟩, same ▸ h.comma⟩

/-- A literal group stands apart from the first group that is expanded. -/
theorem Group.Literal.apart {f g : Group} (hg : g.Literal) (first : firstGroup g.text = some f) :
    f.Splits ∧ f.text = g.text ∧ f.Apart g := by
  obtain ⟨same, hf⟩ := text_of_firstGroup first
  refine ⟨hf, same, (Group.eq_or_apart hf.toInnermost hg.toInnermost same).resolve_left ?_⟩
  rintro rfl
  exact hg.comma hf.comma

/-- No expansion loses the braces of a literal group: all of them have more braces than those of a text that has the
same braces and commas but for the group. -/
theorem Group.Literal.count_lt {g : Group} (hg : g.Literal) {cs r r' : List Char}
    (same : skeleton cs = skeleton (g.put [])) (hr : r ∈ expand g.text) (hr' : r' ∈ expand cs) :
    r'.count '{' < r.count '{' := by
  induction hn : g.text.count '{' using Nat.strongRecOn generalizing g cs with
  | ind n ih =>
    cases first : firstGroup g.text with
    | none =>
      rw [expand_of_firstGroup_eq_none first, List.mem_singleton] at hr
      have fewer := count_le_of_mem_expand hr'
      rw [← count_skeleton cs, same, count_skeleton] at fewer
      refine Nat.lt_of_le_of_lt fewer ?_
      rw [hr, put, text]
      simp only [List.count_append, List.count_cons, List.count_nil]
      simp
    | some f =>
      obtain ⟨hf, text, F, G, hF, hG, both⟩ := hg.apart first
      rw [← text, mem_expand_text hf] at hr
      obtain ⟨b, hb, hr⟩ := hr
      -- the same group stands in the other text
      have hf' := hf.of_body (hF []).1
      obtain ⟨k, rfl, hk, khead, ktail⟩ := exists_group_of_skeleton hf' (same.trans (congrArg _ (hF []).2.symm))
      obtain ⟨a, ha, hr'⟩ := (mem_expand_text hk).1 hr'
      have alike : skeleton (k.put a) = skeleton ((G b).put []) := by
        rw [← both [] b, put, put]
        simp only [skeleton_append, khead, ktail]
        rw [skeleton_of_plain fun c hc => hk.plain_of_mem_alternatives ha hc,
          skeleton_of_plain fun c hc => hf.plain_of_mem_alternatives hb hc]
      have fewer := count_put_lt hf hb
      rw [text, hn, ← (hG b).2] at fewer
      rw [← (hG b).2] at hr
      exact ih _ fewer (hg.of_body (hG b).1) alike hr hr' rfl

/-! ## A character in the place of a literal group -/

/-- The text with `piece` in the place of every `mark`. -/
def putBack (mark : Char) (piece cs : List Char) : List Char := cs.flatMap fun c => if c = mark then piece else [c]

theorem putBack_of_notMem {mark : Char} {piece cs : List Char} (h : mark ∉ cs) : putBack mark piece cs = cs := by
  induction cs with
  | nil => rfl
  | cons c cs ih =>
    simp only [List.mem_cons, not_or] at h
    rw [putBack, List.flatMap_cons, if_neg (Ne.symm h.1)]
    exact congrArg (c :: ·) (ih h.2)

/-- The group with its braces. -/
def Group.braced (g : Group) : List Char := '{' :: g.body ++ ['}']

theorem Group.putBack_put {g : Group} {mark : Char} (h : mark ∉ g.text) :
    putBack mark g.braced (g.put [mark]) = g.text := by
  simp only [text, List.mem_append, List.mem_cons, not_or] at h
  have head : putBack mark g.braced g.head = g.head := putBack_of_notMem h.1.1
  have tail : putBack mark g.braced g.tail = g.tail := putBack_of_notMem h.2.2
  unfold putBack at head tail ⊢
  rw [put, List.flatMap_append, List.flatMap_append, head, tail]
  simp [text, braced]

/-- With a mark in the place of a literal group, no group can be replaced that could not be replaced before, but one
that holds the mark. -/
theorem Group.not_splits_beside {f g : Group} {mark : Char} (hf : f.Splits) (h : f.text = g.put [mark])
    (hm : mark ∉ f.body) (plain : IsPlain true mark) : ∃ k : Group, k.Splits ∧ k.text = g.text := by
  have cut : g.head ++ mark :: g.tail = f.head ++ f.braced ++ f.tail := by simpa [text, put, braced] using h.symm
  have outside : mark ∉ f.braced := by simp [braced, hm, plain.opening, plain.closing]
  rcases append_cons_eq_append cut outside with ⟨v, hhead, -⟩ | ⟨u, -, htail⟩
  · exact ⟨⟨f.head, f.body, v ++ g.braced ++ g.tail⟩, hf.of_body rfl, by simp [text, hhead, braced]⟩
  · exact ⟨⟨g.head ++ g.braced ++ u, f.body, f.tail⟩, hf.of_body rfl, by simp [text, htail, braced]⟩

/-- Where it stands in no group of alternatives, a literal group can be taken for a character. -/
theorem Group.Literal.mem_expand_iff {g : Group} (hg : g.Literal) {mark : Char} (fresh : mark ∉ g.text)
    (plain : IsPlain true mark) (free : ¬ Enclosed mark (g.put [mark])) {s : List Char} :
    s ∈ expand g.text ↔ ∃ r ∈ expand (g.put [mark]), putBack mark g.braced r = s := by
  induction hn : g.text.count '{' using Nat.strongRecOn generalizing g with
  | ind n ih =>
    cases first : firstGroup g.text with
    | none =>
      have last : firstGroup (g.put [mark]) = none := by
        cases second : firstGroup (g.put [mark]) with
        | none => rfl
        | some f =>
          obtain ⟨text, hf⟩ := text_of_firstGroup second
          by_cases hm : mark ∈ f.body
          · obtain ⟨t, ht⟩ := BraceTree.exists_alternatives_write hf
            exact absurd ⟨f.head, t, f.tail, by rw [ht, ← text]; rfl, ht ▸ hm⟩ free
          · obtain ⟨k, hk, same⟩ := not_splits_beside hf text hm plain
            obtain ⟨f', hf'⟩ := hk.exists_firstGroup
            rw [same, first] at hf'
            cases hf'
      simp [expand_of_firstGroup_eq_none first, expand_of_firstGroup_eq_none last, putBack_put fresh, eq_comm]
    | some f =>
      obtain ⟨hf, text, F, G, hF, hG, both⟩ := hg.apart first
      obtain ⟨body, marked⟩ := hF [mark]
      have hF' := hf.of_body body
      have each : ∀ b ∈ f.alternatives, (s ∈ expand (f.put b) ↔
          ∃ r ∈ expand ((G b).put [mark]), putBack mark g.braced r = s) := fun b hb => by
        obtain ⟨same, shorter⟩ := hG b
        have fewer := count_put_lt hf hb
        rw [text, hn, ← shorter] at fewer
        have still : mark ∉ (G b).text := fun hm =>
          fresh (text ▸ mem_text_of_mem_put hb (shorter ▸ hm))
        have outside : ¬ Enclosed mark ((G b).put [mark]) := fun enclosed =>
          free (marked ▸ Enclosed.of_put hF' (by rwa [alternatives, body]) (both [mark] b ▸ enclosed))
        have inner := ih _ fewer (hg.of_body same) still outside rfl
        rwa [shorter, braced, same] at inner
      have opened : ∀ r, r ∈ expand (g.put [mark]) ↔ ∃ b ∈ f.alternatives, r ∈ expand ((G b).put [mark]) := fun r => by
        rw [← marked, mem_expand_text hF', alternatives, body]
        exact exists_congr fun b => and_congr_right fun _ => by rw [both]
      rw [← text, mem_expand_text hf]
      constructor
      · rintro ⟨b, hb, hs⟩
        obtain ⟨r, hr, rfl⟩ := (each b hb).1 hs
        exact ⟨r, (opened r).2 ⟨b, hb, hr⟩, rfl⟩
      · rintro ⟨r, hr, rfl⟩
        obtain ⟨b, hb, hr⟩ := (opened r).1 hr
        exact ⟨b, hb, (each b hb).2 ⟨r, hr, rfl⟩⟩

/-- Where the mark stands in a group of alternatives, some expansion leaves it out, and is none of the text that holds
the literal group. -/
theorem Group.Literal.exists_expand_mark {g : Group} (hg : g.Literal) {mark : Char} (fresh : mark ∉ g.text)
    (plain : IsPlain true mark) (enclosed : Enclosed mark (g.put [mark])) :
    ∃ r ∈ expand (g.put [mark]), putBack mark g.braced r ∉ expand g.text := by
  have once : (g.put [mark]).count mark = 1 := by
    simp only [text, List.mem_append, List.mem_cons, not_or] at fresh
    simp [put, List.count_eq_zero.2 fresh.1.1, List.count_eq_zero.2 fresh.2.2]
  have same : skeleton (g.put [mark]) = skeleton (g.put []) := by
    have unseen : skeleton [mark] = [] := skeleton_of_plain (by simpa using plain)
    simp only [put, skeleton_append, unseen]
    rfl
  obtain ⟨r, hr, without⟩ := enclosed.exists_expand_without once
  refine ⟨r, hr, fun hm => ?_⟩
  rw [putBack_of_notMem without] at hm
  exact Nat.lt_irrefl _ (hg.count_lt same hm hr)

/-- A group without a comma can be taken for a character and put back into the expansions exactly where it does not
stand in a group of alternatives. -/
theorem expandBraces_literal_iff {g : Group} (hg : g.Literal) {mark : Char} (fresh : mark ∉ g.text)
    (comma : mark ≠ ',') :
    (∀ s, s ∈ expandBraces (String.ofList g.text) ↔
        ∃ r ∈ expandBraces (String.ofList (g.put [mark])), String.ofList (putBack mark g.braced r.toList) = s) ↔
      ¬ Enclosed mark (g.put [mark]) := by
  have plain : IsPlain true mark := by
    refine ⟨fun he => fresh ?_, fun he => fresh ?_, fun _ => comma⟩ <;> simp [Group.text, he]
  simp only [mem_expandBraces, String.toList_ofList]
  constructor
  · intro law enclosed
    obtain ⟨r, hr, lost⟩ := hg.exists_expand_mark fresh plain enclosed
    have kept := (law (String.ofList (putBack mark g.braced r))).2 ⟨String.ofList r, by simpa using hr, by simp⟩
    exact lost (by simpa using kept)
  · intro free s
    rw [hg.mem_expand_iff fresh plain free]
    constructor
    · rintro ⟨r, hr, back⟩
      exact ⟨String.ofList r, by simpa using hr, by simp [back]⟩
    · rintro ⟨r, hr, rfl⟩
      exact ⟨r.toList, hr, String.toList_ofList.symm⟩

/-- The group `{x}` beside alternatives. -/
def besideGroup : Group := ⟨[], ['x'], "{b,c}".toList⟩

/-- The group `{x}` in alternatives that stand in others. -/
def innerGroup : Group := ⟨['{', 'a', ',', '{', 'b'], ['x'], [',', 'c', '}', '}']⟩

/-- The literal group of `{x}{b,c}` can be put back, that of `{a,{b{x},c}}` cannot. -/
theorem expandBraces_literal_iff_both :
    (∀ s, s ∈ expandBraces "{x}{b,c}" ↔
        ∃ r ∈ expandBraces "z{b,c}", String.ofList (putBack 'z' "{x}".toList r.toList) = s) ∧
      ¬ ∀ s, s ∈ expandBraces "{a,{b{x},c}}" ↔
        ∃ r ∈ expandBraces "{a,{bz,c}}", String.ofList (putBack 'z' "{x}".toList r.toList) = s := by
  have beside : besideGroup.Literal := ⟨⟨by decide, by decide⟩, by decide⟩
  have inner : innerGroup.Literal := ⟨⟨by decide, by decide⟩, by decide⟩
  constructor
  · refine (@expandBraces_literal_iff _ beside 'z' (by decide) (by decide)).2 ?_
    rintro ⟨before, t, after, cut, mem⟩
    cases before with
    | nil => exact absurd (List.cons.inj cut).1 (by decide)
    | cons c before =>
      have behind : 'z' ∉ besideGroup.tail := by decide
      rw [show besideGroup.tail = _ from (List.cons.inj cut).2] at behind
      simp [mem] at behind
  · intro law
    refine (@expandBraces_literal_iff _ inner 'z' (by decide) (by decide)).1 law ?_
    exact ⟨['{', 'a', ','], .pair (.char 'b' (by decide) (.char 'z' (by decide) .done)) (.char 'c' (by decide) .done),
      ['}'], by decide, by decide⟩

/-- As it stands in a group of alternatives, the group of `{a{x},b}` keeps that from being expanded. -/
theorem nested_literal_group_stays :
    expandBraces "{a{x},b}" = ["{a{x},b}"] ∧
      ¬ ∀ s, s ∈ expandBraces "{a{x},b}" ↔
        ∃ r ∈ expandBraces "{az,b}", String.ofList (putBack 'z' "{x}".toList r.toList) = s := by
  have whole : expandBraces "{a{x},b}" = ["{a{x},b}"] := by decide +kernel
  have marked : expandBraces "{az,b}" = ["az", "b"] := by decide +kernel
  refine ⟨whole, fun law => ?_⟩
  have kept := (law "b").2 ⟨"b", by rw [marked]; decide, by decide⟩
  rw [whole] at kept
  exact absurd kept (by decide)

end StaticSite.Glob
