import GeneratorBench.Proofs.Syntax.Advance

/-!
The spans in a declaration skeleton. Each goes around tokens that come one after the other in the text, or is
the empty one behind a token or at the start of the text.
-/

namespace GeneratorBench

/-- The spans of names, bases and syntax errors. -/
def Skeleton.spans (s : Skeleton) : List Span :=
  s.usings.map (·.name.span) ++ s.types.flatMap (fun decl => decl.name.span :: decl.bases.map (·.span)) ++
    s.errors.map (·.span)

/-- How the reader takes a span from the tokens of a text. -/
inductive Span.Around (ts : List Token) : Span → Prop
  | start : Around ts (.point .origin)
  | behind {t : Token} (ht : t ∈ ts) : Around ts (.point t.stop)
  | run {us : List Token} {first last : Token} (hus : us <:+: ts) (hfirst : us.head? = some first)
      (hlast : us.getLast? = some last) : Around ts ⟨first.start, last.stop⟩

namespace Cursor

def Within (ts : List Token) (c : Cursor) : Prop := c.before.reverse ++ c.rest = ts

variable {ts : List Token} {c d : Cursor}

theorem Within.reaches (h : c.Within ts) (hr : c.Reaches d) : d.Within ts := by
  obtain ⟨us, hrest, hbefore⟩ := hr
  rw [Within, hbefore, ← h, hrest]
  simp

theorem Within.next_of_atMark (h : c.Within ts) {m : Char} (hm : c.atMark m = true) : c.next.Within ts :=
  h.reaches (next_reaches (rest_ne_nil_of_atMark hm))

theorem Within.here (h : c.Within ts) : c.here.Around ts := by
  rw [Cursor.here]
  cases hb : c.before with
  | nil => exact .start
  | cons t before =>
      refine .behind ?_
      rw [← h, hb]
      simp

theorem Within.next (h : c.Within ts) {t : Token} {rest : List Token} (hr : c.rest = t :: rest) :
    t.span.Around ts := by
  have hmem : [t] <:+: ts := ⟨c.before.reverse, rest, by rw [← h, hr]; simp⟩
  exact .run hmem rfl rfl

def Between (c : Cursor) (us : List Token) (d : Cursor) : Prop :=
  c.rest = us ++ d.rest ∧ d.before = us.reverse ++ c.before

theorem Between.run {us : List Token} (h : c.Between us d) (hw : c.Within ts) : us <:+: ts :=
  ⟨c.before.reverse, d.rest, by rw [List.append_assoc, ← h.1, hw]⟩

/-- What is read goes from the token that came next to the one that is last now. -/
theorem Between.exists_ends {us : List Token} (h : c.Between us d) (hne : us ≠ []) : ∃ first last,
    us.head? = some first ∧ us.getLast? = some last ∧ c.rest.head? = some first ∧ d.here.start = last.stop := by
  obtain ⟨first, more, hfirst⟩ := List.exists_cons_of_ne_nil hne
  have hlast := List.getLast?_eq_some_getLast hne
  refine ⟨first, us.getLast hne, by rw [hfirst, List.head?_cons], hlast, by rw [h.1, hfirst]; rfl, ?_⟩
  rw [List.getLast?_eq_head?_reverse] at hlast
  rw [here, h.2]
  cases hrev : us.reverse with
  | nil =>
      rw [hrev] at hlast
      cases hlast
  | cons last others =>
      rw [hrev, List.head?_cons, Option.some.injEq] at hlast
      rw [← hlast]
      rfl

theorem Within.read (h : c.Within ts) (hr : c.Reaches d) {t : Token} (ht : c.rest.head? = some t)
    (hlt : d.rest.length < c.rest.length) : Span.Around ts ⟨t.start, d.here.start⟩ := by
  obtain ⟨us, hbetween⟩ : ∃ us, c.Between us d := hr
  have hne : us ≠ [] := by
    rintro rfl
    rw [hbetween.1] at hlt
    exact absurd hlt (Nat.lt_irrefl _)
  obtain ⟨first, last, hfirst, hlast, hhead, hhere⟩ := hbetween.exists_ends hne
  rw [hhead] at ht
  cases ht
  rw [hhere]
  exact .run (hbetween.run h) hfirst hlast

theorem globalQualifier_head {first : Token} (h : c.globalQualifier.2.rest.head? = some first) :
    c.rest.head? = some (c.globalQualifier.1.getD first) := by
  rw [globalQualifier] at h ⊢
  split
  · rename_i qualifier colon colon' rest hrest
    simp only [hrest] at h
    split
    · rw [hrest]
      rfl
    · rename_i hnone
      rw [if_neg hnone] at h
      exact h
  · rename_i hnone
    split at h
    · rename_i hrest
      exact absurd hrest (hnone _ _ _ _)
    · exact h

theorem name_span {base : NameRef} (h : c.name = (some base, d)) :
    ∃ t, c.rest.head? = some t ∧ base.span = ⟨t.start, d.here.start⟩ := by
  rw [name] at h
  dsimp only at h
  split at h
  · cases h
  · rename_i first rest hrest
    split at h
    · cases h
    · cases h
      exact ⟨_, globalQualifier_head (by rw [hrest]; rfl), rfl⟩

theorem Within.of_name (hw : c.Within ts) {base : NameRef} (h : c.name = (some base, d)) :
    base.span.Around ts ∧ d.Within ts := by
  have hreaches := name_reaches c
  have hlt := name_rest_lt (c := c) (by simp [h])
  obtain ⟨t, ht, hspan⟩ := name_span h
  rw [h] at hreaches hlt
  rw [hspan]
  exact ⟨hw.read hreaches ht hlt, hw.reaches hreaches⟩

theorem Within.of_baseNames (hw : c.Within ts) : ∀ base ∈ c.baseNames.1, base.span.Around ts := by
  fun_induction baseNames c with
  | case1 c stop h =>
      intro base hbase
      cases hbase
  | case2 c base stop h comma bases wellFormed last hlast ih =>
      obtain ⟨hbase, hstop⟩ := hw.of_name h
      have hbases := ih (hstop.next_of_atMark comma)
      rw [hlast] at hbases
      exact List.forall_mem_cons.2 ⟨hbase, hbases⟩
  | case3 c base stop h =>
      obtain ⟨hbase, -⟩ := hw.of_name h
      exact List.forall_mem_singleton.2 hbase

end Cursor

namespace Parser

/-- The reader stands between the tokens, and what it recorded are spans around them. -/
structure State.Within (ts : List Token) (s : State) : Prop where
  cursor : s.cursor.Within ts
  spans : ∀ x ∈ s.skeleton.spans, x.Around ts

variable {ts : List Token} {s : State}

theorem mem_spans_report {cause : SyntaxError.Cause} {span x : Span} :
    x ∈ (s.report cause span).skeleton.spans ↔ x ∈ s.skeleton.spans ∨ x = span := by
  simp [Skeleton.spans, State.report, or_assoc]

theorem mem_spans_addUsing {name : NameRef} {x : Span} :
    x ∈ (s.addUsing name).skeleton.spans ↔ x ∈ s.skeleton.spans ∨ x = name.span := by
  simp [Skeleton.spans, State.addUsing, or_assoc, or_comm, eq_comm]

theorem mem_spans_addType {decl : TypeDecl} {x : Span} :
    x ∈ (s.addType decl).skeleton.spans ↔
      x ∈ s.skeleton.spans ∨ x ∈ decl.name.span :: decl.bases.map (·.span) := by
  simp [Skeleton.spans, State.addType, or_assoc, or_comm]

namespace State.Within

theorem moveTo (h : s.Within ts) {c : Cursor} (hc : c.Within ts) : (s.moveTo c).Within ts := ⟨hc, h.spans⟩

theorem advance (h : s.Within ts) {c : Cursor} (hr : s.cursor.Reaches c) : (s.moveTo c).Within ts :=
  h.moveTo (h.cursor.reaches hr)

theorem report (h : s.Within ts) (cause : SyntaxError.Cause) {span : Span} (hspan : span.Around ts) :
    (s.report cause span).Within ts where
  cursor := h.cursor
  spans x hx := by
    obtain hx | rfl := mem_spans_report.1 hx
    · exact h.spans x hx
    · exact hspan

theorem addUsing (h : s.Within ts) {name : NameRef} (hname : name.span.Around ts) :
    (s.addUsing name).Within ts where
  cursor := h.cursor
  spans x hx := by
    obtain hx | rfl := mem_spans_addUsing.1 hx
    · exact h.spans x hx
    · exact hname

theorem addType (h : s.Within ts) {decl : TypeDecl} (hname : decl.name.span.Around ts)
    (hbases : ∀ base ∈ decl.bases, base.span.Around ts) : (s.addType decl).Within ts where
  cursor := h.cursor
  spans x hx := by
    obtain hx | hx := mem_spans_addType.1 hx
    · exact h.spans x hx
    · obtain rfl | hx := List.mem_cons.1 hx
      · exact hname
      · obtain ⟨base, hbase, rfl⟩ := List.mem_map.1 hx
        exact hbases base hbase

end State.Within

theorem usingDirective_within (h : s.Within ts) : (usingDirective s).Within ts := by
  have hstart := h.cursor.reaches (s.cursor.optionalWord_reaches "static")
  unfold usingDirective
  generalize (if s.cursor.atWord "static" then s.cursor.next else s.cursor) = start at hstart ⊢
  have hread := hstart.reaches (Cursor.name_reaches start)
  dsimp only
  split
  · rename_i c hname
    rw [hname] at hread
    exact (h.report _ hread.here).moveTo (hread.reaches (Cursor.skipPast_reaches ..))
  · rename_i name c hname
    obtain ⟨hspan, hc⟩ := hstart.of_name hname
    split
    · exact h.moveTo (hc.reaches (Cursor.skipPast_reaches ..))
    · split
      · rename_i semicolon
        exact (h.moveTo (hc.next_of_atMark semicolon)).addUsing hspan
      · exact ((h.moveTo hc).report _ hc.here).addUsing hspan

theorem namespaceHead_within (h : s.Within ts) : (namespaceHead s).Within ts := by
  have hread := h.cursor.reaches (Cursor.name_reaches s.cursor)
  rw [namespaceHead]
  split
  · rename_i c hname
    rw [hname] at hread
    exact (h.moveTo hread).report _ hread.here
  · rename_i name c hname
    obtain ⟨hspan, hc⟩ := h.cursor.of_name hname
    dsimp only
    split
    · rename_i semicolon
      have hnext := h.moveTo (hc.next_of_atMark semicolon)
      split
      · exact hnext.report _ hspan
      · exact ⟨hnext.cursor, hnext.spans⟩
    · split
      · rename_i brace
        have hnext := h.moveTo (hc.next_of_atMark brace)
        exact ⟨hnext.cursor, hnext.spans⟩
      · exact State.Within.report (s := (s.moveTo c).addNamespace _) ⟨hc, h.spans⟩ _ hc.here

theorem baseList_within (h : s.Within ts) :
    (baseList s).2.Within ts ∧ ∀ base ∈ (baseList s).1, base.span.Around ts := by
  rw [baseList]
  split
  · rename_i colon
    have hnext := h.cursor.next_of_atMark colon
    have hstop := hnext.reaches (Cursor.baseNames_reaches _)
    refine ⟨?_, hnext.of_baseNames⟩
    dsimp only
    split
    · exact h.moveTo hstop
    · exact (h.moveTo hstop).report _ hstop.here
  · exact ⟨h, List.forall_mem_nil _⟩

theorem skipConstraints_within (h : s.Within ts) : (skipConstraints s).Within ts := by
  rw [skipConstraints]
  split
  · exact h.advance (Cursor.skipUntil_reaches ..)
  · exact h

theorem typeBody_within (name : String) (h : s.Within ts) : (typeBody name s).Within ts := by
  rw [typeBody]
  split
  · rename_i brace
    exact ⟨h.cursor.next_of_atMark brace, h.spans⟩
  · split
    · rename_i semicolon
      exact h.moveTo (h.cursor.next_of_atMark semicolon)
    · exact h.report _ h.cursor.here

theorem typeTail_within (container : Option String) (isPartial : Bool) {name : NameRef}
    (hname : name.span.Around ts) (h : s.Within ts) : (typeTail container isPartial name s).Within ts := by
  have hgroups : s.cursor.Reaches ((s.cursor.skipGroup '<' '>').skipGroup '(' ')') :=
    (Cursor.skipGroup_reaches ..).trans (Cursor.skipGroup_reaches ..)
  obtain ⟨hread, hbases⟩ := baseList_within (h.advance hgroups)
  exact typeBody_within _ ((skipConstraints_within hread).addType hname hbases)

theorem typeHead_within (container : Option String) (isPartial : Bool) (h : s.Within ts) :
    (typeHead container isPartial s).Within ts := by
  rw [typeHead]
  split
  · exact h.report _ h.cursor.here
  · rename_i t rest hrest
    split
    · exact h.report _ h.cursor.here
    · rename_i word hword
      have hname : (⟨word, t.span, false⟩ : NameRef).span.Around ts := h.cursor.next hrest
      exact typeTail_within container isPartial hname (h.advance (.cons hrest (.refl _)))

theorem typeFrom_within (container : Option String) {start : Cursor.TypeStart} (hstart : start.stop.Within ts)
    (h : s.Within ts) : (typeFrom container start s).Within ts := by
  unfold typeFrom
  dsimp only
  split
  · rename_i hrecord
    exact typeHead_within container _ (h.moveTo (hstart.reaches (Cursor.next_reaches (rest_ne_nil_of_record hrecord))))
  · exact typeHead_within container _ (h.moveTo hstart)

theorem Move.within {t : State} (hm : Move s t) (h : s.Within ts) : t.Within ts := by
  have hreport := h.report .closingBraceExpected h.cursor.here
  have hnext {t : Token} {rest : List Token} (hr : s.cursor.rest = t :: rest) :=
    h.advance (Cursor.next_reaches (Cursor.rest_ne_nil_of_eq hr))
  cases hm with
  | done => exact h
  | giveUpBlock | giveUpBody => exact ⟨hreport.cursor, hreport.spans⟩
  | closeBlock hr | inBody hr | closeBody hr => exact ⟨(hnext hr).cursor, (hnext hr).spans⟩
  | stray hr => exact (hnext hr).report _ (h.cursor.next hr)
  | directive hr => exact usingDirective_within (hnext hr)
  | scope hr => exact namespaceHead_within (hnext hr)
  | semicolon hr => exact hnext hr
  | attributes => exact h.advance (Cursor.skipGroup_reaches ..)
  | type hstart => exact typeFrom_within none (h.cursor.reaches (Cursor.typeStart?_reaches hstart)) h
  | nested hr => exact typeFrom_within _ (h.cursor.reaches (.cons hr (.refl _))) ⟨h.cursor, h.spans⟩

theorem step_within (h : s.Within ts) : (step s).Within ts := (step_move s).within h

theorem run_within (h : s.Within ts) : (run s).Within ts := run_preserves (fun _ => step_within) h

end Parser

theorem Skeleton.spans_around (ts : List Token) : ∀ x ∈ (ofTokens ts).spans, x.Around ts := by
  have hstart : Parser.State.Within ts { cursor := ⟨[], ts⟩ } := ⟨rfl, by simp [Skeleton.spans]⟩
  exact (Parser.run_within hstart).spans

end GeneratorBench
