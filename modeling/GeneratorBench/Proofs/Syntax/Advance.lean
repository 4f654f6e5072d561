import GeneratorBench.Proofs.Syntax.Moves

/-!
Reading only ever goes on: what a reader took off the tokens to come is what was added to the
tokens behind. So no token is lost or changed, whatever the text.
-/

namespace GeneratorBench

namespace Cursor

def Reaches (c d : Cursor) : Prop :=
  ∃ us : List Token, c.rest = us ++ d.rest ∧ d.before = us.reverse ++ c.before

namespace Reaches

variable {c d e : Cursor}

theorem refl (c : Cursor) : c.Reaches c := ⟨[], rfl, rfl⟩

theorem trans (h : c.Reaches d) (h' : d.Reaches e) : c.Reaches e := by
  obtain ⟨us, hr, hb⟩ := h
  obtain ⟨vs, hr', hb'⟩ := h'
  exact ⟨us ++ vs, by simp [hr, hr'], by simp [hb, hb']⟩

theorem cons {t : Token} {rest : List Token} (hr : c.rest = t :: rest)
    (h : Reaches ⟨t :: c.before, rest⟩ d) : c.Reaches d :=
  trans (d := ⟨t :: c.before, rest⟩) ⟨[t], hr, rfl⟩ h

theorem started (h : c.Reaches d) (hc : c.before ≠ []) : d.before ≠ [] := by
  obtain ⟨us, -, hb⟩ := h
  rw [hb]
  exact List.append_ne_nil_of_right_ne_nil _ hc

theorem started_of_lt (h : c.Reaches d) (hlt : d.rest.length < c.rest.length) : d.before ≠ [] := by
  obtain ⟨us, hr, hb⟩ := h
  rw [hb]
  refine List.append_ne_nil_of_left_ne_nil ?_ _
  rintro hnil
  rw [List.reverse_eq_nil_iff.1 hnil, List.nil_append] at hr
  rw [hr] at hlt
  exact Nat.lt_irrefl _ hlt

end Reaches

theorem next_reaches {c : Cursor} (h : c.rest ≠ []) : c.Reaches c.next := by
  rw [next]
  split
  · rename_i hr
    exact absurd hr h
  · rename_i t rest hr
    exact .cons hr (.refl _)

theorem next_started (c : Cursor) {t : Token} {rest : List Token} (h : c.rest = t :: rest) :
    c.next.before ≠ [] := by
  rw [next, h]
  exact List.cons_ne_nil _ _

theorem optionalWord_reaches (c : Cursor) (w : String) :
    c.Reaches (if c.atWord w then c.next else c) := by
  split
  · rename_i h
    exact next_reaches (rest_ne_nil_of_atWord h)
  · exact .refl c

theorem skipBalanced_reaches (opening closing : Char) (depth : Nat) (before rest : List Token) :
    Reaches ⟨before, rest⟩ (skipBalanced opening closing depth before rest) := by
  induction rest generalizing depth before with
  | nil => exact .refl _
  | cons t rest ih =>
      rw [skipBalanced]
      split
      · exact .cons rfl (ih _ _)
      · split
        · split
          · exact .cons rfl (.refl _)
          · exact .cons rfl (ih _ _)
        · exact .cons rfl (ih _ _)

theorem skipGroup_reaches (c : Cursor) (opening closing : Char) :
    c.Reaches (c.skipGroup opening closing) := by
  rw [skipGroup]
  split
  · exact skipBalanced_reaches ..
  · exact .refl c

theorem skipPast_reaches (m : Char) (before rest : List Token) :
    Reaches ⟨before, rest⟩ (skipPast m before rest) := by
  induction rest generalizing before with
  | nil => exact .refl _
  | cons t rest ih =>
      rw [skipPast]
      split
      · exact .cons rfl (.refl _)
      · exact .cons rfl (ih _)

theorem skipUntil_reaches (stop : Token → Bool) (before rest : List Token) :
    Reaches ⟨before, rest⟩ (skipUntil stop before rest) := by
  induction rest generalizing before with
  | nil => exact .refl _
  | cons t rest ih =>
      rw [skipUntil]
      split
      · exact .refl _
      · exact .cons rfl (ih _)

theorem moreSegments_of_dot {c : Cursor} {dot segment : Token} {rest : List Token} {w : String}
    (hr : (c.skipGroup '<' '>').rest = dot :: segment :: rest) (hdot : dot.isMark '.' = true)
    (hword : segment.word? = some w) :
    c.moreSegments =
      (w :: (moreSegments ⟨segment :: dot :: (c.skipGroup '<' '>').before, rest⟩).1,
        (moreSegments ⟨segment :: dot :: (c.skipGroup '<' '>').before, rest⟩).2) := by
  rw [moreSegments]
  split
  · rename_i dot' segment' rest' hr'
    rw [hr, List.cons.injEq, List.cons.injEq] at hr'
    obtain ⟨rfl, rfl, rfl⟩ := hr'
    rw [hdot, hword]
  · rename_i none
    exact absurd hr (none dot segment rest)

theorem moreSegments_of_end {c : Cursor} (h : ∀ dot segment rest w,
    (c.skipGroup '<' '>').rest = dot :: segment :: rest → dot.isMark '.' = true →
      segment.word? ≠ some w) : c.moreSegments = ([], c.skipGroup '<' '>') := by
  rw [moreSegments]
  split
  · rename_i dot segment rest hr
    split
    · rename_i w hdot hword
      exact absurd hword (h dot segment rest w hr hdot)
    · rfl
  · rfl

theorem moreSegments_reaches (c : Cursor) : c.Reaches c.moreSegments.2 := by
  fun_induction moreSegments c with
  | case1 c past dot segment rest hr word _ _ words stop hstop ih =>
      rw [hstop] at ih
      exact (skipGroup_reaches c '<' '>').trans (.cons hr (.cons rfl ih))
  | case2 c past => exact skipGroup_reaches c '<' '>'
  | case3 c past => exact skipGroup_reaches c '<' '>'

theorem globalQualifier_reaches (c : Cursor) : c.Reaches c.globalQualifier.2 := by
  rw [globalQualifier]
  split
  · rename_i qualifier colon colon' rest hr
    split
    · exact .cons hr (.cons rfl (.cons rfl (.refl _)))
    · exact .refl c
  · exact .refl c

theorem name_reaches (c : Cursor) : c.Reaches c.name.2 := by
  refine (globalQualifier_reaches c).trans ?_
  rw [name]
  dsimp only
  split
  · exact .refl _
  · rename_i first rest hr
    split
    · exact .refl _
    · exact .cons hr (moreSegments_reaches _)

theorem baseNames_of_name {c stop : Cursor} {base : NameRef} (h : c.name = (some base, stop)) :
    c.baseNames =
      if stop.atMark ',' then
        (base :: stop.next.baseNames.1, stop.next.baseNames.2.1, stop.next.baseNames.2.2)
      else ([base], true, stop) := by
  rw [baseNames]
  split
  · rename_i hnone
    rw [h, Prod.mk.injEq] at hnone
    exact absurd hnone.1 (by simp)
  · rename_i hsome
    rw [h, Prod.mk.injEq, Option.some.injEq] at hsome
    obtain ⟨rfl, rfl⟩ := hsome
    rfl

theorem baseNames_of_none {c stop : Cursor} (h : c.name = (none, stop)) :
    c.baseNames = ([], false, stop) := by
  rw [baseNames]
  split
  · rename_i hnone
    rw [h, Prod.mk.injEq] at hnone
    rw [hnone.2]
  · rename_i hsome
    rw [h, Prod.mk.injEq] at hsome
    exact absurd hsome.1 (by simp)

theorem baseNames_reaches (c : Cursor) : c.Reaches c.baseNames.2.2 := by
  fun_induction baseNames c with
  | case1 c stop h =>
      have hname := name_reaches c
      rw [h] at hname
      exact hname
  | case2 c base stop h comma bases wellFormed last hlast ih =>
      have hname := name_reaches c
      rw [h] at hname
      rw [hlast] at ih
      exact (hname.trans (next_reaches (rest_ne_nil_of_atMark comma))).trans ih
  | case3 c base stop h =>
      have hname := name_reaches c
      rw [h] at hname
      exact hname

theorem typeStart?_reaches {c : Cursor} {start : TypeStart} (h : c.typeStart? = some start) :
    c.Reaches start.stop := by
  have hmods := List.takeWhile_append_dropWhile (p := isModifier) (l := c.rest)
  rw [typeStart?] at h
  split at h
  · cases h
  · rename_i keyword rest hrest
    split at h
    · cases h
      rw [hrest] at hmods
      exact ⟨c.rest.takeWhile isModifier ++ [keyword], by simp [hmods], by simp⟩
    · cases h

end Cursor

namespace Parser

theorem usingDirective_reaches (s : State) : s.cursor.Reaches (usingDirective s).cursor := by
  have hstart := s.cursor.optionalWord_reaches "static"
  unfold usingDirective
  generalize (if s.cursor.atWord "static" then s.cursor.next else s.cursor) = start at hstart ⊢
  have hname := hstart.trans (Cursor.name_reaches start)
  dsimp only
  split
  · rename_i c h
    rw [h] at hname
    exact hname.trans (Cursor.skipPast_reaches ..)
  · rename_i name c h
    rw [h] at hname
    split
    · exact hname.trans (Cursor.skipPast_reaches ..)
    · split
      · rename_i semicolon
        exact hname.trans (Cursor.next_reaches (Cursor.rest_ne_nil_of_atMark semicolon))
      · exact hname

theorem namespaceHead_reaches (s : State) : s.cursor.Reaches (namespaceHead s).cursor := by
  refine (Cursor.name_reaches _).trans ?_
  rw [namespaceHead]
  split
  · rename_i c h
    rw [h]
    exact .refl c
  · rename_i name c h
    rw [h]
    dsimp only
    split
    · rename_i semicolon
      have hnext := Cursor.next_reaches (Cursor.rest_ne_nil_of_atMark semicolon)
      split
      · exact hnext
      · exact hnext
    · split
      · rename_i brace
        exact Cursor.next_reaches (Cursor.rest_ne_nil_of_atMark brace)
      · exact .refl c

theorem baseList_reaches (s : State) : s.cursor.Reaches (baseList s).2.cursor := by
  rw [baseList]
  split
  · rename_i colon
    refine (Cursor.next_reaches (Cursor.rest_ne_nil_of_atMark colon)).trans ?_
    dsimp only
    split
    · exact Cursor.baseNames_reaches _
    · exact Cursor.baseNames_reaches _
  · exact .refl _

theorem skipConstraints_reaches (s : State) : s.cursor.Reaches (skipConstraints s).cursor := by
  rw [skipConstraints]
  split
  · exact Cursor.skipUntil_reaches ..
  · exact .refl _

theorem typeBody_reaches (name : String) (s : State) :
    s.cursor.Reaches (typeBody name s).cursor := by
  rw [typeBody]
  split
  · rename_i brace
    exact Cursor.next_reaches (Cursor.rest_ne_nil_of_atMark brace)
  · split
    · rename_i semicolon
      exact Cursor.next_reaches (Cursor.rest_ne_nil_of_atMark semicolon)
    · exact .refl _

theorem typeTail_reaches (container : Option String) (isPartial : Bool) (name : NameRef)
    (s : State) : s.cursor.Reaches (typeTail container isPartial name s).cursor := by
  have hgroups : s.cursor.Reaches ((s.cursor.skipGroup '<' '>').skipGroup '(' ')') :=
    (Cursor.skipGroup_reaches ..).trans (Cursor.skipGroup_reaches ..)
  have hbases := hgroups.trans
    (baseList_reaches (s.moveTo ((s.cursor.skipGroup '<' '>').skipGroup '(' ')')))
  refine (hbases.trans (skipConstraints_reaches _)).trans ?_
  exact typeBody_reaches name.name ((skipConstraints (baseList _).2).addType _)

theorem typeHead_reaches (container : Option String) (isPartial : Bool) (s : State) :
    s.cursor.Reaches (typeHead container isPartial s).cursor := by
  rw [typeHead]
  split
  · exact .refl _
  · rename_i t rest hr
    split
    · exact .refl _
    · exact .cons hr (typeTail_reaches _ _ _ (s.moveTo ⟨t :: s.cursor.before, rest⟩))

theorem rest_ne_nil_of_record {c : Cursor} {keyword : Token}
    (h : (keyword.isWord "record" && (c.atWord "class" || c.atWord "struct")) = true) : c.rest ≠ [] := by
  rw [Bool.and_eq_true, Bool.or_eq_true] at h
  exact h.2.elim Cursor.rest_ne_nil_of_atWord Cursor.rest_ne_nil_of_atWord

theorem typeFrom_reaches (container : Option String) (start : Cursor.TypeStart) (s : State) :
    start.stop.Reaches (typeFrom container start s).cursor := by
  unfold typeFrom
  dsimp only
  split
  · rename_i hrecord
    exact (Cursor.next_reaches (rest_ne_nil_of_record hrecord)).trans (typeHead_reaches _ _ (s.moveTo start.stop.next))
  · exact typeHead_reaches _ _ (s.moveTo start.stop)

theorem closeFrame_cursor (s : State) : (closeFrame s).cursor = s.cursor := by
  rw [closeFrame]
  split
  · rfl
  · rfl
  · rfl

theorem Move.reaches {s t : State} (h : Move s t) : s.cursor.Reaches t.cursor := by
  have hnext {t : Token} {rest : List Token} (hr : s.cursor.rest = t :: rest) :=
    Cursor.next_reaches (Cursor.rest_ne_nil_of_eq hr)
  cases h with
  | done | giveUpBlock | giveUpBody => exact .refl _
  | closeBlock hr | stray hr | semicolon hr | inBody hr | closeBody hr => exact hnext hr
  | directive hr => exact (hnext hr).trans (usingDirective_reaches (s.moveTo s.cursor.next))
  | scope hr => exact (hnext hr).trans (namespaceHead_reaches (s.moveTo s.cursor.next))
  | attributes => exact Cursor.skipGroup_reaches ..
  | type hstart => exact (Cursor.typeStart?_reaches hstart).trans (typeFrom_reaches ..)
  | nested hr => exact .cons hr (typeFrom_reaches _ ⟨_, _, ⟨_, _⟩⟩ _)

theorem step_reaches (s : State) : s.cursor.Reaches (step s).cursor := (step_move s).reaches

end Parser

end GeneratorBench
