import GeneratorBench.Proofs.Syntax.Spans

/-!
What holds of every name that can be read from the tokens holds of every name that is recorded. A type is declared in
no namespace but those that the text declares, and each of these is named by what was read, behind the one around it.
-/

namespace GeneratorBench

/-- A namespace is named by a name with the property, or by one behind the namespace around it. -/
inductive Qualified (R : NameRef → Prop) : String → Prop
  | outermost {name : NameRef} (h : R name) : Qualified R name.name
  | inside {outer : String} {name : NameRef} (houter : Qualified R outer) (h : R name) :
      Qualified R (outer ++ "." ++ name.name)

/-- Every name that can be read between the tokens has the property `R`, and every word `T`. -/
structure NamesAre (R T : NameRef → Prop) (ts : List Token) : Prop where
  names : ∀ {c d : Cursor} {name : NameRef}, c.Within ts → c.name = (some name, d) → R name
  words : ∀ {t : Token} {word : String}, t ∈ ts → t.word? = some word → T ⟨word, t.span, false⟩

structure Skeleton.NamesHold (R T : NameRef → Prop) (s : Skeleton) : Prop where
  usings : ∀ u ∈ s.usings, R u.name
  types : ∀ decl ∈ s.types, T decl.name
  bases : ∀ decl ∈ s.types, ∀ base ∈ decl.bases, R base
  namespaces : ∀ name ∈ s.namespaces, Qualified R name
  scopes : ∀ decl ∈ s.types, ∀ name ∈ decl.scope, name ∈ s.namespaces

variable {R T : NameRef → Prop} {ts : List Token}

namespace Cursor

variable {c : Cursor}

theorem Within.mem (h : c.Within ts) {t : Token} {rest : List Token} (hr : c.rest = t :: rest) : t ∈ ts := by
  rw [← h, hr]
  exact List.mem_append_right _ List.mem_cons_self

theorem forall_mem_baseNames (hread : NamesAre R T ts) (hw : c.Within ts) : ∀ base ∈ c.baseNames.1, R base := by
  fun_induction baseNames c with
  | case1 c stop hn => exact List.forall_mem_nil _
  | case2 c base stop hn comma bases wellFormed last hlast ih =>
      have hstop := (hw.of_name hn).2
      have hbases := ih (hstop.next_of_atMark comma)
      rw [hlast] at hbases
      exact List.forall_mem_cons.2 ⟨hread.names hw hn, hbases⟩
  | case3 c base stop hn => exact List.forall_mem_singleton.2 (hread.names hw hn)

end Cursor

namespace Parser

structure State.NamesHold (R T : NameRef → Prop) (s : State) : Prop where
  scopes : ∀ name ∈ s.scopes, name ∈ s.skeleton.namespaces
  skeleton : s.skeleton.NamesHold R T

variable {s : State}

namespace State.NamesHold

theorem moveTo (h : s.NamesHold R T) (c : Cursor) : (s.moveTo c).NamesHold R T := ⟨h.scopes, h.skeleton⟩

theorem withFrames (h : s.NamesHold R T) (frames : List Frame) : ({ s with frames } : State).NamesHold R T :=
  ⟨h.scopes, h.skeleton⟩

theorem report (h : s.NamesHold R T) (cause : SyntaxError.Cause) (span : Span) : (s.report cause span).NamesHold R T :=
  ⟨h.scopes, { h.skeleton with }⟩

theorem addUsing (h : s.NamesHold R T) {name : NameRef} (hname : R name) : (s.addUsing name).NamesHold R T where
  scopes := h.scopes
  skeleton := { h.skeleton with
    usings := List.forall_mem_append.2 ⟨h.skeleton.usings, List.forall_mem_singleton.2 hname⟩ }

theorem addType (h : s.NamesHold R T) {decl : TypeDecl} (hname : T decl.name) (hbases : ∀ base ∈ decl.bases, R base)
    (hscope : decl.scope = s.scopes.head?) : (s.addType decl).NamesHold R T where
  scopes := h.scopes
  skeleton := { h.skeleton with
    types := List.forall_mem_append.2 ⟨h.skeleton.types, List.forall_mem_singleton.2 hname⟩
    bases := List.forall_mem_append.2 ⟨h.skeleton.bases, List.forall_mem_singleton.2 hbases⟩
    scopes := List.forall_mem_append.2 ⟨h.skeleton.scopes, List.forall_mem_singleton.2 fun name hmem =>
      h.scopes name (List.mem_of_mem_head? (hscope ▸ hmem))⟩ }

theorem addNamespace (h : s.NamesHold R T) {name : String} (hname : Qualified R name) :
    (s.addNamespace name).NamesHold R T where
  scopes outer houter := List.mem_append_left _ (h.scopes outer houter)
  skeleton := { h.skeleton with
    namespaces := List.forall_mem_append.2 ⟨h.skeleton.namespaces, List.forall_mem_singleton.2 hname⟩
    scopes := fun decl hdecl outer houter => List.mem_append_left _ (h.skeleton.scopes decl hdecl outer houter) }

theorem enter (h : s.NamesHold R T) {name : String} (hname : Qualified R name) : (s.enter name).NamesHold R T where
  scopes := List.forall_mem_cons.2
    ⟨List.mem_append_right _ (List.mem_singleton_self name), (h.addNamespace hname).scopes⟩
  skeleton := (h.addNamespace hname).skeleton

theorem leave (h : s.NamesHold R T) (visible : Nat) : (s.leave visible).NamesHold R T :=
  ⟨fun name hname => h.scopes name (List.mem_of_mem_tail hname), h.skeleton⟩

theorem qualify (h : s.NamesHold R T) {name : NameRef} (hname : R name) : Qualified R (s.qualify name.name) := by
  rw [State.qualify]
  cases hscopes : s.scopes with
  | nil => exact .outermost hname
  | cons outer scopes =>
      have houter := h.skeleton.namespaces outer (h.scopes outer (hscopes ▸ List.mem_cons_self))
      exact .inside houter hname

end State.NamesHold

theorem skipConstraints_namesHold (h : s.NamesHold R T) : (skipConstraints s).NamesHold R T := by
  rw [skipConstraints]
  split
  · exact h.moveTo _
  · exact h

theorem typeBody_namesHold (name : String) (h : s.NamesHold R T) : (typeBody name s).NamesHold R T := by
  rw [typeBody]
  split
  · exact (h.moveTo _).withFrames _
  · split
    · exact h.moveTo _
    · exact h.report _ _

section

variable (hread : NamesAre R T ts)

include hread

theorem usingDirective_namesHold (hw : s.cursor.Within ts) (h : s.NamesHold R T) :
    (usingDirective s).NamesHold R T := by
  have hstart := hw.reaches (s.cursor.optionalWord_reaches "static")
  unfold usingDirective
  dsimp only
  split
  · exact (h.report _ _).moveTo _
  · rename_i name c hname
    have hholds := hread.names hstart hname
    split
    · exact h.moveTo _
    · split
      · exact (h.moveTo _).addUsing hholds
      · exact ((h.moveTo _).report _ _).addUsing hholds

theorem namespaceHead_namesHold (hw : s.cursor.Within ts) (h : s.NamesHold R T) :
    (namespaceHead s).NamesHold R T := by
  rw [namespaceHead]
  split
  · exact (h.moveTo _).report _ _
  · rename_i name c hname
    have hfull := h.qualify (hread.names hw hname)
    have hnext := h.moveTo c.next
    dsimp only
    split
    · split
      · exact hnext.report _ _
      · exact ⟨(hnext.enter hfull).scopes, (hnext.enter hfull).skeleton⟩
    · split
      · exact (hnext.enter hfull).withFrames _
      · exact ((h.moveTo c).addNamespace hfull).report _ _

theorem baseList_namesHold (hw : s.cursor.Within ts) (h : s.NamesHold R T) :
    (baseList s).2.NamesHold R T ∧ ∀ base ∈ (baseList s).1, R base := by
  rw [baseList]
  split
  · rename_i colon
    refine ⟨?_, Cursor.forall_mem_baseNames hread (hw.next_of_atMark colon)⟩
    dsimp only
    split
    · exact h.moveTo _
    · exact (h.moveTo _).report _ _
  · exact ⟨h, List.forall_mem_nil _⟩

theorem typeTail_namesHold (container : Option String) (isPartial : Bool) {name : NameRef} (hname : T name)
    (hw : s.cursor.Within ts) (h : s.NamesHold R T) : (typeTail container isPartial name s).NamesHold R T := by
  have hgroups : s.cursor.Reaches ((s.cursor.skipGroup '<' '>').skipGroup '(' ')') :=
    (Cursor.skipGroup_reaches ..).trans (Cursor.skipGroup_reaches ..)
  obtain ⟨hlist, hbases⟩ := baseList_namesHold hread (hw.reaches hgroups) (h.moveTo _)
  exact typeBody_namesHold _ ((skipConstraints_namesHold hlist).addType hname hbases rfl)

theorem typeHead_namesHold (container : Option String) (isPartial : Bool) (hw : s.cursor.Within ts)
    (h : s.NamesHold R T) : (typeHead container isPartial s).NamesHold R T := by
  rw [typeHead]
  split
  · exact h.report _ _
  · rename_i t rest hrest
    split
    · exact h.report _ _
    · rename_i word hword
      have hname := hread.words (hw.mem hrest) hword
      exact typeTail_namesHold hread container isPartial hname (hw.reaches (.cons hrest (.refl _))) (h.moveTo _)

theorem typeFrom_namesHold (container : Option String) {start : Cursor.TypeStart} (hstart : start.stop.Within ts)
    (h : s.NamesHold R T) : (typeFrom container start s).NamesHold R T := by
  unfold typeFrom
  dsimp only
  split
  · rename_i hrecord
    have hnext := hstart.reaches (Cursor.next_reaches (rest_ne_nil_of_record hrecord))
    exact typeHead_namesHold hread container _ hnext (h.moveTo _)
  · exact typeHead_namesHold hread container _ hstart (h.moveTo _)

theorem Move.namesHold {t : State} (hm : Move s t) (hw : s.cursor.Within ts) (h : s.NamesHold R T) :
    t.NamesHold R T := by
  have hnext {t : Token} {rest : List Token} (hr : s.cursor.rest = t :: rest) :=
    hw.reaches (Cursor.next_reaches (Cursor.rest_ne_nil_of_eq hr))
  cases hm with
  | done => exact h
  | giveUpBlock => exact ((h.report _ _).leave _).withFrames _
  | giveUpBody => exact (h.report _ _).withFrames _
  | closeBlock => exact ((h.moveTo _).leave _).withFrames _
  | stray => exact (h.moveTo _).report _ _
  | directive hr => exact usingDirective_namesHold hread (hnext hr) (h.moveTo _)
  | scope hr => exact namespaceHead_namesHold hread (hnext hr) (h.moveTo _)
  | semicolon | attributes => exact h.moveTo _
  | type hstart => exact typeFrom_namesHold hread none (hw.reaches (Cursor.typeStart?_reaches hstart)) h
  | inBody => exact ⟨h.scopes, { h.skeleton with }⟩
  | closeBody => exact (h.moveTo _).withFrames _
  | nested hr => exact typeFrom_namesHold hread _ (hw.reaches (.cons hr (.refl _))) (h.withFrames _)

theorem step_namesHold (hw : s.cursor.Within ts) (h : s.NamesHold R T) : (step s).NamesHold R T :=
  (step_move s).namesHold hread hw h

theorem run_namesHold (hw : s.cursor.Within ts) (h : s.NamesHold R T) : (run s).NamesHold R T := by
  have hrun : (run s).cursor.Within ts ∧ (run s).NamesHold R T := by
    apply run_preserves (P := fun t => t.cursor.Within ts ∧ t.NamesHold R T)
    · rintro t ⟨hw, h⟩
      exact ⟨hw.reaches (step_reaches t), step_namesHold hread hw h⟩
    · exact ⟨hw, h⟩
  exact hrun.2

end

end Parser

theorem Skeleton.namesHold_ofTokens (hread : NamesAre R T ts) : (ofTokens ts).NamesHold R T := by
  have hempty : Skeleton.NamesHold R T {} := by
    constructor
    all_goals exact List.forall_mem_nil _
  have hstart : Parser.State.NamesHold R T { cursor := ⟨[], ts⟩ } := ⟨List.forall_mem_nil _, hempty⟩
  have hwithin : Cursor.Within ts ⟨[], ts⟩ := rfl
  exact (Parser.run_namesHold hread hwithin hstart).skeleton

end GeneratorBench
