import GeneratorBench.Proofs.Syntax.Faults
import GeneratorBench.Proofs.Syntax.Lookahead
import GeneratorBench.Proofs.Syntax.Recovery

/-!
States with more tokens at the end. A step that finds nothing at fault does the same whatever comes next,
unless it runs to the end in search of a mark that is missing.
-/

namespace GeneratorBench

/-! ### Constructs that stay open -/

/-- An attribute list starts here, and its bracket stays open. -/
def Cursor.AttributesOpen (c : Cursor) : Prop :=
  ∃ t rest, c.rest = t :: rest ∧ t.isMark '[' = true ∧ Token.Unclosed '[' ']' 1 rest

/-- A directive for an alias goes on here behind the word `using`, and no semicolon ends it. -/
def Cursor.AliasOpen (c : Cursor) : Prop :=
  ∃ target d, c.directiveName = (some target, d) ∧ d.atMark '=' = true ∧
    ∀ t ∈ d.rest, t.isMark ';' = false

/-- The reader will now run to the end of the text, and say nothing about it. -/
structure Parser.State.LeftOpen (s : State) : Prop where
  members : s.AtMembers
  missing : s.cursor.AttributesOpen ∨ s.cursor.atWord "using" = true ∧ s.cursor.next.AliasOpen

namespace Parser

def State.followedBy (s : State) (us : List Token) : State := s.moveTo (s.cursor.followedBy us)

theorem State.rest_followedBy {s : State} {t : Token} {rest : List Token} (hr : s.cursor.rest = t :: rest)
    (us : List Token) : (s.followedBy us).cursor.rest = t :: (rest ++ us) :=
  Cursor.rest_followedBy us hr

/-- `f` reads the same from `s` whatever comes after the text; if nothing is left then it read a mark last. -/
structure Firm (f : State → State) (s : State) : Prop where
  followedBy : ∀ us, f (s.followedBy us) = (f s).followedBy us
  afterMark : (f s).cursor.rest = [] → (f s).cursor.AfterMark

namespace Firm

variable {f g : State → State} {s : State}

theorem congr (h : Firm f s) (hfg : ∀ u, g u = f u) : Firm g s := by
  rw [funext hfg]
  exact h

theorem congr_at (h : Firm f s) (hfg : g s = f s) (hmore : ∀ us, g (s.followedBy us) = f (s.followedBy us)) :
    Firm g s := by
  refine ⟨fun us => ?_, ?_⟩
  · rw [hmore, hfg, h.followedBy]
  · rw [hfg]
    exact h.afterMark

theorem next (h : Firm f (s.moveTo s.cursor.next)) (hrest : s.cursor.rest ≠ []) :
    Firm (fun u => f (u.moveTo u.cursor.next)) s := by
  refine ⟨fun us => ?_, h.afterMark⟩
  rw [← h.followedBy us]
  exact congrArg (fun c => f (s.moveTo c)) (Cursor.next_followedBy us hrest)

/-- One more token is passed at `c`. What is done then is `g`, which leaves the cursor there. -/
theorem past {c : Cursor} (hc : c.rest ≠ []) (hlast : c.next.rest = [] → c.next.AfterMark)
    (hg : ∀ u us, g (u.followedBy us) = (g u).followedBy us) (hcursor : ∀ u, (g u).cursor = u.cursor)
    (hs : f s = g (s.moveTo c.next))
    (hmore : ∀ us, f (s.followedBy us) = g (s.moveTo (c.followedBy us).next)) : Firm f s := by
  refine ⟨fun us => ?_, ?_⟩
  · rw [hmore, hs, Cursor.next_followedBy us hc]
    exact hg (s.moveTo c.next) us
  · rw [hs, hcursor]
    exact hlast

theorem pastMark {c : Cursor} {m : Char} (hm : c.atMark m = true)
    (hg : ∀ u us, g (u.followedBy us) = (g u).followedBy us) (hcursor : ∀ u, (g u).cursor = u.cursor)
    (hs : f s = g (s.moveTo c.next))
    (hmore : ∀ us, f (s.followedBy us) = g (s.moveTo (c.followedBy us).next)) : Firm f s :=
  past (Cursor.rest_ne_nil_of_atMark hm) (fun _ => Cursor.afterMark_next hm) hg hcursor hs hmore

end Firm

variable {s : State}

/-! ### Types -/

theorem typeBody_firm {name : String} (quiet : (typeBody name s).faults ≤ s.faults) :
    s.cursor.Settled ∧ Firm (typeBody name) s := by
  have hmark {m : Char} (h : s.cursor.atMark m = true) (us : List Token) (m' : Char) :
      (s.followedBy us).cursor.atMark m' = s.cursor.atMark m' :=
    Cursor.atMark_followedBy us (Cursor.rest_ne_nil_of_atMark h) m'
  by_cases hopen : s.cursor.atMark '\x7b' = true
  · have hbody (u : State) (hu : u.cursor.atMark '\x7b' = true) :
        typeBody name u = { u.moveTo u.cursor.next with frames := .body name 1 false :: u.frames } := by
      rw [typeBody, if_pos hu]
    refine ⟨Cursor.settled_of_atMark hopen (by decide), ?_⟩
    exact .pastMark (g := fun u => { u with frames := .body name 1 false :: u.frames }) hopen (fun _ _ => rfl)
      (fun _ => rfl) (hbody s hopen) fun us => hbody _ (by rw [hmark hopen, hopen])
  by_cases hend : s.cursor.atMark ';' = true
  · have hbody (u : State) (hu : u.cursor.atMark '\x7b' = false) (hsemicolon : u.cursor.atMark ';' = true) :
        typeBody name u = u.moveTo u.cursor.next := by
      rw [typeBody, if_neg (Bool.eq_false_iff.1 hu), if_pos hsemicolon]
    have hnot := Bool.eq_false_iff.2 hopen
    refine ⟨Cursor.settled_of_atMark hend (by decide), ?_⟩
    exact .pastMark (g := id) hend (fun _ _ => rfl) (fun _ => rfl) (hbody s hnot hend) fun us =>
      hbody _ (by rw [hmark hend, hnot]) (by rw [hmark hend, hend])
  · rw [typeBody, if_neg hopen, if_neg hend] at quiet
    exact absurd quiet (s.not_report_faults_le _ _)

theorem skipConstraints_followedBy (h : (skipConstraints s).cursor.Settled) :
    s.cursor.Settled ∧ ∀ us, skipConstraints (s.followedBy us) = (skipConstraints s).followedBy us := by
  have hrest := (skipConstraints_reaches s).rest_ne_nil h.rest
  have hword (us : List Token) : (s.followedBy us).cursor.atWord "where" = s.cursor.atWord "where" :=
    Cursor.atWord_followedBy us hrest _
  by_cases hwhere : s.cursor.atWord "where" = true
  · refine ⟨Cursor.settled_of_atWord hwhere, fun us => ?_⟩
    rw [skipConstraints, if_pos hwhere] at h
    rw [skipConstraints, skipConstraints, hword, if_pos hwhere, if_pos hwhere]
    exact congrArg s.moveTo (Cursor.skipUntil_followedBy us h.rest)
  · rw [skipConstraints, if_neg hwhere] at h
    refine ⟨h, fun us => ?_⟩
    rw [skipConstraints, skipConstraints, hword, if_neg hwhere, if_neg hwhere]

theorem baseList_followedBy (quiet : (baseList s).2.faults ≤ s.faults) (h : (baseList s).2.cursor.Settled)
    (us : List Token) : baseList (s.followedBy us) = ((baseList s).1, (baseList s).2.followedBy us) := by
  have hrest := (baseList_reaches s).rest_ne_nil h.rest
  have hmark : (s.followedBy us).cursor.atMark ':' = s.cursor.atMark ':' := Cursor.atMark_followedBy us hrest _
  have hnext : (s.followedBy us).cursor.next = s.cursor.next.followedBy us := Cursor.next_followedBy us hrest
  by_cases hcolon : s.cursor.atMark ':' = true
  · rw [baseList, if_pos hcolon] at h quiet
    rw [baseList, baseList, hmark, hnext, if_pos hcolon, if_pos hcolon]
    cases hbases : s.cursor.next.baseNames with
    | mk bases found =>
        obtain ⟨wellFormed, c⟩ := found
        rw [hbases] at h quiet
        cases wellFormed with
        | true =>
            rw [Cursor.baseNames_followedBy us hbases h]
            rfl
        | false => exact absurd quiet (s.not_report_faults_le _ _)
  · rw [baseList, baseList, hmark, if_neg hcolon, if_neg hcolon]

theorem typeTail_firm {container : Option String} {isPartial : Bool} {name : NameRef}
    (quiet : (typeTail container isPartial name s).faults ≤ s.faults) :
    Firm (typeTail container isPartial name) s := by
  let groups (c : Cursor) : Cursor := (c.skipGroup '<' '>').skipGroup '(' ')'
  let declare (found : List NameRef × State) : State :=
    (skipConstraints found.2).addType
      { name, scope := (skipConstraints found.2).scopes.head?, container, isPartial, bases := found.1,
        usings := (skipConstraints found.2).visible }
  have htail (u : State) : typeTail container isPartial name u =
      typeBody name.name (declare (baseList (u.moveTo (groups u.cursor)))) := rfl
  let based := baseList (s.moveTo (groups s.cursor))
  have hwhole : (typeBody name.name (declare based)).faults ≤ s.faults := quiet
  -- each part adds nothing to the errors, since all of them together do not
  have hbased : s.faults ≤ based.2.faults := baseList_faults_le (s.moveTo (groups s.cursor))
  have hdeclared : (declare based).faults = based.2.faults := skipConstraints_faults based.2
  have hbody := typeBody_faults_le name.name (declare based)
  have hquiet : (typeBody name.name (declare based)).faults ≤ (declare based).faults := by omega
  have hquietBases : based.2.faults ≤ s.faults := by omega
  obtain ⟨hsettled, hfirm⟩ := typeBody_firm hquiet
  obtain ⟨hend, hconstraints⟩ := skipConstraints_followedBy (s := based.2) hsettled
  have hbases := baseList_followedBy (s := s.moveTo (groups s.cursor)) hquietBases hend
  have hrest := (baseList_reaches (s.moveTo (groups s.cursor))).rest_ne_nil hend.rest
  have hgroups (us : List Token) : groups (s.followedBy us).cursor = (groups s.cursor).followedBy us :=
    Cursor.skipGroups_followedBy us hrest
  have hmore (us : List Token) :
      declare (baseList ((s.followedBy us).moveTo (groups (s.followedBy us).cursor))) =
        (declare based).followedBy us := by
    have hlist : baseList ((s.followedBy us).moveTo (groups (s.followedBy us).cursor)) =
        (based.1, based.2.followedBy us) := by
      rw [hgroups]
      exact hbases us
    rw [hlist]
    dsimp only [declare]
    rw [hconstraints us]
    rfl
  refine ⟨fun us => ?_, hfirm.afterMark⟩
  rw [htail, hmore, hfirm.followedBy, htail]

theorem typeHead_firm {container : Option String} {isPartial : Bool}
    (quiet : (typeHead container isPartial s).faults ≤ s.faults) :
    s.cursor.rest ≠ [] ∧ Firm (typeHead container isPartial) s := by
  cases hr : s.cursor.rest with
  | nil =>
      rw [typeHead, hr] at quiet
      exact absurd quiet (s.not_report_faults_le _ _)
  | cons t rest =>
      cases hword : t.word? with
      | none =>
          simp only [typeHead, hr, hword] at quiet
          exact absurd quiet (s.not_report_faults_le _ _)
      | some word =>
          have hhead {u : State} {after : List Token} (hu : u.cursor.rest = t :: after) :
              typeHead container isPartial u =
                typeTail container isPartial ⟨word, t.span, false⟩ (u.moveTo u.cursor.next) := by
            rw [Cursor.next_eq hu]
            simp only [typeHead, hu, hword]
          rw [hhead hr] at quiet
          have hrest := Cursor.rest_ne_nil_of_eq hr
          have hfirm := typeTail_firm (s := s.moveTo s.cursor.next) quiet
          exact ⟨List.cons_ne_nil _ _, (hfirm.next hrest).congr_at (hhead hr) fun us =>
            hhead (State.rest_followedBy hr us)⟩

theorem typeFrom_firm {container : Option String} {start : Cursor.TypeStart}
    (quiet : (typeFrom container start s).faults ≤ s.faults) :
    (∀ us, typeFrom container { start with stop := start.stop.followedBy us } (s.followedBy us) =
        (typeFrom container start s).followedBy us) ∧
      ((typeFrom container start s).cursor.rest = [] → (typeFrom container start s).cursor.AfterMark) := by
  let place (c : Cursor) : Cursor :=
    if start.keyword.isWord "record" && (c.atWord "class" || c.atWord "struct") then c.next else c
  have hplace : start.stop.Reaches (place start.stop) := by
    dsimp only [place]
    split
    · rename_i hrecord
      exact Cursor.next_reaches (rest_ne_nil_of_record hrecord)
    · exact .refl _
  obtain ⟨hrest, hfirm⟩ := typeHead_firm (s := s.moveTo (place start.stop)) quiet
  refine ⟨fun us => ?_, hfirm.afterMark⟩
  have hstart := hplace.rest_ne_nil hrest
  have hmore : place (start.stop.followedBy us) = (place start.stop).followedBy us := by
    dsimp only [place]
    rw [Cursor.atWord_followedBy us hstart, Cursor.atWord_followedBy us hstart,
      Cursor.next_followedBy us hstart]
    split
    · rfl
    · rfl
  have hhead : typeFrom container { start with stop := start.stop.followedBy us } (s.followedBy us) =
      typeHead container start.isPartial ((s.followedBy us).moveTo (place (start.stop.followedBy us))) := rfl
  rw [hhead, hmore]
  exact hfirm.followedBy us

/-! ### Members -/

theorem usingDirective_of_alias {target : NameRef} {c : Cursor}
    (hname : s.cursor.directiveName = (some target, c)) (halias : c.atMark '=' = true) :
    usingDirective s = s.moveTo (.skipPast ';' c.before c.rest) := by
  rw [Cursor.directiveName] at hname
  simp only [usingDirective, hname, halias, if_true]

theorem usingDirective_firm (quiet : (usingDirective s).faults ≤ s.faults) (closed : ¬ s.cursor.AliasOpen) :
    Firm usingDirective s := by
  cases hname : s.cursor.directiveName with
  | mk target c =>
      have hread := hname
      rw [Cursor.directiveName] at hread
      cases target with
      | none =>
          simp only [usingDirective, hread] at quiet
          exact absurd quiet (s.not_report_faults_le _ _)
      | some target =>
          have hmore (us : List Token) (hc : c.Settled) : (s.followedBy us).cursor.directiveName = _ :=
            Cursor.directiveName_followedBy us hname hc
          by_cases halias : c.atMark '=' = true
          · have hsettled := Cursor.settled_of_atMark halias (by decide)
            have hskip (us : List Token) := Cursor.skipPast_followedBy us
              (fun hnone => closed ⟨target, c, hname, halias, hnone⟩) c.before
            refine ⟨fun us => ?_, fun _ => ?_⟩
            · have halias' := (Cursor.atMark_followedBy us hsettled.rest '=').trans halias
              rw [usingDirective_of_alias (hmore us hsettled) halias', usingDirective_of_alias hname halias]
              exact congrArg s.moveTo (hskip us).1
            · rw [usingDirective_of_alias hname halias]
              exact (hskip []).2
          by_cases hend : c.atMark ';' = true
          · have hsettled := Cursor.settled_of_atMark hend (by decide)
            refine .pastMark (g := (State.addUsing · target)) hend (fun _ _ => rfl) (fun _ => rfl)
              (usingDirective_of_name hname (Cursor.reads_next hend)) fun us => ?_
            have hend' := (Cursor.atMark_followedBy us hsettled.rest ';').trans hend
            exact usingDirective_of_name (hmore us hsettled) (Cursor.reads_next hend')
          · simp only [usingDirective, hread, if_neg halias, if_neg hend] at quiet
            exact absurd quiet (s.not_report_faults_le _ _)

theorem namespaceHead_firm (quiet : (namespaceHead s).faults ≤ s.faults) : Firm namespaceHead s := by
  cases hname : s.cursor.name with
  | mk name c =>
      cases name with
      | none =>
          rw [namespaceHead, hname] at quiet
          exact absurd quiet (s.not_report_faults_le _ _)
      | some name =>
          have hmore (us : List Token) (hc : c.Settled) : (s.followedBy us).cursor.name = _ :=
            Cursor.name_followedBy us hname hc
          have hreads {m : Char} (h : c.atMark m = true) (us : List Token) :
              (c.followedBy us).Reads [.mark m] (c.followedBy us).next :=
            Cursor.reads_next ((Cursor.atMark_followedBy us (Cursor.rest_ne_nil_of_atMark h) m).trans h)
          by_cases hend : c.atMark ';' = true
          · have hsettled := Cursor.settled_of_atMark hend (by decide)
            have hhead := namespaceHead_of_name hname (Cursor.reads_next hend)
            rw [if_pos rfl] at hhead
            cases hfile : s.fileScoped with
            | true =>
                rw [hhead, if_pos hfile] at quiet
                exact absurd quiet (s.not_report_faults_le _ _)
            | false =>
                rw [if_neg (Bool.eq_false_iff.1 hfile)] at hhead
                refine .pastMark (g := fun u => { u.enter (u.qualify name.name) with fileScoped := true }) hend
                  (fun _ _ => rfl) (fun _ => rfl) hhead fun us => ?_
                rw [namespaceHead_of_name (hmore us hsettled) (hreads hend us), if_pos rfl]
                exact if_neg (Bool.eq_false_iff.1 hfile)
          by_cases hopen : c.atMark '\x7b' = true
          · have hsettled := Cursor.settled_of_atMark hopen (by decide)
            have hhead := namespaceHead_of_name hname (Cursor.reads_next hopen)
            let entered (u : State) : State :=
              { u.enter (u.qualify name.name) with frames := .block u.visible.length :: u.frames }
            exact .pastMark (g := entered) hopen (fun _ _ => rfl) (fun _ => rfl) hhead fun us =>
              namespaceHead_of_name (hmore us hsettled) (hreads hopen us)
          · simp only [namespaceHead, hname, if_neg hend, if_neg hopen] at quiet
            exact absurd quiet (s.not_report_faults_le _ _)

theorem skipAttributes_firm {t : Token} {rest : List Token} (hr : s.cursor.rest = t :: rest)
    (hbracket : t.isMark '[' = true) (closed : ¬ s.cursor.AttributesOpen) :
    Firm (fun u => u.moveTo (u.cursor.skipGroup '[' ']')) s := by
  have hclosed : ¬ Token.Unclosed '[' ']' 1 rest := fun h => closed ⟨t, rest, hr, hbracket, h⟩
  have hskip (us : List Token) := Cursor.skipBalanced_followedBy us (by decide : '[' ≠ ']') Nat.one_pos hclosed
    (t :: s.cursor.before)
  refine ⟨fun us => ?_, fun _ => ?_⟩
  · rw [Cursor.skipGroup_eq (State.rest_followedBy hr us) hbracket, Cursor.skipGroup_eq hr hbracket]
    exact congrArg s.moveTo (hskip us).1
  · rw [Cursor.skipGroup_eq hr hbracket]
    exact (hskip []).2

theorem closeBlock_firm {t : Token} {rest : List Token} (hr : s.cursor.rest = t :: rest)
    (hbrace : t.isMark '\x7d' = true) (quiet : (memberStep s t).faults ≤ s.faults) :
    Firm (memberStep · t) s := by
  simp only [memberStep, if_pos hbrace] at quiet
  cases hf : s.frames with
  | nil =>
      rw [hf] at quiet
      exact absurd quiet (s.not_report_faults_le _ _)
  | cons frame frames =>
      rw [hf] at quiet
      cases frame with
      | body type depth sawStatic => exact absurd quiet (s.not_report_faults_le _ _)
      | block visible =>
          have hstep (u : State) (hu : u.frames = s.frames) :
              memberStep u t = { (u.moveTo u.cursor.next).leave visible with frames } := by
            simp only [memberStep, if_pos hbrace, hu, hf]
          have hmark : s.cursor.atMark '\x7d' = true := (Cursor.atMark_eq hr _).trans hbrace
          exact .pastMark (g := fun u => { u.leave visible with frames }) hmark (fun _ _ => rfl) (fun _ => rfl)
            (hstep s rfl) fun us => hstep _ rfl

theorem memberStep_firm {t : Token} {rest : List Token} (hr : s.cursor.rest = t :: rest)
    (quiet : (memberStep s t).faults ≤ s.faults) (attributes : ¬ s.cursor.AttributesOpen)
    (directive : ¬ (s.cursor.atWord "using" = true ∧ s.cursor.next.AliasOpen)) : Firm (memberStep · t) s := by
  have hrest := Cursor.rest_ne_nil_of_eq hr
  by_cases hbrace : t.isMark '\x7d' = true
  · exact closeBlock_firm hr hbrace quiet
  by_cases husing : t.isWord "using" = true
  · have hstep (u : State) : memberStep u t = usingDirective (u.moveTo u.cursor.next) := by
      simp only [memberStep, if_neg hbrace, if_pos husing]
    rw [hstep] at quiet
    have hword : s.cursor.atWord "using" = true := by rw [Cursor.atWord_eq hr, husing]
    have hfirm := usingDirective_firm (s := s.moveTo s.cursor.next) quiet fun h => directive ⟨hword, h⟩
    exact (hfirm.next hrest).congr hstep
  by_cases hnamespace : t.isWord "namespace" = true
  · have hstep (u : State) : memberStep u t = namespaceHead (u.moveTo u.cursor.next) := by
      simp only [memberStep, if_neg hbrace, if_neg husing, if_pos hnamespace]
    rw [hstep] at quiet
    have hfirm := namespaceHead_firm (s := s.moveTo s.cursor.next) quiet
    exact (hfirm.next hrest).congr hstep
  by_cases hend : t.isMark ';' = true
  · have hstep (u : State) : memberStep u t = u.moveTo u.cursor.next := by
      simp only [memberStep, if_neg hbrace, if_neg husing, if_neg hnamespace, if_pos hend]
    have hmark : s.cursor.atMark ';' = true := (Cursor.atMark_eq hr _).trans hend
    exact .pastMark (g := id) hmark (fun _ _ => rfl) (fun _ => rfl) (hstep s) fun us => hstep _
  by_cases hbracket : t.isMark '[' = true
  · refine (skipAttributes_firm hr hbracket attributes).congr fun u => ?_
    simp only [memberStep, if_neg hbrace, if_neg husing, if_neg hnamespace, if_neg hend, if_pos hbracket]
  cases hstart : s.cursor.typeStart? with
  | none =>
      simp only [memberStep, if_neg hbrace, if_neg husing, if_neg hnamespace, if_neg hend, if_neg hbracket,
        hstart] at quiet
      exact absurd quiet (s.not_report_faults_le _ _)
  | some start =>
      have hstep {u : State} {found : Cursor.TypeStart} (h : u.cursor.typeStart? = some found) :
          memberStep u t = typeFrom none found u := by
        simp only [memberStep, if_neg hbrace, if_neg husing, if_neg hnamespace, if_neg hend, if_neg hbracket, h]
      rw [hstep hstart] at quiet
      obtain ⟨hfollowed, hmark⟩ := typeFrom_firm quiet
      refine ⟨fun us => ?_, ?_⟩
      · rw [hstep hstart, hstep (u := s.followedBy us) (Cursor.typeStart?_followedBy us hstart)]
        exact hfollowed us
      · rw [hstep hstart]
        exact hmark

/-! ### Bodies of types -/

section Bodies

variable {type : String} {depth : Nat} {sawStatic : Bool} {outer : List Frame} {t : Token} {rest : List Token}

theorem bodyStep_literal (hkind : t.kind = .literal) :
    bodyStep s type depth sawStatic outer t = s.inBody s.cursor.next type depth sawStatic outer := by
  have noKeyword : Cursor.isTypeKeyword t = false := by
    rw [Cursor.isTypeKeyword, Token.word?_of_literal hkind]
    rfl
  simp only [bodyStep, Token.isMark_of_literal hkind, Token.isWord_of_literal hkind, noKeyword, Bool.and_false,
    Bool.false_and, Bool.false_eq_true, if_false]
  rfl

theorem bodyStep_keyword {w : String} (hkind : t.kind = .word w) (hw : w ∈ Cursor.typeKeywords)
    (h : (depth == 1 && s.cursor.next.rest.head?.any (·.word?.isSome)) = false) :
    bodyStep s type depth sawStatic outer t = s.inBody s.cursor.next type depth sawStatic outer := by
  have hdeclares : (depth == 1 && Cursor.isTypeKeyword t &&
      s.cursor.next.rest.head?.any (·.word?.isSome)) = false := by
    rw [Bool.and_right_comm, h, Bool.false_and]
  simp only [bodyStep, Token.isMark_of_word hkind, Token.isWord_of_word hkind, not_static_of_typeKeyword hw,
    hdeclares, Bool.false_and, Bool.false_eq_true, if_false]
  rfl

theorem bodyStep_last (hr : s.cursor.rest = [t]) (hkind : ∀ m, t.kind ≠ .mark m) :
    ∃ saw, bodyStep s type depth sawStatic outer t = s.inBody s.cursor.next type depth saw outer := by
  have hnone : s.cursor.next.rest = [] := Cursor.next_rest hr
  cases hk : t.kind with
  | mark m => exact absurd hk (hkind m)
  | literal => exact ⟨_, bodyStep_literal hk⟩
  | word w =>
      by_cases hw : w ∈ Cursor.typeKeywords
      · refine ⟨_, bodyStep_keyword hk hw ?_⟩
        rw [hnone]
        exact Bool.and_false _
      · have hparen : ¬ (w = "Main" ∧ sawStatic = true ∧ s.cursor.next.atMark '(' = true) := by
          rintro ⟨-, -, hmark⟩
          exact Cursor.rest_ne_nil_of_atMark hmark hnone
        rw [bodyStep_word hk hw, if_neg hparen]
        split
        · exact ⟨_, rfl⟩
        · exact ⟨_, rfl⟩

theorem inBody_firm {f : State → State} {depth' : Nat} {saw : Bool} (hrest : s.cursor.rest ≠ [])
    (hlast : s.cursor.next.rest = [] → s.cursor.next.AfterMark)
    (hs : f s = s.inBody s.cursor.next type depth' saw outer)
    (hmore : ∀ us, f (s.followedBy us) =
      (s.followedBy us).inBody (s.followedBy us).cursor.next type depth' saw outer) : Firm f s :=
  .past (g := fun u => u.inBody u.cursor type depth' saw outer) hrest hlast (fun _ _ => rfl) (fun _ => rfl) hs
    hmore

theorem bodyStep_mark_firm {m : Char} (hr : s.cursor.rest = t :: rest) (hkind : t.kind = .mark m) :
    Firm (bodyStep · type depth sawStatic outer t) s := by
  have hmark : s.cursor.atMark m = true := by
    rw [Cursor.atMark_eq hr, Token.isMark_of_mark hkind, beq_self_eq_true]
  obtain ⟨frames, hstep⟩ : ∃ frames, ∀ u, bodyStep u type depth sawStatic outer t =
      { u.moveTo u.cursor.next with frames } := by
    simp only [bodyStep_mark hkind]
    repeat' split
    all_goals exact ⟨_, fun _ => rfl⟩
  exact .pastMark (g := fun u => { u with frames }) hmark (fun _ _ => rfl) (fun _ => rfl) (hstep s) fun us =>
    hstep _

theorem bodyStep_word_firm {w : String} {v : Token} (hr : s.cursor.rest = t :: v :: rest)
    (hkind : t.kind = .word w) (hw : w ∉ Cursor.typeKeywords) :
    Firm (bodyStep · type depth sawStatic outer t) s := by
  let passed (u : State) : State :=
    if w = "static" then u.inBody u.cursor type depth true outer
    else if w = "Main" ∧ sawStatic = true ∧ v.isMark '(' = true then
      (u.extend u.cursor u.visible { hasMain := true }).inBody u.cursor type depth sawStatic outer
    else u.inBody u.cursor type depth sawStatic outer
  have hstep {u : State} {after : List Token} (hu : u.cursor.rest = t :: v :: after) :
      bodyStep u type depth sawStatic outer t = passed (u.moveTo u.cursor.next) := by
    have hparen : u.cursor.next.atMark '(' = v.isMark '(' := by
      rw [Cursor.next_eq hu]
      rfl
    rw [bodyStep_word hkind hw, hparen]
    rfl
  have hnext : s.cursor.next.rest ≠ [] := by
    rw [Cursor.next_eq hr]
    exact List.cons_ne_nil _ _
  refine .past (g := passed) (Cursor.rest_ne_nil_of_eq hr) (fun hnil => absurd hnil hnext) (fun u us => ?_)
    (fun u => ?_) (hstep hr) fun us => hstep (State.rest_followedBy hr us)
  · dsimp only [passed]
    repeat' split
    all_goals rfl
  · dsimp only [passed]
    repeat' split
    all_goals rfl

theorem bodyStep_keyword_firm {w : String} {v : Token} (hr : s.cursor.rest = t :: v :: rest)
    (hkind : t.kind = .word w) (hw : w ∈ Cursor.typeKeywords)
    (quiet : (bodyStep s type depth sawStatic outer t).faults ≤ s.faults) :
    Firm (bodyStep · type depth sawStatic outer t) s := by
  have hword {u : State} {after : List Token} (hu : u.cursor.rest = t :: v :: after) :
      u.cursor.next.rest.head?.any (·.word?.isSome) = v.word?.isSome := by
    rw [Cursor.next_eq hu]
    rfl
  by_cases hdecl : (depth == 1 && v.word?.isSome) = true
  · rw [Bool.and_eq_true, beq_iff_eq] at hdecl
    obtain ⟨rfl, hv⟩ := hdecl
    have hstep {u : State} {after : List Token} (hu : u.cursor.rest = t :: v :: after) :
        bodyStep u type 1 sawStatic outer t = _ := bodyStep_typeKeyword hkind hw hu hv
    rw [hstep hr] at quiet
    obtain ⟨hfollowed, hmark⟩ := typeFrom_firm (s := { s with frames := .body type 1 false :: outer }) quiet
    refine ⟨fun us => ?_, ?_⟩
    · rw [hstep hr, hstep (State.rest_followedBy hr us)]
      exact hfollowed us
    · rw [hstep hr]
      exact hmark
  · have hnext : s.cursor.next.rest ≠ [] := by
      rw [Cursor.next_eq hr]
      exact List.cons_ne_nil _ _
    have hstep {u : State} {after : List Token} (hu : u.cursor.rest = t :: v :: after) :
        bodyStep u type depth sawStatic outer t = u.inBody u.cursor.next type depth sawStatic outer := by
      refine bodyStep_keyword hkind hw ?_
      rw [hword hu]
      exact Bool.eq_false_iff.2 hdecl
    exact inBody_firm (Cursor.rest_ne_nil_of_eq hr) (fun hnil => absurd hnil hnext) (hstep hr) fun us =>
      hstep (State.rest_followedBy hr us)

theorem bodyStep_firm (hr : s.cursor.rest = t :: rest)
    (quiet : (bodyStep s type depth sawStatic outer t).faults ≤ s.faults)
    (hend : (bodyStep s type depth sawStatic outer t).cursor.rest = [] →
      (bodyStep s type depth sawStatic outer t).frames = []) :
    Firm (bodyStep · type depth sawStatic outer t) s := by
  cases rest with
  | nil =>
      by_cases hkind : ∀ m, t.kind ≠ .mark m
      · -- the body would be open at the end
        obtain ⟨saw, hstep⟩ := bodyStep_last hr hkind
        rw [hstep] at hend
        cases hend (Cursor.next_rest hr)
      · obtain ⟨m, hm⟩ := not_forall.1 hkind
        exact bodyStep_mark_firm hr (not_not.1 hm)
  | cons v rest =>
      cases hkind : t.kind with
      | mark m => exact bodyStep_mark_firm hr hkind
      | literal =>
          have hnext : s.cursor.next.rest ≠ [] := by
            rw [Cursor.next_eq hr]
            exact List.cons_ne_nil _ _
          exact inBody_firm (Cursor.rest_ne_nil_of_eq hr) (fun hnil => absurd hnil hnext)
            (bodyStep_literal hkind) fun us => bodyStep_literal hkind
      | word w =>
          by_cases hw : w ∈ Cursor.typeKeywords
          · exact bodyStep_keyword_firm hr hkind hw quiet
          · exact bodyStep_word_firm hr hkind hw

end Bodies

/-! ### Steps -/

theorem step_firm (hrest : s.cursor.rest ≠ []) (quiet : (step s).faults ≤ s.faults) (closed : ¬ s.LeftOpen)
    (hend : (step s).cursor.rest = [] → (step s).frames = []) : Firm step s := by
  obtain ⟨t, rest, hr⟩ := List.exists_cons_of_ne_nil hrest
  have hmember (hs : s.AtMembers) : Firm step s := by
    have hstep : step s = memberStep s t := step_of_atMembers hs hr
    rw [hstep] at quiet
    have hfirm := memberStep_firm hr quiet (fun h => closed ⟨hs, .inl h⟩) (fun h => closed ⟨hs, .inr h⟩)
    exact hfirm.congr_at hstep fun us =>
      step_of_atMembers (s := s.followedBy us) hs (State.rest_followedBy hr us)
  cases hf : s.frames with
  | nil => exact hmember fun _ _ _ _ h => by cases hf.symm.trans h
  | cons frame outer =>
      cases frame with
      | block visible => exact hmember fun _ _ _ _ h => by cases hf.symm.trans h
      | body type depth sawStatic =>
          have hstep := step_of_body hf hr
          rw [hstep] at quiet hend
          exact (bodyStep_firm hr quiet hend).congr_at hstep fun us =>
            step_of_body (s := s.followedBy us) hf (State.rest_followedBy hr us)

end Parser

end GeneratorBench
