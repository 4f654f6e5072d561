import GeneratorBench.Proofs.Syntax.Advance
import GeneratorBench.Proofs.Syntax.Steps

/-!
What the reader records of a text that stands in a setting: at other places of a larger text, behind
directives and inside a namespace. It is what the text alone gives, moved to those places and put
into that namespace.
-/

namespace GeneratorBench

structure Placement where
  position : Position → Position
  usings : List UsingDirective
  scope : Option String

namespace Placement

variable (e : Placement)

def span (s : Span) : Span := ⟨e.position s.start, e.position s.stop⟩

def name (n : NameRef) : NameRef := { n with span := e.span n.span }

def full (namespaceName : String) : String :=
  e.scope.elim namespaceName fun outer => outer ++ "." ++ namespaceName

/-- The namespace of what has the namespace `scope` in the text alone. -/
def inside (scope : Option String) : Option String := (scope.map e.full).or e.scope

def visible (usings : List Nat) : List Nat :=
  List.range e.usings.length ++ usings.map (e.usings.length + ·)

def directive (u : UsingDirective) : UsingDirective := ⟨e.name u.name, e.inside u.scope⟩

def decl (d : TypeDecl) : TypeDecl :=
  { d with
    name := e.name d.name
    scope := e.inside d.scope
    bases := d.bases.map e.name
    usings := e.visible d.usings }

def error (x : SyntaxError) : SyntaxError := { x with span := e.span x.span }

def skeleton (s : Skeleton) : Skeleton where
  usings := e.usings ++ s.usings.map e.directive
  types := s.types.map e.decl
  namespaces := e.scope.toList ++ s.namespaces.map e.full
  hasMain := s.hasMain
  errors := s.errors.map e.error

end Placement

/-- A placement with the tokens that it takes, moved and added. -/
structure Setting extends Placement where
  token : Token → Token
  token_kind : ∀ t, (token t).kind = t.kind
  token_start : ∀ t, (token t).start = position t.start
  token_stop : ∀ t, (token t).stop = position t.stop
  before : List Token
  before_isModifier : before.head?.any Cursor.isModifier = false

namespace Setting

open GeneratorBench.Parser (State Frame)
open Placement (full inside visible directive error skeleton)

variable (e : Setting)

def cursor (c : Cursor) : Cursor := ⟨c.before.map e.token ++ e.before, c.rest.map e.token⟩

def typeStart (start : Cursor.TypeStart) : Cursor.TypeStart :=
  ⟨start.isPartial, e.token start.keyword, e.cursor start.stop⟩

def frame : Frame → Frame
  | .block visible => .block (e.usings.length + visible)
  | .body type depth sawStatic => .body type depth sawStatic

def state (s : State) : State where
  cursor := e.cursor s.cursor
  frames := s.frames.map e.frame
  scopes := s.scopes.map e.full ++ e.scope.toList
  visible := e.visible s.visible
  fileScoped := s.fileScoped || e.scope.isSome
  skeleton := e.skeleton s.skeleton

/-! ### Tokens -/

@[simp] theorem isMark_token (t : Token) (m : Char) : (e.token t).isMark m = t.isMark m := by
  rw [Token.isMark, e.token_kind, Token.isMark]

@[simp] theorem word?_token (t : Token) : (e.token t).word? = t.word? := by
  rw [Token.word?, e.token_kind, Token.word?]

@[simp] theorem isWord_token (t : Token) (w : String) : (e.token t).isWord w = t.isWord w := by
  rw [Token.isWord, e.word?_token, Token.isWord]

@[simp] theorem isModifier_token (t : Token) :
    Cursor.isModifier (e.token t) = Cursor.isModifier t := by
  rw [Cursor.isModifier, e.word?_token, Cursor.isModifier]

@[simp] theorem isTypeKeyword_token (t : Token) :
    Cursor.isTypeKeyword (e.token t) = Cursor.isTypeKeyword t := by
  rw [Cursor.isTypeKeyword, e.word?_token, Cursor.isTypeKeyword]

theorem span_token (t : Token) : (e.token t).span = e.span t.span := by
  have hstart : (e.token t).span.start = e.position t.span.start := e.token_start t
  have hstop : (e.token t).span.stop = e.position t.span.stop := e.token_stop t
  rw [Placement.span, ← hstart, ← hstop]

/-! ### Cursors -/

@[simp] theorem cursor_rest (c : Cursor) : (e.cursor c).rest = c.rest.map e.token := rfl

@[simp] theorem atMark_cursor (c : Cursor) (m : Char) : (e.cursor c).atMark m = c.atMark m := by
  rw [Cursor.atMark, Cursor.atMark, e.cursor_rest, List.head?_map]
  cases c.rest.head? with
  | none => rfl
  | some t => exact e.isMark_token t m

@[simp] theorem atWord_cursor (c : Cursor) (w : String) : (e.cursor c).atWord w = c.atWord w := by
  rw [Cursor.atWord, Cursor.atWord, e.cursor_rest, List.head?_map]
  cases c.rest.head? with
  | none => rfl
  | some t => exact e.isWord_token t w

theorem next_cursor {c : Cursor} (h : c.rest ≠ []) : (e.cursor c).next = e.cursor c.next := by
  obtain ⟨before, rest⟩ := c
  cases rest with
  | nil => exact absurd rfl h
  | cons t rest => rfl

theorem next_cursor_of_atMark {c : Cursor} {m : Char} (h : c.atMark m = true) :
    (e.cursor c).next = e.cursor c.next :=
  e.next_cursor (Cursor.rest_ne_nil_of_atMark h)

/-- Where nothing was read yet, the text alone knows of no token before. -/
theorem here_cursor {c : Cursor} (h : c.before ≠ []) : (e.cursor c).here = e.span c.here := by
  obtain ⟨t, before, hb⟩ := List.exists_cons_of_ne_nil h
  rw [Cursor.here, Cursor.here, cursor, hb]
  exact congrArg (fun p => (⟨p, p⟩ : Span)) (e.token_stop t)

theorem skipBalanced_cursor (opening closing : Char) (depth : Nat) (before rest : List Token) :
    Cursor.skipBalanced opening closing depth (before.map e.token ++ e.before) (rest.map e.token) =
      e.cursor (Cursor.skipBalanced opening closing depth before rest) := by
  induction rest generalizing depth before with
  | nil => rfl
  | cons t rest ih =>
      simp only [List.map_cons, Cursor.skipBalanced, e.isMark_token]
      split
      · exact ih _ (t :: before)
      · split
        · split
          · rfl
          · exact ih _ (t :: before)
        · exact ih _ (t :: before)

@[simp] theorem skipGroup_cursor (c : Cursor) (opening closing : Char) :
    (e.cursor c).skipGroup opening closing = e.cursor (c.skipGroup opening closing) := by
  rw [Cursor.skipGroup, Cursor.skipGroup, e.atMark_cursor]
  split
  · exact e.skipBalanced_cursor ..
  · rfl

theorem skipPast_cursor (m : Char) (before rest : List Token) :
    Cursor.skipPast m (before.map e.token ++ e.before) (rest.map e.token) =
      e.cursor (Cursor.skipPast m before rest) := by
  induction rest generalizing before with
  | nil => rfl
  | cons t rest ih =>
      simp only [List.map_cons, Cursor.skipPast, e.isMark_token]
      split
      · rfl
      · exact ih (t :: before)

theorem skipUntil_cursor {stop : Token → Bool} (hstop : ∀ t, stop (e.token t) = stop t)
    (before rest : List Token) :
    Cursor.skipUntil stop (before.map e.token ++ e.before) (rest.map e.token) =
      e.cursor (Cursor.skipUntil stop before rest) := by
  induction rest generalizing before with
  | nil => rfl
  | cons t rest ih =>
      simp only [List.map_cons, Cursor.skipUntil, hstop]
      split
      · rfl
      · exact ih (t :: before)

theorem moreSegments_cursor_of_end {c : Cursor} (h : ∀ dot segment rest w,
    (c.skipGroup '<' '>').rest = dot :: segment :: rest → dot.isMark '.' = true →
      segment.word? ≠ some w) :
    (e.cursor c).moreSegments = ([], e.cursor (c.skipGroup '<' '>')) := by
  rw [Cursor.moreSegments_of_end, e.skipGroup_cursor]
  intro dot segment rest w hr hdot
  rw [e.skipGroup_cursor, e.cursor_rest] at hr
  obtain ⟨dot, _, hrest, rfl, hmap⟩ := List.map_eq_cons_iff.1 hr
  obtain ⟨segment, rest, rfl, rfl, -⟩ := List.map_eq_cons_iff.1 hmap
  rw [e.isMark_token] at hdot
  rw [e.word?_token]
  exact h dot segment rest w hrest hdot

theorem moreSegments_cursor (c : Cursor) :
    (e.cursor c).moreSegments = (c.moreSegments.1, e.cursor c.moreSegments.2) := by
  fun_induction Cursor.moreSegments c with
  | case1 c past dot segment rest hr word hword hdot words stop hstop ih =>
      rw [hstop] at ih
      have hrest : ((e.cursor c).skipGroup '<' '>').rest =
          e.token dot :: e.token segment :: rest.map e.token := by
        rw [e.skipGroup_cursor, e.cursor_rest, hr]
        rfl
      have hmore : Cursor.moreSegments
          ⟨e.token segment :: e.token dot :: (e.cursor past).before, rest.map e.token⟩ =
            (words, e.cursor stop) := ih
      rw [Cursor.moreSegments_of_dot hrest (by rw [e.isMark_token, hdot])
        (by rw [e.word?_token, hword]), e.skipGroup_cursor, hmore]
  | case2 c past dot segment rest hr hend =>
      refine e.moreSegments_cursor_of_end ?_
      intro dot' segment' rest' w hr' hdot hword
      rw [hr] at hr'
      cases hr'
      exact hend w hdot hword
  | case3 c past hend =>
      refine e.moreSegments_cursor_of_end ?_
      intro dot segment rest w hr
      exact (hend dot segment rest hr).elim

theorem globalQualifier_cursor (c : Cursor) :
    (e.cursor c).globalQualifier =
      (c.globalQualifier.1.map e.token, e.cursor c.globalQualifier.2) := by
  obtain ⟨before, rest⟩ := c
  match rest with
  | [] => rfl
  | [_] => rfl
  | [_, _] => rfl
  | qualifier :: colon :: colon' :: rest =>
      simp only [Cursor.globalQualifier, cursor, List.map_cons, e.isWord_token, e.isMark_token]
      split
      · rfl
      · rfl

theorem name_cursor (c : Cursor) :
    (e.cursor c).name = (c.name.1.map e.name, e.cursor c.name.2) := by
  rw [Cursor.name, Cursor.name, e.globalQualifier_cursor]
  generalize c.globalQualifier = q
  obtain ⟨qualifier, m⟩ := q
  obtain ⟨before, rest⟩ := m
  cases rest with
  | nil => rfl
  | cons first rest =>
      simp only [cursor, List.map_cons, e.word?_token]
      cases first.word? with
      | none => rfl
      | some word =>
          have hmore : Cursor.moreSegments
              ⟨e.token first :: (before.map e.token ++ e.before), rest.map e.token⟩ = _ :=
            e.moreSegments_cursor ⟨first :: before, rest⟩
          have hstarted := (Cursor.moreSegments_reaches ⟨first :: before, rest⟩).started
            (List.cons_ne_nil _ _)
          rw [hmore]
          dsimp only
          rw [e.here_cursor hstarted]
          cases qualifier with
          | none =>
              simp only [Option.map_none, Option.getD_none, e.token_start]
              rfl
          | some qualifier =>
              simp only [Option.map_some, Option.getD_some, e.token_start]
              rfl

theorem baseNames_cursor (c : Cursor) :
    (e.cursor c).baseNames =
      (c.baseNames.1.map e.name, c.baseNames.2.1, e.cursor c.baseNames.2.2) := by
  fun_induction Cursor.baseNames c with
  | case1 c stop h =>
      have hname := e.name_cursor c
      rw [h] at hname
      exact Cursor.baseNames_of_none hname
  | case2 c base stop h comma bases wellFormed last hlast ih =>
      have hname := e.name_cursor c
      rw [h] at hname
      rw [hlast] at ih
      rw [Cursor.baseNames_of_name hname, e.atMark_cursor, comma, if_pos rfl, e.next_cursor_of_atMark comma, ih]
      rfl
  | case3 c base stop h comma =>
      have hname := e.name_cursor c
      rw [h] at hname
      rw [Cursor.baseNames_of_name hname, e.atMark_cursor, if_neg comma]
      rfl

theorem takeWhile_token (ts : List Token) :
    (ts.map e.token).takeWhile Cursor.isModifier =
      (ts.takeWhile Cursor.isModifier).map e.token := by
  rw [List.takeWhile_map]
  congr 2
  funext t
  exact e.isModifier_token t

theorem dropWhile_token (ts : List Token) :
    (ts.map e.token).dropWhile Cursor.isModifier =
      (ts.dropWhile Cursor.isModifier).map e.token := by
  rw [List.dropWhile_map]
  congr 2
  funext t
  exact e.isModifier_token t

theorem any_token (ts : List Token) (w : String) :
    (ts.map e.token).any (·.isWord w) = ts.any (·.isWord w) := by
  rw [List.any_map]
  congr 1
  funext t
  exact e.isWord_token t w

theorem typeStart?_cursor (c : Cursor) :
    (e.cursor c).typeStart? = c.typeStart?.map e.typeStart := by
  simp only [Cursor.typeStart?, e.cursor_rest, e.takeWhile_token, e.dropWhile_token, e.any_token]
  cases c.rest.dropWhile Cursor.isModifier with
  | nil => rfl
  | cons keyword rest =>
      simp only [List.map_cons, e.isTypeKeyword_token]
      split
      · simp [cursor, typeStart]
      · rfl

/-! ### States -/

variable (s : State)

theorem state_moveTo (c : Cursor) : (e.state s).moveTo (e.cursor c) = e.state (s.moveTo c) := rfl

theorem state_report (cause : SyntaxError.Cause) (span : Span) :
    (e.state s).report cause (e.span span) = e.state (s.report cause span) := by
  simp [state, State.report, skeleton, error]

theorem head?_scopes : (e.state s).scopes.head? = e.inside s.scopes.head? := by
  rw [state, inside]
  cases s.scopes with
  | nil =>
      cases e.scope with
      | none => rfl
      | some outer => rfl
  | cons inner scopes => rfl

theorem visible_concat (usings : List Nat) (i : Nat) :
    e.visible usings ++ [e.usings.length + i] = e.visible (usings ++ [i]) := by
  simp [visible]

theorem state_addUsing (name : NameRef) :
    (e.state s).addUsing (e.name name) = e.state (s.addUsing name) := by
  have hlength : (e.state s).skeleton.usings.length =
      e.usings.length + s.skeleton.usings.length := by
    simp [state, skeleton]
  have hvisible : (e.state s).visible ++ [(e.state s).skeleton.usings.length] =
      e.visible (s.visible ++ [s.skeleton.usings.length]) := by
    rw [hlength, ← e.visible_concat]
    rfl
  have husings : (e.state s).skeleton.usings ++ [⟨e.name name, e.inside s.scopes.head?⟩] =
      e.usings ++
        (s.skeleton.usings ++ [(⟨name, s.scopes.head?⟩ : UsingDirective)]).map e.directive := by
    simp [state, skeleton, directive]
  rw [State.addUsing, e.head?_scopes, hvisible, husings]
  rfl

theorem state_addType (d : TypeDecl) :
    (e.state s).addType (e.decl d) = e.state (s.addType d) := by
  simp [state, State.addType, skeleton]

theorem state_addNamespace (name : String) :
    (e.state s).addNamespace (e.full name) = e.state (s.addNamespace name) := by
  simp [state, State.addNamespace, skeleton]

theorem qualify_state (name : String) : (e.state s).qualify name = e.full (s.qualify name) := by
  rw [State.qualify, State.qualify, state]
  cases s.scopes with
  | nil =>
      cases hscope : e.scope with
      | none => simp [full, hscope]
      | some outer => simp [full, hscope]
  | cons inner scopes =>
      cases hscope : e.scope with
      | none => simp [full, hscope]
      | some outer => simp [full, hscope, String.append_assoc]

theorem state_enter (name : String) :
    (e.state s).enter (e.full name) = e.state (s.enter name) := by
  simp [state, State.enter, State.addNamespace, skeleton]

theorem visible_take (usings : List Nat) (n : Nat) :
    (e.visible usings).take (e.usings.length + n) = e.visible (usings.take n) := by
  simp [visible, List.take_append, List.take_of_length_le]

theorem state_leave (n : Nat) (h : s.scopes ≠ []) :
    (e.state s).leave (e.usings.length + n) = e.state (s.leave n) := by
  obtain ⟨inner, scopes, hs⟩ := List.exists_cons_of_ne_nil h
  have hscopes : (e.state s).scopes.tail = s.scopes.tail.map e.full ++ e.scope.toList := by
    simp [state, hs]
  have hvisible : (e.state s).visible.take (e.usings.length + n) = e.visible (s.visible.take n) :=
    e.visible_take s.visible n
  rw [State.leave, hscopes, hvisible]
  rfl

/-! ### Members -/

theorem usingDirective_state (h : s.cursor.before ≠ []) :
    Parser.usingDirective (e.state s) = e.state (Parser.usingDirective s) := by
  have hstart : (if (e.state s).cursor.atWord "static" then (e.state s).cursor.next
      else (e.state s).cursor) =
        e.cursor (if s.cursor.atWord "static" then s.cursor.next else s.cursor) := by
    change (if (e.cursor s.cursor).atWord "static" then _ else _) = _
    rw [e.atWord_cursor]
    split
    · rename_i hword
      exact e.next_cursor (Cursor.rest_ne_nil_of_atWord hword)
    · rfl
  have hreach := s.cursor.optionalWord_reaches "static"
  rw [Parser.usingDirective, Parser.usingDirective, hstart]
  generalize (if s.cursor.atWord "static" then s.cursor.next else s.cursor) = start at hreach ⊢
  have hstarted := (hreach.trans (Cursor.name_reaches start)).started h
  rw [e.name_cursor]
  generalize start.name = found at hstarted ⊢
  obtain ⟨name, c⟩ := found
  have hskip : Cursor.skipPast ';' (e.cursor c).before (e.cursor c).rest =
      e.cursor (Cursor.skipPast ';' c.before c.rest) := e.skipPast_cursor ..
  cases name with
  | none =>
      simp only [Option.map_none, e.here_cursor hstarted, e.state_report, hskip, e.state_moveTo]
  | some name =>
      simp only [Option.map_some, e.atMark_cursor]
      split
      · rw [hskip, e.state_moveTo]
      · split
        · rename_i hsemicolon
          rw [e.next_cursor_of_atMark hsemicolon, e.state_moveTo, e.state_addUsing]
        · rw [e.here_cursor hstarted, e.state_moveTo, e.state_report, e.state_addUsing]

theorem namespaceHead_state (h : s.cursor.before ≠ [])
    (hfile : e.scope.isSome = true → (Parser.namespaceHead s).fileScoped = false) :
    Parser.namespaceHead (e.state s) = e.state (Parser.namespaceHead s) := by
  have hstarted := (Cursor.name_reaches s.cursor).started h
  have hname : (e.state s).cursor.name = _ := e.name_cursor s.cursor
  unfold Parser.namespaceHead at hfile ⊢
  rw [hname]
  generalize s.cursor.name = found at hstarted hfile ⊢
  obtain ⟨name, c⟩ := found
  cases name with
  | none =>
      simp only [Option.map_none, e.here_cursor hstarted, e.state_moveTo, e.state_report]
  | some name =>
      simp only [Option.map_some, e.atMark_cursor, e.state_moveTo] at hfile ⊢
      split
      · rename_i hsemicolon
        rw [if_pos hsemicolon] at hfile
        simp only [e.next_cursor_of_atMark hsemicolon, e.state_moveTo]
        -- a file-scoped namespace leaves its mark, so the setting can have none
        have hscope : e.scope.isSome = false := by
          cases hsome : e.scope.isSome with
          | false => rfl
          | true =>
              have hmark := hfile hsome
              split at hmark
              · rename_i already
                exact absurd already (Bool.eq_false_iff.1 hmark)
              · cases hmark
        have hflag : (e.state (s.moveTo c.next)).fileScoped = (s.moveTo c.next).fileScoped := by
          rw [state, hscope, Bool.or_false]
        rw [hflag]
        split
        · exact e.state_report _ _ name.span
        · rw [e.qualify_state]
          exact congrArg (fun t : State => { t with fileScoped := true })
            (e.state_enter (s.moveTo c.next) (s.qualify name.name))
      · split
        · rename_i hbrace
          simp only [e.next_cursor_of_atMark hbrace, e.state_moveTo]
          have hlength : (e.state s).visible.length = e.usings.length + s.visible.length := by
            simp [state, visible]
          rw [e.qualify_state, hlength]
          exact congrArg (fun t : State => { t with
            frames := .block (e.usings.length + s.visible.length) :: s.frames.map e.frame })
            (e.state_enter (s.moveTo c.next) (s.qualify name.name))
        · rw [e.qualify_state, e.here_cursor hstarted, e.state_addNamespace, e.state_report]
          rfl

/-! ### Types -/

theorem baseList_state (h : s.cursor.before ≠ []) :
    Parser.baseList (e.state s) =
      ((Parser.baseList s).1.map e.name, e.state (Parser.baseList s).2) := by
  have hcomma : (e.state s).cursor.atMark ':' = s.cursor.atMark ':' := e.atMark_cursor ..
  rw [Parser.baseList, Parser.baseList, hcomma]
  split
  · rename_i hcolon
    have hreaches := Cursor.next_reaches (Cursor.rest_ne_nil_of_atMark hcolon)
    have hstarted : s.cursor.next.baseNames.2.2.before ≠ [] :=
      (hreaches.trans (Cursor.baseNames_reaches _)).started h
    have hnext : (e.state s).cursor.next = e.cursor s.cursor.next := e.next_cursor_of_atMark hcolon
    rw [hnext, e.baseNames_cursor]
    dsimp only
    split
    · rw [e.state_moveTo]
    · rw [e.here_cursor hstarted, e.state_moveTo, e.state_report]
  · rfl

theorem skipConstraints_state :
    Parser.skipConstraints (e.state s) = e.state (Parser.skipConstraints s) := by
  have hwhere : (e.state s).cursor.atWord "where" = s.cursor.atWord "where" := e.atWord_cursor ..
  rw [Parser.skipConstraints, Parser.skipConstraints, hwhere]
  split
  · have hstop (t : Token) : ((e.token t).isMark '\x7b' || (e.token t).isMark ';') =
        (t.isMark '\x7b' || t.isMark ';') := by
      rw [e.isMark_token, e.isMark_token]
    exact congrArg (e.state s).moveTo (e.skipUntil_cursor hstop s.cursor.before s.cursor.rest)
  · rfl

theorem typeBody_state (name : String) (h : s.cursor.before ≠ []) :
    Parser.typeBody name (e.state s) = e.state (Parser.typeBody name s) := by
  have hmark (m : Char) : (e.state s).cursor.atMark m = s.cursor.atMark m := e.atMark_cursor ..
  have hnext {m : Char} (hm : s.cursor.atMark m = true) :
      (e.state s).cursor.next = e.cursor s.cursor.next := e.next_cursor_of_atMark hm
  have hhere : (e.state s).cursor.here = e.span s.cursor.here := e.here_cursor h
  rw [Parser.typeBody, Parser.typeBody, hmark, hmark, hhere, e.state_report]
  split
  · rename_i hbrace
    rw [hnext hbrace]
    rfl
  · split
    · rename_i hsemicolon
      rw [hnext hsemicolon]
      rfl
    · rfl

theorem typeTail_state (container : Option String) (isPartial : Bool) (name : NameRef)
    (h : s.cursor.before ≠ []) :
    Parser.typeTail container isPartial (e.name name) (e.state s) =
      e.state (Parser.typeTail container isPartial name s) := by
  have hgroups : ((e.state s).cursor.skipGroup '<' '>').skipGroup '(' ')' =
      e.cursor ((s.cursor.skipGroup '<' '>').skipGroup '(' ')') := by
    change ((e.cursor s.cursor).skipGroup '<' '>').skipGroup '(' ')' = _
    rw [e.skipGroup_cursor, e.skipGroup_cursor]
  have hreach : s.cursor.Reaches ((s.cursor.skipGroup '<' '>').skipGroup '(' ')') :=
    (Cursor.skipGroup_reaches ..).trans (Cursor.skipGroup_reaches ..)
  rw [Parser.typeTail, Parser.typeTail, hgroups]
  generalize (s.cursor.skipGroup '<' '>').skipGroup '(' ')' = c at hreach ⊢
  have hc := hreach.started h
  have hbases := (Parser.baseList_reaches (s.moveTo c)).started hc
  rw [e.state_moveTo, e.baseList_state _ hc]
  generalize Parser.baseList (s.moveTo c) = bases at hbases ⊢
  have hconstraints := (Parser.skipConstraints_reaches bases.2).started hbases
  dsimp only
  rw [e.skipConstraints_state]
  generalize Parser.skipConstraints bases.2 = t at hconstraints ⊢
  have hadded (d : TypeDecl) : (t.addType d).cursor.before ≠ [] := hconstraints
  rw [← e.typeBody_state _ _ (hadded _), ← e.state_addType, e.head?_scopes]
  rfl

theorem typeHead_state (container : Option String) (isPartial : Bool)
    (h : s.cursor.before ≠ []) :
    Parser.typeHead container isPartial (e.state s) =
      e.state (Parser.typeHead container isPartial s) := by
  have hrest : (e.state s).cursor.rest = s.cursor.rest.map e.token := rfl
  have hhere : (e.state s).cursor.here = e.span s.cursor.here := e.here_cursor h
  unfold Parser.typeHead
  rw [hrest, hhere, e.state_report]
  cases s.cursor.rest with
  | nil => rfl
  | cons t rest =>
      simp only [List.map_cons, e.word?_token]
      cases t.word? with
      | none => rfl
      | some word =>
          have hstarted : (s.moveTo ⟨t :: s.cursor.before, rest⟩).cursor.before ≠ [] :=
            List.cons_ne_nil _ _
          dsimp only
          rw [← e.typeTail_state _ _ _ _ hstarted, e.span_token]
          rfl

theorem typeFrom_state (container : Option String) (start : Cursor.TypeStart)
    (h : start.stop.before ≠ []) :
    Parser.typeFrom container (e.typeStart start) (e.state s) =
      e.state (Parser.typeFrom container start s) := by
  simp only [Parser.typeFrom, typeStart, e.isWord_token, e.atWord_cursor]
  split
  · rename_i hrecord
    have hrest := Parser.rest_ne_nil_of_record hrecord
    rw [e.next_cursor hrest, e.state_moveTo, e.typeHead_state]
    exact (Cursor.next_reaches hrest).started h
  · rw [e.state_moveTo, e.typeHead_state]
    exact h

/-! ### Steps -/

theorem takeWhile_before : e.before.takeWhile Cursor.isModifier = [] := by
  have h := e.before_isModifier
  cases hb : e.before with
  | nil => rfl
  | cons t ts =>
      rw [hb] at h
      exact List.takeWhile_cons_of_neg (Bool.eq_false_iff.1 h)

theorem takeWhile_cursor (c : Cursor) :
    (e.cursor c).before.takeWhile Cursor.isModifier =
      (c.before.takeWhile Cursor.isModifier).map e.token := by
  rw [cursor, List.takeWhile_append, e.takeWhile_before, List.append_nil, e.takeWhile_token]
  split
  · rename_i hlength
    rw [← e.takeWhile_token] at hlength ⊢
    exact ((List.takeWhile_prefix _).eq_of_length hlength).symm
  · rfl

theorem typeStart?_rewindModifiers {c : Cursor} {keyword : Token} {rest : List Token}
    (hc : c.rest = keyword :: rest) (hk : Cursor.isTypeKeyword keyword = true) :
    (e.cursor c).rewindModifiers.typeStart? = c.rewindModifiers.typeStart?.map e.typeStart := by
  have hrest : (e.cursor c).rest = e.token keyword :: rest.map e.token := by
    rw [e.cursor_rest, hc]
    rfl
  rw [Cursor.typeStart?_rewindModifiers hrest (by rw [e.isTypeKeyword_token, hk]),
    Cursor.typeStart?_rewindModifiers hc hk, e.takeWhile_cursor, e.any_token]
  rfl

theorem memberStep_state {s : State} {t : Token} {rest : List Token}
    (hrest : s.cursor.rest = t :: rest)
    (hscopes : ∀ visible frames, s.frames = .block visible :: frames → s.scopes ≠ [])
    (hfile : e.scope.isSome = true → t.isWord "namespace" = true →
      (Parser.namespaceHead (s.moveTo s.cursor.next)).fileScoped = false) :
    Parser.memberStep (e.state s) (e.token t) = e.state (Parser.memberStep s t) := by
  have hnext : (e.state s).moveTo (e.state s).cursor.next = e.state (s.moveTo s.cursor.next) :=
    congrArg (e.state s).moveTo (e.next_cursor (Cursor.rest_ne_nil_of_eq hrest))
  have hgroup : (e.state s).cursor.skipGroup '[' ']' = e.cursor (s.cursor.skipGroup '[' ']') :=
    e.skipGroup_cursor s.cursor '[' ']'
  have htype : (e.state s).cursor.typeStart? = s.cursor.typeStart?.map e.typeStart :=
    e.typeStart?_cursor s.cursor
  have hframes : (e.state s).frames = s.frames.map e.frame := rfl
  have hstarted : (s.moveTo s.cursor.next).cursor.before ≠ [] := s.cursor.next_started hrest
  unfold Parser.memberStep
  simp only [hnext, hgroup, htype, hframes, e.isMark_token, e.isWord_token, e.span_token,
    e.state_report, e.state_moveTo, e.usingDirective_state _ hstarted]
  split
  · cases hf : s.frames with
    | nil => rfl
    | cons frame frames =>
        cases frame with
        | block visible =>
            exact congrArg (fun u : State => { u with frames := frames.map e.frame })
              (e.state_leave (s.moveTo s.cursor.next) visible (hscopes _ _ hf))
        | body type depth sawStatic => rfl
  · split
    · rfl
    · split
      · rename_i hword
        exact e.namespaceHead_state _ hstarted fun hscope => hfile hscope hword
      · split
        · rfl
        · split
          · rfl
          · cases hstart : s.cursor.typeStart? with
            | none => rfl
            | some start =>
                have hlt := Cursor.typeStart?_rest_lt hstart
                exact e.typeFrom_state s none start
                  ((Cursor.typeStart?_reaches hstart).started_of_lt hlt)

theorem bodyStep_state {s : State} {t : Token} {rest : List Token}
    (hrest : s.cursor.rest = t :: rest) (type : String) (depth : Nat) (sawStatic : Bool)
    (outer : List Frame) :
    Parser.bodyStep (e.state s) type depth sawStatic (outer.map e.frame) (e.token t) =
      e.state (Parser.bodyStep s type depth sawStatic outer t) := by
  have hnext : (e.state s).cursor.next = e.cursor s.cursor.next :=
    e.next_cursor (Cursor.rest_ne_nil_of_eq hrest)
  have hword : (s.cursor.next.rest.map e.token).head?.any (·.word?.isSome) =
      s.cursor.next.rest.head?.any (·.word?.isSome) := by
    rw [List.head?_map, Option.any_map]
    simp only [e.word?_token]
  unfold Parser.bodyStep
  simp only [hnext, hword, e.cursor_rest, e.isMark_token, e.isWord_token, e.atMark_cursor,
    e.isTypeKeyword_token]
  split
  · rfl
  · split
    · split
      · rfl
      · rfl
    · split
      · rfl
      · split
        · rfl
        · split
          · rfl
          · split
            · rename_i hdecl
              have hkeyword : Cursor.isTypeKeyword t = true := by
                rw [Bool.and_eq_true, Bool.and_eq_true] at hdecl
                exact hdecl.1.2
              have hstart : (e.state s).cursor.rewindModifiers.typeStart? = _ :=
                e.typeStart?_rewindModifiers hrest hkeyword
              rw [hstart, Cursor.typeStart?_rewindModifiers hrest hkeyword]
              exact e.typeFrom_state { s with frames := .body type depth false :: outer }
                (some type) ⟨_, t, ⟨t :: s.cursor.before, rest⟩⟩ (List.cons_ne_nil _ _)
            · rfl

theorem closeFrame_state {s : State} (hstarted : s.frames ≠ [] → s.cursor.before ≠ [])
    (hscopes : ∀ visible frames, s.frames = .block visible :: frames → s.scopes ≠ []) :
    Parser.closeFrame (e.state s) = e.state (Parser.closeFrame s) := by
  have hframes : (e.state s).frames = s.frames.map e.frame := rfl
  unfold Parser.closeFrame
  rw [hframes]
  cases hf : s.frames with
  | nil => rfl
  | cons frame frames =>
      have hhere : (e.state s).cursor.here = e.span s.cursor.here :=
        e.here_cursor (hstarted (by rw [hf]; exact List.cons_ne_nil _ _))
      rw [hhere, e.state_report]
      cases frame with
      | block visible =>
          exact congrArg (fun u : State => { u with frames := frames.map e.frame })
            (e.state_leave (s.report .closingBraceExpected s.cursor.here) visible
              (hscopes _ _ hf))
      | body type depth sawStatic => rfl

theorem step_state {s : State} (hs : s.Nested)
    (hfile : e.scope.isSome = true → (Parser.step s).fileScoped = false) :
    Parser.step (e.state s) = e.state (Parser.step s) := by
  have htokens : (e.state s).cursor.rest = s.cursor.rest.map e.token := rfl
  have hframes : (e.state s).frames = s.frames.map e.frame := rfl
  have hscopes : ∀ visible frames, s.frames = .block visible :: frames → s.scopes ≠ [] :=
    fun _ _ hf => hs.scopes_ne_nil hf
  cases hrest : s.cursor.rest with
  | nil =>
      rw [Parser.step, Parser.step, htokens, hrest]
      exact e.closeFrame_state hs.started hscopes
  | cons t rest =>
      have hmember (hat : s.AtMembers) :
          Parser.memberStep (e.state s) (e.token t) = e.state (Parser.memberStep s t) := by
        refine e.memberStep_state hrest hscopes fun hscope hword => ?_
        have hat_word : s.cursor.atWord "namespace" = true := by
          rw [Cursor.atWord, hrest]
          exact hword
        rw [← Parser.step_namespace hat hat_word]
        exact hfile hscope
      rw [Parser.step, Parser.step, htokens, hrest, hframes]
      cases hf : s.frames with
      | nil => exact hmember fun _ _ _ _ h => by cases hf.symm.trans h
      | cons frame frames =>
          cases frame with
          | block visible => exact hmember fun _ _ _ _ h => by cases hf.symm.trans h
          | body type depth sawStatic => exact e.bodyStep_state hrest type depth sawStatic frames

/-- What the reader makes of a text in a setting, from any state of the text alone. -/
theorem run_state {s : State} (hs : s.Nested)
    (hfile : e.scope.isSome = true → (Parser.run s).fileScoped = false) :
    Parser.run (e.state s) = e.state (Parser.run s) := by
  induction s using Parser.run.induct with
  | case1 s hdone =>
      rw [Parser.State.isDone, Bool.and_eq_true, List.isEmpty_iff, List.isEmpty_iff] at hdone
      have hrest : (e.state s).cursor.rest = [] := by
        change s.cursor.rest.map e.token = []
        rw [hdone.1, List.map_nil]
      have hframes : (e.state s).frames = [] := by
        change s.frames.map e.frame = []
        rw [hdone.2, List.map_nil]
      rw [Parser.run_done hrest hframes, Parser.run_done hdone.1 hdone.2]
  | case2 s hdone ih =>
      rw [Parser.run_step s] at hfile ⊢
      have hfirst : e.scope.isSome = true → (Parser.step s).fileScoped = false := by
        intro hscope
        cases hmark : (Parser.step s).fileScoped with
        | false => rfl
        | true =>
            have hlast := hfile hscope
            rw [Parser.fileScoped_run hmark] at hlast
            cases hlast
      rw [Parser.run_step (e.state s), e.step_state hs hfirst]
      exact ih (Parser.step_nested hs) hfile

end Setting

end GeneratorBench
