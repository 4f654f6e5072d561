import GeneratorBench.Syntax.Cursor

/-!
Reading the declaration skeleton of a text. The reader is a machine with a stack of open braces:
each step takes the next token or a few (`step_rest_lt`), and once there are none it gives up the
open braces one by one, so that `run` reaches the end of every text, well formed or not.
-/

namespace GeneratorBench

namespace Parser

inductive Frame
  /-- A namespace block, with the number of directives that were visible before it. -/
  | block (visible : Nat)
  /-- The body of a type: how deep in braces the next token is, and whether the word `static` was
  met since the last brace or semicolon. -/
  | body (type : String) (depth : Nat) (sawStatic : Bool)
  deriving Repr, DecidableEq, Inhabited

structure State where
  cursor : Cursor
  /-- Open braces, innermost first. -/
  frames : List Frame := []
  /-- Enclosing namespaces, innermost first. -/
  scopes : List String := []
  visible : List Nat := []
  fileScoped : Bool := false
  skeleton : Skeleton := {}
  deriving Repr, DecidableEq, Inhabited

namespace State

def moveTo (s : State) (c : Cursor) : State := { s with cursor := c }

def report (s : State) (cause : SyntaxError.Cause) (span : Span) : State :=
  { s with skeleton := { s.skeleton with errors := s.skeleton.errors ++ [⟨cause, span⟩] } }

def addUsing (s : State) (name : NameRef) : State :=
  let usings := s.skeleton.usings
  { s with
    skeleton := { s.skeleton with usings := usings ++ [⟨name, s.scopes.head?⟩] }
    visible := s.visible ++ [usings.length] }

def addType (s : State) (decl : TypeDecl) : State :=
  { s with skeleton := { s.skeleton with types := s.skeleton.types ++ [decl] } }

def addNamespace (s : State) (name : String) : State :=
  { s with skeleton := { s.skeleton with namespaces := s.skeleton.namespaces ++ [name] } }

def qualify (s : State) (name : String) : String :=
  match s.scopes with
  | [] => name
  | outer :: _ => outer ++ "." ++ name

def enter (s : State) (name : String) : State :=
  { s.addNamespace name with scopes := name :: s.scopes }

/-- Leaves the innermost namespace and forgets the directives past the first `visible`. -/
def leave (s : State) (visible : Nat) : State :=
  { s with scopes := s.scopes.tail, visible := s.visible.take visible }

end State

/-- Reads a directive from the token after `using`. An alias imports no namespace. -/
def usingDirective (s : State) : State :=
  let c := if s.cursor.atWord "static" then s.cursor.next else s.cursor
  match c.name with
  | (none, c) => (s.report .identifierExpected c.here).moveTo (.skipPast ';' c.before c.rest)
  | (some name, c) =>
    if c.atMark '=' then s.moveTo (.skipPast ';' c.before c.rest)
    else if c.atMark ';' then (s.moveTo c.next).addUsing name
    else ((s.moveTo c).report .semicolonExpected c.here).addUsing name

/-- Reads a namespace from the token after `namespace` up to its members. -/
def namespaceHead (s : State) : State :=
  match s.cursor.name with
  | (none, c) => (s.moveTo c).report .identifierExpected c.here
  | (some name, c) =>
    let full := s.qualify name.name
    if c.atMark ';' then
      let s := s.moveTo c.next
      if s.fileScoped then s.report .secondFileNamespace name.span
      else { s.enter full with fileScoped := true }
    else if c.atMark '\x7b' then
      { (s.moveTo c.next).enter full with frames := .block s.visible.length :: s.frames }
    else ((s.moveTo c).addNamespace full).report .openingBraceExpected c.here

def baseList (s : State) : List NameRef × State :=
  if s.cursor.atMark ':' then
    let (bases, wellFormed, c) := s.cursor.next.baseNames
    (bases, if wellFormed then s.moveTo c else (s.moveTo c).report .identifierExpected c.here)
  else ([], s)

def skipConstraints (s : State) : State :=
  if s.cursor.atWord "where" then
    s.moveTo (.skipUntil (fun t => t.isMark '\x7b' || t.isMark ';') s.cursor.before s.cursor.rest)
  else s

/-- Opens the body of the type `name`, or ends a declaration without one. -/
def typeBody (name : String) (s : State) : State :=
  if s.cursor.atMark '\x7b' then
    { s.moveTo s.cursor.next with frames := .body name 1 false :: s.frames }
  else if s.cursor.atMark ';' then s.moveTo s.cursor.next
  else s.report .openingBraceExpected s.cursor.here

/-- Reads a type declaration from the place after its name, the word of `name`, up to its body. -/
def typeTail (container : Option String) (isPartial : Bool) (name : NameRef) (s : State) : State :=
  let (bases, s) := baseList (s.moveTo ((s.cursor.skipGroup '<' '>').skipGroup '(' ')'))
  let s := skipConstraints s
  typeBody name.name (s.addType
    { name, scope := s.scopes.head?, container, isPartial, bases, usings := s.visible })

def typeHead (container : Option String) (isPartial : Bool) (s : State) : State :=
  match s.cursor.rest with
  | [] => s.report .identifierExpected s.cursor.here
  | t :: rest =>
    match t.word? with
    | none => s.report .identifierExpected s.cursor.here
    | some word =>
      typeTail container isPartial ⟨word, t.span, false⟩ (s.moveTo ⟨t :: s.cursor.before, rest⟩)

/-- Reads a type declaration that starts so. After `record` a second keyword may follow. -/
def typeFrom (container : Option String) (start : Cursor.TypeStart) (s : State) : State :=
  let c := start.stop
  let c :=
    if start.keyword.isWord "record" && (c.atWord "class" || c.atWord "struct") then c.next else c
  typeHead container start.isPartial (s.moveTo c)

/-- Tries to read a type: goes past the modifiers, and back to where it was if no type keyword comes next. -/
def attempt (container : Option String) (s : State) : Bool × State :=
  let c := s.cursor.passModifiers
  match c.rest.head?.filter Cursor.isTypeKeyword with
  | none => (false, (s.moveTo c).moveTo s.cursor)
  | some keyword =>
    let isPartial := (s.cursor.rest.takeWhile Cursor.isModifier).any (·.isWord "partial")
    (true, typeFrom container ⟨isPartial, keyword, c.next⟩ (s.moveTo c))

def memberStep (s : State) (t : Token) : State :=
  let past := s.moveTo s.cursor.next
  if t.isMark '\x7d' then
    match s.frames with
    | .block visible :: frames => { past.leave visible with frames }
    | _ => past.report .memberExpected t.span
  else if t.isWord "using" then usingDirective past
  else if t.isWord "namespace" then namespaceHead past
  else if t.isMark ';' then past
  else if t.isMark '[' then s.moveTo (s.cursor.skipGroup '[' ']')
  else
    match s.cursor.typeStart? with
    | some start => typeFrom none start s
    | none => past.report .memberExpected t.span

/-- A step in the body of a type. Only types and the entry point are of interest there. -/
def bodyStep (s : State) (type : String) (depth : Nat) (sawStatic : Bool) (outer : List Frame)
    (t : Token) : State :=
  let next := s.cursor.next
  let stay (depth : Nat) (sawStatic : Bool) : State :=
    { s.moveTo next with frames := .body type depth sawStatic :: outer }
  if t.isMark '\x7b' then stay (depth + 1) false
  else if t.isMark '\x7d' then
    if depth ≤ 1 then { s.moveTo next with frames := outer } else stay (depth - 1) false
  else if t.isMark ';' then stay depth false
  else if t.isWord "static" then stay depth true
  else if t.isWord "Main" && sawStatic && next.atMark '(' then
    let s := stay depth sawStatic
    { s with skeleton := { s.skeleton with hasMain := true } }
  else if depth == 1 && Cursor.isTypeKeyword t && next.rest.head?.any (·.word?.isSome) then
    match s.cursor.rewindModifiers.typeStart? with
    | some start => typeFrom (some type) start { s with frames := .body type depth false :: outer }
    | none => stay depth sawStatic
  else stay depth sawStatic

/-- At the end of the text an open brace lacks its partner; the innermost one is given up. -/
def closeFrame (s : State) : State :=
  match s.frames with
  | [] => s
  | .block visible :: frames =>
    { (s.report .closingBraceExpected s.cursor.here).leave visible with frames }
  | .body .. :: frames => { s.report .closingBraceExpected s.cursor.here with frames }

def step (s : State) : State :=
  match s.cursor.rest with
  | [] => closeFrame s
  | t :: _ =>
    match s.frames with
    | .body type depth sawStatic :: outer => bodyStep s type depth sawStatic outer t
    | _ => memberStep s t

section Progress

variable (s : State)

private theorem moveTo_cursor (c : Cursor) : (s.moveTo c).cursor = c := rfl

private theorem report_cursor (cause : SyntaxError.Cause) (span : Span) :
    (s.report cause span).cursor = s.cursor := rfl

private theorem addUsing_cursor (name : NameRef) : (s.addUsing name).cursor = s.cursor := rfl

private theorem addNamespace_cursor (name : String) :
    (s.addNamespace name).cursor = s.cursor := rfl

private theorem enter_cursor (name : String) : (s.enter name).cursor = s.cursor := rfl

theorem usingDirective_rest_le :
    (usingDirective s).cursor.rest.length ≤ s.cursor.rest.length := by
  have start : (if s.cursor.atWord "static" then s.cursor.next else s.cursor).rest.length
      ≤ s.cursor.rest.length := by
    split
    · exact Cursor.next_rest_le _
    · exact Nat.le_refl _
  have read := Cursor.name_rest_le (if s.cursor.atWord "static" then s.cursor.next else s.cursor)
  unfold usingDirective
  dsimp only
  split
  · rename_i c h
    have := Cursor.skipPast_rest_le ';' c.before c.rest
    simp only [h, moveTo_cursor] at *
    omega
  · rename_i name c h
    have := Cursor.skipPast_rest_le ';' c.before c.rest
    have := Cursor.next_rest_le c
    split
    · simp only [h, moveTo_cursor] at *
      omega
    · split <;> simp only [h, moveTo_cursor, addUsing_cursor, report_cursor] at * <;> omega

theorem namespaceHead_rest_le :
    (namespaceHead s).cursor.rest.length ≤ s.cursor.rest.length := by
  have read := Cursor.name_rest_le s.cursor
  unfold namespaceHead
  split
  · rename_i c h
    simp only [h] at read
    exact read
  · rename_i name c h
    have := Cursor.next_rest_le c
    simp only [h] at read
    dsimp only
    split
    · split <;> simp only [moveTo_cursor, report_cursor, enter_cursor] <;> omega
    · split <;>
        simp only [moveTo_cursor, report_cursor, enter_cursor, addNamespace_cursor] <;> omega

theorem baseList_rest_le : (baseList s).2.cursor.rest.length ≤ s.cursor.rest.length := by
  have := Nat.le_trans (Cursor.baseNames_rest_le s.cursor.next) (Cursor.next_rest_le s.cursor)
  unfold baseList
  split
  · dsimp only
    split <;> exact this
  · exact Nat.le_refl _

theorem skipConstraints_rest_le :
    (skipConstraints s).cursor.rest.length ≤ s.cursor.rest.length := by
  unfold skipConstraints
  split
  · exact Cursor.skipUntil_rest_le ..
  · exact Nat.le_refl _

theorem typeBody_rest_le (name : String) :
    (typeBody name s).cursor.rest.length ≤ s.cursor.rest.length := by
  unfold typeBody
  split
  · exact Cursor.next_rest_le _
  · split
    · exact Cursor.next_rest_le _
    · exact Nat.le_refl _

theorem typeTail_rest_le (container : Option String) (isPartial : Bool) (name : NameRef) :
    (typeTail container isPartial name s).cursor.rest.length ≤ s.cursor.rest.length :=
  calc (typeTail container isPartial name s).cursor.rest.length
    _ ≤ _ := typeBody_rest_le ..
    _ ≤ _ := skipConstraints_rest_le _
    _ ≤ _ := baseList_rest_le _
    _ ≤ _ := Cursor.skipGroup_rest_le ..
    _ ≤ _ := Cursor.skipGroup_rest_le ..

theorem typeHead_rest_le (container : Option String) (isPartial : Bool) :
    (typeHead container isPartial s).cursor.rest.length ≤ s.cursor.rest.length := by
  unfold typeHead
  split
  · exact Nat.le_refl _
  · rename_i t rest h
    split
    · exact Nat.le_refl _
    · refine Nat.le_trans (typeTail_rest_le ..) ?_
      simp [State.moveTo, h]

theorem typeFrom_rest_le (container : Option String) (start : Cursor.TypeStart) :
    (typeFrom container start s).cursor.rest.length ≤ start.stop.rest.length := by
  have := Cursor.next_rest_le start.stop
  unfold typeFrom
  refine Nat.le_trans (typeHead_rest_le ..) ?_
  simp only [moveTo_cursor]
  split <;> omega

variable {s}

theorem step_rest_lt (h : s.cursor.rest ≠ []) :
    (step s).cursor.rest.length < s.cursor.rest.length := by
  have next := Cursor.next_rest_lt h
  unfold step
  split
  · contradiction
  · rename_i t rest hrest
    split
    · rename_i type depth sawStatic outer hframes
      unfold bodyStep
      dsimp only
      repeat' split
      all_goals try exact next
      rename_i hkeyword _ start hstart
      have keyword : Cursor.isTypeKeyword t = true := by
        simp only [Bool.and_eq_true] at hkeyword
        exact hkeyword.1.2
      rw [Cursor.typeStart?_rewindModifiers hrest keyword] at hstart
      refine Nat.lt_of_le_of_lt (typeFrom_rest_le ..) ?_
      simp only [Option.some.injEq] at hstart
      subst hstart
      simp [hrest]
    · unfold memberStep
      dsimp only
      repeat' split
      all_goals try exact next
      · exact Nat.lt_of_le_of_lt (usingDirective_rest_le _) next
      · exact Nat.lt_of_le_of_lt (namespaceHead_rest_le _) next
      · rename_i hmark
        exact Cursor.skipGroup_rest_lt _ (by simpa [Cursor.atMark, hrest] using hmark)
      · rename_i start hstart
        exact Nat.lt_of_le_of_lt (typeFrom_rest_le ..) (Cursor.typeStart?_rest_lt hstart)

end Progress

def State.isDone (s : State) : Bool := s.cursor.rest.isEmpty && s.frames.isEmpty

/-- Each step takes a token or gives up an open brace. -/
theorem step_progress {s : State} (h : s.isDone = false) :
    Prod.Lex (· < ·) (· < ·) ((step s).cursor.rest.length, (step s).frames.length)
      (s.cursor.rest.length, s.frames.length) := by
  by_cases hrest : s.cursor.rest = []
  · have hframes : s.frames ≠ [] := by
      intro none
      simp [State.isDone, hrest, none] at h
    obtain ⟨frame, frames, hf⟩ := List.exists_cons_of_ne_nil hframes
    have close : step s = closeFrame s := by simp [step, hrest]
    rw [close]
    cases frame <;> simp [closeFrame, hf, State.leave, State.report, Prod.lex_def]
  · exact Prod.Lex.left _ _ (step_rest_lt hrest)

def run (s : State) : State :=
  if _h : s.isDone then s else run (step s)
termination_by (s.cursor.rest.length, s.frames.length)
decreasing_by exact step_progress (by simpa using _h)

end Parser

def Skeleton.ofTokens (ts : List Token) : Skeleton :=
  (Parser.run { cursor := ⟨[], ts⟩ }).skeleton

def Skeleton.ofText (text : String) : Skeleton := .ofTokens (tokens text)

end GeneratorBench
