import GeneratorBench.Proofs.Source.Header
import GeneratorBench.Proofs.Syntax.Heads
import GeneratorBench.Proofs.Syntax.Setting

/-!
What the reader makes of a decorated fragment: what it makes of the fragment alone, put behind the
imports, inside the namespace and below the lines of the header.
-/

namespace GeneratorBench

open Grammar (dotted)
open Token (nameTokens lineTokens)

theorem kinds_nameTokens (p : Position) (w : String) (ws : List String) :
    (nameTokens p (w :: ws)).map Token.kind = dotted w ws := by
  induction ws generalizing p w with
  | nil => rfl
  | cons v ws ih =>
      rw [nameTokens, List.map_cons, List.map_cons, ih]
      rfl

theorem head?_nameTokens (p : Position) (w : String) (ws : List String) :
    (nameTokens p (w :: ws)).head? = some ⟨.word w, p, w.length⟩ := by
  cases ws <;> rfl

theorem exists_last_nameTokens (p : Position) (w : String) (ws : List String) :
    ∃ ts t, nameTokens p (w :: ws) = ts ++ [t] ∧
      t.stop = p.right (".".intercalate (w :: ws)).length := by
  induction ws generalizing p w with
  | nil =>
      rw [String.intercalate_singleton]
      exact ⟨[], ⟨.word w, p, w.length⟩, rfl, rfl⟩
  | cons v ws ih =>
      obtain ⟨ts, t, htokens, hstop⟩ := ih (p.right (w.length + 1)) v
      rw [Position.right_right, ← Token.length_dots] at hstop
      exact ⟨_ :: _ :: ts, t, congrArg (_ :: _ :: ·) htokens, hstop⟩

def lineRef (keyword : String) (line : Nat) (name : String) : NameRef :=
  ⟨name, .onLine line (keyword.length + 1) name.length, false⟩

namespace Cursor

theorem name_nameTokens {p : Position} {name : String} {c d : Cursor}
    (hr : c.rest = nameTokens p (Text.splitAt '.' name) ++ d.rest)
    (hb : d.before = (nameTokens p (Text.splitAt '.' name)).reverse ++ c.before)
    (hd : d.EndsName) : c.name = (some ⟨name, ⟨p, p.right name.length⟩, false⟩, d) := by
  obtain ⟨w, ws, hwords⟩ := List.exists_cons_of_ne_nil (Text.splitAt_ne_nil '.' name)
  have hname : ".".intercalate (w :: ws) = name := by
    rw [← hwords]
    exact Text.intercalate_splitAt '.' name
  rw [hwords] at hr hb
  have hread : c.Reads (dotted w ws) d := ⟨_, kinds_nameTokens p w ws, hr, hb⟩
  obtain ⟨word, rest, hrest, hfound⟩ :=
    name_of_globalQualifier (globalQualifier_dotted hread hd) hread hd
  have hstart : word.start = p := by
    have hhead : c.rest.head? = some ⟨.word w, p, w.length⟩ := by
      rw [hr, List.head?_append, head?_nameTokens]
      rfl
    rw [hrest] at hhead
    cases hhead
    rfl
  have hstop : d.here.start = p.right name.length := by
    obtain ⟨ts, t, htokens, hstop⟩ := exists_last_nameTokens p w ws
    rw [htokens, List.reverse_append, List.reverse_singleton] at hb
    rw [here, hb, ← hname]
    exact hstop
  rw [hfound, hname, hstop, Option.getD_none, hstart]
  rfl

theorem name_line {keyword : String} {line : Nat} {name : String} {c : Cursor} {rest : List Token}
    (hr : c.rest = lineTokens keyword line name ++ rest) :
    ∃ m, c.next.name = (some (lineRef keyword line name), m) ∧
      m.Reads [.mark ';'] ⟨(lineTokens keyword line name).reverse ++ c.before, rest⟩ := by
  let start : Position := ⟨line, keyword.length + 1⟩
  let semicolon : Token := ⟨.mark ';', start.right name.length, 1⟩
  have hend : Reads ⟨(nameTokens start (Text.splitAt '.' name)).reverse ++
      ⟨.word keyword, ⟨line, 0⟩, keyword.length⟩ :: c.before, semicolon :: rest⟩ [.mark ';']
      ⟨(lineTokens keyword line name).reverse ++ c.before, rest⟩ :=
    ⟨[semicolon], rfl, rfl, by simp [lineTokens, start, semicolon]⟩
  refine ⟨_, ?_, hend⟩
  rw [lineTokens, List.cons_append, List.append_assoc] at hr
  rw [next_eq hr]
  exact name_nameTokens rfl rfl (hend.endsName (by decide))

theorem atWord_line {keyword w : String} {line : Nat} {name : String} {c : Cursor}
    {rest : List Token} (hr : c.rest = lineTokens keyword line name ++ rest)
    (h : (Text.splitAt '.' name).head? ≠ some w) : c.next.atWord w = false := by
  obtain ⟨v, ws, hwords⟩ := List.exists_cons_of_ne_nil (Text.splitAt_ne_nil '.' name)
  rw [hwords, List.head?_cons, Ne, Option.some.injEq] at h
  rw [lineTokens, hwords, List.cons_append, List.append_assoc] at hr
  rw [next_eq hr, atWord, List.head?_append, head?_nameTokens, Option.some_or, Option.any_some,
    Token.isWord_of_word rfl, beq_eq_false_iff_ne]
  exact h

end Cursor

def importDirectives (imports : List String) (line : Nat) : List UsingDirective :=
  (imports.zipIdx line).map fun (name, line) => ⟨lineRef "using" line name, none⟩

theorem importDirectives_cons (name : String) (imports : List String) (line : Nat) :
    importDirectives (name :: imports) line =
      ⟨lineRef "using" line name, none⟩ :: importDirectives imports (line + 1) := rfl

namespace Parser

theorem step_importLine {s : State} (hs : s.AtMembers) {line : Nat} {name : String}
    (h : (Text.splitAt '.' name).head? ≠ some "static") {rest : List Token}
    (hr : s.cursor.rest = lineTokens "using" line name ++ rest) :
    step s = s.extend ⟨(lineTokens "using" line name).reverse ++ s.cursor.before, rest⟩
      (s.visible ++ [s.skeleton.usings.length])
      { usings := [⟨lineRef "using" line name, s.scopes.head?⟩] } := by
  have hword : s.cursor.atWord "using" = true := by
    rw [lineTokens, List.cons_append] at hr
    rw [Cursor.atWord_eq hr, Token.isWord_of_word rfl, beq_self_eq_true]
  have hstatic := Cursor.atWord_line hr h
  have hstart : (if s.cursor.next.atWord "static" then s.cursor.next.next else s.cursor.next) =
      s.cursor.next := if_neg (Bool.eq_false_iff.1 hstatic)
  obtain ⟨m, hname, hend⟩ := Cursor.name_line hr
  rw [← hstart] at hname
  rw [step_using hs hword, usingDirective_of_name (s := s.moveTo s.cursor.next) hname hend]
  exact s.moveTo_addUsing _ _

theorem step_scopeLine {s : State} (hs : s.AtMembers) (first : s.fileScoped = false) {line : Nat}
    {name : String} {rest : List Token}
    (hr : s.cursor.rest = lineTokens "namespace" line name ++ rest) :
    step s =
      { s.extend ⟨(lineTokens "namespace" line name).reverse ++ s.cursor.before, rest⟩ s.visible
          { namespaces := [s.qualify name] } with
        scopes := s.qualify name :: s.scopes
        fileScoped := true } := by
  have hword : s.cursor.atWord "namespace" = true := by
    rw [lineTokens, List.cons_append] at hr
    rw [Cursor.atWord_eq hr, Token.isWord_of_word rfl, beq_self_eq_true]
  have hfirst : (s.moveTo s.cursor.next).fileScoped = false := first
  obtain ⟨m, hname, hend⟩ := Cursor.name_line hr
  rw [step_namespace hs hword, namespaceHead_of_name (s := s.moveTo s.cursor.next) hname hend,
    if_pos rfl, hfirst]
  exact congrArg (fun t : State => { t with fileScoped := true })
    (s.moveTo_enter _ (s.qualify name))

theorem run_imports {imports : List String}
    (h : ∀ name ∈ imports, (Text.splitAt '.' name).head? ≠ some "static") {s : State}
    (hs : s.AtMembers) (hscopes : s.scopes = []) {line : Nat} {rest : List Token}
    (hr : s.cursor.rest = Fragment.importTokens imports line ++ rest) :
    run s = run (s.extend
      ⟨(Fragment.importTokens imports line).reverse ++ s.cursor.before, rest⟩
      (s.visible ++ List.range' s.skeleton.usings.length imports.length)
      { usings := importDirectives imports line }) := by
  induction imports generalizing s line with
  | nil =>
      have hcursor : (⟨s.cursor.before, rest⟩ : Cursor) = s.cursor := by
        rw [show rest = s.cursor.rest from hr.symm]
      change run s = run (s.extend ⟨s.cursor.before, rest⟩ (s.visible ++ []) {})
      rw [hcursor, List.append_nil, State.extend_empty]
  | cons name imports ih =>
      have hname := h name List.mem_cons_self
      have hmore : ∀ other ∈ imports, (Text.splitAt '.' other).head? ≠ some "static" :=
        fun other ho => h other (List.mem_cons_of_mem _ ho)
      rw [Fragment.importTokens_cons, List.append_assoc] at hr
      rw [run_step, step_importLine hs hname hr, ih hmore (s := s.extend _ _ _) hs hscopes rfl,
        State.extend_extend, Fragment.importTokens_cons, List.reverse_append, importDirectives_cons,
        hscopes]
      have hcount : (s.skeleton ++ ({ usings := [⟨lineRef "using" line name, none⟩] } :
          Skeleton)).usings.length = s.skeleton.usings.length + 1 := List.length_append
      have hvisible : s.visible ++ List.range' s.skeleton.usings.length (imports.length + 1) =
          s.visible ++ [s.skeleton.usings.length] ++
            List.range' (s.skeleton.usings.length + 1) imports.length := by
        rw [List.range'_succ, List.append_cons]
      rw [List.append_assoc _ _ s.cursor.before, List.length_cons, hvisible, ← hcount]
      rfl

end Parser

namespace Fragment

def placement (imports : List String) (scope : Option String) : Placement where
  position := Position.down (headerLineCount imports scope)
  usings := importDirectives imports 0
  scope := scope

theorem length_importDirectives (imports : List String) (line : Nat) :
    (importDirectives imports line).length = imports.length := by
  rw [importDirectives, List.length_map, List.length_zipIdx]

def EndsLine (ts : List Token) : Prop := ts.reverse.head?.any Cursor.isModifier = false

theorem endsLine_append {ts us : List Token} (ht : EndsLine ts) (hu : EndsLine us) :
    EndsLine (ts ++ us) := by
  rw [EndsLine, List.reverse_append, List.head?_append]
  rw [EndsLine] at hu
  cases h : us.reverse.head? with
  | none => exact ht
  | some t => rwa [h] at hu

theorem endsLine_line (keyword : String) (line : Nat) (name : String) :
    EndsLine (lineTokens keyword line name) := by
  rw [EndsLine, lineTokens, ← List.cons_append, List.reverse_append]
  rfl

theorem endsLine_imports (imports : List String) (line : Nat) :
    EndsLine (importTokens imports line) := by
  induction imports generalizing line with
  | nil => rfl
  | cons name imports ih =>
      rw [importTokens_cons]
      exact endsLine_append (endsLine_line _ _ _) (ih (line + 1))

theorem endsLine_header (imports : List String) (scope : Option String) :
    EndsLine (headerTokens imports scope) := by
  refine endsLine_append (endsLine_imports imports 0) ?_
  cases scope with
  | none => rfl
  | some name => exact endsLine_line "namespace" _ name

def setting (imports : List String) (scope : Option String) : Setting :=
  { placement imports scope with
    token := Token.down (headerLineCount imports scope)
    token_kind := fun _ => rfl
    token_start := fun _ => rfl
    token_stop := fun _ => rfl
    before := (headerTokens imports scope).reverse
    before_isModifier := endsLine_header imports scope }

theorem visible_setting (imports : List String) (scope : Option String) :
    (setting imports scope).visible [] = List.range' 0 imports.length := by
  rw [Placement.visible, List.map_nil, List.append_nil, List.range_eq_range']
  exact congrArg (List.range' 0) (length_importDirectives imports 0)

theorem skeleton_setting (imports : List String) (scope : Option String) :
    (setting imports scope).skeleton {} =
      { usings := importDirectives imports 0, namespaces := scope.toList } := by
  rw [Placement.skeleton, List.map_nil, List.map_nil, List.map_nil, List.map_nil, List.append_nil,
    List.append_nil]
  rfl

theorem run_header {imports : List String}
    (h : ∀ name ∈ imports, (Text.splitAt '.' name).head? ≠ some "static") (scope : Option String)
    (ts : List Token) :
    Parser.run { cursor := ⟨[], headerTokens imports scope ++
      ts.map (Token.down (headerLineCount imports scope))⟩ } =
        Parser.run ((setting imports scope).state { cursor := ⟨[], ts⟩ }) := by
  have himports (rest : List Token) :
      Parser.run { cursor := ⟨[], importTokens imports 0 ++ rest⟩ } =
        Parser.run {
          cursor := ⟨(importTokens imports 0).reverse, rest⟩
          visible := List.range' 0 imports.length
          skeleton := { usings := importDirectives imports 0 } } := by
    rw [Parser.run_imports h (by rintro _ _ _ _ ⟨⟩) rfl rfl, List.append_nil]
    rfl
  rw [headerTokens, List.append_assoc, himports, Setting.state, visible_setting, skeleton_setting]
  cases scope with
  | none =>
      have hbefore : (headerTokens imports none).reverse = (importTokens imports 0).reverse := by
        rw [headerTokens, scopeTokens, Option.elim_none, List.append_nil]
      rw [← hbefore]
      rfl
  | some name =>
      have hbefore : (headerTokens imports (some name)).reverse =
          (scopeTokens (some name) (headerLineCount imports none)).reverse ++
            (importTokens imports 0).reverse := by
        rw [headerTokens, List.reverse_append]
      have hrecord : ({ usings := importDirectives imports 0 } : Skeleton) ++
          { namespaces := [name] } =
            { usings := importDirectives imports 0, namespaces := (some name).toList } := by
        rw [Skeleton.append_def, List.append_nil]
        rfl
      rw [Parser.run_step, Parser.step_scopeLine (by rintro _ _ _ _ ⟨⟩) rfl rfl, ← hrecord,
        Setting.cursor, show (setting imports (some name)).before = _ from hbefore]
      rfl

def isFileScoped (f : Fragment) : Bool :=
  (Parser.run { cursor := ⟨[], tokens f.code⟩ }).fileScoped

end Fragment

/-- The header only moves what the reader records of a fragment, well formed or not. -/
theorem Skeleton.ofText_decorate {imports : List String} {scope : Option String}
    (himports : ∀ name ∈ imports,
      IsDotted name ∧ (Text.splitAt '.' name).head? ≠ some "static")
    (hscope : ∀ name ∈ scope, IsDotted name) {f : Fragment}
    (hfile : scope.isSome = true → f.isFileScoped = false) :
    Skeleton.ofText (f.decorate imports scope) =
      (Fragment.placement imports scope).skeleton (Skeleton.ofText f.code) := by
  have hdotted : ∀ name ∈ imports, IsDotted name := fun name hname => (himports name hname).1
  have hstart : ∀ name ∈ imports, (Text.splitAt '.' name).head? ≠ some "static" :=
    fun name hname => (himports name hname).2
  have hrun := (Fragment.setting imports scope).run_state (Parser.nested_start (tokens f.code)) hfile
  rw [ofText, ofTokens, Fragment.tokens_decorate hdotted hscope, Fragment.run_header hstart, hrun]
  rfl

/-- An open type, of which the end of the text is recorded too. -/
theorem Skeleton.ofText_decorate_open :
    let f : Fragment := ⟨none, "class C : D \x7b"⟩
    (∀ name ∈ ["A.B"], IsDotted name ∧ (Text.splitAt '.' name).head? ≠ some "static") ∧
    (∀ name ∈ some "N", IsDotted name) ∧ f.isFileScoped = false ∧
    Skeleton.ofText (f.decorate ["A.B"] (some "N")) =
      { usings := [⟨⟨"A.B", .onLine 0 6 3, false⟩, none⟩]
        types := [⟨⟨"C", .onLine 4 6 1, false⟩, some "N", none, false,
          [⟨"D", .onLine 4 10 1, false⟩], [0]⟩]
        namespaces := ["N"]
        errors := [⟨.closingBraceExpected, .onLine 4 13 0⟩] } := by
  intro f
  have himports : ∀ name ∈ ["A.B"],
      IsDotted name ∧ (Text.splitAt '.' name).head? ≠ some "static" := by decide +kernel
  have hscope : ∀ name ∈ some "N", IsDotted name := by decide +kernel
  have hrun : Parser.run { cursor := ⟨[], tokens f.code⟩ } =
      Parser.step (Parser.step { cursor := ⟨[], tokens f.code⟩ }) := by
    rw [Parser.run, dif_neg (by decide +kernel), Parser.run, dif_neg (by decide +kernel),
      Parser.run, dif_pos (by decide +kernel)]
  have hfile : f.isFileScoped = false := by
    rw [Fragment.isFileScoped, hrun]
    decide +kernel
  refine ⟨himports, hscope, hfile, ?_⟩
  rw [ofText_decorate himports hscope fun _ => hfile, ofText, ofTokens, hrun]
  decide +kernel

end GeneratorBench
