import GeneratorBench.Proofs.Syntax.Spelling
import GeneratorBench.Source.Fragment
import GeneratorBench.Text.Fields

/-!
The tokens of a decorated fragment: those of its header, at places that the header alone decides,
and those of the fragment, as many lines further down as the header has.
-/

namespace GeneratorBench

open Grammar (isPlain)

namespace Position

def down (n : Nat) (p : Position) : Position := ⟨p.line + n, p.column⟩

def right (p : Position) (n : Nat) : Position := ⟨p.line, p.column + n⟩

theorem right_right (p : Position) (m n : Nat) : (p.right m).right n = p.right (m + n) := by
  rw [right, right, right, Nat.add_assoc]

theorem after_down (n : Nat) (p : Position) (c : Char) : (p.down n).after c = (p.after c).down n := by
  unfold after
  split
  · rw [down, down, Nat.add_right_comm]
  · rfl

theorem advance_down (n : Nat) (p : Position) (cs : List Char) :
    (p.down n).advance cs = (p.advance cs).down n := by
  induction cs generalizing p with
  | nil => rfl
  | cons c cs ih => rw [advance_cons, advance_cons, after_down, ih]

theorem after_of_ne {c : Char} (h : c ≠ '\n') (p : Position) : p.after c = p.right 1 := if_neg h

theorem advance_of_not_mem {cs : List Char} (h : '\n' ∉ cs) (p : Position) :
    p.advance cs = p.right cs.length := by
  induction cs generalizing p with
  | nil => rfl
  | cons c cs ih =>
      rw [List.mem_cons, not_or] at h
      rw [advance_cons, after_of_ne (Ne.symm h.1), ih h.2, right_right, List.length_cons,
        Nat.add_comm]

end Position

namespace Token

def down (n : Nat) (t : Token) : Token := { t with start := t.start.down n }

theorem tokensFrom_down (n : Nat) (p : Position) (cs : List Char) :
    tokensFrom (p.down n) cs = (tokensFrom p cs).map (down n) := by
  induction p, cs using tokensFrom.induct with
  | case1 p cs h => rw [tokensFrom_nil_of_splitGap h, tokensFrom_nil_of_splitGap h, List.map_nil]
  | case2 p cs c rest h start body ih =>
      rw [tokensFrom_cons_of_splitGap h, tokensFrom_cons_of_splitGap h, List.map_cons, ← ih,
        Position.advance_down, Position.advance_down]
      rfl

def nameTokens (p : Position) : List String → List Token
  | [] => []
  | [w] => [⟨.word w, p, w.length⟩]
  | w :: v :: ws =>
    ⟨.word w, p, w.length⟩ :: ⟨.mark '.', p.right w.length, 1⟩ ::
      nameTokens (p.right (w.length + 1)) (v :: ws)

theorem newline_not_mem_of_isPlain {w : String} (h : isPlain w = true) : '\n' ∉ w.toList := by
  rw [isPlain] at h
  cases hw : w.toList with
  | nil => exact List.not_mem_nil
  | cons c cs =>
      simp only [hw, Bool.and_eq_true, Bool.or_eq_true, beq_iff_eq] at h
      rw [List.mem_cons, not_or]
      refine ⟨?_, fun hmem => ?_⟩
      · rintro rfl
        exact absurd h.1 (by decide)
      · exact absurd (List.all_eq_true.1 h.2 _ hmem) (by decide)

theorem advance_word {w : String} (h : isPlain w = true) (p : Position) :
    p.advance w.toList = p.right w.length := by
  rw [Position.advance_of_not_mem (newline_not_mem_of_isPlain h), String.length_toList]

theorem length_dots (w v : String) (ws : List String) :
    (".".intercalate (w :: v :: ws)).length = w.length + 1 + (".".intercalate (v :: ws)).length := by
  rw [String.intercalate_cons_cons, String.length_append, String.length_append]
  rfl

theorem tokensFrom_words {w : String} {ws : List String} (plain : ∀ v ∈ w :: ws, isPlain v = true)
    {cs : List Char} (ends : cs.head?.any Text.isWordChar = false) (p : Position) :
    tokensFrom p ((".".intercalate (w :: ws)).toList ++ cs) =
      nameTokens p (w :: ws) ++ tokensFrom (p.right (".".intercalate (w :: ws)).length) cs := by
  have hw := plain w List.mem_cons_self
  induction ws generalizing w p with
  | nil =>
      rw [String.intercalate_singleton, tokensFrom_word hw ends, advance_word hw]
      rfl
  | cons v ws ih =>
      have hmore : ∀ u ∈ v :: ws, isPlain u = true := fun u hu => plain u (List.mem_cons_of_mem _ hu)
      have htext : (".".intercalate (w :: v :: ws)).toList ++ cs =
          w.toList ++ '.' :: ((".".intercalate (v :: ws)).toList ++ cs) := by
        rw [String.intercalate_cons_cons, String.toList_append, String.toList_append]
        simp
      have hdot : ('.' :: ((".".intercalate (v :: ws)).toList ++ cs)).head?.any Text.isWordChar =
          false := by
        rw [List.head?_cons]
        decide
      rw [htext, tokensFrom_word hw hdot, advance_word hw, tokensFrom_mark (by decide),
        Position.after_of_ne (by decide), Position.right_right,
        ih hmore _ (hmore v List.mem_cons_self), Position.right_right, ← length_dots]
      rfl

end Token

def IsDotted (name : String) : Prop := ∀ w ∈ Text.splitAt '.' name, isPlain w = true

instance (name : String) : Decidable (IsDotted name) :=
  inferInstanceAs (Decidable (∀ w ∈ Text.splitAt '.' name, isPlain w = true))

namespace Token

theorem tokensFrom_name {name : String} (h : IsDotted name) {cs : List Char}
    (ends : cs.head?.any Text.isWordChar = false) (p : Position) :
    tokensFrom p (name.toList ++ cs) =
      nameTokens p (Text.splitAt '.' name) ++ tokensFrom (p.right name.length) cs := by
  obtain ⟨w, ws, hwords⟩ := List.exists_cons_of_ne_nil (Text.splitAt_ne_nil '.' name)
  have hname : ".".intercalate (w :: ws) = name := by
    rw [← hwords]
    exact Text.intercalate_splitAt '.' name
  rw [IsDotted, hwords] at h
  have hread := tokensFrom_words h ends p
  rwa [hname, ← hwords] at hread

def lineTokens (keyword : String) (line : Nat) (name : String) : List Token :=
  let start : Position := ⟨line, keyword.length + 1⟩
  ⟨.word keyword, ⟨line, 0⟩, keyword.length⟩ ::
    (nameTokens start (Text.splitAt '.' name) ++ [⟨.mark ';', start.right name.length, 1⟩])

theorem tokensFrom_line {keyword : String} (hk : isPlain keyword = true) {name : String}
    (h : IsDotted name) (line : Nat) (cs : List Char) :
    tokensFrom ⟨line, 0⟩ ((keyword ++ " " ++ name ++ ";\n").toList ++ cs) =
      lineTokens keyword line name ++ tokensFrom ⟨line + 1, 0⟩ cs := by
  have htext : (keyword ++ " " ++ name ++ ";\n").toList ++ cs =
      keyword.toList ++ (' ' :: (name.toList ++ (';' :: '\n' :: cs))) := by
    simp
  have hspace : (' ' :: (name.toList ++ (';' :: '\n' :: cs))).head?.any Text.isWordChar =
      false := by
    rw [List.head?_cons]
    decide
  have hsemicolon : (';' :: '\n' :: cs).head?.any Text.isWordChar = false := by
    rw [List.head?_cons]
    decide
  have hstart : ((⟨line, 0⟩ : Position).right keyword.length).after ' ' =
      ⟨line, keyword.length + 1⟩ := by
    rw [Position.right, Nat.zero_add]
    rfl
  rw [htext, tokensFrom_word hk hspace, advance_word hk, tokensFrom_blank (by decide), hstart,
    tokensFrom_name h hsemicolon, tokensFrom_mark (by decide), tokensFrom_blank (by decide),
    lineTokens, List.cons_append, List.append_assoc]
  rfl

end Token

namespace Fragment

open Token (lineTokens tokensFrom)

def importTokens (imports : List String) (line : Nat) : List Token :=
  (imports.zipIdx line).flatMap fun (name, line) => lineTokens "using" line name

theorem importTokens_cons (name : String) (imports : List String) (line : Nat) :
    importTokens (name :: imports) line =
      lineTokens "using" line name ++ importTokens imports (line + 1) := by
  rw [importTokens, List.zipIdx_cons, List.flatMap_cons]
  rfl

def scopeTokens (scope : Option String) (line : Nat) : List Token :=
  scope.elim [] (lineTokens "namespace" line)

def headerTokens (imports : List String) (scope : Option String) : List Token :=
  importTokens imports 0 ++ scopeTokens scope (headerLineCount imports none)

theorem tokensFrom_imports {imports : List String} (h : ∀ name ∈ imports, IsDotted name) (line : Nat)
    (cs : List Char) :
    tokensFrom ⟨line, 0⟩ ((String.join (imports.map importLine)).toList ++ cs) =
      importTokens imports line ++ tokensFrom ⟨line + imports.length, 0⟩ cs := by
  induction imports generalizing line with
  | nil => rfl
  | cons name imports ih =>
      have hname := h name List.mem_cons_self
      have hmore : ∀ other ∈ imports, IsDotted other := fun other ho =>
        h other (List.mem_cons_of_mem _ ho)
      have hline : importLine name = "using" ++ " " ++ name ++ ";\n" := rfl
      rw [List.map_cons, String.join_cons, String.toList_append, List.append_assoc, hline,
        Token.tokensFrom_line (by decide) hname, ih hmore, importTokens_cons, List.append_assoc,
        List.length_cons, Nat.add_assoc, Nat.add_comm 1]

theorem tokensFrom_header_none {imports : List String} (h : ∀ name ∈ imports, IsDotted name)
    (cs : List Char) :
    tokensFrom .origin ((header imports none).toList ++ cs) =
      importTokens imports 0 ++ tokensFrom ⟨headerLineCount imports none, 0⟩ cs := by
  cases imports with
  | nil => rfl
  | cons name imports =>
      have htext : (header (name :: imports) none).toList ++ cs =
          (String.join ((name :: imports).map importLine)).toList ++ ('\n' :: cs) := by
        simp [header]
      rw [htext, Position.origin, tokensFrom_imports h, Token.tokensFrom_blank (by decide),
        Nat.zero_add]
      rfl

theorem tokensFrom_header {imports : List String} {scope : Option String}
    (himports : ∀ name ∈ imports, IsDotted name) (hscope : ∀ name ∈ scope, IsDotted name)
    (cs : List Char) :
    tokensFrom .origin ((header imports scope).toList ++ cs) =
      headerTokens imports scope ++ tokensFrom ⟨headerLineCount imports scope, 0⟩ cs := by
  cases scope with
  | none =>
      rw [tokensFrom_header_none himports, headerTokens, scopeTokens, Option.elim_none,
        List.append_nil]
  | some name =>
      have htext : (header imports (some name)).toList ++ cs =
          (header imports none).toList ++
            (("namespace" ++ " " ++ name ++ ";\n").toList ++ ('\n' :: cs)) := by
        simp [header]
      rw [htext, tokensFrom_header_none himports, Token.tokensFrom_line (by decide) (hscope name rfl),
        Token.tokensFrom_blank (by decide), headerTokens, List.append_assoc]
      rfl

theorem tokens_decorate {imports : List String} {scope : Option String}
    (himports : ∀ name ∈ imports, IsDotted name) (hscope : ∀ name ∈ scope, IsDotted name)
    (f : Fragment) :
    tokens (f.decorate imports scope) = headerTokens imports scope ++
      (tokens f.code).map (Token.down (headerLineCount imports scope)) := by
  rw [tokens, decorate, String.toList_append, tokensFrom_header himports hscope, tokens,
    ← Token.tokensFrom_down, Position.origin, Position.down, Nat.zero_add]

end Fragment

end GeneratorBench
