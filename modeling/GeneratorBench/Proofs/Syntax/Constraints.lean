import GeneratorBench.Proofs.Syntax.Continuation
import GeneratorBench.Proofs.Syntax.Recovery

/-!
A method with constraints on its type parameters, in the body of a type. The type keyword that ends a constraint is
taken for the start of a nested type as soon as a word stands behind it, and this is so wherever another constraint
follows: its `where` becomes the name of a type that nobody declared.
-/

namespace GeneratorBench

open Grammar

namespace Grammar

structure Constraint where
  param : Identifier
  isStruct : Bool

def Constraint.keyword (k : Constraint) : String := if k.isStruct then "struct" else "class"

theorem Constraint.keyword_mem (k : Constraint) : k.keyword ∈ Cursor.typeKeywords ∧ k.keyword ≠ "record" := by
  rw [keyword]
  cases k.isStruct with
  | true => decide
  | false => decide

def Constraint.condition (k : Constraint) : List Token.Kind :=
  [.word k.param.text, .mark ':', .word k.keyword]

def Constraint.kinds (k : Constraint) : List Token.Kind := .word "where" :: k.condition

def paramKinds (first : Identifier) (more : List Identifier) : List Token.Kind :=
  .word first.text :: more.flatMap fun p => [.mark ',', .word p.text]

/-- The tokens of a method less its constraints and its body. -/
def signatureKinds (method : Identifier) (first : Constraint) (more : List Constraint) : List Token.Kind :=
  [.word "void", .word method.text, .mark '<'] ++ paramKinds first.param (more.map (·.param)) ++
    [.mark '>', .mark '(', .mark ')']

/-- The tokens of `void M<T1, …, Tn>() where T1 : class … where Tn : class { }`. -/
def methodKinds (method : Identifier) (first : Constraint) (more : List Constraint) : List Token.Kind :=
  signatureKinds method first more ++
    (first.kinds ++ (more.flatMap Constraint.kinds ++ [.mark '\x7b', .mark '\x7d']))

def constrainedKinds (type method : Identifier) (first : Constraint) (more : List Constraint) :
    List Token.Kind :=
  [.word "class", .word type.text, .mark '\x7b'] ++ (methodKinds method first more ++ [.mark '\x7d'])

/-- The type that is recorded of a `where` which is the `i`-th token of the text. -/
def strayType (span : Nat → Nat → Span) (type : String) (scope : Option String) (visible : List Nat)
    (i : Nat) : TypeDecl where
  name := ⟨"where", span i (i + 1), false⟩
  scope := scope
  container := some type
  isPartial := false
  bases := []
  usings := visible

def strayError (span : Nat → Nat → Span) (i : Nat) : SyntaxError where
  cause := .openingBraceExpected
  span := .point (span i (i + 1)).stop

/-- What is recorded of `n` constraints behind the first one, the `where` of the next being the `i`-th token. -/
def strays (span : Nat → Nat → Span) (type : String) (scope : Option String) (visible : List Nat)
    (i n : Nat) : Skeleton where
  types := (List.range n).map fun k => strayType span type scope visible (i + 4 * k)
  errors := (List.range n).map fun k => strayError span (i + 4 * k)

theorem strays_succ (span : Nat → Nat → Span) (type : String) (scope : Option String) (visible : List Nat)
    (i n : Nat) :
    strays span type scope visible i (n + 1) =
      { types := [strayType span type scope visible i], errors := [strayError span i] } ++
        strays span type scope visible (i + 4) n := by
  have later (k : Nat) : i + 4 * (k + 1) = i + 4 + 4 * k := by omega
  simp only [strays, List.range_succ_eq_map, List.map_cons, List.map_map, Function.comp_def, later,
    Nat.mul_zero, Nat.add_zero]
  rfl

end Grammar

namespace Parser

def isPassed : Token.Kind → Bool
  | .word w => w != "static" && !Cursor.typeKeywords.contains w
  | .mark m => m != '\x7b' && m != '\x7d'
  | .literal => true

section

variable {s : State} {type : String} {depth : Nat} {outer : List Frame} {c d : Cursor}

theorem step_passed {k : Token.Kind} {ks : List Token.Kind} (hk : isPassed k = true) (h : c.Reads (k :: ks) d) :
    step (s.inBody c type depth false outer) = s.inBody c.next type depth false outer := by
  obtain ⟨t, rest, hrest, hkind, -⟩ := Cursor.reads_cons.1 h
  rw [step_inBody hrest]
  cases k with
  | literal => exact bodyStep_literal hkind
  | word w =>
      simp only [isPassed, Bool.and_eq_true, bne_iff_ne, Bool.not_eq_true', List.contains_eq_mem,
        decide_eq_false_iff_not] at hk
      rw [bodyStep_word hkind hk.2, if_neg hk.1, if_neg (fun hmain => Bool.false_ne_true hmain.2.1)]
      rfl
  | mark m =>
      simp only [isPassed, Bool.and_eq_true, bne_iff_ne] at hk
      rw [bodyStep_mark hkind, if_neg hk.1, if_neg hk.2]
      split
      · rfl
      · rfl

theorem run_passed {ks : List Token.Kind} (hks : ks.all isPassed = true) (h : c.Reads ks d) :
    run (s.inBody c type depth false outer) = run (s.inBody d type depth false outer) := by
  induction ks generalizing c with
  | nil => rw [Cursor.reads_nil.1 h]
  | cons k ks ih =>
      rw [List.all_cons, Bool.and_eq_true] at hks
      rw [run_step, step_passed hks.1 h, ih hks.2 h.next]

/-- Where a word stands behind the name of a type, its declaration ends without a body. -/
theorem typeTail_of_word {w : String} {ks : List Token.Kind} (h : s.cursor.Reads (.word w :: ks) d)
    (hw : w ≠ "where") (container : Option String) (isPartial : Bool) (name : NameRef) :
    typeTail container isPartial name s =
      (s.addType ⟨name, s.scopes.head?, container, isPartial, [], s.visible⟩).report .openingBraceExpected
        s.cursor.here := by
  obtain ⟨t, rest, hrest, hkind, -⟩ := Cursor.reads_cons.1 h
  have noMark (m : Char) : s.cursor.atMark m = false := by
    rw [Cursor.atMark_eq hrest, Token.isMark_of_word hkind]
  have noWhere : s.cursor.atWord "where" = false := by
    rw [h.atWord]
    exact beq_eq_false_iff_ne.2 hw
  have start : s.moveTo ((s.cursor.skipGroup '<' '>').skipGroup '(' ')') = s := by
    rw [Cursor.skipGroup_of_not_atMark (noMark '<'), Cursor.skipGroup_of_not_atMark (noMark '(')]
    rfl
  have hbases : baseList s = ([], s) := by rw [baseList, noMark]; rfl
  have hconstraints : skipConstraints s = s := by rw [skipConstraints, noWhere]; rfl
  rw [typeTail, start, hbases]
  dsimp only
  rw [hconstraints, typeBody]
  have hcursor (decl : TypeDecl) : (s.addType decl).cursor = s.cursor := rfl
  rw [hcursor, noMark, noMark]
  rfl

/-- The keyword of a constraint and the `where` of the next one are read as a type of that name. -/
theorem step_stray {k : Constraint} {w : String} {ks : List Token.Kind} (hw : w ≠ "where")
    (hc : c.before.head?.any Cursor.isModifier = false)
    (h : c.Reads (.word k.keyword :: .word "where" :: .word w :: ks) d) :
    step (s.inBody c type 1 false outer) =
      (s.extend c.next.next s.visible {
        types := [strayType (spanIn c.tokens) type s.scopes.head? s.visible (c.index + 1)]
        errors := [strayError (spanIn c.tokens) (c.index + 1)] }).inBody c.next.next type 1 false outer := by
  obtain ⟨hkeyword, hrecord⟩ := k.keyword_mem
  obtain ⟨t, rest, hrest, hkind, htail⟩ := Cursor.reads_cons.1 h
  obtain ⟨u, rest, rfl, hname, hbehind⟩ := Cursor.reads_cons.1 htail
  have hspan : u.span = spanIn c.tokens (c.index + 1) (c.index + 1 + 1) := by
    have hone : (⟨t :: c.before, u :: rest⟩ : Cursor).Reads [.word "where"] ⟨u :: t :: c.before, rest⟩ :=
      Cursor.reads_cons.2 ⟨u, rest, rfl, hname, Cursor.reads_nil.2 rfl⟩
    have hstart : (⟨t :: c.before, u :: rest⟩ : Cursor) = c.next := (Cursor.next_eq hrest).symm
    rw [← h.next_tokens, ← h.next_index, ← hstart]
    exact (hone.spanIn_eq rfl).symm
  have hnext : c.next.next = ⟨u :: t :: c.before, rest⟩ := by
    rw [Cursor.next_eq hrest, Cursor.next_eq rfl]
  have hbody : step (s.inBody c type 1 false outer) = typeFrom (some type)
      ⟨false, t, ⟨t :: c.before, u :: rest⟩⟩ (s.inBody c type 1 false outer) := by
    rw [step_inBody hrest, bodyStep_typeKeyword (s := s.inBody c type 1 false outer) hkind hkeyword hrest
      (by simp [Token.word?_of_word hname])]
    have hbefore : (s.inBody c type 1 false outer).cursor.before = c.before := rfl
    rw [hbefore, takeWhile_isModifier_eq_nil hc]
    rfl
  have htype := typeTail_of_word (s := s.inBody ⟨u :: t :: c.before, rest⟩ type 1 false outer) hbehind hw
    (some type) false ⟨"where", u.span, false⟩
  have hhead : typeFrom (some type) ⟨false, t, ⟨t :: c.before, u :: rest⟩⟩ (s.inBody c type 1 false outer) =
      typeTail (some type) false ⟨"where", u.span, false⟩
        (s.inBody ⟨u :: t :: c.before, rest⟩ type 1 false outer) := by
    simp only [typeFrom, Token.isWord_of_word hkind, beq_eq_false_iff_ne.2 hrecord, Bool.false_and,
      Bool.false_eq_true, if_false, typeHead, State.moveTo, Token.word?_of_word hname]
    rfl
  rw [hbody, hhead, htype, hnext, strayType, strayError, ← hspan]
  simp only [State.addType, State.report, State.inBody, State.extend, Skeleton.append_def, Cursor.here, Token.stop,
    List.append_nil, Bool.or_false]

theorem step_lastKeyword {k : Constraint} {m : Char} {ks : List Token.Kind}
    (h : c.Reads (.word k.keyword :: .mark m :: ks) d) :
    step (s.inBody c type 1 false outer) = s.inBody c.next type 1 false outer := by
  obtain ⟨t, rest, hrest, hkind, htail⟩ := Cursor.reads_cons.1 h
  obtain ⟨u, rest, rfl, hmark, -⟩ := Cursor.reads_cons.1 htail
  have hnext : (s.inBody c type 1 false outer).cursor.next = ⟨t :: c.before, u :: rest⟩ := Cursor.next_eq hrest
  rw [step_inBody hrest, bodyStep_keyword hkind k.keyword_mem.1 (by simp [hnext, Token.word?_of_mark hmark])]
  rfl

theorem isPassed_param (p : Identifier) : isPassed (.word p.text) = true := by
  have free (w : String) (hw : w ∈ reserved) : p.text ≠ w := fun heq => p.free (heq ▸ hw)
  have notKeyword : p.text ∉ Cursor.typeKeywords := fun hmem => p.free (List.mem_append_right _ hmem)
  simp [isPassed, free "static" (by decide), notKeyword]

theorem run_param {k : Constraint} {ks : List Token.Kind} (type : String) (outer : List Frame)
    (h : c.Reads (k.condition ++ ks) d) :
    ∃ m, m.Reads (.word k.keyword :: ks) d ∧ m.tokens = c.tokens ∧ m.index = c.index + 2 ∧
      m.before.head?.any Cursor.isModifier = false ∧
      ∀ s : State, run (s.inBody c type 1 false outer) = run (s.inBody m type 1 false outer) := by
  have hsplit : c.Reads ([.word k.param.text, .mark ':'] ++ .word k.keyword :: ks) d := h
  obtain ⟨m, hm, hkeyword⟩ := Cursor.reads_append.1 hsplit
  have hcolon : c.Reads ([.word k.param.text] ++ [.mark ':']) m := hm
  have hpassed : [Token.Kind.word k.param.text, .mark ':'].all isPassed = true := by
    rw [List.all_cons, isPassed_param]
    decide
  exact ⟨m, hkeyword, hm.tokens_eq, hm.index_eq, before_head_of_mark hcolon, fun s => run_passed hpassed hm⟩

/-- From behind the `where` of a constraint to behind the opening brace of the method. -/
theorem run_conditions {first : Constraint} {more : List Constraint}
    (h : c.Reads (first.condition ++ (more.flatMap Constraint.kinds ++ [.mark '\x7b'])) d) :
    run (s.inBody c type 1 false outer) =
      run ((s.extend d s.visible
        (strays (spanIn c.tokens) type s.scopes.head? s.visible (c.index + 3) more.length)).inBody d type 2 false
          outer) := by
  induction more generalizing first s c with
  | nil =>
      obtain ⟨m, hkeyword, -, -, -, hrun⟩ := run_param type outer h
      have hbrace := hkeyword.next
      have hnone : s.extend d s.visible {} = s.moveTo d := by
        rw [State.extend, Skeleton.append_empty]
        rfl
      rw [hrun, run_step, step_lastKeyword hkeyword, run_inBody_mark hbrace, if_pos rfl, hbrace.next_eq]
      have hsame := congrArg (fun u : State => run (u.inBody d type 2 false outer)) hnone.symm
      exact hsame
  | cons k more ih =>
      obtain ⟨m, hkeyword, htokens, hindex, hbefore, hrun⟩ := run_param type outer h
      have hparam : k.param.text ≠ "where" := fun heq => k.param.free (heq ▸ by decide)
      rw [List.flatMap_cons, List.append_assoc] at hkeyword
      have hmore : m.next.next.Reads (k.condition ++ (more.flatMap Constraint.kinds ++ [.mark '\x7b'])) d :=
        hkeyword.next.next
      have hplace : m.next.next.index = c.index + 4 ∧ m.next.next.tokens = c.tokens := by
        rw [hkeyword.next.next_index, hkeyword.next_index, hindex, hkeyword.next.next_tokens, hkeyword.next_tokens,
          htokens]
        exact ⟨rfl, rfl⟩
      rw [hrun, run_step, step_stray hparam hbefore hkeyword, ih hmore, hplace.1, hplace.2, htokens, hindex,
        State.extend_extend, List.length_cons, strays_succ]
      rfl

theorem signatureKinds_passed (method : Identifier) (first : Constraint) (more : List Constraint) :
    (signatureKinds method first more).all isPassed = true := by
  have hparams (ps : List Identifier) :
      (ps.flatMap fun p => [Token.Kind.mark ',', .word p.text]).all isPassed = true := by
    induction ps with
    | nil => rfl
    | cons p ps ih =>
        rw [List.flatMap_cons, List.all_append, ih, List.all_cons, List.all_cons, isPassed_param]
        decide
  simp only [signatureKinds, paramKinds, List.all_append, List.all_cons, List.all_nil, hparams, isPassed_param]
  decide

theorem length_signatureKinds (method : Identifier) (first : Constraint) (more : List Constraint) :
    (signatureKinds method first more).length = 7 + 2 * more.length := by
  have hparams (ps : List Identifier) :
      (ps.flatMap fun p => [Token.Kind.mark ',', .word p.text]).length = 2 * ps.length := by
    induction ps with
    | nil => rfl
    | cons p ps ih =>
        rw [List.flatMap_cons, List.length_append, ih, List.length_cons, List.length_cons, List.length_cons,
          List.length_nil]
        omega
  simp only [signatureKinds, paramKinds, List.length_append, List.length_cons, List.length_nil, hparams,
    List.length_map]
  omega

theorem run_method {method : Identifier} {first : Constraint} {more : List Constraint}
    (h : c.Reads (methodKinds method first more) d) :
    run (s.inBody c type 1 false outer) =
      run ((s.extend d s.visible (strays (spanIn c.tokens) type s.scopes.head? s.visible
        (c.index + 11 + 2 * more.length) more.length)).inBody d type 1 false outer) := by
  have hsplit : c.Reads ((signatureKinds method first more ++ [.word "where"]) ++
      ((first.condition ++ (more.flatMap Constraint.kinds ++ [.mark '\x7b'])) ++ [.mark '\x7d'])) d := by
    simpa [methodKinds, Constraint.kinds] using h
  obtain ⟨m, hsignature, hrest⟩ := Cursor.reads_append.1 hsplit
  obtain ⟨n, hconditions, hclose⟩ := Cursor.reads_append.1 hrest
  have hpassed : (signatureKinds method first more ++ [Token.Kind.word "where"]).all isPassed = true := by
    rw [List.all_append, signatureKinds_passed]
    decide
  have hindex : m.index + 3 = c.index + 11 + 2 * more.length := by
    rw [hsignature.index_eq, List.length_append, length_signatureKinds, List.length_singleton]
    omega
  rw [run_passed hpassed hsignature, run_conditions hconditions, run_inBody_mark hclose, if_neg (by decide),
    if_pos rfl, if_neg (by decide), hindex, hsignature.tokens_eq, hclose.next_eq]
  rfl

end

end Parser

theorem Skeleton.ofTokens_constraints {type method : Identifier} {first : Constraint} {more : List Constraint}
    {ts : List Token} (h : ts.map Token.kind = constrainedKinds type method first more) :
    Skeleton.ofTokens ts =
      { types := [⟨⟨type.text, spanIn ts 1 2, false⟩, none, none, false, [], []⟩] } ++
        strays (spanIn ts) type.text none [] (14 + 2 * more.length) more.length := by
  let head : TypeHead := ⟨[], ["class"], type, [], List.forall_mem_nil _, by decide⟩
  let s : Parser.State := { cursor := ⟨[], ts⟩ }
  have hread : s.cursor.Reads ((head.kinds ++ [.mark '\x7b']) ++
      (methodKinds method first more ++ [.mark '\x7d'])) ⟨ts.reverse, []⟩ :=
    ⟨ts, h, by simp [s], by simp [s]⟩
  obtain ⟨c, hhead, hread⟩ := Cursor.reads_append.1 hread
  obtain ⟨d, hmethod, hclose⟩ := Cursor.reads_append.1 hread
  let t := s.extend c s.visible (head.outline (spanIn ts) none s.surroundings)
  have hopen : Parser.run s = Parser.run (t.inBody c type.text 1 false []) :=
    Parser.run_typeHead (by rintro _ _ _ _ hf; cases hf) hhead (.inr rfl)
  have hindex : c.index + 11 + 2 * more.length = 14 + 2 * more.length := by
    have hc : c.index = 3 := hhead.index_eq
    rw [hc]
  have htokens : c.tokens = ts := hhead.tokens_eq
  let u := t.extend d t.visible (strays (spanIn ts) type.text none [] (14 + 2 * more.length) more.length)
  have hend : Parser.run (u.intoBody type.text) = Parser.run (u.extend ⟨ts.reverse, []⟩ u.visible {}) :=
    Parser.run_bodyEnd hclose
  rw [Skeleton.ofTokens, hopen, Parser.run_method hmethod, hindex, htokens]
  refine (congrArg Parser.State.skeleton (hend.trans (Parser.run_done rfl rfl))).trans ?_
  simp only [Parser.State.extend, Skeleton.append_empty]
  rfl

/-! ### Texts -/

namespace Token

theorem spells_word {w : String} {ks : List Kind} {cs : List Char} (plain : isPlain w = true)
    (ends : cs.head?.any Text.isWordChar = false) (h : Spells ks cs) : Spells (.word w :: ks) (w.toList ++ cs) :=
  .word (List.forall_mem_nil _) plain ends h

theorem spells_wordThen {w : String} {m : Char} {ks : List Kind} {cs : List Char} (plain : isPlain w = true)
    (hm : Text.isWordChar m = false) (h : Spells ks (m :: cs)) : Spells (.word w :: ks) (w.toList ++ m :: cs) :=
  spells_word plain hm h

theorem spells_mark {m : Char} {ks : List Kind} {cs : List Char} (plain : isPlainMark m = true)
    (h : Spells ks cs) : Spells (.mark m :: ks) (m :: cs) :=
  .mark (List.forall_mem_nil _) plain h

end Token

namespace Grammar

def Constraint.spelling (k : Constraint) : List Char :=
  ' ' :: ("where".toList ++ ' ' :: (k.param.text.toList ++ ' ' :: ':' :: ' ' :: k.keyword.toList))

def paramSpelling (first : Identifier) (more : List Constraint) : List Char :=
  first.text.toList ++ more.flatMap fun k => ',' :: k.param.text.toList

def methodSpelling (method : Identifier) (first : Constraint) (more : List Constraint) : List Char :=
  "void".toList ++ ' ' :: (method.text.toList ++ '<' :: (paramSpelling first.param more ++ ['>', '(', ')'] ++
    (first.spelling ++ (more.flatMap Constraint.spelling ++ [' ', '\x7b', ' ', '\x7d']))))

def constrainedSpelling (type method : Identifier) (first : Constraint) (more : List Constraint) : List Char :=
  "class".toList ++ ' ' :: (type.text.toList ++ ' ' :: '\x7b' :: ' ' ::
    (methodSpelling method first more ++ [' ', '\x7d']))

open Token

variable {type method : Identifier} {first : Constraint} {more : List Constraint} {ks : List Token.Kind}
  {cs : List Char}

theorem Constraint.spells (k : Constraint) (hks : Spells ks cs) (hcs : cs.head?.any Text.isWordChar = false) :
    Spells (k.kinds ++ ks) (k.spelling ++ cs) := by
  have hplain : isPlain k.keyword = true := by
    rw [keyword]
    cases k.isStruct with
    | true => decide
    | false => decide
  have hkeyword := spells_space (spells_word hplain hcs hks)
  have hparam := spells_space (spells_wordThen k.param.plain (by decide)
    (spells_space (spells_mark (m := ':') (by decide) hkeyword)))
  have hwhere := spells_space (spells_wordThen (w := "where") (by decide) (by decide) hparam)
  simpa [kinds, condition, spelling] using hwhere

theorem spells_constraints (more : List Constraint) (hks : Spells ks cs)
    (hcs : cs.head?.any Text.isWordChar = false) :
    Spells (more.flatMap Constraint.kinds ++ ks) (more.flatMap Constraint.spelling ++ cs) ∧
      (more.flatMap Constraint.spelling ++ cs).head?.any Text.isWordChar = false := by
  have hspace : Text.isWordChar ' ' = false := by decide
  induction more with
  | nil => exact ⟨hks, hcs⟩
  | cons k more ih =>
      rw [List.flatMap_cons, List.flatMap_cons, List.append_assoc, List.append_assoc]
      exact ⟨k.spells ih.1 ih.2, hspace⟩

theorem spells_params (more : List Constraint) (hks : Spells ks cs) (hcs : cs.head?.any Text.isWordChar = false) :
    Spells ((more.map (·.param)).flatMap (fun p => [.mark ',', .word p.text]) ++ ks)
        ((more.flatMap fun k => ',' :: k.param.text.toList) ++ cs) ∧
      ((more.flatMap fun k => ',' :: k.param.text.toList) ++ cs).head?.any Text.isWordChar = false := by
  have hcomma : Text.isWordChar ',' = false := by decide
  induction more with
  | nil => exact ⟨hks, hcs⟩
  | cons k more ih =>
      rw [List.map_cons, List.flatMap_cons, List.flatMap_cons, List.append_assoc, List.append_assoc]
      exact ⟨spells_mark (by decide) (spells_word k.param.plain ih.2 ih.1), hcomma⟩

theorem spells_method (hks : Spells ks cs) :
    Spells (methodKinds method first more ++ ks) (methodSpelling method first more ++ cs) := by
  have hclose : Spells ([.mark '\x7b', .mark '\x7d'] ++ ks) ([' ', '\x7b', ' ', '\x7d'] ++ cs) :=
    spells_space (spells_mark (by decide) (spells_space (spells_mark (by decide) hks)))
  have hspace : Text.isWordChar ' ' = false := by decide
  have hangle : Text.isWordChar '>' = false := by decide
  obtain ⟨hmore, hbehind⟩ := spells_constraints more hclose hspace
  have hconstraints := spells_mark (m := '>') (by decide) (spells_mark (m := '(') (by decide)
    (spells_mark (m := ')') (by decide) (first.spells hmore hbehind)))
  obtain ⟨hparams, hends⟩ := spells_params more hconstraints hangle
  have hsignature := spells_wordThen method.plain (by decide)
    (spells_mark (m := '<') (by decide) (spells_word first.param.plain hends hparams))
  have hvoid := spells_wordThen (w := "void") (by decide) (by decide) (spells_space hsignature)
  have hkinds : methodKinds method first more ++ ks = .word "void" :: .word method.text :: .mark '<' ::
      .word first.param.text :: ((more.map (·.param)).flatMap (fun p => [.mark ',', .word p.text]) ++
        .mark '>' :: .mark '(' :: .mark ')' :: (first.kinds ++ (more.flatMap Constraint.kinds ++
          ([.mark '\x7b', .mark '\x7d'] ++ ks)))) := by
    simp only [methodKinds, signatureKinds, paramKinds, List.cons_append, List.append_assoc, List.nil_append]
  have hspelling : methodSpelling method first more ++ cs = "void".toList ++ ' ' :: (method.text.toList ++ '<' ::
      (first.param.text.toList ++ ((more.flatMap fun k => ',' :: k.param.text.toList) ++ '>' :: '(' :: ')' ::
        (first.spelling ++ (more.flatMap Constraint.spelling ++ ([' ', '\x7b', ' ', '\x7d'] ++ cs)))))) := by
    simp only [methodSpelling, paramSpelling, List.cons_append, List.append_assoc, List.nil_append]
  rw [hkinds, hspelling]
  exact hvoid

theorem spells_constrained (type method : Identifier) (first : Constraint) (more : List Constraint) :
    Spells (constrainedKinds type method first more) (constrainedSpelling type method first more) := by
  have hclose : Spells [.mark '\x7d'] [' ', '\x7d'] :=
    spells_space (spells_mark (by decide) (.done (List.forall_mem_nil _)))
  have hmethod : Spells (methodKinds method first more ++ [.mark '\x7d'])
      (methodSpelling method first more ++ [' ', '\x7d']) := spells_method hclose
  have htype := spells_wordThen type.plain (by decide)
    (spells_space (spells_mark (m := '\x7b') (by decide) (spells_space hmethod)))
  exact spells_wordThen (w := "class") (by decide) (by decide) (spells_space htype)

example :
    constrainedSpelling ⟨"A", by decide, by decide⟩ ⟨"M", by decide, by decide⟩
      ⟨⟨"T", by decide, by decide⟩, false⟩ [⟨⟨"U", by decide, by decide⟩, true⟩] =
        "class A \x7b void M<T,U>() where T : class where U : struct \x7b \x7d \x7d".toList := by
  decide

end Grammar

open Grammar

/-- However it is spaced, the text of a class with such a method declares that class and one type more for each
constraint behind the first, with an error for each. -/
theorem Skeleton.ofText_constraints {type method : Identifier} {first : Constraint} {more : List Constraint}
    {text : String} (h : Token.Spells (constrainedKinds type method first more) text.toList) :
    ofText text =
      { types := [⟨⟨type.text, spanIn (tokens text) 1 2, false⟩, none, none, false, [], []⟩] } ++
        strays (spanIn (tokens text)) type.text none [] (14 + 2 * more.length) more.length :=
  ofTokens_constraints (tokens_kinds h)

/-- A method with one constraint declares nothing. Of each constraint behind it the `where` becomes a type that is
nested in the class, with an error behind that `where`: these are every fourth token, as the words between them are a
type parameter, a colon and a type keyword. -/
theorem Skeleton.ofText_constrained (type method : Identifier) (first : Constraint) (more : List Constraint) :
    let text := String.ofList (constrainedSpelling type method first more)
    let span := spanIn (tokens text)
    let places := (List.range more.length).map fun k => 14 + 2 * more.length + 4 * k
    ofText text = {
        types := ⟨⟨type.text, span 1 2, false⟩, none, none, false, [], []⟩ ::
          places.map (strayType span type.text none [])
        errors := places.map (strayError span) } ∧
      ((ofText text).errors = [] ↔ more = []) ∧ ((ofText text).types.length = 1 ↔ more = []) := by
  intro text span places
  have hspells : Token.Spells (constrainedKinds type method first more) text.toList := by
    rw [String.toList_ofList]
    exact spells_constrained type method first more
  have hall : ofText text = {
      types := ⟨⟨type.text, span 1 2, false⟩, none, none, false, [], []⟩ ::
        places.map (strayType span type.text none [])
      errors := places.map (strayError span) } := by
    rw [ofText_constraints hspells]
    simp only [strays, places, List.map_map]
    rfl
  refine ⟨hall, ?_, ?_⟩
  · rw [hall]
    simp [places]
  · rw [hall]
    simp [places]

end GeneratorBench
