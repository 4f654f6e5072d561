import GeneratorBench.Proofs.Syntax.Grammar

/-!
Texts that spell given tokens. Blanks may stand anywhere between two tokens and have to stand
between two words; `tokens_kinds` says that reading such a text gives the tokens back.
-/

namespace GeneratorBench

namespace Text

def blankCodes : List Nat :=
  List.range' 9 5 ++ [0x20, 0x85, 0xA0, 0x1680] ++ List.range' 0x2000 11
    ++ [0x2028, 0x2029, 0x202F, 0x205F, 0x3000]

theorem isAlphabetic_of_isBlank {c : Char} (h : isBlank c = true) : isAlphabetic c = false := by
  have code : c.toNat ∈ blankCodes := by
    simp only [isBlank, Bool.or_eq_true, Bool.and_eq_true, decide_eq_true_eq, beq_iff_eq] at h
    simp only [blankCodes, List.mem_append, List.mem_range'_1, List.mem_cons, List.not_mem_nil,
      or_false]
    omega
  have none : ∀ n ∈ blankCodes, isAlphabetic (Char.ofNat n) = false := by decide +kernel
  have hc := none _ code
  rwa [Char.ofNat_toNat] at hc

end Text

open Grammar (isPlain)

namespace Token

/-- Marks that start nothing longer than themselves. -/
def isPlainMark (c : Char) : Bool :=
  !(startsWord c || isQuote c || c.isDigit || Text.isBlank c || c == '/')

/-- A text with only blanks between its tokens. -/
inductive Spells : List Kind → List Char → Prop
  | done {gap : List Char} (blank : ∀ c ∈ gap, Text.isBlank c = true) : Spells [] gap
  | word {gap : List Char} {w : String} {ks : List Kind} {cs : List Char}
      (blank : ∀ c ∈ gap, Text.isBlank c = true) (plain : isPlain w = true)
      (ends : cs.head?.any Text.isWordChar = false) (rest : Spells ks cs) :
      Spells (.word w :: ks) (gap ++ (w.toList ++ cs))
  | mark {gap : List Char} {m : Char} {ks : List Kind} {cs : List Char}
      (blank : ∀ c ∈ gap, Text.isBlank c = true) (plain : isPlainMark m = true)
      (rest : Spells ks cs) : Spells (.mark m :: ks) (gap ++ m :: cs)

theorem splitGap_of_isBlank {c : Char} (h : Text.isBlank c = true) (cs : List Char) :
    splitGap .blank (c :: cs) = (c :: (splitGap .blank cs).1, (splitGap .blank cs).2) := by
  cases cs <;> simp [splitGap, h]

theorem splitGap_blanks {gap : List Char} (h : ∀ c ∈ gap, Text.isBlank c = true) (cs : List Char) :
    splitGap .blank (gap ++ cs) = (gap ++ (splitGap .blank cs).1, (splitGap .blank cs).2) := by
  induction gap with
  | nil => rfl
  | cons c gap ih =>
      have hgap := ih fun d hd => h d (List.mem_cons_of_mem _ hd)
      rw [List.cons_append, splitGap_of_isBlank (h c List.mem_cons_self), hgap]
      rfl

theorem splitGap_of_not_isBlank {c : Char} (h : Text.isBlank c = false) (hc : c ≠ '/')
    (cs : List Char) : splitGap .blank (c :: cs) = ([], c :: cs) := by
  cases cs <;> simp [splitGap, h, hc]

theorem tokensFrom_nil_of_splitGap {p : Position} {cs : List Char}
    (h : (splitGap .blank cs).2 = []) : tokensFrom p cs = [] := by
  rw [tokensFrom]
  split
  · rfl
  · rename_i hcons
    rw [h] at hcons
    contradiction

theorem tokensFrom_cons_of_splitGap {p : Position} {cs rest : List Char} {c : Char}
    (h : (splitGap .blank cs).2 = c :: rest) :
    tokensFrom p cs =
      ⟨kindOf c (splitLexeme c rest).1, p.advance (splitGap .blank cs).1,
        (splitLexeme c rest).1.length + 1⟩
      :: tokensFrom ((p.advance (splitGap .blank cs).1).advance (c :: (splitLexeme c rest).1))
        (splitLexeme c rest).2 := by
  rw [tokensFrom]
  split
  · rename_i hnil
    rw [h] at hnil
    contradiction
  · rename_i hcons
    rw [h] at hcons
    cases hcons
    rfl

theorem tokensFrom_blanks {gap : List Char} (h : ∀ c ∈ gap, Text.isBlank c = true) (p : Position)
    (cs : List Char) : tokensFrom p (gap ++ cs) = tokensFrom (p.advance gap) cs := by
  have hgap := splitGap_blanks h cs
  cases hrest : (splitGap .blank cs).2 with
  | nil =>
      rw [tokensFrom_nil_of_splitGap hrest, tokensFrom_nil_of_splitGap (by rw [hgap, hrest])]
  | cons c rest =>
      rw [tokensFrom_cons_of_splitGap hrest, tokensFrom_cons_of_splitGap (by rw [hgap, hrest]),
        hgap, Position.advance_append]

theorem tokensFrom_blank {c : Char} (h : Text.isBlank c = true) (p : Position) (cs : List Char) :
    tokensFrom p (c :: cs) = tokensFrom (p.after c) cs := by
  have hgap : ∀ d ∈ [c], Text.isBlank d = true := by
    intro d hd
    rwa [List.mem_singleton.1 hd]
  exact tokensFrom_blanks hgap p cs

theorem tokensFrom_lexeme {c : Char} (blank : Text.isBlank c = false) (slash : c ≠ '/')
    (p : Position) (rest : List Char) :
    tokensFrom p (c :: rest) =
      ⟨kindOf c (splitLexeme c rest).1, p, (splitLexeme c rest).1.length + 1⟩
      :: tokensFrom (p.advance (c :: (splitLexeme c rest).1)) (splitLexeme c rest).2 := by
  have hgap := splitGap_of_not_isBlank blank slash rest
  rw [tokensFrom_cons_of_splitGap (by rw [hgap]), hgap]
  rfl

theorem tokensFrom_mark {m : Char} (h : isPlainMark m = true) (p : Position) (cs : List Char) :
    tokensFrom p (m :: cs) = ⟨.mark m, p, 1⟩ :: tokensFrom (p.after m) cs := by
  simp only [isPlainMark, Bool.not_eq_true', Bool.or_eq_false_iff, beq_eq_false_iff_ne] at h
  obtain ⟨⟨⟨⟨word, quote⟩, digit⟩, blank⟩, slash⟩ := h
  have hlexeme : splitLexeme m cs = ([], cs) := by simp [splitLexeme, word, quote, digit]
  rw [tokensFrom_lexeme blank slash, hlexeme]
  simp [kindOf, word, quote, digit]

theorem splitWhile_append {p : Char → Bool} {xs ys : List Char} (hx : xs.all p = true)
    (hy : ys.head?.any p = false) : splitWhile p (xs ++ ys) = (xs, ys) := by
  have hmem : ∀ x ∈ xs, p x = true := List.all_eq_true.1 hx
  have htake : ys.takeWhile p = [] := by cases ys <;> simp_all
  have hdrop : ys.dropWhile p = ys := by cases ys <;> simp_all
  rw [splitWhile, List.takeWhile_append_of_pos hmem, List.dropWhile_append_of_pos hmem, htake,
    hdrop, List.append_nil]

theorem not_isBlank_of_starts {c : Char} (h : Text.isAlphabetic c = true ∨ c = '_') :
    Text.isBlank c = false ∧ c ≠ '/' ∧ c ≠ '@' := by
  obtain h | rfl := h
  · refine ⟨?_, ?_, ?_⟩
    · cases hb : Text.isBlank c with
      | false => rfl
      | true =>
          rw [Text.isAlphabetic_of_isBlank hb] at h
          contradiction
    · rintro rfl
      exact absurd h (by decide)
    · rintro rfl
      exact absurd h (by decide)
  · decide

theorem tokensFrom_word {w : String} (plain : isPlain w = true) {cs : List Char}
    (ends : cs.head?.any Text.isWordChar = false) (p : Position) :
    tokensFrom p (w.toList ++ cs) =
      ⟨.word w, p, w.length⟩ :: tokensFrom (p.advance w.toList) cs := by
  obtain ⟨c, body, hw⟩ : ∃ c body, w.toList = c :: body := by
    cases h : w.toList with
    | nil => simp [isPlain, h] at plain
    | cons c body => exact ⟨c, body, rfl⟩
  simp only [isPlain, hw, Bool.and_eq_true, Bool.or_eq_true, beq_iff_eq] at plain
  obtain ⟨first, all⟩ := plain
  have starts : startsWord c = true := by
    simp only [startsWord, Bool.or_eq_true, beq_iff_eq]
    exact .inl first
  obtain ⟨blank, slash, noAt⟩ := not_isBlank_of_starts first
  have hlexeme : splitLexeme c (body ++ cs) = (body, cs) := by
    simp only [splitLexeme, starts, if_true, splitWhile_append all ends]
  rw [hw, List.cons_append, tokensFrom_lexeme blank slash, hlexeme]
  have hkind : kindOf c body = .word w := by
    simp only [kindOf, starts, noAt, if_true, if_false, ← hw, String.ofList_toList]
  have hlength : body.length + 1 = w.length := by
    rw [← String.length_toList, hw, List.length_cons]
  rw [hkind, hlength]

/-- A text is read back as the tokens that it spells, wherever it starts. -/
theorem tokensFrom_kinds {ks : List Kind} {cs : List Char} (h : Spells ks cs) (p : Position) :
    (tokensFrom p cs).map Token.kind = ks := by
  induction h generalizing p with
  | @done gap blank =>
      have hnil := tokensFrom_blanks blank p []
      rw [List.append_nil] at hnil
      rw [hnil, tokensFrom_nil_of_splitGap rfl, List.map_nil]
  | word blank plain ends _ ih =>
      rw [tokensFrom_blanks blank, tokensFrom_word plain ends, List.map_cons, ih]
  | mark blank plain _ ih =>
      rw [tokensFrom_blanks blank, tokensFrom_mark plain, List.map_cons, ih]

def Kind.isPlain : Kind → Bool
  | word w => Grammar.isPlain w
  | mark m => isPlainMark m
  | literal => false

def Kind.spelling : Kind → List Char
  | word w => w.toList
  | mark m => [m]
  | literal => []

def render (ks : List Kind) : List Char := ks.flatMap fun k => k.spelling ++ [' ']

theorem spells_space {ks : List Kind} {cs : List Char} (h : Spells ks cs) : Spells ks (' ' :: cs) := by
  have blank {gap : List Char} (hgap : ∀ c ∈ gap, Text.isBlank c = true) :
      ∀ c ∈ ' ' :: gap, Text.isBlank c = true := by
    intro c hc
    obtain rfl | hc := List.mem_cons.1 hc
    · decide
    · exact hgap c hc
  cases h with
  | done hgap => exact .done (blank hgap)
  | word hgap plain ends rest => exact .word (blank hgap) plain ends rest
  | mark hgap plain rest => exact .mark (blank hgap) plain rest

theorem spells_render {ks : List Kind} (h : ks.all Kind.isPlain = true) : Spells ks (render ks) := by
  have noGap : ∀ c ∈ ([] : List Char), Text.isBlank c = true := by
    intro c hc
    cases hc
  induction ks with
  | nil => exact .done noGap
  | cons k ks ih =>
      rw [List.all_cons, Bool.and_eq_true] at h
      have rest := spells_space (ih h.2)
      have space : (' ' :: render ks).head?.any Text.isWordChar = false := by
        rw [List.head?_cons]
        decide
      rw [render, List.flatMap_cons, List.append_assoc]
      cases k with
      | word w => exact .word noGap h.1 space rest
      | mark m => exact .mark noGap h.1 rest
      | literal => cases h.1

end Token

namespace Grammar

theorem DottedName.kinds_isPlain (n : DottedName) : n.kinds.all Token.Kind.isPlain = true := by
  have dot : Token.isPlainMark '.' = true := by decide
  have hmore : ∀ ws : List Identifier,
      ((ws.map (·.text)).flatMap fun w => [.mark '.', .word w]).all Token.Kind.isPlain = true := by
    intro ws
    induction ws with
    | nil => rfl
    | cons w ws ih =>
        simp only [List.map_cons, List.flatMap_cons, List.all_append, List.all_cons, List.all_nil,
          Token.Kind.isPlain, dot, w.plain, ih, Bool.and_self]
  rw [kinds, dotted, List.all_cons, Token.Kind.isPlain, n.first.plain, hmore, Bool.and_self]

theorem QualifiedName.kinds_isPlain (q : QualifiedName) :
    q.kinds.all Token.Kind.isPlain = true := by
  have mark : globalMark.all Token.Kind.isPlain = true := by decide
  rw [kinds, List.all_append, q.name.kinds_isPlain, Bool.and_true]
  split
  · exact mark
  · rfl

theorem listKinds_isPlain {sep : Char} (hsep : Token.isPlainMark sep = true)
    (qs : List QualifiedName) : (listKinds sep qs).all Token.Kind.isPlain = true := by
  induction qs generalizing sep with
  | nil => rfl
  | cons q qs ih =>
      rw [listKinds, List.all_cons, List.all_append, q.kinds_isPlain, ih (by decide),
        Token.Kind.isPlain, hsep, Bool.and_self, Bool.and_self]

theorem words_isPlain {ws : List String} (h : ∀ w ∈ ws, isPlain w = true) :
    (ws.map Token.Kind.word).all Token.Kind.isPlain = true := by
  rw [List.all_map, List.all_eq_true]
  exact h

theorem TypeHead.kinds_isPlain (h : TypeHead) : h.kinds.all Token.Kind.isPlain = true := by
  have modifiers : ∀ m ∈ Cursor.modifiers, isPlain m = true := by decide
  have keywords : ∀ ws ∈ keywordPhrases, ∀ w ∈ ws, isPlain w = true := by decide
  rw [kinds, List.all_append, List.all_append, List.all_cons,
    words_isPlain fun m hm => modifiers m (h.modifiers_mem m hm),
    words_isPlain (keywords _ h.keyword_mem), listKinds_isPlain (by decide), Token.Kind.isPlain,
    h.name.plain]
  rfl

theorem Directive.kinds_isPlain (d : Directive) : d.kinds.all Token.Kind.isPlain = true := by
  have word : Token.Kind.isPlain (.word "using") = true := by decide
  have mark : [Token.Kind.mark ';'].all Token.Kind.isPlain = true := by decide
  rw [kinds, List.all_cons, List.all_append, List.all_append, d.name.kinds_isPlain, word, mark]
  cases d.isStatic with
  | false => rfl
  | true => decide

theorem namespaceKinds_isPlain (n : DottedName) (mark : Char) (h : Token.isPlainMark mark = true) :
    (namespaceKinds n mark).all Token.Kind.isPlain = true := by
  have word : Token.Kind.isPlain (.word "namespace") = true := by decide
  rw [namespaceKinds, List.all_cons, List.all_append, n.kinds_isPlain, word, List.all_cons,
    Token.Kind.isPlain, h]
  rfl

theorem mark_isPlain : [Token.Kind.mark ';'].all Token.Kind.isPlain = true ∧
    [Token.Kind.mark '\x7b'].all Token.Kind.isPlain = true ∧
    [Token.Kind.mark '\x7d'].all Token.Kind.isPlain = true := by decide

theorem Body.kinds_isPlain (b : Body) : b.kinds.all Token.Kind.isPlain = true := by
  obtain ⟨semicolon, opening, closing⟩ := mark_isPlain
  induction b with
  | done => rfl
  | main rest ih =>
      have main : mainKinds.all Token.Kind.isPlain = true := by decide
      rw [kinds, List.all_append, main, ih, Bool.and_self]
  | type head rest ih =>
      simp only [kinds, List.all_append, head.kinds_isPlain, semicolon, ih, Bool.and_self]
  | typeWith head inner rest ihInner ihRest =>
      simp only [kinds, List.all_append, head.kinds_isPlain, opening, closing, ihInner, ihRest,
        Bool.and_self]

theorem Members.kinds_isPlain (ms : Members) : ms.kinds.all Token.Kind.isPlain = true := by
  obtain ⟨semicolon, opening, closing⟩ := mark_isPlain
  induction ms with
  | done => rfl
  | directive d rest ih => rw [kinds, List.all_append, d.kinds_isPlain, ih, Bool.and_self]
  | block name inner rest ihInner ihRest =>
      simp only [kinds, List.all_append, namespaceKinds_isPlain name '\x7b' (by decide),
        closing, ihInner, ihRest, Bool.and_self]
  | type head rest ih =>
      simp only [kinds, List.all_append, head.kinds_isPlain, semicolon, ih, Bool.and_self]
  | typeWith head inner rest ih =>
      simp only [kinds, List.all_append, head.kinds_isPlain, opening, closing, inner.kinds_isPlain,
        ih, Bool.and_self]

theorem SourceUnit.kinds_isPlain (u : SourceUnit) : u.kinds.all Token.Kind.isPlain = true := by
  rw [kinds, List.all_append, u.members.kinds_isPlain, Bool.true_and]
  cases u.fileScoped with
  | none => rfl
  | some file =>
      simp only [Option.elim_some, List.all_append, file.2.kinds_isPlain,
        namespaceKinds_isPlain file.1 ';' (by decide), Bool.and_self]

theorem SourceUnit.spells_render (u : SourceUnit) : Token.Spells u.kinds (Token.render u.kinds) :=
  Token.spells_render u.kinds_isPlain

end Grammar

theorem tokens_kinds {ks : List Token.Kind} {text : String} (h : Token.Spells ks text.toList) :
    (tokens text).map Token.kind = ks :=
  Token.tokensFrom_kinds h .origin

end GeneratorBench
