import GeneratorBench.Proofs.Source.Positions
import GeneratorBench.Proofs.Syntax.Joining
import GeneratorBench.Proofs.Syntax.Layout

/-!
A line appended to a text. It is read as it would be by itself, unless the text ends in the middle of
something: in a comment or a literal that takes the line in, or in a construct that never was closed.
-/

namespace GeneratorBench

namespace Token

/-- What a text that is all gap ends in the middle of. -/
def gapEnd : Gap → List Char → Gap
  | g, [] => g
  | .blank, [_] => .blank
  | .blank, c :: d :: cs =>
    if Text.isBlank c then gapEnd .blank (d :: cs)
    else if c = '/' ∧ d = '/' then gapEnd .lineComment cs
    else if c = '/' ∧ d = '*' then gapEnd .blockComment cs
    else .blank
  | .lineComment, c :: cs => gapEnd (if c = '\n' then .blank else .lineComment) cs
  | .blockComment, [_] => .blockComment
  | .blockComment, c :: d :: cs =>
    if c = '*' ∧ d = '/' then gapEnd .blank cs else gapEnd .blockComment (d :: cs)

def lastGap (cs : List Char) : List Char :=
  match _h : (splitGap .blank cs).2 with
  | [] => cs
  | c :: rest => lastGap (splitLexeme c rest).2
termination_by cs.length
decreasing_by
  have gap := congrArg List.length (splitGap_append .blank cs)
  have lexeme := congrArg List.length (splitLexeme_append c rest)
  simp only [_h, List.length_append, List.length_cons] at gap lexeme
  omega

variable {cs l : List Char}

theorem splitGap_line_of_nil {g : Gap} (h : (splitGap g cs).2 = []) (l : List Char) :
    splitGap g (cs ++ '\n' :: l) =
      (cs ++ (splitGap (gapEnd g cs) ('\n' :: l)).1, (splitGap (gapEnd g cs) ('\n' :: l)).2) := by
  fun_induction splitGap g cs with
  | case11 c d cs hopen gap rest hsplit ih =>
      have hrest : (splitGap .blockComment (d :: cs)).2 = [] := by
        rw [hsplit]
        exact h
      have hmore := ih hrest
      rw [List.cons_append] at hmore
      rw [gapEnd, if_neg hopen, List.cons_append, List.cons_append, splitGap, if_neg hopen, hmore]
      rfl
  | _ => simp_all [splitGap, gapEnd]

theorem splitGap_line_of_cons {g : Gap} {c : Char} {rest : List Char} (h : (splitGap g cs).2 = c :: rest)
    (l : List Char) : splitGap g (cs ++ '\n' :: l) = ((splitGap g cs).1, c :: (rest ++ '\n' :: l)) := by
  fun_induction splitGap g cs with
  | case7 c d cs hblank hline hblock =>
      cases h
      rw [List.cons_append, List.cons_append, splitGap, if_neg hblank, if_neg hline, if_neg hblock]
  | case11 x y cs hopen gap more hsplit ih =>
      have hrest : (splitGap .blockComment (y :: cs)).2 = c :: rest := by
        rw [hsplit]
        exact h
      have hmore := ih hrest
      rw [List.cons_append, hsplit] at hmore
      rw [List.cons_append, List.cons_append, splitGap, if_neg hopen, hmore]
  | _ => simp_all [splitGap]

theorem splitWhile_line {p : Char → Bool} (hp : p '\n' = false) (cs l : List Char) :
    splitWhile p (cs ++ '\n' :: l) = ((splitWhile p cs).1, (splitWhile p cs).2 ++ '\n' :: l) := by
  have hcs : cs.takeWhile p ++ cs.dropWhile p = cs := List.takeWhile_append_dropWhile
  have hend : (cs.dropWhile p ++ '\n' :: l).head?.any p = false := by
    cases hdrop : cs.dropWhile p with
    | nil => exact hp
    | cons c rest =>
        have hhead := List.head?_dropWhile_not p cs
        rw [hdrop] at hhead
        exact hhead
  have hsplit := splitWhile_append (List.all_takeWhile (p := p) (l := cs)) hend
  rw [← List.append_assoc, hcs] at hsplit
  exact hsplit

theorem splitQuoted_line_of_ne {quote : Char} (h : (splitQuoted quote cs).2 ≠ []) (l : List Char) :
    splitQuoted quote (cs ++ l) = ((splitQuoted quote cs).1, (splitQuoted quote cs).2 ++ l) := by
  fun_induction splitQuoted quote cs with
  | case3 cs hnext =>
      cases cs with
      | nil => exact absurd rfl h
      | cons c cs => exact (hnext c cs rfl rfl).elim
  | _ => simp_all [splitQuoted]

/-- A literal at the very end takes in nothing, the end of the line, or what comes after it too. -/
theorem splitQuoted_line_of_nil {quote : Char} (h : (splitQuoted quote cs).2 = []) (l : List Char) :
    (splitQuoted quote (cs ++ '\n' :: l)).2 ∈ ['\n' :: l, l, (splitQuoted quote l).2] := by
  fun_induction splitQuoted quote cs <;> simp_all [splitQuoted]

theorem splitLexeme_line {c : Char} {rest : List Char}
    (h : kindOf c (splitLexeme c rest).1 ≠ .literal ∨ (splitLexeme c rest).2 ≠ []) (l : List Char) :
    splitLexeme c (rest ++ '\n' :: l) = ((splitLexeme c rest).1, (splitLexeme c rest).2 ++ '\n' :: l) := by
  by_cases hword : startsWord c = true
  · simp only [splitLexeme, if_pos hword]
    exact splitWhile_line (by decide) rest l
  by_cases hquote : isQuote c = true
  · have hkind : kindOf c (splitLexeme c rest).1 = .literal := by simp [kindOf, hword, hquote]
    have hrest := h.resolve_left (fun hne => hne hkind)
    simp only [splitLexeme, if_neg hword, if_pos hquote] at hrest ⊢
    exact splitQuoted_line_of_ne hrest _
  by_cases hdigit : c.isDigit = true
  · simp only [splitLexeme, if_neg hword, if_neg hquote, if_pos hdigit]
    exact splitWhile_line (by decide) rest l
  · simp only [splitLexeme, if_neg hword, if_neg hquote, if_neg hdigit]

theorem kindOf_literal {c : Char} {body : List Char} (h : kindOf c body = .literal) (body' : List Char) :
    kindOf c body' = .literal := by
  unfold kindOf at h ⊢
  split at h
  · cases h
  · rename_i hword
    rwa [if_neg hword]

theorem splitLexeme_line_of_nil {c : Char} {rest : List Char}
    (hkind : kindOf c (splitLexeme c rest).1 = .literal) (h : (splitLexeme c rest).2 = [])
    (hl : ∀ quote, isQuote quote = true → (splitQuoted quote l).2 = []) :
    (splitLexeme c (rest ++ '\n' :: l)).2 ∈ ['\n' :: l, l, []] := by
  by_cases hword : startsWord c = true
  · simp [kindOf, hword] at hkind
  by_cases hquote : isQuote c = true
  · simp only [splitLexeme, if_neg hword, if_pos hquote] at h ⊢
    have hmem := splitQuoted_line_of_nil h l
    rwa [hl c hquote] at hmem
  by_cases hdigit : c.isDigit = true
  · simp only [splitLexeme, if_neg hword, if_neg hquote, if_pos hdigit] at h ⊢
    rw [splitWhile_line (by decide), h]
    exact List.mem_cons_self
  · simp [kindOf, hword, hquote, hdigit] at hkind

/-- The text ends in a comment that is not closed. -/
def EndsInComment (cs : List Char) : Prop := gapEnd .blank (lastGap cs) = .blockComment

theorem lastGap_of_nil (h : (splitGap .blank cs).2 = []) : lastGap cs = cs := by
  rw [lastGap]
  split
  · rfl
  · rename_i hcons
    rw [h] at hcons
    cases hcons

theorem lastGap_of_cons {c : Char} {rest : List Char} (h : (splitGap .blank cs).2 = c :: rest) :
    lastGap cs = lastGap (splitLexeme c rest).2 := by
  rw [lastGap]
  split
  · rename_i hnil
    rw [h] at hnil
    cases hnil
  · rename_i hcons
    rw [h] at hcons
    cases hcons
    rfl

theorem not_endsInComment_nil : ¬ EndsInComment [] := by
  rw [EndsInComment, lastGap_of_nil rfl]
  exact nofun

theorem tokensFrom_line_of_nil (h : (splitGap .blank cs).2 = []) (hend : gapEnd .blank cs ≠ .blockComment)
    (p : Position) (l : List Char) :
    tokensFrom p (cs ++ '\n' :: l) = tokensFrom (p.advance cs) ('\n' :: l) := by
  have hline : splitGap (gapEnd .blank cs) ('\n' :: l) = splitGap .blank ('\n' :: l) := by
    have hblank : splitGap .blank ('\n' :: l) = ('\n' :: (splitGap .blank l).1, (splitGap .blank l).2) :=
      splitGap_of_isBlank (by decide) l
    cases hgap : gapEnd .blank cs with
    | blank => rfl
    | lineComment =>
        rw [hblank, splitGap]
        rfl
    | blockComment => exact absurd hgap hend
  have hsplit := splitGap_line_of_nil h l
  rw [hline] at hsplit
  cases hrest : (splitGap .blank ('\n' :: l)).2 with
  | nil => rw [tokensFrom_nil_of_splitGap hrest, tokensFrom_nil_of_splitGap (by rw [hsplit, hrest])]
  | cons c rest =>
      rw [tokensFrom_cons_of_splitGap hrest, tokensFrom_cons_of_splitGap (by rw [hsplit, hrest]), hsplit,
        Position.advance_append]

theorem tokensFrom_line_of_cons {c : Char} {rest : List Char} (h : (splitGap .blank cs).2 = c :: rest)
    (hend : kindOf c (splitLexeme c rest).1 ≠ .literal ∨ (splitLexeme c rest).2 ≠ []) (p : Position)
    (l : List Char) :
    tokensFrom p (cs ++ '\n' :: l) =
      ⟨kindOf c (splitLexeme c rest).1, p.advance (splitGap .blank cs).1, (splitLexeme c rest).1.length + 1⟩
      :: tokensFrom ((p.advance (splitGap .blank cs).1).advance (c :: (splitLexeme c rest).1))
        ((splitLexeme c rest).2 ++ '\n' :: l) := by
  have hsplit := splitGap_line_of_cons h l
  rw [tokensFrom_cons_of_splitGap (by rw [hsplit]), hsplit, splitLexeme_line hend]

theorem tokensFrom_of_endsInComment (h : EndsInComment cs) {l : List Char}
    (hl : (splitGap .blockComment ('\n' :: l)).2 = []) (p : Position) :
    tokensFrom p (cs ++ '\n' :: l) = tokensFrom p cs := by
  induction p, cs using tokensFrom.induct with
  | case1 p cs hgap =>
      rw [EndsInComment, lastGap_of_nil hgap] at h
      have hsplit := splitGap_line_of_nil hgap l
      rw [h, hl] at hsplit
      rw [tokensFrom_nil_of_splitGap hgap, tokensFrom_nil_of_splitGap (by rw [hsplit])]
  | case2 p cs c rest hgap start body ih =>
      rw [EndsInComment, lastGap_of_cons hgap, ← EndsInComment] at h
      have hrest : (splitLexeme c rest).2 ≠ [] := by
        intro hnil
        rw [hnil] at h
        exact not_endsInComment_nil h
      rw [tokensFrom_line_of_cons hgap (.inr hrest), tokensFrom_cons_of_splitGap hgap, ih h]

/-- Behind a text that ends neither in a comment nor in a literal, a line adds its own tokens. -/
theorem tokensFrom_appendLine (hcomment : ¬ EndsInComment cs) {p : Position}
    (hlast : ∀ t ∈ (tokensFrom p cs).getLast?, t.kind ≠ .literal) (l : List Char) :
    tokensFrom p (cs ++ '\n' :: l) = tokensFrom p cs ++ tokensFrom (p.advance cs) ('\n' :: l) := by
  induction p, cs using tokensFrom.induct with
  | case1 p cs h =>
      rw [EndsInComment, lastGap_of_nil h] at hcomment
      rw [tokensFrom_line_of_nil h hcomment, tokensFrom_nil_of_splitGap h, List.nil_append]
  | case2 p cs c rest h start body ih =>
      have hcs : p.advance cs = (start.advance (c :: body)).advance (splitLexeme c rest).2 := by
        rw [← Position.advance_append, ← Position.advance_append, List.cons_append, splitLexeme_append, ← h,
          splitGap_append]
      rw [EndsInComment, lastGap_of_cons h, ← EndsInComment] at hcomment
      rw [tokensFrom_cons_of_splitGap h, List.getLast?_cons] at hlast
      have hend : kindOf c body ≠ .literal ∨ (splitLexeme c rest).2 ≠ [] := by
        by_cases hrest : (splitLexeme c rest).2 = []
        · rw [hrest, tokensFrom_nil_of_splitGap rfl] at hlast
          exact .inl (hlast _ rfl)
        · exact .inr hrest
      have hmore : ∀ t ∈ (tokensFrom (start.advance (c :: body)) (splitLexeme c rest).2).getLast?,
          t.kind ≠ .literal := by
        intro t ht
        refine hlast t ?_
        rw [Option.mem_def] at ht ⊢
        rw [ht]
        rfl
      rw [tokensFrom_line_of_cons h hend, tokensFrom_cons_of_splitGap h, ih hcomment hmore, hcs]
      rfl

section

variable {ks : List Kind} {l : List Char}

theorem kinds_newline (hl : Spells ks l) (p : Position) : (tokensFrom p ('\n' :: l)).map kind = ks := by
  rw [tokensFrom_blank (by decide)]
  exact tokensFrom_kinds hl _

theorem kinds_appendLine_of_literal {c : Char} {rest : List Char} (h : (splitGap .blank cs).2 = c :: rest)
    (hliteral : kindOf c (splitLexeme c rest).1 = .literal) (hrest : (splitLexeme c rest).2 = [])
    (hl : Spells ks l) (hquoted : ∀ quote, isQuote quote = true → (splitQuoted quote l).2 = []) (p : Position) :
    ∃ more ∈ [[], ks], (tokensFrom p (cs ++ '\n' :: l)).map kind = (tokensFrom p cs).map kind ++ more := by
  have hsplit := splitGap_line_of_cons h l
  have hnone : ∀ q, tokensFrom q [] = [] := fun q => tokensFrom_nil_of_splitGap rfl
  have hmore : ∀ q, (tokensFrom q (splitLexeme c (rest ++ '\n' :: l)).2).map kind ∈ [[], ks] := by
    intro q
    have hmem := splitLexeme_line_of_nil hliteral hrest hquoted
    simp only [List.mem_cons, List.not_mem_nil, or_false] at hmem ⊢
    obtain hline | hline | hline := hmem
    · exact .inr (by rw [hline, kinds_newline hl])
    · exact .inr (by rw [hline, tokensFrom_kinds hl])
    · exact .inl (by rw [hline, hnone, List.map_nil])
  rw [tokensFrom_cons_of_splitGap (by rw [hsplit]), tokensFrom_cons_of_splitGap h, hrest, hnone, List.map_cons,
    List.map_cons, kindOf_literal hliteral, hliteral]
  exact ⟨_, hmore _, rfl⟩

/-- A literal at the very end is the only token that a line behind the text can touch. The line then adds
its own tokens still, or none. -/
theorem kinds_appendLine (hl : Spells ks l) (hcomment : (splitGap .blockComment ('\n' :: l)).2 = [])
    (hquoted : ∀ quote, isQuote quote = true → (splitQuoted quote l).2 = []) (p : Position) (cs : List Char) :
    ∃ more ∈ [[], ks], (tokensFrom p (cs ++ '\n' :: l)).map kind = (tokensFrom p cs).map kind ++ more := by
  induction p, cs using tokensFrom.induct with
  | case1 p cs h =>
      rw [tokensFrom_nil_of_splitGap h]
      by_cases hend : gapEnd .blank cs = .blockComment
      · have hsplit := splitGap_line_of_nil h l
        rw [hend, hcomment] at hsplit
        rw [tokensFrom_nil_of_splitGap (by rw [hsplit])]
        exact ⟨[], List.mem_cons_self, rfl⟩
      · rw [tokensFrom_line_of_nil h hend, kinds_newline hl]
        exact ⟨ks, List.mem_cons_of_mem _ List.mem_cons_self, rfl⟩
  | case2 p cs c rest h start body ih =>
      by_cases hend : kindOf c body ≠ .literal ∨ (splitLexeme c rest).2 ≠ []
      · obtain ⟨more, hmore, hkinds⟩ := ih
        refine ⟨more, hmore, ?_⟩
        rw [tokensFrom_line_of_cons h hend, tokensFrom_cons_of_splitGap h, List.map_cons, List.map_cons, hkinds]
        rfl
      · rw [not_or, not_not, not_not] at hend
        exact kinds_appendLine_of_literal h hend.1 hend.2 hl hquoted p

end

end Token

namespace Skeleton

variable {text : String}

/-- The text ends in a comment, an attribute list or the directive of an alias that is not closed. -/
def EndsOpen (text : String) : Prop := Token.EndsInComment text.toList ∨ LeavesOpen (tokens text)

def freshClass : Grammar.Members :=
  .typeWith ⟨[], ["class"], ⟨"Zq", by decide, by decide⟩, [], by decide, by decide⟩ .done .done

theorem spells_freshClass : Token.Spells freshClass.kinds "class Zq \x7b\x7d".toList := by
  have noGap : ∀ c ∈ ([] : List Char), Text.isBlank c = true := nofun
  have space : ∀ c ∈ [' '], Text.isBlank c = true := List.forall_mem_singleton.2 (by decide)
  exact .word noGap (by decide) (by decide) (.word space (by decide) (by decide)
    (.mark space (by decide) (.mark noGap (by decide) (.done noGap))))

theorem splitQuoted_freshClass (quote : Char) (h : Token.isQuote quote = true) :
    (Token.splitQuoted quote "class Zq \x7b\x7d".toList).2 = [] := by
  rw [Token.isQuote, Bool.or_eq_true, beq_iff_eq, beq_iff_eq] at h
  obtain rfl | rfl := h
  · decide
  · decide

theorem outline_freshClass (span : Nat → Nat → Span) (e : Grammar.Surroundings) :
    ∃ d, d.name.name = "Zq" ∧ (freshClass.outline span e).types = [d] := ⟨_, rfl, rfl⟩

theorem toList_appendClass (text : String) :
    (text ++ "\nclass Zq \x7b\x7d").toList = text.toList ++ '\n' :: "class Zq \x7b\x7d".toList := by
  rw [String.toList_append]
  rfl

theorem unplaced_appendClass (fine : (ofText text).errors = []) (h : EndsOpen text) :
    (ofText (text ++ "\nclass Zq \x7b\x7d")).unplaced = (ofText text).unplaced := by
  obtain hcomment | hleft := h
  · have hclass : (Token.splitGap .blockComment ('\n' :: "class Zq \x7b\x7d".toList)).2 = [] := by decide
    have htokens := Token.tokensFrom_of_endsInComment hcomment hclass .origin
    rw [← toList_appendClass] at htokens
    exact congrArg (fun ts => (ofTokens ts).unplaced) htokens
  · obtain ⟨more, hmore, hkinds⟩ :=
      Token.kinds_appendLine spells_freshClass (by decide) splitQuoted_freshClass .origin text.toList
    let us : List Token := more.map fun k => ⟨k, .origin, 0⟩
    have hus : us.map Token.kind = more := by
      rw [List.map_map]
      exact List.map_id'' (fun _ => rfl) _
    have hopen : ∀ t ∈ us, t.isMark ']' = false ∧ t.isMark ';' = false := by
      intro t ht
      obtain ⟨k, hk, rfl⟩ := List.mem_map.1 ht
      have hfree : ∀ ks ∈ [[], freshClass.kinds], ∀ k ∈ ks,
          (k == .mark ']') = false ∧ (k == .mark ';') = false := by decide
      exact hfree more hmore k hk
    have hread : (ofText (text ++ "\nclass Zq \x7b\x7d")).unplaced =
        (ofTokens (tokens text ++ us)).unplaced := by
      refine unplaced_ofTokens ?_
      rw [tokens, toList_appendClass, hkinds, List.map_append, hus]
      rfl
    rwa [ofTokens_append_of_leavesOpen fine hleft hopen] at hread

theorem types_appendClass (fine : (ofText text).errors = []) (h : ¬ EndsOpen text) :
    (ofText (text ++ "\nclass Zq \x7b\x7d")).errors = [] ∧ ∃ d, d.name.name = "Zq" ∧
      (ofText (text ++ "\nclass Zq \x7b\x7d")).types = (ofText text).types ++ [d] := by
  obtain ⟨hcomment, hleft⟩ := not_or.1 h
  have hmark := (run_fine fine hleft).2
  have hlast : ∀ t ∈ (tokens text).getLast?, t.kind ≠ .literal := by
    intro t ht
    rw [← List.head?_reverse] at ht
    obtain ⟨m, hm⟩ := hmark t ht
    rw [hm]
    exact nofun
  let start : Position := (Position.origin.advance text.toList).after '\n'
  have htokens : tokens (text ++ "\nclass Zq \x7b\x7d") =
      tokens text ++ Token.tokensFrom start "class Zq \x7b\x7d".toList := by
    rw [tokens, toList_appendClass, Token.tokensFrom_appendLine hcomment hlast,
      Token.tokensFrom_blank (by decide)]
    rfl
  obtain ⟨e, hread⟩ := ofTokens_append fine hleft (Token.tokensFrom_kinds spells_freshClass start)
  rw [← htokens] at hread
  obtain ⟨d, hname, htypes⟩ := outline_freshClass (spanIn (tokens (text ++ "\nclass Zq \x7b\x7d"))) e
  rw [ofText, hread, errors_append, Grammar.Members.outline_errors]
  exact ⟨congrArg (· ++ []) fine, d, hname, congrArg ((ofText text).types ++ ·) htypes⟩

/-- A text without errors has the class as its one more type, unless it ends open: then it loses the class,
and reports nothing. -/
theorem ofText_appendClass (fine : (ofText text).errors = []) :
    (EndsOpen text → (ofText (text ++ "\nclass Zq \x7b\x7d")).unplaced = (ofText text).unplaced) ∧
      (((ofText (text ++ "\nclass Zq \x7b\x7d")).errors = [] ∧ ∃ d, d.name.name = "Zq" ∧
        (ofText (text ++ "\nclass Zq \x7b\x7d")).types = (ofText text).types ++ [d]) ↔ ¬ EndsOpen text) := by
  refine ⟨unplaced_appendClass fine, ?_, types_appendClass fine⟩
  rintro ⟨-, d, -, htypes⟩ hopen
  have hcount := congrArg (fun s => s.types.length) (unplaced_appendClass fine hopen)
  simp only [unplaced, List.length_map, htypes, List.length_append, List.length_singleton] at hcount
  exact absurd hcount (Nat.succ_ne_self _)

/-- The directive of an alias without its semicolon, and a directive with one. -/
theorem ofText_appendClass_alias :
    ((ofText "using A = B").errors = [] ∧ EndsOpen "using A = B" ∧
      (ofText "using A = B\nclass Zq \x7b\x7d").unplaced = (ofText "using A = B").unplaced) ∧
    (ofText "using A;").errors = [] ∧ ¬ EndsOpen "using A;" := by
  have halias : ofText "using A = B" = _ := Parser.ofText_iterate 1 (by decide +kernel)
  have hfine : (ofText "using A = B").errors = [] := by
    rw [halias]
    decide +kernel
  have htokens : tokens "using A = B" =
      [⟨.word "using", ⟨0, 0⟩, 5⟩, ⟨.word "A", ⟨0, 6⟩, 1⟩, ⟨.mark '=', ⟨0, 8⟩, 1⟩,
        ⟨.word "B", ⟨0, 10⟩, 1⟩] := by decide +kernel
  have hopen : LeavesOpen (tokens "using A = B") := by
    rw [htokens]
    exact ⟨0, nofun, .inr ⟨by decide, _, _, rfl, by decide +kernel, by decide +kernel⟩⟩
  have hclosed : ofText "using A;" = _ := Parser.ofText_iterate 1 (by decide +kernel)
  have hmore : ofText "using A;\nclass Zq \x7b\x7d" = _ := Parser.ofText_iterate 3 (by decide +kernel)
  have hquiet : (ofText "using A;").errors = [] := by
    rw [hclosed]
    decide +kernel
  have hone : (ofText "using A;\nclass Zq \x7b\x7d").errors = [] ∧ ∃ d, d.name.name = "Zq" ∧
      (ofText "using A;\nclass Zq \x7b\x7d").types = (ofText "using A;").types ++ [d] := by
    rw [hclosed, hmore]
    exact ⟨by decide +kernel, ⟨⟨"Zq", .onLine 1 6 2, false⟩, none, none, false, [], [0]⟩, by decide +kernel⟩
  exact ⟨⟨hfine, .inr hopen, (ofText_appendClass hfine).1 (.inr hopen)⟩, hquiet,
    (ofText_appendClass hquiet).2.1 hone⟩

end Skeleton

end GeneratorBench
