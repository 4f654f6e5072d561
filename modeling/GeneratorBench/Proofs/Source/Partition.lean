import GeneratorBench.Proofs.Source.Positions
import Mathlib.Data.List.Induction

/-!
A text is a gap, a token, a gap, and so on to a last gap. What a gap and a lexeme may be is said here without the
reader, and the tokens that are read are the only ones that a text can be cut into (`tokens_partition`).
-/

namespace GeneratorBench

namespace Position

theorem line_advance_origin (cs : List Char) : (origin.advance cs).line = cs.count '\n' := by
  induction cs using List.reverseRecOn with
  | nil => rfl
  | append_singleton cs c ih =>
      rw [advance_append, List.count_append, ← ih, advance_cons, advance_nil, after]
      split
      · rename_i hc
        rw [hc]
        rfl
      · rename_i hc
        rw [List.count_singleton, if_neg (by simpa using hc)]
        rfl

theorem column_advance_origin (cs : List Char) :
    (origin.advance cs).column = (cs.reverse.takeWhile (· ≠ '\n')).length := by
  induction cs using List.reverseRecOn with
  | nil => rfl
  | append_singleton cs c ih =>
      rw [advance_append, List.reverse_append, List.reverse_singleton, List.singleton_append, advance_cons,
        advance_nil, after]
      split
      · rename_i hc
        rw [hc, List.takeWhile_cons_of_neg (by decide)]
        rfl
      · rename_i hc
        rw [List.takeWhile_cons_of_pos (by simpa using hc), List.length_cons, ← ih]

end Position

namespace Token

/-! ### Gaps -/

def commentEnd : List Char := ['*', '/']

/-- Blanks and comments in front of `rest`. A line comment ends before the line feed, a block comment with the
first mark that closes it; only at the end of the text it may lack one. -/
inductive IsGap (rest : List Char) : List Char → Prop
  | done : IsGap rest []
  | blank {c : Char} {gap : List Char} (isBlank : Text.isBlank c = true) (more : IsGap rest gap) :
      IsGap rest (c :: gap)
  | lineComment {body gap : List Char} (sameLine : '\n' ∉ body)
      (ends : ∀ c ∈ (gap ++ rest).head?, c = '\n') (more : IsGap rest gap) :
      IsGap rest ('/' :: '/' :: (body ++ gap))
  | blockComment {body gap : List Char} (unclosed : ¬ commentEnd <:+: body) (more : IsGap rest gap) :
      IsGap rest ('/' :: '*' :: (body ++ (commentEnd ++ gap)))
  | openComment {body : List Char} (unclosed : ¬ commentEnd <:+: body) (last : rest = []) :
      IsGap rest ('/' :: '*' :: body)

def StartsGap (cs : List Char) : Prop :=
  (∃ c ∈ cs.head?, Text.isBlank c = true) ∨ ['/', '/'] <+: cs ∨ ['/', '*'] <+: cs

def Continues (rest : List Char) : Gap → List Char → Prop
  | .blank, gap => IsGap rest gap
  | .lineComment, gap => ∃ body more, gap = body ++ more ∧ '\n' ∉ body ∧
      (∀ c ∈ (more ++ rest).head?, c = '\n') ∧ IsGap rest more
  | .blockComment, gap =>
    (∃ body more, gap = body ++ (commentEnd ++ more) ∧ ¬ commentEnd <:+: body ∧ IsGap rest more) ∨
      rest = [] ∧ ¬ commentEnd <:+: gap

theorem not_commentEnd_cons {c : Char} {body : List Char} (h : ¬ commentEnd <:+: body)
    (hc : ¬ (c = '*' ∧ body.head? = some '/')) : ¬ commentEnd <:+: c :: body := by
  rw [List.infix_cons_iff, not_or]
  refine ⟨?_, h⟩
  rintro ⟨after, hafter⟩
  obtain ⟨rfl, rfl⟩ := List.cons.inj hafter
  exact hc ⟨rfl, rfl⟩

theorem splitGap_continues (g : Gap) (cs : List Char) : Continues (splitGap g cs).2 g (splitGap g cs).1 := by
  fun_induction splitGap g cs with
  | case1 g =>
      cases g with
      | blank => exact .done
      | lineComment => exact ⟨[], [], rfl, List.not_mem_nil, by simp, .done⟩
      | blockComment => exact .inr ⟨rfl, by decide⟩
  | case2 c h => exact .blank h .done
  | case3 c h => exact .done
  | case4 c d cs h gap rest hsplit ih =>
      rw [hsplit] at ih
      exact .blank h ih
  | case5 c d cs h hline gap rest hsplit ih =>
      obtain ⟨rfl, rfl⟩ := hline
      rw [hsplit] at ih
      obtain ⟨body, more, rfl, hbody, hends, hmore⟩ := ih
      exact .lineComment hbody hends hmore
  | case6 c d cs h _ hblock gap rest hsplit ih =>
      obtain ⟨rfl, rfl⟩ := hblock
      rw [hsplit] at ih
      obtain ⟨body, more, rfl, hbody, hmore⟩ | ⟨hlast, hbody⟩ := ih
      · exact .blockComment hbody hmore
      · exact .openComment hbody hlast
  | case7 c d cs _ _ _ => exact .done
  | case8 c cs gap rest hsplit ih =>
      rw [hsplit] at ih
      split at ih
      · rename_i hc
        rw [hc]
        exact ⟨[], '\n' :: gap, rfl, List.not_mem_nil, by simp, .blank (by decide) ih⟩
      · rename_i hc
        obtain ⟨body, more, rfl, hbody, hends, hmore⟩ := ih
        refine ⟨c :: body, more, rfl, ?_, hends, hmore⟩
        rw [List.mem_cons, not_or]
        exact ⟨Ne.symm hc, hbody⟩
  | case9 c => exact .inr ⟨rfl, not_commentEnd_cons (by decide) (by simp)⟩
  | case10 c d cs hclose gap rest hsplit ih =>
      obtain ⟨rfl, rfl⟩ := hclose
      rw [hsplit] at ih
      exact .inl ⟨[], gap, rfl, by decide, ih⟩
  | case11 c d cs hclose gap rest hsplit ih =>
      have hnext := splitGap_append .blockComment (d :: cs)
      rw [hsplit] at ih hnext
      -- the mark may not be made of `c` and what follows it
      have hcons {body tail : List Char} (hbody : ¬ commentEnd <:+: body) (hd : body ++ tail = d :: cs) :
          ¬ commentEnd <:+: c :: body := by
        refine not_commentEnd_cons hbody ?_
        rintro ⟨hc, hhead⟩
        cases body with
        | nil => cases hhead
        | cons e body =>
            rw [(List.cons.inj hd).1] at hhead
            exact hclose ⟨hc, Option.some.inj hhead⟩
      obtain ⟨body, more, rfl, hbody, hmore⟩ | ⟨hlast, hbody⟩ := ih
      · rw [List.append_assoc] at hnext
        exact .inl ⟨c :: body, more, rfl, hcons hbody hnext, hmore⟩
      · exact .inr ⟨hlast, hcons hbody hnext⟩

theorem startsGap_singleton (c : Char) : StartsGap [c] ↔ Text.isBlank c = true := by
  simp [StartsGap]

theorem startsGap_cons_cons (c d : Char) (cs : List Char) : StartsGap (c :: d :: cs) ↔
    Text.isBlank c = true ∨ (c = '/' ∧ d = '/') ∨ (c = '/' ∧ d = '*') := by
  simp [StartsGap, @eq_comm _ '/', @eq_comm _ '*']

theorem not_startsGap_of_splitGap {g : Gap} {cs rest : List Char} {c : Char}
    (h : (splitGap g cs).2 = c :: rest) : ¬ StartsGap (c :: rest) := by
  fun_induction splitGap g cs with
  | case3 d hblank =>
      cases h
      rwa [startsGap_singleton]
  | case7 d e cs hblank hline hblock =>
      cases h
      rw [startsGap_cons_cons, not_or, not_or]
      exact ⟨hblank, hline, hblock⟩
  | _ => simp_all

theorem splitGap_of_not_startsGap {cs : List Char} (h : ¬ StartsGap cs) : splitGap .blank cs = ([], cs) := by
  rcases cs with _ | ⟨c, _ | ⟨d, cs⟩⟩
  · rfl
  · rw [startsGap_singleton] at h
    rw [splitGap, if_neg h]
  · rw [startsGap_cons_cons, not_or, not_or] at h
    rw [splitGap, if_neg h.1, if_neg h.2.1, if_neg h.2.2]

theorem splitGap_lineComment {body cs : List Char} (sameLine : '\n' ∉ body) (ends : ∀ c ∈ cs.head?, c = '\n') :
    splitGap .lineComment (body ++ cs) = (body ++ (splitGap .blank cs).1, (splitGap .blank cs).2) := by
  induction body with
  | nil =>
      cases cs with
      | nil => rfl
      | cons c cs =>
          obtain rfl : c = '\n' := ends c rfl
          rw [List.nil_append, splitGap_of_isBlank (by decide), splitGap]
          rfl
  | cons c body ih =>
      rw [List.mem_cons, not_or] at sameLine
      rw [List.cons_append, splitGap, if_neg (Ne.symm sameLine.1), ih sameLine.2]
      rfl

/-- A character that does not close the comment, also not together with what comes next. -/
theorem splitGap_blockComment_cons {c : Char} {body : List Char} (unclosed : ¬ commentEnd <:+: c :: body)
    {cs : List Char} (hcs : cs.head? ≠ some '/') :
    splitGap .blockComment (c :: (body ++ cs)) =
      (c :: (splitGap .blockComment (body ++ cs)).1, (splitGap .blockComment (body ++ cs)).2) := by
  cases h : body ++ cs with
  | nil => rfl
  | cons d rest =>
      have hopen : ¬ (c = '*' ∧ d = '/') := by
        rintro ⟨rfl, rfl⟩
        cases body with
        | nil =>
            rw [List.nil_append] at h
            exact hcs (congrArg List.head? h)
        | cons e body =>
            obtain ⟨rfl, -⟩ := List.cons.inj h
            exact unclosed (List.prefix_append commentEnd body).isInfix
      rw [splitGap, if_neg hopen]

theorem splitGap_blockComment {body : List Char} (unclosed : ¬ commentEnd <:+: body) (cs : List Char) :
    splitGap .blockComment (body ++ (commentEnd ++ cs)) =
      (body ++ (commentEnd ++ (splitGap .blank cs).1), (splitGap .blank cs).2) := by
  induction body with
  | nil =>
      rw [List.nil_append, commentEnd, List.cons_append, List.cons_append, splitGap, if_pos ⟨rfl, rfl⟩]
      rfl
  | cons c body ih =>
      have hbody : ¬ commentEnd <:+: body := fun h => unclosed (List.infix_cons h)
      have hstar : (commentEnd ++ cs).head? ≠ some '/' := by simp [commentEnd]
      rw [List.cons_append, splitGap_blockComment_cons unclosed hstar, ih hbody]
      rfl

theorem splitGap_openComment {body : List Char} (unclosed : ¬ commentEnd <:+: body) :
    splitGap .blockComment body = (body, []) := by
  induction body with
  | nil => rfl
  | cons c body ih =>
      have hbody : ¬ commentEnd <:+: body := fun h => unclosed (List.infix_cons h)
      rw [← List.append_nil (c :: body), List.cons_append, splitGap_blockComment_cons unclosed (by decide),
        List.append_nil, ih hbody]

theorem IsGap.splitGap_eq {gap rest : List Char} (h : IsGap rest gap) (hrest : ¬ StartsGap rest) :
    splitGap .blank (gap ++ rest) = (gap, rest) := by
  induction h with
  | done => exact splitGap_of_not_startsGap hrest
  | blank isBlank more ih =>
      rw [List.cons_append, splitGap_of_isBlank isBlank, ih]
  | lineComment sameLine ends more ih =>
      rw [List.cons_append, List.cons_append, List.append_assoc, splitGap, if_neg (by decide), if_pos ⟨rfl, rfl⟩,
        splitGap_lineComment sameLine ends, ih]
  | blockComment unclosed more ih =>
      rw [List.cons_append, List.cons_append, List.append_assoc, List.append_assoc, splitGap, if_neg (by decide),
        if_neg (by decide), if_pos ⟨rfl, rfl⟩,
        splitGap_blockComment unclosed, ih]
  | openComment unclosed last =>
      rw [last, List.append_nil, splitGap, if_neg (by decide), if_neg (by decide), if_pos ⟨rfl, rfl⟩,
        splitGap_openComment unclosed]

/-! ### Lexemes -/

/-- What stands behind an opening quote, in front of `after`: all up to the closing one or the end of the line or of
the text. A backslash takes the character behind it along. -/
inductive IsQuoted (quote : Char) (after : List Char) : List Char → Prop
  | closed : IsQuoted quote after [quote]
  | broken : IsQuoted quote after ['\n']
  | ended (last : after = []) : IsQuoted quote after []
  | hanging (last : after = []) : IsQuoted quote after ['\\']
  | escape {c : Char} {body : List Char} (more : IsQuoted quote after body) :
      IsQuoted quote after ('\\' :: c :: body)
  | char {c : Char} {body : List Char} (goesOn : c ≠ '\\' ∧ c ≠ quote ∧ c ≠ '\n')
      (more : IsQuoted quote after body) : IsQuoted quote after (c :: body)

/-- What a token of each kind is written with in front of `after`. Words and numbers go on as long as they can, and
the `@` in front of a word is not part of it. -/
inductive Written (after : List Char) : Kind → List Char → Prop
  | word {c : Char} {body : List Char} (starts : startsWord c = true) (chars : body.all Text.isWordChar = true)
      (ends : after.head?.any Text.isWordChar = false) :
      Written after (.word (.ofList (if c = '@' then body else c :: body))) (c :: body)
  | quoted {quote : Char} {body : List Char} (starts : isQuote quote = true) (more : IsQuoted quote after body) :
      Written after .literal (quote :: body)
  | number {c : Char} {body : List Char} (starts : c.isDigit = true) (chars : body.all isNumberChar = true)
      (ends : after.head?.any isNumberChar = false) : Written after .literal (c :: body)
  | mark {c : Char} (other : startsWord c = false ∧ isQuote c = false ∧ c.isDigit = false) :
      Written after (.mark c) [c]

theorem splitQuoted_isQuoted (quote : Char) (cs : List Char) :
    IsQuoted quote (splitQuoted quote cs).2 (splitQuoted quote cs).1 := by
  fun_induction splitQuoted quote cs with
  | case1 => exact .ended rfl
  | case2 c cs body rest hsplit ih =>
      rw [hsplit] at ih
      exact .escape ih
  | case3 cs hnext =>
      cases cs with
      | nil => exact .hanging rfl
      | cons c cs => exact (hnext c cs rfl rfl).elim
  | case4 c cs _ _ hend =>
      rw [Bool.or_eq_true, decide_eq_true_eq, decide_eq_true_eq] at hend
      obtain rfl | rfl := hend
      · exact .closed
      · exact .broken
  | case5 c cs _ hslash hend body rest hsplit ih =>
      rw [Bool.or_eq_true, decide_eq_true_eq, decide_eq_true_eq, not_or] at hend
      rw [hsplit] at ih
      exact .char ⟨hslash, hend⟩ ih

theorem IsQuoted.splitQuoted_eq {quote : Char} {after body : List Char} (h : IsQuoted quote after body)
    (hquote : quote ≠ '\\') : splitQuoted quote (body ++ after) = (body, after) := by
  have single {c : Char} (hc : c ≠ '\\') (hend : c = quote ∨ c = '\n') :
      splitQuoted quote ([c] ++ after) = ([c], after) := by
    rw [List.singleton_append, splitQuoted, if_neg hc, if_pos (by simpa using hend)]
    exact fun d cs heq => absurd heq hc
  induction h with
  | closed => exact single hquote (.inl rfl)
  | broken => exact single (by decide) (.inr rfl)
  | ended last | hanging last =>
      rw [last]
      rfl
  | escape more ih => rw [List.cons_append, List.cons_append, splitQuoted, ih]
  | char goesOn more ih =>
      rw [List.cons_append, splitQuoted, if_neg goesOn.1, if_neg (by simpa using goesOn.2), ih]
      exact fun d cs heq => absurd heq goesOn.1

theorem any_head?_dropWhile (p : Char → Bool) (cs : List Char) : (cs.dropWhile p).head?.any p = false := by
  cases hdrop : cs.dropWhile p with
  | nil => rfl
  | cons c rest =>
      have hhead := List.head?_dropWhile_not p cs
      rw [hdrop] at hhead
      exact hhead

theorem splitLexeme_written (c : Char) (cs : List Char) :
    Written (splitLexeme c cs).2 (kindOf c (splitLexeme c cs).1) (c :: (splitLexeme c cs).1) := by
  rw [splitLexeme, kindOf]
  by_cases hword : startsWord c = true
  · simp only [if_pos hword]
    exact .word hword List.all_takeWhile (any_head?_dropWhile _ _)
  by_cases hquote : isQuote c = true
  · simp only [if_neg hword, hquote, if_true, Bool.true_or]
    exact .quoted hquote (splitQuoted_isQuoted c cs)
  by_cases hdigit : c.isDigit = true
  · simp only [if_neg hword, if_neg hquote, hdigit, if_true, Bool.or_true]
    exact .number hdigit List.all_takeWhile (any_head?_dropWhile _ _)
  · simp only [Bool.not_eq_true] at hword hquote hdigit
    simp only [hword, hquote, hdigit, Bool.false_eq_true, if_false, Bool.or_false]
    exact .mark ⟨hword, hquote, hdigit⟩

theorem isQuote_iff {c : Char} : isQuote c = true ↔ c = '"' ∨ c = '\'' := by
  rw [isQuote, Bool.or_eq_true, beq_iff_eq, beq_iff_eq]

theorem startsWord_of_isDigit {c : Char} (h : c.isDigit = true) : startsWord c = false ∧ isQuote c = false := by
  have code : c.toNat ∈ List.range' 48 10 := by
    simp only [Char.isDigit, Bool.and_eq_true, decide_eq_true_eq] at h
    rw [List.mem_range'_1]
    exact ⟨h.1, Nat.lt_succ_of_le h.2⟩
  have none : ∀ n ∈ List.range' 48 10, startsWord (Char.ofNat n) = false ∧ isQuote (Char.ofNat n) = false := by
    decide +kernel
  have hc := none _ code
  rwa [Char.ofNat_toNat] at hc

theorem Written.splitLexeme_eq {after lexeme : List Char} {k : Kind} (h : Written after k lexeme) :
    ∃ c body, lexeme = c :: body ∧ splitLexeme c (body ++ after) = (body, after) ∧ kindOf c body = k := by
  cases h with
  | @word c body starts chars ends =>
      refine ⟨c, body, rfl, ?_, ?_⟩
      · rw [splitLexeme, if_pos starts, splitWhile_append chars ends]
      · rw [kindOf, if_pos starts]
  | @quoted quote body starts more =>
      have hword : startsWord quote = false ∧ quote ≠ '\\' := by
        obtain rfl | rfl := isQuote_iff.1 starts
        · decide
        · decide
      refine ⟨quote, body, rfl, ?_, ?_⟩
      · rw [splitLexeme, hword.1, starts]
        exact more.splitQuoted_eq hword.2
      · rw [kindOf, hword.1, starts]
        rfl
  | @number c body starts chars ends =>
      obtain ⟨hword, hquote⟩ := startsWord_of_isDigit starts
      refine ⟨c, body, rfl, ?_, ?_⟩
      · rw [splitLexeme, hword, hquote, starts]
        exact splitWhile_append chars ends
      · rw [kindOf, hword, hquote, starts]
        rfl
  | @mark c other =>
      obtain ⟨hword, hquote, hdigit⟩ := other
      refine ⟨c, [], rfl, ?_, ?_⟩
      · rw [splitLexeme, hword, hquote, hdigit]
        rfl
      · rw [kindOf, hword, hquote, hdigit]
        rfl

/-! ### Texts -/

/-- The token was read of `lexeme`, which stands between `before` and `after` where a gap is over. -/
structure ReadOf (before lexeme after : List Char) (t : Token) : Prop where
  written : Written after t.kind lexeme
  length : t.length = lexeme.length
  line : t.start.line = before.count '\n'
  column : t.start.column = (before.reverse.takeWhile (· ≠ '\n')).length
  gapOver : ¬ StartsGap (lexeme ++ after)

theorem ReadOf.start_eq {before lexeme after : List Char} {t : Token} (h : t.ReadOf before lexeme after) :
    t.start = Position.origin.advance before :=
  congrArg₂ Position.mk (h.line.trans (Position.line_advance_origin before).symm)
    (h.column.trans (Position.column_advance_origin before).symm)

/-- What stands behind `before` is cut into gaps and these tokens. -/
inductive Cut : List Char → List Token → List Char → Prop
  | last {before gap : List Char} (isGap : IsGap [] gap) : Cut before [] gap
  | token {before gap lexeme after : List Char} {t : Token} {ts : List Token}
      (isGap : IsGap (lexeme ++ after) gap) (read : t.ReadOf (before ++ gap) lexeme after)
      (more : Cut (before ++ gap ++ lexeme) ts after) : Cut before (t :: ts) (gap ++ (lexeme ++ after))

theorem cut_tokensFrom (p : Position) (cs : List Char) :
    ∀ before, p = Position.origin.advance before → Cut before (tokensFrom p cs) cs := by
  induction p, cs using tokensFrom.induct with
  | case1 p cs h =>
      intro before _
      have hgap := splitGap_continues .blank cs
      have hall := splitGap_append .blank cs
      rw [h] at hgap hall
      rw [List.append_nil] at hall
      rw [hall] at hgap
      rw [tokensFrom_nil_of_splitGap h]
      exact .last hgap
  | case2 p cs c rest h start body ih =>
      intro before hp
      have hrest : body ++ (splitLexeme c rest).2 = rest := splitLexeme_append c rest
      have hcs : (splitGap .blank cs).1 ++ (c :: body ++ (splitLexeme c rest).2) = cs := by
        rw [List.cons_append, hrest, ← h, splitGap_append]
      have hstart : start = Position.origin.advance (before ++ (splitGap .blank cs).1) := by
        rw [Position.advance_append, ← hp]
      have hgap : IsGap (c :: body ++ (splitLexeme c rest).2) (splitGap .blank cs).1 := by
        have hgap := splitGap_continues .blank cs
        rw [h] at hgap
        rwa [List.cons_append, hrest]
      have hread : ReadOf (before ++ (splitGap .blank cs).1) (c :: body) (splitLexeme c rest).2
          ⟨kindOf c body, start, body.length + 1⟩ := {
        written := splitLexeme_written c rest
        length := rfl
        line := by rw [hstart, Position.line_advance_origin]
        column := by rw [hstart, Position.column_advance_origin]
        gapOver := by
          rw [List.cons_append, hrest]
          exact not_startsGap_of_splitGap h }
      have hmore := ih (before ++ (splitGap .blank cs).1 ++ (c :: body))
        (by rw [Position.advance_append, ← hstart])
      have hcut := Cut.token hgap hread hmore
      rw [hcs] at hcut
      rw [tokensFrom_cons_of_splitGap h]
      exact hcut

theorem Cut.eq_tokensFrom {before cs : List Char} {ts : List Token} (h : Cut before ts cs) :
    ts = tokensFrom (Position.origin.advance before) cs := by
  induction h with
  | @last before gap isGap =>
      have hgap := isGap.splitGap_eq (by simp [StartsGap])
      rw [List.append_nil] at hgap
      rw [tokensFrom_nil_of_splitGap (by rw [hgap])]
  | @token before gap lexeme after t ts isGap read more ih =>
      obtain ⟨c, body, rfl, hlexeme, hkind⟩ := read.written.splitLexeme_eq
      have hgap : splitGap .blank (gap ++ (c :: body ++ after)) = (gap, c :: (body ++ after)) :=
        isGap.splitGap_eq read.gapOver
      have htoken : t = ⟨kindOf c body, (Position.origin.advance before).advance gap, body.length + 1⟩ := by
        rw [hkind, ← Position.advance_append, ← read.start_eq]
        exact congrArg (Token.mk t.kind t.start) read.length
      rw [tokensFrom_cons_of_splitGap (by rw [hgap]), hgap, hlexeme, ih, ← htoken, Position.advance_append,
        Position.advance_append]

/-- A text is cut into gaps and its tokens in turn, and there is no other way to cut it. -/
theorem tokens_partition (text : String) :
    Cut [] (tokens text) text.toList ∧ ∀ ts, Cut [] ts text.toList → ts = tokens text :=
  ⟨cut_tokensFrom .origin text.toList [] rfl, fun _ h => h.eq_tokensFrom⟩

end Token

end GeneratorBench
