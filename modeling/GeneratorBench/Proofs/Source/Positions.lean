import GeneratorBench.Proofs.Source.Header

/-!
The positions of a text are where its characters stand, and where it ends. A token starts at one; it stops at
one exactly if it does not run over the end of its line, which only a quoted literal can.
-/

namespace GeneratorBench

namespace Position

instance : LE Position := ⟨fun p q => p.line < q.line ∨ p.line = q.line ∧ p.column ≤ q.column⟩

theorem le_def {p q : Position} : p ≤ q ↔ p.line < q.line ∨ p.line = q.line ∧ p.column ≤ q.column := Iff.rfl

theorem le_refl (p : Position) : p ≤ p := .inr ⟨rfl, Nat.le_refl _⟩

theorem le_trans {p q r : Position} (h : p ≤ q) (h' : q ≤ r) : p ≤ r := by
  rw [le_def] at *
  omega

theorem le_right (p : Position) (n : Nat) : p ≤ p.right n := .inr ⟨rfl, Nat.le_add_right _ _⟩

theorem le_after (p : Position) (c : Char) : p ≤ p.after c := by
  rw [after]
  split
  · exact .inl (Nat.lt_succ_self _)
  · exact p.le_right 1

theorem le_advance (p : Position) (cs : List Char) : p ≤ p.advance cs := by
  induction cs generalizing p with
  | nil => exact p.le_refl
  | cons c cs ih => exact le_trans (p.le_after c) (ih _)

instance : LT Position := ⟨fun p q => p.line < q.line ∨ p.line = q.line ∧ p.column < q.column⟩

theorem lt_def {p q : Position} : p < q ↔ p.line < q.line ∨ p.line = q.line ∧ p.column < q.column := Iff.rfl

theorem lt_irrefl (p : Position) : ¬ p < p := by
  rw [lt_def]
  omega

theorem le_of_lt {p q : Position} (h : p < q) : p ≤ q := by
  rw [lt_def] at h
  rw [le_def]
  omega

theorem lt_of_lt_of_le {p q r : Position} (h : p < q) (h' : q ≤ r) : p < r := by
  rw [lt_def] at *
  rw [le_def] at h'
  omega

theorem lt_after (p : Position) (c : Char) : p < p.after c := by
  rw [after]
  split
  · exact .inl (Nat.lt_succ_self _)
  · exact .inr ⟨rfl, Nat.lt_succ_self _⟩

theorem lt_advance_cons (p : Position) (c : Char) (cs : List Char) : p < p.advance (c :: cs) :=
  lt_of_lt_of_le (p.lt_after c) (le_advance _ cs)

/-- `p` is a position of the text: it has that many lines, and the line that many characters. -/
def Inside (cs : List Char) (p : Position) : Prop :=
  ∃ line, (Text.fields (· == '\n') cs)[p.line]? = some line ∧ p.column ≤ line.length

def push (p : Position) : Position := if p.line = 0 then p.right 1 else p

theorem after_push (p : Position) (c : Char) : p.push.after c = (p.after c).push := by
  obtain ⟨line, column⟩ := p
  cases line with
  | zero =>
      by_cases h : c = '\n'
      · simp [push, after, right, h]
      · simp [push, after, right, h]
  | succ line =>
      by_cases h : c = '\n'
      · simp [push, after, h]
      · simp [push, after, h]

theorem advance_push (p : Position) (cs : List Char) : p.push.advance cs = (p.advance cs).push := by
  induction cs generalizing p with
  | nil => rfl
  | cons c cs ih => rw [advance_cons, advance_cons, after_push, ih]

def behind (c : Char) (p : Position) : Position := if c = '\n' then p.down 1 else p.push

theorem advance_origin_cons (c : Char) (cs : List Char) :
    origin.advance (c :: cs) = (origin.advance cs).behind c := by
  rw [advance_cons, behind]
  split
  · rename_i hc
    rw [hc, ← advance_down]
    rfl
  · rename_i hc
    rw [after_of_ne hc, ← advance_push]
    rfl

theorem inside_nil {p : Position} : Inside [] p ↔ p = origin := by
  obtain ⟨line, column⟩ := p
  cases line with
  | zero => simp [Inside, Text.fields, origin]
  | succ line => simp [Inside, Text.fields, origin]

theorem inside_newline_cons {cs : List Char} {p : Position} :
    Inside ('\n' :: cs) p ↔ p = origin ∨ ∃ q, Inside cs q ∧ p = q.down 1 := by
  obtain ⟨line, column⟩ := p
  have hfields : Text.fields (· == '\n') ('\n' :: cs) = [] :: Text.fields (· == '\n') cs := rfl
  cases line with
  | zero =>
      rw [Inside, hfields]
      constructor
      · rintro ⟨line, hline, hcolumn⟩
        cases hline
        obtain rfl : column = 0 := Nat.le_zero.1 hcolumn
        exact .inl rfl
      · rintro (h | ⟨q, -, h⟩)
        · cases h
          exact ⟨[], rfl, Nat.le_refl _⟩
        · cases h
  | succ line =>
      rw [Inside, hfields]
      constructor
      · intro h
        exact .inr ⟨⟨line, column⟩, h, rfl⟩
      · rintro (h | ⟨q, hq, h⟩)
        · cases h
        · cases h
          exact hq

theorem inside_cons_of_ne {c : Char} (hc : c ≠ '\n') {cs : List Char} {p : Position} :
    Inside (c :: cs) p ↔ p = origin ∨ ∃ q, Inside cs q ∧ p = q.push := by
  obtain ⟨line, column⟩ := p
  obtain ⟨first, lines, hcs⟩ := List.exists_cons_of_ne_nil (Text.fields_ne_nil (· == '\n') cs)
  have hfields : Text.fields (· == '\n') (c :: cs) = (c :: first) :: lines := by
    simp [Text.fields, hc, hcs]
  cases line with
  | zero =>
      rw [Inside, hfields]
      constructor
      · rintro ⟨line, hline, hcolumn⟩
        cases hline
        cases column with
        | zero => exact .inl rfl
        | succ column =>
            refine .inr ⟨⟨0, column⟩, ⟨first, ?_, Nat.le_of_succ_le_succ hcolumn⟩, rfl⟩
            rw [hcs]
            rfl
      · rintro (h | ⟨⟨line, column⟩, ⟨l, hline, hcolumn⟩, h⟩)
        · cases h
          exact ⟨c :: first, rfl, Nat.zero_le _⟩
        · cases line with
          | zero =>
              cases h
              rw [hcs] at hline
              cases hline
              exact ⟨c :: first, rfl, Nat.succ_le_succ hcolumn⟩
          | succ line => cases h
  | succ line =>
      have hsame : Inside (c :: cs) ⟨line + 1, column⟩ ↔ Inside cs ⟨line + 1, column⟩ := by
        rw [Inside, Inside, hfields, hcs]
        rfl
      rw [hsame]
      constructor
      · intro h
        exact .inr ⟨_, h, rfl⟩
      · rintro (h | ⟨⟨line', column'⟩, hq, h⟩)
        · cases h
        · cases line' with
          | zero => cases h
          | succ line' =>
              cases h
              exact hq

theorem inside_cons {c : Char} {cs : List Char} {p : Position} :
    Inside (c :: cs) p ↔ p = origin ∨ ∃ q, Inside cs q ∧ p = q.behind c := by
  by_cases hc : c = '\n'
  · subst hc
    exact inside_newline_cons
  · simp only [behind, if_neg hc]
    exact inside_cons_of_ne hc

/-- The positions of a text are those that reading on from its start leads to. -/
theorem inside_iff {cs : List Char} {p : Position} :
    Inside cs p ↔ ∃ pre post, cs = pre ++ post ∧ p = origin.advance pre := by
  induction cs generalizing p with
  | nil =>
      rw [inside_nil]
      constructor
      · rintro rfl
        exact ⟨[], [], rfl, rfl⟩
      · rintro ⟨pre, post, h, rfl⟩
        rw [(List.append_eq_nil_iff.1 h.symm).1]
        rfl
  | cons c cs ih =>
      rw [inside_cons]
      constructor
      · rintro (rfl | ⟨q, hq, rfl⟩)
        · exact ⟨[], c :: cs, rfl, rfl⟩
        · obtain ⟨pre, post, rfl, rfl⟩ := ih.1 hq
          exact ⟨c :: pre, post, rfl, (advance_origin_cons c pre).symm⟩
      · rintro ⟨pre, post, h, rfl⟩
        cases pre with
        | nil => exact .inl rfl
        | cons d pre =>
            cases h
            exact .inr ⟨_, ih.2 ⟨pre, post, rfl, rfl⟩, advance_origin_cons c pre⟩

end Position

namespace Token

theorem start_le_of_mem {p : Position} {cs : List Char} {t : Token} (ht : t ∈ tokensFrom p cs) :
    p ≤ t.start := by
  induction p, cs using tokensFrom.induct with
  | case1 p cs h =>
      rw [tokensFrom_nil_of_splitGap h] at ht
      cases ht
  | case2 p cs c rest h start body ih =>
      rw [tokensFrom_cons_of_splitGap h] at ht
      have hstart : p ≤ start := p.le_advance _
      obtain rfl | ht := List.mem_cons.1 ht
      · exact hstart
      · exact Position.le_trans hstart (Position.le_trans (start.le_advance _) (ih ht))

theorem tokensFrom_pairwise_lt (p : Position) (cs : List Char) :
    (tokensFrom p cs).Pairwise fun t u => t.start < u.start := by
  induction p, cs using tokensFrom.induct with
  | case1 p cs h =>
      rw [tokensFrom_nil_of_splitGap h]
      exact .nil
  | case2 p cs c rest h start body ih =>
      rw [tokensFrom_cons_of_splitGap h]
      refine .cons ?_ ih
      intro u hu
      exact Position.lt_of_lt_of_le (start.lt_advance_cons c body) (start_le_of_mem hu)

theorem tokensFrom_sorted (p : Position) (cs : List Char) :
    (tokensFrom p cs).Pairwise fun t u => t.start ≤ u.start :=
  (tokensFrom_pairwise_lt p cs).imp Position.le_of_lt

def Covers (cs : List Char) (t : Token) (lexeme : List Char) : Prop :=
  ∃ pre post, cs = pre ++ (lexeme ++ post) ∧ t.start = Position.origin.advance pre ∧
    t.length = lexeme.length

/-- The token runs over the end of its line. -/
def Overruns (cs : List Char) (t : Token) : Prop := ∃ lexeme, t.Covers cs lexeme ∧ '\n' ∈ lexeme

theorem Covers.inside_start {cs lexeme : List Char} {t : Token} (h : t.Covers cs lexeme) :
    t.start.Inside cs := by
  obtain ⟨pre, post, hcs, hstart, -⟩ := h
  exact Position.inside_iff.2 ⟨pre, lexeme ++ post, hcs, hstart⟩

theorem Covers.stop_eq {cs lexeme : List Char} {t : Token} (h : t.Covers cs lexeme) :
    t.stop = t.start.right lexeme.length := by
  obtain ⟨-, -, -, -, hlength⟩ := h
  rw [← hlength]
  rfl

/-- A token stops at a position of its text exactly if it does not run over the end of its line. -/
theorem Covers.inside_stop_iff {cs lexeme : List Char} {t : Token} (h : t.Covers cs lexeme) :
    t.stop.Inside cs ↔ '\n' ∉ lexeme := by
  have hstop := h.stop_eq
  obtain ⟨pre, post, rfl, hstart, -⟩ := h
  constructor
  · intro hinside hmem
    obtain ⟨a, b, rfl, ha⟩ := List.eq_append_cons_of_mem hmem
    obtain ⟨read, later, hcs, hread⟩ := Position.inside_iff.1 hinside
    -- the end of the line, which the token runs over
    have hend : Position.origin.advance (pre ++ a) = t.start.right a.length := by
      rw [Position.advance_append, ← hstart, Position.advance_of_not_mem ha]
    have hpast : ¬ t.stop ≤ t.start.right a.length := by
      rw [hstop, Position.le_def]
      simp [Position.right]
    have hsplit : read ++ later = (pre ++ a) ++ ('\n' :: (b ++ post)) := by
      rw [← hcs]
      simp
    obtain ⟨more, hmore, -⟩ | ⟨more, rfl, hmore⟩ := List.append_eq_append_iff.1 hsplit
    · apply hpast
      rw [← hend, hmore, Position.advance_append, ← hread]
      exact t.stop.le_advance more
    · rw [Position.advance_append, hend] at hread
      cases more with
      | nil =>
          apply hpast
          rw [hread]
          exact Position.le_refl _
      | cons c more =>
          obtain ⟨rfl, -⟩ := List.cons_eq_cons.1 hmore
          have hnext : (⟨t.start.line + 1, 0⟩ : Position) ≤ t.stop := by
            rw [hread]
            exact Position.le_advance ((t.start.right a.length).after '\n') more
          have hline : t.stop.line = t.start.line := rfl
          obtain hnext | ⟨hnext, -⟩ := Position.le_def.1 hnext
          · exact absurd (hline ▸ hnext) (Nat.not_succ_lt_self)
          · exact absurd (hline ▸ hnext) (Nat.succ_ne_self _)
  · intro hmem
    refine Position.inside_iff.2 ⟨pre ++ lexeme, post, (List.append_assoc ..).symm, ?_⟩
    rw [hstop, Position.advance_append, ← hstart, Position.advance_of_not_mem hmem]

theorem isBlank_of_splitGap {g : Gap} {cs rest : List Char} {c : Char}
    (h : (splitGap g cs).2 = c :: rest) : Text.isBlank c = false := by
  fun_induction splitGap g cs <;> simp_all

theorem newline_not_mem_takeWhile {p : Char → Bool} (hp : p '\n' = false) (cs : List Char) :
    '\n' ∉ cs.takeWhile p := by
  intro hmem
  have hall := List.all_eq_true.1 (List.all_takeWhile (p := p) (l := cs)) _ hmem
  rw [hp] at hall
  cases hall

theorem kindOf_of_newline {c : Char} {rest : List Char} (h : '\n' ∈ (splitLexeme c rest).1) :
    kindOf c (splitLexeme c rest).1 = .literal := by
  rw [splitLexeme] at h
  split at h
  · exact absurd h (newline_not_mem_takeWhile (by decide) rest)
  · rename_i hword
    split at h
    · rename_i hquote
      rw [kindOf, if_neg hword, if_pos (by simp [hquote])]
    · split at h
      · exact absurd h (newline_not_mem_takeWhile (by decide) rest)
      · cases h

theorem exists_covers {p : Position} {cs : List Char} {t : Token} (ht : t ∈ tokensFrom p cs) :
    ∀ pre, p = Position.origin.advance pre →
      ∃ lexeme, t.Covers (pre ++ cs) lexeme ∧ ('\n' ∈ lexeme → t.kind = .literal) := by
  induction p, cs using tokensFrom.induct with
  | case1 p cs h =>
      rw [tokensFrom_nil_of_splitGap h] at ht
      cases ht
  | case2 p cs c rest h start body ih =>
      intro pre hp
      have hcs : cs = (splitGap .blank cs).1 ++ ((c :: body) ++ (splitLexeme c rest).2) := by
        have hlexeme : body ++ (splitLexeme c rest).2 = rest := splitLexeme_append c rest
        have hgap := splitGap_append .blank cs
        rw [h, ← hlexeme] at hgap
        exact hgap.symm
      have hstart : start = Position.origin.advance (pre ++ (splitGap .blank cs).1) := by
        rw [Position.advance_append, ← hp]
      rw [tokensFrom_cons_of_splitGap h] at ht
      obtain rfl | ht := List.mem_cons.1 ht
      · refine ⟨c :: body, ⟨pre ++ (splitGap .blank cs).1, (splitLexeme c rest).2, ?_, hstart, rfl⟩, ?_⟩
        · rw [List.append_assoc, ← hcs]
        · intro hmem
          obtain hc | hmem := List.mem_cons.1 hmem
          · rw [← hc] at h
            exact absurd (isBlank_of_splitGap h) (by decide)
          · exact kindOf_of_newline hmem
      · have hrest := ih ht (pre ++ (splitGap .blank cs).1 ++ (c :: body))
          (by rw [Position.advance_append, ← hstart])
        rw [List.append_assoc, List.append_assoc, ← hcs] at hrest
        exact hrest

section Text

variable {text : String} {t : Token}

theorem inside_start (ht : t ∈ tokens text) : t.start.Inside text.toList := by
  obtain ⟨lexeme, h, -⟩ := exists_covers ht [] rfl
  exact h.inside_start

theorem inside_stop_iff (ht : t ∈ tokens text) :
    t.stop.Inside text.toList ↔ ¬ t.Overruns text.toList := by
  obtain ⟨lexeme, h, -⟩ := exists_covers ht [] rfl
  constructor
  · rintro hinside ⟨other, hother, hmem⟩
    exact hother.inside_stop_iff.1 hinside hmem
  · intro hstays
    exact h.inside_stop_iff.2 fun hmem => hstays ⟨lexeme, h, hmem⟩

theorem kind_of_overruns (ht : t ∈ tokens text) (h : t.Overruns text.toList) : t.kind = .literal := by
  obtain ⟨lexeme, hcovers, hkind⟩ := exists_covers ht [] rfl
  by_cases hmem : '\n' ∈ lexeme
  · exact hkind hmem
  · exact absurd h ((inside_stop_iff ht).1 (hcovers.inside_stop_iff.2 hmem))

end Text

end Token

end GeneratorBench
