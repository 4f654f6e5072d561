import GeneratorBench.Syntax.Parser

/-!
The moves of the reader. What a step can do is said here once; what it preserves follows case by case, and a run
preserves it too.
-/

namespace GeneratorBench

namespace Parser

/-- The innermost open brace is not that of a type. -/
def State.AtMembers (s : State) : Prop :=
  ∀ type depth sawStatic outer, s.frames ≠ .body type depth sawStatic :: outer

inductive Move (s : State) : State → Prop
  | done (hrest : s.cursor.rest = []) (hf : s.frames = []) : Move s s
  | giveUpBlock {visible : Nat} {frames : List Frame} (hrest : s.cursor.rest = [])
      (hf : s.frames = .block visible :: frames) :
      Move s { (s.report .closingBraceExpected s.cursor.here).leave visible with frames }
  | giveUpBody {type : String} {depth : Nat} {sawStatic : Bool} {frames : List Frame} (hrest : s.cursor.rest = [])
      (hf : s.frames = .body type depth sawStatic :: frames) :
      Move s { s.report .closingBraceExpected s.cursor.here with frames }
  | closeBlock {t : Token} {rest : List Token} {visible : Nat} {frames : List Frame}
      (hr : s.cursor.rest = t :: rest) (hf : s.frames = .block visible :: frames) :
      Move s { (s.moveTo s.cursor.next).leave visible with frames }
  | stray {t : Token} {rest : List Token} (hr : s.cursor.rest = t :: rest) (members : s.AtMembers) :
      Move s ((s.moveTo s.cursor.next).report .memberExpected t.span)
  | directive {t : Token} {rest : List Token} (hr : s.cursor.rest = t :: rest) (members : s.AtMembers) :
      Move s (usingDirective (s.moveTo s.cursor.next))
  | scope {t : Token} {rest : List Token} (hr : s.cursor.rest = t :: rest) (members : s.AtMembers) :
      Move s (namespaceHead (s.moveTo s.cursor.next))
  | semicolon {t : Token} {rest : List Token} (hr : s.cursor.rest = t :: rest) (members : s.AtMembers) :
      Move s (s.moveTo s.cursor.next)
  | attributes (hmark : s.cursor.atMark '[' = true) (members : s.AtMembers) :
      Move s (s.moveTo (s.cursor.skipGroup '[' ']'))
  | type {start : Cursor.TypeStart} (hstart : s.cursor.typeStart? = some start) (members : s.AtMembers) :
      Move s (typeFrom none start s)
  | inBody {t : Token} {rest : List Token} {type : String} {depth : Nat} {sawStatic : Bool} {outer : List Frame}
      (hr : s.cursor.rest = t :: rest) (hf : s.frames = .body type depth sawStatic :: outer) (depth' : Nat)
      (sawStatic' hasMain : Bool) :
      Move s { s.moveTo s.cursor.next with
        frames := .body type depth' sawStatic' :: outer
        skeleton := { s.skeleton with hasMain } }
  | closeBody {t : Token} {rest : List Token} {type : String} {depth : Nat} {sawStatic : Bool} {outer : List Frame}
      (hr : s.cursor.rest = t :: rest) (hf : s.frames = .body type depth sawStatic :: outer) :
      Move s { s.moveTo s.cursor.next with frames := outer }
  /-- The modifiers in front of the keyword are read again, which leads to the place behind it. -/
  | nested {keyword : Token} {rest : List Token} {type : String} {depth : Nat} {sawStatic : Bool}
      {outer : List Frame} (hr : s.cursor.rest = keyword :: rest)
      (hf : s.frames = .body type depth sawStatic :: outer) (hkeyword : Cursor.isTypeKeyword keyword = true)
      (isPartial : Bool) :
      Move s (typeFrom (some type) ⟨isPartial, keyword, ⟨keyword :: s.cursor.before, rest⟩⟩
        { s with frames := .body type depth false :: outer })

variable {s : State}

theorem closeFrame_move (hrest : s.cursor.rest = []) : Move s (closeFrame s) := by
  rw [closeFrame]
  split
  · rename_i hf
    exact .done hrest hf
  · rename_i hf
    exact .giveUpBlock hrest hf
  · rename_i hf
    exact .giveUpBody hrest hf

theorem memberStep_move (members : s.AtMembers) {t : Token} {rest : List Token} (hr : s.cursor.rest = t :: rest) :
    Move s (memberStep s t) := by
  rw [memberStep]
  dsimp only
  split
  · split
    · rename_i hf
      exact .closeBlock hr hf
    · exact .stray hr members
  · repeat' split
    · exact .directive hr members
    · exact .scope hr members
    · exact .semicolon hr members
    · rename_i hmark
      exact .attributes (by simpa [Cursor.atMark, hr] using hmark) members
    · rename_i hstart
      exact .type hstart members
    · exact .stray hr members

theorem bodyStep_move {type : String} {depth : Nat} {sawStatic : Bool} {outer : List Frame}
    (hf : s.frames = .body type depth sawStatic :: outer) {t : Token} {rest : List Token}
    (hr : s.cursor.rest = t :: rest) : Move s (bodyStep s type depth sawStatic outer t) := by
  rw [bodyStep]
  dsimp only
  repeat' split
  all_goals try exact .inBody hr hf _ _ _
  · exact .closeBody hr hf
  · rename_i hkeyword _ start hstart
    rw [Bool.and_eq_true, Bool.and_eq_true] at hkeyword
    rw [Cursor.typeStart?_rewindModifiers hr hkeyword.1.2, Option.some.injEq] at hstart
    subst hstart
    exact .nested hr hf hkeyword.1.2 _

theorem step_move (s : State) : Move s (step s) := by
  rw [step]
  split
  · rename_i hrest
    exact closeFrame_move hrest
  · rename_i hr
    split
    · rename_i hf
      exact bodyStep_move hf hr
    · rename_i members
      exact memberStep_move members hr

/-- What each step preserves, a run does. -/
theorem run_preserves {P : State → Prop} (hstep : ∀ s, P s → P (step s)) (h : P s) : P (run s) := by
  induction s using run.induct with
  | case1 s hdone => rwa [run, dif_pos hdone]
  | case2 s hdone ih =>
      rw [run, dif_neg hdone]
      exact ih (hstep s h)

end Parser

end GeneratorBench
