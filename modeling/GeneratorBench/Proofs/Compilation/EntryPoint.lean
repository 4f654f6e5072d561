import GeneratorBench.Proofs.Compilation.Reports
import GeneratorBench.Proofs.Syntax.Continuation
import GeneratorBench.Proofs.Syntax.Nesting

/-!
Which texts have an entry point. The word `static` in the body of a type is remembered over everything but braces,
semicolons and the start of a nested type, at whatever depth it stands. Until then `Main` with a parenthesis behind it
is taken for the entry point: in the initializer of a static member, and in a local function.
-/

namespace GeneratorBench

namespace Parser

/-! ### What is remembered -/

/-- The tokens that end or begin a member, or a block in it. -/
def isBreak (t : Token) : Bool := t.isMark '\x7b' || t.isMark '\x7d' || t.isMark ';'

def startsType (t : Token) (behind : List Token) : Bool :=
  Cursor.isTypeKeyword t && behind.head?.any (·.word?.isSome)

/-- `Main` and a parenthesis, with nothing before them that makes a body of that depth forget the word `static`. -/
inductive MainAhead (depth : Nat) : List Token → Prop
  | here {t : Token} {behind : List Token} (name : t.isWord "Main" = true)
      (call : behind.head?.any (·.isMark '(') = true) : MainAhead depth (t :: behind)
  | later {t : Token} {behind : List Token} (unbroken : isBreak t = false)
      (member : depth = 1 → startsType t behind = false) (ahead : MainAhead depth behind) :
      MainAhead depth (t :: behind)

/-- The word `static` is next, in the body of a type, and leads to `Main`. -/
def State.AtEntry (s : State) : Prop :=
  ∃ type depth sawStatic outer, s.frames = .body type depth sawStatic :: outer ∧
    s.cursor.atWord "static" = true ∧ MainAhead depth s.cursor.next.rest

/-- The word `static` is remembered, and `Main` is ahead. -/
def State.Awaits (s : State) : Prop :=
  ∃ type depth outer, s.frames = .body type depth true :: outer ∧ MainAhead depth s.cursor.rest

def Frame.remembers : Frame → Bool
  | block _ => false
  | body _ _ sawStatic => sawStatic

/-- No body that is open remembers the word. -/
def State.Forgot (s : State) : Prop := ∀ frame ∈ s.frames, frame.remembers = false

/-- At most the innermost one does. -/
def State.Tidy (s : State) : Prop := ∀ frame ∈ s.frames.tail, frame.remembers = false

variable {s u : State} {type : String} {depth : Nat} {sawStatic : Bool} {outer : List Frame} {t : Token}
  {behind : List Token}

theorem State.Forgot.tidy (h : s.Forgot) : s.Tidy := fun frame hframe => h frame (List.mem_of_mem_tail hframe)

theorem State.Forgot.not_awaits (h : s.Forgot) : ¬ s.Awaits := by
  rintro ⟨type, depth, outer, hframes, -⟩
  have hforgot := h (.body type depth true) (by rw [hframes]; exact List.mem_cons_self)
  cases hforgot

theorem State.Tidy.forgot_of_atMembers (h : s.Tidy) (hs : s.AtMembers) : s.Forgot := by
  rw [State.Tidy] at h
  rw [State.Forgot]
  cases hf : s.frames with
  | nil => exact List.forall_mem_nil _
  | cons frame frames =>
      rw [hf] at h
      refine List.forall_mem_cons.2 ⟨?_, h⟩
      cases frame with
      | block visible => rfl
      | body type depth sawStatic => exact absurd hf (hs _ _ _ _)

theorem not_mainAhead_nil : ¬ MainAhead depth [] := by
  rintro ⟨⟩

theorem mainAhead_cons : MainAhead depth (t :: behind) ↔
    (t.isWord "Main" = true ∧ behind.head?.any (·.isMark '(') = true) ∨
      (isBreak t = false ∧ (depth = 1 → startsType t behind = false) ∧ MainAhead depth behind) := by
  constructor
  · intro h
    cases h with
    | here name call => exact .inl ⟨name, call⟩
    | later unbroken member ahead => exact .inr ⟨unbroken, member, ahead⟩
  · rintro (⟨name, call⟩ | ⟨unbroken, member, ahead⟩)
    · exact .here name call
    · exact .later unbroken member ahead

instance decidableMainAhead (depth : Nat) : (ts : List Token) → Decidable (MainAhead depth ts)
  | [] => isFalse not_mainAhead_nil
  | _ :: behind =>
    have := decidableMainAhead depth behind
    decidable_of_iff' _ mainAhead_cons

theorem awaits_iff (hf : s.frames = .body type depth sawStatic :: outer) :
    s.Awaits ↔ sawStatic = true ∧ MainAhead depth s.cursor.rest := by
  constructor
  · rintro ⟨type', depth', outer', hframes, ahead⟩
    rw [hf, List.cons.injEq, Frame.body.injEq] at hframes
    obtain ⟨⟨-, rfl, rfl⟩, -⟩ := hframes
    exact ⟨rfl, ahead⟩
  · rintro ⟨rfl, ahead⟩
    exact ⟨type, depth, outer, hf, ahead⟩

theorem atEntry_iff (hf : s.frames = .body type depth sawStatic :: outer) (hr : s.cursor.rest = t :: behind) :
    s.AtEntry ↔ t.isWord "static" = true ∧ MainAhead depth behind := by
  have hword : s.cursor.atWord "static" = t.isWord "static" := by
    rw [Cursor.atWord, hr]
    rfl
  have hnext : s.cursor.next.rest = behind := Cursor.next_rest hr
  rw [State.AtEntry, hword, hnext]
  constructor
  · rintro ⟨type', depth', saw', outer', hframes, hstatic, ahead⟩
    rw [hf, List.cons.injEq, Frame.body.injEq] at hframes
    obtain ⟨⟨-, rfl, -⟩, -⟩ := hframes
    exact ⟨hstatic, ahead⟩
  · rintro ⟨hstatic, ahead⟩
    exact ⟨type, depth, sawStatic, outer, hf, hstatic, ahead⟩

theorem not_awaits_of_atMembers (hs : s.AtMembers) : ¬ s.Awaits := by
  rintro ⟨type, depth, outer, hframes, -⟩
  exact hs _ _ _ _ hframes

theorem not_atEntry_of_atMembers (hs : s.AtMembers) : ¬ s.AtEntry := by
  rintro ⟨type, depth, sawStatic, outer, hframes, -⟩
  exact hs _ _ _ _ hframes

/-! ### Steps in the body of a type -/

/-- An entry point was found, or is bound to be. -/
def State.Bound (s : State) : Prop := s.skeleton.hasMain = true ∨ s.Awaits

theorem bound_inBody_next (hf : s.frames = .body type depth sawStatic :: outer) (hr : s.cursor.rest = t :: behind)
    (unbroken : isBreak t = false) (member : depth = 1 → startsType t behind = false)
    (hstatic : t.isWord "static" = false)
    (hmain : ¬ (t.isWord "Main" = true ∧ sawStatic = true ∧ behind.head?.any (·.isMark '(') = true)) :
    (s.inBody s.cursor.next type depth sawStatic outer).Bound ↔ s.Bound ∨ s.AtEntry := by
  have hnext : (s.inBody s.cursor.next type depth sawStatic outer).cursor.rest = behind := Cursor.next_rest hr
  have hentry : ¬ s.AtEntry := by
    rw [atEntry_iff hf hr, hstatic]
    exact fun h => Bool.false_ne_true h.1
  rw [State.Bound, State.Bound, awaits_iff hf, awaits_iff (s := s.inBody _ type depth sawStatic outer) rfl, hnext, hr,
    mainAhead_cons, or_iff_left hentry]
  refine or_congr Iff.rfl (and_congr_right fun saw => ?_)
  constructor
  · exact fun ahead => .inr ⟨unbroken, member, ahead⟩
  · rintro (⟨name, call⟩ | ⟨-, -, ahead⟩)
    · exact absurd ⟨name, saw, call⟩ hmain
    · exact ahead

theorem bound_of_forgot (hf : s.frames = .body type depth sawStatic :: outer) (hr : s.cursor.rest = t :: behind)
    (hu : u.Forgot) (hsame : u.skeleton.hasMain = s.skeleton.hasMain) (hstatic : t.isWord "static" = false)
    (hahead : ¬ MainAhead depth (t :: behind)) : u.Bound ↔ s.Bound ∨ s.AtEntry := by
  rw [State.Bound, State.Bound, awaits_iff hf, atEntry_iff hf hr, hstatic, hsame, hr]
  simp [hahead, hu.not_awaits]

theorem forgot_body (houter : ∀ frame ∈ outer, frame.remembers = false)
    (hf : s.frames = .body type depth false :: outer) : s.Forgot := by
  rw [State.Forgot, hf]
  exact List.forall_mem_cons.2 ⟨rfl, houter⟩

theorem bound_mark {m : Char} (hf : s.frames = .body type depth sawStatic :: outer)
    (houter : ∀ frame ∈ outer, frame.remembers = false) (hr : s.cursor.rest = t :: behind)
    (hkind : t.kind = .mark m) :
    (bodyStep s type depth sawStatic outer t).Bound ↔ s.Bound ∨ s.AtEntry := by
  have hstatic : t.isWord "static" = false := Token.isWord_of_mark hkind _
  have hmain : t.isWord "Main" = false := Token.isWord_of_mark hkind _
  have hbreak : isBreak t = (m == '\x7b' || m == '\x7d' || m == ';') := by
    simp only [isBreak, Token.isMark_of_mark hkind]
  have forgets (h : isBreak t = true) : ¬ MainAhead depth (t :: behind) := by
    rw [mainAhead_cons, hmain, h]
    simp
  rw [bodyStep_mark hkind]
  split
  · rename_i heq
    exact bound_of_forgot hf hr (forgot_body houter rfl) rfl hstatic (forgets (by simp [hbreak, heq]))
  · split
    · rename_i heq
      have hforgets := forgets (by simp [hbreak, heq])
      split
      · exact bound_of_forgot hf hr houter rfl hstatic hforgets
      · exact bound_of_forgot hf hr (forgot_body houter rfl) rfl hstatic hforgets
    · split
      · rename_i heq
        exact bound_of_forgot hf hr (forgot_body houter rfl) rfl hstatic (forgets (by simp [hbreak, heq]))
      · rename_i hopen hclose hsemicolon
        have hkeyword : startsType t behind = false := by
          rw [startsType, Cursor.isTypeKeyword, Token.word?_of_mark hkind]
          rfl
        exact bound_inBody_next hf hr (by simp [hbreak, hopen, hclose, hsemicolon]) (fun _ => hkeyword) hstatic
          (by simp [hmain])

/-! ### Heads of types -/

theorem typeFrom_hasMain (container : Option String) (start : Cursor.TypeStart) (s : State) :
    (typeFrom container start s).skeleton.hasMain = s.skeleton.hasMain := by
  have hbases (s : State) : (baseList s).2.skeleton.hasMain = s.skeleton.hasMain := by
    rw [baseList]
    dsimp only
    repeat' split
    all_goals rfl
  have hconstraints (s : State) : (skipConstraints s).skeleton.hasMain = s.skeleton.hasMain := by
    rw [skipConstraints]
    split
    · rfl
    · rfl
  have hbody (name : String) (s : State) : (typeBody name s).skeleton.hasMain = s.skeleton.hasMain := by
    rw [typeBody]
    repeat' split
    all_goals rfl
  rw [typeFrom, typeHead]
  split
  · rfl
  · split
    · rfl
    · rw [typeTail]
      dsimp only
      rw [hbody]
      exact (hconstraints _).trans (hbases _)

theorem typeFrom_forgot (hs : s.Forgot) (container : Option String) (start : Cursor.TypeStart) :
    (typeFrom container start s).Forgot := by
  obtain h | ⟨decl, h⟩ := typeFrom_adds container start s
  · rwa [State.Forgot, h.frames]
  · obtain hframes | hframes := h.frames
    · rwa [State.Forgot, hframes]
    · exact forgot_body hs hframes

theorem bound_word {w : String} (hf : s.frames = .body type depth sawStatic :: outer)
    (houter : ∀ frame ∈ outer, frame.remembers = false) (hr : s.cursor.rest = t :: behind)
    (hkind : t.kind = .word w) :
    (bodyStep s type depth sawStatic outer t).Bound ↔ s.Bound ∨ s.AtEntry := by
  have hnext : s.cursor.next.rest = behind := Cursor.next_rest hr
  have hcall : s.cursor.next.atMark '(' = behind.head?.any (·.isMark '(') := by rw [Cursor.atMark, hnext]
  have unbroken : isBreak t = false := by simp [isBreak, Token.isMark_of_word hkind]
  have hkeyword : Cursor.isTypeKeyword t = Cursor.typeKeywords.contains w := isTypeKeyword_of_word hkind
  by_cases hw : w ∈ Cursor.typeKeywords
  · obtain ⟨hstatic, hmain⟩ := not_static_of_typeKeyword hw
    rw [← Token.isWord_of_word hkind] at hstatic hmain
    by_cases hdeclares : depth = 1 ∧ startsType t behind = true
    · obtain ⟨rfl, hstarts⟩ := hdeclares
      have hforgets : ¬ MainAhead 1 (t :: behind) := by
        rw [mainAhead_cons, hmain, hstarts]
        simp
      rw [startsType, Bool.and_eq_true] at hstarts
      rw [bodyStep_typeKeyword hkind hw hr hstarts.2]
      exact bound_of_forgot hf hr (typeFrom_forgot (forgot_body houter rfl) _ _)
        (typeFrom_hasMain _ _ _) hstatic hforgets
    · have member : depth = 1 → startsType t behind = false := fun hdepth =>
        eq_false_of_ne_true fun hstarts => hdeclares ⟨hdepth, hstarts⟩
      have hnone : (depth == 1 && s.cursor.next.rest.head?.any (·.word?.isSome)) = false := by
        rw [hnext]
        by_cases hdepth : depth = 1
        · have hstarts := member hdepth
          rw [startsType, hkeyword, List.contains_eq_mem, decide_eq_true hw, Bool.true_and] at hstarts
          rw [hstarts, Bool.and_false]
        · rw [beq_eq_false_iff_ne.2 hdepth, Bool.false_and]
      rw [bodyStep_keyword hkind hw hnone]
      exact bound_inBody_next hf hr unbroken member hstatic (by simp [hmain])
  · have member : startsType t behind = false := by
      rw [startsType, hkeyword, List.contains_eq_mem, decide_eq_false hw, Bool.false_and]
    rw [bodyStep_word hkind hw, hcall]
    split
    · rename_i hstatic
      subst hstatic
      have hword : t.isWord "static" = true ∧ t.isWord "Main" = false := by
        rw [Token.isWord_of_word hkind, Token.isWord_of_word hkind]
        decide
      have hrest : (s.inBody s.cursor.next type depth true outer).cursor.rest = behind := hnext
      rw [State.Bound, State.Bound, awaits_iff (s := s.inBody _ type depth true outer) rfl, awaits_iff hf,
        atEntry_iff hf hr, hrest, hr, mainAhead_cons, hword.1, hword.2]
      constructor
      · rintro (found | ⟨-, ahead⟩)
        · exact .inl (.inl found)
        · exact .inr ⟨rfl, ahead⟩
      · rintro ((found | ⟨-, ⟨hmain, -⟩ | ⟨-, -, ahead⟩⟩) | ⟨-, ahead⟩)
        · exact .inl found
        · exact absurd hmain Bool.false_ne_true
        · exact .inr ⟨rfl, ahead⟩
        · exact .inr ⟨rfl, ahead⟩
    · rename_i hstatic
      have hname : t.isWord "Main" = true ↔ w = "Main" := by rw [Token.isWord_of_word hkind, beq_iff_eq]
      split
      · rename_i hmain
        obtain ⟨rfl, saw, call⟩ := hmain
        have ahead : MainAhead depth s.cursor.rest := by
          rw [hr]
          exact .here (hname.2 rfl) call
        exact iff_of_true (.inl (Bool.or_true _)) (.inl (.inr ((awaits_iff hf).2 ⟨saw, ahead⟩)))
      · rename_i hmain
        refine bound_inBody_next hf hr unbroken (fun _ => member) ?_ (by rwa [hname])
        rw [Token.isWord_of_word hkind, beq_eq_false_iff_ne]
        exact hstatic

theorem bound_bodyStep (hf : s.frames = .body type depth sawStatic :: outer)
    (houter : ∀ frame ∈ outer, frame.remembers = false) (hr : s.cursor.rest = t :: behind) :
    (bodyStep s type depth sawStatic outer t).Bound ↔ s.Bound ∨ s.AtEntry := by
  cases hkind : t.kind with
  | mark m => exact bound_mark hf houter hr hkind
  | word w => exact bound_word hf houter hr hkind
  | literal =>
      rw [bodyStep_literal hkind]
      refine bound_inBody_next hf hr ?_ (fun _ => ?_) (Token.isWord_of_literal hkind _) ?_
      · simp [isBreak, Token.isMark_of_literal hkind]
      · simp [startsType, Cursor.isTypeKeyword, Token.word?_of_literal hkind]
      · simp [Token.isWord_of_literal hkind]

/-! ### Other steps -/

theorem memberStep_hasMain (s : State) (t : Token) : (memberStep s t).skeleton.hasMain = s.skeleton.hasMain := by
  have husing (s : State) : (usingDirective s).skeleton.hasMain = s.skeleton.hasMain := by
    unfold usingDirective
    dsimp only
    repeat' split
    all_goals rfl
  have hnamespace (s : State) : (namespaceHead s).skeleton.hasMain = s.skeleton.hasMain := by
    rw [namespaceHead]
    dsimp only
    repeat' split
    all_goals rfl
  rw [memberStep]
  dsimp only
  repeat' split
  · rfl
  · rfl
  · exact husing _
  · exact hnamespace _
  · rfl
  · rfl
  · exact typeFrom_hasMain _ _ _
  · rfl

theorem namespaceHead_forgot (hs : s.Forgot) : (namespaceHead s).Forgot := by
  rw [namespaceHead]
  split
  · exact hs
  · dsimp only
    split
    · split
      · exact hs
      · exact hs
    · split
      · exact List.forall_mem_cons.2 ⟨rfl, hs⟩
      · exact hs

theorem memberStep_forgot (hs : s.Forgot) (t : Token) : (memberStep s t).Forgot := by
  rw [memberStep]
  dsimp only
  split
  · split
    · rename_i visible frames hf
      rw [State.Forgot, hf] at hs
      exact (List.forall_mem_cons.1 hs).2
    · exact hs
  · repeat' split
    · rw [State.Forgot, (usingDirective_holds s _).frames]
      exact hs
    · exact namespaceHead_forgot hs
    · exact hs
    · exact hs
    · exact typeFrom_forgot hs _ _
    · exact hs

theorem closeFrame_forgot (h : s.Tidy) : (closeFrame s).Forgot := by
  rw [State.Tidy] at h
  rw [State.Forgot, closeFrame]
  split
  · rename_i hf
    rw [hf]
    exact List.forall_mem_nil _
  · rename_i hf
    rwa [hf] at h
  · rename_i hf
    rwa [hf] at h

theorem closeFrame_hasMain (s : State) : (closeFrame s).skeleton.hasMain = s.skeleton.hasMain := by
  rw [closeFrame]
  split
  · rfl
  · rfl
  · rfl

theorem bodyStep_tidy (houter : ∀ frame ∈ outer, frame.remembers = false) (t : Token) :
    (bodyStep s type depth sawStatic outer t).Tidy := by
  rw [bodyStep]
  dsimp only
  repeat' split
  all_goals try exact houter
  · exact State.Forgot.tidy houter
  · exact (typeFrom_forgot (forgot_body houter rfl) _ _).tidy

theorem step_tidy (h : s.Tidy) : (step s).Tidy := by
  rw [step]
  split
  · exact (closeFrame_forgot h).tidy
  · split
    · rename_i hf
      rw [State.Tidy, hf] at h
      exact bodyStep_tidy h _
    · rename_i hs
      exact (memberStep_forgot (h.forgot_of_atMembers hs) _).tidy

theorem bound_iff_of_forgot (hu : u.Forgot) (hsame : u.skeleton.hasMain = s.skeleton.hasMain) :
    u.Bound ↔ s.skeleton.hasMain = true := by
  rw [State.Bound, hsame, or_iff_left hu.not_awaits]

theorem step_bound (h : s.Tidy) : (step s).Bound ↔ s.Bound ∨ s.AtEntry := by
  rw [step]
  split
  · rename_i hr
    have hawaits : ¬ s.Awaits := by
      rintro ⟨type, depth, outer, -, ahead⟩
      exact not_mainAhead_nil (hr ▸ ahead)
    have hentry : ¬ s.AtEntry := by
      rintro ⟨type, depth, sawStatic, outer, -, hstatic, -⟩
      simp [Cursor.atWord, hr] at hstatic
    rw [bound_iff_of_forgot (closeFrame_forgot h) (closeFrame_hasMain s), or_iff_left hentry, State.Bound,
      or_iff_left hawaits]
  · rename_i hr
    split
    · rename_i hf
      rw [State.Tidy, hf] at h
      exact bound_bodyStep hf h hr
    · rename_i hs
      rw [bound_iff_of_forgot (memberStep_forgot (h.forgot_of_atMembers hs) _) (memberStep_hasMain s _),
        or_iff_left (not_atEntry_of_atMembers hs), State.Bound, or_iff_left (not_awaits_of_atMembers hs)]

/-! ### Runs -/

theorem run_hasMain_iff (h : s.Tidy) :
    (run s).skeleton.hasMain = true ↔ s.Bound ∨ ∃ n, (step^[n] s).AtEntry := by
  induction s using run.induct with
  | case1 s hdone =>
      have hs : s.AtMembers := by
        intro type depth sawStatic outer hf
        simp [State.isDone, hf] at hdone
      have hstay (n : Nat) : step^[n] s = s := Function.iterate_fixed (step_of_isDone hdone) n
      have hentry : ¬ ∃ n, (step^[n] s).AtEntry := by
        rintro ⟨n, hn⟩
        exact not_atEntry_of_atMembers hs (hstay n ▸ hn)
      rw [run, dif_pos hdone, or_iff_left hentry, State.Bound, or_iff_left (not_awaits_of_atMembers hs)]
  | case2 s hdone ih =>
      rw [run_step, ih (step_tidy h), step_bound h, or_assoc]
      refine or_congr_right ?_
      constructor
      · rintro (hnow | ⟨n, hn⟩)
        · exact ⟨0, hnow⟩
        · exact ⟨n + 1, hn⟩
      · rintro ⟨n, hn⟩
        cases n with
        | zero => exact .inl hn
        | succ n => exact .inr ⟨n, hn⟩

end Parser

theorem Skeleton.ofTokens_hasMain (ts : List Token) :
    (ofTokens ts).hasMain = true ↔ ∃ n, (Parser.step^[n] { cursor := ⟨[], ts⟩ }).AtEntry := by
  have htidy : Parser.State.Tidy { cursor := ⟨[], ts⟩ } := List.forall_mem_nil _
  have hnone : ¬ Parser.State.Bound { cursor := ⟨[], ts⟩ } := by
    rintro (found | ⟨type, depth, outer, hframes, -⟩)
    · exact Bool.false_ne_true found
    · exact List.cons_ne_nil _ _ hframes.symm
  rw [ofTokens, Parser.run_hasMain_iff htidy, or_iff_right hnone]

namespace Compilation

/-- A console program is told, once, that it lacks an entry point iff in no tree the word `static`, met in the body
of a type, has `Main` ahead. No other program is told so. -/
theorem mainless_iff (c : Compilation) :
    let lacks := c.options.outputKind = .console ∧
      ∀ t ∈ c.trees, ∀ n, ¬ (Parser.step^[n] { cursor := ⟨[], tokens t.text⟩ }).AtEntry
    (mainless c.diagnostics = [noEntryPoint] ↔ lacks) ∧ (mainless c.diagnostics = [] ↔ ¬ lacks) := by
  intro lacks
  have hmain (t : SourceTree) : t.skeleton.hasMain = false ↔
      ∀ n, ¬ (Parser.step^[n] { cursor := ⟨[], tokens t.text⟩ }).AtEntry := by
    rw [← Bool.not_eq_true, ← not_exists, SourceTree.skeleton, Skeleton.ofText, Skeleton.ofTokens_hasMain]
  have hlacks : (c.options.outputKind == .console && !c.skeletons.any (·.hasMain)) = true ↔ lacks := by
    have hskeletons : c.skeletons.any (·.hasMain) = false ↔ ∀ t ∈ c.trees, t.skeleton.hasMain = false := by
      rw [c.skeletons_eq, List.any_eq_false, List.forall_mem_map]
      simp only [Bool.not_eq_true]
    rw [Bool.and_eq_true, beq_iff_eq, Bool.not_eq_true', hskeletons]
    simp only [hmain, lacks]
  rw [mainless_diagnostics, overall, ← hlacks]
  split
  · rename_i h
    simp [h]
  · rename_i h
    simp [h]

/-- A local function passes for the entry point. -/
theorem mainless_local :
    let t : SourceTree := ⟨none, "class A \x7b void F() \x7b static void Main() \x7b \x7d \x7d \x7d"⟩
    let c := ofTrees "T" [t] [] { outputKind := .console }
    t.skeleton.errors = [] ∧ mainless c.diagnostics = [] := by
  intro t c
  have hread : Skeleton.ofText t.text = _ := Parser.ofText_iterate 18 (by decide +kernel)
  have herrors : t.skeleton.errors = [] := by
    rw [SourceTree.skeleton, hread]
    decide +kernel
  have hentry : let s := Parser.step^[6] { cursor := ⟨[], tokens t.text⟩ }
      s.frames = [.body "A" 2 false] ∧ s.cursor.atWord "static" = true ∧
        Parser.MainAhead 2 s.cursor.next.rest := by
    decide +kernel
  refine ⟨herrors, (mainless_iff c).2.2 fun hlacks => ?_⟩
  exact hlacks.2 t List.mem_cons_self 6 ⟨"A", 2, false, [], hentry⟩

end Compilation

end GeneratorBench
