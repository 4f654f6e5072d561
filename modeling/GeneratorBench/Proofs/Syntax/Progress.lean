import GeneratorBench.Proofs.Syntax.Blocks
import GeneratorBench.Proofs.Syntax.Joining
import GeneratorBench.Proofs.Syntax.Nesting
import GeneratorBench.Proofs.Syntax.Recovery
import GeneratorBench.Proofs.Syntax.Spans
import Mathlib.Logic.Relation

/-!
Reading comes to an end. A round of the loop over members, or of that over the body of a type, takes a token at
least, also where it goes back over modifiers first. Nothing takes a token where there is none. So the reader halts
behind the last token, and is between the tokens all the while.
-/

namespace GeneratorBench

namespace Cursor

variable {c d : Cursor}

/-- From `c` a reader may go to `d`, on or back. -/
inductive Visits (c : Cursor) : Cursor → Prop
  | next (h : c.rest ≠ []) : Visits c c.next
  | name : Visits c c.name.2
  | bases : Visits c c.baseNames.2.2
  | group (opening closing : Char) : Visits c (c.skipGroup opening closing)
  | past (m : Char) : Visits c (.skipPast m c.before c.rest)
  | stretch (stop : Token → Bool) : Visits c (.skipUntil stop c.before c.rest)
  | modifiers : Visits c c.passModifiers
  | rewind : Visits c c.rewindModifiers

theorem passModifiers_reaches (c : Cursor) : c.Reaches c.passModifiers :=
  ⟨c.rest.takeWhile isModifier, List.takeWhile_append_dropWhile.symm, rfl⟩

theorem rewindModifiers_reaches (c : Cursor) : c.rewindModifiers.Reaches c := by
  refine ⟨(c.before.takeWhile isModifier).reverse, rfl, ?_⟩
  rw [List.reverse_reverse]
  exact List.takeWhile_append_dropWhile.symm

theorem Reaches.tokens_eq (h : c.Reaches d) : d.tokens = c.tokens := by
  have hc : c.Within c.tokens := rfl
  exact hc.reaches h

theorem Reaches.index_le (h : c.Reaches d) : c.index ≤ d.index := by
  obtain ⟨us, -, hb⟩ := h
  rw [index, index, hb, List.length_append]
  exact Nat.le_add_left _ _

/-- A reader that took a token where there is none would be found out: it would have one more behind it. -/
theorem next_tokens_eq_iff : c.next.tokens = c.tokens ↔ c.rest ≠ [] := by
  constructor
  · intro htokens hnil
    have hlength := congrArg List.length htokens
    simp [tokens, next, hnil] at hlength
  · exact fun hrest => (next_reaches hrest).tokens_eq

theorem Visits.tokens_eq (h : c.Visits d) : d.tokens = c.tokens := by
  cases h with
  | next hrest => exact next_tokens_eq_iff.2 hrest
  | name => exact (name_reaches c).tokens_eq
  | bases => exact (baseNames_reaches c).tokens_eq
  | group opening closing => exact (skipGroup_reaches c opening closing).tokens_eq
  | past m => exact (skipPast_reaches m _ _).tokens_eq
  | stretch stop => exact (skipUntil_reaches stop _ _).tokens_eq
  | modifiers => exact (passModifiers_reaches c).tokens_eq
  | rewind => exact (rewindModifiers_reaches c).tokens_eq.symm

theorem tokens_eq_of_visits (h : Relation.ReflTransGen Visits c d) : d.tokens = c.tokens := by
  induction h with
  | refl => rfl
  | tail _ hvisit ih => exact hvisit.tokens_eq.trans ih

theorem index_add (c : Cursor) : c.index + c.rest.length = c.tokens.length := by
  rw [index, tokens, List.length_append, List.length_reverse]

theorem index_le (c : Cursor) : c.index ≤ c.tokens.length := by
  rw [← index_add]
  exact Nat.le_add_right _ _

theorem index_lt (htokens : d.tokens = c.tokens) (hlt : d.rest.length < c.rest.length) :
    c.index < d.index := by
  have hc := c.index_add
  have hd := d.index_add
  rw [htokens] at hd
  omega

theorem rewindModifiers_index (c : Cursor) :
    c.rewindModifiers.index + (c.before.takeWhile isModifier).length = c.index := by
  rw [index, index, rewindModifiers, Nat.add_comm, ← List.length_append, List.takeWhile_append_dropWhile]

end Cursor

namespace Parser

variable {ts : List Token} {s : State}

theorem attempt_of_none (container : Option String) (h : s.cursor.typeStart? = none) :
    attempt container s = (false, s) := by
  rw [Cursor.typeStart?] at h
  rw [attempt, Cursor.passModifiers]
  dsimp only at h ⊢
  split at h
  · rename_i hrest
    rw [hrest]
    rfl
  · rename_i keyword rest hrest
    split at h
    · cases h
    · rename_i hkeyword
      rw [hrest, List.head?_cons, Option.filter_some, if_neg hkeyword]
      rfl

theorem attempt_of_some (container : Option String) {start : Cursor.TypeStart}
    (h : s.cursor.typeStart? = some start) : attempt container s = (true, typeFrom container start s) := by
  rw [Cursor.typeStart?] at h
  rw [attempt, Cursor.passModifiers]
  dsimp only at h ⊢
  split at h
  · cases h
  · rename_i keyword rest hrest
    split at h
    · rename_i hkeyword
      cases h
      rw [hrest, List.head?_cons, Option.filter_some, if_pos hkeyword]
      rfl
    · cases h

/-- What is no type leaves no trace. -/
theorem attempt_refused (container : Option String) (h : (attempt container s).1 = false) :
    (attempt container s).2 = s := by
  cases hstart : s.cursor.typeStart? with
  | none => rw [attempt_of_none container hstart]
  | some start =>
      rw [attempt_of_some container hstart] at h
      cases h

theorem attempt_taken (container : Option String) (h : (attempt container s).1 = true) :
    s.cursor.index < (attempt container s).2.cursor.index := by
  cases hstart : s.cursor.typeStart? with
  | none =>
      rw [attempt_of_none container hstart] at h
      cases h
  | some start =>
      rw [attempt_of_some container hstart]
      have hreaches := (Cursor.typeStart?_reaches hstart).trans (typeFrom_reaches container start s)
      exact Cursor.index_lt hreaches.tokens_eq
        (Nat.lt_of_le_of_lt (typeFrom_rest_le ..) (Cursor.typeStart?_rest_lt hstart))

/-- A member that nothing else starts is a type, or a token out of place. -/
theorem step_attempt (hs : s.AtMembers) {t : Token} {rest : List Token} (hr : s.cursor.rest = t :: rest)
    (hmark : ∀ m ∈ ['\x7d', ';', '['], t.isMark m = false)
    (hword : ∀ w ∈ ["using", "namespace"], t.isWord w = false) :
    step s = if (attempt none s).1 then (attempt none s).2
      else ((attempt none s).2.moveTo s.cursor.next).report .memberExpected t.span := by
  rw [List.forall_mem_cons, List.forall_mem_cons, List.forall_mem_singleton] at hmark
  rw [List.forall_mem_cons, List.forall_mem_singleton] at hword
  rw [step_of_atMembers hs hr, memberStep]
  simp only [hmark, hword, Bool.false_eq_true, if_false]
  cases hstart : s.cursor.typeStart? with
  | none => rw [attempt_of_none none hstart]; rfl
  | some start => rw [attempt_of_some none hstart]; rfl

/-- The state in a body from which a nested type is read: before its modifiers. -/
def State.rewound (s : State) (type : String) (outer : List Frame) : State :=
  { s.moveTo s.cursor.rewindModifiers with frames := .body type 1 false :: outer }

theorem exists_word_of_any {t : Token} {ws : List String} (h : t.word?.any ws.contains = true) :
    ∃ w, t.kind = .word w ∧ w ∈ ws := by
  rw [Token.word?] at h
  split at h
  · rename_i w hkind
    exact ⟨w, hkind, List.contains_iff_mem.1 h⟩
  · cases h

/-- After going back over modifiers, the attempt is never in vain. -/
theorem step_rewound {type : String} {sawStatic : Bool} {outer : List Frame} {keyword name : Token}
    {rest : List Token} (hf : s.frames = .body type 1 sawStatic :: outer)
    (hr : s.cursor.rest = keyword :: name :: rest) (hkeyword : Cursor.isTypeKeyword keyword = true)
    (hname : name.word?.isSome = true) :
    attempt (some type) (s.rewound type outer) = (true, step s) := by
  have hstart := Cursor.typeStart?_rewindModifiers hr hkeyword
  obtain ⟨w, hkind, hw⟩ := exists_word_of_any hkeyword
  rw [attempt_of_some (s := s.rewound type outer) (some type) hstart, step_of_body hf hr,
    bodyStep_typeKeyword hkind hw hr hname]
  rfl

theorem namespaceHead_frames_le (s : State) : (namespaceHead s).frames.length ≤ s.frames.length + 1 := by
  rw [namespaceHead]
  dsimp only
  repeat' split
  all_goals first | exact Nat.le_succ _ | exact Nat.le_refl _

theorem typeFrom_frames_le (container : Option String) (start : Cursor.TypeStart) (s : State) :
    (typeFrom container start s).frames.length ≤ s.frames.length + 1 := by
  obtain h | ⟨decl, h⟩ := typeFrom_adds container start s
  · rw [h.frames]
    exact Nat.le_succ _
  · obtain hframes | hframes := h.frames
    · rw [hframes]
      exact Nat.le_succ _
    · rw [hframes]
      exact Nat.le_refl _

theorem Move.frames_le {t : State} (h : Move s t) : t.frames.length ≤ s.frames.length + 1 := by
  cases h with
  | done | stray | semicolon | attributes => exact Nat.le_succ _
  | giveUpBlock _ hf | giveUpBody _ hf | closeBlock _ hf | closeBody _ hf =>
      rw [hf]
      exact Nat.le_add_right _ 2
  | directive =>
      rw [(usingDirective_holds s _).frames]
      exact Nat.le_succ _
  | scope => exact namespaceHead_frames_le (s.moveTo s.cursor.next)
  | type => exact typeFrom_frames_le none _ s
  | inBody _ hf =>
      rw [hf]
      exact Nat.le_succ _
  | nested _ hf =>
      rw [hf]
      exact typeFrom_frames_le ..

/-- Two for each token, since reading one may open a brace, and one for each open brace. -/
def State.remaining (s : State) : Nat := 2 * s.cursor.rest.length + s.frames.length

theorem step_remaining_lt (h : s.isDone = false) : (step s).remaining < s.remaining := by
  have hprogress := step_progress h
  rw [Prod.lex_def] at hprogress
  rw [State.remaining, State.remaining]
  by_cases hrest : s.cursor.rest = []
  · obtain hlt | ⟨heq, hlt⟩ := hprogress
    · rw [hrest] at hlt
      exact absurd hlt (Nat.not_lt_zero _)
    · dsimp only at heq hlt
      omega
  · have hlt := step_rest_lt hrest
    have hle := (step_move s).frames_le
    omega

theorem exists_run_iterate (s : State) : ∃ n ≤ s.remaining, run s = step^[n] s := by
  induction s using run.induct with
  | case1 s hdone => exact ⟨0, Nat.zero_le _, by rw [run, dif_pos hdone]; rfl⟩
  | case2 s hdone ih =>
      obtain ⟨n, hn, hrun⟩ := ih
      have hlt := step_remaining_lt (eq_false_of_ne_true hdone)
      exact ⟨n + 1, by omega, by rw [run_step, hrun, Function.iterate_succ_apply]⟩

theorem exists_runTo_iterate (n : Nat) (s : State) : ∃ k, runTo n s = step^[k] s := by
  induction s using runTo.induct n with
  | case1 s h => exact ⟨0, by rw [runTo, dif_pos h]; rfl⟩
  | case2 s h ih =>
      obtain ⟨k, hk⟩ := ih
      exact ⟨k + 1, by rw [runTo, dif_neg h, hk, Function.iterate_succ_apply]⟩

theorem runTo_frames_le (n : Nat) (s : State) : (runTo n s).frames.length ≤ n := by
  induction s using runTo.induct n with
  | case1 s h => rwa [runTo, dif_pos h]
  | case2 s h ih => rwa [runTo, dif_neg h]

theorem runTo_runTo {n k : Nat} (h : n ≤ k) (s : State) : runTo n (runTo k s) = runTo n s := by
  induction s using runTo.induct k with
  | case1 s hk => rw [runTo.eq_def k, dif_pos hk]
  | case2 s hk ih =>
      have hn : ¬ s.frames.length ≤ n := fun hle => hk (Nat.le_trans hle h)
      rw [runTo.eq_def k, dif_neg hk, ih, runTo.eq_def n s, dif_neg hn]

theorem iterate_reaches (n : Nat) (s : State) : s.cursor.Reaches (step^[n] s).cursor := by
  induction n generalizing s with
  | zero => exact .refl _
  | succ n ih => exact (step_reaches s).trans (ih (step s))

/-- One round of the loop over members, or over the body of a type: an item with all that is nested in it. -/
def readItem (s : State) : State := runTo s.frames.length (step s)

theorem exists_readItem_iterate (s : State) : ∃ k, readItem s = step^[k + 1] s := exists_runTo_iterate _ _

theorem run_readItem (s : State) : run s = run (readItem s) := by rw [run_step, run_runTo, readItem]

theorem readItem_reaches (s : State) : (step s).cursor.Reaches (readItem s).cursor := by
  obtain ⟨k, hk⟩ := exists_runTo_iterate s.frames.length (step s)
  rw [readItem, hk]
  exact iterate_reaches k (step s)

theorem readItem_rest_lt (h : s.cursor.rest ≠ []) :
    (readItem s).cursor.rest.length < s.cursor.rest.length := by
  obtain ⟨us, hrest, -⟩ := readItem_reaches s
  have hlt := step_rest_lt h
  rw [hrest, List.length_append] at hlt
  omega

theorem readItem_tokens (s : State) : (readItem s).cursor.tokens = s.cursor.tokens :=
  ((step_reaches s).trans (readItem_reaches s)).tokens_eq

theorem closeFrame_frames (s : State) : (closeFrame s).frames = s.frames.tail := by
  rw [closeFrame]
  split
  · rename_i hf
    rw [hf]
    rfl
  · rename_i hf
    rw [hf]
    rfl
  · rename_i hf
    rw [hf]
    rfl

/-- What stands in the innermost open brace is read in rounds. The last of them takes the closing brace or finds
that there is none. -/
theorem exists_runTo_readItem {n : Nat} (hframes : s.frames.length = n + 1) :
    ∃ m ≤ s.cursor.rest.length + 1, runTo n s = readItem^[m] s := by
  induction hk : s.cursor.rest.length using Nat.strongRecOn generalizing s with
  | ind k ih =>
    have hstep : runTo n s = runTo n (step s) := by rw [runTo.eq_def n s, dif_neg (by omega)]
    by_cases hrest : s.cursor.rest = []
    · have hend : (step s).frames.length = n := by
        rw [step, hrest]
        exact (congrArg List.length (closeFrame_frames s)).trans (by simp [hframes])
      refine ⟨1, Nat.le_add_left _ _, ?_⟩
      rw [hstep, runTo, dif_pos (Nat.le_of_eq hend), Function.iterate_one, readItem, runTo, dif_pos (by omega)]
    · have hlt := readItem_rest_lt hrest
      have hitem : runTo n s = runTo n (readItem s) := by rw [hstep, readItem, runTo_runTo (by omega)]
      have hle : (readItem s).frames.length ≤ s.frames.length := runTo_frames_le _ _
      by_cases hclosed : (readItem s).frames.length ≤ n
      · refine ⟨1, Nat.le_add_left _ _, ?_⟩
        rw [hitem, runTo, dif_pos hclosed, Function.iterate_one]
      · have hopen : (readItem s).frames.length = n + 1 := by omega
        obtain ⟨m, hm, hrun⟩ := ih _ (hk ▸ hlt) hopen rfl
        exact ⟨m + 1, by omega, by rw [hitem, hrun, Function.iterate_succ_apply]⟩

/-- The members of a text are read in rounds, no more of them than there are tokens. -/
theorem exists_run_readItem (hframes : s.frames = []) :
    ∃ m ≤ s.cursor.rest.length, run s = readItem^[m] s := by
  induction hn : s.cursor.rest.length using Nat.strongRecOn generalizing s with
  | ind n ih =>
    by_cases hrest : s.cursor.rest = []
    · exact ⟨0, Nat.zero_le _, run_done hrest hframes⟩
    · have hlt := readItem_rest_lt hrest
      have hitem : (readItem s).frames = [] := by
        have hle := runTo_frames_le s.frames.length (step s)
        rw [hframes] at hle
        rw [readItem, hframes]
        exact List.eq_nil_of_length_eq_zero (Nat.le_zero.1 hle)
      obtain ⟨m, hm, hrun⟩ := ih _ (hn ▸ hlt) hitem rfl
      exact ⟨m + 1, by omega, by rw [run_readItem, hrun, Function.iterate_succ_apply]⟩

/-- Reading goes on from `s`, a place between the tokens `ts`, and none of its readers goes anywhere else. -/
structure State.Advances (ts : List Token) (s : State) : Prop where
  visits : ∀ c, Relation.ReflTransGen Cursor.Visits s.cursor c → c.tokens = ts ∧ c.index ≤ ts.length
  step_le : (step s).cursor.tokens = ts ∧ s.cursor.index ≤ (step s).cursor.index
  item : s.cursor.rest ≠ [] → s.cursor.index < (readItem s).cursor.index ∧
    (readItem s).cursor.index ≤ ts.length ∧ ∃ k, readItem s = step^[k + 1] s
  loop : ∀ n, s.frames.length = n + 1 → ∃ m ≤ s.cursor.rest.length + 1, runTo n s = readItem^[m] s
  taken : ∀ container, (attempt container s).1 = true →
    s.cursor.index < (attempt container s).2.cursor.index
  refused : ∀ container, (attempt container s).1 = false → (attempt container s).2 = s
  member : s.AtMembers → ∀ t rest, s.cursor.rest = t :: rest →
    (∀ m ∈ ['\x7d', ';', '['], t.isMark m = false) → (∀ w ∈ ["using", "namespace"], t.isWord w = false) →
    step s = if (attempt none s).1 then (attempt none s).2
      else ((attempt none s).2.moveTo s.cursor.next).report .memberExpected t.span
  /-- In a body, reading goes back over the modifiers before it goes on. -/
  nested : ∀ type sawStatic outer keyword name rest, s.frames = .body type 1 sawStatic :: outer →
    s.cursor.rest = keyword :: name :: rest → Cursor.isTypeKeyword keyword = true → name.word?.isSome = true →
    (s.rewound type outer).cursor.index + (s.cursor.before.takeWhile Cursor.isModifier).length = s.cursor.index ∧
      attempt (some type) (s.rewound type outer) = (true, step s) ∧ s.cursor.index < (step s).cursor.index

theorem advances (s : State) : s.Advances s.cursor.tokens where
  visits c hc := by
    have htokens := Cursor.tokens_eq_of_visits hc
    exact ⟨htokens, htokens ▸ c.index_le⟩
  step_le := ⟨(step_reaches s).tokens_eq, (step_reaches s).index_le⟩
  item hrest := by
    have htokens := readItem_tokens s
    exact ⟨Cursor.index_lt htokens (readItem_rest_lt hrest), htokens ▸ (readItem s).cursor.index_le,
      exists_readItem_iterate s⟩
  loop _ hframes := exists_runTo_readItem hframes
  taken container h := attempt_taken container h
  refused container h := attempt_refused container h
  member hs _ _ hr hmark hword := step_attempt hs hr hmark hword
  nested _ _ _ _ _ _ hf hr hkeyword hname :=
    ⟨s.cursor.rewindModifiers_index, step_rewound hf hr hkeyword hname,
      Cursor.index_lt (step_reaches s).tokens_eq (step_rest_lt (Cursor.rest_ne_nil_of_eq hr))⟩

/-- Whatever the tokens, reading them halts behind the last, and each round takes it further. -/
theorem run_advances (ts : List Token) :
    let start : State := { cursor := ⟨[], ts⟩ }
    ((run start).cursor = ⟨ts.reverse, []⟩ ∧ (run start).cursor.index = ts.length ∧ (run start).frames = []) ∧
    (∃ n ≤ 2 * ts.length, run start = step^[n] start) ∧ (∃ m ≤ ts.length, run start = readItem^[m] start) ∧
    ∀ n, (step^[n] start).Advances ts := by
  intro start
  obtain ⟨hcursor, hframes⟩ := Skeleton.run_end ts
  refine ⟨⟨hcursor, ?_, hframes⟩, exists_run_iterate start, exists_run_readItem (s := start) rfl, ?_⟩
  · rw [hcursor]
    exact List.length_reverse
  · intro n
    have htokens : (step^[n] start).cursor.tokens = ts := (iterate_reaches n start).tokens_eq
    exact htokens ▸ advances (step^[n] start)

/-- The keyword of the nested type is the sixth token; reading goes back by two, and on behind the semicolon. -/
theorem run_advances_rewound :
    let s := step^[3] { cursor := ⟨[], tokens "class A \x7b public sealed class B; \x7d"⟩ }
    (s.cursor.index, (s.rewound "A" []).cursor.index, (step s).cursor.index) = (5, 3, 8) ∧
      attempt (some "A") (s.rewound "A" []) = (true, step s) := by
  intro s
  have hrest : s.cursor.rest = [⟨.word "class", ⟨0, 24⟩, 5⟩, ⟨.word "B", ⟨0, 30⟩, 1⟩, ⟨.mark ';', ⟨0, 31⟩, 1⟩,
      ⟨.mark '\x7d', ⟨0, 33⟩, 1⟩] := by
    decide +kernel
  have hframes : s.frames = [.body "A" 1 false] := by decide +kernel
  obtain ⟨-, -, -, hadvances⟩ := run_advances (tokens "class A \x7b public sealed class B; \x7d")
  obtain ⟨-, hattempt, -⟩ := (hadvances 3).nested _ _ _ _ _ _ hframes hrest (by decide) rfl
  exact ⟨by decide +kernel, hattempt⟩

end Parser

end GeneratorBench
