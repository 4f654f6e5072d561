import GeneratorBench.Proofs.Syntax.Continuation

/-!
Two lists of tokens read as one. Where the first is read without fault, either its reading goes on with the
second as if nothing had come before, or it has left something open that swallows the second.
-/

namespace GeneratorBench

namespace Parser

variable {s : State} {us : List Token}

namespace State.LeftOpen

theorem step_eq (h : s.LeftOpen) : ∃ c, step s = s.moveTo c ∧ c.rest = [] := by
  obtain ⟨t, rest, hr, hbracket, hopen⟩ | ⟨hword, target, d, hname, halias, hnone⟩ := h.missing
  · refine ⟨s.cursor.skipGroup '[' ']', ?_, ?_⟩
    · have hkind : t.kind = .mark '[' := beq_iff_eq.1 hbracket
      rw [step_of_atMembers h.members hr]
      simp [memberStep, Token.isMark_of_mark hkind, Token.isWord_of_mark hkind]
    · rw [Cursor.skipGroup_eq hr hbracket]
      exact Cursor.skipBalanced_of_unclosed hopen _
  · refine ⟨.skipPast ';' d.before d.rest, ?_, Cursor.skipPast_of_not_mem hnone _⟩
    rw [step_using h.members hword, usingDirective_of_alias (s := s.moveTo s.cursor.next) hname halias]
    rfl

theorem followedBy (h : s.LeftOpen)
    (hus : ∀ t ∈ us, t.isMark ']' = false ∧ t.isMark ';' = false) : (s.followedBy us).LeftOpen := by
  refine ⟨h.members, ?_⟩
  obtain ⟨t, rest, hr, hbracket, hopen⟩ | ⟨hword, target, d, hname, halias, hnone⟩ := h.missing
  · exact .inl ⟨t, rest ++ us, State.rest_followedBy hr us, hbracket, hopen.append fun u hu => (hus u hu).1⟩
  · obtain ⟨t, rest, hr, -⟩ := exists_rest_of_atWord hword
    have hrest := Cursor.rest_ne_nil_of_eq hr
    have hsettled := Cursor.settled_of_atMark halias (by decide)
    refine .inr ⟨(Cursor.atWord_followedBy us hrest _).trans hword, target, d.followedBy us, ?_, ?_, ?_⟩
    · change (s.cursor.followedBy us).next.directiveName = _
      rw [Cursor.next_followedBy us hrest]
      exact Cursor.directiveName_followedBy us hname hsettled
    · rw [Cursor.atMark_followedBy us hsettled.rest, halias]
    · intro u hu
      obtain hu | hu := List.mem_append.1 hu
      · exact hnone u hu
      · exact (hus u hu).2

theorem rest_ne_nil (h : s.LeftOpen) : s.cursor.rest ≠ [] := by
  obtain ⟨t, rest, hr, -⟩ | ⟨hword, -⟩ := h.missing
  · exact Cursor.rest_ne_nil_of_eq hr
  · obtain ⟨t, rest, hr, -⟩ := exists_rest_of_atWord hword
    exact Cursor.rest_ne_nil_of_eq hr

end State.LeftOpen

/-- What is read without fault and leaves nothing open ends in a mark, and is read alike before all else. -/
theorem run_firm (quiet : (run s).faults ≤ s.faults) (closed : ∀ n, ¬ (step^[n] s).LeftOpen)
    (hmark : s.cursor.rest = [] → s.cursor.AfterMark) :
    (∀ us, run (s.followedBy us) = run ((run s).followedBy us)) ∧ (run s).cursor.AfterMark := by
  induction s using run.induct with
  | case1 s hdone =>
      have hrun : run s = s := by rw [run, dif_pos hdone]
      rw [State.isDone, Bool.and_eq_true, List.isEmpty_iff] at hdone
      rw [hrun]
      exact ⟨fun _ => rfl, hmark hdone.1⟩
  | case2 s hdone ih =>
      have hrest : s.cursor.rest ≠ [] := by
        intro hnil
        refine hdone ?_
        rw [State.isDone, hnil, frames_eq_nil_of_run quiet hnil]
        rfl
      obtain ⟨hrun, hstep⟩ := quiet_of_run quiet
      have hfirm := step_firm hrest hstep (closed 0) (frames_eq_nil_of_run hrun)
      obtain ⟨hfollowed, hlast⟩ := ih hrun (fun n => closed (n + 1)) hfirm.afterMark
      rw [run_step s]
      refine ⟨fun us => ?_, hlast⟩
      rw [run_step (s.followedBy us), hfirm.followedBy, hfollowed]

theorem run_reaches (s : State) : s.cursor.Reaches (run s).cursor :=
  run_preserves (P := fun t => s.cursor.Reaches t.cursor) (fun t h => h.trans (step_reaches t)) (.refl _)

theorem run_isDone (s : State) : (run s).isDone = true := by
  induction s using run.induct with
  | case1 s hdone => rwa [run, dif_pos hdone]
  | case2 s hdone ih => rwa [run_step]

theorem State.LeftOpen.run_followedBy (h : s.LeftOpen) (quiet : (run s).faults ≤ s.faults)
    (hus : ∀ t ∈ us, t.isMark ']' = false ∧ t.isMark ';' = false) :
    (run (s.followedBy us)).skeleton = (run s).skeleton := by
  obtain ⟨c, hstep, hc⟩ := h.step_eq
  obtain ⟨d, hmore, hd⟩ := (h.followedBy hus).step_eq
  have hframes : s.frames = [] := by
    rw [run_step, hstep] at quiet
    exact frames_eq_nil_of_run (s := s.moveTo c) quiet hc
  rw [run_step s, run_step (s.followedBy us), hstep, hmore, run_done (s := s.moveTo c) hc hframes,
    run_done (s := (s.followedBy us).moveTo d) hd hframes]
  rfl

theorem rest_iterate (h : s.cursor.rest = []) (n : Nat) : (step^[n] s).cursor.rest = [] := by
  induction n generalizing s with
  | zero => exact h
  | succ n ih =>
      refine ih ?_
      rw [step, h]
      exact (congrArg Cursor.rest (closeFrame_cursor s)).trans h

/-- What stays open swallows all that comes after, and says nothing. -/
theorem run_leftOpen {n : Nat} (h : (step^[n] s).LeftOpen) (quiet : (run s).faults ≤ s.faults)
    (hus : ∀ t ∈ us, t.isMark ']' = false ∧ t.isMark ';' = false) :
    (run (s.followedBy us)).skeleton = (run s).skeleton := by
  induction n generalizing s with
  | zero => exact h.run_followedBy quiet hus
  | succ n ih =>
      by_cases hopen : s.LeftOpen
      · exact hopen.run_followedBy quiet hus
      · have hrest : s.cursor.rest ≠ [] := fun hnil => h.rest_ne_nil (rest_iterate hnil _)
        obtain ⟨hrun, hstep⟩ := quiet_of_run quiet
        have hfirm := step_firm hrest hstep hopen (frames_eq_nil_of_run hrun)
        rw [run_step s, run_step (s.followedBy us), hfirm.followedBy]
        exact ih h hrun

end Parser

namespace Skeleton

open GeneratorBench.Parser (State run step)

variable {ts us : List Token}

/-- Somewhere in the reading of the tokens an attribute list or the directive of an alias stays open. -/
def LeavesOpen (ts : List Token) : Prop := ∃ n, (step^[n] { cursor := ⟨[], ts⟩ }).LeftOpen

theorem faults_of_fine (fine : (ofTokens ts).errors = []) :
    (run { cursor := ⟨[], ts⟩ }).faults ≤ State.faults { cursor := ⟨[], ts⟩ } :=
  Nat.le_of_eq (congrArg List.length fine)

theorem run_end (ts : List Token) :
    (run { cursor := ⟨[], ts⟩ }).cursor = ⟨ts.reverse, []⟩ ∧ (run { cursor := ⟨[], ts⟩ }).frames = [] := by
  have hdone := Parser.run_isDone { cursor := ⟨[], ts⟩ }
  have hreach := Parser.run_reaches { cursor := ⟨[], ts⟩ }
  rw [State.isDone, Bool.and_eq_true, List.isEmpty_iff, List.isEmpty_iff] at hdone
  generalize run { cursor := ⟨[], ts⟩ } = last at hdone hreach ⊢
  obtain ⟨⟨before, rest⟩, frames⟩ := last
  obtain ⟨rfl, rfl⟩ := hdone
  obtain ⟨us, hr, hb⟩ := hreach
  rw [List.append_nil] at hr hb
  cases hr
  exact ⟨congrArg (Cursor.mk · []) hb, rfl⟩

theorem ofTokens_append_of_leavesOpen (fine : (ofTokens ts).errors = []) (h : LeavesOpen ts)
    (hus : ∀ t ∈ us, t.isMark ']' = false ∧ t.isMark ';' = false) : ofTokens (ts ++ us) = ofTokens ts := by
  obtain ⟨n, hopen⟩ := h
  exact Parser.run_leftOpen hopen (faults_of_fine fine) hus

theorem run_fine (fine : (ofTokens ts).errors = []) (h : ¬ LeavesOpen ts) :
    (∀ us, ofTokens (ts ++ us) = (run ((run { cursor := ⟨[], ts⟩ }).followedBy us)).skeleton) ∧
      Cursor.AfterMark ⟨ts.reverse, []⟩ := by
  have hstart : Cursor.AfterMark ⟨[], ts⟩ := nofun
  obtain ⟨hfollowed, hlast⟩ := Parser.run_firm (faults_of_fine fine) (not_exists.1 h) fun _ => hstart
  rw [(run_end ts).1] at hlast
  exact ⟨fun us => congrArg State.skeleton (hfollowed us), hlast⟩

/-- After all others, the members that come next are read as in any text. -/
theorem ofTokens_append {ms : Grammar.Members} (fine : (ofTokens ts).errors = []) (h : ¬ LeavesOpen ts)
    (hus : us.map Token.kind = ms.kinds) :
    ∃ e, ofTokens (ts ++ us) = ofTokens ts ++ ms.outline (spanIn (ts ++ us)) e := by
  obtain ⟨hcursor, hframes⟩ := run_end ts
  let last := (run { cursor := ⟨[], ts⟩ }).followedBy us
  have hlast : last.cursor = ⟨ts.reverse, us⟩ := congrArg (Cursor.followedBy · us) hcursor
  have hread : last.cursor.Reads ms.kinds ⟨us.reverse ++ ts.reverse, []⟩ := by
    rw [hlast]
    exact ⟨us, hus, (List.append_nil us).symm, rfl⟩
  have hat : last.AtMembers := fun _ _ _ _ hf => by cases hframes.symm.trans hf
  have htokens : last.cursor.tokens = ts ++ us := by
    rw [hlast, Cursor.tokens, List.reverse_reverse]
  refine ⟨last.surroundings, ?_⟩
  rw [(run_fine fine h).1 us, Parser.run_members hat hread, htokens, Parser.run_done rfl (by exact hframes)]
  rfl

end Skeleton

end GeneratorBench
