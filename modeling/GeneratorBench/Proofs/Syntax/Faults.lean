import GeneratorBench.Proofs.Syntax.Steps

/-!
How many errors were found. No step takes one back, so where a whole reading adds none, no step of it does.
-/

namespace GeneratorBench

namespace Parser

namespace State

def faults (s : State) : Nat := s.skeleton.errors.length

theorem faults_report (s : State) (cause : SyntaxError.Cause) (span : Span) :
    (s.report cause span).faults = s.faults + 1 := by
  simp [faults, report]

theorem faults_le_report (s : State) (cause : SyntaxError.Cause) (span : Span) :
    s.faults ≤ (s.report cause span).faults := by
  rw [faults_report]
  exact Nat.le_succ _

theorem not_report_faults_le (s : State) (cause : SyntaxError.Cause) (span : Span) :
    ¬ (s.report cause span).faults ≤ s.faults := by
  rw [faults_report]
  exact Nat.not_succ_le_self _

end State

theorem usingDirective_faults_le (s : State) : s.faults ≤ (usingDirective s).faults := by
  unfold usingDirective
  dsimp only
  split
  · exact s.faults_le_report _ _
  · split
    · exact Nat.le_refl _
    · split
      · exact Nat.le_refl _
      · exact s.faults_le_report _ _

theorem namespaceHead_faults_le (s : State) : s.faults ≤ (namespaceHead s).faults := by
  rw [namespaceHead]
  split
  · exact s.faults_le_report _ _
  · dsimp only
    split
    · split
      · exact s.faults_le_report _ _
      · exact Nat.le_refl _
    · split
      · exact Nat.le_refl _
      · exact s.faults_le_report _ _

theorem baseList_faults_le (s : State) : s.faults ≤ (baseList s).2.faults := by
  rw [baseList]
  split
  · dsimp only
    split
    · exact Nat.le_refl _
    · exact s.faults_le_report _ _
  · exact Nat.le_refl _

theorem skipConstraints_faults (s : State) : (skipConstraints s).faults = s.faults := by
  rw [skipConstraints]
  split
  · rfl
  · rfl

theorem typeBody_faults_le (name : String) (s : State) : s.faults ≤ (typeBody name s).faults := by
  rw [typeBody]
  split
  · exact Nat.le_refl _
  · split
    · exact Nat.le_refl _
    · exact s.faults_le_report _ _

theorem typeTail_faults_le (container : Option String) (isPartial : Bool) (name : NameRef) (s : State) :
    s.faults ≤ (typeTail container isPartial name s).faults :=
  calc s.faults
    _ ≤ _ := baseList_faults_le (s.moveTo ((s.cursor.skipGroup '<' '>').skipGroup '(' ')'))
    _ = _ := (skipConstraints_faults _).symm
    _ ≤ _ := typeBody_faults_le name.name ((skipConstraints (baseList _).2).addType _)

theorem typeHead_faults_le (container : Option String) (isPartial : Bool) (s : State) :
    s.faults ≤ (typeHead container isPartial s).faults := by
  rw [typeHead]
  split
  · exact s.faults_le_report _ _
  · split
    · exact s.faults_le_report _ _
    · rename_i t rest _ _ word _
      exact typeTail_faults_le _ _ _ (s.moveTo ⟨t :: s.cursor.before, rest⟩)

theorem typeFrom_faults_le (container : Option String) (start : Cursor.TypeStart) (s : State) :
    s.faults ≤ (typeFrom container start s).faults :=
  typeHead_faults_le container start.isPartial (s.moveTo (if start.keyword.isWord "record" &&
    (start.stop.atWord "class" || start.stop.atWord "struct") then start.stop.next else start.stop))

theorem faults_closeFrame {s : State} (h : s.frames ≠ []) : (closeFrame s).faults = s.faults + 1 := by
  rw [closeFrame]
  split
  · contradiction
  · exact s.faults_report _ _
  · exact s.faults_report _ _

theorem Move.faults_le {s t : State} (h : Move s t) : s.faults ≤ t.faults := by
  cases h with
  | done | closeBlock | semicolon | attributes | inBody | closeBody => exact Nat.le_refl _
  | giveUpBlock | giveUpBody | stray => exact s.faults_le_report _ _
  | directive => exact usingDirective_faults_le (s.moveTo s.cursor.next)
  | scope => exact namespaceHead_faults_le (s.moveTo s.cursor.next)
  | type => exact typeFrom_faults_le none _ s
  | @nested _ _ type depth _ outer =>
      exact typeFrom_faults_le (some type) _ { s with frames := .body type depth false :: outer }

theorem step_faults_le (s : State) : s.faults ≤ (step s).faults := (step_move s).faults_le

theorem run_faults_le (s : State) : s.faults ≤ (run s).faults :=
  run_preserves (P := fun t => s.faults ≤ t.faults) (fun t h => Nat.le_trans h (step_faults_le t)) (Nat.le_refl _)

theorem quiet_of_run {s : State} (quiet : (run s).faults ≤ s.faults) :
    (run (step s)).faults ≤ (step s).faults ∧ (step s).faults ≤ s.faults := by
  rw [run_step] at quiet
  exact ⟨Nat.le_trans quiet (step_faults_le s), Nat.le_trans (run_faults_le (step s)) quiet⟩

/-- Where nothing more is found at fault, no brace is open at the end. -/
theorem frames_eq_nil_of_run {s : State} (quiet : (run s).faults ≤ s.faults) (hrest : s.cursor.rest = []) :
    s.frames = [] := by
  by_contra hframes
  have hclose : step s = closeFrame s := by rw [step, hrest]
  have hfaults := run_faults_le (closeFrame s)
  rw [run_step, hclose] at quiet
  rw [faults_closeFrame hframes] at hfaults
  exact Nat.not_succ_le_self _ (Nat.le_trans hfaults quiet)

end Parser

end GeneratorBench
