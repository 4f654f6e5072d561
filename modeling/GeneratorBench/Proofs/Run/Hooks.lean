import GeneratorBench.Proofs.Run.Promptness

/-!
Hooks in the journal of a session. A phase does nothing to a session but call the code under test, so
every hook that the journal shows was called by the plugins around the phases.
-/

namespace GeneratorBench

variable {σ α : Type}

def Call.isHook : Call → Bool
  | hook .. => true
  | analyze _ | execute _ | visit .. | finalize _ | note _ => false

def Session.hookCalls (s : Session σ) : List Call := (s.journal.map (·.call)).filter Call.isHook

/-- From `s` to `s'` nothing happens but calls of the code under test. -/
inductive Session.Enters : Session σ → Session σ → Prop
  | refl (s : Session σ) : Enters s s
  | call {α : Type} {s mid : Session σ} (h : Enters s mid) {c : Call} (hc : c.isCallback = true)
      (f : Callback σ α) : Enters s (mid.call c f).2

namespace Session.Enters

variable {s mid s' : Session σ}

theorem trans (h : Enters s mid) (h' : Enters mid s') : Enters s s' := by
  induction h' with
  | refl => exact h
  | call _ hc f ih => exact .call (ih h) hc f

theorem single (s : Session σ) {c : Call} (hc : c.isCallback = true) (f : Callback σ α) :
    Enters s (s.call c f).2 :=
  (refl s).call hc f

theorem hookCalls_eq (h : Enters s s') : s'.hookCalls = s.hookCalls := by
  induction h with
  | refl => rfl
  | @call _ _ mid _ c hc f ih =>
      have hnot : c.isHook = false := by
        cases c with
        | analyze | execute | visit | finalize => rfl
        | hook | note => cases hc
      rw [← ih, hookCalls, call_journal, List.map_append, List.filter_append, List.map_singleton,
        List.filter_cons_of_neg (by simp [hnot])]
      exact List.append_nil _

end Session.Enters

open Session (Enters)

theorem Analyzer.runAll_enters (c : Compilation) (as : List (Analyzer σ)) (s : Session σ) :
    Enters s (runAll c as s).2 := by
  induction as generalizing s with
  | nil => exact .refl s
  | cons a as ih =>
      rw [runAll]
      split
      · exact .refl s
      · exact (Enters.single s rfl _).trans (ih _)

namespace Generator

theorem finish_enters (g : IncrementalGenerator σ) (p : Progress) (s : Session σ) :
    Enters s (finish g p s).2 := by
  rw [finish]
  split
  · exact .refl s
  · exact .single s rfl _

theorem visitTrees_enters (g : IncrementalGenerator σ) (ts : List SourceTree) (p : Progress)
    (s : Session σ) : Enters s (visitTrees g ts p s).2 := by
  induction ts generalizing p s with
  | nil => exact finish_enters g p s
  | cons t ts ih =>
      rw [visitTrees]
      split
      · exact finish_enters g p s
      · dsimp only
        split
        · exact .single s rfl _
        · exact (Enters.single s rfl _).trans (ih _ _)

theorem run_enters (g : Generator σ) (c : Compilation) (s : Session σ) : Enters s (g.run c s).2 := by
  rw [run]
  split
  · exact .refl s
  · cases g with
    | oneShot g => exact .single s rfl _
    | incremental g => exact visitTrees_enters g c.trees _ s

end Generator

theorem Run.generate_enters (gs : List (Generator σ)) (c : Compilation) (run : Run σ) :
    Enters run.session (generate gs c run).2.session :=
  generate_related .refl .trans (fun g _ c s => g.run_enters c s) c run

theorem Phase.run_enters (phase : Phase) (run : Run σ) :
    Enters run.session (phase.run run).2.session := by
  obtain h | ⟨c, h⟩ | ⟨c, h⟩ := phase.run_session run
  · exact h ▸ .refl _
  · exact h ▸ Analyzer.runAll_enters c _ _
  · exact h ▸ Run.generate_enters _ c run

theorem Plugin.call_hookCalls (p : Plugin σ) (moment : Moment) (phase : Phase) (ctx : RunContext σ)
    (s : Session σ) :
    (p.call moment phase ctx s).2.hookCalls = s.hookCalls ++ [.hook p.name moment phase] := by
  rw [Session.hookCalls, Session.hookCalls, List.filter_map, List.filter_map]
  refine (congrArg (List.map _) (p.call_filter_journal (fun _ => rfl) moment phase ctx s)).trans ?_
  rw [List.filter_append, List.map_append]
  rfl

end GeneratorBench
