import GeneratorBench.Proofs.Run.Outcome

/-!
How a run is closed. The last phase puts the result into the context and the end of the run takes it
out again; only a hook after the last phase can come between the two.
-/

namespace GeneratorBench

variable {σ : Type}

theorem Phase.run_result {phase : Phase} (h : phase ≠ .aggregate) (run : Run σ) :
    (phase.run run).2.context.result = run.context.result :=
  run_kept (f := RunContext.result)
    ⟨fun _ _ => rfl, fun _ _ => rfl, fun _ _ => rfl, fun _ _ _ _ => rfl⟩ h run

namespace Run

variable {plugins : List (Plugin σ)} {phase : Phase} {phases : List Phase} {run after : Run σ} {e : Error}

theorem runPhase_result (plugins : List (Plugin σ)) (h : phase ≠ .aggregate) (run : Run σ) :
    (runPhase plugins phase run).2.context.result = run.context.result :=
  runPhase_kept (Phase.run_result h) plugins run

theorem runPhases_result (plugins : List (Plugin σ)) (h : .aggregate ∉ phases) (run : Run σ) :
    (runPhases plugins phases run).2.context.result = run.context.result := by
  induction phases generalizing run with
  | nil => rfl
  | cons phase phases ih =>
      rw [List.mem_cons, not_or] at h
      have hphase := runPhase_result plugins (Ne.symm h.1) run
      rw [runPhases]
      split
      · rfl
      · split
        · rename_i e mid hmid
          rw [hmid] at hphase
          exact hphase
        · rename_i mid hmid
          rw [hmid] at hphase
          exact (ih h.2 mid).trans hphase

/-- The hooks before the last phase. -/
def opening (plugins : List (Plugin σ)) (run : Run σ) : Option Error × Run σ :=
  hooks plugins .before .aggregate { run with session := run.session.emit (phaseEvent .aggregate) }

/-- The hooks after the last phase, which has just made the result. -/
def closing (plugins : List (Plugin σ)) (run : Run σ) : Option Error × Run σ :=
  hooks plugins .after .aggregate (Phase.aggregate.run (opening plugins run).2).2

theorem closing_context (plugins : List (Plugin σ)) {c : Compilation} (hc : run.context.compilation = some c) :
    (closing plugins run).2.context = run.context.conclude c := by
  have hkept : (closing plugins run).2.context =
      (Phase.aggregate.run (opening plugins run).2).2.context := rfl
  have hopening : (opening plugins run).2.context = run.context := rfl
  rw [hkept]
  simp only [Phase.run, RunContext.requireCompilation, hopening, hc]

/-- With a compilation at hand the last phase itself does not fail. -/
theorem runPhase_aggregate (h : run.context.compilation.isSome = true) :
    runPhase plugins .aggregate run =
      if (opening plugins run).1 = none then closing plugins run else opening plugins run := by
  obtain ⟨ctx, hdone, -⟩ := Phase.run_aggregate (opening plugins run).2 h
  have hopening : hooks plugins .before .aggregate
      { run with session := run.session.emit (phaseEvent .aggregate) } = opening plugins run := rfl
  rw [runPhase, hopening, closing]
  generalize opening plugins run = opened at hdone ⊢
  obtain ⟨failure, before⟩ := opened
  cases failure with
  | some e => rfl
  | none =>
      simp only [if_pos]
      rw [hdone]

/-- The run gets as far as the hooks after the last phase. -/
structure ReachesClosing (plugins : List (Plugin σ)) (run : Run σ) : Prop where
  early : (runPhases plugins leading run).1 = none
  live : (runPhases plugins leading run).2.session.cancelled = false
  opened : (opening plugins (runPhases plugins leading run).2).1 = none

theorem runPhases_all_of_early {mid : Run σ} (hearly : runPhases plugins leading run = (none, mid))
    (live : mid.session.cancelled = false) :
    runPhases plugins Phase.all run =
      if (opening plugins mid).1 = none then closing plugins mid else opening plugins mid := by
  have hcompilation : mid.context.compilation.isSome = true :=
    runPhases_compilation (.inr (by decide)) hearly
  have hsplit : Phase.all = leading ++ [.aggregate] := rfl
  rw [hsplit, runPhases_append, hearly, ← runPhase_aggregate hcompilation]
  simp only [runPhases, live, Bool.false_eq_true, if_false]
  split
  · rename_i hsome
    exact hsome.symm
  · rename_i hnone
    exact hnone.symm

theorem runAll_of_not_reachesClosing (h : ¬ReachesClosing plugins run) :
    ∃ e last, runAll plugins run = (.error e, last) ∧ last.context.result = run.context.result := by
  have hkept := runPhases_result plugins aggregate_not_mem_leading run
  cases hearly : runPhases plugins leading run with
  | mk failure mid =>
      rw [hearly] at hkept
      have hall := runPhases_append plugins leading [.aggregate] run
      rw [hearly] at hall
      cases failure with
      | some e => exact ⟨e, mid, runAll_of_some hall, hkept⟩
      | none =>
          cases live : mid.session.cancelled with
          | true => exact ⟨.cancelled, mid, runAll_of_some (hall.trans (runPhases_of_cancelled live)), hkept⟩
          | false =>
              have hlast := runPhases_all_of_early hearly live
              cases hopened : opening plugins mid with
              | mk failure before =>
                  have hcontext : before.context = mid.context := congrArg (·.2.context) hopened.symm
                  rw [hopened] at hlast
                  cases failure with
                  | some e => exact ⟨e, before, runAll_of_some hlast, by rw [hcontext, hkept]⟩
                  | none => exact absurd ⟨by rw [hearly], by rw [hearly, live], by rw [hearly, hopened]⟩ h

theorem runAll_of_reachesClosing (h : ReachesClosing plugins run) :
    ∃ c r failure done, (runPhases plugins leading run).2.context.compilation = some c ∧
      ((runPhases plugins leading run).2.context.conclude c).result = some r ∧
      closing plugins (runPhases plugins leading run).2 = (failure, done) ∧
      done.context.result = some r ∧
      runAll plugins run = match failure with
        | some e => (.error e, done)
        | none => (.ok r, { done with context := { done.context with result := none } }) := by
  obtain ⟨hearly, live, hopened⟩ := h
  generalize hmid : (runPhases plugins leading run).2 = mid at live hopened ⊢
  have hearly : runPhases plugins leading run = (none, mid) := Prod.ext hearly hmid
  obtain ⟨c, hc⟩ := Option.isSome_iff_exists.1 (runPhases_compilation (.inr (by decide)) hearly)
  have hcontext := closing_context plugins hc
  have hall := runPhases_all_of_early hearly live
  rw [if_pos hopened] at hall
  cases hclosed : closing plugins mid with
  | mk failure done =>
      rw [hclosed] at hall hcontext
      obtain ⟨r, hr⟩ : ∃ r, (mid.context.conclude c).result = some r := ⟨_, rfl⟩
      have hdone : done.context.result = some r := (congrArg RunContext.result hcontext).trans hr
      refine ⟨c, r, failure, done, hc, hr, rfl, hdone, ?_⟩
      cases failure with
      | some e => exact runAll_of_some hall
      | none =>
          rw [runAll, hall]
          simp only [takeResult, hdone]

theorem runAll_of_passive {mid : Run σ} (hp : ∀ p ∈ plugins, p.Passive)
    (hearly : runPhases plugins leading run = (none, mid)) (live : mid.session.cancelled = false) :
    ∃ c r after, mid.context.compilation = some c ∧ (mid.context.conclude c).result = some r ∧
      runAll plugins run = (.ok r, after) := by
  have hfine : ∀ moment run, (hooks plugins moment .aggregate run).1 = none := fun moment run =>
    Plugin.callAll_failure (fun p hmem => (hp p hmem).neverFails moment .aggregate run.context) run.session
  have hreaches : ReachesClosing plugins run := by
    constructor
    · rw [hearly]
    · rwa [hearly]
    · exact hfine .before _
  obtain ⟨c, r, failure, done, hc, hr, hclosed, -, hrun⟩ := runAll_of_reachesClosing hreaches
  rw [hearly] at hc hr hclosed
  cases failure with
  | some e =>
      have hfailure : (closing plugins mid).1 = none := hfine .after _
      rw [hclosed] at hfailure
      cases hfailure
  | none => exact ⟨c, r, _, hc, hr, hrun⟩

/-- A run that fails leaves no result behind, unless it is the hooks after the last phase that fail: the
result was just made, and nobody takes it out. A run that succeeds leaves none. -/
theorem runAll_leaves_result_iff (plugins : List (Plugin σ)) {run : Run σ}
    (fresh : run.context.result = none) :
    let outcome := (runAll plugins run).1
    let left := (runAll plugins run).2.context.result
    (∀ e, outcome = .error e ∧ left ≠ none ↔
        ReachesClosing plugins run ∧ (closing plugins (runPhases plugins leading run).2).1 = some e) ∧
      (∀ r, outcome = .ok r → left = none) ∧
      ((∀ p ∈ plugins, ∀ ctx cancelled memory,
          (p.hook .after .aggregate ctx cancelled memory).value.failure = none) → left = none) := by
  intro outcome left
  by_cases h : ReachesClosing plugins run
  · obtain ⟨-, r, failure, done, -, -, hclosed, hr, hrun⟩ := runAll_of_reachesClosing h
    have houtcome := congrArg Prod.fst hrun
    have hleft := congrArg (·.2.context.result) hrun
    have hfine : (∀ p ∈ plugins, ∀ ctx cancelled memory,
        (p.hook .after .aggregate ctx cancelled memory).value.failure = none) → failure = none := by
      intro hquiet
      have hfailure : (closing plugins (runPhases plugins leading run).2).1 = none :=
        Plugin.callAll_failure (fun p hp => hquiet p hp _) _
      rwa [hclosed] at hfailure
    cases failure with
    | some e =>
        have houtcome : outcome = .error e := houtcome
        have hleft : left = some r := hleft.trans hr
        rw [houtcome, hleft, hclosed]
        exact ⟨fun e' => by simp [h], by simp, fun hquiet => absurd (hfine hquiet) (by simp)⟩
    | none =>
        have houtcome : outcome = .ok r := houtcome
        have hleft : left = none := hleft
        rw [houtcome, hleft, hclosed]
        exact ⟨by simp, fun _ _ => rfl, fun _ => rfl⟩
  · obtain ⟨e, last, hrun, hkept⟩ := runAll_of_not_reachesClosing h
    have hleft : left = none := (congrArg (·.2.context.result) hrun).trans (hkept.trans fresh)
    exact ⟨fun e' => by simp [h, hleft], fun _ _ => hleft, fun _ => hleft⟩

/-- A plugin that fails when the last phase is over, and one that fails a phase earlier. -/
theorem runAll_leaves_result_closing :
    let failsAfter (last : Phase) : Plugin Unit :=
      ⟨"Fails", fun moment phase _ _ _ =>
        ⟨{ failure := if moment = .after ∧ phase = last then some .noResults else none }, false, ()⟩⟩
    let run : Run Unit := ⟨{ configuration := {} }, { memory := () }⟩
    run.context.result = none ∧
      ((runAll [failsAfter .aggregate] run).1 = .error .noResults ∧
        (runAll [failsAfter .aggregate] run).2.context.result ≠ none) ∧
      (runAll [failsAfter .generate] run).1 = .error .noResults ∧
      (runAll [failsAfter .generate] run).2.context.result = none := by
  intro failsAfter run
  have fresh : run.context.result = none := rfl
  obtain ⟨hexact, -, -⟩ := runAll_leaves_result_iff [failsAfter .aggregate] fresh
  obtain ⟨-, -, hquiet⟩ := runAll_leaves_result_iff [failsAfter .generate] fresh
  refine ⟨fresh, (hexact .noResults).2 ⟨⟨rfl, rfl, rfl⟩, rfl⟩, rfl, hquiet ?_⟩
  intro p hp ctx cancelled memory
  rw [List.mem_singleton.1 hp]
  rfl

end Run

end GeneratorBench
