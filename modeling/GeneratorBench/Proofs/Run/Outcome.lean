import GeneratorBench.Proofs.Run.Cancellation
import GeneratorBench.TestCase

/-!
How a run ends. With plugins that only look on it ends with a result or with its cancellation. A
plugin that cancels is noticed before the next phase; once the last phase has begun nobody asks any
more.
-/

namespace GeneratorBench

variable {σ : Type}

namespace Run

variable {plugins : List (Plugin σ)} {phase : Phase} {phases : List Phase} {run after : Run σ} {e : Error}

def leading : List Phase := [.decorate, .assemble, .analyze, .generate]

theorem aggregate_not_mem_leading : Phase.aggregate ∉ leading := by decide

theorem runAll_of_some (h : runPhases plugins Phase.all run = (some e, after)) :
    runAll plugins run = (.error e, after) := by
  rw [runAll, h]

/-- A run whose phases all pass asks for a cancellation before the last of them, and not again. -/
theorem runPhases_all_eq_none :
    let early := runPhases plugins leading run
    runPhases plugins Phase.all run = (none, after) ↔
      early.1 = none ∧ early.2.session.cancelled = false ∧
        runPhase plugins .aggregate early.2 = (none, after) := by
  intro early
  have hsplit : Phase.all = leading ++ [.aggregate] := rfl
  have hearly : runPhases plugins leading run = early := rfl
  rw [hsplit, runPhases_append, hearly]
  obtain ⟨failure, mid⟩ := early
  cases failure with
  | some e => simp
  | none =>
      cases live : mid.session.cancelled with
      | true => simp [runPhases, live]
      | false =>
          cases hlast : runPhase plugins .aggregate mid with
          | mk failure last =>
              cases failure with
              | some e => simp [runPhases, live, hlast]
              | none => simp [runPhases, live, hlast]

theorem runPhase_compilation (hhas : (run.context.compilation.isSome || phase == .assemble) = true)
    (h : runPhase plugins phase run = (none, after)) : after.context.compilation.isSome = true := by
  obtain ⟨s, done, hdone, hcontext⟩ := runPhase_ok h
  rw [hcontext]
  exact Phase.run_compilation hdone hhas

theorem runPhases_compilation (hhas : run.context.compilation.isSome = true ∨ .assemble ∈ phases)
    (h : runPhases plugins phases run = (none, after)) : after.context.compilation.isSome = true := by
  induction phases generalizing run with
  | nil =>
      cases h
      exact hhas.resolve_right List.not_mem_nil
  | cons phase phases ih =>
      obtain ⟨mid, hmid, hrest⟩ := runPhases_ok h
      refine ih ?_ hrest
      obtain hhas | hmem := hhas
      · exact .inl (runPhase_compilation (Bool.or_eq_true_iff.2 (.inl hhas)) hmid)
      · obtain heq | hmem := List.mem_cons.1 hmem
        · exact .inl (runPhase_compilation (Bool.or_eq_true_iff.2 (.inr (beq_iff_eq.2 heq.symm))) hmid)
        · exact .inr hmem

theorem runAll_of_none (h : runPhases plugins Phase.all run = (none, after)) :
    ∃ r, (runAll plugins run).1 = .ok r ∧ (runAll plugins run).2.session = after.session := by
  obtain ⟨hearly, -, hlast⟩ := runPhases_all_eq_none.1 h
  obtain ⟨s, done, hdone, hcontext⟩ := runPhase_ok hlast
  have hcompilation : (runPhases plugins leading run).2.context.compilation.isSome = true :=
    runPhases_compilation (.inr (by decide)) (Prod.ext hearly rfl)
  obtain ⟨ctx, hctx, hresult⟩ := Phase.run_aggregate ⟨_, s⟩ hcompilation
  rw [hctx] at hdone
  cases hdone
  obtain ⟨r, hr⟩ := Option.isSome_iff_exists.1 hresult
  refine ⟨r, ?_⟩
  rw [runAll, h]
  simp only [takeResult, hcontext, hr]
  exact ⟨trivial, trivial⟩

/-- A run gives a result exactly if no phase fails and no cancellation is noticed between two. -/
theorem exists_result_iff (plugins : List (Plugin σ)) (run : Run σ) :
    (∃ r, (runAll plugins run).1 = .ok r) ↔ (runPhases plugins Phase.all run).1 = none := by
  cases hrun : runPhases plugins Phase.all run with
  | mk failure after =>
      cases failure with
      | none =>
          obtain ⟨r, hr, -⟩ := runAll_of_none hrun
          exact iff_of_true ⟨r, hr⟩ rfl
      | some e =>
          rw [runAll_of_some hrun]
          simp

theorem runAll_session (plugins : List (Plugin σ)) (run : Run σ) :
    (runAll plugins run).2.session = (runPhases plugins Phase.all run).2.session := by
  cases hrun : runPhases plugins Phase.all run with
  | mk failure after =>
      cases failure with
      | none =>
          obtain ⟨r, -, hsession⟩ := runAll_of_none hrun
          exact hsession
      | some e => rw [runAll_of_some hrun]

theorem runAll_passive (hp : ∀ p ∈ plugins, p.Passive) (run : Run σ) :
    ((∃ r, (runAll plugins run).1 = .ok r) ∧ (runAll plugins run).2.session.cancelled = false) ∨
      ((runAll plugins run).1 = .error .cancelled ∧ (runAll plugins run).2.session.cancelled = true) := by
  cases hrun : runPhases plugins Phase.all run with
  | mk outcome after =>
      cases outcome with
      | none =>
          obtain ⟨r, hr, hsession⟩ := runAll_of_none hrun
          obtain ⟨-, live, hlast⟩ := runPhases_all_eq_none.1 hrun
          obtain ⟨s, hs, -, -, hkept⟩ := runPhase_passive hp .aggregate (runPhases plugins leading run).2
          rw [hlast, Phase.aggregate_session] at hkept
          exact .inl ⟨⟨r, hr⟩, by rw [hsession, hkept, hs, live]⟩
      | some e =>
          have hs : supplied run.context.compilation.isSome Phase.all = true := supplied_mono _ rfl
          obtain ⟨rfl, hcancelled⟩ := runPhases_error hp hs hrun
          rw [runAll_of_some hrun]
          exact .inr ⟨rfl, hcancelled⟩

theorem runAll_error_of_take {k : Nat} (hk : k < Phase.all.length)
    (h : (runPhases plugins (Phase.all.take k) run).2.session.cancelled = true) :
    ∃ e, (runAll plugins run).1 = .error e := by
  have hall := runPhases_append plugins (Phase.all.take k) (Phase.all.drop k) run
  rw [List.take_append_drop, List.drop_eq_getElem_cons hk] at hall
  cases hearly : runPhases plugins (Phase.all.take k) run with
  | mk outcome mid =>
      rw [hearly] at h hall
      cases outcome with
      | some e => exact ⟨e, by rw [runAll_of_some hall]⟩
      | none =>
          have hstopped := hall.trans (runPhases_of_cancelled h)
          exact ⟨.cancelled, by rw [runAll_of_some hstopped]⟩

theorem runPhase_aggregate_cancelled
    (hquiet : ∀ p ∈ plugins, ∀ moment ctx, Callback.NeverCancels (p.hook moment .aggregate ctx)) (run : Run σ) :
    (runPhase plugins .aggregate run).2.session.cancelled = run.session.cancelled := by
  have hkept : ∀ moment run,
      (hooks plugins moment .aggregate run).2.session.cancelled = run.session.cancelled :=
    fun moment => hooks_cancelled fun p hp => hquiet p hp moment
  have hbefore : (hooks plugins .before .aggregate
      { run with session := run.session.emit (phaseEvent .aggregate) }).2.session.cancelled =
        run.session.cancelled :=
    (hkept .before _).trans (Session.emit_cancelled _ _)
  rw [runPhase]
  split
  · rename_i e before heq
    rw [heq] at hbefore
    exact hbefore
  · rename_i before heq
    rw [heq] at hbefore
    have hdone : (Phase.aggregate.run before).2.session.cancelled = run.session.cancelled := by
      rw [Phase.aggregate_session]
      exact hbefore
    split
    · rename_i e done heq
      rw [heq] at hdone
      exact hdone
    · rename_i done heq
      rw [heq] at hdone
      exact (hkept .after done).trans hdone

/-- A result in spite of a cancellation comes of a last phase that was begun without one. -/
theorem exists_result_cancelled_iff (plugins : List (Plugin σ)) (run : Run σ) :
    let early := runPhases plugins leading run
    let late := runPhase plugins .aggregate early.2
    (∃ r, (runAll plugins run).1 = .ok r) ∧ (runAll plugins run).2.session.cancelled = true ↔
      early.1 = none ∧ early.2.session.cancelled = false ∧
        late.1 = none ∧ late.2.session.cancelled = true := by
  intro early late
  rw [exists_result_iff, runAll_session]
  constructor
  · rintro ⟨hnone, hcancelled⟩
    obtain ⟨hearly, live, hlate⟩ := runPhases_all_eq_none.1 (Prod.ext hnone rfl)
    have hlate : late = (none, (runPhases plugins Phase.all run).2) := hlate
    rw [hlate]
    exact ⟨hearly, live, rfl, hcancelled⟩
  · rintro ⟨hearly, live, hlate, hcancelled⟩
    have hrun : runPhases plugins Phase.all run = (none, late.2) :=
      runPhases_all_eq_none.2 ⟨hearly, live, Prod.ext hlate rfl⟩
    rw [hrun]
    exact ⟨rfl, hcancelled⟩

/-- A cancelled request is not given a result, unless it was cancelled by a hook of the last phase. A
cancellation that is there at the start of the run or at the end of any phase but the last is noticed;
a run that ends cancelled gets a result exactly if the last phase was begun uncancelled and passed. -/
theorem runAll_cancelled_iff (plugins : List (Plugin σ)) (run : Run σ) :
    let early := runPhases plugins leading run
    let late := runPhase plugins .aggregate early.2
    let outcome := (runAll plugins run).1
    let after := (runAll plugins run).2
    (∀ k < Phase.all.length, (runPhases plugins (Phase.all.take k) run).2.session.cancelled = true →
        ∃ e, outcome = .error e) ∧
      ((∃ r, outcome = .ok r) ∧ after.session.cancelled = true ↔
        early.1 = none ∧ early.2.session.cancelled = false ∧
          late.1 = none ∧ late.2.session.cancelled = true) ∧
      ((∀ p ∈ plugins, ∀ moment ctx, Callback.NeverCancels (p.hook moment .aggregate ctx)) →
        after.session.cancelled = true → ∃ e, outcome = .error e) := by
  intro early late outcome after
  have hexact := exists_result_cancelled_iff plugins run
  refine ⟨fun k hk h => runAll_error_of_take hk h, hexact, ?_⟩
  intro hquiet hcancelled
  cases hresult : outcome with
  | error e => exact ⟨e, rfl⟩
  | ok r =>
      obtain ⟨-, live, -, hlate⟩ := hexact.1 ⟨⟨r, hresult⟩, hcancelled⟩
      have hkept : late.2.session.cancelled = early.2.session.cancelled :=
        runPhase_aggregate_cancelled hquiet early.2
      rw [hkept, live] at hlate
      cases hlate

/-- A plugin that cancels when the last phase is over, and one that cancels a phase earlier. -/
theorem runAll_cancelled_iff_last :
    let cancelsAfter (last : Phase) : Plugin Unit :=
      ⟨"Cancels", fun moment phase _ _ _ => ⟨{}, moment == .after && phase == last, ()⟩⟩
    let run : Run Unit := ⟨{ configuration := {} }, { memory := () }⟩
    ((∃ r, (runAll [cancelsAfter .aggregate] run).1 = .ok r) ∧
        (runAll [cancelsAfter .aggregate] run).2.session.cancelled = true) ∧
      (runPhases [cancelsAfter .generate] (Phase.all.take 4) run).2.session.cancelled = true ∧
      ∃ e, (runAll [cancelsAfter .generate] run).1 = .error e := by
  intro cancelsAfter run
  have hlate : (runPhases [cancelsAfter .generate] (Phase.all.take 4) run).2.session.cancelled = true := rfl
  obtain ⟨-, hexact, -⟩ := runAll_cancelled_iff [cancelsAfter .aggregate] run
  obtain ⟨hnoticed, -, -⟩ := runAll_cancelled_iff [cancelsAfter .generate] run
  exact ⟨hexact.2 ⟨rfl, rfl, rfl, rfl⟩, hlate, hnoticed 4 (by decide) hlate⟩

end Run

namespace TestCase

def plugins (logging : LoggingOptions) (s : Session σ) : List (Plugin σ) :=
  if s.log.isSome then [logging.plugin] else []

theorem eq_of_mem_plugins {logging : LoggingOptions} {s : Session σ} {p : Plugin σ}
    (h : p ∈ plugins logging s) : p = logging.plugin := by
  rw [plugins] at h
  split at h
  · exact List.mem_singleton.1 h
  · cases h

theorem plugins_passive (logging : LoggingOptions) (s : Session σ) :
    ∀ p ∈ plugins logging s, p.Passive := fun _ hmem =>
  eq_of_mem_plugins hmem ▸ logging.plugin_passive

theorem run_eq (t : TestCase σ) (logging : LoggingOptions) (s : Session σ) :
    t.run logging s =
      ((Run.runAll (plugins logging s) ⟨t.context, s⟩).1.map fun r =>
          ({ t with results := t.results ++ [r] }, r),
        (Run.runAll (plugins logging s) ⟨t.context, s⟩).2.session) :=
  rfl

/-- A run of a case is all or nothing. It makes the case with one more result exactly if the request is
not cancelled in the end, and is given up over the cancellation otherwise. Failures of the code under
test are no reason: unless it cancels, the request is left as it was. -/
theorem run_outcome (t : TestCase σ) (logging : LoggingOptions) (s : Session σ) :
    let outcome := (t.run logging s).1
    let after := (t.run logging s).2
    ((∃ r, outcome = .ok ({ t with results := t.results ++ [r] }, r)) ↔ after.cancelled = false) ∧
      (outcome = .error .cancelled ↔ after.cancelled = true) ∧
      (t.configuration.NeverCancels → after.cancelled = s.cancelled) := by
  intro outcome after
  have hp := plugins_passive logging s
  have hrun := t.run_eq logging s
  have houtcome := congrArg Prod.fst hrun
  have hafter := congrArg Prod.snd hrun
  have hkept : t.configuration.NeverCancels → after.cancelled = s.cancelled := by
    intro hquiet
    rw [congrArg Session.cancelled hafter, Run.runAll_session]
    exact Run.runPhases_cancelled hp Phase.all hquiet
  obtain ⟨⟨r, hr⟩, live⟩ | ⟨hr, hcancelled⟩ := Run.runAll_passive hp ⟨t.context, s⟩
  · have hok : outcome = .ok ({ t with results := t.results ++ [r] }, r) := by
      rw [hr] at houtcome
      exact houtcome
    have hlive : after.cancelled = false := (congrArg Session.cancelled hafter).trans live
    rw [hok, hlive]
    exact ⟨⟨fun _ => rfl, fun _ => ⟨r, rfl⟩⟩, by simp, hlive ▸ hkept⟩
  · have herror : outcome = .error .cancelled := by
      rw [hr] at houtcome
      exact houtcome
    have hafter : after.cancelled = true := (congrArg Session.cancelled hafter).trans hcancelled
    rw [herror, hafter]
    exact ⟨by simp, by simp, hafter ▸ hkept⟩

/-- An analyzer and a generator that fail, and a generator that cancels as it breaks down. -/
theorem run_outcome_failing :
    let fails : Analyzer Unit := ⟨"Fails", fun _ _ _ => ⟨.error (.panicked none), false, ()⟩⟩
    let gives (failure : Failure) (cancels : Bool) : OneShotGenerator Unit :=
      ⟨"Gives", fun _ _ _ => ⟨{ failure := some failure }, cancels, ()⟩⟩
    let t : TestCase Unit :=
      { configuration :=
          { analyzers := [fails], oneShots := [gives (.raised "up" []) false], generatorIds := ["Gives"] } }
    let u : TestCase Unit :=
      { configuration := { oneShots := [gives (.panicked none) true], generatorIds := ["Gives"] } }
    let s : Session Unit := { memory := (), log := some .trace }
    (t.configuration.NeverCancels ∧ ∃ r, (t.run .all s).1 = .ok ({ t with results := [r] }, r)) ∧
      (u.run .all s).2.cancelled = true ∧ (u.run .all s).1 = .error .cancelled := by
  intro fails gives t u s
  have hquiet : t.configuration.NeverCancels := by
    constructor
    · intro a ha c cancelled memory
      rw [List.mem_singleton.1 ha]
    · intro g hg
      rw [List.mem_singleton.1 hg]
      exact fun ctx cancelled memory => rfl
  obtain ⟨hok, -, hkept⟩ := run_outcome t .all s
  obtain ⟨-, herror, -⟩ := run_outcome u .all s
  have hcancelled : (u.run .all s).2.cancelled = true := by decide +kernel
  exact ⟨⟨hquiet, hok.2 (hkept hquiet)⟩, hcancelled, herror.2 hcancelled⟩

end TestCase

end GeneratorBench
