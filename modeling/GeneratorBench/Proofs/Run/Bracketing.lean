import GeneratorBench.Proofs.Run.Hooks

/-!
A run, step by step. Each phase is begun, the plugins look on, the phase does its work, and the plugins
look on again; the first step that fails is the last one taken. So the hooks of a run are a first part of
the full schedule and bracket the phases: they stop early only behind a hook that fails, and otherwise
where a phase begins or works.
-/

namespace GeneratorBench

variable {σ : Type}

/-! ### Steps -/

namespace Run

inductive Step (σ : Type)
  | start (phase : Phase)
  | hook (plugin : Plugin σ) (moment : Moment) (phase : Phase)
  | work (phase : Phase)

namespace Step

def take : Step σ → Run σ → Option Error × Run σ
  | start phase, run =>
    if run.session.cancelled then (some .cancelled, run)
    else (none, { run with session := run.session.emit (phaseEvent phase) })
  | hook p moment phase, run =>
    let (e, session) := p.call moment phase run.context run.session
    (e, { run with session })
  | work phase, run => phase.run run

/-- What the journal shows of a step, the calls of the code under test left out. -/
def calls : Step σ → List Call
  | hook p moment phase => [.hook p.name moment phase]
  | start _ | work _ => []

end Step

/-- Takes steps in order, up to the first that fails. -/
def takeAll : List (Step σ) → Run σ → Option Error × Run σ
  | [], run => (none, run)
  | st :: sts, run =>
    match st.take run with
    | (some e, run) => (some e, run)
    | (none, run) => takeAll sts run

def approach (plugins : List (Plugin σ)) (phase : Phase) : List (Step σ) :=
  .start phase :: plugins.map (.hook · .before phase)

def bracket (plugins : List (Plugin σ)) (phase : Phase) : List (Step σ) :=
  approach plugins phase ++ .work phase :: plugins.map (.hook · .after phase)

/-- All that a run does if nothing fails. -/
def program (plugins : List (Plugin σ)) : List (Step σ) := Phase.all.flatMap (bracket plugins)

def schedule (plugins : List (Plugin σ)) : List Call :=
  Phase.all.flatMap fun phase =>
    plugins.map (.hook ·.name .before phase) ++ plugins.map (.hook ·.name .after phase)

variable {plugins : List (Plugin σ)} {phases : List Phase} {run mid after : Run σ} {e : Option Error}

theorem takeAll_append (sts more : List (Step σ)) (run : Run σ) :
    takeAll (sts ++ more) run =
      match takeAll sts run with
      | (some e, run) => (some e, run)
      | (none, run) => takeAll more run := by
  induction sts generalizing run with
  | nil => rfl
  | cons st sts ih =>
      rw [List.cons_append, takeAll, takeAll]
      split
      · rfl
      · exact ih _

theorem takeAll_hooks (ps : List (Plugin σ)) (moment : Moment) (phase : Phase) (run : Run σ) :
    takeAll (ps.map (.hook · moment phase)) run = hooks ps moment phase run := by
  induction ps generalizing run with
  | nil => rfl
  | cons p ps ih =>
      rw [List.map_cons, takeAll, hooks, Plugin.callAll]
      simp only [Step.take]
      cases p.call moment phase run.context run.session with
      | mk failure s =>
          cases failure with
          | some e => rfl
          | none => exact ih { run with session := s }

/-- A schedule is a program without loops or branches, left at the first step that fails. -/
theorem runPhases_eq_takeAll (plugins : List (Plugin σ)) (phases : List Phase) (run : Run σ) :
    runPhases plugins phases run = takeAll (phases.flatMap (bracket plugins)) run := by
  induction phases generalizing run with
  | nil => rfl
  | cons phase phases ih =>
      rw [List.flatMap_cons, takeAll_append, bracket, takeAll_append, approach, takeAll, runPhases]
      simp only [Step.take]
      split
      · rfl
      · simp only [takeAll_hooks, takeAll, runPhase, Step.take]
        cases hooks plugins .before phase { run with session := run.session.emit (phaseEvent phase) } with
        | mk failure before =>
            cases failure with
            | some e => rfl
            | none =>
                dsimp only
                cases phase.run before with
                | mk failure done =>
                    cases failure with
                    | some e => rfl
                    | none =>
                        dsimp only
                        cases hooks plugins .after phase done with
                        | mk failure closed =>
                            cases failure with
                            | some e => rfl
                            | none => exact ih closed

/-- From `run` to `after` these steps are taken. All but the last of them pass. -/
inductive Takes : Run σ → List (Step σ) → Option Error → Run σ → Prop
  | done (run : Run σ) : Takes run [] none run
  | failed {st : Step σ} {run after : Run σ} {e : Error} (h : st.take run = (some e, after)) :
      Takes run [st] (some e) after
  | passed {st : Step σ} {sts : List (Step σ)} {run mid after : Run σ} {e : Option Error}
      (h : st.take run = (none, mid)) (rest : Takes mid sts e after) : Takes run (st :: sts) e after

theorem exists_takes (sts : List (Step σ)) (run : Run σ) :
    ∃ ts, Takes run ts (takeAll sts run).1 (takeAll sts run).2 ∧ ts <+: sts ∧
      ((takeAll sts run).1 = none → ts = sts) := by
  induction sts generalizing run with
  | nil => exact ⟨[], .done run, List.nil_prefix, fun _ => rfl⟩
  | cons st sts ih =>
      rw [takeAll]
      cases htake : st.take run with
      | mk failure mid =>
          cases failure with
          | some e =>
              exact ⟨[st], .failed htake, List.prefix_append [st] sts, fun h => by cases h⟩
          | none =>
              obtain ⟨ts, htakes, hprefix, hall⟩ := ih mid
              exact ⟨st :: ts, .passed htake htakes, (List.prefix_cons_inj st).2 hprefix,
                fun h => congrArg (st :: ·) (hall h)⟩

namespace Takes

variable {st : Step σ} {xs ys : List (Step σ)}

theorem split (h : Takes run (xs ++ st :: ys) e after) :
    ∃ mid, Takes run xs none mid ∧ Takes mid (st :: ys) e after := by
  induction xs generalizing run with
  | nil => exact ⟨run, .done run, h⟩
  | cons x xs ih =>
      rw [List.cons_append] at h
      generalize hrest : xs ++ st :: ys = rest at h
      cases h with
      | failed h => simp at hrest
      | passed h tail =>
          obtain ⟨mid, hfirst, hlater⟩ := ih (hrest ▸ tail)
          exact ⟨mid, .passed h hfirst, hlater⟩

theorem eq_nil_of_failed (h : Takes run (st :: ys) e after) {e' : Error} {last : Run σ}
    (hfail : st.take run = (some e', last)) : ys = [] ∧ e = some e' := by
  cases h with
  | failed h =>
      cases h.symm.trans hfail
      exact ⟨rfl, rfl⟩
  | passed h rest => cases h.symm.trans hfail

theorem passes_of_none (h : Takes run (st :: ys) none after) : ∃ mid, st.take run = (none, mid) := by
  cases h with
  | passed h rest => exact ⟨_, h⟩

theorem last_failed {e : Error} (h : Takes run xs (some e) after) :
    ∃ us st mid, xs = us ++ [st] ∧ Takes run us none mid ∧ st.take mid = (some e, after) := by
  generalize hfailure : some e = failure at h
  induction h with
  | done => cases hfailure
  | @failed st run after e' h =>
      cases hfailure
      exact ⟨[], st, run, rfl, .done run, h⟩
  | @passed st sts run mid after e' h rest ih =>
      obtain ⟨us, last, before, rfl, hus, hlast⟩ := ih hfailure
      exact ⟨st :: us, last, before, rfl, .passed h hus, hlast⟩

end Takes

/-! ### Where a step stands -/

theorem bracket_split {phase : Phase} {us vs : List (Step σ)} {st : Step σ}
    (h : bracket plugins phase = us ++ st :: vs) :
    (st = .start phase ∧ us = []) ∨ (∃ p, st = .hook p .before phase) ∨
      (st = .work phase ∧ us = approach plugins phase) ∨
      ∃ p ws, st = .hook p .after phase ∧ us = approach plugins phase ++ .work phase :: ws := by
  rw [bracket] at h
  obtain ⟨as, rfl, has⟩ | ⟨bs, hbs, hvs⟩ := List.append_eq_append_iff.1 h
  · obtain ⟨rfl, hst⟩ | ⟨ws, rfl, hws⟩ := List.append_eq_cons_iff.1 has.symm
    · obtain ⟨rfl, -⟩ := List.cons_eq_cons.1 hst
      exact .inr (.inr (.inl ⟨rfl, List.append_nil _⟩))
    · obtain ⟨p, -, hp⟩ := List.mem_map.1 (hws ▸ List.mem_append_right ws List.mem_cons_self)
      exact .inr (.inr (.inr ⟨p, ws, hp.symm, rfl⟩))
  · obtain ⟨rfl, hst⟩ | ⟨cs, rfl, -⟩ := List.append_eq_cons_iff.1 hvs.symm
    · obtain ⟨rfl, -⟩ := List.cons_eq_cons.1 hst
      exact .inr (.inr (.inl ⟨rfl, (List.append_nil us).symm.trans hbs.symm⟩))
    · obtain ⟨rfl, hst⟩ | ⟨ws, rfl, hws⟩ := List.append_eq_cons_iff.1 hbs.symm
      · obtain ⟨rfl, -⟩ := List.cons_eq_cons.1 hst
        exact .inl ⟨rfl, rfl⟩
      · obtain ⟨p, -, hp⟩ := List.mem_map.1 (hws ▸ List.mem_append_right ws List.mem_cons_self)
        exact .inr (.inl ⟨p, hp.symm⟩)

theorem flatMap_bracket_split {xs ys : List (Step σ)} {st : Step σ}
    (h : phases.flatMap (bracket plugins) = xs ++ st :: ys) :
    ∃ earlier phase later us vs, phases = earlier ++ phase :: later ∧
      bracket plugins phase = us ++ st :: vs ∧ xs = earlier.flatMap (bracket plugins) ++ us := by
  induction phases generalizing xs with
  | nil => simp at h
  | cons phase phases ih =>
      rw [List.flatMap_cons] at h
      obtain ⟨as, rfl, has⟩ | ⟨bs, hbs, hys⟩ := List.append_eq_append_iff.1 h
      · obtain ⟨earlier, other, later, us, vs, rfl, hbracket, rfl⟩ := ih has
        exact ⟨phase :: earlier, other, later, us, vs, rfl, hbracket, (List.append_assoc _ _ _).symm⟩
      · obtain ⟨rfl, hst⟩ | ⟨vs, rfl, -⟩ := List.append_eq_cons_iff.1 hys.symm
        · have hrest : phases.flatMap (bracket plugins) = [] ++ st :: ys := hst
          obtain ⟨earlier, other, later, us, vs, rfl, hbracket, hxs⟩ := ih hrest
          refine ⟨phase :: earlier, other, later, us, vs, rfl, hbracket, ?_⟩
          rw [List.flatMap_cons, List.append_assoc, ← hxs, List.append_nil, hbs, List.append_nil]
        · exact ⟨[], phase, phases, xs, vs, rfl, hbs, rfl⟩

theorem calls_program (plugins : List (Plugin σ)) :
    (program plugins).flatMap Step.calls = schedule plugins := by
  have hooks (moment : Moment) (phase : Phase) :
      (plugins.map (Step.hook · moment phase)).flatMap Step.calls =
        plugins.map (.hook ·.name moment phase) := by
    rw [List.flatMap_map, List.map_eq_flatMap]
    rfl
  have brackets (phase : Phase) : (bracket plugins phase).flatMap Step.calls =
      plugins.map (.hook ·.name .before phase) ++ plugins.map (.hook ·.name .after phase) := by
    rw [bracket, approach, List.flatMap_append, List.flatMap_cons, List.flatMap_cons, hooks, hooks]
    rfl
  rw [program, schedule, List.flatMap_assoc]
  exact congrArg (Phase.all.flatMap ·) (funext brackets)

/-! ### What the steps leave -/

theorem Step.take_hookCalls (st : Step σ) (run : Run σ) :
    (st.take run).2.session.hookCalls = run.session.hookCalls ++ st.calls := by
  cases st with
  | start phase =>
      simp only [take, calls, List.append_nil]
      split
      · rfl
      · rw [Session.hookCalls, Session.emit_journal]
        rfl
  | hook p moment phase => exact p.call_hookCalls moment phase run.context run.session
  | work phase => exact (phase.run_enters run).hookCalls_eq.trans (List.append_nil _).symm

theorem Takes.hookCalls_eq {ts : List (Step σ)} (h : Takes run ts e after) :
    after.session.hookCalls = run.session.hookCalls ++ ts.flatMap Step.calls := by
  induction h with
  | done run => exact (List.append_nil _).symm
  | @failed st run after e h =>
      have hcalls := st.take_hookCalls run
      rw [h] at hcalls
      rw [hcalls, List.flatMap_singleton]
  | @passed st sts run mid after e h rest ih =>
      have hcalls := st.take_hookCalls run
      rw [h] at hcalls
      rw [ih, hcalls, List.flatMap_cons, List.append_assoc]

theorem Step.take_compilation {st : Step σ} (hhas : run.context.compilation.isSome = true ∨ st = .work .assemble)
    (h : st.take run = (none, mid)) : mid.context.compilation.isSome = true := by
  cases st with
  | start phase =>
      simp only [take] at h
      split at h
      · cases h
      · cases h
        exact hhas.resolve_right (by simp)
  | hook p moment phase =>
      have hcontext : mid.context = run.context := congrArg (·.2.context) h.symm
      rw [hcontext]
      exact hhas.resolve_right (by simp)
  | work phase =>
      refine Phase.run_compilation h ?_
      simpa using hhas

theorem Takes.compilation {ts : List (Step σ)}
    (hhas : run.context.compilation.isSome = true ∨ .work .assemble ∈ ts) (h : Takes run ts none after) :
    after.context.compilation.isSome = true := by
  generalize hnone : none = e at h
  induction h with
  | done run => exact hhas.resolve_right List.not_mem_nil
  | failed h => cases hnone
  | passed h rest ih =>
      obtain hhas | hmem := hhas
      · exact ih (.inl (Step.take_compilation (.inl hhas) h)) hnone
      · obtain heq | hmem := List.mem_cons.1 hmem
        · exact ih (.inl (Step.take_compilation (.inr heq.symm) h)) hnone
        · exact ih (.inr hmem) hnone

/-! ### Whole runs -/

/-- What a run of all phases that took the steps `ts` owes to its plugins. -/
structure Bracketed (plugins : List (Plugin σ)) (run : Run σ) (ts : List (Step σ))
    (outcome : Except Error (TestResult σ)) : Prop where
  program : ts <+: program plugins
  schedule : ts.flatMap Step.calls <+: schedule plugins
  /-- A run with a result calls all hooks. -/
  complete : ∀ r, outcome = .ok r → ts.flatMap Step.calls = Run.schedule plugins
  /-- A hook that fails is the last one, and its error is what the run comes to. -/
  failing : ∀ xs p moment phase ys, ts = xs ++ .hook p moment phase :: ys →
    ∃ mid, Takes run xs none mid ∧
      ∀ e, (p.call moment phase mid.context mid.session).1 = some e → ys = [] ∧ outcome = .error e
  /-- Hooks after a phase are called only if the phase has passed. -/
  passed : ∀ xs p phase ys, ts = xs ++ .hook p .after phase :: ys →
    ∃ us vs mid done, xs = us ++ .work phase :: vs ∧ Takes run us none mid ∧ phase.run mid = (none, done)
  /-- Any other run without a result was cancelled, and it stopped at the start of a phase or in its work:
  for every phase it called all hooks of a moment or none. -/
  stopped : ∀ e, outcome = .error e →
    (∃ xs p moment phase mid, ts = xs ++ [.hook p moment phase] ∧ Takes run xs none mid ∧
      (p.call moment phase mid.context mid.session).1 = some e) ∨
    e = .cancelled ∧ (runAll plugins run).2.session.cancelled = true ∧
      ∃ earlier phase later, Phase.all = earlier ++ phase :: later ∧
        (ts = earlier.flatMap (bracket plugins) ++ [.start phase] ∨
          ts = earlier.flatMap (bracket plugins) ++ approach plugins phase ++ [.work phase])

theorem assemble_mem_of_needsCompilation {earlier later : List Phase} {phase : Phase}
    (h : Phase.all = earlier ++ phase :: later) (hneeds : phase.needsCompilation = true) :
    .assemble ∈ earlier := by
  match earlier with
  | [] =>
      cases h
      cases hneeds
  | [_] =>
      cases h
      cases hneeds
  | _ :: second :: _ =>
      obtain ⟨-, h⟩ := List.cons_eq_cons.1 h
      obtain ⟨rfl, -⟩ := List.cons_eq_cons.1 h
      exact List.mem_cons_of_mem _ List.mem_cons_self

/-- A run that is given up in a phase's own steps was cancelled. -/
theorem program_failed {us ys : List (Step σ)} {st : Step σ} {e : Error}
    (hprogram : program plugins = us ++ st :: ys) (hus : Takes run us none mid)
    (hst : st.take mid = (some e, after)) :
    (∃ p moment phase, st = .hook p moment phase ∧
      (p.call moment phase mid.context mid.session).1 = some e) ∨
    e = .cancelled ∧ after.session.cancelled = true ∧
      ∃ earlier phase later, Phase.all = earlier ++ phase :: later ∧
        (st = .start phase ∧ us = earlier.flatMap (bracket plugins) ∨
          st = .work phase ∧ us = earlier.flatMap (bracket plugins) ++ approach plugins phase) := by
  obtain ⟨earlier, phase, later, vs, ws, hphases, hbracket, rfl⟩ := flatMap_bracket_split hprogram
  obtain ⟨rfl, rfl⟩ | ⟨p, rfl⟩ | ⟨rfl, rfl⟩ | ⟨p, ws, rfl, -⟩ := bracket_split hbracket
  · refine .inr ?_
    simp only [Step.take] at hst
    split at hst
    · rename_i hcancelled
      cases hst
      exact ⟨rfl, hcancelled, earlier, phase, later, hphases, .inl ⟨rfl, List.append_nil _⟩⟩
    · cases hst
  · exact .inl ⟨p, .before, phase, rfl, congrArg Prod.fst hst⟩
  · have hneeds : (mid.context.compilation.isSome || !phase.needsCompilation) = true := by
      cases hneeds : phase.needsCompilation with
      | false => exact Bool.or_true _
      | true =>
          have hassemble : (.work .assemble : Step σ) ∈ earlier.flatMap (bracket plugins) :=
            List.mem_flatMap.2 ⟨.assemble, assemble_mem_of_needsCompilation hphases hneeds, by simp [bracket]⟩
          rw [hus.compilation (.inr (List.mem_append_left _ hassemble))]
          rfl
    obtain ⟨rfl, hcancelled⟩ := Phase.run_error hst hneeds
    exact .inr ⟨rfl, hcancelled, earlier, phase, later, hphases, .inr ⟨rfl, rfl⟩⟩
  · exact .inl ⟨p, .after, phase, rfl, congrArg Prod.fst hst⟩

theorem runAll_eq_error_iff (plugins : List (Plugin σ)) (run : Run σ) (e : Error) :
    (runAll plugins run).1 = .error e ↔ (runPhases plugins Phase.all run).1 = some e := by
  cases hrun : runPhases plugins Phase.all run with
  | mk failure after =>
      cases failure with
      | none =>
          obtain ⟨r, hr, -⟩ := runAll_of_none hrun
          simp [hr]
      | some e' => simp [runAll_of_some hrun]

/-- The hooks of a run are a first part of the full schedule and bracket its phases. -/
theorem runAll_bracketed (plugins : List (Plugin σ)) (run : Run σ) :
    let outcome := (runAll plugins run).1
    let after := (runAll plugins run).2
    ∃ ts failure last, Takes run ts failure last ∧ runPhases plugins Phase.all run = (failure, last) ∧
      after.session.hookCalls = run.session.hookCalls ++ ts.flatMap Step.calls ∧
      Bracketed plugins run ts outcome := by
  intro outcome after
  obtain ⟨ts, htakes, hprefix, hall⟩ := exists_takes (program plugins) run
  rw [program, ← runPhases_eq_takeAll] at htakes hall
  have hsession : after.session = (runPhases plugins Phase.all run).2.session := runAll_session plugins run
  have houtcome : ∀ e, outcome = .error e ↔ (runPhases plugins Phase.all run).1 = some e :=
    runAll_eq_error_iff plugins run
  have hschedule : ts.flatMap Step.calls <+: schedule plugins := by
    obtain ⟨rest, hrest⟩ := hprefix
    rw [← calls_program, ← hrest, List.flatMap_append]
    exact List.prefix_append _ _
  refine ⟨ts, _, _, htakes, rfl, hsession ▸ htakes.hookCalls_eq, hprefix, hschedule, ?_, ?_, ?_, ?_⟩
  · intro r hr
    rw [hall ((exists_result_iff plugins run).1 ⟨r, hr⟩)]
    exact calls_program plugins
  · rintro xs p moment phase ys rfl
    obtain ⟨mid, hxs, hrest⟩ := htakes.split
    refine ⟨mid, hxs, fun e he => ?_⟩
    obtain ⟨rfl, hfailure⟩ := hrest.eq_nil_of_failed (Prod.ext he rfl)
    exact ⟨rfl, (houtcome e).2 hfailure⟩
  · rintro xs p phase ys rfl
    obtain ⟨rest, hrest⟩ := hprefix
    rw [List.append_assoc] at hrest
    obtain ⟨earlier, other, later, us, vs, -, hbracket, rfl⟩ := flatMap_bracket_split hrest.symm
    obtain ⟨heq, -⟩ | ⟨q, heq⟩ | ⟨heq, -⟩ | ⟨q, ws, heq, rfl⟩ := bracket_split hbracket
    · cases heq
    · cases heq
    · cases heq
    · cases heq
      refine ⟨earlier.flatMap (bracket plugins) ++ approach plugins phase, ws, ?_⟩
      rw [← List.append_assoc] at htakes ⊢
      obtain ⟨mid, hxs, -⟩ := htakes.split
      obtain ⟨start, hus, hwork⟩ := hxs.split
      obtain ⟨done, hdone⟩ := hwork.passes_of_none
      exact ⟨start, done, rfl, hus, hdone⟩
  · intro e he
    rw [(houtcome e).1 he] at htakes
    obtain ⟨us, st, mid, rfl, hus, hst⟩ := htakes.last_failed
    obtain ⟨rest, hrest⟩ := hprefix
    rw [List.append_assoc] at hrest
    obtain ⟨p, moment, phase, rfl, hfail⟩ | ⟨rfl, hcancelled, earlier, phase, later, hphases, hwhere⟩ :=
      program_failed hrest.symm hus hst
    · exact .inl ⟨us, p, moment, phase, mid, rfl, hus, hfail⟩
    · refine .inr ⟨rfl, hsession ▸ hcancelled, earlier, phase, later, hphases, ?_⟩
      obtain ⟨rfl, rfl⟩ | ⟨rfl, rfl⟩ := hwhere
      · exact .inl rfl
      · exact .inr rfl

end Run

end GeneratorBench
