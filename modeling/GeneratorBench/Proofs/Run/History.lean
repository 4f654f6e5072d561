import Mathlib.Data.List.Forall2
import GeneratorBench.Proofs.Run.Outcome

/-!
Histories. Cases are derived from cases, by a change of what is to be compiled or by a run, and any case can
be derived from again. What a case compiles depends only on the calls that led to it, and its results are
those of the runs among them.
-/

namespace GeneratorBench.TestCase

variable {σ : Type}

inductive Act (σ : Type)
  | addCode (code : String)
  | addFragment (f : Fragment)
  | addImports (imports : List String)
  | inNamespace (name : String)
  | withConfiguration (c : Configuration σ)
  | configure (change : Configuration σ → Except Error (Configuration σ))
  | run (logging : LoggingOptions) (s : Session σ)

/-- A run on the way to a case, with the calls before it. -/
structure Ran (σ : Type) where
  before : List (Act σ)
  logging : LoggingOptions
  session : Session σ

namespace Act

def apply (t : TestCase σ) : Act σ → Except Error (TestCase σ)
  | addCode code => .ok (t.addCode code)
  | addFragment f => .ok (t.addFragment f)
  | addImports imports => .ok (t.addImports imports)
  | inNamespace name => .ok (t.inNamespace name)
  | withConfiguration c => .ok (t.withConfiguration c)
  | configure change => t.configure change
  | run logging s => (t.run logging s).1.map (·.1)

/-- Only a change of the configuration can fail, and a run that is cancelled in the end. -/
inductive Fails (t : TestCase σ) : Act σ → Prop
  | configure {change : Configuration σ → Except Error (Configuration σ)} {e : Error}
      (h : change t.configuration = .error e) : Fails t (.configure change)
  | run {logging : LoggingOptions} {s : Session σ} (h : (t.run logging s).2.cancelled = true) :
      Fails t (.run logging s)

def fragments : Act σ → List Fragment
  | addCode code => [⟨none, code⟩]
  | addFragment f => [f]
  | _ => []

def imports : Act σ → List String
  | addImports imports => imports
  | _ => []

def scope? : Act σ → Option String
  | inNamespace name => some name
  | _ => none

def reconfigure (c : Configuration σ) : Act σ → Configuration σ
  | withConfiguration d => d
  | configure change => (change c).toOption.getD c
  | _ => c

def ran? (before : List (Act σ)) : Act σ → Option (Ran σ)
  | run logging session => some ⟨before, logging, session⟩
  | _ => none

def runsAfter (before : List (Act σ)) : List (Act σ) → List (Ran σ)
  | [] => []
  | act :: path => (act.ran? before).toList ++ runsAfter (before ++ [act]) path

def runs (path : List (Act σ)) : List (Ran σ) := runsAfter [] path

theorem runs_append (path : List (Act σ)) (act : Act σ) :
    runs (path ++ [act]) = runs path ++ (act.ran? path).toList := by
  have h (before : List (Act σ)) : runsAfter before (path ++ [act]) =
      runsAfter before path ++ (act.ran? (before ++ path)).toList := by
    induction path generalizing before with
    | nil => simp [runsAfter]
    | cons first path ih => simp [runsAfter, ih]
  exact h []

end Act

/-- The case that a path leads to from a new one, as far as it is not about results: what was added, in
order, the last namespace, and the configuration as it was changed. -/
def ofPath (c : Configuration σ) (path : List (Act σ)) : TestCase σ where
  configuration := path.foldl Act.reconfigure c
  imports := path.flatMap Act.imports
  scope := (path.filterMap Act.scope?).getLast?
  fragments := path.flatMap Act.fragments

theorem ofPath_append (c : Configuration σ) (path : List (Act σ)) (act : Act σ) :
    ofPath c (path ++ [act]) =
      { configuration := act.reconfigure (ofPath c path).configuration
        imports := (ofPath c path).imports ++ act.imports
        scope := act.scope?.or (ofPath c path).scope
        fragments := (ofPath c path).fragments ++ act.fragments } := by
  have hscope : ((path ++ [act]).filterMap Act.scope?).getLast? =
      act.scope?.or (path.filterMap Act.scope?).getLast? := by
    rw [List.filterMap_append, List.getLast?_append]
    cases h : act.scope? with
    | none => rw [List.filterMap_cons_none h]; rfl
    | some name => rw [List.filterMap_cons_some h]; rfl
  simp only [ofPath, hscope, List.foldl_append, List.foldl_cons, List.foldl_nil, List.flatMap_append,
    List.flatMap_singleton]

structure Derived (σ : Type) where
  start : Configuration σ
  path : List (Act σ)
  test : TestCase σ

inductive Request (σ : Type)
  | new (c : Configuration σ)
  /-- A call on the case that was made as number `i`. -/
  | ask (i : Nat) (act : Act σ)

namespace Derived

/-- What comes out of all phases for what the case then held, with nothing run yet and nobody looking on but the
log, if there is one. -/
def Recorded (start : Configuration σ) (run : Ran σ) (r : TestResult σ) : Prop :=
  let held := ofPath start run.before
  let ctx : RunContext σ :=
    { configuration := held.configuration, imports := held.imports, scope := held.scope, fragments := held.fragments }
  let plugins := if run.session.log.isSome then [run.logging.plugin] else []
  ∃ after, Run.runAll plugins ⟨ctx, run.session⟩ = (.ok r, after)

/-- Without results it is the case that its path leads to, and it has one result of each run on the path. -/
structure Faithful (d : Derived σ) : Prop where
  inputs : { d.test with results := [] } = ofPath d.start d.path
  results : List.Forall₂ (Recorded d.start) (Act.runs d.path) d.test.results

def extend? (d : Derived σ) (act : Act σ) : Option (Derived σ) :=
  match act.apply d.test with
  | .ok test => some ⟨d.start, d.path ++ [act], test⟩
  | .error _ => none

end Derived

def serve (made : List (Derived σ)) : Request σ → List (Derived σ)
  | .new c => made ++ [⟨c, [], { configuration := c }⟩]
  | .ask i act => made ++ (made[i]?.bind (·.extend? act)).toList

def derive (requests : List (Request σ)) : List (Derived σ) := requests.foldl serve []

theorem run_ok_iff {t u : TestCase σ} {logging : LoggingOptions} {s : Session σ} {r : TestResult σ} :
    (t.run logging s).1 = .ok (u, r) ↔
      (Run.runAll (plugins logging s) ⟨t.context, s⟩).1 = .ok r ∧ u = { t with results := t.results ++ [r] } := by
  rw [run_eq]
  cases (Run.runAll (plugins logging s) ⟨t.context, s⟩).1 with
  | error e => simp [Except.map]
  | ok q =>
      constructor
      · intro h
        cases h
        exact ⟨rfl, rfl⟩
      · rintro ⟨h, rfl⟩
        cases h
        rfl

/-- What was run before decides nothing of what a run comes to. -/
theorem recorded_of_run {t u : TestCase σ} {start : Configuration σ} {run : Ran σ} {r : TestResult σ}
    (hsame : { t with results := [] } = ofPath start run.before) (h : (t.run run.logging run.session).1 = .ok (u, r)) :
    Derived.Recorded start run r := by
  rw [Derived.Recorded, ← hsame]
  exact ⟨_, Prod.ext (run_ok_iff.1 h).1 rfl⟩

theorem exists_of_map_ok {α β : Type} {f : α → β} {x : Except Error α} {b : β} (h : x.map f = .ok b) :
    ∃ a, x = .ok a ∧ f a = b := by
  cases x with
  | error e => cases h
  | ok a => exact ⟨a, rfl, Except.ok.inj h⟩

namespace Act

theorem apply_ok_or_fails (t : TestCase σ) (act : Act σ) :
    (∃ u, act.apply t = .ok u) ∨ act.Fails t ∧ ∃ e, act.apply t = .error e := by
  cases act with
  | addCode | addFragment | addImports | inNamespace | withConfiguration => exact .inl ⟨_, rfl⟩
  | configure change =>
      rw [apply, TestCase.configure]
      cases h : change t.configuration with
      | error e => exact .inr ⟨.configure h, e, rfl⟩
      | ok c => exact .inl ⟨_, rfl⟩
  | run logging s =>
      rw [apply, run_eq]
      obtain ⟨⟨r, hr⟩, -⟩ | ⟨hr, hcancelled⟩ :=
        Run.runAll_passive (plugins_passive logging s) ⟨t.context, s⟩
      · rw [hr]
        exact .inl ⟨_, rfl⟩
      · rw [hr]
        exact .inr ⟨.run hcancelled, _, rfl⟩

variable {t u : TestCase σ} {act : Act σ}

theorem apply_inputs {c : Configuration σ} {path : List (Act σ)} (h : act.apply t = .ok u)
    (ht : { t with results := [] } = ofPath c path) : { u with results := [] } = ofPath c (path ++ [act]) := by
  rw [ofPath_append, ← ht]
  -- each kind of call has one field of its own, and a run has none
  cases act with
  | configure change =>
      obtain ⟨d, hchange, rfl⟩ := exists_of_map_ok h
      simp [TestCase.withConfiguration, reconfigure, hchange, imports, scope?, fragments, Except.toOption]
  | run logging s =>
      obtain ⟨⟨v, r⟩, hrun, rfl⟩ := exists_of_map_ok h
      rw [(run_ok_iff.1 hrun).2]
      simp [reconfigure, imports, scope?, fragments]
  | addCode | addFragment | addImports | inNamespace | withConfiguration =>
      cases h
      simp [TestCase.addCode, TestCase.addFragment, TestCase.addImports, TestCase.inNamespace,
        TestCase.withConfiguration, reconfigure, imports, scope?, fragments]

theorem apply_results (path : List (Act σ)) (h : act.apply t = .ok u) :
    ∃ rs, u.results = t.results ++ rs ∧
      List.Forall₂ (fun run r => run.before = path ∧ ∃ v, (t.run run.logging run.session).1 = .ok (v, r))
        (act.ran? path).toList rs := by
  cases act with
  | addCode | addFragment | addImports | inNamespace | withConfiguration =>
      cases h
      exact ⟨[], (List.append_nil _).symm, .nil⟩
  | configure change =>
      obtain ⟨d, -, rfl⟩ := exists_of_map_ok h
      exact ⟨[], (List.append_nil _).symm, .nil⟩
  | run logging s =>
      obtain ⟨⟨v, r⟩, hrun, rfl⟩ := exists_of_map_ok h
      exact ⟨[r], congrArg results (run_ok_iff.1 hrun).2, .cons ⟨rfl, _, hrun⟩ .nil⟩

end Act

namespace Derived

variable {d e : Derived σ} {act : Act σ}

theorem extend?_eq_some (h : d.extend? act = some e) :
    ∃ t, act.apply d.test = .ok t ∧ e = ⟨d.start, d.path ++ [act], t⟩ := by
  rw [extend?] at h
  cases happly : act.apply d.test with
  | error e =>
      rw [happly] at h
      cases h
  | ok t =>
      rw [happly] at h
      cases h
      exact ⟨t, rfl, rfl⟩

theorem faithful_new (c : Configuration σ) : Faithful ⟨c, [], { configuration := c }⟩ := ⟨rfl, .nil⟩

theorem Faithful.extend (h : d.Faithful) (he : d.extend? act = some e) : e.Faithful := by
  obtain ⟨t, ht, rfl⟩ := extend?_eq_some he
  obtain ⟨rs, hrs, hadded⟩ := Act.apply_results d.path ht
  refine ⟨Act.apply_inputs ht h.inputs, ?_⟩
  rw [Act.runs_append, hrs]
  refine List.rel_append h.results (hadded.imp fun run r => ?_)
  rintro ⟨hbefore, v, hv⟩
  exact recorded_of_run (h.inputs.trans (congrArg _ hbefore.symm)) hv

end Derived

variable {made : List (Derived σ)}

theorem serve_extends (made : List (Derived σ)) (request : Request σ) : made <+: serve made request := by
  cases request with
  | new c => exact List.prefix_append _ _
  | ask i act => exact List.prefix_append _ _

theorem foldl_serve_extends (made : List (Derived σ)) (requests : List (Request σ)) :
    made <+: requests.foldl serve made := by
  induction requests generalizing made with
  | nil => exact List.prefix_refl _
  | cons request requests ih => exact (serve_extends made request).trans (ih _)

theorem serve_faithful (h : ∀ d ∈ made, d.Faithful) (request : Request σ) :
    ∀ d ∈ serve made request, d.Faithful := by
  cases request with
  | new c => exact List.forall_mem_append.2 ⟨h, List.forall_mem_singleton.2 (Derived.faithful_new c)⟩
  | ask i act =>
      refine List.forall_mem_append.2 ⟨h, fun e he => ?_⟩
      obtain ⟨d, hd, hextend⟩ := Option.bind_eq_some_iff.1 (Option.mem_toList.1 he)
      exact (h d (List.mem_of_getElem? hd)).extend hextend

theorem derive_faithful (requests : List (Request σ)) : ∀ d ∈ derive requests, d.Faithful := by
  have hall : ∀ made : List (Derived σ), (∀ d ∈ made, d.Faithful) →
      ∀ d ∈ requests.foldl serve made, d.Faithful := by
    induction requests with
    | nil => exact fun made h => h
    | cons request requests ih => exact fun made h => ih _ (serve_faithful h request)
  exact hall [] fun d hd => absurd hd List.not_mem_nil

/-- A call makes one more case, at the end of the path it was made on, or it fails and makes none. -/
theorem serve_ask {i : Nat} {d : Derived σ} (hd : made[i]? = some d) (act : Act σ) :
    (∃ t, act.apply d.test = .ok t ∧ serve made (.ask i act) = made ++ [⟨d.start, d.path ++ [act], t⟩]) ∨
      act.Fails d.test ∧ serve made (.ask i act) = made := by
  have hextend : made[i]?.bind (·.extend? act) = d.extend? act := by rw [hd]; rfl
  rw [serve, hextend, Derived.extend?]
  obtain ⟨t, ht⟩ | ⟨hfails, e, he⟩ := act.apply_ok_or_fails d.test
  · rw [ht]
    exact .inl ⟨t, rfl, rfl⟩
  · rw [he]
    exact .inr ⟨hfails, List.append_nil _⟩

/-- There is the one result, or there is none, or there are too many. -/
theorem result_cases (t : TestCase σ) :
    (∀ r, t.result = .ok r ↔ t.results = [r]) ∧
      (t.result = .error .noResults ↔ t.results.length = 0) ∧
      ∀ n, t.result = .error (.multipleResults n) ↔ n = t.results.length ∧ 2 ≤ n := by
  rw [result]
  match t.results with
  | [] => simp +contextual
  | [q] => simp +contextual
  | q :: r :: rs =>
      refine ⟨by simp, by simp, fun n => ?_⟩
      simp only [List.length_cons, Except.error.injEq, Error.multipleResults.injEq]
      omega

/-- However cases are derived from cases, a call on a case makes one more or fails, and changes none of those
that were made before. The results of a case are those of the runs on the path that led to it, oldest first:
each is what all phases come to for what had been put together on that path before the run, without regard to
what else was run. A case that was run exactly once has a result of its own. -/
theorem derive_records (requests : List (Request σ)) :
    (∀ later, derive requests <+: derive (requests ++ later)) ∧
      (∀ i d act, (derive requests)[i]? = some d →
        (∃ t, act.apply d.test = .ok t ∧
          derive (requests ++ [.ask i act]) = derive requests ++ [⟨d.start, d.path ++ [act], t⟩]) ∨
        act.Fails d.test ∧ derive (requests ++ [.ask i act]) = derive requests) ∧
      ∀ d ∈ derive requests, d.Faithful ∧
        (∀ r, d.test.result = .ok r ↔ d.test.results = [r]) ∧
        (d.test.result = .error .noResults ↔ (Act.runs d.path).length = 0) ∧
        ∀ n, d.test.result = .error (.multipleResults n) ↔ n = (Act.runs d.path).length ∧ 2 ≤ n := by
  refine ⟨fun later => ?_, fun i d act hd => ?_, fun d hd => ?_⟩
  · rw [derive, derive, List.foldl_append]
    exact foldl_serve_extends _ later
  · have hserve : derive (requests ++ [.ask i act]) = serve (derive requests) (.ask i act) := by
      rw [derive, derive, List.foldl_append, List.foldl_cons, List.foldl_nil]
    rw [hserve]
    exact serve_ask hd act
  · have hfaithful := derive_faithful requests d hd
    rw [hfaithful.results.length_eq]
    exact ⟨hfaithful, d.test.result_cases⟩

/-- Two cases that were derived from one, one of them by a run, and a run that is given up. -/
theorem derive_records_branching :
    let live : Session Unit := { memory := () }
    let stopped : Session Unit := { memory := (), cancelled := true }
    let requests : List (Request Unit) :=
      [.new {}, .ask 0 (.addCode "class A {}"), .ask 1 (.run .none live), .ask 2 (.addImports ["System"]),
        .ask 1 (.inNamespace "App")]
    let late : Request Unit := .ask 4 (.run .all stopped)
    (derive requests).map (fun d => (Act.runs d.path).length) = [0, 0, 1, 1, 0] ∧
      ∃ d e, (derive requests)[3]? = some d ∧ (derive requests)[4]? = some e ∧
        (d.Faithful ∧ ∃ r, d.test.result = .ok r) ∧ (e.Faithful ∧ e.test.result = .error .noResults) ∧
        derive (requests ++ [late]) = derive requests := by
  intro live stopped requests late
  have hcounts : (derive requests).map (fun d => (Act.runs d.path).length) = [0, 0, 1, 1, 0] := by
    decide +kernel
  have hcount {i : Nat} {d : Derived Unit} (h : (derive requests)[i]? = some d) :
      [0, 0, 1, 1, 0][i]? = some (Act.runs d.path).length := by
    rw [← hcounts, List.getElem?_map, h]
    rfl
  have hlength : (derive requests).length = 5 := by
    rw [← List.length_map, hcounts]
    rfl
  obtain ⟨-, hask, hall⟩ := derive_records requests
  obtain ⟨d, hd⟩ : ∃ d, (derive requests)[3]? = some d := ⟨_, List.getElem?_eq_getElem (by omega)⟩
  obtain ⟨e, he⟩ : ∃ e, (derive requests)[4]? = some e := ⟨_, List.getElem?_eq_getElem (by omega)⟩
  obtain ⟨hdFaithful, hok, -, -⟩ := hall d (List.mem_of_getElem? hd)
  obtain ⟨heFaithful, -, hnone, -⟩ := hall e (List.mem_of_getElem? he)
  have hone : (Act.runs d.path).length = 1 := (Option.some.inj (hcount hd)).symm
  have hzero : (Act.runs e.path).length = 0 := (Option.some.inj (hcount he)).symm
  obtain ⟨r, hr⟩ := List.length_eq_one_iff.1 (hdFaithful.results.length_eq.symm.trans hone)
  refine ⟨hcounts, d, e, hd, he, ⟨hdFaithful, r, (hok r).2 hr⟩, ⟨heFaithful, hnone.2 hzero⟩, ?_⟩
  obtain ⟨t, -, hmore⟩ | ⟨-, hsame⟩ := hask 4 e (.run .all stopped) he
  · have hlate : (derive (requests ++ [late])).length = 5 := by decide +kernel
    rw [hmore, List.length_append, hlength] at hlate
    cases hlate
  · exact hsame

end GeneratorBench.TestCase
