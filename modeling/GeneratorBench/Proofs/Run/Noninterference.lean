import GeneratorBench.Proofs.Run.Lockstep
import GeneratorBench.Proofs.Run.Replay

/-!
Looking on does not interfere. Whether anything listens to a run, at which level and to what, decides
nothing but the events: the code under test is called in the same way, and every phase comes to the same.
Of two listeners at one level, the one with fewer switches hears some of what the other one hears.
-/

namespace GeneratorBench

variable {σ α : Type}

namespace Configuration

variable {c : Configuration σ}

theorem respects_eq (c : Configuration σ) : c.Respects (· = ·) := by
  have hrespects {α : Type} (f : Callback σ α) : Callback.Respects (· = ·) f := by
    rintro cancelled m n rfl
    exact ⟨rfl, rfl, rfl⟩
  constructor
  · intro a ha c
    exact hrespects _
  · intro g hg
    cases g with
    | oneShot g => exact fun ctx => hrespects _
    | incremental g => exact ⟨fun t ctx => hrespects _, fun f hf ctx => hrespects _⟩

theorem exists_respects {m n : σ} (h : c.Stateless ∨ m = n) : ∃ M : σ → σ → Prop, c.Respects M ∧ M m n := by
  rcases h with hstateless | rfl
  · exact ⟨fun _ _ => True, hstateless.respects, trivial⟩
  · exact ⟨(· = ·), c.respects_eq, rfl⟩

end Configuration

namespace Session

variable (s : Session σ)

def heard (es : List Event) : List Event := es.filter fun e => s.log.any e.level.isWithin

theorem emit_events (e : Event) : (s.emit e).events = s.events ++ s.heard [e] := by
  unfold emit heard
  cases h : s.log.any e.level.isWithin <;> simp [h]

theorem emitAll_events (es : List Event) : (s.emitAll es).events = s.events ++ s.heard es := by
  induction es generalizing s with
  | nil => exact (List.append_nil _).symm
  | cons e es ih =>
      have hrest : (s.emitAll (e :: es)).events = ((s.emit e).emitAll es).events := rfl
      rw [hrest, ih, emit_events, List.append_assoc]
      simp only [heard, emit_log, ← List.filter_append, List.singleton_append]

theorem heard_sublist {t : Session σ} (hlog : s.log = t.log) {es fs : List Event} (h : es.Sublist fs) :
    (s.heard es).Sublist (t.heard fs) := by
  rw [heard, heard, hlog]
  exact h.filter _

end Session

namespace LoggingOptions

variable {a b : LoggingOptions}

theorem contains_iff :
    b.contains a = true ↔
      (a.testedCode = true → b.testedCode = true) ∧ (a.generatedCode = true → b.generatedCode = true) ∧
      (a.analyzerDiagnostics = true → b.analyzerDiagnostics = true) ∧
      (a.generatorDiagnostics = true → b.generatorDiagnostics = true) ∧
      (a.finalDiagnostics = true → b.finalDiagnostics = true) := by
  cases a
  cases b
  simp [contains, union]

theorem selected_sublist {p q : Bool} (h : p = true → q = true) (es : List α) :
    (if p then es else []).Sublist (if q then es else []) := by
  cases p with
  | false => exact List.nil_sublist _
  | true =>
      obtain rfl : q = true := h rfl
      exact List.Sublist.refl _

theorem result_events_sublist (h : b.contains a = true) (r : TestResult σ) :
    (r.events a).Sublist (r.events b) := by
  obtain ⟨-, hcode, hanalyzer, hgenerator, hfinal⟩ := contains_iff.1 h
  exact (((selected_sublist hanalyzer _).append (selected_sublist hgenerator _)).append
    (selected_sublist hfinal _)).append (selected_sublist hcode _)

/-- A listener with fewer switches is told some of what one with more is told, in the same words. -/
theorem hookEvents_sublist (h : b.contains a = true) (moment : Moment) (phase : Phase) (ctx : RunContext σ) :
    (a.hookEvents moment phase ctx).Sublist (b.hookEvents moment phase ctx) := by
  cases moment with
  | before => exact List.Sublist.refl _
  | after =>
      refine List.Sublist.cons_cons _ ?_
      cases phase with
      | decorate => exact selected_sublist (contains_iff.1 h).1 _
      | assemble | analyze | generate => exact List.Sublist.refl _
      | aggregate =>
          dsimp only
          cases ctx.result with
          | none => exact List.Sublist.refl _
          | some r => exact result_events_sublist h r

end LoggingOptions

/-- From `s` to `s'` nothing happens but that a listener is told `es`, if there is one. -/
structure Session.Told (s : Session σ) (es : List Event) (s' : Session σ) : Prop where
  cancelled : s'.cancelled = s.cancelled
  memory : s'.memory = s.memory
  callbacks : s'.callbacks = s.callbacks
  log : s'.log = s.log
  events : s'.events = s.events ++ s.heard es

theorem Session.emit_told (s : Session σ) (e : Event) : s.Told [e] (s.emit e) where
  cancelled := s.emit_cancelled e
  memory := s.emit_memory e
  callbacks := congrArg (List.filter _) (s.emit_journal e)
  log := s.emit_log e
  events := s.emit_events e

theorem LoggingOptions.call_told (options : LoggingOptions) (moment : Moment) (phase : Phase)
    (ctx : RunContext σ) (s : Session σ) :
    s.Told (options.hookEvents moment phase ctx) (options.plugin.call moment phase ctx s).2 where
  cancelled := Plugin.call_cancelled (options.plugin_passive.neverCancels moment phase ctx) s
  memory := Plugin.KeepsMemory.call_memory (fun _ _ _ _ _ => rfl) s
  callbacks := Plugin.call_callbacks _ moment phase ctx s
  log := Session.emitAll_log _ _
  events := Session.emitAll_events _ _

theorem TestCase.hooks_told (options : LoggingOptions) (moment : Moment) (phase : Phase) (ctx : RunContext σ)
    {s₀ s : Session σ} (hlog : s.log = s₀.log) :
    s.Told (options.hookEvents moment phase ctx)
      (Plugin.callAll moment phase ctx (plugins options s₀) s).2 := by
  cases hlistens : s₀.log with
  -- without a listener there is no plugin, and nothing would be recorded either
  | none =>
      have hnone : plugins options s₀ = [] := by simp [plugins, hlistens]
      have hdeaf : s.heard (options.hookEvents moment phase ctx) = [] := by
        simp [Session.heard, hlog, hlistens]
      rw [hnone]
      refine ⟨rfl, rfl, rfl, rfl, ?_⟩
      rw [hdeaf, List.append_nil]
      rfl
  | some level =>
      have hsome : plugins options s₀ = [options.plugin] := by simp [plugins, hlistens]
      rw [hsome]
      exact options.call_told moment phase ctx s

/-- How the session of a run that was told what `a` selects compares with the session of the same run that
was told what `b` selects. They were `s₀` and `t₀` before. -/
structure Session.Beside (M : σ → σ → Prop) (a b : LoggingOptions) (s₀ t₀ s t : Session σ) : Prop where
  cancelled : s.cancelled = t.cancelled
  memory : M s.memory t.memory
  callbacks : ∃ es, s.callbacks = s₀.callbacks ++ es ∧ t.callbacks = t₀.callbacks ++ es
  logs : s.log = s₀.log ∧ t.log = t₀.log
  events : ∃ es fs, s.events = s₀.events ++ es ∧ t.events = t₀.events ++ fs ∧
    (s₀.log = t₀.log → b.contains a = true → es.Sublist fs)

namespace Session

variable {M : σ → σ → Prop} {a b : LoggingOptions} {s₀ t₀ s s' t t' : Session σ}

theorem Beside.refl (hcancelled : s.cancelled = t.cancelled) (hmemory : M s.memory t.memory) :
    Beside M a b s t s t where
  cancelled := hcancelled
  memory := hmemory
  callbacks := ⟨[], (List.append_nil _).symm, (List.append_nil _).symm⟩
  logs := ⟨rfl, rfl⟩
  events := ⟨[], [], (List.append_nil _).symm, (List.append_nil _).symm, fun _ _ => List.Sublist.refl _⟩

theorem Beside.tell {es fs : List Event} (h : Beside M a b s₀ t₀ s t) (hs : s.Told es s') (ht : t.Told fs t')
    (hsub : b.contains a = true → es.Sublist fs) : Beside M a b s₀ t₀ s' t' where
  cancelled := by rw [hs.cancelled, ht.cancelled, h.cancelled]
  memory := by
    rw [hs.memory, ht.memory]
    exact h.memory
  callbacks := by
    rw [hs.callbacks, ht.callbacks]
    exact h.callbacks
  logs := ⟨hs.log.trans h.logs.1, ht.log.trans h.logs.2⟩
  events := by
    obtain ⟨xs, ys, hxs, hys, hheard⟩ := h.events
    refine ⟨xs ++ s.heard es, ys ++ t.heard fs, ?_, ?_, fun hlog hab => ?_⟩
    · rw [hs.events, hxs, List.append_assoc]
    · rw [ht.events, hys, List.append_assoc]
    · have hlogs : s.log = t.log := by rw [h.logs.1, h.logs.2, hlog]
      exact (hheard hlog hab).append (heard_sublist s hlogs (hsub hab))

theorem beside_lockstep (M : σ → σ → Prop) (a b : LoggingOptions) (s₀ t₀ : Session σ) :
    Lockstep M (Beside M a b s₀ t₀) where
  cancelled h := h.cancelled
  call {_ f c s t} hf hc h := by
    obtain ⟨hvalue, hcancels, hmemory⟩ := hf t.cancelled s.memory t.memory h.memory
    obtain ⟨es, hes, hes'⟩ := h.callbacks
    refine ⟨by simpa only [call, h.cancelled] using hvalue, ?_, ?_, ?_, h.logs, h.events⟩
    · simp only [call, h.cancelled, hcancels]
    · simpa only [call, h.cancelled] using hmemory
    · refine ⟨es ++ [⟨c, t.cancelled⟩], ?_, ?_⟩
      · rw [call_callbacks s hc, hes, h.cancelled, List.append_assoc]
      · rw [call_callbacks t hc, hes', List.append_assoc]

end Session

theorem TestCase.plugins_lockstep (M : σ → σ → Prop) (a b : LoggingOptions) (s₀ t₀ : Session σ) :
    Plugin.Lockstep (Session.Beside M a b s₀ t₀) (plugins a s₀) (plugins b t₀) where
  start phase s t h := h.tell (s.emit_told _) (t.emit_told _) fun _ => List.Sublist.refl _
  hooks moment phase ctx s t h := by
    refine ⟨?_, h.tell (hooks_told a moment phase ctx h.logs.1) (hooks_told b moment phase ctx h.logs.2)
      fun hab => LoggingOptions.hookEvents_sublist hab moment phase ctx⟩
    rw [Plugin.callAll_failure fun p hp => (plugins_passive a s₀ p hp).neverFails moment phase ctx,
      Plugin.callAll_failure fun p hp => (plugins_passive b t₀ p hp).neverFails moment phase ctx]

namespace TestCase

/-- Who listens to a run and to what, and what was run before, decides nothing but the events. Code that
depends only on what it is handed, or remembers the same, is called in the same way, every phase comes to the
same, and so does the run. Of two listeners at one level, the one that selects less is told some of what the
other one is told. -/
theorem run_observed (t : TestCase σ) (results : List (TestResult σ)) (a b : LoggingOptions) {s s' : Session σ}
    (hcancelled : s.cancelled = s'.cancelled) (hcode : t.configuration.Stateless ∨ s.memory = s'.memory) :
    let u : TestCase σ := { t with results := results }
    let one := t.run a s
    let other := u.run b s'
    (∃ es, one.2.callbacks = s.callbacks ++ es ∧ other.2.callbacks = s'.callbacks ++ es) ∧
      ((∃ r, one.1 = .ok ({ t with results := t.results ++ [r] }, r) ∧
          other.1 = .ok ({ u with results := results ++ [r] }, r)) ∨
        one.1 = .error .cancelled ∧ other.1 = .error .cancelled) ∧
      one.2.cancelled = other.2.cancelled ∧
      (∀ phases,
        (Run.runPhases (plugins a s) phases ⟨t.context, s⟩).1 =
          (Run.runPhases (plugins b s') phases ⟨u.context, s'⟩).1 ∧
        (Run.runPhases (plugins a s) phases ⟨t.context, s⟩).2.context =
          (Run.runPhases (plugins b s') phases ⟨u.context, s'⟩).2.context) ∧
      (s.log = s'.log → b.contains a = true →
        ∃ es fs, one.2.events = s.events ++ es ∧ other.2.events = s'.events ++ fs ∧ es.Sublist fs) := by
  intro u one other
  obtain ⟨M, hrespects, hmemory⟩ := Configuration.exists_respects hcode
  have hQ := Session.beside_lockstep M a b s s'
  have hp := plugins_lockstep M a b s s'
  have hst : Session.Beside M a b s s' s s' := .refl hcancelled hmemory
  have hphases (phases : List Phase) : Run.Alike (Session.Beside M a b s s')
      (Run.runPhases (plugins a s) phases ⟨t.context, s⟩)
      (Run.runPhases (plugins b s') phases ⟨u.context, s'⟩) := Run.runPhases_alike hQ hp phases hrespects hst
  have hrun : Run.Alike (Session.Beside M a b s s') (Run.runAll (plugins a s) ⟨t.context, s⟩)
      (Run.runAll (plugins b s') ⟨u.context, s'⟩) := Run.runAll_alike hQ hp hrespects hst
  have hend : Session.Beside M a b s s' one.2 other.2 := hrun.session
  refine ⟨hend.callbacks, ?_, hend.cancelled, fun phases => ⟨(hphases phases).outcome, (hphases phases).context⟩,
    fun hlog hab => ?_⟩
  · have houtcome : one.1 = _ := congrArg Prod.fst (t.run_eq a s)
    have houtcome' : other.1 = _ := congrArg Prod.fst (u.run_eq b s')
    rw [houtcome, houtcome', ← hrun.outcome]
    obtain ⟨⟨r, hr⟩, -⟩ | ⟨hr, -⟩ := Run.runAll_passive (plugins_passive a s) ⟨t.context, s⟩
    · rw [hr]
      exact .inl ⟨r, rfl, rfl⟩
    · rw [hr]
      exact .inr ⟨rfl, rfl⟩
  · obtain ⟨es, fs, hes, hfs, hsub⟩ := hend.events
    exact ⟨es, fs, hes, hfs, hsub hlog hab⟩

/-- A generator that counts its calls and lets nobody know. -/
theorem run_observed_counting :
    let counts : OneShotGenerator Nat := ⟨"Counts", fun _ _ calls => ⟨{}, false, calls + 1⟩⟩
    let t : TestCase Nat :=
      { configuration := { oneShots := [counts], generatorIds := ["Counts"] }, fragments := [⟨none, "class A {}"⟩] }
    let earlier : TestResult Nat := ⟨[], [], [], [], t.configuration.compile []⟩
    let s : Session Nat := { memory := 0, log := some .info }
    let s' : Session Nat := { memory := 7, log := some .info }
    let one := (t.run .none s).2
    let other := (({ t with results := [earlier] } : TestCase Nat).run .code s').2
    t.configuration.Stateless ∧ LoggingOptions.code.contains .none = true ∧
      one.callbacks = other.callbacks ∧ one.callbacks = [⟨.execute "Counts", false⟩] ∧
      one.events.Sublist other.events ∧ one.events.length = 0 ∧ other.events.length = 1 := by
  intro counts t earlier s s' one other
  have hstateless : t.configuration.Stateless := by
    constructor
    · intro a ha
      cases ha
    · intro g hg
      rw [List.mem_singleton.1 hg]
      exact fun ctx cancelled m n => ⟨rfl, rfl⟩
  have hlive : s.cancelled = s'.cancelled := rfl
  obtain ⟨⟨es, hes, hes'⟩, -, -, -, hevents⟩ :=
    run_observed t [earlier] .none .code hlive (.inl hstateless)
  obtain ⟨xs, ys, hxs, hys, hsub⟩ := hevents rfl rfl
  have hsame : one.callbacks = other.callbacks := hes.trans hes'.symm
  -- `rw` would run both to see whether they are told the same
  have hone : one.events = [] ++ xs := hxs
  have hother : other.events = [] ++ ys := hys
  have hheard : one.events.Sublist other.events := (congr (congrArg List.Sublist hone) hother).mpr hsub
  exact ⟨hstateless, rfl, hsame, by decide +kernel, hheard, by decide +kernel, by decide +kernel⟩

end TestCase

end GeneratorBench
