import GeneratorBench.Proofs.Run.Folding
import GeneratorBench.Proofs.Run.Outcome

/-!
How promptly a run heeds a cancellation. The callback that cancels is the last one of the run, with one
exception: a generator whose visit cancels and does not fail is still asked to finish.
-/

namespace GeneratorBench

variable {σ α : Type}

/-- An entry into the code under test, and not into a plugin. -/
def Call.isCallback : Call → Bool
  | analyze _ | execute _ | visit .. | finalize _ => true
  | hook .. | note _ => false

def Session.callbacks (s : Session σ) : List JournalEntry := s.journal.filter (·.call.isCallback)

def Prompt (es : List JournalEntry) : Prop := ∀ e ∈ es, e.cancelled = false

/-- A live request may be cancelled by it, in a call that comes to `value`. -/
def Callback.CancelsWith (f : Callback σ α) (value : α) : Prop :=
  ∃ memory, (f false memory).cancels = true ∧ (f false memory).value = value

/-- A call that cancels and after which the code under test is left alone. -/
inductive Configuration.StopsAt (c : Configuration σ) : Call → Prop
  | analyze {a : Analyzer σ} {compilation : Compilation} {value : Except Failure (List Diagnostic)}
      (mem : a ∈ c.analyzers) (cancels : (a.analyze compilation).CancelsWith value) : StopsAt c (.analyze a.id)
  | execute {g : OneShotGenerator σ} {ctx : GeneratorContext} {value : Contribution}
      (mem : .oneShot g ∈ c.generators) (cancels : (g.execute ctx).CancelsWith value) : StopsAt c (.execute g.id)
  | visit {g : IncrementalGenerator σ} {t : SourceTree} {ctx : GeneratorContext} {value : Contribution}
      (mem : .incremental g ∈ c.generators) (cancels : (g.visit t ctx).CancelsWith value)
      (ends : value.failure.isSome = true ∨ g.finalize = none) : StopsAt c (.visit g.id t.filePath)
  | finalize {g : IncrementalGenerator σ} {f : GeneratorContext → Callback σ Contribution}
      {ctx : GeneratorContext} {value : Contribution} (mem : .incremental g ∈ c.generators)
      (finishes : g.finalize = some f) (cancels : (f ctx).CancelsWith value) : StopsAt c (.finalize g.id)

/-- The callbacks of a stretch of a run, by whether the request is cancelled before and after it. -/
inductive Configuration.Calls (c : Configuration σ) : Bool → Bool → List JournalEntry → Prop
  | idle : Calls c true true []
  | live {es : List JournalEntry} (prompt : Prompt es) : Calls c false false es
  | stopped {es : List JournalEntry} {call : Call} (prompt : Prompt es) (stops : c.StopsAt call) :
      Calls c false true (es ++ [⟨call, false⟩])
  /-- The visit that cancels is the last one, but the generator is asked to finish all the same. -/
  | finishedLate {es : List JournalEntry} {g : IncrementalGenerator σ} {t : SourceTree} {ctx : GeneratorContext}
      {value : Contribution} (prompt : Prompt es) (mem : .incremental g ∈ c.generators)
      (cancels : (g.visit t ctx).CancelsWith value) (fine : value.failure = none)
      (finishes : g.finalize ≠ none) :
      Calls c false true (es ++ [⟨.visit g.id t.filePath, false⟩, ⟨.finalize g.id, true⟩])

/-- No generator that is asked to finish cancels in a visit, unless it fails there. -/
def Configuration.StopsAtOnce (c : Configuration σ) : Prop :=
  ∀ g, .incremental g ∈ c.generators → g.finalize ≠ none →
    ∀ t ctx value, (g.visit t ctx).CancelsWith value → value.failure ≠ none

section

variable {c : Configuration σ} {es fs : List JournalEntry} {p q r : Bool}

theorem prompt_append (he : Prompt es) (hf : Prompt fs) : Prompt (es ++ fs) := List.forall_mem_append.2 ⟨he, hf⟩

theorem prompt_singleton (call : Call) : Prompt [⟨call, false⟩] := List.forall_mem_singleton.2 rfl

theorem prompt_nil : Prompt [] := fun _ h => absurd h List.not_mem_nil

theorem Configuration.Calls.append (h : c.Calls p q es) (h' : c.Calls q r fs) : c.Calls p r (es ++ fs) := by
  cases h with
  | idle => exact h'
  | live prompt =>
      cases h' with
      | live prompt' => exact .live (prompt_append prompt prompt')
      | stopped prompt' stops =>
          rw [← List.append_assoc]
          exact .stopped (prompt_append prompt prompt') stops
      | finishedLate prompt' mem cancels fine finishes =>
          rw [← List.append_assoc]
          exact .finishedLate (prompt_append prompt prompt') mem cancels fine finishes
  | stopped prompt stops =>
      cases h'
      rw [List.append_nil]
      exact .stopped prompt stops
  | finishedLate prompt mem cancels fine finishes =>
      cases h'
      rw [List.append_nil]
      exact .finishedLate prompt mem cancels fine finishes

theorem Configuration.Calls.prompt (h : c.Calls p q es) (hc : c.StopsAtOnce) : Prompt es := by
  cases h with
  | idle => exact prompt_nil
  | live prompt => exact prompt
  | stopped prompt stops => exact prompt_append prompt (prompt_singleton _)
  | finishedLate prompt mem cancels fine finishes => exact absurd fine (hc _ mem finishes _ _ _ cancels)

end

def Session.Leads (c : Configuration σ) (s s' : Session σ) : Prop :=
  ∃ es, s'.callbacks = s.callbacks ++ es ∧ c.Calls s.cancelled s'.cancelled es

namespace Session

variable {c : Configuration σ} {s mid s' : Session σ} {start : Call} {f : Callback σ α}

theorem call_callbacks (s : Session σ) (h : start.isCallback = true) (f : Callback σ α) :
    (s.call start f).2.callbacks = s.callbacks ++ [⟨start, s.cancelled⟩] := by
  rw [callbacks, call_journal, List.filter_append, List.filter_cons_of_pos (by exact h)]
  rfl

theorem cancelsWith_of_call (live : s.cancelled = false) (h : (s.call start f).2.cancelled = true) :
    f.CancelsWith (s.call start f).1 := by
  simp only [Session.call, live, Bool.false_or] at h ⊢
  exact ⟨s.memory, h, rfl⟩

theorem Leads.of_eq (hcallbacks : s'.callbacks = s.callbacks) (hcancelled : s'.cancelled = s.cancelled) :
    Leads c s s' := by
  refine ⟨[], by rw [hcallbacks, List.append_nil], ?_⟩
  rw [hcancelled]
  cases s.cancelled with
  | true => exact .idle
  | false => exact .live prompt_nil

theorem Leads.trans (h : Leads c s mid) (h' : Leads c mid s') : Leads c s s' := by
  obtain ⟨es, hes, hcalls⟩ := h
  obtain ⟨fs, hfs, hcalls'⟩ := h'
  exact ⟨es ++ fs, by rw [hfs, hes, List.append_assoc], hcalls.append hcalls'⟩

theorem Leads.call (hcall : start.isCallback = true) (live : s.cancelled = false)
    (stops : ∀ value, f.CancelsWith value → value = (s.call start f).1 → c.StopsAt start) :
    Leads c s (s.call start f).2 := by
  refine ⟨_, call_callbacks s hcall f, ?_⟩
  rw [live]
  cases hcancelled : (s.call start f).2.cancelled with
  | false => exact .live (prompt_singleton start)
  | true => exact .stopped prompt_nil (stops _ (cancelsWith_of_call live hcancelled) rfl)

end Session

variable {c : Configuration σ}

theorem Analyzer.runAll_leads (compilation : Compilation) {as : List (Analyzer σ)} (has : as ⊆ c.analyzers)
    (s : Session σ) : s.Leads c (runAll compilation as s).2 := by
  induction as generalizing s with
  | nil => exact .of_eq rfl rfl
  | cons a as ih =>
      rw [runAll]
      split
      · exact .of_eq rfl rfl
      · rename_i live
        have hfirst : s.Leads c (s.call (.analyze a.id) (a.analyze compilation)).2 :=
          .call rfl (eq_false_of_ne_true live) fun _ cancels _ => .analyze (has List.mem_cons_self) cancels
        exact hfirst.trans (ih (List.subset_of_cons_subset has) _)

namespace Generator

variable {g : IncrementalGenerator σ}

theorem finish_leads (hg : .incremental g ∈ c.generators) (p : Progress) {s : Session σ}
    (live : s.cancelled = false) : s.Leads c (finish g p s).2 := by
  rw [finish]
  split
  · exact .of_eq rfl rfl
  · rename_i f hf
    exact .call rfl live fun _ cancels _ => .finalize hg hf cancels

theorem visitTrees_of_cancelled (ts : List SourceTree) (p : Progress) {s : Session σ}
    (h : s.cancelled = true) : visitTrees g ts p s = finish g p s := by
  cases ts with
  | nil => rfl
  | cons t ts => rw [visitTrees, if_pos h]

/-- What becomes of a visit that cancels and does not fail. -/
theorem finish_leads_late (hg : .incremental g ∈ c.generators) {t : SourceTree} {p q : Progress}
    {s : Session σ} (live : s.cancelled = false) :
    let visit := s.call (.visit g.id t.filePath) (g.visit t p.context)
    visit.2.cancelled = true → visit.1.failure = none → s.Leads c (finish g q visit.2).2 := by
  intro visit hcancelled fine
  have cancels := Session.cancelsWith_of_call live hcancelled
  have hlate : (finish g q visit.2).2.cancelled = true := finish_cancelled hcancelled
  rw [finish] at hlate ⊢
  split
  · rename_i hnone
    exact .call rfl live fun _ cancels _ => .visit hg cancels (.inr hnone)
  · rename_i f hf
    rw [hf] at hlate
    refine ⟨[⟨.visit g.id t.filePath, false⟩, ⟨.finalize g.id, true⟩], ?_, ?_⟩
    · rw [Session.call_callbacks _ rfl, Session.call_callbacks _ rfl, live, hcancelled, List.append_assoc]
      rfl
    · rw [live, hlate]
      have finishes : g.finalize ≠ none := by
        rw [hf]
        exact Option.some_ne_none f
      have hcalls := Configuration.Calls.finishedLate prompt_nil hg cancels fine finishes
      exact hcalls

theorem visitTrees_leads (hg : .incremental g ∈ c.generators) (ts : List SourceTree) (p : Progress)
    {s : Session σ} (live : s.cancelled = false) : s.Leads c (visitTrees g ts p s).2 := by
  induction ts generalizing p s with
  | nil => exact finish_leads hg p live
  | cons t ts ih =>
      have hlate (q : Progress) := finish_leads_late hg (t := t) (p := p) (q := q) live
      rw [visitTrees, if_neg (Bool.eq_false_iff.1 live)]
      dsimp only at hlate ⊢
      split
      · rename_i failed
        exact .call rfl live fun value cancels hvalue => .visit hg cancels (.inl (hvalue ▸ failed))
      · rename_i fine
        have fine := Option.not_isSome_iff_eq_none.1 fine
        cases hcancelled : (s.call (.visit g.id t.filePath) (g.visit t p.context)).2.cancelled with
        | true =>
            rw [visitTrees_of_cancelled ts _ hcancelled]
            exact hlate _ hcancelled fine
        | false =>
            have hvisit : s.Leads c (s.call (.visit g.id t.filePath) (g.visit t p.context)).2 :=
              ⟨_, Session.call_callbacks s rfl _, by
                rw [live, hcancelled]
                exact .live (prompt_singleton _)⟩
            exact hvisit.trans (ih _ hcancelled)

theorem run_leads {g : Generator σ} (hg : g ∈ c.generators) (compilation : Compilation) (s : Session σ) :
    s.Leads c (g.run compilation s).2 := by
  rw [run]
  split
  · exact .of_eq rfl rfl
  · rename_i live
    have live : s.cancelled = false := eq_false_of_ne_true live
    cases g with
    | oneShot g => exact .call rfl live fun _ cancels _ => .execute hg cancels
    | incremental g => exact visitTrees_leads hg compilation.trees _ live

end Generator

theorem Run.generate_leads {gs : List (Generator σ)} (hgs : gs ⊆ c.generators) (compilation : Compilation)
    (run : Run σ) : run.session.Leads c (generate gs compilation run).2.session :=
  generate_related (fun _ => .of_eq rfl rfl) .trans
    (fun _ hg compilation s => Generator.run_leads (hgs hg) compilation s) compilation run

theorem Phase.run_leads (phase : Phase) (run : Run σ) :
    run.session.Leads run.context.configuration (phase.run run).2.session := by
  obtain h | ⟨compilation, h⟩ | ⟨compilation, h⟩ := phase.run_session run
  · exact .of_eq (congrArg Session.callbacks h) (congrArg Session.cancelled h)
  · rw [h]
    exact Analyzer.runAll_leads compilation (List.Subset.refl _) run.session
  · rw [h]
    exact Run.generate_leads (List.Subset.refl _) compilation run

/-- Of what a plugin's call leaves in the journal a predicate that no note fulfils can only pick the call itself. -/
theorem Plugin.call_filter_journal {q : Call → Bool} (hq : ∀ text, q (.note text) = false) (p : Plugin σ)
    (moment : Moment) (phase : Phase) (ctx : RunContext σ) (s : Session σ) :
    (p.call moment phase ctx s).2.journal.filter (fun entry => q entry.call) =
      List.filter (fun entry => q entry.call) (s.journal ++ [⟨.hook p.name moment phase, s.cancelled⟩]) := by
  rw [← s.call_journal (.hook p.name moment phase) (p.hook moment phase ctx)]
  simp only [call, Session.emitAll_journal]
  cases (s.call (.hook p.name moment phase) (p.hook moment phase ctx)).1.note with
  | none => rfl
  | some text =>
      rw [Option.elim, Session.write, List.filter_append, List.filter_cons_of_neg (by simp [hq])]
      exact List.append_nil _

theorem Plugin.call_callbacks (p : Plugin σ) (moment : Moment) (phase : Phase) (ctx : RunContext σ)
    (s : Session σ) : (p.call moment phase ctx s).2.callbacks = s.callbacks := by
  refine (p.call_filter_journal (fun _ => rfl) moment phase ctx s).trans ?_
  rw [List.filter_append]
  exact List.append_nil _

namespace Run

variable {plugins : List (Plugin σ)}

theorem hooks_leads (hp : ∀ p ∈ plugins, p.Passive) (moment : Moment) (phase : Phase) (run : Run σ) :
    run.session.Leads c (hooks plugins moment phase run).2.session :=
  .of_eq (Plugin.callAll_kept (fun p _ s => p.call_callbacks moment phase _ s) run.session)
    (hooks_cancelled (fun p hmem ctx => (hp p hmem).neverCancels moment phase ctx) run)

theorem runPhase_leads (hp : ∀ p ∈ plugins, p.Passive) (phase : Phase) (run : Run σ) :
    run.session.Leads run.context.configuration (runPhase plugins phase run).2.session ∧
      (runPhase plugins phase run).2.context.configuration = run.context.configuration := by
  let opened : Run σ := { run with session := run.session.emit (phaseEvent phase) }
  have hopened : run.session.Leads run.context.configuration opened.session :=
    .of_eq (by rw [Session.callbacks, Session.emit_journal]; rfl) (Session.emit_cancelled _ _)
  have hbefore := hopened.trans (hooks_leads hp .before phase opened)
  have hcontext : (hooks plugins .before phase opened).2.context = run.context := rfl
  rw [runPhase]
  split
  · rename_i e before hhooks
    rw [hhooks] at hbefore hcontext
    exact ⟨hbefore, congrArg _ hcontext⟩
  · rename_i before hhooks
    rw [hhooks] at hbefore hcontext
    have hphase := phase.run_leads before
    have hkept := phase.run_configuration before
    rw [hcontext] at hphase hkept
    split
    · rename_i e done hdone
      rw [hdone] at hphase hkept
      exact ⟨hbefore.trans hphase, hkept⟩
    · rename_i done hdone
      rw [hdone] at hphase hkept
      exact ⟨(hbefore.trans hphase).trans (hooks_leads hp .after phase done), hkept⟩

theorem runPhases_leads (hp : ∀ p ∈ plugins, p.Passive) (phases : List Phase) (run : Run σ) :
    run.session.Leads run.context.configuration (runPhases plugins phases run).2.session := by
  induction phases generalizing run with
  | nil => exact .of_eq rfl rfl
  | cons phase phases ih =>
      obtain ⟨hphase, hkept⟩ := runPhase_leads hp phase run
      rw [runPhases]
      split
      · exact .of_eq rfl rfl
      · split
        · rename_i e mid hmid
          rw [hmid] at hphase
          exact hphase
        · rename_i mid hmid
          rw [hmid] at hphase hkept
          rw [← hkept] at hphase ⊢
          exact hphase.trans (ih mid)

end Run

namespace TestCase

/-- A run of a case calls the code under test only while the request is live, and up to the callback that
cancels it, but for the end of a generator whose visit did. -/
theorem run_calls (t : TestCase σ) (logging : LoggingOptions) (s : Session σ) :
    let after := (t.run logging s).2
    ∃ es, after.callbacks = s.callbacks ++ es ∧ t.configuration.Calls s.cancelled after.cancelled es ∧
      (t.configuration.StopsAtOnce → Prompt es) := by
  intro after
  have hafter : after = (Run.runAll (plugins logging s) ⟨t.context, s⟩).2.session :=
    congrArg Prod.snd (t.run_eq logging s)
  have hleads := Run.runPhases_leads (plugins_passive logging s) Phase.all ⟨t.context, s⟩
  rw [← Run.runAll_session, ← hafter] at hleads
  obtain ⟨es, hes, hcalls⟩ := hleads
  exact ⟨es, hes, hcalls, hcalls.prompt⟩

/-- A generator that cancels when it is shown a tree is asked to finish, and not shown the other tree. One
that has nothing to finish is left alone. -/
theorem run_calls_finished_late :
    let finishes (finalize : Option (GeneratorContext → Callback Unit Contribution)) : TestCase Unit :=
      { configuration := { incrementals := [⟨"G", fun _ _ _ _ => ⟨{}, true, ()⟩, finalize⟩], generatorIds := ["G"] }
        fragments := [⟨some "A", ""⟩, ⟨some "B", ""⟩] }
    let t := finishes (some fun _ _ _ => ⟨{}, false, ()⟩)
    let u := finishes none
    let s : Session Unit := { memory := () }
    (t.run .all s).2.callbacks = [⟨.visit "G" "A", false⟩, ⟨.finalize "G", true⟩] ∧
      u.configuration.StopsAtOnce ∧ Prompt (u.run .all s).2.callbacks := by
  intro finishes t u s
  have hstops : u.configuration.StopsAtOnce := by
    intro g hg hfinishes
    cases List.mem_singleton.1 hg
    exact absurd rfl hfinishes
  obtain ⟨es, hes, -, hprompt⟩ := run_calls u .all s
  refine ⟨by decide +kernel, hstops, ?_⟩
  rw [hes]
  exact hprompt hstops

end TestCase

end GeneratorBench
