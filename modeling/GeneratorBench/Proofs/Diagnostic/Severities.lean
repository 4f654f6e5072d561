import GeneratorBench.Observation.Plugin
import GeneratorBench.Proofs.Run.Noninterference
import Mathlib.Algebra.Ring.Nat
import Mathlib.Data.List.Forall2

/-!
Diagnostics by severity. A listener is told of them in groups, one for each severity that occurs and the most
severe first. One after the other the groups hold each diagnostic once, those of one severity in the order in
which they came; a listener at a lower level hears the same groups without those that are beneath it.
-/

namespace GeneratorBench

theorem Severity.mem_displayOrder (severity : Severity) : severity ∈ displayOrder := by
  cases severity <;> decide

namespace Diagnostic

def groups (ds : List Diagnostic) : List (Severity × List Diagnostic) :=
  Severity.displayOrder.filterMap fun severity =>
    let group := ds.filter (·.severity == severity)
    if group.isEmpty then none else some (severity, group)

def regrouped (ds : List Diagnostic) : List Diagnostic := (groups ds).flatMap (·.2)

variable {ds : List Diagnostic} {severity : Severity} {group : List Diagnostic}

theorem mem_groups_iff :
    (severity, group) ∈ groups ds ↔ group = ds.filter (·.severity == severity) ∧ group ≠ [] := by
  rw [groups, List.mem_filterMap]
  constructor
  · rintro ⟨other, -, hgroup⟩
    obtain ⟨hempty, ⟨⟩⟩ := Option.ite_none_left_eq_some.1 hgroup
    exact ⟨rfl, fun hnil => hempty (List.isEmpty_iff.2 hnil)⟩
  · rintro ⟨rfl, hne⟩
    refine ⟨severity, severity.mem_displayOrder, Option.ite_none_left_eq_some.2 ⟨?_, rfl⟩⟩
    exact fun hempty => hne (List.isEmpty_iff.1 hempty)

theorem groups_decreasing (ds : List Diagnostic) :
    (groups ds).Pairwise fun g h => h.1.rank < g.1.rank := by
  have horder : Severity.displayOrder.Pairwise fun s t => t.rank < s.rank := by decide
  refine List.pairwise_filterMap.2 (horder.imp ?_)
  rintro s t hlt g hg h hh
  obtain ⟨-, ⟨⟩⟩ := Option.ite_none_left_eq_some.1 hg
  obtain ⟨-, ⟨⟩⟩ := Option.ite_none_left_eq_some.1 hh
  exact hlt

theorem regrouped_eq (ds : List Diagnostic) :
    regrouped ds = Severity.displayOrder.flatMap fun severity => ds.filter (·.severity == severity) := by
  rw [regrouped, groups]
  induction Severity.displayOrder with
  | nil => rfl
  | cons severity order ih =>
      rw [List.flatMap_cons, ← ih, List.filterMap_cons]
      dsimp only
      split
      · rename_i hnone
        split at hnone
        · rename_i hempty
          rw [List.isEmpty_iff.1 hempty, List.nil_append]
        · cases hnone
      · rename_i hsome
        obtain ⟨-, ⟨⟩⟩ := Option.ite_none_left_eq_some.1 hsome
        rw [List.flatMap_cons]

theorem filter_regrouped (ds : List Diagnostic) (severity : Severity) :
    (regrouped ds).filter (·.severity == severity) = ds.filter (·.severity == severity) := by
  have hgroup (other : Severity) :
      (ds.filter (·.severity == other)).filter (·.severity == severity) =
        if other = severity then ds.filter (·.severity == severity) else [] := by
    split
    · rename_i heq
      rw [heq, List.filter_filter]
      exact List.filter_congr fun d _ => Bool.and_self _
    · rename_i hne
      rw [List.filter_eq_nil_iff]
      rintro d hd hseverity
      exact hne ((beq_iff_eq.1 (List.mem_filter.1 hd).2).symm.trans (beq_iff_eq.1 hseverity))
  rw [regrouped_eq, List.filter_flatMap]
  simp only [hgroup]
  cases severity <;> simp [Severity.displayOrder]

theorem regrouped_perm (ds : List Diagnostic) : (regrouped ds).Perm ds := by
  refine List.perm_iff_count.2 fun d => ?_
  have hcount (es : List Diagnostic) : (es.filter (·.severity == d.severity)).count d = es.count d :=
    List.count_filter (beq_self_eq_true d.severity)
  rw [← hcount, filter_regrouped, hcount]

theorem regrouped_sorted (ds : List Diagnostic) :
    (regrouped ds).Pairwise fun d e => e.severity ≤ d.severity := by
  have hseverity : ∀ g ∈ groups ds, ∀ d ∈ g.2, d.severity = g.1 := by
    rintro ⟨severity, group⟩ hg d hd
    rw [(mem_groups_iff.1 hg).1] at hd
    exact beq_iff_eq.1 (List.mem_filter.1 hd).2
  rw [regrouped, List.pairwise_flatMap]
  constructor
  · intro g hg
    refine List.pairwise_of_forall_mem_list fun d hd e he => ?_
    rw [hseverity g hg d hd, hseverity g hg e he]
    exact Nat.le_refl _
  · refine (groups_decreasing ds).imp_of_mem fun {g h} hg hh hlt d hd e he => ?_
    rw [hseverity g hg d hd, hseverity h hh e he]
    exact Nat.le_of_lt hlt

theorem listing_append {ds es : List Diagnostic} (hds : ds ≠ []) (hes : es ≠ []) :
    listing (ds ++ es) = listing ds ++ "\n" ++ listing es := by
  rw [listing, List.map_append]
  exact String.intercalate_append_of_ne_nil (by simpa using hds) (by simpa using hes)

end Diagnostic

def Event.count? (e : Event) : Option Nat :=
  match e.fields.lookup "count" with
  | some (.count n) => some n
  | _ => none

namespace Stage

variable {σ : Type} {stage : Stage} {ds : List Diagnostic}

theorem events_of_ne_nil (h : ds ≠ []) :
    stage.events ds = (Diagnostic.groups ds).map fun g => stage.groupEvent g.1 g.2 := by
  rw [events, if_neg (fun hempty => h (List.isEmpty_iff.1 hempty)), Diagnostic.groups, List.map_filterMap]
  refine List.filterMap_congr fun severity _ => ?_
  dsimp only
  split
  · rfl
  · rfl

theorem sum_counts (h : ds ≠ []) : ((stage.events ds).filterMap Event.count?).sum = ds.length := by
  have hcounts : (stage.events ds).filterMap Event.count? = (Diagnostic.groups ds).map (·.2.length) := by
    rw [events_of_ne_nil h, List.filterMap_map, ← List.filterMap_eq_map]
    rfl
  rw [hcounts, ← (Diagnostic.regrouped_perm ds).length_eq, Diagnostic.regrouped, List.length_flatMap]

/-- What a listener is told of some diagnostics is one event for each severity that occurs, in order and at its
level, with the diagnostics of that severity as they came. The groups are a stable rearrangement of the
diagnostics, and the counts add up to their number. A listener hears the groups at its level or above, one that
records everything hears all. The text of a list is that of its parts, line by line. -/
theorem events_grouped (stage : Stage) (h : ds ≠ []) :
    let groups := Diagnostic.groups ds
    let order := groups.flatMap (·.2)
    (groups.Pairwise (fun g g' => g'.1.rank < g.1.rank) ∧
      ∀ severity group, (severity, group) ∈ groups ↔ group = ds.filter (·.severity == severity) ∧ group ≠ []) ∧
    (order.Perm ds ∧ order.Pairwise (fun d e => e.severity ≤ d.severity) ∧
      ∀ severity, order.filter (·.severity == severity) = ds.filter (·.severity == severity)) ∧
    (List.Forall₂ (fun g e => e.level = g.1.level ∧
        e.message = stage.name ++ " reported " ++ toString g.2.length ++ " " ++ g.1.name ++ " diagnostics:\n" ++
          Diagnostic.listing g.2 ∧
        e.fields = [("stage", .text stage.name), ("count", .count g.2.length)]) groups (stage.events ds) ∧
      ((stage.events ds).filterMap Event.count?).sum = ds.length) ∧
    (∀ s : Session σ,
      (s.log = some .trace → (s.emitAll (stage.events ds)).events = s.events ++ stage.events ds) ∧
      ∀ level, s.log = some level → (s.emitAll (stage.events ds)).events =
        s.events ++ (stage.events ds).filter fun e => e.level.rank ≤ level.rank) ∧
    ∀ es, es ≠ [] → Diagnostic.listing (ds ++ es) = Diagnostic.listing ds ++ "\n" ++ Diagnostic.listing es := by
  intro groups order
  have hevents : stage.events ds = groups.map fun g => stage.groupEvent g.1 g.2 := events_of_ne_nil h
  have hheard (s : Session σ) (level : Level) (hlog : s.log = some level) :
      (s.emitAll (stage.events ds)).events =
        s.events ++ (stage.events ds).filter fun e => e.level.rank ≤ level.rank := by
    rw [Session.emitAll_events, Session.heard, hlog]
    rfl
  refine ⟨⟨Diagnostic.groups_decreasing ds, fun _ _ => Diagnostic.mem_groups_iff⟩,
    ⟨Diagnostic.regrouped_perm ds, Diagnostic.regrouped_sorted ds, Diagnostic.filter_regrouped ds⟩,
    ⟨?_, sum_counts h⟩, fun s => ⟨fun hlog => ?_, hheard s⟩, fun es hes => Diagnostic.listing_append h hes⟩
  · rw [hevents, List.forall₂_map_right_iff, List.forall₂_same]
    exact fun g _ => ⟨rfl, rfl, rfl⟩
  · rw [hheard s .trace hlog, List.filter_eq_self.2]
    intro e _
    cases e.level <;> decide

/-- A warning, an error, one more warning and what is hidden, for listeners at two levels. -/
theorem events_grouped_listeners :
    let diagnostic (id : String) (severity : Severity) : Diagnostic := ⟨id, severity, "", {}⟩
    let ds := [diagnostic "W1" .warning, diagnostic "E1" .error, diagnostic "W2" .warning, diagnostic "H1" .hidden]
    let es := [diagnostic "I1" .info]
    let told (level : Level) : List Event :=
      (({ memory := (), log := some level } : Session Unit).emitAll (final.events ds)).events
    (ds ≠ [] ∧ es ≠ []) ∧ ((told .trace).map (·.level) = [.error, .warn, .trace] ∧ told .trace = final.events ds) ∧
      (told .warn).map (·.level) = [.error, .warn] ∧
      (Diagnostic.groups ds).map (fun g => g.2.map (·.id)) = [["E1"], ["W1", "W2"], ["H1"]] ∧
      Diagnostic.listing (ds ++ es) = Diagnostic.listing ds ++ "\n" ++ Diagnostic.listing es := by
  intro diagnostic ds es told
  have hds : ds ≠ [] := List.cons_ne_nil _ _
  have hes : es ≠ [] := List.cons_ne_nil _ _
  obtain ⟨-, -, -, hheard, hlisting⟩ := events_grouped (σ := Unit) final hds
  have hall : told .trace = final.events ds := ((hheard _).1 rfl).trans (List.nil_append _)
  have hwarn : told .warn = (final.events ds).filter fun e => e.level.rank ≤ Level.warn.rank :=
    ((hheard _).2 .warn rfl).trans (List.nil_append _)
  refine ⟨⟨hds, hes⟩, ⟨?_, hall⟩, ?_, by decide +kernel, hlisting es hes⟩
  · rw [hall]
    decide +kernel
  · rw [hwarn]
    decide +kernel

end Stage

end GeneratorBench
