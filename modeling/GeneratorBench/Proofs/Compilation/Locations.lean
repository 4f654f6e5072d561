import GeneratorBench.Proofs.Compilation.Reports
import GeneratorBench.Proofs.Source.Positions
import GeneratorBench.Proofs.Syntax.Steps

/-!
Where the spans that are reported lie in their texts. They are in order and on lines of the text; their ends
are positions of the text, but for those where a literal stops that runs over the end of its line.
-/

namespace GeneratorBench

namespace Span

variable {text : String} {x : Span}

/-- An end of a span that was read of a text: on one of its lines, and a position of it unless a token that runs
over the end of its line stops there. -/
structure LiesAt (text : String) (p : Position) : Prop where
  line_lt : p.line < (Text.splitAt '\n' text).length
  inside_iff : p.Inside text.toList ↔ ∀ t ∈ tokens text, t.Overruns text.toList → p ≠ t.stop

structure LiesIn (text : String) (x : Span) : Prop where
  ordered : x.start ≤ x.stop
  start : LiesAt text x.start
  stop : LiesAt text x.stop

theorem line_lt_of_inside {p : Position} (h : p.Inside text.toList) :
    p.line < (Text.splitAt '\n' text).length := by
  obtain ⟨line, hline, -⟩ := h
  rw [Text.splitAt, List.length_map]
  exact (List.getElem?_eq_some_iff.1 hline).1

theorem LiesAt.of_inside {p : Position} (h : p.Inside text.toList) : LiesAt text p where
  line_lt := line_lt_of_inside h
  inside_iff := by
    refine iff_of_true h ?_
    rintro t ht hover rfl
    exact (Token.inside_stop_iff ht).1 h hover

theorem LiesAt.token_stop {t : Token} (ht : t ∈ tokens text) : LiesAt text t.stop where
  line_lt := by
    have hline : t.stop.line = t.start.line := rfl
    rw [hline]
    exact line_lt_of_inside (Token.inside_start ht)
  inside_iff := by
    rw [Token.inside_stop_iff ht]
    constructor
    · rintro hstays u hu hover heq
      have hinside := (Token.inside_stop_iff ht).2 hstays
      rw [heq] at hinside
      exact (Token.inside_stop_iff hu).1 hinside hover
    · intro h hover
      exact h t ht hover rfl

theorem start_le_stop {us : List Token} {first last : Token} (hus : us <:+: tokens text)
    (hfirst : us.head? = some first) (hlast : us.getLast? = some last) : first.start ≤ last.stop := by
  have hsorted : us.Pairwise fun t u => t.start ≤ u.start :=
    (Token.tokensFrom_sorted .origin text.toList).sublist hus.sublist
  have hstop : last.start ≤ last.stop := last.start.le_right last.length
  cases us with
  | nil => cases hfirst
  | cons u us =>
      cases hfirst
      have hmem : last ∈ first :: us := List.mem_of_getLast? hlast
      obtain rfl | hmem := List.mem_cons.1 hmem
      · exact hstop
      · exact Position.le_trans (List.rel_of_pairwise_cons hsorted hmem) hstop

theorem Around.liesIn (h : x.Around (tokens text)) : x.LiesIn text := by
  cases h with
  | start =>
      have horigin : LiesAt text .origin :=
        .of_inside (Position.inside_iff.2 ⟨[], text.toList, rfl, rfl⟩)
      exact ⟨Position.le_refl _, horigin, horigin⟩
  | behind ht => exact ⟨Position.le_refl _, .token_stop ht, .token_stop ht⟩
  | run hus hfirst hlast =>
      exact {
        ordered := start_le_stop hus hfirst hlast
        start := .of_inside (Token.inside_start (hus.subset (List.mem_of_head? hfirst)))
        stop := .token_stop (hus.subset (List.mem_of_getLast? hlast)) }

end Span

namespace Compilation

/-- Each diagnostic of a compilation points nowhere or to a span that was read of one of its trees. Every span
that is read of a text is in order and on lines of the text, and its ends are positions of the text unless
they are where a token stops that runs over the end of its line, which only a literal does. -/
theorem diagnostics_liesIn (c : Compilation) :
    (∀ d ∈ c.diagnostics, d.location = {} ∨
      ∃ t ∈ c.trees, ∃ x ∈ t.skeleton.spans, d.location = .inTree t.path x ∧ x.LiesIn t.text) ∧
    ∀ text, (∀ x ∈ (Skeleton.ofText text).spans, x.LiesIn text) ∧
      ∀ t ∈ tokens text, t.Overruns text.toList → t.kind = .literal := by
  have hread : ∀ text, ∀ x ∈ (Skeleton.ofText text).spans, x.LiesIn text := fun text x hx =>
    (Skeleton.spans_around (tokens text) x hx).liesIn
  refine ⟨?_, fun text => ⟨hread text, fun t ht hover => Token.kind_of_overruns ht hover⟩⟩
  intro d hd
  rw [diagnostics_eq, List.mem_append] at hd
  obtain hd | hd := hd
  · obtain ⟨located, hmem, x, hx, hlocation⟩ := location_of_mem_reportsFrom hd
    rw [located_eq] at hmem
    obtain ⟨t, ht, rfl⟩ := List.mem_map.1 hmem
    exact .inr ⟨t, ht, x, hx, hlocation, hread t.text x hx⟩
  · rw [overall] at hd
    split at hd
    · rw [List.mem_singleton.1 hd]
      exact .inl rfl
    · cases hd

/-- A literal that a backslash carries over the end of its line is reported to stop on that line, three
characters past its end. -/
theorem diagnostics_liesIn_overrun :
    let text := "\"a\\\nb\""
    let c := ofTrees "T" [⟨none, text⟩] [] {}
    ∃ d ∈ c.diagnostics, ∃ x, d.location.span = some x ∧ x.LiesIn text ∧
      x.stop = ⟨0, 6⟩ ∧ ¬ x.stop.Inside text.toList := by
  intro text c
  let x : Span := .onLine 0 0 6
  let d : Diagnostic := syntaxError none ⟨.memberExpected, x⟩
  have hread : Skeleton.ofText text = _ := Parser.ofText_iterate 1 (by decide +kernel)
  have hd : d ∈ c.diagnostics := by
    rw [diagnostics_eq]
    apply List.mem_append_left
    simp only [reports, symbols, located_eq, c, ofTrees, List.map, SourceTree.skeleton, hread]
    decide +kernel
  obtain hnowhere | ⟨t, ht, y, -, hlocation, hlies⟩ := (diagnostics_liesIn c).1 d hd
  · cases congrArg Location.span hnowhere
  · obtain rfl := List.mem_singleton.1 ht
    cases congrArg Location.span hlocation
    refine ⟨d, hd, x, rfl, hlies, rfl, ?_⟩
    rintro ⟨line, hline, hcolumn⟩
    have hfirst : (Text.fields (· == '\n') text.toList)[0]? = some ['"', 'a', '\\'] := by decide +kernel
    obtain rfl := Option.some.inj (hfirst.symm.trans hline)
    exact absurd hcolumn (by decide)

end Compilation

end GeneratorBench
