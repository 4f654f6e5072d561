import GeneratorBench.Proofs.Compilation.Lookup
import GeneratorBench.Proofs.Syntax.Spans

/-!
What a compilation has to say, tree by tree, and that it depends on the names on offer alone.
-/

namespace GeneratorBench

namespace Compilation

def reportsFrom (y : Symbols) (earlier : List TypeDecl) :
    List (Option String × Skeleton) → List (List Diagnostic)
  | [] => []
  | (path, s) :: trees =>
    treeDiagnostics y path s earlier :: reportsFrom y (earlier ++ s.types) trees

def symbols (c : Compilation) : Symbols := .ofSkeletons c.references c.skeletons

def located (c : Compilation) : List (Option String × Skeleton) :=
  c.parsed.map fun (t, s) => (t.path, s)

def reports (c : Compilation) : List (List Diagnostic) := reportsFrom c.symbols [] c.located

def overall (c : Compilation) : List Diagnostic :=
  if c.options.outputKind == .console && !c.skeletons.any (·.hasMain) then [noEntryPoint] else []

variable {y z : Symbols} {path : Option String} {s : Skeleton}

theorem length_reportsFrom (earlier : List TypeDecl) (trees : List (Option String × Skeleton)) :
    (reportsFrom y earlier trees).length = trees.length := by
  induction trees generalizing earlier with
  | nil => rfl
  | cons t trees ih => exact congrArg (· + 1) (ih _)

theorem reportsFrom_append (earlier : List TypeDecl) (ts us : List (Option String × Skeleton)) :
    reportsFrom y earlier (ts ++ us) =
      reportsFrom y earlier ts ++ reportsFrom y (earlier ++ ts.flatMap (·.2.types)) us := by
  induction ts generalizing earlier with
  | nil => simp [reportsFrom]
  | cons t ts ih => simp [reportsFrom, ih]

theorem treesDiagnostics_eq_flatten (earlier : List TypeDecl) (trees : List (Option String × Skeleton)) :
    treesDiagnostics y earlier trees = (reportsFrom y earlier trees).flatten := by
  induction trees generalizing earlier with
  | nil => rfl
  | cons t trees ih => rw [treesDiagnostics, reportsFrom, List.flatten_cons, ih]

/-- What a predicate picks of the diagnostics, if it asks nothing of the trees before. -/
theorem filter_reportsFrom {p : Diagnostic → Bool} {f : Option String → Skeleton → List Diagnostic}
    (h : ∀ path s earlier, (treeDiagnostics y path s earlier).filter p = f path s) (earlier : List TypeDecl)
    (trees : List (Option String × Skeleton)) :
    (reportsFrom y earlier trees).flatten.filter p = trees.flatMap fun t => f t.1 t.2 := by
  induction trees generalizing earlier with
  | nil => rfl
  | cons t trees ih => rw [reportsFrom, List.flatten_cons, List.filter_append, h, ih, List.flatMap_cons]

theorem located_eq (c : Compilation) : c.located = c.trees.map fun t => (t.path, t.skeleton) := by
  rw [located, parsed_eq, List.map_map]
  rfl

theorem map_located (c : Compilation) : c.located.map (·.2) = c.skeletons := by
  rw [located_eq, List.map_map, c.skeletons_eq]
  rfl

theorem diagnostics_eq_append (c : Compilation) :
    c.diagnostics = treesDiagnostics c.symbols [] c.located ++ c.overall := by
  have hbind : c.diagnostics = bind c.references c.options c.located := rfl
  simp only [hbind, bind, map_located]
  rfl

theorem diagnostics_eq (c : Compilation) : c.diagnostics = c.reports.flatten ++ c.overall := by
  rw [diagnostics_eq_append, treesDiagnostics_eq_flatten]
  rfl

theorem take_reports_append (c : Compilation) {d : Compilation} {later : List SourceTree}
    (h : d.trees = c.trees ++ later) :
    d.reports.take c.trees.length = reportsFrom d.symbols [] c.located := by
  have hlocated : d.located = c.located ++ later.map fun t => (t.path, t.skeleton) := by
    rw [located_eq, located_eq, h, List.map_append]
  have hlength : (reportsFrom d.symbols [] c.located).length = c.trees.length := by
    rw [length_reportsFrom, located_eq, List.length_map]
  rw [reports, hlocated, reportsFrom_append]
  exact List.take_left' hlength

/-- The ids of what is not said about syntax. -/
def bindingIds : List String := ["CS0101", "CS0246", "CS8019", "CS5001"]

theorem filter_id {ds : List Diagnostic} {k : String} (h : ∀ d ∈ ds, d.id = k) (id : String) :
    ds.filter (·.id == id) = if k = id then ds else [] := by
  split
  · rename_i heq
    exact List.filter_eq_self.2 fun d hd => beq_iff_eq.2 ((h d hd).trans heq)
  · rename_i hne
    exact List.filter_eq_nil_iff.2 fun d hd heq => hne ((h d hd).symm.trans (beq_iff_eq.1 heq))

theorem filter_id_syntaxErrors {id : String} (h : id ∈ bindingIds) (errors : List SyntaxError) :
    (errors.map (syntaxError path)).filter (·.id == id) = [] := by
  have hcause (cause : SyntaxError.Cause) : cause.id ∉ bindingIds := by
    cases cause with
    | _ => decide
  refine List.filter_eq_nil_iff.2 fun d hd heq => ?_
  obtain ⟨e, -, rfl⟩ := List.mem_map.1 hd
  have hid : e.cause.id = id := beq_iff_eq.1 heq
  exact hcause e.cause (hid ▸ h)

theorem filter_id_treeDiagnostics {id : String} (h : id ∈ bindingIds) (earlier : List TypeDecl) :
    (treeDiagnostics y path s earlier).filter (·.id == id) =
      (if "CS0246" = id then unknownNamespaces y path s else []) ++
        (declDiagnostics y path s earlier s.types).filter (·.id == id) ++
          if "CS8019" = id then unnecessaryUsings y path s else [] := by
  have hunknown : ∀ d ∈ unknownNamespaces y path s, d.id = "CS0246" := by
    intro d hd
    obtain ⟨u, -, rfl⟩ := List.mem_map.1 hd
    rfl
  have hunnecessary : ∀ d ∈ unnecessaryUsings y path s, d.id = "CS8019" := by
    intro d hd
    obtain ⟨u, -, rfl⟩ := List.mem_map.1 hd
    rfl
  rw [treeDiagnostics, List.filter_append, List.filter_append, List.filter_append, filter_id_syntaxErrors h,
    filter_id hunknown, filter_id hunnecessary, List.nil_append]

theorem filter_id_diagnostics (c : Compilation) (id : String) :
    c.diagnostics.filter (·.id == id) =
      c.reports.flatten.filter (·.id == id) ++ if "CS5001" = id then c.overall else [] := by
  have hoverall : ∀ d ∈ c.overall, d.id = "CS5001" := by
    intro d hd
    rw [overall] at hd
    split at hd
    · rw [List.mem_singleton.1 hd]
      rfl
    · cases hd
  rw [diagnostics_eq, List.filter_append, filter_id hoverall]

theorem id_of_mem_declDiagnostics {earlier decls : List TypeDecl} {d : Diagnostic}
    (hd : d ∈ declDiagnostics y path s earlier decls) : d.id = "CS0101" ∨ d.id = "CS0246" := by
  induction decls generalizing earlier with
  | nil => cases hd
  | cons decl decls ih =>
      rw [declDiagnostics, List.mem_append, List.mem_append] at hd
      obtain (hd | hd) | hd := hd
      · split at hd
        · rw [List.mem_singleton.1 hd]
          exact .inl rfl
        · cases hd
      · obtain ⟨base, -, rfl⟩ := List.mem_map.1 hd
        exact .inr rfl
      · exact ih hd

theorem filter_id_declDiagnostics {id : String} (hdeclared : id ≠ "CS0101") (hfound : id ≠ "CS0246")
    (earlier decls : List TypeDecl) : (declDiagnostics y path s earlier decls).filter (·.id == id) = [] := by
  refine List.filter_eq_nil_iff.2 fun d hd heq => ?_
  obtain h | h := id_of_mem_declDiagnostics hd
  · exact hdeclared ((beq_iff_eq.1 heq).symm.trans h)
  · exact hfound ((beq_iff_eq.1 heq).symm.trans h)

variable {e : Diagnostic}

theorem location_of_mem_declDiagnostics {earlier decls : List TypeDecl}
    (he : e ∈ declDiagnostics y path s earlier decls) :
    ∃ decl ∈ decls, ∃ name ∈ decl.name :: decl.bases, e.location = .inTree path name.span := by
  induction decls generalizing earlier with
  | nil => cases he
  | cons decl decls ih =>
      rw [declDiagnostics, List.mem_append, List.mem_append] at he
      obtain (he | he) | he := he
      · split at he
        · rw [List.mem_singleton.1 he]
          exact ⟨decl, List.mem_cons_self, decl.name, List.mem_cons_self, rfl⟩
        · cases he
      · obtain ⟨base, hbase, rfl⟩ := List.mem_map.1 he
        exact ⟨decl, List.mem_cons_self, base, List.mem_cons_of_mem _ (List.mem_filter.1 hbase).1, rfl⟩
      · obtain ⟨other, hother, hname⟩ := ih he
        exact ⟨other, List.mem_cons_of_mem _ hother, hname⟩

theorem location_of_mem_treeDiagnostics {earlier : List TypeDecl}
    (he : e ∈ treeDiagnostics y path s earlier) : ∃ x ∈ s.spans, e.location = .inTree path x := by
  simp only [treeDiagnostics, List.mem_append] at he
  simp only [Skeleton.spans, List.mem_append]
  obtain ((he | he) | he) | he := he
  · obtain ⟨error, herror, rfl⟩ := List.mem_map.1 he
    exact ⟨error.span, .inr (List.mem_map_of_mem herror), rfl⟩
  · obtain ⟨u, hu, rfl⟩ := List.mem_map.1 he
    exact ⟨u.name.span, .inl (.inl (List.mem_map.2 ⟨u, (List.mem_filter.1 hu).1, rfl⟩)), rfl⟩
  · obtain ⟨decl, hdecl, name, hname, hlocation⟩ := location_of_mem_declDiagnostics he
    refine ⟨name.span, .inl (.inr (List.mem_flatMap.2 ⟨decl, hdecl, ?_⟩)), hlocation⟩
    exact List.mem_map.2 ⟨name, hname, rfl⟩
  · obtain ⟨⟨u, i⟩, hu, rfl⟩ := List.mem_map.1 he
    have hmem : u ∈ s.usings := (List.mem_zipIdx' (List.mem_filter.1 hu).1).2 ▸ List.getElem_mem _
    exact ⟨u.name.span, .inl (.inl (List.mem_map.2 ⟨u, hmem, rfl⟩)), rfl⟩

theorem location_of_mem_reportsFrom {earlier : List TypeDecl} {trees : List (Option String × Skeleton)}
    (he : e ∈ (reportsFrom y earlier trees).flatten) :
    ∃ t ∈ trees, ∃ x ∈ t.2.spans, e.location = .inTree t.1 x := by
  induction trees generalizing earlier with
  | nil => cases he
  | cons t trees ih =>
      rw [reportsFrom, List.flatten_cons, List.mem_append] at he
      obtain he | he := he
      · exact ⟨t, List.mem_cons_self, location_of_mem_treeDiagnostics he⟩
      · obtain ⟨u, hu, hx⟩ := ih he
        exact ⟨u, List.mem_cons_of_mem _ hu, hx⟩

def mainless (ds : List Diagnostic) : List Diagnostic := ds.filter (·.id == "CS5001")

theorem mainless_diagnostics (c : Compilation) : mainless c.diagnostics = c.overall := by
  have htree (path : Option String) (s : Skeleton) (earlier : List TypeDecl) :
      (treeDiagnostics c.symbols path s earlier).filter (·.id == "CS5001") = [] := by
    rw [filter_id_treeDiagnostics (by decide), if_neg (by decide), if_neg (by decide),
      filter_id_declDiagnostics (by decide) (by decide)]
    rfl
  have hreports : c.reports.flatten.filter (·.id == "CS5001") = [] := by
    rw [reports, filter_reportsFrom htree]
    exact List.flatMap_eq_nil_iff.2 fun _ _ => rfl
  rw [mainless, filter_id_diagnostics, hreports, if_pos rfl, List.nil_append]

theorem noEntryPoint_mem_diagnostics (c : Compilation) :
    noEntryPoint ∈ c.diagnostics ↔
      c.options.outputKind = .console ∧ ∀ s ∈ c.skeletons, s.hasMain = false := by
  have hmem : noEntryPoint ∈ c.diagnostics ↔ noEntryPoint ∈ mainless c.diagnostics := by
    rw [mainless, List.mem_filter]
    exact (and_iff_left rfl).symm
  rw [hmem, mainless_diagnostics, overall]
  simp

theorem covers_symbols {c d : Compilation} (htrees : c.trees ⊆ d.trees)
    (hrefs : Reference.Covers d.references c.references) : d.symbols.Covers c.symbols := by
  refine Symbols.covers_ofSkeletons hrefs ?_
  rw [c.skeletons_eq, d.skeletons_eq]
  exact List.map_subset _ htrees

theorem declDiagnostics_congr (hzy : z.Covers y) (hyz : y.Covers z) (earlier decls : List TypeDecl) :
    declDiagnostics y path s earlier decls = declDiagnostics z path s earlier decls := by
  induction decls generalizing earlier with
  | nil => rfl
  | cons decl decls ih =>
      rw [declDiagnostics, declDiagnostics, ih, unresolvedBases, unresolvedBases,
        Symbols.resolve_congr hzy hyz]

theorem treeDiagnostics_congr (hzy : z.Covers y) (hyz : y.Covers z) (earlier : List TypeDecl) :
    treeDiagnostics y path s earlier = treeDiagnostics z path s earlier := by
  rw [treeDiagnostics, treeDiagnostics, declDiagnostics_congr hzy hyz, unknownNamespaces,
    unknownNamespaces, unnecessaryUsings, unnecessaryUsings, Symbols.usedUsings, Symbols.usedUsings,
    Symbols.resolve_congr hzy hyz, hzy.namespaceExists_eq hyz]

theorem treesDiagnostics_congr (hzy : z.Covers y) (hyz : y.Covers z) (earlier : List TypeDecl)
    (trees : List (Option String × Skeleton)) :
    treesDiagnostics y earlier trees = treesDiagnostics z earlier trees := by
  induction trees generalizing earlier with
  | nil => rfl
  | cons t trees ih => rw [treesDiagnostics, treesDiagnostics, ih, treeDiagnostics_congr hzy hyz]

theorem diagnostics_congr {c d : Compilation} (htrees : d.trees = c.trees) (hoptions : d.options = c.options)
    (hdc : d.symbols.Covers c.symbols) (hcd : c.symbols.Covers d.symbols) :
    d.diagnostics = c.diagnostics := by
  have hskeletons : d.skeletons = c.skeletons := by rw [d.skeletons_eq, c.skeletons_eq, htrees]
  have hlocated : d.located = c.located := by rw [located_eq, located_eq, htrees]
  rw [diagnostics_eq_append, diagnostics_eq_append, hlocated, treesDiagnostics_congr hcd hdc, overall,
    overall, hoptions, hskeletons]

end Compilation

end GeneratorBench
