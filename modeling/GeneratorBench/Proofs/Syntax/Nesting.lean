import GeneratorBench.Proofs.Syntax.Steps

/-!
Types inside types. A declaration stands in the types whose bodies are open where it is read. Each of these was
declared before, in the same namespace and inside those around it.
-/

namespace GeneratorBench

namespace Parser

def Frame.type? : Frame → Option String
  | block _ => none
  | body type _ _ => some type

def State.openTypes (s : State) : List String := s.frames.filterMap Frame.type?

/-- What the next step declares, with the types around it. -/
def recorded (s : State) : List (TypeDecl × List String) :=
  ((step s).skeleton.types.drop s.skeleton.types.length).map (·, s.openTypes)

def nestings (s : State) : List (TypeDecl × List String) :=
  if _h : s.isDone then [] else recorded s ++ nestings (step s)
termination_by (s.cursor.rest.length, s.frames.length)
decreasing_by exact step_progress (by simpa using _h)

variable {s t u : State}

theorem nestings_of_isDone (h : s.isDone = true) : nestings s = [] := by
  rw [nestings, dif_pos h]

theorem nestings_step (s : State) : nestings s = recorded s ++ nestings (step s) := by
  by_cases h : s.isDone
  · have hnone : recorded s = [] := by simp [recorded, step_of_isDone h]
    rw [hnone, step_of_isDone h, List.nil_append]
  · rw [nestings, dif_neg h]

theorem nestings_iterate (n : Nat) (h : (step^[n] s).isDone = true) :
    nestings s = (List.range n).flatMap fun k => recorded (step^[k] s) := by
  induction n generalizing s with
  | zero => exact nestings_of_isDone h
  | succ n ih =>
      rw [nestings_step, ih h, List.range_succ_eq_map, List.flatMap_cons, List.flatMap_map]
      rfl

theorem map_nestings (s : State) :
    s.skeleton.types ++ (nestings s).map (·.1) = (run s).skeleton.types := by
  induction s using run.induct with
  | case1 s hdone => rw [run, dif_pos hdone, nestings_of_isDone hdone, List.map_nil, List.append_nil]
  | case2 s hdone ih =>
      obtain ⟨us, ds, -, htypes, -⟩ := step_records s
      have hnew : (recorded s).map (·.1) = ds := by simp [recorded, htypes, Function.comp_def]
      rw [run_step, ← ih, nestings_step, List.map_append, hnew, htypes, List.append_assoc]

/-- Only the place and what is not declared here differ. -/
structure Holds (s t : State) : Prop where
  frames : t.frames = s.frames
  scopes : t.scopes = s.scopes
  types : t.skeleton.types = s.skeleton.types

theorem Holds.trans (h : Holds s t) (h' : Holds t u) : Holds s u :=
  ⟨h'.frames.trans h.frames, h'.scopes.trans h.scopes, h'.types.trans h.types⟩

theorem usingDirective_holds (s : State) (c : Cursor) : Holds s (usingDirective (s.moveTo c)) := by
  unfold usingDirective
  dsimp only
  repeat' split
  all_goals exact ⟨rfl, rfl, rfl⟩

theorem baseList_holds (s : State) (c : Cursor) : Holds s (baseList (s.moveTo c)).2 := by
  rw [baseList]
  dsimp only
  repeat' split
  all_goals exact ⟨rfl, rfl, rfl⟩

theorem skipConstraints_holds (s : State) : Holds s (skipConstraints s) := by
  rw [skipConstraints]
  split
  · exact ⟨rfl, rfl, rfl⟩
  · exact ⟨rfl, rfl, rfl⟩

theorem namespaceHead_openTypes (s : State) : (namespaceHead s).openTypes = s.openTypes := by
  rw [namespaceHead]
  dsimp only
  repeat' split
  all_goals rfl

theorem namespaceHead_types (s : State) : (namespaceHead s).skeleton.types = s.skeleton.types := by
  rw [namespaceHead]
  dsimp only
  repeat' split
  all_goals rfl

/-- A declaration in `container` is recorded, and its body may be open. -/
structure Adds (container : Option String) (decl : TypeDecl) (s t : State) : Prop where
  container : decl.container = container
  scope : decl.scope = s.scopes.head?
  scopes : t.scopes = s.scopes
  types : t.skeleton.types = s.skeleton.types ++ [decl]
  frames : t.frames = s.frames ∨ t.frames = .body decl.name.name 1 false :: s.frames

theorem typeBody_opens (name : String) (s : State) :
    (typeBody name s).scopes = s.scopes ∧ (typeBody name s).skeleton.types = s.skeleton.types ∧
      ((typeBody name s).frames = s.frames ∨ (typeBody name s).frames = .body name 1 false :: s.frames) := by
  rw [typeBody]
  split
  · exact ⟨rfl, rfl, .inr rfl⟩
  · split
    · exact ⟨rfl, rfl, .inl rfl⟩
    · exact ⟨rfl, rfl, .inl rfl⟩

theorem typeTail_adds (container : Option String) (isPartial : Bool) (name : NameRef) (s : State)
    (c : Cursor) : ∃ decl, Adds container decl s (typeTail container isPartial name (s.moveTo c)) := by
  rw [typeTail]
  dsimp only
  generalize ((s.moveTo c).cursor.skipGroup '<' '>').skipGroup '(' ')' = d
  have hread : Holds s (skipConstraints (baseList ((s.moveTo c).moveTo d)).2) :=
    (baseList_holds s d).trans (skipConstraints_holds _)
  generalize baseList ((s.moveTo c).moveTo d) = bases at hread ⊢
  generalize skipConstraints bases.2 = v at hread ⊢
  obtain ⟨hscopes, htypes, hframes⟩ := typeBody_opens name.name (v.addType
    ⟨name, v.scopes.head?, container, isPartial, bases.1, v.visible⟩)
  refine ⟨⟨name, v.scopes.head?, container, isPartial, bases.1, v.visible⟩, {
    container := rfl
    scope := congrArg List.head? hread.scopes
    scopes := hscopes.trans hread.scopes
    types := htypes.trans (congrArg (· ++ _) hread.types)
    frames := hframes.imp (·.trans hread.frames) (·.trans (congrArg (_ :: ·) hread.frames)) }⟩

theorem typeFrom_adds (container : Option String) (start : Cursor.TypeStart) (s : State) :
    Holds s (typeFrom container start s) ∨ ∃ decl, Adds container decl s (typeFrom container start s) := by
  rw [typeFrom, typeHead]
  split
  · exact .inl ⟨rfl, rfl, rfl⟩
  · split
    · exact .inl ⟨rfl, rfl, rfl⟩
    · exact .inr (typeTail_adds container start.isPartial _ s _)

/-- What a step does to the types that are declared and to those that are open. -/
inductive Nests (s t : State) : Prop
  | passes (opened : t.openTypes <:+ s.openTypes) (scopes : s.openTypes ≠ [] → t.scopes = s.scopes)
      (types : t.skeleton.types = s.skeleton.types)
  | declares (decl : TypeDecl) (container : decl.container = s.openTypes.head?)
      (scope : decl.scope = s.scopes.head?) (scopes : t.scopes = s.scopes)
      (types : t.skeleton.types = s.skeleton.types ++ [decl])
      (opened : t.openTypes = s.openTypes ∨ t.openTypes = decl.name.name :: s.openTypes)

theorem Holds.nests (h : Holds s t) : Nests s t :=
  .passes (by rw [State.openTypes, h.frames]; exact List.suffix_refl _) (fun _ => h.scopes) h.types

theorem Adds.nests {decl : TypeDecl} (h : Adds s.openTypes.head? decl s t) : Nests s t := by
  refine .declares decl h.container h.scope h.scopes h.types (h.frames.imp ?_ ?_)
  · exact congrArg (List.filterMap Frame.type?)
  · exact congrArg (List.filterMap Frame.type?)

theorem nests_of_typeFrom {container : Option String} (start : Cursor.TypeStart)
    (hcontainer : s.openTypes.head? = container) : Nests s (typeFrom container start s) := by
  subst hcontainer
  obtain h | ⟨decl, h⟩ := typeFrom_adds s.openTypes.head? start s
  · exact h.nests
  · exact h.nests

/-- No type is open around a namespace. -/
def State.Layered (s : State) : Prop := ∀ frame ∈ s.blocks, frame.isBody = false

theorem step_layered (h : s.Layered) : (step s).Layered := by
  rw [State.Layered] at h ⊢
  cases step_effect s with
  | passes hp => rwa [hp.blocks]
  | directive name hp =>
      rw [hp.blocks]
      exact h
  | declares decl _ hp =>
      rw [hp.blocks]
      exact h
  | opens full top hp =>
      rw [hp.blocks]
      rw [top] at h
      exact List.forall_mem_cons.2 ⟨rfl, h⟩
  | closes visible frames before _ hp =>
      have hblocks : s.blocks = .block visible :: frames := by rw [State.blocks, before]; rfl
      rw [hblocks] at h
      rw [hp.blocks]
      exact fun frame hframe => h frame (List.mem_cons_of_mem _ (List.dropWhile_subset _ hframe))
  | names full _ hp =>
      rw [hp.blocks]
      exact h

theorem openTypes_of_atMembers (h : s.Layered) (hs : s.AtMembers) : s.openTypes = [] := by
  rw [State.openTypes, List.filterMap_eq_nil_iff]
  intro frame hframe
  rw [← blocks_of_atMembers hs] at hframe
  have hbody := h frame hframe
  cases frame with
  | block visible => rfl
  | body type depth sawStatic => cases hbody

theorem openTypes_of_body {type : String} {depth : Nat} {sawStatic : Bool} {outer : List Frame}
    (hf : s.frames = .body type depth sawStatic :: outer) :
    s.openTypes = type :: outer.filterMap Frame.type? := by
  rw [State.openTypes, hf]
  rfl

theorem Move.nests (hm : Move s t) (h : s.Layered) : Nests s t := by
  have atMembers (members : s.AtMembers) {u : State} (hopen : u.openTypes = s.openTypes)
      (htypes : u.skeleton.types = s.skeleton.types) : Nests s u :=
    .passes (hopen ▸ List.suffix_refl _) (fun hne => absurd (openTypes_of_atMembers h members) hne) htypes
  cases hm with
  | done => exact Holds.nests ⟨rfl, rfl, rfl⟩
  | giveUpBlock _ hf | closeBlock _ hf =>
      refine atMembers (fun _ _ _ _ hbody => ?_) ?_ rfl
      · rw [hf] at hbody
        cases hbody
      · rw [State.openTypes, State.openTypes, hf]
        rfl
  | giveUpBody _ hf | closeBody _ hf =>
      refine .passes ?_ (fun _ => rfl) rfl
      rw [openTypes_of_body hf]
      exact List.suffix_cons _ _
  | stray _ members | semicolon _ members | attributes _ members => exact atMembers members rfl rfl
  | directive => exact (usingDirective_holds s _).nests
  | scope _ members => exact atMembers members (namespaceHead_openTypes _) (namespaceHead_types _)
  | type _ members => exact nests_of_typeFrom _ (by rw [openTypes_of_atMembers h members]; rfl)
  | inBody _ hf =>
      refine .passes ?_ (fun _ => rfl) rfl
      rw [openTypes_of_body hf]
      exact List.suffix_refl _
  | @nested keyword rest type depth _ outer _ hf _ isPartial =>
      let here : State := { s with frames := .body type depth false :: outer }
      have hhere : here.openTypes = s.openTypes := (openTypes_of_body hf).symm
      let start : Cursor.TypeStart := ⟨isPartial, keyword, ⟨keyword :: s.cursor.before, rest⟩⟩
      have hnests : Nests here (typeFrom (some type) start here) := nests_of_typeFrom start rfl
      cases hnests with
      | passes opened scopes types => exact .passes (hhere ▸ opened) (hhere ▸ scopes) types
      | declares decl container scope scopes types opened =>
          exact .declares decl (hhere ▸ container) scope scopes types (hhere ▸ opened)

theorem step_nests (h : s.Layered) : Nests s (step s) := (step_move s).nests h

/-- The innermost of the types around a declaration is its container. It was declared before, in the same
namespace and with the other types around it. -/
def Rooted (seen : List (TypeDecl × List String)) (d : TypeDecl × List String) : Prop :=
  d.1.container = d.2.head? ∧
    ∀ type outer, d.2 = type :: outer →
      ∃ decl, (decl, outer) ∈ seen ∧ decl.name.name = type ∧ decl.scope = d.1.scope

/-- The types that are open are among those that were declared. -/
structure State.Grounded (seen : List (TypeDecl × List String)) (s : State) : Prop where
  layered : s.Layered
  declared : ∀ type outer, type :: outer <:+ s.openTypes →
    ∃ decl, (decl, outer) ∈ seen ∧ decl.name.name = type ∧ decl.scope = s.scopes.head?

variable {seen : List (TypeDecl × List String)}

theorem step_grounded (h : s.Grounded seen) :
    (step s).Grounded (seen ++ recorded s) ∧
      (recorded s = [] ∨ ∃ d, recorded s = [d] ∧ Rooted seen d) := by
  cases step_nests h.layered with
  | passes opened scopes types =>
      have hnone : recorded s = [] := by simp [recorded, types]
      rw [hnone, List.append_nil]
      refine ⟨⟨step_layered h.layered, ?_⟩, .inl rfl⟩
      intro type outer hsuffix
      have hopen := hsuffix.trans opened
      rw [scopes (List.ne_nil_of_mem (hopen.subset List.mem_cons_self))]
      exact h.declared type outer hopen
  | declares decl container scope scopes types opened =>
      have hone : recorded s = [(decl, s.openTypes)] := by simp [recorded, types]
      rw [hone]
      refine ⟨⟨step_layered h.layered, ?_⟩, .inr ⟨_, rfl, container, ?_⟩⟩
      · intro type outer hsuffix
        have hcases : type :: outer <:+ s.openTypes ∨ type = decl.name.name ∧ outer = s.openTypes := by
          obtain opened | opened := opened
          · exact .inl (opened ▸ hsuffix)
          · rw [opened, List.suffix_cons_iff, List.cons.injEq] at hsuffix
            exact hsuffix.symm
        rw [scopes]
        obtain hold | ⟨rfl, rfl⟩ := hcases
        · obtain ⟨e, he, hname⟩ := h.declared type outer hold
          exact ⟨e, List.mem_append_left _ he, hname⟩
        · exact ⟨decl, List.mem_append_right _ (List.mem_singleton_self _), rfl, scope⟩
      · intro type outer heq
        rw [scope]
        exact h.declared type outer (heq ▸ List.suffix_refl _)

theorem nestings_rooted (h : s.Grounded seen) {before after : List (TypeDecl × List String)}
    {d : TypeDecl × List String} (hd : nestings s = before ++ d :: after) : Rooted (seen ++ before) d := by
  induction s using run.induct generalizing seen before with
  | case1 s hdone =>
      rw [nestings_of_isDone hdone] at hd
      exact absurd hd.symm (by simp)
  | case2 s hdone ih =>
      obtain ⟨hstep, hrecorded⟩ := step_grounded h
      rw [nestings_step] at hd
      obtain hnone | ⟨first, hone, hfirst⟩ := hrecorded
      · rw [hnone, List.append_nil] at hstep
        rw [hnone] at hd
        exact ih hstep hd
      · rw [hone] at hd hstep
        cases before with
        | nil =>
            obtain ⟨rfl, -⟩ := List.cons.inj hd
            rwa [List.append_nil]
        | cons e before =>
            obtain ⟨rfl, htail⟩ := List.cons.inj hd
            rw [List.append_cons]
            exact ih hstep htail

theorem grounded_start (ts : List Token) : State.Grounded [] { cursor := ⟨[], ts⟩ } where
  layered := List.forall_mem_nil _
  declared _ _ h := absurd (List.suffix_nil.1 h) (List.cons_ne_nil _ _)

end Parser

namespace Skeleton

/-- The declarations of a list of tokens, each with the types around it, innermost first. -/
def nestings (ts : List Token) : List (TypeDecl × List String) :=
  Parser.nestings { cursor := ⟨[], ts⟩ }

theorem map_nestings (ts : List Token) : (nestings ts).map (·.1) = (ofTokens ts).types :=
  Parser.map_nestings { cursor := ⟨[], ts⟩ }

theorem nestings_rooted {ts : List Token} {before after : List (TypeDecl × List String)}
    {d : TypeDecl × List String} (h : nestings ts = before ++ d :: after) : Parser.Rooted before d :=
  Parser.nestings_rooted (Parser.grounded_start ts) h

end Skeleton

end GeneratorBench
