import GeneratorBench.Proofs.Syntax.Heads
import GeneratorBench.Proofs.Syntax.Spelling
import GeneratorBench.Proofs.Syntax.Steps

/-!
The reader gives back every well-formed text: what it records of a text is the outline of the tree
that the text spells.
-/

namespace GeneratorBench

open Grammar

namespace Parser

/-! ### Members -/

theorem run_directive {d : Directive} {s : State} (hs : s.AtMembers) {c : Cursor}
    (h : s.cursor.Reads d.kinds c) :
    run s = run (s.extend c (s.surroundings.withDirective d).visible
      (d.outline (spanIn s.cursor.tokens) s.surroundings)) := by
  rw [run_step, step_using hs (h.atWord _), usingDirective_reads h]

/-- Nothing but the head of a type starts with a modifier or a type keyword. -/
theorem memberStep_word {s : State} {t : Token} {w : String} (hkind : t.kind = .word w)
    (hw : w ∈ Cursor.modifiers ∨ w ∈ Cursor.typeKeywords) {start : Cursor.TypeStart}
    (hstart : s.cursor.typeStart? = some start) : memberStep s t = typeFrom none start s := by
  have hne : (w == "using") = false ∧ (w == "namespace") = false := by
    simp only [beq_eq_false_iff_ne]
    constructor
    · rintro rfl
      exact absurd hw (by decide)
    · rintro rfl
      exact absurd hw (by decide)
  simp [memberStep, Token.isMark_of_word hkind, Token.isWord_of_word hkind, hne, hstart]

theorem run_typeHead {h : TypeHead} {s : State} (hs : s.AtMembers) {c : Cursor} {mark : Char}
    (hc : s.cursor.Reads (h.kinds ++ [.mark mark]) c) (hmark : mark = ';' ∨ mark = '\x7b') :
    run s = run { s.extend c s.visible
        (h.outline (spanIn s.cursor.tokens) none s.surroundings) with
      frames := if mark = ';' then s.frames else .body h.name.text 1 false :: s.frames } := by
  obtain ⟨kw, more, m, n, hkey, hm, hread, hn⟩ := reads_head hc
  have hkw := (keyword_cases hkey).1
  obtain ⟨t, hkind, hstart⟩ := typeStart?_reads h.modifiers_mem hkw hm
  obtain ⟨w, u, rest, hrest, hu, hw⟩ : ∃ w u rest, s.cursor.rest = u :: rest ∧
      u.kind = .word w ∧ (w ∈ Cursor.modifiers ∨ w ∈ Cursor.typeKeywords) := by
    cases hmods : h.modifiers with
    | nil =>
        rw [hmods] at hm
        obtain ⟨u, rest, hrest, hu, -⟩ := Cursor.reads_cons.1 hm
        exact ⟨kw, u, rest, hrest, hu, .inr hkw⟩
    | cons w ws =>
        rw [hmods] at hm
        obtain ⟨u, rest, hrest, hu, -⟩ := Cursor.reads_cons.1 hm
        exact ⟨w, u, rest, hrest, hu, .inl (h.modifiers_mem w (by simp [hmods]))⟩
  have hindex : m.index = s.surroundings.tokens + h.modifiers.length + 1 := by
    rw [hm.index_eq]
    simp [State.surroundings]
    omega
  rw [run_step, step_of_atMembers hs hrest, memberStep_word hu hw hstart,
    typeFrom_reads hkey rfl hkind hread hn hmark rfl rfl hindex, typeBody_extend hn hmark,
    hm.tokens_eq]
  rfl

/-! ### Bodies of types -/

def State.intoBody (s : State) (type : String) : State :=
  { s with frames := .body type 1 false :: s.frames }

def State.inBody (s : State) (c : Cursor) (type : String) (depth : Nat) (sawStatic : Bool)
    (outer : List Frame) : State :=
  { s with cursor := c, frames := .body type depth sawStatic :: outer }

section Bodies

variable {s : State} {type : String} {depth : Nat} {sawStatic : Bool} {outer : List Frame}
  {t : Token} {rest : List Token}

theorem step_of_body (hf : s.frames = .body type depth sawStatic :: outer)
    (h : s.cursor.rest = t :: rest) : step s = bodyStep s type depth sawStatic outer t := by
  rw [step, h, hf]

theorem step_inBody {c : Cursor} (h : c.rest = t :: rest) :
    step (s.inBody c type depth sawStatic outer) =
      bodyStep (s.inBody c type depth sawStatic outer) type depth sawStatic outer t :=
  step_of_body rfl h

theorem bodyStep_mark {m : Char} (hkind : t.kind = .mark m) :
    bodyStep s type depth sawStatic outer t =
      if m = '\x7b' then s.inBody s.cursor.next type (depth + 1) false outer
      else if m = '\x7d' then
        if depth ≤ 1 then { s.moveTo s.cursor.next with frames := outer }
        else s.inBody s.cursor.next type (depth - 1) false outer
      else if m = ';' then s.inBody s.cursor.next type depth false outer
      else s.inBody s.cursor.next type depth sawStatic outer := by
  have keyword : Cursor.isTypeKeyword t = false := by
    rw [Cursor.isTypeKeyword, Token.word?_of_mark hkind]
    rfl
  simp only [bodyStep, Token.isMark_of_mark hkind, Token.isWord_of_mark hkind, keyword,
    Bool.and_false, Bool.false_and, Bool.false_eq_true, if_false, beq_iff_eq]
  rfl

theorem bodyStep_word {w : String} (hkind : t.kind = .word w) (hw : w ∉ Cursor.typeKeywords) :
    bodyStep s type depth sawStatic outer t =
      if w = "static" then s.inBody s.cursor.next type depth true outer
      else if w = "Main" ∧ sawStatic = true ∧ s.cursor.next.atMark '(' = true then
        (s.extend s.cursor.next s.visible { hasMain := true }).inBody s.cursor.next type depth
          sawStatic outer
      else s.inBody s.cursor.next type depth sawStatic outer := by
  have keyword : Cursor.isTypeKeyword t = false := by
    rw [isTypeKeyword_of_word hkind]
    simpa using hw
  simp only [bodyStep, Token.isMark_of_word hkind, Token.isWord_of_word hkind, keyword,
    Bool.and_false, Bool.false_and, Bool.false_eq_true, if_false, beq_iff_eq, Bool.and_eq_true,
    and_assoc]
  split
  · rfl
  · split
    · simp [State.extend, State.inBody, State.moveTo, Skeleton.append_def]
    · rfl

theorem run_modifiers {mods : List String} (hmods : ∀ m ∈ mods, m ∈ Cursor.modifiers)
    (hf : s.frames = .body type 1 sawStatic :: outer) {c : Cursor}
    (h : s.cursor.Reads (mods.map .word) c) :
    ∃ sawStatic', run s = run (s.inBody c type 1 sawStatic' outer) := by
  induction mods generalizing s sawStatic with
  | nil =>
      obtain rfl := Cursor.reads_nil.1 h
      refine ⟨sawStatic, ?_⟩
      rw [State.inBody, ← hf]
  | cons w ws ih =>
      obtain ⟨t, rest, hrest, hkind, -⟩ := Cursor.reads_cons.1 h
      have hw : w ∈ Cursor.modifiers := hmods w List.mem_cons_self
      have notKeyword : w ∉ Cursor.typeKeywords := by
        have all : ∀ v ∈ Cursor.modifiers, v ∉ Cursor.typeKeywords := by decide
        exact all w hw
      have notMain : w ≠ "Main" := by
        rintro rfl
        exact absurd hw (by decide)
      obtain ⟨saw, hstep⟩ : ∃ saw, step s = s.inBody s.cursor.next type 1 saw outer := by
        rw [step_of_body hf hrest, bodyStep_word hkind notKeyword,
          if_neg (c := w = "Main" ∧ _) fun hmain => notMain hmain.1]
        split
        · exact ⟨_, rfl⟩
        · exact ⟨_, rfl⟩
      obtain ⟨saw', hrun⟩ := ih (s := s.inBody s.cursor.next type 1 saw outer)
        (fun m hm => hmods m (List.mem_cons_of_mem _ hm)) rfl h.next
      exact ⟨saw', by rw [run_step, hstep, hrun]; rfl⟩

theorem not_static_of_typeKeyword {w : String} (hw : w ∈ Cursor.typeKeywords) :
    (w == "static") = false ∧ (w == "Main") = false := by
  simp only [beq_eq_false_iff_ne]
  constructor
  · rintro rfl
    exact absurd hw (by decide)
  · rintro rfl
    exact absurd hw (by decide)

theorem bodyStep_typeKeyword {w : String} (hkind : t.kind = .word w)
    (hw : w ∈ Cursor.typeKeywords) (hr : s.cursor.rest = t :: rest)
    (hword : rest.head?.any (·.word?.isSome) = true) :
    bodyStep s type 1 sawStatic outer t =
      typeFrom (some type)
        ⟨(s.cursor.before.takeWhile Cursor.isModifier).any (·.isWord "partial"), t,
          ⟨t :: s.cursor.before, rest⟩⟩
        { s with frames := .body type 1 false :: outer } := by
  have keyword : Cursor.isTypeKeyword t = true := by
    rw [isTypeKeyword_of_word hkind]
    simpa using hw
  simp only [bodyStep, Token.isMark_of_word hkind, Token.isWord_of_word hkind,
    not_static_of_typeKeyword hw, keyword, Cursor.next_eq hr, hword,
    Cursor.typeStart?_rewindModifiers hr keyword]
  rfl

/-- Behind something that is no modifier, reading backwards finds none. -/
theorem takeWhile_isModifier_eq_nil {ts : List Token} (h : ts.head?.any Cursor.isModifier = false) :
    ts.takeWhile Cursor.isModifier = [] := by
  cases ts with
  | nil => rfl
  | cons t ts => exact List.takeWhile_cons_of_neg (Bool.not_eq_true _ ▸ h)

/-- The modifiers right behind something that is none are those that reading backwards finds. -/
theorem any_takeWhile_isModifier {mods : List String} (hmods : ∀ m ∈ mods, m ∈ Cursor.modifiers)
    {c d : Cursor} (h : c.Reads (mods.map .word) d)
    (hc : c.before.head?.any Cursor.isModifier = false) (w : String) :
    (d.before.takeWhile Cursor.isModifier).any (·.isWord w) = mods.contains w := by
  obtain ⟨us, hus, -, hb⟩ := h
  have all : ∀ u ∈ us.reverse, Cursor.isModifier u = true := by
    intro u hu
    exact all_isModifier hmods hus u (List.mem_reverse.1 hu)
  rw [hb, List.takeWhile_append_of_pos all, takeWhile_isModifier_eq_nil hc, List.append_nil, List.any_reverse,
    any_isWord hus]

theorem run_nestedHead {h : TypeHead} (hf : s.frames = .body type 1 false :: outer)
    (hb : s.cursor.before.head?.any Cursor.isModifier = false) {c : Cursor} {mark : Char}
    (hc : s.cursor.Reads (h.kinds ++ [.mark mark]) c) (hmark : mark = ';' ∨ mark = '\x7b') :
    run s = run { s.extend c s.visible
        (h.outline (spanIn s.cursor.tokens) (some type) s.surroundings) with
      frames := if mark = ';' then s.frames else .body h.name.text 1 false :: s.frames } := by
  obtain ⟨kw, more, m, n, hkey, hm, hread, hn⟩ := reads_head hc
  have hkw := (keyword_cases hkey).1
  obtain ⟨m₀, hmods, hkeyword⟩ := Cursor.reads_append.1 hm
  obtain ⟨t, rest, hrest, hkind, hend⟩ := Cursor.reads_cons.1 hkeyword
  obtain rfl := Cursor.reads_nil.1 hend
  obtain ⟨saw, hrun⟩ := run_modifiers h.modifiers_mem hf hmods
  have hword : rest.head?.any (·.word?.isSome) = true := by
    obtain ⟨w, ks, hw⟩ : ∃ w ks,
        more.map Token.Kind.word ++ .word h.name.text :: listKinds ':' h.bases = .word w :: ks := by
      cases more with
      | nil => exact ⟨_, _, rfl⟩
      | cons w ws => exact ⟨_, _, rfl⟩
    rw [hw] at hread
    obtain ⟨u, rest', hrest', hu, -⟩ := Cursor.reads_cons.1 hread
    obtain rfl : rest = u :: rest' := hrest'
    simp [Token.word?_of_word hu]
  have hindex : (⟨t :: m₀.before, rest⟩ : Cursor).index =
      s.surroundings.tokens + h.modifiers.length + 1 := by
    rw [hm.index_eq]
    simp [State.surroundings]
    omega
  have hstep : step (s.inBody m₀ type 1 saw outer) = typeFrom (some type)
      ⟨(m₀.before.takeWhile Cursor.isModifier).any (·.isWord "partial"), t,
        ⟨t :: m₀.before, rest⟩⟩
      (s.inBody m₀ type 1 false outer) := by
    rw [step_inBody hrest,
      bodyStep_typeKeyword hkind hkw (s := s.inBody m₀ type 1 saw outer) hrest hword]
    rfl
  rw [hrun, run_step, hstep,
    typeFrom_reads hkey (any_takeWhile_isModifier h.modifiers_mem hmods hb _) hkind hread hn hmark
      (s := s.inBody m₀ type 1 false outer) (e := s.surroundings) rfl rfl hindex,
    typeBody_extend hn hmark, hm.tokens_eq]
  simp only [State.inBody, State.extend, hf]
  rfl

theorem run_inBody_word {c d : Cursor} {w : String} {ks : List Token.Kind}
    (h : c.Reads (.word w :: ks) d) (hw : w ∉ Cursor.typeKeywords) :
    run (s.inBody c type depth sawStatic outer) =
      run (if w = "static" then s.inBody c.next type depth true outer
        else if w = "Main" ∧ sawStatic = true ∧ c.next.atMark '(' = true then
          (s.extend c.next s.visible { hasMain := true }).inBody c.next type depth sawStatic outer
        else s.inBody c.next type depth sawStatic outer) := by
  obtain ⟨t, rest, hrest, hkind, -⟩ := Cursor.reads_cons.1 h
  rw [run_step, step_inBody hrest, bodyStep_word hkind hw]
  rfl

theorem run_inBody_mark {c d : Cursor} {m : Char} {ks : List Token.Kind}
    (h : c.Reads (.mark m :: ks) d) :
    run (s.inBody c type depth sawStatic outer) =
      run (if m = '\x7b' then s.inBody c.next type (depth + 1) false outer
        else if m = '\x7d' then
          if depth ≤ 1 then { s.moveTo c.next with frames := outer }
          else s.inBody c.next type (depth - 1) false outer
        else if m = ';' then s.inBody c.next type depth false outer
        else s.inBody c.next type depth sawStatic outer) := by
  obtain ⟨t, rest, hrest, hkind, -⟩ := Cursor.reads_cons.1 h
  rw [run_step, step_inBody hrest, bodyStep_mark hkind]
  rfl

/-- The entry point, which is passed over token by token. -/
theorem run_main {c : Cursor} (h : s.cursor.Reads mainKinds c) :
    run (s.intoBody type) = run ((s.extend c s.visible { hasMain := true }).intoBody type) := by
  have h₁ := h.next
  have h₂ := h₁.next
  have h₃ := h₂.next
  have h₄ := h₃.next
  have h₅ := h₄.next
  have h₆ := h₅.next
  have hs : s.intoBody type = s.inBody s.cursor type 1 false s.frames := rfl
  rw [hs, run_inBody_word h (by decide), if_pos rfl,
    run_inBody_word h₁ (by decide), if_neg (by decide), if_neg (by simp),
    run_inBody_word h₂ (by decide), if_neg (by decide), if_pos ⟨rfl, rfl, h₃.atMark '('⟩,
    run_inBody_mark h₃, if_neg (by decide), if_neg (by decide), if_neg (by decide),
    run_inBody_mark h₄, if_neg (by decide), if_neg (by decide), if_neg (by decide),
    run_inBody_mark h₅, if_pos rfl,
    run_inBody_mark h₆, if_neg (by decide), if_pos rfl, if_neg (by decide), h₆.next_eq]
  rfl

theorem run_nestedType {h : TypeHead} (hb : s.cursor.before.head?.any Cursor.isModifier = false)
    {c : Cursor} (hc : s.cursor.Reads (h.kinds ++ [.mark ';']) c) :
    run (s.intoBody type) = run ((s.extend c s.visible
      (h.outline (spanIn s.cursor.tokens) (some type) s.surroundings)).intoBody type) :=
  run_nestedHead (s := s.intoBody type) rfl hb hc (.inl rfl)

theorem run_nestedOpen {h : TypeHead} (hb : s.cursor.before.head?.any Cursor.isModifier = false)
    {c : Cursor} (hc : s.cursor.Reads (h.kinds ++ [.mark '\x7b']) c) :
    run (s.intoBody type) = run (((s.extend c s.visible
      (h.outline (spanIn s.cursor.tokens) (some type) s.surroundings)).intoBody type).intoBody
        h.name.text) :=
  run_nestedHead (s := s.intoBody type) rfl hb hc (.inr rfl)

theorem run_bodyEnd {c : Cursor} (h : s.cursor.Reads [.mark '\x7d'] c) :
    run (s.intoBody type) = run (s.extend c s.visible {}) := by
  have hs : s.intoBody type = s.inBody s.cursor type 1 false s.frames := rfl
  rw [hs, run_inBody_mark h, if_neg (by decide), if_pos rfl, if_pos (by decide), h.next_eq]
  simp only [State.extend, State.moveTo, Skeleton.append_empty]

end Bodies

theorem before_head_of_mark {c d : Cursor} {ks : List Token.Kind} {m : Char}
    (h : c.Reads (ks ++ [.mark m]) d) : d.before.head?.any Cursor.isModifier = false := by
  obtain ⟨n, -, hend⟩ := Cursor.reads_append.1 h
  obtain ⟨t, rest, -, hkind, hd⟩ := Cursor.reads_cons.1 hend
  obtain rfl := Cursor.reads_nil.1 hd
  simp [Cursor.isModifier, Token.word?_of_mark hkind]

theorem extend_body {h : TypeHead} {s : State} {c : Cursor}
    (hc : s.cursor.Reads (h.kinds ++ [.mark '\x7b']) c) (container : Option String) (b : Body)
    (d : Cursor) {t : State} (ht : t = s.extend c s.visible
      (h.outline (spanIn s.cursor.tokens) container s.surroundings)) :
    t.extend d t.visible (b.outline (spanIn t.cursor.tokens) h.name.text t.surroundings) =
      s.extend d s.visible (h.outline (spanIn s.cursor.tokens) container s.surroundings
        ++ b.outline (spanIn s.cursor.tokens) h.name.text
          (s.surroundings.skip (h.kinds.length + 1))) := by
  subst ht
  rw [s.surroundings_skip hc rfl, s.tokens_extend hc, State.extend_extend, List.length_append]
  rfl

theorem surroundings_body {h : TypeHead} {b : Body} {s : State} {c : Cursor}
    (hc : s.cursor.Reads (h.kinds ++ [.mark '\x7b'] ++ (b.kinds ++ [.mark '\x7d'])) c)
    {container : Option String} {span : Nat → Nat → Span} {e : Surroundings} :
    (s.extend c s.visible (h.outline span container e ++
      b.outline span h.name.text (e.skip (h.kinds.length + 1)))).surroundings =
        (s.surroundings.skip (h.kinds.length + 1)).skip (b.kinds.length + 1) := by
  have none : (h.outline span container e ++
      b.outline span h.name.text (e.skip (h.kinds.length + 1))).usings = [] := by
    rw [Skeleton.usings_append, (b.outline_plain span _ _).1]
    rfl
  rw [s.surroundings_skip hc none, Surroundings.skip_skip]
  simp only [List.length_append, List.length_singleton]

theorem run_body {b : Body} {s : State} (type : String)
    (hb : s.cursor.before.head?.any Cursor.isModifier = false) {d : Cursor}
    (h : s.cursor.Reads (b.kinds ++ [.mark '\x7d']) d) :
    run (s.intoBody type) =
      run (s.extend d s.visible (b.outline (spanIn s.cursor.tokens) type s.surroundings)) := by
  induction b generalizing s type d with
  | done => rw [run_bodyEnd h, Body.outline]
  | main rest ih =>
      rw [Body.kinds, List.append_assoc] at h
      obtain ⟨c, hc, hrest⟩ := Cursor.reads_append.1 h
      have hmain : s.cursor.Reads (mainKinds.dropLast ++ [.mark '\x7d']) c := hc
      have hclose := before_head_of_mark hmain
      rw [run_main hc, ih (s := s.extend c s.visible _) type hclose hrest, s.surroundings_skip hc rfl,
        s.tokens_extend hc, State.extend_extend, Body.outline]
      rfl
  | type head rest ih =>
      rw [Body.kinds, List.append_assoc] at h
      obtain ⟨c, hc, hrest⟩ := Cursor.reads_append.1 h
      rw [run_nestedType hb hc, ih (s := s.extend c s.visible _) type (before_head_of_mark hc) hrest,
        s.surroundings_skip hc rfl, s.tokens_extend hc, State.extend_extend, Body.outline,
        List.length_append]
      rfl
  | typeWith head inner rest ihInner ihRest =>
      rw [Body.kinds, List.append_assoc] at h
      obtain ⟨c₂, h₂, hrest⟩ := Cursor.reads_append.1 h
      obtain ⟨c₁, hc₁, hc₂⟩ := Cursor.reads_append.1 h₂
      have hinner := ihInner
        (s := (s.extend c₁ s.visible
          (head.outline (spanIn s.cursor.tokens) (some type) s.surroundings)).intoBody type)
        head.name.text (before_head_of_mark hc₁) hc₂
      have hbody := congrArg (fun t : State => run (t.intoBody type))
        (extend_body hc₁ (some type) inner c₂ rfl)
      rw [run_nestedOpen hb hc₁, hinner.trans hbody,
        ihRest (s := s.extend c₂ s.visible _) type (before_head_of_mark hc₂) hrest,
        surroundings_body h₂, s.tokens_extend h₂, State.extend_extend, Body.outline]
      rfl

/-! ### Blocks -/

def State.intoBlock (s : State) (full : String) : State :=
  { s with scopes := full :: s.scopes, frames := .block s.visible.length :: s.frames }

theorem run_blockHead {n : DottedName} {s : State} (hs : s.AtMembers) {c : Cursor}
    (h : s.cursor.Reads (namespaceKinds n '\x7b') c) :
    run s = run ((s.extend c s.visible { namespaces := [s.surroundings.full n] }).intoBlock
      (s.surroundings.full n)) := by
  rw [run_step, step_namespace hs (h.atWord _), namespaceHead_block h]
  rfl

theorem surroundings_enter {n : DottedName} {mark : Char} {s : State} {c : Cursor}
    (h : s.cursor.Reads (namespaceKinds n mark) c) :
    { (s.extend c s.visible { namespaces := [s.surroundings.full n] }).surroundings with
      scope := some (s.surroundings.full n) } = s.surroundings.enter n := by
  have hlength : (namespaceKinds n mark).length = n.kinds.length + 2 := by
    rw [namespaceKinds, List.length_cons, List.length_append, List.length_singleton]
  rw [s.surroundings_skip h rfl, hlength, Surroundings.enter]

/-- The closing brace takes back the scope and the directives of the block. -/
theorem run_blockEnd {s : State} {full : String} {visible : List Nat} {sk : Skeleton} {c d : Cursor}
    (hv : s.visible <+: visible) (h : c.Reads [.mark '\x7d'] d) :
    run ((s.intoBlock full).extend c visible sk) = run (s.extend d s.visible sk) := by
  obtain ⟨t, rest, hrest, hkind, -⟩ := Cursor.reads_cons.1 h
  have hstep : step ((s.intoBlock full).extend c visible sk) =
      memberStep ((s.intoBlock full).extend c visible sk) t :=
    step_of_atMembers (by rintro _ _ _ _ hf; cases hf) (show _ = t :: rest from hrest)
  have htake : visible.take s.visible.length = s.visible := (List.prefix_iff_eq_take.1 hv).symm
  have hnext : c.next = d := h.next_eq
  rw [run_step, hstep, memberStep, Token.isMark_of_mark hkind]
  simp [State.intoBlock, State.extend, State.moveTo, State.leave, htake, hnext]

theorem surroundings_block {n : DottedName} {inner : Members} {s : State} {c : Cursor}
    (h : s.cursor.Reads (namespaceKinds n '\x7b' ++ (inner.kinds ++ [.mark '\x7d'])) c)
    (span : Nat → Nat → Span) :
    (s.extend c s.visible ({ namespaces := [s.surroundings.full n] } ++
      inner.outline span (s.surroundings.enter n))).surroundings =
        s.surroundings.resume (inner.after (s.surroundings.enter n)) := by
  have husings : (inner.after (s.surroundings.enter n)).usings = s.surroundings.usings +
      (({ namespaces := [s.surroundings.full n] } : Skeleton) ++
        inner.outline span (s.surroundings.enter n)).usings.length :=
    inner.after_usings span (s.surroundings.enter n)
  have htokens : (inner.after (s.surroundings.enter n)).tokens + 1 = s.surroundings.tokens +
      (namespaceKinds n '\x7b' ++ (inner.kinds ++ [Token.Kind.mark '\x7d'])).length := by
    rw [inner.after_tokens]
    simp only [Surroundings.enter, Surroundings.skip, namespaceKinds, List.length_append,
      List.length_cons, List.length_nil]
    omega
  rw [s.surroundings_extend h, Surroundings.resume, htokens, husings]
  rfl

/-! ### Whole texts -/

theorem run_members {ms : Members} {s : State} (hs : s.AtMembers) {d : Cursor}
    (h : s.cursor.Reads ms.kinds d) :
    run s = run (s.extend d (ms.after s.surroundings).visible
      (ms.outline (spanIn s.cursor.tokens) s.surroundings)) := by
  induction ms generalizing s d with
  | done =>
      obtain rfl := Cursor.reads_nil.1 h
      exact congrArg run s.extend_empty.symm
  | directive dir rest ih =>
      obtain ⟨c, hc, hrest⟩ := Cursor.reads_append.1 h
      rw [run_directive hs hc, ih (s := s.extend c _ _) hs hrest, s.surroundings_extend hc,
        s.tokens_extend hc, State.extend_extend]
      rfl
  | type head rest ih =>
      obtain ⟨c, hc, hrest⟩ := Cursor.reads_append.1 h
      have hrun : run s = run (s.extend c s.visible
          (head.outline (spanIn s.cursor.tokens) none s.surroundings)) :=
        run_typeHead hs hc (.inl rfl)
      rw [hrun, ih (s := s.extend c s.visible _) hs hrest, s.surroundings_skip hc rfl,
        s.tokens_extend hc, State.extend_extend, List.length_append]
      rfl
  | block name inner rest ihInner ihRest =>
      rw [Members.kinds] at h
      obtain ⟨c₃, h₃, hrest⟩ := Cursor.reads_append.1 h
      obtain ⟨c₁, hc₁, h₂⟩ := Cursor.reads_append.1 h₃
      obtain ⟨c₂, hc₂, hc₃⟩ := Cursor.reads_append.1 h₂
      have hinner := ihInner
        (s := (s.extend c₁ s.visible { namespaces := [s.surroundings.full name] }).intoBlock
          (s.surroundings.full name))
        (by rintro _ _ _ _ hf; cases hf) hc₂
      have hprefix := inner.visible_isPrefix (s.surroundings.enter name)
      have henter : ((s.extend c₁ s.visible { namespaces := [s.surroundings.full name] }).intoBlock
          (s.surroundings.full name)).surroundings = s.surroundings.enter name :=
        surroundings_enter hc₁
      have htokens : ((s.extend c₁ s.visible { namespaces := [s.surroundings.full name] }).intoBlock
          (s.surroundings.full name)).cursor.tokens = s.cursor.tokens := hc₁.tokens_eq
      rw [run_blockHead hs hc₁, hinner, henter, htokens,
        run_blockEnd (s := s.extend c₁ s.visible { namespaces := [s.surroundings.full name] })
          hprefix hc₃, State.extend_extend, State.extend_visible,
        ihRest (s := s.extend c₃ s.visible _) hs hrest, surroundings_block h₃,
        s.tokens_extend h₃, State.extend_extend]
      rfl
  | typeWith head inner rest ih =>
      obtain ⟨c₂, h₂, hrest⟩ := Cursor.reads_append.1 h
      obtain ⟨c₁, hc₁, hc₂⟩ := Cursor.reads_append.1 h₂
      have hopen : run s = run ((s.extend c₁ s.visible
          (head.outline (spanIn s.cursor.tokens) none s.surroundings)).intoBody head.name.text) :=
        run_typeHead hs hc₁ (.inr rfl)
      have hinner := run_body
        (s := s.extend c₁ s.visible
          (head.outline (spanIn s.cursor.tokens) none s.surroundings))
        head.name.text (before_head_of_mark hc₁) hc₂
      rw [hopen, hinner.trans (congrArg run (extend_body hc₁ none inner c₂ rfl)),
        ih (s := s.extend c₂ s.visible _) hs hrest,
        surroundings_body h₂, s.tokens_extend h₂, State.extend_extend]
      rfl

/-- Members leave to those after them what the tree says. -/
theorem surroundings_members {ms : Members} {s : State} {c : Cursor} (h : s.cursor.Reads ms.kinds c)
    (span : Nat → Nat → Span) :
    (s.extend c (ms.after s.surroundings).visible (ms.outline span s.surroundings)).surroundings =
      ms.after s.surroundings := by
  rw [s.surroundings_extend h, ← ms.after_usings span, ← ms.after_tokens]
  exact congrArg (fun scope => { ms.after s.surroundings with scope })
    (ms.after_scope s.surroundings).symm

def State.intoFile (s : State) (full : String) : State :=
  { s with scopes := full :: s.scopes, fileScoped := true }

theorem run_fileScoped {n : DottedName} {ms : Members} {s : State} (hs : s.AtMembers)
    (first : s.fileScoped = false) {d : Cursor}
    (h : s.cursor.Reads (namespaceKinds n ';' ++ ms.kinds) d) :
    run s = run ((s.extend d (ms.after (s.surroundings.enter n)).visible
      ({ namespaces := [s.surroundings.full n] } ++
        ms.outline (spanIn s.cursor.tokens) (s.surroundings.enter n))).intoFile
          (s.surroundings.full n)) := by
  obtain ⟨c, hc, hmembers⟩ := Cursor.reads_append.1 h
  have hopen : step s = (s.extend c s.visible
      { namespaces := [s.surroundings.full n] }).intoFile (s.surroundings.full n) := by
    rw [step_namespace hs (hc.atWord _), namespaceHead_fileScoped hc first]
    rfl
  have hrun := run_members
    (s := (s.extend c s.visible { namespaces := [s.surroundings.full n] }).intoFile
      (s.surroundings.full n)) hs hmembers
  have henter : ((s.extend c s.visible { namespaces := [s.surroundings.full n] }).intoFile
      (s.surroundings.full n)).surroundings = s.surroundings.enter n := surroundings_enter hc
  have htokens : ((s.extend c s.visible { namespaces := [s.surroundings.full n] }).intoFile
      (s.surroundings.full n)).cursor.tokens = s.cursor.tokens := hc.tokens_eq
  rw [run_step, hopen, hrun, henter, htokens]
  exact congrArg (fun t : State => run (t.intoFile (s.surroundings.full n)))
    (s.extend_extend c d s.visible _ _ _)

theorem run_sourceUnit {u : SourceUnit} {s : State} (hframes : s.frames = [])
    (first : s.fileScoped = false) (hstart : s.surroundings = {}) {d : Cursor}
    (h : s.cursor.Reads u.kinds d) (hend : d.rest = []) :
    (run s).skeleton = s.skeleton ++ u.outline (spanIn s.cursor.tokens) := by
  have hs : s.AtMembers := by
    intro _ _ _ _ hf
    rw [hframes] at hf
    cases hf
  obtain ⟨c, hc, hfile⟩ := Cursor.reads_append.1 h
  have hafter := surroundings_members hc (spanIn s.cursor.tokens)
  rw [run_members hs hc, SourceUnit.outline]
  rw [hstart] at hafter ⊢
  cases hnext : u.fileScoped with
  | none =>
      rw [hnext] at hfile
      obtain rfl := Cursor.reads_nil.1 hfile
      rw [run_done (s := s.extend d _ _) hend hframes]
      exact congrArg (s.skeleton ++ ·) (Skeleton.append_empty _).symm
  | some file =>
      rw [hnext] at hfile
      rw [run_fileScoped (s := s.extend c _ _) hs first hfile,
        hafter, s.tokens_extend hc, State.extend_extend,
        run_done (s := (s.extend d _ _).intoFile _) hend hframes]
      rfl

end Parser

theorem Skeleton.ofTokens_outline {u : SourceUnit} {ts : List Token}
    (h : ts.map Token.kind = u.kinds) : Skeleton.ofTokens ts = u.outline (spanIn ts) := by
  have hread : (⟨[], ts⟩ : Cursor).Reads u.kinds ⟨ts.reverse, []⟩ :=
    ⟨ts, h, by simp, by simp⟩
  have hrun := Parser.run_sourceUnit (s := { cursor := ⟨[], ts⟩ }) rfl rfl rfl hread rfl
  exact hrun.trans (Skeleton.empty_append _)

/-- The reader gives back what a text spells, and finds nothing at fault with it. -/
theorem Skeleton.ofText_outline {u : SourceUnit} {text : String}
    (h : Token.Spells u.kinds text.toList) :
    Skeleton.ofText text = u.outline (spanIn (tokens text)) ∧
      (Skeleton.ofText text).errors = [] := by
  have houtline : Skeleton.ofText text = u.outline (spanIn (tokens text)) :=
    ofTokens_outline (tokens_kinds h)
  rw [houtline]
  exact ⟨rfl, u.outline_errors _⟩

/-- A directive, and a type with the entry point in a namespace. -/
theorem Skeleton.ofText_outline_block :
    let text := "using A ; namespace B { partial class D : global : : E { static void Main ( ) { } } } "
    ∃ u : SourceUnit, Token.Spells u.kinds text.toList ∧
      Skeleton.ofText text = u.outline (spanIn (tokens text)) ∧
      (Skeleton.ofText text).errors = [] := by
  let word (w : String) (plain : isPlain w = true) (free : w ∉ reserved) : DottedName :=
    ⟨⟨w, plain, free⟩, []⟩
  let u : SourceUnit :=
    { members := .directive ⟨false, false, word "A" (by decide) (by decide)⟩
        (.block (word "B" (by decide) (by decide))
          (.typeWith ⟨["partial"], ["class"], ⟨"D", by decide, by decide⟩,
            [⟨true, word "E" (by decide) (by decide)⟩], by decide, by decide⟩ (.main .done) .done)
          .done) }
  have spells : Token.Spells u.kinds
      "using A ; namespace B { partial class D : global : : E { static void Main ( ) { } } } ".toList
      := by
    have htext : Token.render u.kinds =
        "using A ; namespace B { partial class D : global : : E { static void Main ( ) { } } } ".toList
        := by
      decide
    exact htext ▸ u.spells_render
  exact ⟨u, spells, Skeleton.ofText_outline (u := u) spells⟩

end GeneratorBench
