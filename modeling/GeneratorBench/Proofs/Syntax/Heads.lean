import GeneratorBench.Proofs.Syntax.Reading

/-!
What the reader records of the heads of well-formed members: directives, namespaces and types.
-/

namespace GeneratorBench

open Grammar

namespace Parser

namespace State

def extend (s : State) (d : Cursor) (visible : List Nat) (sk : Skeleton) : State :=
  { s with cursor := d, visible, skeleton := s.skeleton ++ sk }

theorem extend_empty (s : State) : s.extend s.cursor s.visible {} = s := by
  rw [extend, Skeleton.append_empty]

theorem extend_visible (s : State) (d : Cursor) (v : List Nat) (sk : Skeleton) :
    (s.extend d v sk).visible = v := rfl

theorem extend_extend (s : State) (c d : Cursor) (v w : List Nat) (a b : Skeleton) :
    (s.extend c v a).extend d w b = s.extend d w (a ++ b) := by
  simp only [extend, Skeleton.append_assoc]

theorem moveTo_addType (s : State) (d : Cursor) (decl : TypeDecl) :
    (s.moveTo d).addType decl = s.extend d s.visible { types := [decl] } := by
  simp [moveTo, addType, extend, Skeleton.append_def]

theorem moveTo_addUsing (s : State) (d : Cursor) (ref : NameRef) :
    (s.moveTo d).addUsing ref =
      s.extend d (s.visible ++ [s.skeleton.usings.length]) { usings := [⟨ref, s.scopes.head?⟩] } := by
  simp [moveTo, addUsing, extend, Skeleton.append_def]

theorem moveTo_enter (s : State) (d : Cursor) (full : String) :
    (s.moveTo d).enter full =
      { s.extend d s.visible { namespaces := [full] } with scopes := full :: s.scopes } := by
  simp [moveTo, enter, addNamespace, extend, Skeleton.append_def]

def surroundings (s : State) : Surroundings where
  scope := s.scopes.head?
  visible := s.visible
  usings := s.skeleton.usings.length
  tokens := s.cursor.index

theorem surroundings_extend (s : State) {ks : List Token.Kind} {d : Cursor}
    (h : s.cursor.Reads ks d) (v : List Nat) (sk : Skeleton) :
    (s.extend d v sk).surroundings =
      { s.surroundings with
        visible := v
        usings := s.surroundings.usings + sk.usings.length
        tokens := s.surroundings.tokens + ks.length } := by
  simp [surroundings, extend, Skeleton.append_def, h.index_eq]

theorem surroundings_skip (s : State) {ks : List Token.Kind} {d : Cursor}
    (h : s.cursor.Reads ks d) {sk : Skeleton} (none : sk.usings = []) :
    (s.extend d s.visible sk).surroundings = s.surroundings.skip ks.length := by
  rw [s.surroundings_extend h, none]
  rfl

theorem tokens_extend (s : State) {ks : List Token.Kind} {d : Cursor}
    (h : s.cursor.Reads ks d) (v : List Nat) (sk : Skeleton) :
    (s.extend d v sk).cursor.tokens = s.cursor.tokens :=
  h.tokens_eq

end State

theorem usingDirective_of_name {s : State} {ref : NameRef} {m c : Cursor}
    (hname : (if s.cursor.atWord "static" then s.cursor.next else s.cursor).name = (some ref, m))
    (h : m.Reads [.mark ';'] c) : usingDirective s = (s.moveTo c).addUsing ref := by
  have equals : m.atMark '=' = false := h.atMark '='
  have semicolon : m.atMark ';' = true := h.atMark ';'
  simp only [usingDirective, hname, equals, semicolon, h.next_eq, Bool.false_eq_true, if_false,
    if_true]

theorem usingDirective_reads {d : Directive} {s : State} {c : Cursor}
    (h : s.cursor.Reads d.kinds c) :
    usingDirective (s.moveTo s.cursor.next) =
      s.extend c (s.surroundings.withDirective d).visible
        (d.outline (spanIn s.cursor.tokens) s.surroundings) := by
  obtain ⟨isStatic, q⟩ := d
  obtain ⟨n, hn, hq⟩ := Cursor.reads_append.1 h.next
  obtain ⟨m, hm, hend⟩ := Cursor.reads_append.1 hq
  have hstart :
      (if s.cursor.next.atWord "static" then s.cursor.next.next else s.cursor.next) = n := by
    cases isStatic with
    | true => rw [hn.atWord, hn.next_eq]; rfl
    | false =>
        obtain rfl := Cursor.reads_nil.1 hn
        obtain ⟨w, ks, hk, free⟩ := q.exists_kinds_eq
        rw [hk] at hm
        rw [hm.atWord, beq_eq_false_iff_ne.2 free]
        rfl
  have hname := Cursor.name_reads hm (hend.endsName (by decide))
  rw [← hstart] at hname
  rw [usingDirective_of_name (s := s.moveTo s.cursor.next) hname hend]
  have htokens : n.tokens = s.cursor.tokens := by
    rw [hn.tokens_eq, h.next_tokens]
  have hindex : n.index = s.cursor.index + 1 + if isStatic then 1 else 0 := by
    rw [hn.index_eq, h.next_index]
    cases isStatic <;> rfl
  rw [hstart, htokens, hindex]
  exact s.moveTo_addUsing c _

/-- What the reader makes of a namespace head behind whose name `mark` stands. -/
theorem namespaceHead_of_name {s : State} {ref : NameRef} {m c : Cursor} {mark : Char}
    (hname : s.cursor.name = (some ref, m)) (h : m.Reads [.mark mark] c) :
    namespaceHead s =
      if mark = ';' then
        if s.fileScoped then (s.moveTo c).report .secondFileNamespace ref.span
        else { (s.moveTo c).enter (s.qualify ref.name) with fileScoped := true }
      else if mark = '\x7b' then
        { (s.moveTo c).enter (s.qualify ref.name) with
          frames := .block s.visible.length :: s.frames }
      else ((s.moveTo m).addNamespace (s.qualify ref.name)).report .openingBraceExpected m.here := by
  simp only [namespaceHead, hname, h.atMark, h.next_eq, beq_iff_eq]
  rfl

theorem qualify_eq_full (s : State) (n : DottedName) : s.qualify n.text = s.surroundings.full n := by
  cases h : s.scopes <;> simp [State.qualify, State.surroundings, Surroundings.full, h]

theorem namespaceHead_reads {n : DottedName} {mark : Char} {s : State} {c : Cursor}
    (h : s.cursor.Reads (namespaceKinds n mark) c) (hmark : mark = ';' ∨ mark = '\x7b') :
    ∃ m span, s.cursor.next.name = (some ⟨n.text, span, false⟩, m) ∧ m.Reads [.mark mark] c := by
  obtain ⟨m, hm, hend⟩ := Cursor.reads_append.1 h.next
  have hends : m.EndsName := hend.endsName (by obtain rfl | rfl := hmark <;> decide)
  exact ⟨m, _, Cursor.name_dotted hm hends, hend⟩

theorem namespaceHead_block {n : DottedName} {s : State} {c : Cursor}
    (h : s.cursor.Reads (namespaceKinds n '\x7b') c) :
    namespaceHead (s.moveTo s.cursor.next) =
      { s.extend c s.visible { namespaces := [s.surroundings.full n] } with
        scopes := s.surroundings.full n :: s.scopes
        frames := .block s.visible.length :: s.frames } := by
  obtain ⟨m, span, hname, hend⟩ := namespaceHead_reads h (.inr rfl)
  rw [namespaceHead_of_name (s := s.moveTo s.cursor.next) hname hend, if_neg (by decide),
    if_pos rfl, ← qualify_eq_full]
  exact congrArg (fun t : State => { t with frames := .block s.visible.length :: s.frames })
    (s.moveTo_enter c (s.qualify n.text))

theorem namespaceHead_fileScoped {n : DottedName} {s : State} {c : Cursor}
    (h : s.cursor.Reads (namespaceKinds n ';') c) (first : s.fileScoped = false) :
    namespaceHead (s.moveTo s.cursor.next) =
      { s.extend c s.visible { namespaces := [s.surroundings.full n] } with
        scopes := s.surroundings.full n :: s.scopes
        fileScoped := true } := by
  obtain ⟨m, span, hname, hend⟩ := namespaceHead_reads h (.inl rfl)
  have hfirst : (s.moveTo s.cursor.next).fileScoped = false := first
  rw [namespaceHead_of_name (s := s.moveTo s.cursor.next) hname hend, if_pos rfl, hfirst,
    ← qualify_eq_full]
  exact congrArg (fun t : State => { t with fileScoped := true })
    (s.moveTo_enter c (s.qualify n.text))

theorem isModifier_of_word {t : Token} {w : String} (h : t.kind = .word w) :
    Cursor.isModifier t = Cursor.modifiers.contains w := by
  rw [Cursor.isModifier, Token.word?_of_word h]
  rfl

theorem isTypeKeyword_of_word {t : Token} {w : String} (h : t.kind = .word w) :
    Cursor.isTypeKeyword t = Cursor.typeKeywords.contains w := by
  rw [Cursor.isTypeKeyword, Token.word?_of_word h]
  rfl

theorem any_isWord {us : List Token} {ws : List String} (h : us.map Token.kind = ws.map .word)
    (w : String) : us.any (·.isWord w) = ws.contains w := by
  induction us generalizing ws with
  | nil =>
      cases ws with
      | nil => rfl
      | cons v vs => simp at h
  | cons t us ih =>
      cases ws with
      | nil => simp at h
      | cons v vs =>
          simp only [List.map_cons, List.cons.injEq] at h
          rw [List.any_cons, ih h.2, Token.isWord_of_word h.1, List.contains_cons, Bool.beq_comm]

theorem all_isModifier {mods : List String} (hmods : ∀ m ∈ mods, m ∈ Cursor.modifiers)
    {us : List Token} (hus : us.map Token.kind = mods.map .word) :
    ∀ u ∈ us, Cursor.isModifier u = true := by
  intro u hu
  have hmem : u.kind ∈ mods.map Token.Kind.word := hus ▸ List.mem_map_of_mem hu
  obtain ⟨w, hw, hword⟩ := List.mem_map.1 hmem
  rw [isModifier_of_word hword.symm, List.contains_iff_mem]
  exact hmods w hw

theorem typeStart?_reads {mods : List String} {kw : String} {c d : Cursor}
    (hmods : ∀ m ∈ mods, m ∈ Cursor.modifiers) (hkw : kw ∈ Cursor.typeKeywords)
    (h : c.Reads (mods.map .word ++ [.word kw]) d) :
    ∃ t, t.kind = .word kw ∧ c.typeStart? = some ⟨mods.contains "partial", t, d⟩ := by
  obtain ⟨m, ⟨us, hus, hr, hb⟩, hread⟩ := Cursor.reads_append.1 h
  obtain ⟨t, rest, hrest, hkind, hend⟩ := Cursor.reads_cons.1 hread
  obtain rfl := Cursor.reads_nil.1 hend
  have all := all_isModifier hmods hus
  have keyword : Cursor.isTypeKeyword t = true := by
    rw [isTypeKeyword_of_word hkind, List.contains_iff_mem]
    exact hkw
  have notModifier := Cursor.not_isModifier_of_isTypeKeyword keyword
  have htake : c.rest.takeWhile Cursor.isModifier = us := by
    rw [hr, hrest, List.takeWhile_append_of_pos all]
    simp [notModifier]
  have hdrop : c.rest.dropWhile Cursor.isModifier = t :: rest := by
    rw [hr, hrest, List.dropWhile_append_of_pos all]
    simp [notModifier]
  refine ⟨t, hkind, ?_⟩
  simp only [Cursor.typeStart?, htake, hdrop, keyword, if_true, any_isWord hus, hb]

theorem baseList_reads {qs : List QualifiedName} {s : State} {c d : Cursor} {mark : Char}
    {ks : List Token.Kind} (hs : s.cursor.Reads (listKinds ':' qs) c)
    (hc : c.Reads (.mark mark :: ks) d) (hmark : mark = ';' ∨ mark = '\x7b') :
    baseList s = (listRefs (spanIn s.cursor.tokens) qs s.cursor.index, s.moveTo c) := by
  cases qs with
  | nil =>
      obtain rfl := Cursor.reads_nil.1 hs
      have colon : s.cursor.atMark ':' = false := by
        rw [hc.atMark]
        obtain rfl | rfl := hmark <;> decide
      rw [baseList, colon]
      rfl
  | cons q qs =>
      have colon : s.cursor.atMark ':' = true := hs.atMark ':'
      have hends : c.EndsName := hc.endsName (by obtain rfl | rfl := hmark <;> decide)
      have comma : c.atMark ',' = false := by
        rw [hc.atMark]
        obtain rfl | rfl := hmark <;> decide
      rw [baseList, colon, if_pos rfl, Cursor.baseNames_reads hs.next hends comma,
        hs.next_tokens, hs.next_index]
      rfl

theorem skipGroups_reads {qs : List QualifiedName} {c m d : Cursor} {mark : Char}
    {ks : List Token.Kind} (hc : c.Reads (listKinds ':' qs) m) (hm : m.Reads (.mark mark :: ks) d)
    (hmark : mark = ';' ∨ mark = '\x7b') :
    (c.skipGroup '<' '>').skipGroup '(' ')' = c := by
  have hmarks : c.atMark '<' = false ∧ c.atMark '(' = false := by
    cases qs with
    | nil =>
        obtain rfl := Cursor.reads_nil.1 hc
        rw [hm.atMark, hm.atMark]
        obtain rfl | rfl := hmark <;> decide
    | cons q qs => exact ⟨hc.atMark '<', hc.atMark '('⟩
  rw [Cursor.skipGroup_of_not_atMark hmarks.1, Cursor.skipGroup_of_not_atMark hmarks.2]

theorem typeTail_reads {qs : List QualifiedName} {s : State} {c d : Cursor} {mark : Char}
    {ks : List Token.Kind} (hs : s.cursor.Reads (listKinds ':' qs) c)
    (hc : c.Reads (.mark mark :: ks) d) (hmark : mark = ';' ∨ mark = '\x7b')
    (container : Option String) (isPartial : Bool) (name : NameRef) :
    typeTail container isPartial name s =
      typeBody name.name ((s.moveTo c).addType
        { name, scope := s.scopes.head?, container, isPartial
          bases := listRefs (spanIn s.cursor.tokens) qs s.cursor.index
          usings := s.visible }) := by
  have constraints : skipConstraints (s.moveTo c) = s.moveTo c := by
    have none : (s.moveTo c).cursor.atWord "where" = false := hc.atWord_mark "where"
    rw [skipConstraints, none]
    rfl
  have start : s.moveTo ((s.cursor.skipGroup '<' '>').skipGroup '(' ')') = s := by
    rw [skipGroups_reads hs hc hmark]
    rfl
  rw [typeTail, start, baseList_reads hs hc hmark]
  dsimp only
  rw [constraints]
  rfl

/-- Only `record` may be followed by a second keyword. -/
theorem keyword_cases {h : TypeHead} {kw : String} {more : List String}
    (hkey : h.keyword = kw :: more) :
    kw ∈ Cursor.typeKeywords ∧
      (more = [] ∨ kw = "record" ∧ (more = ["class"] ∨ more = ["struct"])) := by
  have hmem := h.keyword_mem
  rw [hkey, keywordPhrases, List.mem_append, List.mem_map] at hmem
  obtain ⟨w, hw, heq⟩ | hmem := hmem
  · cases heq
    exact ⟨hw, .inl rfl⟩
  · simp only [List.mem_cons, List.cons.injEq, List.not_mem_nil, or_false] at hmem
    obtain ⟨rfl, rfl⟩ | ⟨rfl, rfl⟩ := hmem
    · exact ⟨by decide, .inr ⟨rfl, .inl rfl⟩⟩
    · exact ⟨by decide, .inr ⟨rfl, .inr rfl⟩⟩

/-- A head in two parts, up to behind the first word of its keyword and from there on. -/
theorem reads_head {h : TypeHead} {c d : Cursor} {ks : List Token.Kind}
    (hc : c.Reads (h.kinds ++ ks) d) :
    ∃ kw more m n, h.keyword = kw :: more ∧ c.Reads (h.modifiers.map .word ++ [.word kw]) m ∧
      m.Reads (more.map .word ++ .word h.name.text :: listKinds ':' h.bases) n ∧
      n.Reads ks d := by
  obtain ⟨kw, more, hkey⟩ : ∃ kw more, h.keyword = kw :: more := by
    cases hk : h.keyword with
    | nil =>
        have hmem := h.keyword_mem
        rw [hk] at hmem
        exact absurd hmem (by decide)
    | cons kw more => exact ⟨kw, more, rfl⟩
  have hsplit : h.kinds = (h.modifiers.map .word ++ [.word kw]) ++
      (more.map .word ++ .word h.name.text :: listKinds ':' h.bases) := by
    simp [TypeHead.kinds, hkey]
  rw [hsplit] at hc
  obtain ⟨n, hn, hd⟩ := Cursor.reads_append.1 hc
  obtain ⟨m, hm, hrest⟩ := Cursor.reads_append.1 hn
  exact ⟨kw, more, m, n, hkey, hm, hrest, hd⟩

theorem skipKeyword_reads {h : TypeHead} {kw : String} {more : List String}
    (hkey : h.keyword = kw :: more) {t : Token} (ht : t.kind = .word kw) {c n d : Cursor}
    {ks : List Token.Kind} (hc : c.Reads (more.map .word) n)
    (hn : n.Reads (.word h.name.text :: ks) d) :
    (if t.isWord "record" && (c.atWord "class" || c.atWord "struct") then c.next else c) = n := by
  obtain ⟨-, rfl | ⟨rfl, hmore⟩⟩ := keyword_cases hkey
  · obtain rfl := Cursor.reads_nil.1 hc
    have free (w : String) (hw : w ∈ reserved) : (h.name.text == w) = false := by
      rw [beq_eq_false_iff_ne]
      rintro rfl
      exact h.name.free hw
    rw [hn.atWord, hn.atWord, free "class" (by decide), free "struct" (by decide)]
    simp
  · have hrecord : t.isWord "record" = true := by
      rw [Token.isWord_of_word ht]
      rfl
    obtain rfl | rfl := hmore
    · rw [hrecord, Cursor.Reads.atWord (w := "class") hc, Cursor.Reads.next_eq hc]
      rfl
    · rw [hrecord, Cursor.Reads.atWord (w := "struct") hc, Cursor.Reads.atWord (w := "struct") hc,
        Cursor.Reads.next_eq hc]
      rfl

theorem typeFrom_reads {h : TypeHead} {kw : String} {more : List String}
    (hkey : h.keyword = kw :: more) {start : Cursor.TypeStart}
    (hpartial : start.isPartial = h.modifiers.contains "partial")
    (hstart : start.keyword.kind = .word kw) {s : State} {c d : Cursor} {mark : Char}
    {ks : List Token.Kind}
    (hread : start.stop.Reads
      (more.map .word ++ .word h.name.text :: listKinds ':' h.bases) c)
    (hc : c.Reads (.mark mark :: ks) d) (hmark : mark = ';' ∨ mark = '\x7b')
    {e : Surroundings} (hscope : e.scope = s.scopes.head?) (hvisible : e.visible = s.visible)
    (htokens : start.stop.index = e.tokens + h.modifiers.length + 1) (container : Option String) :
    typeFrom container start s =
      typeBody h.name.text
        ((s.moveTo c).addType (h.decl (spanIn start.stop.tokens) container e)) := by
  obtain ⟨n, hn, hname⟩ := Cursor.reads_append.1 hread
  obtain ⟨t, rest, hrest, hkind, hbases⟩ := Cursor.reads_cons.1 hname
  have htoks : (⟨t :: n.before, rest⟩ : Cursor).tokens = start.stop.tokens := by
    rw [← hn.tokens_eq, ← hbases.tokens_eq, hname.tokens_eq]
  have hindex : n.index = e.tokens + h.modifiers.length + h.keyword.length := by
    rw [hn.index_eq, htokens, hkey, List.length_map, List.length_cons]
    omega
  have hspan : t.span = spanIn start.stop.tokens n.index (n.index + 1) := by
    have hone : n.Reads [.word h.name.text] ⟨t :: n.before, rest⟩ :=
      Cursor.reads_cons.2 ⟨t, rest, hrest, hkind, Cursor.reads_nil.2 rfl⟩
    rw [← hn.tokens_eq]
    exact (hone.spanIn_eq hrest).symm
  have hhead : typeHead container start.isPartial (s.moveTo n) =
      typeTail container start.isPartial ⟨h.name.text, t.span, false⟩
        (s.moveTo ⟨t :: n.before, rest⟩) := by
    simp only [typeHead, State.moveTo, hrest, Token.word?_of_word hkind]
  rw [typeFrom, skipKeyword_reads hkey hstart hn hname, hhead,
    typeTail_reads (s := s.moveTo ⟨t :: n.before, rest⟩) hbases hc hmark]
  have hdecl : h.decl (spanIn start.stop.tokens) container e =
      { name := ⟨h.name.text, t.span, false⟩, scope := s.scopes.head?, container
        isPartial := start.isPartial
        bases := listRefs (spanIn start.stop.tokens) h.bases (n.index + 1)
        usings := s.visible } := by
    rw [TypeHead.decl, hscope, hvisible, hpartial, hspan, hindex]
  rw [hdecl, ← htoks]
  rfl

/-- Where the head of a type ends, its body is opened or the declaration is over. -/
theorem typeBody_extend {h : TypeHead} {s : State} {c d : Cursor} {mark : Char}
    (hc : c.Reads [.mark mark] d) (hmark : mark = ';' ∨ mark = '\x7b') (decl : TypeDecl) :
    typeBody h.name.text ((s.moveTo c).addType decl) =
      { s.extend d s.visible { types := [decl] } with
        frames := if mark = ';' then s.frames else .body h.name.text 1 false :: s.frames } := by
  have hcursor : ((s.moveTo c).addType decl).cursor = c := rfl
  rw [typeBody, hcursor, hc.atMark, hc.atMark, hc.next_eq]
  obtain rfl | rfl := hmark
  · exact s.moveTo_addType d decl
  · exact congrArg (fun t : State => { t with frames := .body h.name.text 1 false :: s.frames })
      (s.moveTo_addType d decl)

end Parser

end GeneratorBench
