import GeneratorBench.Compilation.Basic
import GeneratorBench.Proofs.Source.Positions
import GeneratorBench.Proofs.Syntax.Progress
import Mathlib.Data.List.Forall2

/-!
The order of declarations. Each is named by a token of its own, behind a type keyword, and they are listed as these
tokens come in the text. None that the reader meets is left out.
-/

namespace GeneratorBench

/-- The name of the declaration is the token at `i`, a word behind a type keyword. Of `record class` and
`record struct` that is the second word. -/
structure TypeDecl.NamedAt (ts : List Token) (decl : TypeDecl) (i : Nat) : Prop where
  behind : ∃ j keyword, i = j + 1 ∧ ts[j]? = some keyword ∧ Cursor.isTypeKeyword keyword = true
  token : ∃ name, ts[i]? = some name ∧ name.word? = some decl.name.name ∧ decl.name.span = name.span

namespace Cursor

variable {ts : List Token} {c : Cursor} {t : Token} {before rest : List Token}

inductive Declares (c : Cursor) : Nat → Prop
  | single {keyword name : Token} {rest : List Token} (hr : c.rest = keyword :: name :: rest)
      (hkeyword : isTypeKeyword keyword = true) (hname : name.word?.isSome = true)
      (hsingle : (keyword.isWord "record" && (name.isWord "class" || name.isWord "struct")) = false) :
      Declares c (c.index + 1)
  | double {keyword second name : Token} {rest : List Token} (hr : c.rest = keyword :: second :: name :: rest)
      (hdouble : (keyword.isWord "record" && (second.isWord "class" || second.isWord "struct")) = true)
      (hname : name.word?.isSome = true) : Declares c (c.index + 2)

theorem Within.getElem?_rest (h : c.Within ts) (hr : c.rest = t :: rest) : ts[c.index]? = some t := by
  rw [← h, hr, index]
  simp

theorem Within.getElem?_before (h : c.Within ts) (hb : c.before = t :: before) : ts[before.length]? = some t := by
  rw [← h, hb]
  simp

theorem isTypeKeyword_of_isWord {w : String} (h : t.isWord w = true) (hw : w ∈ typeKeywords) :
    isTypeKeyword t = true := by
  rw [Token.isWord, beq_iff_eq] at h
  rw [isTypeKeyword, h]
  exact List.contains_iff_mem.2 hw

theorem isTypeKeyword_of_isWord_class_or {t : Token} (h : (t.isWord "class" || t.isWord "struct") = true) :
    isTypeKeyword t = true := by
  rw [Bool.or_eq_true] at h
  obtain hclass | hstruct := h
  · exact isTypeKeyword_of_isWord hclass (by decide)
  · exact isTypeKeyword_of_isWord hstruct (by decide)

theorem Declares.exists_keyword {i : Nat} (h : c.Declares i) : ∃ keyword second rest,
    c.rest = keyword :: second :: rest ∧ isTypeKeyword keyword = true ∧ second.word?.isSome = true := by
  cases h with
  | single hr hkeyword hname => exact ⟨_, _, _, hr, hkeyword, hname⟩
  | @double keyword second _ _ hr hdouble =>
      rw [Bool.and_eq_true] at hdouble
      obtain ⟨w, hkind, -⟩ := Parser.exists_word_of_any (isTypeKeyword_of_isWord_class_or hdouble.2)
      refine ⟨_, _, _, hr, isTypeKeyword_of_isWord hdouble.1 (by decide), ?_⟩
      rw [Token.word?, hkind]
      rfl

theorem typeStart?_of_passModifiers {keyword : Token} (hr : c.passModifiers.rest = keyword :: rest)
    (hkeyword : isTypeKeyword keyword = true) :
    ∃ isPartial, c.typeStart? = some ⟨isPartial, keyword, ⟨keyword :: c.passModifiers.before, rest⟩⟩ := by
  refine ⟨(c.rest.takeWhile isModifier).any (·.isWord "partial"), ?_⟩
  have hdrop : c.rest.dropWhile isModifier = keyword :: rest := hr
  simp only [typeStart?, hdrop, hkeyword, if_true]
  rfl

theorem exists_word_of_passModifiers {keyword : Token} (hr : c.passModifiers.rest = keyword :: rest)
    (hkeyword : isTypeKeyword keyword = true) :
    ∃ t more w, c.rest = t :: more ∧ t.kind = .word w ∧ (w ∈ modifiers ∨ w ∈ typeKeywords) := by
  have hdrop : c.rest.dropWhile isModifier = keyword :: rest := hr
  cases hc : c.rest with
  | nil =>
      rw [hc] at hdrop
      cases hdrop
  | cons t more =>
      rw [hc, List.dropWhile_cons] at hdrop
      split at hdrop
      · rename_i hmodifier
        obtain ⟨w, hkind, hw⟩ := Parser.exists_word_of_any hmodifier
        exact ⟨t, more, w, rfl, hkind, .inl hw⟩
      · cases hdrop
        obtain ⟨w, hkind, hw⟩ := Parser.exists_word_of_any hkeyword
        exact ⟨keyword, rest, w, rfl, hkind, .inr hw⟩

theorem typeStart?_stop {start : TypeStart} (h : c.typeStart? = some start) :
    isTypeKeyword start.keyword = true ∧ ∃ before, start.stop.before = start.keyword :: before := by
  rw [typeStart?] at h
  split at h
  · cases h
  · split at h
    · rename_i hkeyword
      cases h
      exact ⟨hkeyword, _, rfl⟩
    · cases h

end Cursor

namespace Parser

variable {ts : List Token} {s : State}

/-- One declaration is added to `types`, which is named by the token at `i`. -/
def Records (ts : List Token) (types : List TypeDecl) (i : Nat) (t : State) : Prop :=
  ∃ decl, t.skeleton.types = types ++ [decl] ∧ decl.NamedAt ts i

/-- From `c` on, `t` is read, and at most one declaration is added to `types`, which is named on the way. -/
def Lists (ts : List Token) (types : List TypeDecl) (c : Cursor) (t : State) : Prop :=
  t.skeleton.types = types ∨ ∃ i, Records ts types i t ∧ c.index ≤ i ∧ i < t.cursor.index

theorem Lists.mono {types : List TypeDecl} {c d : Cursor} {t : State} (hle : c.index ≤ d.index)
    (h : Lists ts types d t) : Lists ts types c t := by
  obtain h | ⟨i, hrecords, hi, hlt⟩ := h
  · exact .inl h
  · exact .inr ⟨i, hrecords, Nat.le_trans hle hi, hlt⟩

theorem typeTail_types (container : Option String) (isPartial : Bool) (name : NameRef) (s : State) :
    ∃ decl, decl.name = name ∧
      (typeTail container isPartial name s).skeleton.types = s.skeleton.types ++ [decl] := by
  rw [typeTail]
  dsimp only
  generalize (s.cursor.skipGroup '<' '>').skipGroup '(' ')' = c
  have hbases := baseList_passes (s.moveTo c)
  generalize baseList (s.moveTo c) = bases at hbases ⊢
  have hread := ((Passes.moveTo s c).trans hbases).trans (skipConstraints_passes _)
  refine ⟨_, ?_, (typeBody_passes _ _).types.trans (congrArg (· ++ [_]) hread.types)⟩
  rfl

theorem typeHead_of_word (container : Option String) (isPartial : Bool) {t : Token} {rest : List Token}
    (hr : s.cursor.rest = t :: rest) {word : String} (hword : t.word? = some word) :
    typeHead container isPartial s =
      typeTail container isPartial ⟨word, t.span, false⟩ (s.moveTo ⟨t :: s.cursor.before, rest⟩) := by
  simp only [typeHead, hr, hword]

theorem typeHead_records (container : Option String) (isPartial : Bool) (hw : s.cursor.Within ts) {keyword : Token}
    {before : List Token} (hb : s.cursor.before = keyword :: before) (hkeyword : Cursor.isTypeKeyword keyword = true)
    {t : Token} {rest : List Token} (hr : s.cursor.rest = t :: rest) (hword : t.word?.isSome = true) :
    Records ts s.skeleton.types s.cursor.index (typeHead container isPartial s) := by
  obtain ⟨word, hword⟩ := Option.isSome_iff_exists.1 hword
  rw [typeHead_of_word container isPartial hr hword]
  obtain ⟨decl, hname, htypes⟩ :=
    typeTail_types container isPartial ⟨word, t.span, false⟩ (s.moveTo ⟨t :: s.cursor.before, rest⟩)
  refine ⟨decl, htypes, ⟨before.length, keyword, congrArg List.length hb, hw.getElem?_before hb, hkeyword⟩, ?_⟩
  rw [hname]
  exact ⟨t, hw.getElem?_rest hr, hword, rfl⟩

theorem typeHead_lists (container : Option String) (isPartial : Bool) (hw : s.cursor.Within ts) {keyword : Token}
    {before : List Token} (hb : s.cursor.before = keyword :: before)
    (hkeyword : Cursor.isTypeKeyword keyword = true) :
    Lists ts s.skeleton.types s.cursor (typeHead container isPartial s) := by
  cases hr : s.cursor.rest with
  | nil =>
      left
      rw [typeHead, hr]
      rfl
  | cons t rest =>
      cases hword : t.word? with
      | none =>
          left
          rw [typeHead, hr]
          simp only [hword]
          rfl
      | some word =>
          refine .inr ⟨_, typeHead_records container isPartial hw hb hkeyword hr (hword ▸ rfl), Nat.le_refl _, ?_⟩
          rw [typeHead_of_word container isPartial hr hword]
          exact (typeTail_reaches container isPartial ⟨word, t.span, false⟩
            (s.moveTo ⟨t :: s.cursor.before, rest⟩)).index_le

theorem typeFrom_lists (container : Option String) {start : Cursor.TypeStart} (hw : start.stop.Within ts)
    {before : List Token} (hb : start.stop.before = start.keyword :: before)
    (hkeyword : Cursor.isTypeKeyword start.keyword = true) (s : State) :
    Lists ts s.skeleton.types start.stop (typeFrom container start s) := by
  unfold typeFrom
  dsimp only
  split
  · rename_i hsecond
    obtain ⟨t, rest, hr⟩ : ∃ t rest, start.stop.rest = t :: rest := by
      refine List.exists_cons_of_ne_nil fun hnil => ?_
      simp [Cursor.atWord, hnil] at hsecond
    rw [Bool.and_eq_true, Cursor.atWord_eq hr, Cursor.atWord_eq hr] at hsecond
    have hnext : start.stop.next.before = t :: start.stop.before := congrArg Cursor.before (Cursor.next_eq hr)
    have hreaches := Cursor.next_reaches (Cursor.rest_ne_nil_of_eq hr)
    exact (typeHead_lists (s := s.moveTo start.stop.next) container _ (hw.reaches hreaches) hnext
      (Cursor.isTypeKeyword_of_isWord_class_or hsecond.2)).mono hreaches.index_le
  · exact typeHead_lists (s := s.moveTo start.stop) container _ hw hb hkeyword

theorem typeFrom_records (container : Option String) (isPartial : Bool) {c : Cursor} (hw : c.Within ts) {i : Nat}
    (hdeclares : c.Declares i) {keyword : Token} {rest : List Token} (hr : c.rest = keyword :: rest) (s : State) :
    Records ts s.skeleton.types i (typeFrom container ⟨isPartial, keyword, ⟨keyword :: c.before, rest⟩⟩ s) := by
  have hreaches : c.Reaches ⟨keyword :: c.before, rest⟩ := .cons hr (.refl _)
  rw [typeFrom]
  cases hdeclares with
  | single hr' hkeyword hname hsingle =>
      cases hr.symm.trans hr'
      rw [if_neg (by simpa [Cursor.atWord] using hsingle)]
      exact typeHead_records (s := s.moveTo _) container _ (hw.reaches hreaches) rfl hkeyword rfl hname
  | double hr' hdouble hname =>
      cases hr.symm.trans hr'
      rw [if_pos (by simpa [Cursor.atWord] using hdouble)]
      rw [Bool.and_eq_true] at hdouble
      have hnext : Cursor.Within ts (Cursor.next _) := (hw.reaches hreaches).reaches (Cursor.next_reaches (Cursor.rest_ne_nil_of_eq rfl))
      exact typeHead_records (s := s.moveTo _) container _ hnext rfl
        (Cursor.isTypeKeyword_of_isWord_class_or hdouble.2) rfl hname

/-- Going back over modifiers does not matter, for the keyword that is read next comes behind them. -/
theorem Move.lists {t : State} (hm : Move s t) (hw : s.cursor.Within ts) :
    Lists ts s.skeleton.types s.cursor t := by
  cases hm with
  | done | giveUpBlock | giveUpBody | closeBlock | stray | semicolon | attributes | inBody | closeBody =>
      exact .inl rfl
  | directive => exact .inl (usingDirective_holds s _).types
  | scope => exact .inl (namespaceHead_types _)
  | type hstart =>
      have hreaches := Cursor.typeStart?_reaches hstart
      obtain ⟨hkeyword, before, hb⟩ := Cursor.typeStart?_stop hstart
      exact (typeFrom_lists none (hw.reaches hreaches) hb hkeyword s).mono hreaches.index_le
  | @nested keyword rest _ _ _ _ hr _ hkeyword =>
      have hreaches : s.cursor.Reaches ⟨keyword :: s.cursor.before, rest⟩ := .cons hr (.refl _)
      refine Lists.mono hreaches.index_le ?_
      apply typeFrom_lists
      · exact hw.reaches hreaches
      · rfl
      · exact hkeyword

/-- Where the reader looks for the keyword of a declaration: behind the modifiers of a member, and in a body at
each token that is in no further braces. -/
inductive State.Meets (s : State) : Cursor → Prop
  | member (hs : s.AtMembers) : s.Meets s.cursor.passModifiers
  | nested {type : String} {sawStatic : Bool} {outer : List Frame} (hf : s.frames = .body type 1 sawStatic :: outer) :
      s.Meets s.cursor

theorem step_of_meets (hw : s.cursor.Within ts) {c : Cursor} (hmeets : s.Meets c) {i : Nat}
    (hdeclares : c.Declares i) : Records ts s.skeleton.types i (step s) := by
  obtain ⟨keyword, second, rest, hr, hkeyword, hword⟩ := hdeclares.exists_keyword
  cases hmeets with
  | member hs =>
      obtain ⟨isPartial, hstart⟩ := Cursor.typeStart?_of_passModifiers hr hkeyword
      obtain ⟨t, more, w, hrest, hkind, hmem⟩ := Cursor.exists_word_of_passModifiers hr hkeyword
      rw [step_of_atMembers hs hrest, memberStep_word hkind hmem hstart]
      exact typeFrom_records none isPartial (hw.reaches s.cursor.passModifiers_reaches) hdeclares hr s
  | nested hf =>
      obtain ⟨w, hkind, hmem⟩ := exists_word_of_any hkeyword
      rw [step_of_body hf hr, bodyStep_typeKeyword hkind hmem hr hword]
      exact typeFrom_records _ _ hw hdeclares hr _

theorem mem_run_types (n : Nat) {decl : TypeDecl} (h : decl ∈ (step^[n] s).skeleton.types) :
    decl ∈ (run s).skeleton.types := by
  rw [← run_iterate_eq n, ← map_nestings]
  exact List.mem_append_left _ h

/-- The declarations so far are named by the tokens at these places, which are behind. -/
structure State.Listed (ts : List Token) (s : State) (is : List Nat) : Prop where
  within : s.cursor.Within ts
  named : List.Forall₂ (TypeDecl.NamedAt ts) s.skeleton.types is
  increasing : is.Pairwise (· < ·)
  behind : ∀ i ∈ is, i < s.cursor.index

theorem step_listed (h : ∃ is, s.Listed ts is) : ∃ is, (step s).Listed ts is := by
  obtain ⟨is, h⟩ := h
  have hreaches := step_reaches s
  have hbehind : ∀ i ∈ is, i < (step s).cursor.index :=
    fun i hi => Nat.lt_of_lt_of_le (h.behind i hi) hreaches.index_le
  obtain htypes | ⟨i, ⟨decl, htypes, hnamed⟩, hi, hlt⟩ := (step_move s).lists h.within
  · exact ⟨is, h.within.reaches hreaches, htypes ▸ h.named, h.increasing, hbehind⟩
  · refine ⟨is ++ [i], h.within.reaches hreaches, ?_, ?_, ?_⟩
    · rw [htypes]
      exact List.rel_append h.named (.cons hnamed .nil)
    · refine List.pairwise_append.2 ⟨h.increasing, List.pairwise_singleton _ _, fun j hj k hk => ?_⟩
      rw [List.mem_singleton.1 hk]
      exact Nat.lt_of_lt_of_le (h.behind j hj) hi
    · exact List.forall_mem_append.2 ⟨hbehind, List.forall_mem_singleton.2 hlt⟩

end Parser

namespace Skeleton

theorem exists_namedAt (ts : List Token) :
    ∃ is : List Nat, is.Pairwise (· < ·) ∧ List.Forall₂ (TypeDecl.NamedAt ts) (ofTokens ts).types is := by
  have hstart : Parser.State.Listed ts { cursor := ⟨[], ts⟩ } [] :=
    ⟨rfl, .nil, .nil, List.forall_mem_nil _⟩
  obtain ⟨is, h⟩ :=
    Parser.run_preserves (P := fun s => ∃ is, s.Listed ts is) (fun _ => Parser.step_listed) ⟨[], hstart⟩
  exact ⟨is, h.increasing, h.named⟩

theorem start_lt {text : String} {a b : TypeDecl} {i j : Nat} (hij : i < j) (ha : a.NamedAt (tokens text) i)
    (hb : b.NamedAt (tokens text) j) : a.name.span.start < b.name.span.start := by
  obtain ⟨t, ht, -, hspan⟩ := ha.token
  obtain ⟨u, hu, -, hspan'⟩ := hb.token
  obtain ⟨hi, rfl⟩ := List.getElem?_eq_some_iff.1 ht
  obtain ⟨hj, rfl⟩ := List.getElem?_eq_some_iff.1 hu
  rw [hspan, hspan']
  exact List.pairwise_iff_getElem.1 (Token.tokensFrom_pairwise_lt .origin text.toList) i j hi hj hij

theorem pairwise_start_lt {text : String} {decls : List TypeDecl} {is : List Nat} (his : is.Pairwise (· < ·))
    (h : List.Forall₂ (TypeDecl.NamedAt (tokens text)) decls is) :
    decls.Pairwise fun a b => a.name.span.start < b.name.span.start := by
  rw [List.forall₂_iff_get] at h
  obtain ⟨hlength, hnamed⟩ := h
  rw [List.pairwise_iff_getElem] at his ⊢
  intro k l hk hl hkl
  exact start_lt (his k l (hlength ▸ hk) (hlength ▸ hl) hkl) (hnamed k hk _) (hnamed l hl _)

/-- The places determine each other: a declaration is named at one only. -/
theorem namedAt_unique {text : String} {decl : TypeDecl} {i j : Nat} (hi : decl.NamedAt (tokens text) i)
    (hj : decl.NamedAt (tokens text) j) : i = j := by
  obtain hlt | heq | hlt := Nat.lt_trichotomy i j
  · exact absurd (start_lt hlt hi hj) (Position.lt_irrefl _)
  · exact heq
  · exact absurd (start_lt hlt hj hi) (Position.lt_irrefl _)

theorem mem_of_declares {text : String} {is : List Nat}
    (hnamed : List.Forall₂ (TypeDecl.NamedAt (tokens text)) (ofText text).types is) {n : Nat} {c : Cursor}
    (hmeets : (Parser.step^[n] { cursor := ⟨[], tokens text⟩ }).Meets c) {i : Nat} (hdeclares : c.Declares i) :
    i ∈ is := by
  let start : Parser.State := { cursor := ⟨[], tokens text⟩ }
  have hw : (Parser.step^[n] start).cursor.Within (tokens text) := (Parser.iterate_reaches n start).tokens_eq
  obtain ⟨decl, htypes, hdecl⟩ := Parser.step_of_meets hw hmeets hdeclares
  have hmem : decl ∈ (Parser.step^[n + 1] start).skeleton.types := by
    rw [Function.iterate_succ_apply', htypes]
    exact List.mem_append_right _ (List.mem_singleton_self _)
  obtain ⟨k, hk, rfl⟩ := List.getElem_of_mem (Parser.mem_run_types _ hmem)
  obtain ⟨hlength, hat⟩ := List.forall₂_iff_get.1 hnamed
  have hk' : k < is.length := hlength ▸ hk
  rw [namedAt_unique hdecl (hat k hk hk')]
  exact List.get_mem is ⟨k, hk'⟩

end Skeleton

namespace Compilation

/-- Declarations come in the order of the text, well formed or not: each is named by a token behind a type keyword,
no two by the same one, and a compilation lists them tree by tree. Each that the reader meets is among them. -/
theorem declarations_inOrder :
    (∀ text, let decls := (Skeleton.ofText text).types
      (decls.map (·.name.span.start)).Pairwise (· < ·) ∧ (decls.map (·.name.span)).Nodup ∧
      ∃ is : List Nat, is.Pairwise (· < ·) ∧ List.Forall₂ (TypeDecl.NamedAt (tokens text)) decls is ∧
        ∀ n c i, (Parser.step^[n] { cursor := ⟨[], tokens text⟩ }).Meets c → c.Declares i → i ∈ is) ∧
    ∀ c : Compilation, c.declaredTypes =
      c.trees.flatMap fun t => t.skeleton.types.map fun decl => ⟨decl.scope, decl.name.name, t.path⟩ := by
  constructor
  · intro text decls
    obtain ⟨is, his, hnamed⟩ := Skeleton.exists_namedAt (tokens text)
    have hstarts := Skeleton.pairwise_start_lt his hnamed
    refine ⟨List.pairwise_map.2 hstarts, List.pairwise_map.2 (hstarts.imp fun hlt heq => ?_), is, his, hnamed,
      fun _ _ _ hmeets => Skeleton.mem_of_declares hnamed hmeets⟩
    rw [heq] at hlt
    exact Position.lt_irrefl _ hlt
  · intro c
    rw [declaredTypes, parsed_eq, List.flatMap_map]

/-- In the body of `A` the reader meets `record class`, behind a modifier. -/
theorem declarations_inOrder_nested :
    let text := "class A \x7b public record class B; \x7d"
    ∃ is : List Nat, is.Pairwise (· < ·) ∧
      List.Forall₂ (TypeDecl.NamedAt (tokens text)) (Skeleton.ofText text).types is ∧ 6 ∈ is := by
  intro text
  let s := Parser.step^[2] { cursor := ⟨[], tokens text⟩ }
  have hrest : s.cursor.rest = [⟨.word "record", ⟨0, 17⟩, 6⟩, ⟨.word "class", ⟨0, 24⟩, 5⟩, ⟨.word "B", ⟨0, 30⟩, 1⟩,
      ⟨.mark ';', ⟨0, 31⟩, 1⟩, ⟨.mark '\x7d', ⟨0, 33⟩, 1⟩] := by
    decide +kernel
  have hframes : s.frames = [.body "A" 1 false] := by decide +kernel
  have hindex : s.cursor.index + 2 = 6 := by decide +kernel
  obtain ⟨-, -, is, his, hnamed, hmeets⟩ := declarations_inOrder.1 text
  refine ⟨is, his, hnamed, ?_⟩
  rw [← hindex]
  exact hmeets 2 s.cursor _ (.nested hframes) (.double hrest (by decide) rfl)

end Compilation

end GeneratorBench
