import GeneratorBench.Proofs.Compilation.Namespaces
import GeneratorBench.Proofs.Source.Partition
import GeneratorBench.Proofs.Syntax.Writing

/-!
The words that names are made of. A segment of a name is empty exactly where an `@` without a word behind it is read for
it. A namespace, and one around it, is found unless its name starts with such a segment and goes on behind it.
-/

namespace GeneratorBench

/-- Of two beginnings of a text that end at one position, neither goes on behind the other. -/
theorem Position.eq_of_advance_eq {pre pre' post post' : List Char} (htext : pre ++ post = pre' ++ post')
    (h : origin.advance pre = origin.advance pre') : pre = pre' := by
  have hends {front more : List Char} (h : origin.advance front = origin.advance (front ++ more)) : more = [] := by
    cases more with
    | nil => rfl
    | cons c more =>
        have hlt := lt_advance_cons (origin.advance front) c more
        rw [← advance_append, ← h] at hlt
        exact absurd hlt (lt_irrefl _)
  obtain ⟨more, rfl, -⟩ | ⟨more, rfl, -⟩ := List.append_eq_append_iff.1 htext
  · rw [hends h, List.append_nil]
  · rw [hends h.symm, List.append_nil]

namespace Token

variable {text : String} {t : Token}

theorem Cut.exists_readOf {before cs : List Char} {ts : List Token} (h : Cut before ts cs) (ht : t ∈ ts) :
    ∃ pre lexeme post, before ++ cs = pre ++ (lexeme ++ post) ∧ t.ReadOf pre lexeme post := by
  induction h with
  | last isGap => cases ht
  | @token before gap lexeme after u ts isGap read more ih =>
      obtain rfl | ht := List.mem_cons.1 ht
      · exact ⟨before ++ gap, lexeme, after, by rw [List.append_assoc], read⟩
      · obtain ⟨pre, lexeme', post, htext, hread⟩ := ih ht
        exact ⟨pre, lexeme', post, by rw [← htext]; simp, hread⟩

theorem Written.word_empty_iff {after lexeme : List Char} {k : Kind} (h : Written after k lexeme) :
    k = .word "" ↔ lexeme = ['@'] := by
  cases h with
  | @word c body starts =>
      by_cases hc : c = '@'
      · rw [if_pos hc, hc, Kind.word.injEq, String.ofList_eq_empty_iff, List.cons.injEq]
        exact (and_iff_right rfl).symm
      · rw [if_neg hc, Kind.word.injEq, String.ofList_eq_empty_iff, List.cons.injEq]
        simp [hc]
  | @quoted quote body starts =>
      have hne : quote ≠ '@' := by
        rintro rfl
        exact absurd starts (by decide)
      simp [hne]
  | @number c body starts =>
      have hne : c ≠ '@' := by
        rintro rfl
        exact absurd starts (by decide)
      simp [hne]
  | @mark c other =>
      have hne : c ≠ '@' := by
        rintro rfl
        exact absurd other.1 (by decide)
      simp [hne]

/-- The word of a token is empty exactly if the token is an `@` and nothing more. -/
theorem kind_eq_word_empty_iff (ht : t ∈ tokens text) : t.kind = .word "" ↔ t.Covers text.toList ['@'] := by
  have hcut : Cut [] (tokens text) text.toList := cut_tokensFrom .origin text.toList [] rfl
  obtain ⟨pre, lexeme, post, htext, hread⟩ := hcut.exists_readOf ht
  rw [List.nil_append] at htext
  rw [hread.written.word_empty_iff]
  constructor
  · rintro rfl
    exact ⟨pre, post, htext, hread.start_eq, hread.length⟩
  · rintro ⟨pre', post', htext', hstart, hlength⟩
    rw [hread.start_eq] at hstart
    rw [htext'] at htext
    obtain rfl := Position.eq_of_advance_eq htext hstart.symm
    have hsame := List.append_cancel_left htext
    exact (List.append_inj_left hsame (hlength.symm.trans hread.length)).symm

end Token

/-- The first segment of the name is empty, and another one follows. -/
def StartsWithDot (name : String) : Prop := name.toList.head? = some '.'

theorem startsWithDot_append {name : String} (hne : name ≠ "") (tail : String) :
    StartsWithDot (name ++ tail) ↔ StartsWithDot name := by
  obtain ⟨c, cs, hcs⟩ := List.exists_cons_of_ne_nil fun hnil => hne (String.toList_eq_nil_iff.1 hnil)
  rw [StartsWithDot, StartsWithDot, String.toList_append, hcs]
  rfl

theorem not_startsWithDot_of_plain {name : String} (h : '.' ∉ name.toList) : ¬ StartsWithDot name :=
  fun hdot => h (List.mem_of_mem_head? hdot)

theorem startsWithDot_iff {name : String} : StartsWithDot name ↔ ∃ tail, name = "" ++ "." ++ tail := by
  constructor
  · intro h
    obtain ⟨cs, hcs⟩ := List.head?_eq_some_iff.1 h
    exact ⟨.ofList cs, by rw [← String.toList_inj, hcs]; simp⟩
  · rintro ⟨tail, rfl⟩
    rw [StartsWithDot]
    simp

theorem not_startsWithDot_of_segments {name : String} (h : Segments IsName name) : ¬ StartsWithDot name := by
  intro hdot
  obtain ⟨tail, rfl⟩ := startsWithDot_iff.1 hdot
  rw [Segments, Text.splitAt_append] at h
  exact (h "" (List.mem_append_left _ (List.mem_singleton_self _))).1 rfl

theorem Text.not_mem_of_mem_splitAt {sep : Char} {text field : String} (h : field ∈ Text.splitAt sep text) :
    sep ∉ field.toList := by
  obtain ⟨l, hl, rfl⟩ := List.mem_map.1 h
  rw [String.toList_ofList]
  exact not_mem_of_mem_fields sep text.toList l hl

theorem not_startsWithDot_of_mem_foldl {segments : List String} (hplain : ∀ s ∈ segments, '.' ∉ s.toList)
    {declared : String × List String} (houter : ¬ StartsWithDot declared.1)
    (hfound : ∀ name ∈ declared.2, ¬ StartsWithDot name) :
    ∀ name ∈ (segments.foldl declareNext declared).2, ¬ StartsWithDot name := by
  induction segments generalizing declared with
  | nil => exact hfound
  | cons s segments ih =>
      obtain ⟨hs, hplain⟩ := List.forall_mem_cons.1 hplain
      have hnext : ¬ StartsWithDot (declareNext declared s).1 := by
        rw [declareNext]
        dsimp only
        split
        · exact not_startsWithDot_of_plain hs
        · rename_i hne
          rwa [String.append_assoc, startsWithDot_append hne]
      exact ih hplain hnext (List.forall_mem_append.2 ⟨hfound, List.forall_mem_singleton.2 hnext⟩)

theorem mem_foldl_of_mem {name : String} {segments : List String} {declared : String × List String}
    (h : name ∈ declared.2) : name ∈ (segments.foldl declareNext declared).2 := by
  induction segments generalizing declared with
  | nil => exact h
  | cons s segments ih => exact ih (List.mem_append_left _ h)

theorem not_startsWithDot_of_mem_declaredWith {name outer : String} (h : outer ∈ declaredWith name) :
    ¬ StartsWithDot outer := by
  rw [declaredWith_eq] at h
  exact not_startsWithDot_of_mem_foldl (fun s hs => Text.not_mem_of_mem_splitAt hs)
    (not_startsWithDot_of_plain List.not_mem_nil) (List.forall_mem_nil _) outer h

theorem mem_declaredWith_of_around {name outer : String} (h : Around (some name) (some outer))
    (hdot : ¬ StartsWithDot outer) : outer ∈ declaredWith name := by
  by_cases hhead : (Text.splitAt '.' name).head? = some ""
  · -- of the namespaces around one that starts with an empty segment, only the outermost does not start with a dot
    obtain ⟨p, hp, hne, rfl⟩ := around_iff_segments.1 h
    obtain ⟨segments, hsegments⟩ := List.head?_eq_some_iff.1 hhead
    rw [declaredWith_eq, hsegments]
    rw [hsegments] at hp
    cases p with
    | nil => exact absurd rfl hne
    | cons first p =>
        obtain ⟨rfl, -⟩ := List.cons_prefix_cons.1 hp
        cases p with
        | nil =>
            rw [List.foldl_cons]
            exact mem_foldl_of_mem (List.mem_singleton_self "")
        | cons second p =>
            have hjoin : ".".intercalate ("" :: second :: p) = "" ++ "." ++ ".".intercalate (second :: p) :=
              String.intercalate_append_of_ne_nil (List.cons_ne_nil "" []) (List.cons_ne_nil second p)
            exact absurd (startsWithDot_iff.2 ⟨_, hjoin⟩) hdot
  · exact (mem_declaredWith_iff hhead).2 h

/-- The name is written in the text with words, each of letters, digits and underscores. None of these is empty unless
it is that of a lone `@`. -/
def NameRef.SpelledIn (text : String) (name : NameRef) : Prop :=
  ∃ us, name.WrittenIn (tokens text) us ∧
    Segments (fun w => ∀ c ∈ w.toList, Text.isWordChar c = true) name.name ∧
    (Segments IsName name.name ↔ ∀ t ∈ outside 0 us, ¬ t.Covers text.toList ['@'])

theorem mem_of_mem_outside {depth : Nat} {us : List Token} {t : Token} (h : t ∈ outside depth us) : t ∈ us := by
  fun_induction outside depth us with
  | case1 => cases h
  | case2 _ _ _ _ ih | case4 _ _ _ _ _ _ ih | case5 _ _ _ _ _ _ ih => exact List.mem_cons_of_mem _ (ih h)
  | case3 t ts _ ih =>
      obtain rfl | h := List.mem_cons.1 h
      · exact List.mem_cons_self
      · exact List.mem_cons_of_mem _ (ih h)

theorem word_mem_dotted_iff {word first : String} {more : List String} :
    .word word ∈ Grammar.dotted first more ↔ word ∈ first :: more := by
  rw [Grammar.dotted, List.mem_cons, List.mem_cons, Token.Kind.word.injEq]
  simp

/-- The words of the tokens that spell a name are its segments, but for the word in `global::`. -/
theorem NameRef.WrittenIn.exists_word_empty_iff {ts us : List Token} {name : NameRef} (h : name.WrittenIn ts us) :
    (∃ t ∈ outside 0 us, t.kind = .word "") ↔ "" ∈ Text.splitAt '.' name.name := by
  have hkinds : (∃ t ∈ outside 0 us, t.kind = .word "") ↔ .word "" ∈ (outside 0 us).map (·.kind) := List.mem_map.symm
  obtain ⟨first, more, hsplit⟩ := List.exists_cons_of_ne_nil (Text.splitAt_ne_nil '.' name.name)
  rw [hkinds, h.kinds, hsplit, intersperse_words]
  have hmark : .word "" ∉ if name.isGlobal then Grammar.globalMark else [] := by
    split
    · decide
    · exact List.not_mem_nil
  rw [List.mem_append, or_iff_right hmark, word_mem_dotted_iff]

theorem NameRef.WrittenIn.spelledIn {text : String} {us : List Token} {name : NameRef}
    (h : name.WrittenIn (tokens text) us)
    (hchars : Segments (fun w => ∀ c ∈ w.toList, Text.isWordChar c = true) name.name) : name.SpelledIn text := by
  refine ⟨us, h, hchars, ?_⟩
  have hempty : "" ∈ Text.splitAt '.' name.name ↔ ∃ t ∈ outside 0 us, t.Covers text.toList ['@'] := by
    rw [← h.exists_word_empty_iff]
    refine exists_congr fun t => and_congr_right fun ht => ?_
    exact Token.kind_eq_word_empty_iff (h.run.subset (mem_of_mem_outside ht))
  constructor
  · intro hnames t ht hcovers
    exact (hnames "" (hempty.2 ⟨t, ht, hcovers⟩)).1 rfl
  · intro hnone w hw
    refine ⟨?_, hchars w hw⟩
    rintro rfl
    obtain ⟨t, ht, hcovers⟩ := hempty.1 hw
    exact hnone t ht hcovers

theorem Skeleton.spelledIn_ofText (text : String) : (ofText text).NamesHold (·.SpelledIn text)
    fun n => n.SpelledIn text ∧ '.' ∉ n.name.toList := by
  have hwords := wordsAre_wordChars text
  refine namesHold_ofTokens ⟨fun hw hn => ?_, fun ht hword => ?_⟩
  · obtain ⟨us, hus⟩ := Cursor.name_writtenIn hwords hw hn
    exact hus.spelledIn (Cursor.segments_of_name hwords hw hn)
  · have hchars := hwords.words _ ht _ hword
    have hplain := hwords.plain _ hchars
    refine ⟨(Token.writtenIn ht hword hplain).spelledIn ?_, hplain⟩
    rw [Segments, Text.splitAt_of_not_mem hplain]
    exact List.forall_mem_singleton.2 hchars

namespace Compilation

variable {c : Compilation} {s : Skeleton} {name outer : String}

theorem namespaceExists_iff_of_around (hs : s ∈ c.skeletons) (hname : name ∈ s.namespaces)
    (h : Around (some name) (some outer)) : c.symbols.namespaceExists outer = true ↔
      ¬ StartsWithDot outer ∨ c.references.any (·.exportsNamespace outer) = true := by
  have hsource : outer ∈ c.symbols.namespaces ↔ ¬ StartsWithDot outer := by
    constructor
    · intro hmem
      obtain ⟨t, -, hmem⟩ := List.mem_flatMap.1 hmem
      obtain ⟨inner, -, hmem⟩ := List.mem_flatMap.1 hmem
      exact not_startsWithDot_of_mem_declaredWith hmem
    · intro hdot
      exact List.mem_flatMap.2 ⟨s, hs, List.mem_flatMap.2 ⟨name, hname, mem_declaredWith_of_around h hdot⟩⟩
  rw [Symbols.namespaceExists, Bool.or_eq_true, List.contains_iff_mem, hsource]
  rfl

/-- Names are made of the words of the text, and a segment is empty exactly where it is read from an `@` without a word
behind it. A namespace that is declared, and each one around it, is found exactly if its name does not start with a dot
or a reference exports it. So without such an `@` no segment is empty and all of these namespaces are found. -/
theorem names_spelled (text : String) (c : Compilation) :
    ((∀ n ∈ (Skeleton.ofText text).names, n.SpelledIn text) ∧
      (∀ decl ∈ (Skeleton.ofText text).types, '.' ∉ decl.name.name.toList) ∧
      ∀ name ∈ (Skeleton.ofText text).namespaces, ∃ ns : List NameRef, ns ≠ [] ∧ (∀ n ∈ ns, n.SpelledIn text) ∧
        Text.splitAt '.' name = ns.flatMap fun n => Text.splitAt '.' n.name) ∧
    (∀ s ∈ c.skeletons, ∀ name ∈ s.namespaces, ∀ outer, Around (some name) (some outer) →
      (c.symbols.namespaceExists outer = true ↔
        ¬ StartsWithDot outer ∨ c.references.any (·.exportsNamespace outer) = true)) ∧
    (c.Worded → ∀ s ∈ c.skeletons, s.Named IsName ∧
      ∀ name ∈ s.namespaces, ∀ outer, Around (some name) (some outer) → c.symbols.namespaceExists outer = true) := by
  refine ⟨?_, fun s hs name hname outer h => namespaceExists_iff_of_around hs hname h,
    fun hwords s hs => ⟨hwords.named hs, fun name hname outer h => ?_⟩⟩
  · have h := Skeleton.spelledIn_ofText text
    exact ⟨h.forall_mem_names fun _ hn => hn.1, fun decl hdecl => (h.types decl hdecl).2,
      fun name hname => (h.namespaces name hname).exists_parts⟩
  · have hsegments : Segments IsName outer := fun w hw =>
      (hwords.named hs).namespaces name hname w (( around_iff_prefix.1 h).subset hw)
    exact (namespaceExists_iff_of_around hs hname h).2 (.inl (not_startsWithDot_of_segments hsegments))

/-- A directive whose name is empty, read without an error; a namespace that is declared and yet not found; and one that
is found with the one around it. -/
theorem names_spelled_lone :
    let text := "using @;"
    let c := ofTrees "T" [⟨none, "namespace @.A \x7b\x7d"⟩] [] {}
    let d := ofTrees "T" [⟨none, "namespace A.B \x7b\x7d"⟩] [] {}
    (∃ n ∈ (Skeleton.ofText text).names, n.name = "" ∧ n.SpelledIn text ∧ ¬ Segments IsName n.name) ∧
      (Skeleton.ofText text).errors = [] ∧
      (∃ s ∈ c.skeletons, ".A" ∈ s.namespaces ∧ c.symbols.namespaceExists ".A" = false) ∧
      d.Worded ∧ ∃ s ∈ d.skeletons, "A.B" ∈ s.namespaces ∧ d.symbols.namespaceExists "A" = true := by
  intro text c d
  obtain ⟨hspelled, hfound, -⟩ := names_spelled text c
  obtain ⟨-, -, hworded⟩ := names_spelled text d
  have hread : Skeleton.ofText text = _ := Parser.ofText_iterate 2 (by decide +kernel)
  have hlone : Skeleton.ofText "namespace @.A \x7b\x7d" = _ := Parser.ofText_iterate 2 (by decide +kernel)
  have hplain : Skeleton.ofText "namespace A.B \x7b\x7d" = _ := Parser.ofText_iterate 2 (by decide +kernel)
  have hempty : ⟨"", ⟨⟨0, 6⟩, ⟨0, 7⟩⟩, false⟩ ∈ (Skeleton.ofText text).names := by
    rw [hread]
    decide +kernel
  have hc : ".A" ∈ (Skeleton.ofText "namespace @.A \x7b\x7d").namespaces := by
    rw [hlone]
    decide +kernel
  have hd : "A.B" ∈ (Skeleton.ofText "namespace A.B \x7b\x7d").namespaces := by
    rw [hplain]
    decide +kernel
  have hwords : d.Worded := List.forall_mem_singleton.2 (by decide +kernel)
  have hdot : StartsWithDot ".A" := rfl
  have haround : Around (some "A.B") (some "A") := ⟨_, rfl, .inr ⟨"B", rfl⟩⟩
  refine ⟨⟨_, hempty, rfl, hspelled.1 _ hempty, fun h => (h "" (by decide)).1 rfl⟩, ?_,
    ⟨_, List.mem_singleton_self _, hc, ?_⟩, hwords, _, List.mem_singleton_self _, hd, ?_⟩
  · rw [hread]
    decide +kernel
  · rw [← Bool.not_eq_true, hfound _ (List.mem_singleton_self _) ".A" hc ".A" (around_self _)]
    rintro (h | h)
    · exact h hdot
    · cases h
  · exact (hworded hwords _ (List.mem_singleton_self _)).2 "A.B" hd "A" haround

end Compilation

end GeneratorBench
