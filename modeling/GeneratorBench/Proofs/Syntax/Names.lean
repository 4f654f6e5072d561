import GeneratorBench.Proofs.Syntax.Recording
import GeneratorBench.Text.Fields

/-!
The names in a declaration skeleton. They are made of the words of the text, joined by dots; and a type is declared
in no namespace but those that the text declares.
-/

namespace GeneratorBench

def Segments (P : String → Prop) (name : String) : Prop := ∀ w ∈ Text.splitAt '.' name, P w

/-- The property is one of words without dots, and all words among the tokens have it. -/
structure WordsAre (P : String → Prop) (ts : List Token) : Prop where
  words : ∀ t ∈ ts, ∀ w, t.word? = some w → P w
  plain : ∀ w, P w → '.' ∉ w.toList

variable {P : String → Prop} {ts : List Token}

theorem segments_append {outer tail : String} (ho : Segments P outer) (ht : Segments P tail) :
    Segments P (outer ++ "." ++ tail) := by
  rw [Segments, Text.splitAt_append]
  exact List.forall_mem_append.2 ⟨ho, ht⟩

theorem splitAt_foldl {word : String} {words : List String} (hword : '.' ∉ word.toList)
    (hwords : ∀ w ∈ words, '.' ∉ w.toList) : Text.splitAt '.' (words.foldl (· ++ "." ++ ·) word) = word :: words := by
  have hjoin (first : String) : Text.splitAt '.' (words.foldl (· ++ "." ++ ·) first) =
      Text.splitAt '.' first ++ words := by
    induction words generalizing first with
    | nil => rw [List.foldl_nil, List.append_nil]
    | cons w words ih =>
        obtain ⟨hw, hwords⟩ := List.forall_mem_cons.1 hwords
        rw [List.foldl_cons, ih hwords, Text.splitAt_append, Text.splitAt_of_not_mem hw, List.append_assoc,
          List.singleton_append]
  rw [hjoin, Text.splitAt_of_not_mem hword, List.singleton_append]

namespace Cursor

variable {c d : Cursor}

theorem moreSegments_words (h : WordsAre P ts) (hw : c.Within ts) : ∀ w ∈ c.moreSegments.1, P w := by
  fun_induction moreSegments c with
  | case1 c past dot segment rest hr word hword hdot words stop hstop ih =>
      have hpast : past.Within ts := hw.reaches (skipGroup_reaches c '<' '>')
      have hdots : Within ts ⟨dot :: past.before, segment :: rest⟩ := hpast.reaches (.cons hr (.refl _))
      have hwords := ih (hdots.reaches (.cons rfl (.refl _)))
      rw [hstop] at hwords
      exact List.forall_mem_cons.2 ⟨h.words segment (hdots.mem rfl) word hword, hwords⟩
  | case2 | case3 => exact List.forall_mem_nil _

theorem exists_first_of_name (h : WordsAre P ts) (hw : c.Within ts) {base : NameRef} (hn : c.name = (some base, d)) :
    ∃ first rest word, c.globalQualifier.2.rest = first :: rest ∧ first.word? = some word ∧
      Text.splitAt '.' base.name = word :: (moreSegments ⟨first :: c.globalQualifier.2.before, rest⟩).1 ∧
      base.isGlobal = c.globalQualifier.1.isSome ∧
      d = (moreSegments ⟨first :: c.globalQualifier.2.before, rest⟩).2 := by
  have hstart := hw.reaches (globalQualifier_reaches c)
  rw [name] at hn
  dsimp only at hn
  split at hn
  · cases hn
  · rename_i first rest hrest
    split at hn
    · cases hn
    · rename_i word hword
      cases hn
      have hfirst := h.words first (hstart.mem hrest) word hword
      have hmore := moreSegments_words h (hstart.reaches (.cons hrest (.refl _)))
      exact ⟨first, rest, word, hrest, hword, splitAt_foldl (h.plain _ hfirst) fun w hw => h.plain w (hmore w hw), rfl,
        rfl⟩

theorem segments_of_name (h : WordsAre P ts) (hw : c.Within ts) {base : NameRef} (hn : c.name = (some base, d)) :
    Segments P base.name := by
  have hstart := hw.reaches (globalQualifier_reaches c)
  obtain ⟨first, rest, word, hrest, hword, hsplit, -⟩ := exists_first_of_name h hw hn
  rw [Segments, hsplit]
  exact List.forall_mem_cons.2
    ⟨h.words first (hstart.mem hrest) word hword, moreSegments_words h (hstart.reaches (.cons hrest (.refl _)))⟩

end Cursor

/-- All names are made of words with the property, and the namespaces around types are declared. -/
structure Skeleton.Named (P : String → Prop) (s : Skeleton) : Prop where
  usings : ∀ u ∈ s.usings, Segments P u.name.name
  types : ∀ decl ∈ s.types, P decl.name.name
  bases : ∀ decl ∈ s.types, ∀ base ∈ decl.bases, Segments P base.name
  namespaces : ∀ name ∈ s.namespaces, Segments P name
  scopes : ∀ decl ∈ s.types, ∀ name ∈ decl.scope, name ∈ s.namespaces

theorem Qualified.segments {name : String} (h : Qualified (fun n => Segments P n.name) name) : Segments P name := by
  induction h with
  | outermost h => exact h
  | inside _ h ih => exact segments_append ih h

theorem Skeleton.named_ofTokens (hwords : WordsAre P ts) : (ofTokens ts).Named P := by
  have hread : NamesAre (fun n => Segments P n.name) (fun n => P n.name) ts := {
    names := fun hw hn => Cursor.segments_of_name hwords hw hn
    words := fun ht hword => hwords.words _ ht _ hword }
  have h := namesHold_ofTokens hread
  exact {
    usings := h.usings
    types := h.types
    bases := h.bases
    namespaces := fun name hname => (h.namespaces name hname).segments
    scopes := h.scopes }

namespace Token

theorem isWordChar_of_startsWord {c : Char} (h : startsWord c = true) (hc : c ≠ '@') : Text.isWordChar c = true := by
  simp only [startsWord, Bool.or_eq_true, beq_iff_eq, hc, or_false] at h
  simp only [Text.isWordChar, Bool.or_eq_true, beq_iff_eq]
  exact h.imp_left .inl

theorem isWordChar_of_mem_word {c : Char} {rest : List Char} {w : String}
    (h : kindOf c (splitLexeme c rest).1 = .word w) : ∀ d ∈ w.toList, Text.isWordChar d = true := by
  rw [kindOf] at h
  split at h
  · rename_i hstarts
    rw [splitLexeme, if_pos hstarts] at h
    cases h
    rw [String.toList_ofList]
    have hbody : ∀ d ∈ (splitWhile Text.isWordChar rest).1, Text.isWordChar d = true :=
      List.all_eq_true.1 List.all_takeWhile
    split
    · exact hbody
    · rename_i hc
      exact List.forall_mem_cons.2 ⟨isWordChar_of_startsWord hstarts hc, hbody⟩
  · split at h
    · cases h
    · cases h

theorem isWordChar_of_mem_tokensFrom {p : Position} {cs : List Char} {t : Token} (ht : t ∈ tokensFrom p cs)
    {w : String} (hw : t.word? = some w) : ∀ c ∈ w.toList, Text.isWordChar c = true := by
  fun_induction tokensFrom p cs with
  | case1 p cs hnil => cases ht
  | case2 p cs c rest hcons start body ih =>
      obtain rfl | ht := List.mem_cons.1 ht
      · rw [word?] at hw
        split at hw
        · rename_i text hkind
          cases hw
          exact isWordChar_of_mem_word hkind
        · cases hw
      · exact ih ht

end Token

theorem dot_not_mem_of_isWordChar {w : String} (h : ∀ c ∈ w.toList, Text.isWordChar c = true) : '.' ∉ w.toList := by
  intro hdot
  have hchar := h '.' hdot
  revert hchar
  decide

theorem wordsAre_wordChars (text : String) :
    WordsAre (fun w => ∀ c ∈ w.toList, Text.isWordChar c = true) (tokens text) where
  words _ ht _ hw := Token.isWordChar_of_mem_tokensFrom ht hw
  plain _ hw := dot_not_mem_of_isWordChar hw

/-- What the words of a text are, if none of them is empty. -/
def IsName (w : String) : Prop := w ≠ "" ∧ ∀ c ∈ w.toList, Text.isWordChar c = true

theorem wordsAre_tokens {text : String} (h : ∀ t ∈ tokens text, t.kind ≠ .word "") : WordsAre IsName (tokens text) where
  words t ht w hw := by
    refine ⟨?_, Token.isWordChar_of_mem_tokensFrom ht hw⟩
    rintro rfl
    rw [Token.word?] at hw
    split at hw
    · rename_i hkind
      rw [Option.some.inj hw] at hkind
      exact h t ht hkind
    · cases hw
  plain _ hw := dot_not_mem_of_isWordChar hw.2

end GeneratorBench
