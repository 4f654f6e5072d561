import GeneratorBench.Proofs.Syntax.Advance
import GeneratorBench.Proofs.Syntax.Grammar

/-!
What the cursor reads where well-formed text stands. `Reads c ks d` says that tokens of the kinds
`ks` lie between `c` and `d`; each reader then ends in `d` with what the tree says.
-/

namespace GeneratorBench

open Grammar

/-- What lies between two places of a text, counted in tokens. -/
def spanIn (ts : List Token) (i j : Nat) : Span :=
  ⟨(ts.getD i default).start, (ts.getD (j - 1) default).stop⟩

namespace Token

variable {t : Token}

theorem isMark_of_mark {m : Char} (h : t.kind = .mark m) (m' : Char) :
    t.isMark m' = (m == m') := by
  rw [isMark, h, Bool.eq_iff_iff, beq_iff_eq, beq_iff_eq, Kind.mark.injEq]

theorem isMark_of_word {w : String} (h : t.kind = .word w) (m : Char) : t.isMark m = false := by
  rw [isMark, h]
  rfl

theorem word?_of_word {w : String} (h : t.kind = .word w) : t.word? = some w := by
  rw [word?, h]

theorem word?_of_mark {m : Char} (h : t.kind = .mark m) : t.word? = none := by
  rw [word?, h]

theorem isWord_of_word {w : String} (h : t.kind = .word w) (w' : String) :
    t.isWord w' = (w == w') := by
  rw [isWord, word?_of_word h, Bool.eq_iff_iff, beq_iff_eq, beq_iff_eq, Option.some.injEq]

theorem isWord_of_mark {m : Char} (h : t.kind = .mark m) (w : String) : t.isWord w = false := by
  rw [isWord, word?_of_mark h]
  rfl

theorem kind_of_word? {w : String} (h : t.word? = some w) : t.kind = .word w := by
  rw [word?] at h
  split at h
  · rename_i hkind
    rw [hkind, Option.some.inj h]
  · cases h

theorem kind_of_isMark {m : Char} (h : t.isMark m = true) : t.kind = .mark m := by
  rwa [isMark, beq_iff_eq] at h

theorem isMark_of_literal (h : t.kind = .literal) (m : Char) : t.isMark m = false := by
  rw [isMark, h]
  rfl

theorem word?_of_literal (h : t.kind = .literal) : t.word? = none := by
  rw [word?, h]

theorem isWord_of_literal (h : t.kind = .literal) (w : String) : t.isWord w = false := by
  rw [isWord, word?_of_literal h]
  rfl

end Token

/-- A name starts with a word, and not with one that the reader would take for itself. -/
theorem Grammar.QualifiedName.exists_kinds_eq (q : QualifiedName) :
    ∃ w ks, q.kinds = .word w :: ks ∧ w ≠ "static" := by
  obtain ⟨isGlobal, n⟩ := q
  cases isGlobal with
  | true => exact ⟨"global", _, rfl, by decide⟩
  | false =>
      refine ⟨n.first.text, _, rfl, ?_⟩
      rintro hw
      exact n.first.free (hw ▸ by decide)

namespace Cursor

def tokens (c : Cursor) : List Token := c.before.reverse ++ c.rest

def index (c : Cursor) : Nat := c.before.length

def Reads (c : Cursor) (ks : List Token.Kind) (d : Cursor) : Prop :=
  ∃ us : List Token, us.map Token.kind = ks ∧ c.rest = us ++ d.rest ∧
    d.before = us.reverse ++ c.before

theorem reads_nil {c d : Cursor} : c.Reads [] d ↔ d = c := by
  constructor
  · rintro ⟨us, hk, hr, hb⟩
    rw [List.map_eq_nil_iff] at hk
    subst hk
    cases c; cases d
    simp_all
  · rintro rfl
    exact ⟨[], rfl, rfl, rfl⟩

theorem reads_cons {c d : Cursor} {k : Token.Kind} {ks : List Token.Kind} :
    c.Reads (k :: ks) d ↔
      ∃ t rest, c.rest = t :: rest ∧ t.kind = k ∧ Reads ⟨t :: c.before, rest⟩ ks d := by
  constructor
  · rintro ⟨us, hk, hr, hb⟩
    obtain ⟨t, us, rfl, hkind, hkinds⟩ := List.map_eq_cons_iff.1 hk
    exact ⟨t, us ++ d.rest, hr, hkind, us, hkinds, rfl, by simp [hb]⟩
  · rintro ⟨t, rest, hr, hkind, us, hkinds, hrest, hb⟩
    refine ⟨t :: us, by rw [List.map_cons, hkind, hkinds], ?_, by simp [hb]⟩
    rw [hr, List.cons_append, ← hrest]

theorem reads_append {c d : Cursor} {ks ls : List Token.Kind} :
    c.Reads (ks ++ ls) d ↔ ∃ m, c.Reads ks m ∧ m.Reads ls d := by
  constructor
  · rintro ⟨us, hk, hr, hb⟩
    obtain ⟨vs, ws, rfl, hvs, hws⟩ := List.map_eq_append_iff.1 hk
    exact ⟨⟨vs.reverse ++ c.before, ws ++ d.rest⟩, ⟨vs, hvs, by simp [hr], rfl⟩,
      ⟨ws, hws, rfl, by simp [hb]⟩⟩
  · rintro ⟨m, ⟨vs, hvs, hr, hb⟩, ⟨ws, hws, hr', hb'⟩⟩
    exact ⟨vs ++ ws, by rw [List.map_append, hvs, hws], by simp [hr, hr'], by simp [hb, hb']⟩

theorem Reads.tokens_eq {c d : Cursor} {ks : List Token.Kind} (h : c.Reads ks d) :
    d.tokens = c.tokens := by
  obtain ⟨us, -, hr, hb⟩ := h
  simp [tokens, hr, hb]

theorem Reads.index_eq {c d : Cursor} {ks : List Token.Kind} (h : c.Reads ks d) :
    d.index = c.index + ks.length := by
  obtain ⟨us, hk, -, hb⟩ := h
  simp [index, hb, ← hk]
  omega

theorem next_eq {c : Cursor} {t : Token} {rest : List Token} (h : c.rest = t :: rest) :
    c.next = ⟨t :: c.before, rest⟩ := by
  simp [next, h]

theorem next_rest {c : Cursor} {t : Token} {rest : List Token} (h : c.rest = t :: rest) : c.next.rest = rest :=
  congrArg Cursor.rest (next_eq h)

theorem atMark_eq {c : Cursor} {t : Token} {rest : List Token} (h : c.rest = t :: rest) (m : Char) :
    c.atMark m = t.isMark m := by
  simp [atMark, h]

theorem atWord_eq {c : Cursor} {t : Token} {rest : List Token} (h : c.rest = t :: rest)
    (w : String) : c.atWord w = t.isWord w := by
  simp [atWord, h]

theorem Reads.atMark {c d : Cursor} {m : Char} {ks : List Token.Kind}
    (h : c.Reads (.mark m :: ks) d) (m' : Char) : c.atMark m' = (m == m') := by
  obtain ⟨t, rest, hr, hk, -⟩ := reads_cons.1 h
  rw [atMark_eq hr, Token.isMark_of_mark hk]

theorem Reads.atWord {c d : Cursor} {w : String} {ks : List Token.Kind}
    (h : c.Reads (.word w :: ks) d) (w' : String) : c.atWord w' = (w == w') := by
  obtain ⟨t, rest, hr, hk, -⟩ := reads_cons.1 h
  rw [atWord_eq hr, Token.isWord_of_word hk]

theorem Reads.atWord_mark {c d : Cursor} {m : Char} {ks : List Token.Kind}
    (h : c.Reads (.mark m :: ks) d) (w : String) : c.atWord w = false := by
  obtain ⟨t, rest, hr, hk, -⟩ := reads_cons.1 h
  rw [atWord_eq hr, Token.isWord_of_mark hk]

theorem Reads.next {c d : Cursor} {k : Token.Kind} {ks : List Token.Kind}
    (h : c.Reads (k :: ks) d) : c.next.Reads ks d := by
  obtain ⟨t, rest, hr, -, hread⟩ := reads_cons.1 h
  rwa [next_eq hr]

theorem Reads.next_tokens {c d : Cursor} {k : Token.Kind} {ks : List Token.Kind}
    (h : c.Reads (k :: ks) d) : c.next.tokens = c.tokens := by
  rw [← h.tokens_eq, h.next.tokens_eq]

theorem Reads.next_index {c d : Cursor} {k : Token.Kind} {ks : List Token.Kind}
    (h : c.Reads (k :: ks) d) : c.next.index = c.index + 1 := by
  obtain ⟨t, rest, hr, -, -⟩ := reads_cons.1 h
  simp [next_eq hr, index]

theorem Reads.next_eq {c d : Cursor} {k : Token.Kind} (h : c.Reads [k] d) : c.next = d :=
  (reads_nil.1 h.next).symm

theorem getD_index {c : Cursor} {t : Token} {rest : List Token} (h : c.rest = t :: rest) :
    c.tokens.getD c.index default = t := by
  simp [tokens, index, h, List.getD_eq_getElem?_getD]

theorem getD_index_pred {c : Cursor} {t : Token} {before : List Token} (h : c.before = t :: before) :
    c.tokens.getD (c.index - 1) default = t := by
  simp [tokens, index, h, List.getD_eq_getElem?_getD]

/-- The span of what was read starts with its first token and ends where the next one is looked
for. -/
theorem Reads.spanIn_eq {c d : Cursor} {k : Token.Kind} {ks : List Token.Kind} {t : Token}
    {rest : List Token} (h : c.Reads (k :: ks) d) (hr : c.rest = t :: rest) :
    spanIn c.tokens c.index (c.index + (k :: ks).length) = ⟨t.start, d.here.start⟩ := by
  obtain ⟨last, before, hb⟩ : ∃ last before, d.before = last :: before := by
    obtain ⟨us, hk, -, hb⟩ := h
    obtain ⟨u, us, rfl, -, -⟩ := List.map_eq_cons_iff.1 hk
    cases hd : d.before with
    | nil => simp [hd] at hb
    | cons last before => exact ⟨last, before, rfl⟩
  rw [spanIn, getD_index hr, ← h.index_eq, ← h.tokens_eq, getD_index_pred hb, here, hb]
  rfl

theorem skipGroup_of_not_atMark {c : Cursor} {opening : Char} (h : c.atMark opening = false)
    (closing : Char) : c.skipGroup opening closing = c := by
  simp [skipGroup, h]

def EndsName (c : Cursor) : Prop :=
  c.atMark '<' = false ∧ c.atMark '.' = false ∧ c.atMark ':' = false

theorem Reads.endsName {c d : Cursor} {m : Char} {ks : List Token.Kind}
    (h : c.Reads (.mark m :: ks) d) (hm : m ≠ '<' ∧ m ≠ '.' ∧ m ≠ ':') : c.EndsName := by
  simpa only [EndsName, h.atMark, beq_eq_false_iff_ne] using hm

theorem moreSegments_of_endsName {c : Cursor} (h : c.EndsName) : c.moreSegments = ([], c) := by
  have angle := skipGroup_of_not_atMark h.1 '>'
  rw [moreSegments_of_end, angle]
  intro dot segment rest w hr hdot
  rw [angle] at hr
  rw [← atMark_eq hr, h.2.1] at hdot
  cases hdot

theorem moreSegments_dot {c : Cursor} {dot segment : Token} {rest : List Token} {w : String}
    (hr : c.rest = dot :: segment :: rest) (hdot : dot.kind = .mark '.')
    (hword : segment.kind = .word w) :
    c.moreSegments =
      (w :: (moreSegments ⟨segment :: dot :: c.before, rest⟩).1,
        (moreSegments ⟨segment :: dot :: c.before, rest⟩).2) := by
  have hangle : c.atMark '<' = false := by
    rw [atMark_eq hr, Token.isMark_of_mark hdot]
    rfl
  have angle := skipGroup_of_not_atMark hangle '>'
  rw [← angle] at hr
  rw [moreSegments_of_dot hr (Token.isMark_of_mark hdot '.') (Token.word?_of_word hword), angle]

theorem moreSegments_reads {ws : List String} {c d : Cursor}
    (h : c.Reads (ws.flatMap fun w => [.mark '.', .word w]) d) (hd : d.EndsName) :
    c.moreSegments = (ws, d) := by
  induction ws generalizing c with
  | nil =>
      obtain rfl := reads_nil.1 h
      exact moreSegments_of_endsName hd
  | cons w ws ih =>
      rw [List.flatMap_cons] at h
      obtain ⟨dot, rest, hr, hdot, h⟩ := reads_cons.1 h
      obtain ⟨segment, rest, rfl, hsegment, h⟩ := reads_cons.1 h
      rw [moreSegments_dot hr hdot hsegment, ih h]

theorem globalQualifier_reads {c d : Cursor} {ks : List Token.Kind}
    (h : c.Reads (globalMark ++ ks) d) :
    ∃ first rest m, c.rest = first :: rest ∧ c.globalQualifier = (some first, m) ∧ m.Reads ks d := by
  obtain ⟨first, rest, hr, hfirst, h⟩ := reads_cons.1 h
  obtain ⟨colon, rest, rfl, hcolon, h⟩ := reads_cons.1 h
  obtain ⟨colon', rest, rfl, hcolon', h⟩ := reads_cons.1 h
  refine ⟨first, _, _, hr, ?_, h⟩
  rw [globalQualifier, hr]
  simp [Token.isWord_of_word hfirst, Token.isMark_of_mark hcolon, Token.isMark_of_mark hcolon']

theorem globalQualifier_dotted {first : String} {more : List String} {c d : Cursor}
    (h : c.Reads (dotted first more) d) (hd : d.EndsName) : c.globalQualifier = (none, c) := by
  obtain ⟨word, rest, hr, -, h⟩ := reads_cons.1 h
  have colon : (⟨word :: c.before, rest⟩ : Cursor).atMark ':' = false := by
    cases more with
    | nil =>
        obtain rfl := reads_nil.1 h
        exact hd.2.2
    | cons w ws => exact h.atMark ':'
  rw [globalQualifier]
  split
  · rename_i word' colon' colon'' rest' hr'
    rw [hr, List.cons.injEq] at hr'
    obtain ⟨rfl, rfl⟩ := hr'
    rw [atMark_eq rfl] at colon
    simp [colon]
  · rfl

theorem foldl_dots (w : String) (ws : List String) :
    ws.foldl (· ++ "." ++ ·) w = ".".intercalate (w :: ws) := by
  induction ws generalizing w with
  | nil => rfl
  | cons v ws ih => exact ih _

theorem name_of_globalQualifier {first : String} {more : List String} {c m d : Cursor}
    {qualifier : Option Token} (hq : c.globalQualifier = (qualifier, m))
    (h : m.Reads (dotted first more) d) (hd : d.EndsName) :
    ∃ word rest, m.rest = word :: rest ∧ c.name =
      (some ⟨".".intercalate (first :: more), ⟨(qualifier.getD word).start, d.here.start⟩,
        qualifier.isSome⟩, d) := by
  obtain ⟨word, rest, hr, hword, hmore⟩ := reads_cons.1 h
  refine ⟨word, rest, hr, ?_⟩
  simp only [name, hq, hr, Token.word?_of_word hword, moreSegments_reads hmore hd, foldl_dots]

theorem name_dotted {first : String} {more : List String} {c d : Cursor}
    (h : c.Reads (dotted first more) d) (hd : d.EndsName) :
    c.name = (some ⟨".".intercalate (first :: more),
      spanIn c.tokens c.index (c.index + (dotted first more).length), false⟩, d) := by
  obtain ⟨word, rest, hr, hname⟩ :=
    name_of_globalQualifier (globalQualifier_dotted h hd) h hd
  rw [hname, dotted, Reads.spanIn_eq h hr]
  rfl

theorem name_reads {q : QualifiedName} {c d : Cursor} (h : c.Reads q.kinds d) (hd : d.EndsName) :
    c.name = (some (q.ref (spanIn c.tokens) c.index), d) := by
  obtain ⟨isGlobal, n⟩ := q
  cases isGlobal with
  | false => exact name_dotted h hd
  | true =>
      obtain ⟨first, rest, m, hr, hq, hm⟩ := globalQualifier_reads h
      obtain ⟨word, _, _, hname⟩ := name_of_globalQualifier hq hm hd
      have hspan : spanIn c.tokens c.index (c.index + (QualifiedName.mk true n).kinds.length) =
          ⟨first.start, d.here.start⟩ := Reads.spanIn_eq (show c.Reads (_ :: _) d from h) hr
      rw [hname, QualifiedName.ref, hspan]
      rfl

theorem baseNames_reads {q : QualifiedName} {qs : List QualifiedName} {c d : Cursor}
    (h : c.Reads (q.kinds ++ listKinds ',' qs) d) (hd : d.EndsName)
    (comma : d.atMark ',' = false) :
    c.baseNames = (q.ref (spanIn c.tokens) c.index
      :: listRefs (spanIn c.tokens) qs (c.index + q.kinds.length), true, d) := by
  induction qs generalizing q c with
  | nil =>
      rw [listKinds, List.append_nil] at h
      rw [baseNames_of_name (name_reads h hd), comma]
      rfl
  | cons r qs ih =>
      obtain ⟨m, hm, hrest⟩ := reads_append.1 h
      have hname := name_reads hm (hrest.endsName (by decide))
      have hmark : m.atMark ',' = true := hrest.atMark ','
      have hlist := ih hrest.next
      have hnext : m.next.index = c.index + q.kinds.length + 1 := by
        rw [hrest.next_index, hm.index_eq]
      rw [hrest.next_tokens, hm.tokens_eq, hnext] at hlist
      rw [baseNames_of_name hname, hmark, if_pos rfl, hlist, listRefs]

end Cursor

end GeneratorBench
