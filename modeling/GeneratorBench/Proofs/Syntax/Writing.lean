import GeneratorBench.Proofs.Syntax.Names
import GeneratorBench.Proofs.Syntax.Reading
import Mathlib.Data.List.Infix

/-!
How a name stands in the text. Its span goes around tokens of the text, and those of them that are in no angle brackets
spell it: each segment is a word, and there are dots between them.
-/

namespace GeneratorBench

open Grammar

/-- The tokens that stand in no angle brackets, if `depth` of these are open already. -/
def outside (depth : Nat) : List Token → List Token
  | [] => []
  | t :: ts =>
    if t.isMark '<' then outside (depth + 1) ts
    else if depth = 0 then t :: outside 0 ts
    else if t.isMark '>' then outside (depth - 1) ts
    else outside depth ts

/-- The tokens `us` of the text are where the name is written. What they are in brackets does not matter. -/
structure NameRef.WrittenIn (ts us : List Token) (name : NameRef) : Prop where
  run : us <:+: ts
  span : ∃ first last, us.head? = some first ∧ us.getLast? = some last ∧ name.span = ⟨first.start, last.stop⟩
  kinds : (outside 0 us).map (·.kind) = (if name.isGlobal then globalMark else []) ++
    ((Text.splitAt '.' name.name).map Token.Kind.word).intersperse (.mark '.')

variable {P : String → Prop} {ts us vs : List Token}

theorem outside_cons_of_not_mark {t : Token} (h : t.isMark '<' = false) (ts : List Token) :
    outside 0 (t :: ts) = t :: outside 0 ts := by
  rw [outside, h, if_neg Bool.false_ne_true, if_pos rfl]

theorem intersperse_words (word : String) (words : List String) :
    ((word :: words).map Token.Kind.word).intersperse (.mark '.') = dotted word words := by
  induction words generalizing word with
  | nil => rfl
  | cons w words ih =>
      rw [List.map_cons, List.map_cons, List.intersperse_cons_cons, ← List.map_cons, ih]
      rfl

namespace Cursor

variable {c d : Cursor}

namespace Between

theorem nil (c : Cursor) : c.Between [] c := ⟨rfl, rfl⟩

theorem append {e : Cursor} (h : c.Between us d) (h' : d.Between vs e) : c.Between (us ++ vs) e :=
  ⟨by rw [h.1, h'.1, List.append_assoc], by rw [h'.2, h.2, List.reverse_append, List.append_assoc]⟩

theorem cons {t : Token} {rest : List Token} (hr : c.rest = t :: rest) (h : Between ⟨t :: c.before, rest⟩ us d) :
    c.Between (t :: us) d :=
  have hfirst : c.Between [t] ⟨t :: c.before, rest⟩ := ⟨hr, rfl⟩
  hfirst.append h

end Between

/-- A group that is open is left out. If it is never closed, nothing comes behind it. -/
theorem skipBalanced_between {depth : Nat} (hdepth : depth ≠ 0) (before rest : List Token) :
    ∃ us, Between ⟨before, rest⟩ us (skipBalanced '<' '>' depth before rest) ∧
      ∀ vs, vs <+: (skipBalanced '<' '>' depth before rest).rest → outside depth (us ++ vs) = outside 0 vs := by
  fun_induction skipBalanced '<' '>' depth before rest with
  | case1 depth before =>
      refine ⟨[], .nil _, fun vs hvs => ?_⟩
      rw [List.prefix_nil.1 hvs]
      rfl
  | case2 depth before t rest hopening ih =>
      obtain ⟨us, hbetween, hout⟩ := ih (Nat.succ_ne_zero _)
      refine ⟨t :: us, .cons rfl hbetween, fun vs hvs => ?_⟩
      rw [List.cons_append, outside, if_pos hopening, hout vs hvs]
  | case3 depth before t rest hopening hclosing hlast =>
      refine ⟨[t], .cons rfl (.nil _), fun vs _ => ?_⟩
      obtain rfl : depth = 1 := by omega
      rw [List.cons_append, outside, if_neg hopening, if_neg hdepth, if_pos hclosing]
      rfl
  | case4 depth before t rest hopening hclosing hmore ih =>
      obtain ⟨us, hbetween, hout⟩ := ih (by omega)
      refine ⟨t :: us, .cons rfl hbetween, fun vs hvs => ?_⟩
      rw [List.cons_append, outside, if_neg hopening, if_neg hdepth, if_pos hclosing, hout vs hvs]
  | case5 depth before t rest hopening hclosing ih =>
      obtain ⟨us, hbetween, hout⟩ := ih hdepth
      refine ⟨t :: us, .cons rfl hbetween, fun vs hvs => ?_⟩
      rw [List.cons_append, outside, if_neg hopening, if_neg hdepth, if_neg hclosing, hout vs hvs]

theorem skipGroup_between (c : Cursor) : ∃ us, c.Between us (c.skipGroup '<' '>') ∧
    ∀ vs, vs <+: (c.skipGroup '<' '>').rest → outside 0 (us ++ vs) = outside 0 vs := by
  rw [skipGroup]
  split
  · rename_i hmark
    cases hr : c.rest with
    | nil => simp [atMark, hr] at hmark
    | cons t rest =>
        rw [atMark_eq hr] at hmark
        rw [skipBalanced, if_pos hmark]
        obtain ⟨us, hbetween, hout⟩ := skipBalanced_between (Nat.succ_ne_zero 0) (t :: c.before) rest
        refine ⟨t :: us, .cons hr hbetween, fun vs hvs => ?_⟩
        rw [List.cons_append, outside, if_pos hmark, hout vs hvs]
  · exact ⟨[], .nil c, fun vs _ => rfl⟩

theorem moreSegments_between (c : Cursor) : ∃ us, c.Between us c.moreSegments.2 ∧
    (outside 0 us).map (·.kind) = c.moreSegments.1.flatMap fun w => [.mark '.', .word w] := by
  fun_induction moreSegments c with
  | case1 c past dot segment rest hr word hword hdot words stop hstop ih =>
      obtain ⟨group, hgroup, hout⟩ := skipGroup_between c
      obtain ⟨us, hbetween, hkinds⟩ := ih
      rw [hstop] at hbetween hkinds
      have hdotKind := Token.kind_of_isMark hdot
      have hwordKind := Token.kind_of_word? hword
      have hread : past.Between (dot :: segment :: us) stop := .cons hr (.cons rfl hbetween)
      refine ⟨group ++ dot :: segment :: us, hgroup.append hread, ?_⟩
      have hprefix : dot :: segment :: us <+: past.rest := ⟨stop.rest, hread.1.symm⟩
      rw [hout _ hprefix, outside_cons_of_not_mark (Token.isMark_of_mark hdotKind '<'),
        outside_cons_of_not_mark (Token.isMark_of_word hwordKind '<'), List.map_cons, List.map_cons, hkinds, hdotKind,
        hwordKind]
      rfl
  | case2 c past | case3 c past =>
      obtain ⟨group, hgroup, hout⟩ := skipGroup_between c
      refine ⟨group, hgroup, ?_⟩
      have hnone := hout [] List.nil_prefix
      rw [List.append_nil] at hnone
      rw [hnone]
      rfl

theorem globalQualifier_between (c : Cursor) : ∃ us, c.Between us c.globalQualifier.2 ∧
    ∀ vs, (outside 0 (us ++ vs)).map (·.kind) =
      (if c.globalQualifier.1.isSome then globalMark else []) ++ (outside 0 vs).map (·.kind) := by
  rw [globalQualifier]
  split
  · rename_i qualifier colon colon' rest hr
    split
    · rename_i hqualifier
      simp only [Bool.and_eq_true, Token.isWord, beq_iff_eq] at hqualifier
      obtain ⟨⟨hglobal, hcolon⟩, hcolon'⟩ := hqualifier
      have hglobal := Token.kind_of_word? hglobal
      have hcolon := Token.kind_of_isMark hcolon
      have hcolon' := Token.kind_of_isMark hcolon'
      refine ⟨[qualifier, colon, colon'], .cons hr (.cons rfl (.cons rfl (.nil _))), fun vs => ?_⟩
      rw [List.cons_append, List.cons_append, List.cons_append, List.nil_append,
        outside_cons_of_not_mark (Token.isMark_of_word hglobal '<'),
        outside_cons_of_not_mark (Token.isMark_of_mark hcolon '<'),
        outside_cons_of_not_mark (Token.isMark_of_mark hcolon' '<'), List.map_cons, List.map_cons, List.map_cons, hglobal,
        hcolon, hcolon']
      rfl
    · exact ⟨[], .nil c, fun vs => rfl⟩
  · exact ⟨[], .nil c, fun vs => rfl⟩

theorem name_writtenIn (h : WordsAre P ts) (hw : c.Within ts) {name : NameRef} (hn : c.name = (some name, d)) :
    ∃ us, name.WrittenIn ts us := by
  obtain ⟨t, ht, hspan⟩ := name_span hn
  obtain ⟨first, rest, word, hrest, hword, hsplit, hglobal, rfl⟩ := exists_first_of_name h hw hn
  obtain ⟨front, hfront, hfrontKinds⟩ := globalQualifier_between c
  obtain ⟨more, hmore, hmoreKinds⟩ := moreSegments_between ⟨first :: c.globalQualifier.2.before, rest⟩
  have hread := hfront.append (.cons hrest hmore)
  have hne : front ++ first :: more ≠ [] := List.append_ne_nil_of_right_ne_nil _ (List.cons_ne_nil _ _)
  have hwordKind := Token.kind_of_word? hword
  refine ⟨front ++ first :: more, hread.run hw, ?_, ?_⟩
  · obtain ⟨head, last, hhead, hlast, hnext, hhere⟩ := hread.exists_ends hne
    rw [hnext] at ht
    cases ht
    exact ⟨_, last, hhead, hlast, hhere ▸ hspan⟩
  · rw [hfrontKinds, hglobal, outside_cons_of_not_mark (Token.isMark_of_word hwordKind '<'), List.map_cons, hmoreKinds,
      hsplit, intersperse_words, hwordKind, dotted]

end Cursor

theorem Token.writtenIn {t : Token} {word : String} (ht : t ∈ ts) (hword : t.word? = some word)
    (hplain : '.' ∉ word.toList) : NameRef.WrittenIn ts [t] ⟨word, t.span, false⟩ where
  run := (List.singleton_infix_iff _ _).2 ht
  span := ⟨t, t, rfl, rfl, rfl⟩
  kinds := by
    have hkind := kind_of_word? hword
    rw [outside_cons_of_not_mark (isMark_of_word hkind '<'), Text.splitAt_of_not_mem hplain, List.map_cons, hkind]
    rfl

def Skeleton.names (s : Skeleton) : List NameRef :=
  s.usings.map (·.name) ++ s.types.flatMap fun decl => decl.name :: decl.bases

theorem Skeleton.NamesHold.forall_mem_names {R T : NameRef → Prop} {s : Skeleton} (h : s.NamesHold R T)
    (htypes : ∀ n, T n → R n) : ∀ n ∈ s.names, R n := by
  intro n hn
  rw [names, List.mem_append, List.mem_map, List.mem_flatMap] at hn
  obtain ⟨u, hu, rfl⟩ | ⟨decl, hdecl, hn⟩ := hn
  · exact h.usings u hu
  · obtain rfl | hn := List.mem_cons.1 hn
    · exact htypes _ (h.types decl hdecl)
    · exact h.bases decl hdecl n hn

theorem Qualified.exists_parts {R : NameRef → Prop} {name : String} (h : Qualified R name) :
    ∃ ns : List NameRef, ns ≠ [] ∧ (∀ n ∈ ns, R n) ∧
      Text.splitAt '.' name = ns.flatMap fun n => Text.splitAt '.' n.name := by
  induction h with
  | @outermost name h =>
      refine ⟨[name], List.cons_ne_nil _ _, List.forall_mem_singleton.2 h, ?_⟩
      rw [List.flatMap_singleton]
  | @inside outer name _ h ih =>
      obtain ⟨ns, -, hall, hsplit⟩ := ih
      refine ⟨ns ++ [name], by simp, List.forall_mem_append.2 ⟨hall, List.forall_mem_singleton.2 h⟩, ?_⟩
      rw [Text.splitAt_append, hsplit, List.flatMap_append, List.flatMap_singleton]

end GeneratorBench
