import GeneratorBench.Proofs.Syntax.Reading
import GeneratorBench.Proofs.Syntax.Steps

/-!
A cursor with more tokens at the end. What is read from it is the same as before if the reader has found the
mark that it stops at, and has not run to the end in search of one that is missing.
-/

namespace GeneratorBench

/-- `depth` groups are open, and one of them stays open to the end. -/
def Token.Unclosed (opening closing : Char) (depth : Nat) (ts : List Token) : Prop :=
  ∀ us, us <+: ts → us.countP (·.isMark closing) < depth + us.countP (·.isMark opening)

namespace Token.Unclosed

variable {opening closing : Char} {depth : Nat} {t : Token} {ts us : List Token}

theorem nil (h : 0 < depth) : Unclosed opening closing depth [] := by
  intro us hus
  rw [List.prefix_nil.1 hus]
  exact h

theorem tail {more : Nat} (h : Unclosed opening closing depth (t :: ts))
    (hmore : depth + [t].countP (·.isMark opening) ≤ more + [t].countP (·.isMark closing)) :
    Unclosed opening closing more ts := by
  intro us hus
  have hcount := h (t :: us) (List.cons_prefix_cons.2 ⟨rfl, hus⟩)
  rw [← List.singleton_append, List.countP_append, List.countP_append] at hcount
  omega

theorem cons {more : Nat} (hdepth : 0 < depth) (h : Unclosed opening closing more ts)
    (hmore : more + [t].countP (·.isMark closing) ≤ depth + [t].countP (·.isMark opening)) :
    Unclosed opening closing depth (t :: ts) := by
  intro us hus
  cases us with
  | nil => exact hdepth
  | cons u us =>
      obtain ⟨rfl, hprefix⟩ := List.cons_prefix_cons.1 hus
      have hcount := h us hprefix
      rw [← List.singleton_append, List.countP_append, List.countP_append]
      omega

theorem append (h : Unclosed opening closing depth ts) (hus : ∀ t ∈ us, t.isMark closing = false) :
    Unclosed opening closing depth (ts ++ us) := by
  rintro vs ⟨rest, hrest⟩
  obtain ⟨ws, rfl, -⟩ | ⟨ws, rfl, hws⟩ := List.append_eq_append_iff.1 hrest
  · exact h vs (List.prefix_append vs ws)
  · have hcount := h ts (List.prefix_refl ts)
    have hnone : ws.countP (·.isMark closing) = 0 := by
      rw [List.countP_eq_zero]
      intro t ht
      rw [hus t (hws ▸ List.mem_append_left rest ht)]
      exact Bool.false_ne_true
    rw [List.countP_append, List.countP_append]
    omega

end Token.Unclosed

namespace Cursor

def followedBy (c : Cursor) (us : List Token) : Cursor := ⟨c.before, c.rest ++ us⟩

/-- If anything was read then a mark was last. -/
def AfterMark (c : Cursor) : Prop := ∀ t ∈ c.before.head?, ∃ m, t.kind = .mark m

/-- The next token goes on with no name. -/
structure Settled (c : Cursor) : Prop where
  rest : c.rest ≠ []
  dot : c.atMark '.' = false
  colon : c.atMark ':' = false

variable {c d : Cursor} (us : List Token)

theorem rest_followedBy {t : Token} {rest : List Token} (hr : c.rest = t :: rest) :
    (c.followedBy us).rest = t :: (rest ++ us) := by
  rw [followedBy, hr]
  rfl

theorem Reaches.rest_ne_nil (h : c.Reaches d) (hd : d.rest ≠ []) : c.rest ≠ [] := by
  obtain ⟨vs, hr, -⟩ := h
  rw [hr]
  exact List.append_ne_nil_of_right_ne_nil _ hd

theorem settled_of_atMark {m : Char} (h : c.atMark m = true) (hm : m ≠ '.' ∧ m ≠ ':') : c.Settled := by
  obtain ⟨t, rest, hr⟩ := List.exists_cons_of_ne_nil (rest_ne_nil_of_atMark h)
  have hkind : t.kind = .mark m := by
    rw [atMark_eq hr, Token.isMark, beq_iff_eq] at h
    exact h
  refine ⟨rest_ne_nil_of_atMark h, ?_, ?_⟩
  · rw [atMark_eq hr, Token.isMark_of_mark hkind, beq_eq_false_iff_ne]
    exact hm.1
  · rw [atMark_eq hr, Token.isMark_of_mark hkind, beq_eq_false_iff_ne]
    exact hm.2

theorem settled_of_atWord {w : String} (h : c.atWord w = true) : c.Settled := by
  obtain ⟨t, rest, hr, hkind⟩ := Parser.exists_rest_of_atWord h
  refine ⟨rest_ne_nil_of_eq hr, ?_, ?_⟩
  · rw [atMark_eq hr, Token.isMark_of_word hkind]
  · rw [atMark_eq hr, Token.isMark_of_word hkind]

theorem afterMark_next {m : Char} (h : c.atMark m = true) : c.next.AfterMark := by
  obtain ⟨t, rest, hr⟩ := List.exists_cons_of_ne_nil (rest_ne_nil_of_atMark h)
  rw [atMark_eq hr, Token.isMark, beq_iff_eq] at h
  rw [next_eq hr]
  rintro _ ⟨⟩
  exact ⟨m, h⟩

theorem reads_next {m : Char} (h : c.atMark m = true) : c.Reads [.mark m] c.next := by
  obtain ⟨t, rest, hr⟩ := List.exists_cons_of_ne_nil (rest_ne_nil_of_atMark h)
  rw [atMark_eq hr, Token.isMark, beq_iff_eq] at h
  rw [next_eq hr]
  exact reads_cons.2 ⟨t, rest, hr, h, reads_nil.2 rfl⟩

theorem atMark_followedBy (h : c.rest ≠ []) (m : Char) : (c.followedBy us).atMark m = c.atMark m := by
  obtain ⟨t, rest, hr⟩ := List.exists_cons_of_ne_nil h
  rw [atMark_eq hr, atMark_eq (rest_followedBy us hr)]

theorem atWord_followedBy (h : c.rest ≠ []) (w : String) : (c.followedBy us).atWord w = c.atWord w := by
  obtain ⟨t, rest, hr⟩ := List.exists_cons_of_ne_nil h
  rw [atWord_eq hr, atWord_eq (rest_followedBy us hr)]

theorem next_followedBy (h : c.rest ≠ []) : (c.followedBy us).next = c.next.followedBy us := by
  obtain ⟨t, rest, hr⟩ := List.exists_cons_of_ne_nil h
  rw [next_eq hr, next_eq (rest_followedBy us hr)]
  rfl

section

variable {opening closing : Char} {depth : Nat}

theorem skipBalanced_of_unclosed {rest : List Token} (h : Token.Unclosed opening closing depth rest)
    (before : List Token) : (skipBalanced opening closing depth before rest).rest = [] := by
  induction rest generalizing depth before with
  | nil => rfl
  | cons t rest ih =>
      have hfirst := h [t] (List.cons_prefix_cons.2 ⟨rfl, List.nil_prefix⟩)
      rw [skipBalanced]
      split
      · rename_i hopening
        refine ih (h.tail ?_) _
        simp only [List.countP_singleton, hopening, if_true]
        omega
      · rename_i hopening
        split
        · rename_i hclosing
          simp only [List.countP_singleton, hopening, hclosing, if_true, Bool.false_eq_true, if_false] at hfirst
          rw [if_neg (by omega)]
          refine ih (h.tail ?_) _
          simp only [List.countP_singleton, hopening, hclosing, if_true, Bool.false_eq_true, if_false]
          omega
        · rename_i hclosing
          refine ih (h.tail ?_) _
          simp only [List.countP_singleton, hopening, hclosing, Bool.false_eq_true, if_false]
          omega

theorem skipBalanced_followedBy (hne : opening ≠ closing) {rest : List Token} (hdepth : 0 < depth)
    (h : ¬ Token.Unclosed opening closing depth rest) (before : List Token) :
    skipBalanced opening closing depth before (rest ++ us) =
        (skipBalanced opening closing depth before rest).followedBy us ∧
      (skipBalanced opening closing depth before rest).AfterMark := by
  induction rest generalizing depth before with
  | nil => exact absurd (.nil hdepth) h
  | cons t rest ih =>
      rw [List.cons_append, skipBalanced, skipBalanced]
      split
      · rename_i hopening
        have hclosing : t.isMark closing = false := by
          rw [Token.isMark_of_mark (beq_iff_eq.1 hopening), beq_eq_false_iff_ne]
          exact hne
        refine ih (Nat.succ_pos _) (fun hrest => h (hrest.cons hdepth ?_)) _
        simp only [List.countP_singleton, hopening, hclosing, if_true, Bool.false_eq_true, if_false]
        omega
      · rename_i hopening
        split
        · rename_i hclosing
          split
          · refine ⟨rfl, ?_⟩
            rintro _ ⟨⟩
            exact ⟨closing, beq_iff_eq.1 hclosing⟩
          · refine ih (by omega) (fun hrest => h (hrest.cons hdepth ?_)) _
            simp only [List.countP_singleton, hopening, hclosing, if_true, Bool.false_eq_true, if_false]
            omega
        · rename_i hclosing
          refine ih hdepth (fun hrest => h (hrest.cons hdepth ?_)) _
          simp only [List.countP_singleton, hopening, hclosing, Bool.false_eq_true, if_false]
          omega

theorem skipGroup_eq {t : Token} {rest : List Token} (hr : c.rest = t :: rest)
    (h : t.isMark opening = true) :
    c.skipGroup opening closing = skipBalanced opening closing 1 (t :: c.before) rest := by
  rw [skipGroup, atMark_eq hr, if_pos h, hr, skipBalanced, if_pos h]

theorem skipGroup_followedBy (hne : opening ≠ closing) (h : (c.skipGroup opening closing).rest ≠ []) :
    (c.followedBy us).skipGroup opening closing = (c.skipGroup opening closing).followedBy us := by
  obtain ⟨t, rest, hr⟩ := List.exists_cons_of_ne_nil ((skipGroup_reaches c opening closing).rest_ne_nil h)
  have hr' := rest_followedBy us hr
  cases hmark : t.isMark opening with
  | false =>
      rw [skipGroup_of_not_atMark (by rw [atMark_eq hr', hmark]),
        skipGroup_of_not_atMark (by rw [atMark_eq hr, hmark])]
  | true =>
      rw [skipGroup_eq hr hmark] at h ⊢
      rw [skipGroup_eq hr' hmark]
      have hclosed : ¬ Token.Unclosed opening closing 1 rest := fun hopen =>
        h (skipBalanced_of_unclosed hopen _)
      exact (skipBalanced_followedBy us hne Nat.one_pos hclosed _).1

end

theorem skipGroups_followedBy (h : ((c.skipGroup '<' '>').skipGroup '(' ')').rest ≠ []) :
    ((c.followedBy us).skipGroup '<' '>').skipGroup '(' ')' =
      ((c.skipGroup '<' '>').skipGroup '(' ')').followedBy us := by
  have hangle := (skipGroup_reaches (c.skipGroup '<' '>') '(' ')').rest_ne_nil h
  rw [skipGroup_followedBy us (by decide) hangle, skipGroup_followedBy us (by decide) h]

theorem skipPast_of_not_mem {m : Char} {rest : List Token} (h : ∀ t ∈ rest, t.isMark m = false)
    (before : List Token) : (skipPast m before rest).rest = [] := by
  induction rest generalizing before with
  | nil => rfl
  | cons t rest ih =>
      rw [skipPast, if_neg (Bool.eq_false_iff.1 (h t List.mem_cons_self))]
      exact ih (fun u hu => h u (List.mem_cons_of_mem _ hu)) _

theorem skipPast_followedBy {m : Char} {rest : List Token} (h : ¬ ∀ t ∈ rest, t.isMark m = false)
    (before : List Token) :
    skipPast m before (rest ++ us) = (skipPast m before rest).followedBy us ∧
      (skipPast m before rest).AfterMark := by
  induction rest generalizing before with
  | nil => exact absurd (fun _ ht => absurd ht List.not_mem_nil) h
  | cons t rest ih =>
      rw [List.cons_append, skipPast, skipPast]
      split
      · rename_i hmark
        refine ⟨rfl, ?_⟩
        rintro _ ⟨⟩
        exact ⟨m, beq_iff_eq.1 hmark⟩
      · rename_i hmark
        refine ih (fun hrest => h ?_) _
        rw [List.forall_mem_cons]
        exact ⟨eq_false_of_ne_true hmark, hrest⟩

theorem skipUntil_followedBy {stop : Token → Bool} {before rest : List Token}
    (h : (skipUntil stop before rest).rest ≠ []) :
    skipUntil stop before (rest ++ us) = (skipUntil stop before rest).followedBy us := by
  induction rest generalizing before with
  | nil => exact absurd rfl h
  | cons t rest ih =>
      rw [skipUntil] at h
      rw [List.cons_append, skipUntil, skipUntil]
      split
      · rfl
      · rename_i hstop
        rw [if_neg hstop] at h
        exact ih h

theorem moreSegments_followedBy (hrest : c.moreSegments.2.rest ≠ [])
    (hdot : c.moreSegments.2.atMark '.' = false) :
    (c.followedBy us).moreSegments = (c.moreSegments.1, c.moreSegments.2.followedBy us) := by
  fun_induction moreSegments c with
  | case1 c past dot segment rest hr word hword hdotMark words stop hstop ih =>
      rw [hstop] at ih
      have hgroup := skipGroup_followedBy us (by decide : '<' ≠ '>') (rest_ne_nil_of_eq hr)
      have hmore : ((c.followedBy us).skipGroup '<' '>').rest = dot :: segment :: (rest ++ us) := by
        rw [hgroup, followedBy, hr]
        rfl
      rw [moreSegments_of_dot hmore hdotMark hword, hgroup]
      have hrec : moreSegments ⟨segment :: dot :: (past.followedBy us).before, rest ++ us⟩ =
          (words, stop.followedBy us) := ih hrest hdot
      rw [hrec]
  | case2 c past dot segment rest hr hend =>
      have hgroup := skipGroup_followedBy us (by decide : '<' ≠ '>') hrest
      rw [moreSegments_of_end, hgroup]
      intro dot' segment' rest' w hr' hmark
      rw [hgroup, followedBy, hr, List.cons_append, List.cons_append] at hr'
      cases hr'
      exact fun hword => hend w hmark hword
  | case3 c past hend =>
      have hgroup := skipGroup_followedBy us (by decide : '<' ≠ '>') hrest
      rw [moreSegments_of_end, hgroup]
      intro dot segment rest w hr hmark
      rw [hgroup] at hr
      rw [← atMark_eq hr, atMark_followedBy us hrest, hdot] at hmark
      cases hmark

/-- What may be the start of a `global::` is one, or is followed by what no name goes on with. -/
theorem globalQualifier_followedBy (h : c.name.1.isSome = true) (hd : c.name.2.Settled) :
    (c.followedBy us).globalQualifier = (c.globalQualifier.1, c.globalQualifier.2.followedBy us) := by
  have hlt := name_rest_lt h
  have hpos := List.length_pos_iff.2 hd.rest
  obtain ⟨before, rest⟩ := c
  match rest with
  | [] => exact absurd hlt (Nat.not_lt_zero _)
  | [_] =>
      rw [List.length_singleton] at hlt
      omega
  | [first, second] =>
      rw [List.length_cons, List.length_singleton] at hlt
      obtain ⟨last, hlast⟩ := List.length_eq_one_iff.1 (Nat.le_antisymm (Nat.le_of_lt_succ hlt) hpos)
      obtain ⟨vs, hread, -⟩ := name_reaches ⟨before, [first, second]⟩
      have hsecond : second = last := by simpa [hlast] using congrArg List.getLast? hread
      have hcolon : second.isMark ':' = false := by
        rw [hsecond, ← atMark_eq hlast]
        exact hd.colon
      cases us with
      | nil => rfl
      | cons u us => simp [globalQualifier, followedBy, hcolon]
  | qualifier :: colon :: colon' :: rest =>
      simp only [globalQualifier, followedBy, List.cons_append]
      split
      · rfl
      · rfl

theorem name_followedBy {base : NameRef} (h : c.name = (some base, d)) (hd : d.Settled) :
    (c.followedBy us).name = (some base, d.followedBy us) := by
  have hqualifier := globalQualifier_followedBy us (c := c) (by rw [h]; rfl) (by rw [h]; exact hd)
  rw [name] at h ⊢
  rw [hqualifier]
  generalize c.globalQualifier = q at h ⊢
  obtain ⟨qualifier, before, rest⟩ := q
  cases rest with
  | nil => cases h
  | cons first rest =>
      dsimp only at h ⊢
      simp only [followedBy, List.cons_append]
      cases hword : first.word? with
      | none =>
          rw [hword] at h
          cases h
      | some word =>
          rw [hword] at h
          cases h
          have hmore := moreSegments_followedBy us (c := ⟨first :: before, rest⟩) hd.rest hd.dot
          rw [followedBy] at hmore
          simp only [hmore]
          rfl

theorem baseNames_followedBy {bases : List NameRef} (h : c.baseNames = (bases, true, d)) (hd : d.Settled) :
    (c.followedBy us).baseNames = (bases, true, d.followedBy us) := by
  fun_induction baseNames c generalizing bases with
  | case1 c stop hname => cases h
  | case2 c base stop hname comma more wellFormed last hlast ih =>
      cases h
      have hstop := rest_ne_nil_of_atMark comma
      rw [baseNames_of_name (name_followedBy us hname (settled_of_atMark comma (by decide))),
        atMark_followedBy us hstop, comma, if_pos rfl, next_followedBy us hstop, ih hlast]
  | case3 c base stop hname comma =>
      cases h
      rw [baseNames_of_name (name_followedBy us hname hd), atMark_followedBy us hd.rest, if_neg comma]

/-- The name after the word `using`, or after `static` behind it. -/
def directiveName (c : Cursor) : Option NameRef × Cursor := (if c.atWord "static" then c.next else c).name

theorem directiveName_reaches (c : Cursor) : c.Reaches c.directiveName.2 :=
  (c.optionalWord_reaches "static").trans (name_reaches _)

theorem directiveName_followedBy {target : NameRef} (h : c.directiveName = (some target, d)) (hd : d.Settled) :
    (c.followedBy us).directiveName = (some target, d.followedBy us) := by
  have hreach := directiveName_reaches c
  rw [h] at hreach
  have hrest := hreach.rest_ne_nil hd.rest
  rw [directiveName] at h
  rw [directiveName, atWord_followedBy us hrest, next_followedBy us hrest]
  split
  · rename_i hstatic
    rw [if_pos hstatic] at h
    exact name_followedBy us h hd
  · rename_i hstatic
    rw [if_neg hstatic] at h
    exact name_followedBy us h hd

theorem typeStart?_followedBy {start : TypeStart} (h : c.typeStart? = some start) :
    (c.followedBy us).typeStart? = some { start with stop := start.stop.followedBy us } := by
  simp only [typeStart?] at h
  split at h
  · cases h
  · rename_i keyword rest hdrop
    split at h
    · rename_i hkeyword
      cases h
      have hread := congrArg List.length (List.takeWhile_append_dropWhile (p := isModifier) (l := c.rest))
      rw [hdrop, List.length_append, List.length_cons] at hread
      have hdropMore : (c.rest ++ us).dropWhile isModifier = keyword :: (rest ++ us) := by
        rw [List.dropWhile_append, hdrop]
        rfl
      have htakeMore : (c.rest ++ us).takeWhile isModifier = c.rest.takeWhile isModifier := by
        rw [List.takeWhile_append, if_neg (by omega)]
      simp only [typeStart?, followedBy, hdropMore, htakeMore, hkeyword, if_true]
    · cases h

end Cursor

end GeneratorBench
