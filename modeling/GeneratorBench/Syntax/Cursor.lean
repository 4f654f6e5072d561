import GeneratorBench.Syntax.Skeleton
import GeneratorBench.Syntax.Token

/-!
A place between the tokens of a text, and what can be read from there: bracketed groups, names and
the modifiers of a declaration. Nothing that is read here moves a cursor back.
-/

namespace GeneratorBench

/-- Tokens read so far, last first, and tokens still to be read. -/
structure Cursor where
  before : List Token
  rest : List Token
  deriving Repr, DecidableEq, Inhabited

namespace Cursor

/-- Steps over the next token. Where there is none this runs past the end of the text. -/
def next (c : Cursor) : Cursor :=
  match c.rest with
  | [] => ⟨default :: c.before, []⟩
  | t :: rest => ⟨t :: c.before, rest⟩

def atMark (c : Cursor) (m : Char) : Bool := c.rest.head?.any (·.isMark m)

def atWord (c : Cursor) (w : String) : Bool := c.rest.head?.any (·.isWord w)

/-- The empty span right after the last token read, or at the start of the text. -/
def here (c : Cursor) : Span :=
  match c.before with
  | [] => .point .origin
  | t :: _ => .point t.stop

section

variable {c : Cursor}

theorem rest_ne_nil_of_eq {t : Token} {rest : List Token} (hr : c.rest = t :: rest) : c.rest ≠ [] := by
  rw [hr]
  exact List.cons_ne_nil _ _

theorem rest_ne_nil_of_atMark {m : Char} (h : c.atMark m = true) : c.rest ≠ [] := by
  intro hr
  rw [atMark, hr] at h
  cases h

theorem rest_ne_nil_of_atWord {w : String} (h : c.atWord w = true) : c.rest ≠ [] := by
  intro hr
  rw [atWord, hr] at h
  cases h

end

theorem next_rest_le (c : Cursor) : c.next.rest.length ≤ c.rest.length := by
  unfold next
  split <;> simp_all

theorem next_rest_lt {c : Cursor} (h : c.rest ≠ []) : c.next.rest.length < c.rest.length := by
  unfold next
  split <;> simp_all

/-- Reads on until as many `closing` marks as `opening` marks were met, or to the end. -/
def skipBalanced (opening closing : Char) (depth : Nat) (before : List Token) :
    List Token → Cursor
  | [] => ⟨before, []⟩
  | t :: rest =>
    if t.isMark opening then skipBalanced opening closing (depth + 1) (t :: before) rest
    else if t.isMark closing then
      if depth ≤ 1 then ⟨t :: before, rest⟩
      else skipBalanced opening closing (depth - 1) (t :: before) rest
    else skipBalanced opening closing depth (t :: before) rest

def skipGroup (c : Cursor) (opening closing : Char) : Cursor :=
  if c.atMark opening then skipBalanced opening closing 0 c.before c.rest else c

def skipPast (m : Char) (before : List Token) : List Token → Cursor
  | [] => ⟨before, []⟩
  | t :: rest => if t.isMark m then ⟨t :: before, rest⟩ else skipPast m (t :: before) rest

def skipUntil (stop : Token → Bool) (before : List Token) : List Token → Cursor
  | [] => ⟨before, []⟩
  | t :: rest => if stop t then ⟨before, t :: rest⟩ else skipUntil stop (t :: before) rest

theorem skipBalanced_rest_le (opening closing : Char) (depth : Nat) (before rest : List Token) :
    (skipBalanced opening closing depth before rest).rest.length ≤ rest.length := by
  fun_induction skipBalanced opening closing depth before rest <;> simp_all <;> omega

theorem skipGroup_rest_le (c : Cursor) (opening closing : Char) :
    (c.skipGroup opening closing).rest.length ≤ c.rest.length := by
  unfold skipGroup
  split
  · exact skipBalanced_rest_le ..
  · exact Nat.le_refl _

theorem skipPast_rest_le (m : Char) (before rest : List Token) :
    (skipPast m before rest).rest.length ≤ rest.length := by
  fun_induction skipPast m before rest <;> simp_all
  omega

theorem skipUntil_rest_le (stop : Token → Bool) (before rest : List Token) :
    (skipUntil stop before rest).rest.length ≤ rest.length := by
  fun_induction skipUntil stop before rest <;> simp_all
  omega

theorem skipGroup_rest_lt {c : Cursor} {opening : Char} (closing : Char)
    (h : c.atMark opening = true) : (c.skipGroup opening closing).rest.length < c.rest.length := by
  obtain ⟨before, rest⟩ := c
  cases rest with
  | nil => simp [atMark] at h
  | cons t rest =>
    have mark : t.isMark opening = true := by simpa [atMark] using h
    have := skipBalanced_rest_le opening closing 1 (t :: before) rest
    simp only [skipGroup, h, if_true, skipBalanced, mark, List.length_cons, Nat.zero_add]
    omega

/-- The segments of a name after its first, each led by a dot. Type arguments after a segment are
skipped. -/
def moreSegments (c : Cursor) : List String × Cursor :=
  let past := c.skipGroup '<' '>'
  match _h : past.rest with
  | dot :: segment :: rest =>
    match dot.isMark '.', segment.word? with
    | true, some word =>
      let (words, stop) := moreSegments ⟨segment :: dot :: past.before, rest⟩
      (word :: words, stop)
    | _, _ => ([], past)
  | _ => ([], past)
termination_by c.rest.length
decreasing_by
  have := skipGroup_rest_le c '<' '>'
  have := congrArg List.length _h
  simp only [past, List.length_cons] at *
  omega

/-- Skips a leading `global::` and answers with its first token. -/
def globalQualifier (c : Cursor) : Option Token × Cursor :=
  match c.rest with
  | qualifier :: colon :: colon' :: rest =>
    if qualifier.isWord "global" && colon.isMark ':' && colon'.isMark ':' then
      (some qualifier, ⟨colon' :: colon :: qualifier :: c.before, rest⟩)
    else (none, c)
  | _ => (none, c)

/-- Reads a name, if one starts here. A `global::` is skipped even if no name follows it. -/
def name (c : Cursor) : Option NameRef × Cursor :=
  let (qualifier, c) := c.globalQualifier
  match c.rest with
  | [] => (none, c)
  | first :: rest =>
    match first.word? with
    | none => (none, c)
    | some word =>
      let (words, stop) := moreSegments ⟨first :: c.before, rest⟩
      (some {
        name := words.foldl (· ++ "." ++ ·) word
        span := ⟨(qualifier.getD first).start, stop.here.start⟩
        isGlobal := qualifier.isSome }, stop)

theorem moreSegments_rest_le (c : Cursor) : c.moreSegments.2.rest.length ≤ c.rest.length := by
  fun_induction moreSegments c with
  | case1 c past dot segment rest h _ word _ words stop hstop ih =>
    have := skipGroup_rest_le c '<' '>'
    have := congrArg List.length h
    simp_all [past]
    omega
  | case2 c past | case3 c past => exact skipGroup_rest_le c '<' '>'

theorem globalQualifier_rest_le (c : Cursor) : c.globalQualifier.2.rest.length ≤ c.rest.length := by
  unfold globalQualifier
  split
  · split <;> simp_all
    omega
  · simp

theorem name_rest_le (c : Cursor) : c.name.2.rest.length ≤ c.rest.length := by
  have := globalQualifier_rest_le c
  simp only [name]
  split
  · assumption
  · rename_i first rest h
    split
    · assumption
    · have := moreSegments_rest_le ⟨first :: c.globalQualifier.2.before, rest⟩
      simp_all
      omega

theorem name_rest_lt {c : Cursor} (h : c.name.1.isSome = true) :
    c.name.2.rest.length < c.rest.length := by
  have := globalQualifier_rest_le c
  simp only [name] at h ⊢
  split at h
  · simp at h
  · rename_i first rest hrest
    split at h
    · simp at h
    · rename_i word hword
      have := moreSegments_rest_le ⟨first :: c.globalQualifier.2.before, rest⟩
      simp_all
      omega

/-- The names of a base list, whether the list was well formed, and where reading stopped. -/
def baseNames (c : Cursor) : List NameRef × Bool × Cursor :=
  match _h : c.name with
  | (none, stop) => ([], false, stop)
  | (some base, stop) =>
    if stop.atMark ',' then
      let (bases, wellFormed, last) := baseNames stop.next
      (base :: bases, wellFormed, last)
    else ([base], true, stop)
termination_by c.rest.length
decreasing_by
  have := name_rest_lt (c := c) (by simp [_h])
  have := next_rest_le stop
  simp only [_h] at *
  omega

theorem baseNames_rest_le (c : Cursor) : c.baseNames.2.2.rest.length ≤ c.rest.length := by
  fun_induction baseNames c with
  | case1 c stop h | case3 c base stop h => simpa [h] using name_rest_le c
  | case2 c base stop h _ bases wellFormed last hlast ih =>
    have := name_rest_le c
    have := next_rest_le stop
    simp_all
    omega

def modifiers : List String :=
  ["public", "private", "protected", "internal", "static", "sealed", "abstract", "partial",
    "readonly", "file", "unsafe", "new", "ref"]

def typeKeywords : List String := ["class", "struct", "interface", "record", "enum"]

def isModifier (t : Token) : Bool := t.word?.any modifiers.contains

def isTypeKeyword (t : Token) : Bool := t.word?.any typeKeywords.contains

theorem not_isModifier_of_isTypeKeyword {t : Token} (h : isTypeKeyword t = true) :
    isModifier t = false := by
  unfold isTypeKeyword at h
  unfold isModifier
  cases hw : t.word? with
  | none => rfl
  | some w =>
    have : w ∈ typeKeywords := by simpa [hw] using h
    simp only [typeKeywords, List.mem_cons, List.not_mem_nil, or_false] at this
    obtain rfl | rfl | rfl | rfl | rfl := this <;> decide

structure TypeStart where
  isPartial : Bool
  keyword : Token
  stop : Cursor

def typeStart? (c : Cursor) : Option TypeStart :=
  let mods := c.rest.takeWhile isModifier
  match c.rest.dropWhile isModifier with
  | [] => none
  | keyword :: rest =>
    if isTypeKeyword keyword then
      some ⟨mods.any (·.isWord "partial"), keyword, ⟨keyword :: (mods.reverse ++ c.before), rest⟩⟩
    else none

def passModifiers (c : Cursor) : Cursor :=
  ⟨(c.rest.takeWhile isModifier).reverse ++ c.before, c.rest.dropWhile isModifier⟩

/-- The place before all modifiers that were just read. -/
def rewindModifiers (c : Cursor) : Cursor :=
  ⟨c.before.dropWhile isModifier, (c.before.takeWhile isModifier).reverse ++ c.rest⟩

theorem typeStart?_rest_lt {c : Cursor} {start : TypeStart} (h : c.typeStart? = some start) :
    start.stop.rest.length < c.rest.length := by
  have := congrArg List.length (List.takeWhile_append_dropWhile (p := isModifier) (l := c.rest))
  simp only [typeStart?] at h
  split at h
  · simp at h
  · split at h
    · simp at h
      subst h
      simp_all
      omega
    · simp at h

/-- A type keyword starts a declaration, seen from before its modifiers. -/
theorem typeStart?_rewindModifiers {c : Cursor} {keyword : Token} {rest : List Token}
    (hc : c.rest = keyword :: rest) (hk : isTypeKeyword keyword = true) :
    c.rewindModifiers.typeStart? =
      some ⟨(c.before.takeWhile isModifier).any (·.isWord "partial"), keyword,
        ⟨keyword :: c.before, rest⟩⟩ := by
  have hm := not_isModifier_of_isTypeKeyword hk
  have all : ∀ t ∈ (c.before.takeWhile isModifier).reverse, isModifier t = true := by
    intro t ht
    exact List.all_eq_true.1 (List.all_takeWhile (p := isModifier)) t (List.mem_reverse.1 ht)
  have drop : (c.rewindModifiers.rest).dropWhile isModifier = keyword :: rest := by
    simp only [rewindModifiers, hc]
    rw [List.dropWhile_append_of_pos all]
    simp [hm]
  have take : (c.rewindModifiers.rest).takeWhile isModifier
      = (c.before.takeWhile isModifier).reverse := by
    simp only [rewindModifiers, hc]
    rw [List.takeWhile_append_of_pos all]
    simp [hm]
  simp only [typeStart?, drop, take, hk, if_true]
  simp [rewindModifiers]

end Cursor

end GeneratorBench
