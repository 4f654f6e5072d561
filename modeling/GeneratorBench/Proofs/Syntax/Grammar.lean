import GeneratorBench.Syntax.Parser

/-!
Well-formed source texts as trees: the tokens that a tree is written with, and the declaration
skeleton that it stands for. Whatever a tree of these types says is well formed.
-/

namespace GeneratorBench

namespace Skeleton

instance : Append Skeleton where
  append s t := {
    usings := s.usings ++ t.usings
    types := s.types ++ t.types
    namespaces := s.namespaces ++ t.namespaces
    hasMain := s.hasMain || t.hasMain
    errors := s.errors ++ t.errors }

theorem append_def (s t : Skeleton) : s ++ t = {
    usings := s.usings ++ t.usings
    types := s.types ++ t.types
    namespaces := s.namespaces ++ t.namespaces
    hasMain := s.hasMain || t.hasMain
    errors := s.errors ++ t.errors } := rfl

theorem append_empty (s : Skeleton) : s ++ ({} : Skeleton) = s := by
  simp [append_def]

theorem empty_append (s : Skeleton) : ({} : Skeleton) ++ s = s := by
  simp [append_def]

theorem append_assoc (s t u : Skeleton) : s ++ t ++ u = s ++ (t ++ u) := by
  simp [append_def, Bool.or_assoc]

theorem usings_append (s t : Skeleton) : (s ++ t).usings = s.usings ++ t.usings := rfl

theorem errors_append (s t : Skeleton) : (s ++ t).errors = s.errors ++ t.errors := rfl

end Skeleton

namespace Grammar

def isPlain (w : String) : Bool :=
  match w.toList with
  | [] => false
  | c :: cs => (Text.isAlphabetic c || c == '_') && cs.all Text.isWordChar

def reserved : List String :=
  ["using", "namespace", "global", "where"] ++ Cursor.modifiers ++ Cursor.typeKeywords

structure Identifier where
  text : String
  plain : isPlain text = true
  free : text ∉ reserved

def dotted (first : String) (more : List String) : List Token.Kind :=
  .word first :: more.flatMap fun w => [.mark '.', .word w]

structure DottedName where
  first : Identifier
  more : List Identifier

namespace DottedName

def text (n : DottedName) : String := ".".intercalate (n.first.text :: n.more.map (·.text))

def kinds (n : DottedName) : List Token.Kind := dotted n.first.text (n.more.map (·.text))

end DottedName

structure QualifiedName where
  isGlobal : Bool
  name : DottedName

def globalMark : List Token.Kind := [.word "global", .mark ':', .mark ':']

namespace QualifiedName

def kinds (q : QualifiedName) : List Token.Kind :=
  (if q.isGlobal then globalMark else []) ++ q.name.kinds

end QualifiedName

structure Directive where
  isStatic : Bool
  name : QualifiedName

/-- The words that lead up to the name of a type, less the modifiers. -/
def keywordPhrases : List (List String) :=
  Cursor.typeKeywords.map ([·]) ++ [["record", "class"], ["record", "struct"]]

structure TypeHead where
  modifiers : List String
  keyword : List String
  name : Identifier
  bases : List QualifiedName
  modifiers_mem : ∀ m ∈ modifiers, m ∈ Cursor.modifiers
  keyword_mem : keyword ∈ keywordPhrases

inductive Body
  | done
  | main (rest : Body)
  | type (head : TypeHead) (rest : Body)
  | typeWith (head : TypeHead) (inner rest : Body)

inductive Members
  | done
  | directive (d : Directive) (rest : Members)
  | block (name : DottedName) (inner rest : Members)
  | type (head : TypeHead) (rest : Members)
  | typeWith (head : TypeHead) (inner : Body) (rest : Members)

/-- A whole text. What comes after a file-scoped namespace stands in it. -/
structure SourceUnit where
  members : Members
  fileScoped : Option (DottedName × Members) := none

def Directive.kinds (d : Directive) : List Token.Kind :=
  .word "using" ::
    ((if d.isStatic then [.word "static"] else []) ++ (d.name.kinds ++ [.mark ';']))

/-- Names that each follow a mark, the first one `sep` and the others a comma. -/
def listKinds (sep : Char) : List QualifiedName → List Token.Kind
  | [] => []
  | q :: qs => .mark sep :: (q.kinds ++ listKinds ',' qs)

def TypeHead.kinds (h : TypeHead) : List Token.Kind :=
  h.modifiers.map .word ++ (h.keyword.map .word ++ .word h.name.text :: listKinds ':' h.bases)

def mainKinds : List Token.Kind :=
  [.word "static", .word "void", .word "Main", .mark '(', .mark ')', .mark '\x7b', .mark '\x7d']

def Body.kinds : Body → List Token.Kind
  | done => []
  | main rest => mainKinds ++ rest.kinds
  | type head rest => head.kinds ++ [.mark ';'] ++ rest.kinds
  | typeWith head inner rest =>
    head.kinds ++ [.mark '\x7b'] ++ (inner.kinds ++ [.mark '\x7d']) ++ rest.kinds

def namespaceKinds (name : DottedName) (mark : Char) : List Token.Kind :=
  .word "namespace" :: (name.kinds ++ [.mark mark])

def Members.kinds : Members → List Token.Kind
  | done => []
  | directive d rest => d.kinds ++ rest.kinds
  | block name inner rest =>
    namespaceKinds name '\x7b' ++ (inner.kinds ++ [.mark '\x7d']) ++ rest.kinds
  | type head rest => head.kinds ++ [.mark ';'] ++ rest.kinds
  | typeWith head inner rest =>
    head.kinds ++ [.mark '\x7b'] ++ (inner.kinds ++ [.mark '\x7d']) ++ rest.kinds

def SourceUnit.kinds (u : SourceUnit) : List Token.Kind :=
  u.members.kinds ++ u.fileScoped.elim [] fun (name, ms) => namespaceKinds name ';' ++ ms.kinds

/-- What a declaration finds around it. -/
structure Surroundings where
  scope : Option String := none
  visible : List Nat := []
  /-- How many directives stand before it, in scope or not. -/
  usings : Nat := 0
  /-- How many tokens stand before it. -/
  tokens : Nat := 0

namespace Surroundings

def skip (e : Surroundings) (n : Nat) : Surroundings := { e with tokens := e.tokens + n }

theorem skip_skip (e : Surroundings) (m n : Nat) : (e.skip m).skip n = e.skip (m + n) := by
  simp only [skip, Nat.add_assoc]

def full (e : Surroundings) (name : DottedName) : String :=
  e.scope.elim name.text fun outer => outer ++ "." ++ name.text

def withDirective (e : Surroundings) (d : Directive) : Surroundings :=
  { e.skip d.kinds.length with visible := e.visible ++ [e.usings], usings := e.usings + 1 }

def enter (e : Surroundings) (name : DottedName) : Surroundings :=
  { e.skip (name.kinds.length + 2) with scope := some (e.full name) }

/-- Behind a block whose members ended in `inner`: the scope is again what it was. -/
def resume (e inner : Surroundings) : Surroundings :=
  { scope := e.scope, visible := e.visible, usings := inner.usings, tokens := inner.tokens + 1 }

end Surroundings

/-- What members leave to those after them. -/
def Members.after : Members → Surroundings → Surroundings
  | done, e => e
  | directive d rest, e => rest.after (e.withDirective d)
  | block name inner rest, e => rest.after (e.resume (inner.after (e.enter name)))
  | type head rest, e => rest.after (e.skip (head.kinds.length + 1))
  | typeWith head inner rest, e =>
    rest.after ((e.skip (head.kinds.length + 1)).skip (inner.kinds.length + 1))

section Outline

-- `span i j` is what lies between the `i`-th token of the text and the `j`-th, not included.
variable (span : Nat → Nat → Span)

def QualifiedName.ref (q : QualifiedName) (i : Nat) : NameRef where
  name := q.name.text
  span := span i (i + q.kinds.length)
  isGlobal := q.isGlobal

/-- The names of a list whose first mark is the `i`-th token of the text. -/
def listRefs : List QualifiedName → Nat → List NameRef
  | [], _ => []
  | q :: qs, i => q.ref span (i + 1) :: listRefs qs (i + 1 + q.kinds.length)

def Directive.outline (d : Directive) (e : Surroundings) : Skeleton where
  usings := [{
    name := d.name.ref span (e.tokens + 1 + if d.isStatic then 1 else 0)
    scope := e.scope }]

def TypeHead.decl (h : TypeHead) (container : Option String) (e : Surroundings) : TypeDecl :=
  let i := e.tokens + h.modifiers.length + h.keyword.length
  { name := ⟨h.name.text, span i (i + 1), false⟩
    scope := e.scope
    container := container
    isPartial := h.modifiers.contains "partial"
    bases := listRefs span h.bases (i + 1)
    usings := e.visible }

def TypeHead.outline (h : TypeHead) (container : Option String) (e : Surroundings) : Skeleton where
  types := [h.decl span container e]

def Body.outline (type : String) : Body → Surroundings → Skeleton
  | done, _ => {}
  | main rest, e => { hasMain := true } ++ rest.outline type (e.skip mainKinds.length)
  | .type head rest, e =>
    head.outline span type e ++ rest.outline type (e.skip (head.kinds.length + 1))
  | typeWith head inner rest, e =>
    head.outline span type e
      ++ inner.outline head.name.text (e.skip (head.kinds.length + 1))
      ++ rest.outline type ((e.skip (head.kinds.length + 1)).skip (inner.kinds.length + 1))

def Members.outline : Members → Surroundings → Skeleton
  | done, _ => {}
  | directive d rest, e => d.outline span e ++ rest.outline (e.withDirective d)
  | block name inner rest, e =>
    { namespaces := [e.full name] }
      ++ inner.outline (e.enter name)
      ++ rest.outline (e.resume (inner.after (e.enter name)))
  | type head rest, e =>
    head.outline span none e ++ rest.outline (e.skip (head.kinds.length + 1))
  | typeWith head inner rest, e =>
    head.outline span none e
      ++ inner.outline span head.name.text (e.skip (head.kinds.length + 1))
      ++ rest.outline ((e.skip (head.kinds.length + 1)).skip (inner.kinds.length + 1))

def SourceUnit.outline (u : SourceUnit) : Skeleton :=
  u.members.outline span {} ++ u.fileScoped.elim {} fun (name, ms) =>
    let e := u.members.after {}
    { namespaces := [e.full name] } ++ ms.outline span (e.enter name)

/-- The body of a type has no directives, and nothing in it is at fault. -/
theorem Body.outline_plain (type : String) (b : Body) (e : Surroundings) :
    (b.outline span type e).usings = [] ∧ (b.outline span type e).errors = [] := by
  induction b generalizing type e with
  | done => exact ⟨rfl, rfl⟩
  | main rest ih => exact ih type _
  | type head rest ih => exact ih type _
  | typeWith head inner rest ihInner ihRest =>
      rw [outline, Skeleton.usings_append, Skeleton.usings_append, Skeleton.errors_append, Skeleton.errors_append,
        (ihInner ..).1, (ihInner ..).2, (ihRest ..).1, (ihRest ..).2]
      exact ⟨rfl, rfl⟩

theorem Members.after_scope (ms : Members) (e : Surroundings) : (ms.after e).scope = e.scope := by
  induction ms generalizing e with
  | done => rfl
  | directive d rest ih => exact ih _
  | block name inner rest ihInner ihRest => exact ihRest _
  | type head rest ih => exact ih _
  | typeWith head inner rest ih => exact ih _

theorem Members.visible_isPrefix (ms : Members) (e : Surroundings) :
    e.visible <+: (ms.after e).visible := by
  induction ms generalizing e with
  | done => exact List.prefix_refl _
  | directive d rest ih => exact (List.prefix_append _ _).trans (ih (e.withDirective d))
  | block name inner rest ihInner ihRest => exact ihRest (e.resume (inner.after (e.enter name)))
  | type head rest ih => exact ih (e.skip _)
  | typeWith head inner rest ih => exact ih ((e.skip _).skip _)

theorem Members.after_tokens (ms : Members) (e : Surroundings) :
    (ms.after e).tokens = e.tokens + ms.kinds.length := by
  induction ms generalizing e with
  | done => rfl
  | directive d rest ih =>
      simp only [after, ih, kinds, Surroundings.withDirective, Surroundings.skip, List.length_append]
      omega
  | block name inner rest ihInner ihRest =>
      simp only [after, ihRest, ihInner, kinds, Surroundings.resume, Surroundings.enter,
        Surroundings.skip, namespaceKinds, List.length_append, List.length_cons, List.length_nil]
      omega
  | type head rest ih =>
      simp only [after, ih, kinds, Surroundings.skip, List.length_append, List.length_singleton]
      omega
  | typeWith head inner rest ih =>
      simp only [after, ih, kinds, Surroundings.skip, List.length_append, List.length_singleton]
      omega

theorem Members.after_usings (ms : Members) (e : Surroundings) :
    (ms.after e).usings = e.usings + (ms.outline span e).usings.length := by
  induction ms generalizing e with
  | done => rfl
  | directive d rest ih =>
      rw [after, ih, outline, Skeleton.usings_append, List.length_append]
      simp only [Surroundings.withDirective, Directive.outline, List.length_singleton]
      omega
  | block name inner rest ihInner ihRest =>
      rw [after, ihRest, outline, Skeleton.usings_append, Skeleton.usings_append,
        List.length_append, List.length_append]
      simp only [Surroundings.resume, ihInner, Surroundings.enter, Surroundings.skip,
        List.length_nil]
      omega
  | type head rest ih =>
      rw [after, ih, outline, Skeleton.usings_append]
      rfl
  | typeWith head inner rest ih =>
      rw [after, ih, outline, Skeleton.usings_append, Skeleton.usings_append, (inner.outline_plain span _ _).1]
      rfl

theorem Members.outline_errors (ms : Members) (e : Surroundings) :
    (ms.outline span e).errors = [] := by
  induction ms generalizing e with
  | done => rfl
  | directive d rest ih => exact ih _
  | block name inner rest ihInner ihRest =>
      rw [outline, Skeleton.errors_append, Skeleton.errors_append, ihInner, ihRest]
      rfl
  | type head rest ih => exact ih _
  | typeWith head inner rest ih =>
      rw [outline, Skeleton.errors_append, Skeleton.errors_append, (inner.outline_plain span _ _).2, ih]
      rfl

theorem SourceUnit.outline_errors (u : SourceUnit) : (u.outline span).errors = [] := by
  obtain ⟨ms, fileScoped⟩ := u
  cases fileScoped with
  | none =>
      rw [outline, Skeleton.errors_append, Members.outline_errors]
      rfl
  | some file =>
      rw [outline, Skeleton.errors_append, Members.outline_errors]
      exact file.2.outline_errors span _

end Outline

end Grammar

end GeneratorBench
