/-!
Texts cut at separators. A text always has one field more than it has separators, so nothing but
the separators is lost (`intercalate_fields`).
-/

namespace GeneratorBench.Text

def fields (isSep : Char → Bool) : List Char → List (List Char)
  | [] => [[]]
  | c :: cs =>
    if isSep c then [] :: fields isSep cs
    else (c :: (fields isSep cs).headD []) :: (fields isSep cs).tail

theorem fields_ne_nil (isSep : Char → Bool) (cs : List Char) : fields isSep cs ≠ [] := by
  cases cs <;> simp only [fields] <;> try split
  all_goals simp

theorem length_fields (isSep : Char → Bool) (cs : List Char) :
    (fields isSep cs).length = cs.countP isSep + 1 := by
  induction cs with
  | nil => rfl
  | cons c cs ih => by_cases h : isSep c <;> simp [fields, h, ih]

theorem intercalate_fields (sep : Char) (cs : List Char) :
    [sep].intercalate (fields (· == sep) cs) = cs := by
  induction cs with
  | nil => rfl
  | cons c cs ih =>
    obtain ⟨f, fs, hf⟩ := List.exists_cons_of_ne_nil (fields_ne_nil (· == sep) cs)
    rw [hf] at ih
    by_cases h : c = sep
    · subst h
      simp only [fields, hf, beq_self_eq_true, if_true]
      rw [← ih]
      rfl
    · simp only [fields, hf, beq_iff_eq, h, if_false, List.headD_cons, List.tail_cons]
      rw [← ih]
      cases fs <;> rfl

theorem fields_append (sep : Char) (cs ds : List Char) :
    fields (· == sep) (cs ++ sep :: ds) = fields (· == sep) cs ++ fields (· == sep) ds := by
  induction cs with
  | nil => simp [fields]
  | cons c cs ih =>
      obtain ⟨f, fs, hf⟩ := List.exists_cons_of_ne_nil (fields_ne_nil (· == sep) cs)
      rw [List.cons_append, fields, fields, ih, hf]
      split
      · rfl
      · rfl

theorem not_mem_of_mem_fields (sep : Char) (cs : List Char) :
    ∀ field ∈ fields (· == sep) cs, sep ∉ field := by
  induction cs with
  | nil => simp [fields]
  | cons c cs ih =>
      obtain ⟨f, fs, hf⟩ := List.exists_cons_of_ne_nil (fields_ne_nil (· == sep) cs)
      rw [hf] at ih
      rw [fields, hf]
      split
      · exact List.forall_mem_cons.2 ⟨List.not_mem_nil, ih⟩
      · rename_i hc
        obtain ⟨hfirst, hrest⟩ := List.forall_mem_cons.1 ih
        refine List.forall_mem_cons.2 ⟨fun hmem => ?_, hrest⟩
        obtain rfl | hmem := List.mem_cons.1 hmem
        · exact hc (beq_self_eq_true sep)
        · exact hfirst hmem

theorem fields_of_not_mem {sep : Char} {cs : List Char} (h : sep ∉ cs) : fields (· == sep) cs = [cs] := by
  have hlength : (fields (· == sep) cs).length = 1 := by
    rw [length_fields, ← List.count, List.count_eq_zero_of_not_mem h]
  obtain ⟨field, hfield⟩ := List.length_eq_one_iff.1 hlength
  have hjoin := intercalate_fields sep cs
  rw [hfield, List.intercalate_singleton] at hjoin
  rw [hfield, hjoin]

/-- What was joined is found again, if it holds no separator. -/
theorem fields_intercalate {sep : Char} {ls : List (List Char)} (hne : ls ≠ []) (h : ∀ l ∈ ls, sep ∉ l) :
    fields (· == sep) ([sep].intercalate ls) = ls := by
  induction ls with
  | nil => exact absurd rfl hne
  | cons l ls ih =>
      obtain ⟨hl, hls⟩ := List.forall_mem_cons.1 h
      cases ls with
      | nil => rw [List.intercalate_singleton, fields_of_not_mem hl]
      | cons l' ls =>
          rw [List.intercalate_cons_cons, List.append_assoc, List.singleton_append, fields_append,
            fields_of_not_mem hl, ih (List.cons_ne_nil _ _) hls, List.singleton_append]

def splitAt (sep : Char) (text : String) : List String :=
  (fields (· == sep) text.toList).map .ofList

theorem splitAt_ne_nil (sep : Char) (text : String) : splitAt sep text ≠ [] := by
  rw [splitAt, Ne, List.map_eq_nil_iff]
  exact fields_ne_nil _ _

theorem intercalate_splitAt (sep : Char) (text : String) :
    (String.singleton sep).intercalate (splitAt sep text) = text := by
  rw [← String.toList_inj, String.toList_intercalate, String.toList_singleton, splitAt,
    List.map_map]
  have same : String.toList ∘ String.ofList = id := funext fun _ => String.toList_ofList
  rw [same, List.map_id, intercalate_fields]

theorem splitAt_append (outer tail : String) :
    splitAt '.' (outer ++ "." ++ tail) = splitAt '.' outer ++ splitAt '.' tail := by
  have htext : (outer ++ "." ++ tail).toList = outer.toList ++ '.' :: tail.toList := by simp
  rw [splitAt, htext, fields_append, List.map_append]
  rfl

theorem splitAt_of_not_mem {sep : Char} {text : String} (h : sep ∉ text.toList) : splitAt sep text = [text] := by
  rw [splitAt, fields_of_not_mem h, List.map_singleton, String.ofList_toList]

/-- The last part of a path; none if the path ends with a separator. -/
def fileName? (path : String) : Option String :=
  let name := (fields (fun c => c == '/' || c == '\\') path.toList).getLastD []
  if name.isEmpty then none else some (.ofList name)

end GeneratorBench.Text
