import GeneratorBench.Text.Line
import Mathlib.Algebra.Group.Nat.Defs
import Mathlib.Data.List.Forall2
import Mathlib.Order.Bounds.Defs

/-!
Texts with their lines numbered. All numbers have one width, the least in which the last one can be written, so
what stands behind them is found again by cutting every line at the same place.
-/

namespace GeneratorBench.Text

theorem length_toDigits (n : Nat) : (Nat.toDigits 10 n).length = decimalWidth n := by
  induction n using decimalWidth.induct with
  | case1 n h =>
      rw [Nat.toDigits_of_lt_base h, decimalWidth, if_pos h]
      rfl
  | case2 n h ih =>
      have hwidth : decimalWidth n = decimalWidth (n / 10) + 1 := by rw [decimalWidth, if_neg h]
      rw [Nat.toDigits_of_base_le (by decide) (Nat.not_lt.1 h), List.length_append, ih, hwidth]
      rfl

theorem decimalWidth_le_iff {n width : Nat} (h : 0 < width) : decimalWidth n ≤ width ↔ n < 10 ^ width := by
  rw [← length_toDigits, Nat.length_toDigits_le_iff (by decide) h]

theorem decimalWidth_pos (n : Nat) : 0 < decimalWidth n := by
  rw [← length_toDigits]
  exact Nat.length_toDigits_pos

theorem isLeast_lineNumberWidth (count : Nat) :
    IsLeast {width | 1 ≤ width ∧ count - 1 < 10 ^ width} (lineNumberWidth count) := by
  have hpos := decimalWidth_pos (count - 1)
  refine ⟨⟨hpos, (decimalWidth_le_iff hpos).1 (Nat.le_refl _)⟩, ?_⟩
  rintro width ⟨hwidth, hfits⟩
  exact (decimalWidth_le_iff hwidth).2 hfits

theorem toList_padded (width n : Nat) :
    (padded width n).toList = List.replicate (width - decimalWidth n) '0' ++ Nat.toDigits 10 n := by
  rw [padded, String.toList_append, String.toList_ofList, Nat.toString_eq_ofList_toDigits, String.toList_ofList]

theorem not_mem_padded (width n : Nat) : '\n' ∉ (padded width n).toList := by
  rw [toList_padded, List.mem_append, not_or]
  constructor
  · intro hmem
    exact absurd (List.eq_of_mem_replicate hmem) (by decide)
  · intro hmem
    exact absurd (Nat.isDigit_of_mem_toDigits (by decide) (by decide) hmem) (by decide)

theorem dropReturn_cases (line : List Char) :
    line = dropReturn line ++ ['\r'] ∨ line = dropReturn line ∧ line.getLast? ≠ some '\r' := by
  by_cases h : line.getLast? = some '\r'
  · obtain ⟨front, rfl⟩ := List.getLast?_eq_some_iff.1 h
    rw [dropReturn, if_pos h, List.dropLast_concat]
    exact .inl rfl
  · rw [dropReturn, if_neg h]
    exact .inr ⟨rfl, h⟩

theorem not_mem_dropReturn {c : Char} {line : List Char} (h : c ∉ line) : c ∉ dropReturn line := by
  obtain hline | ⟨hline, -⟩ := dropReturn_cases line
  · rw [hline, List.mem_append, not_or] at h
    exact h.1
  · rwa [← hline]

/-- A line of a numbered text, made of a line of the text and its index. -/
def numberedChars (width : Nat) (line : List Char × Nat) : List Char :=
  (padded width line.2).toList ++ [' ', '|', ' '] ++ dropReturn line.1

theorem toList_numbered (text : String) :
    let source := fields (· == '\n') text.toList
    (numbered text).toList =
      ['\n'].intercalate (source.zipIdx.map (numberedChars (lineNumberWidth source.length))) := by
  intro source
  have hlength : (lines text).length = source.length := List.length_map _
  have hlines : (lines text).zipIdx = source.zipIdx.map (Prod.map (fun line => .ofList (dropReturn line)) id) :=
    List.zipIdx_map
  rw [numbered, String.toList_intercalate, hlength, hlines, List.map_map, List.map_map]
  refine congrArg _ (List.map_congr_left fun line _ => ?_)
  simp [numberedLine, numberedChars]

theorem fields_numbered (text : String) :
    let source := fields (· == '\n') text.toList
    fields (· == '\n') (numbered text).toList =
      source.zipIdx.map (numberedChars (lineNumberWidth source.length)) := by
  intro source
  have hne : source ≠ [] := fields_ne_nil _ _
  rw [toList_numbered]
  refine fields_intercalate (by simpa using hne) ?_
  rintro _ hmem
  obtain ⟨⟨line, i⟩, hline, rfl⟩ := List.mem_map.1 hmem
  have hsource : line ∈ source := List.fst_mem_of_mem_zipIdx hline
  rw [numberedChars, List.mem_append, List.mem_append, not_or, not_or]
  exact ⟨⟨not_mem_padded _ _, by decide⟩, not_mem_dropReturn (not_mem_of_mem_fields '\n' _ line hsource)⟩

/-- The digits of the index on `width` places, with zeros in front, then a bar, then the line without the
carriage return that may end it. -/
def Shows (width : Nat) (line : List Char × Nat) (shown : List Char) : Prop :=
  ∃ zeros text, zeros + (Nat.toDigits 10 line.2).length = width ∧
    (line.1 = text ++ ['\r'] ∨ line.1 = text ∧ text.getLast? ≠ some '\r') ∧
    shown = List.replicate zeros '0' ++ Nat.toDigits 10 line.2 ++ [' ', '|', ' '] ++ text

variable {width : Nat} {line : List Char × Nat}

theorem shows_numberedChars (h : decimalWidth line.2 ≤ width) : Shows width line (numberedChars width line) := by
  refine ⟨width - decimalWidth line.2, dropReturn line.1, ?_, ?_, ?_⟩
  · rw [length_toDigits, Nat.sub_add_cancel h]
  · obtain hline | ⟨hline, hlast⟩ := dropReturn_cases line.1
    · exact .inl hline
    · rw [← hline]
      exact .inr ⟨rfl, hlast⟩
  · rw [numberedChars, toList_padded]

theorem drop_numberedChars (h : decimalWidth line.2 ≤ width) :
    (numberedChars width line).drop (width + 3) = dropReturn line.1 := by
  have hpadded : (padded width line.2).toList.length = width := by
    rw [toList_padded, List.length_append, List.length_replicate, length_toDigits, Nat.sub_add_cancel h]
  have hfront : ((padded width line.2).toList ++ [' ', '|', ' ']).length = width + 3 := by
    rw [List.length_append, hpadded]
    rfl
  rw [numberedChars, ← hfront, List.drop_left]

/-- A numbered text has as many lines as the text. Each shows its index on as many places as the last index
needs, one at least, and then its line; cut off behind the numbers, the lines of the text are left. -/
theorem numbered_aligned (text : String) :
    let source := fields (· == '\n') text.toList
    let shown := fields (· == '\n') (numbered text).toList
    let width := lineNumberWidth source.length
    (source.length = text.toList.count '\n' + 1 ∧ shown.length = source.length) ∧
      IsLeast {w | 1 ≤ w ∧ source.length - 1 < 10 ^ w} width ∧
      List.Forall₂ (Shows width) source.zipIdx shown ∧
      (shown.map fun line => String.ofList (line.drop (width + 3))) = lines text := by
  intro source shown width
  have hshown : shown = source.zipIdx.map (numberedChars width) := fields_numbered text
  have hleast : IsLeast {w | 1 ≤ w ∧ source.length - 1 < 10 ^ w} width := isLeast_lineNumberWidth _
  have hfits : ∀ line ∈ source.zipIdx, decimalWidth line.2 ≤ width := by
    intro line hline
    have hindex : line.2 < source.length := List.snd_lt_of_mem_zipIdx hline
    refine (decimalWidth_le_iff hleast.1.1).2 (Nat.lt_of_le_of_lt ?_ hleast.1.2)
    omega
  refine ⟨⟨length_fields _ _, ?_⟩, hleast, ?_, ?_⟩
  · rw [hshown, List.length_map, List.length_zipIdx]
  · rw [hshown, List.forall₂_map_right_iff, List.forall₂_same]
    exact fun line hline => shows_numberedChars (hfits line hline)
  · have hcut : (shown.map fun line => String.ofList (line.drop (width + 3))) =
        source.zipIdx.map fun line => .ofList (dropReturn line.1) := by
      rw [hshown, List.map_map]
      refine List.map_congr_left fun line hline => ?_
      rw [Function.comp_apply, drop_numberedChars (hfits line hline)]
    have hlines : (source.zipIdx.map fun line => String.ofList (dropReturn line.1)) =
        (source.zipIdx.map Prod.fst).map fun line => .ofList (dropReturn line) := by
      rw [List.map_map]
      rfl
    rw [hcut, hlines, List.zipIdx_map_fst]
    rfl

end GeneratorBench.Text
