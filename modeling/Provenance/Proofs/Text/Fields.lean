import Mathlib
import Provenance.Text.Fields

/-!
Cutting a text and joining its pieces. Fields that hold no separator come back when they are joined and
cut again, and the fields of a text give it back when they are joined. A text is cut at its first
separator.
-/

namespace Provenance.Text

variable {sep : Char} {s a b : List Char}

/-- To cut a text is to split the list of its characters. -/
theorem fields_eq_splitOn (sep : Char) (s : List Char) : fields sep s = s.splitOn sep := by
  induction s with
  | nil => rw [fields, List.splitOn_nil]
  | cons c r ih =>
    obtain ⟨f, fs, hfields⟩ := List.exists_cons_of_ne_nil (fields_ne_nil sep r)
    rw [fields, List.splitOn_cons_eq_if_modifyHead, ← ih, hfields]
    by_cases hc : c = sep
    · simp [hc]
    · simp [hc]

theorem join_eq_intercalate (sep : List Char) : ∀ fs : List (List Char),
    join sep fs = sep.intercalate fs
  | [] => rfl
  | [f] => by simp [join]
  | f :: g :: fs => by
    rw [join, join_eq_intercalate sep (g :: fs)]
    simp

theorem fields_append (rest : List Char) {f : List Char} (h : sep ∉ f) :
    fields sep (f ++ [sep] ++ rest) = f :: fields sep rest := by
  rw [fields_eq_splitOn, fields_eq_splitOn, List.append_assoc, List.singleton_append,
    List.splitOn_append_cons_self_of_not_mem h]

/-- Joined fields without a separator are cut into the same fields. -/
theorem fields_join {fs : List (List Char)} (hfs : fs ≠ []) (h : ∀ f ∈ fs, sep ∉ f) :
    fields sep (join [sep] fs) = fs := by
  rw [fields_eq_splitOn, join_eq_intercalate, List.splitOn_intercalate sep h hfs]

/-- Lines with their ends are cut into the lines, with nothing behind the last end. -/
theorem fields_flatMap_concat : ∀ {fs : List (List Char)}, (∀ f ∈ fs, sep ∉ f) →
    fields sep (fs.flatMap (· ++ [sep])) = fs ++ [[]]
  | [], _ => rfl
  | f :: fs, h => by
    obtain ⟨hf, hfs⟩ := List.forall_mem_cons.1 h
    rw [List.flatMap_cons, fields_append _ hf, fields_flatMap_concat hfs, List.cons_append]

/-- Joined texts start as the first of them does. -/
theorem head?_join {sep f : List Char} (hf : f ≠ []) (fs : List (List Char)) :
    (join sep (f :: fs)).head? = f.head? := by
  cases fs with
  | nil => rfl
  | cons g fs => rw [join, List.append_assoc, List.head?_append_of_ne_nil _ hf]

theorem join_cons (sep f : List Char) {fs : List (List Char)} (hfs : fs ≠ []) :
    join sep (f :: fs) = f ++ sep ++ join sep fs := by
  obtain ⟨g, gs, rfl⟩ := List.exists_cons_of_ne_nil hfs
  rw [join]

/-- Behind the first text, the separator stands in front of each other one. -/
theorem join_cons_eq_flatMap (sep : List Char) : ∀ (f : List Char) (fs : List (List Char)),
    join sep (f :: fs) = f ++ fs.flatMap (sep ++ ·)
  | f, [] => by rw [join, List.flatMap_nil, List.append_nil]
  | f, g :: fs => by
    rw [join_cons _ _ (List.cons_ne_nil g fs), join_cons_eq_flatMap sep g fs, List.flatMap_cons]
    simp only [List.append_assoc]

/-- Fields joined by the separator they were cut at give the text back. -/
theorem join_fields (sep : Char) (s : List Char) : join [sep] (fields sep s) = s := by
  rw [join_eq_intercalate, fields_eq_splitOn, List.intercalate_splitOn]

/-- There is nothing to trim from a text that does not end in the character. -/
theorem trimEnd_of_getLast?_ne {c : Char} (h : s.getLast? ≠ some c) : trimEnd c s = s := by
  rw [← List.head?_reverse] at h
  rw [trimEnd, List.reverse_eq_iff]
  cases hs : s.reverse with
  | nil => rfl
  | cons d r =>
    have hd : d ≠ c := by
      rintro rfl
      exact h (by simp [hs])
    simp [hd]

/-- A text is cut at the first separator in it. -/
theorem cut_append (b : List Char) : ∀ {a : List Char}, sep ∉ a → cut sep (a ++ sep :: b) = some (a, b)
  | [], _ => by rw [List.nil_append, cut, if_pos rfl]
  | c :: a, h => by
    rw [List.mem_cons, not_or] at h
    rw [List.cons_append, cut, if_neg (Ne.symm h.1), cut_append b h.2]
    rfl

theorem eq_append_of_cut (h : cut sep s = some (a, b)) : s = a ++ sep :: b := by
  induction s generalizing a with
  | nil => cases h
  | cons c r ih =>
    rw [cut] at h
    split at h
    · rename_i hc
      cases h
      rw [hc, List.nil_append]
    · obtain ⟨⟨x, y⟩, hxy, hab⟩ := Option.map_eq_some_iff.1 h
      cases hab
      rw [ih hxy, List.cons_append]

end Provenance.Text
