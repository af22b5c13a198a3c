/-!
Cutting a text at a separator. A text with `n` separators has `n + 1` fields, none of which holds
the separator, and writing the separator between the fields gives the text back.
-/

namespace Provenance.Text

/-- The pieces of a text between its separators; a text without one is a single field. -/
def fields (sep : Char) : List Char → List (List Char)
  | [] => [[]]
  | c :: r =>
    if c = sep then [] :: fields sep r
    else match fields sep r with
      | [] => [[c]]
      | f :: fs => (c :: f) :: fs

/-- The part before the first separator and the part after it. -/
def cut (sep : Char) : List Char → Option (List Char × List Char)
  | [] => none
  | c :: r => if c = sep then some ([], r) else (cut sep r).map fun (a, b) => (c :: a, b)

/-- A text without the copies of `c` at its end. -/
def trimEnd (c : Char) (s : List Char) : List Char := (s.reverse.dropWhile (· = c)).reverse

/-- Texts with a separator text between them. -/
def join (sep : List Char) : List (List Char) → List Char
  | [] => []
  | [f] => f
  | f :: g :: fs => f ++ sep ++ join sep (g :: fs)

theorem fields_ne_nil (sep : Char) (s : List Char) : fields sep s ≠ [] := by
  cases s with
  | nil => simp [fields]
  | cons c r => simp only [fields]; split <;> (try split) <;> simp

theorem sep_not_mem_fields {sep : Char} {s f : List Char} (h : f ∈ fields sep s) : sep ∉ f := by
  induction s generalizing f with
  | nil => simp_all [fields]
  | cons c r ih =>
    simp only [fields] at h
    split at h
    · rcases List.mem_cons.1 h with rfl | h
      · simp
      · exact ih h
    · rename_i hc
      split at h
      · rw [List.mem_singleton] at h
        simpa [h] using Ne.symm hc
      · rename_i g gs heq
        rcases List.mem_cons.1 h with rfl | h
        · simpa using ⟨Ne.symm hc, ih (heq ▸ List.mem_cons_self ..)⟩
        · exact ih (heq ▸ List.mem_cons_of_mem _ h)

theorem trimEnd_getLast? (c : Char) (s : List Char) : (trimEnd c s).getLast? ≠ some c := by
  simp only [trimEnd, List.getLast?_reverse]
  intro h
  have := List.head?_dropWhile_not (· = c) s.reverse
  simp_all

theorem trimEnd_subset {c x : Char} {s : List Char} (h : x ∈ trimEnd c s) : x ∈ s := by
  simpa using (List.dropWhile_sublist _).subset (List.mem_reverse.1 h)

theorem not_mem_cut_fst {c : Char} {s a b : List Char} (h : cut c s = some (a, b)) :
    c ∉ a := by
  induction s generalizing a with
  | nil => simp [cut] at h
  | cons d r ih =>
    simp only [cut] at h
    split at h
    · cases h; simp
    · rename_i hd
      obtain ⟨⟨x, y⟩, hxy, he⟩ := Option.map_eq_some_iff.1 h
      cases he
      simpa using ⟨Ne.symm hd, ih hxy⟩

theorem not_mem_of_cut_none {c : Char} {s : List Char} (h : cut c s = none) : c ∉ s := by
  induction s with
  | nil => simp
  | cons d r ih =>
    simp only [cut] at h
    split at h
    · cases h
    · rename_i hd
      simpa using ⟨Ne.symm hd, ih (Option.map_eq_none_iff.1 h)⟩

end Provenance.Text
