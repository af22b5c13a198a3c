import Provenance.Path
import Provenance.Proofs.Text.Fields

/-!
The spelling of a path. No component holds a separator, so reading the normal spelling of a path gives
the path back, and different paths are spelled differently.
-/

namespace Provenance

namespace Path

variable {p q : Path}

/-- The components of a path are read back from their joined text. -/
theorem filter_fields_join {cs : List String} (h : ∀ c ∈ cs, IsComponent c) :
    ((Text.fields '/' (Text.join ['/'] (cs.map String.toList))).map String.ofList).filter
      (IsComponent ·) = cs := by
  by_cases hcs : cs = []
  · subst hcs
    decide
  · have hfields : ∀ f ∈ cs.map String.toList, '/' ∉ f := by
      rintro f hf
      obtain ⟨c, hc, rfl⟩ := List.mem_map.1 hf
      exact (h c hc).2.2
    have hmap : (cs.map String.toList).map String.ofList = cs := by simp
    rw [Text.fields_join (by simpa using hcs) hfields, hmap]
    exact List.filter_eq_self.2 fun c hc => decide_eq_true (h c hc)

theorem head?_join_ne {cs : List String} (h : ∀ c ∈ cs, IsComponent c) :
    (Text.join ['/'] (cs.map String.toList)).head? ≠ some '/' := by
  cases cs with
  | nil => simp [Text.join]
  | cons c cs =>
    obtain ⟨hne, -, hslash⟩ := h c (List.mem_cons_self ..)
    rw [List.map_cons, Text.head?_join (by simpa using hne)]
    exact fun hhead => hslash (List.mem_of_mem_head? hhead)

/-- Reading the spelling of a path gives the path. -/
theorem ofString_toString (p : Path) : ofString p.toString = p := by
  obtain ⟨rooted, cs, hcs⟩ := p
  rw [ofString, Path.mk.injEq, toString, String.toList_ofList]
  cases rooted with
  | false =>
    refine ⟨?_, filter_fields_join hcs⟩
    exact decide_eq_false (head?_join_ne hcs)
  | true =>
    refine ⟨rfl, ?_⟩
    -- the leading separator cuts off an empty field, which is dropped
    have hroot (x : List Char) : Text.fields '/' ('/' :: x) = [] :: Text.fields '/' x := by
      rw [Text.fields, if_pos rfl]
    have hempty (fs : List String) :
        (String.ofList [] :: fs).filter (IsComponent ·) = fs.filter (IsComponent ·) :=
      List.filter_cons_of_neg (by decide)
    rw [if_pos rfl, List.singleton_append, hroot, List.map_cons, hempty]
    exact filter_fields_join hcs

theorem toString_injective : Function.Injective toString :=
  Function.LeftInverse.injective ofString_toString

end Path

end Provenance
