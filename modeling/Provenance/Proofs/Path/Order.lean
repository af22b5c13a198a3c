import Mathlib
import Provenance.Path

/-!
The order of paths. Paths are compared by their keys, component by component, and different paths
have different keys, so the order is total.
-/

namespace Provenance.Path

theorem componentKey_injective : Function.Injective componentKey := by
  intro c c' h
  simp only [componentKey] at h
  split at h <;> split at h
  · simp_all
  · simp at h
  · simp at h
  · have hchars : c.toList = c'.toList :=
      List.map_injective_iff.2 (fun _ _ => Char.toNat_inj.1) (List.cons.inj h).2
    exact String.toList_inj.1 hchars

theorem componentKey_ne_root (c : String) : componentKey c ≠ [0] := by
  simp only [componentKey]
  split <;> simp

theorem key_injective : Function.Injective key := by
  rintro ⟨r, cs, hcs⟩ ⟨r', cs', hcs'⟩ h
  have hroot : ∀ ds : List String, [0] ∉ ds.map componentKey := by
    rintro ds hmem
    obtain ⟨c, -, hc⟩ := List.mem_map.1 hmem
    exact componentKey_ne_root c hc
  have hmap := List.map_injective_iff.2 componentKey_injective
  cases r <;> cases r' <;> simp only [key, if_true, Bool.false_eq_true, if_false,
    List.nil_append, List.cons_append] at h
  · rw [mk.injEq]
    exact ⟨rfl, hmap h⟩
  · exact absurd (h ▸ List.mem_cons_self ..) (hroot cs)
  · exact absurd (h ▸ List.mem_cons_self ..) (hroot cs')
  · rw [mk.injEq]
    exact ⟨rfl, hmap (List.cons.inj h).2⟩

instance : IsStrictTotalOrder Path (· < ·) :=
  key_injective.isStrictTotalOrder_onFun (r := (· < ·))

end Provenance.Path
