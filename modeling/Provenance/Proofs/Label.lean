import Provenance.Label
import Provenance.Proofs.Text.Fields

/-!
The display form of a label. It is cut at its first colon, since no package holds one, and the package
is not trimmed any further. So reading the display form gives the label, and with it every pair of a
trimmed package without a colon and a name is the label of some text.
-/

namespace Provenance.Label

variable {l : Label} {text : String}

theorem toList_toString (l : Label) :
    l.toString.toList = '/' :: '/' :: (l.package.toList ++ ':' :: l.name.toList) := by
  simp [toString]

/-- The parts of a label make up the label. -/
theorem build?_parts (l : Label) :
    build? l.package.toList l.name.toList l.colon_not_mem = some l := by
  have hname : l.name.toList ≠ [] := by simpa using l.name_ne
  rw [build?, dif_neg hname]
  simp [Text.trimEnd_of_getLast?_ne l.package_trimmed]

/-- A text with a colon is read as the parts on the two sides of the first one. -/
theorem parse_of_cut {rest package name : List Char} (htext : text.toList = '/' :: '/' :: rest)
    (hcut : Text.cut ':' rest = some (package, name))
    (hbuild : build? package name (Text.not_mem_cut_fst hcut) = some l) : parse text = .ok l := by
  rw [parse]
  simp only [htext]
  split
  · rename_i h
    split at h
    · rename_i hrest
      cases hrest.symm.trans hcut
      exact congrArg Except.ok (Option.some.inj (h.symm.trans hbuild))
    · rename_i hrest
      cases hrest.symm.trans hcut
  · rename_i h
    split at h
    · rename_i hrest
      cases hrest.symm.trans hcut
      cases h.symm.trans hbuild
    · rename_i hrest
      cases hrest.symm.trans hcut

/-- Reading the display form of a label gives the label. -/
theorem parse_toString (l : Label) : parse l.toString = .ok l :=
  parse_of_cut l.toList_toString (Text.cut_append l.name.toList l.colon_not_mem) l.build?_parts

theorem toString_injective : Function.Injective toString := by
  intro l m h
  have hparse := congrArg parse h
  rw [parse_toString, parse_toString] at hparse
  exact Except.ok.inj hparse

/-- The labels of texts are all pairs of a package that has no colon and does not end in a separator,
and a name that is not empty. -/
theorem exists_parse_iff {package name : String} :
    (∃ text l, parse text = .ok l ∧ l.package = package ∧ l.name = name) ↔
      ':' ∉ package.toList ∧ package.toList.getLast? ≠ some '/' ∧ name ≠ "" := by
  constructor
  · rintro ⟨-, l, -, rfl, rfl⟩
    exact ⟨l.colon_not_mem, l.package_trimmed, l.name_ne⟩
  · rintro ⟨hcolon, htrimmed, hname⟩
    let l : Label := ⟨package, name, hcolon, htrimmed, hname⟩
    exact ⟨l.toString, l, parse_toString l, rfl, rfl⟩

end Provenance.Label
