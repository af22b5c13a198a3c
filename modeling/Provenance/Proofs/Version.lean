import Provenance.Proofs.Checks
import Provenance.Version

/-!
Versions have one written form. Each part of a version is read off the front of a text without anything
being lost: a number has no leading zero, and a part behind a mark is not empty. So the text that a
version was read from is the text that it is written as.
-/

namespace Provenance.Version

open Checks

variable {part before last : Part} {mark c : Char} {cs r text current : List Char} {value n : Nat}
  {v : Version} {s : String}

theorem digitValue_lt (h : c.isDigit) : c.toNat - '0'.toNat < 10 := by
  have hhigh := (Char.isDigit_iff_toNat.1 h).2
  simp only [Char.reduceToNat] at hhigh ⊢
  omega

theorem digitChar_of_isDigit (h : c.isDigit) : Nat.digitChar (c.toNat - '0'.toNat) = c := by
  have hlow := (Char.isDigit_iff_toNat.1 h).1
  rw [← Char.toNat_inj, Nat.toNat_digitChar_of_lt_ten (digitValue_lt h)]
  simp only [Char.reduceToNat] at hlow ⊢
  omega

theorem toDigits_of_isDigit (h : c.isDigit) : Nat.toDigits 10 (c.toNat - '0'.toNat) = [c] := by
  rw [Nat.toDigits_of_lt_base (digitValue_lt h), digitChar_of_isDigit h]

/-- One more digit behind a number that is not zero. -/
theorem toDigits_concat (hvalue : 0 < value) (hc : c.isDigit) :
    Nat.toDigits 10 (10 * value + (c.toNat - '0'.toNat)) = Nat.toDigits 10 value ++ [c] := by
  rw [← Nat.toDigits_append_toDigits (by decide) hvalue (digitValue_lt hc), toDigits_of_isDigit hc]

/-- The digits that are read continue those of the value so far. -/
theorem append_of_digits (hvalue : 0 < value) (h : digits part value cs = .ok (n, r)) :
    Nat.toDigits 10 value ++ cs = Nat.toDigits 10 n ++ r := by
  induction cs generalizing value with
  | nil =>
    cases h
    rfl
  | cons c cs ih =>
    rw [digits] at h
    split at h
    · rename_i hc
      dsimp only at h
      split at h
      · have hrest := ih (by omega) h
        rw [toDigits_concat hvalue hc, List.append_assoc, List.singleton_append] at hrest
        exact hrest
      · cases h
    · cases h
      rfl

theorem eq_append_of_number (h : number part cs = .ok (n, r)) : cs = Nat.toDigits 10 n ++ r := by
  unfold number at h
  split at h
  · cases h
  · split at h
    · cases h
    · cases h
      rfl
  · rename_i c cs hzero
    split at h
    · rename_i hc
      -- the first digit is not zero, so the value is not either from here on
      have hvalue : 0 < c.toNat - '0'.toNat := by
        have hlow := (Char.isDigit_iff_toNat.1 hc).1
        have hne : c.toNat ≠ '0'.toNat := fun heq => hzero (Char.toNat_inj.1 heq)
        omega
      rw [digits, if_pos hc] at h
      dsimp only at h
      rw [Nat.mul_zero, Nat.zero_add] at h
      split at h
      · rw [← append_of_digits hvalue h, toDigits_of_isDigit hc]
        rfl
      · cases h
    · cases h

theorem eq_cons_of_dot (h : dot part cs = .ok r) : cs = '.' :: r := by
  unfold dot at h
  split at h
  · cases h
  · cases h
    rfl
  · cases h

/-- Nothing is lost of the identifiers, and the first of them is not empty. -/
theorem eq_append_of_identifiers (h : identifiers part current cs = .ok (text, r)) :
    cs = text ++ r ∧ (current = [] → text ≠ []) := by
  induction cs generalizing current text with
  | nil =>
    rw [identifiers] at h
    split at h
    · cases h
    · split at h
      · cases h
      · cases h
        exact ⟨rfl, fun hnil => absurd hnil (by assumption)⟩
  | cons c cs ih =>
    -- a character that is read, in the same identifier or between two of them
    have hread : ∀ {next read}, identifiers part next cs = .ok (read, r) →
        c :: cs = c :: read ++ r ∧ (current = [] → c :: read ≠ []) := by
      intro next read hrest
      rw [(ih hrest).1, List.cons_append]
      exact ⟨rfl, fun _ => List.cons_ne_nil _ _⟩
    rw [identifiers] at h
    split at h
    · obtain ⟨⟨read, rest⟩, hrest, h⟩ := bind_eq_ok.1 h
      cases h
      exact hread hrest
    · split at h
      · cases h
      · split at h
        · cases h
        · split at h
          · obtain ⟨⟨read, rest⟩, hrest, h⟩ := bind_eq_ok.1 h
            cases h
            exact hread hrest
          · cases h
            exact ⟨rfl, fun hnil => absurd hnil (by assumption)⟩

/-- A part as it is written, behind its mark, or nothing where there is none. -/
def marked (mark : Char) (text : List Char) : List Char := if text = [] then [] else mark :: text

theorem eq_append_of_optionalPart (h : optionalPart part before mark cs = .ok (text, last, r)) :
    cs = marked mark text ++ r := by
  unfold optionalPart at h
  split at h
  · split at h
    · rename_i hmark
      obtain ⟨⟨read, rest⟩, hread, h⟩ := bind_eq_ok.1 h
      cases h
      obtain ⟨happend, hne⟩ := eq_append_of_identifiers hread
      rw [marked, if_neg (hne rfl), hmark, happend, List.cons_append]
    · cases h
      rfl
  · cases h
    rfl

theorem toList_toString (v : Version) : v.toString.toList =
    Nat.toDigits 10 v.major ++ '.' :: (Nat.toDigits 10 v.minor ++ '.' :: (Nat.toDigits 10 v.patch ++
      (marked '-' v.preRelease ++ marked '+' v.build))) := by
  have hdot : (ToString.toString ".").toList = ['.'] := rfl
  simp [toString, marked, hdot]

/-- The text that a version was read from is the one that it is written as. -/
theorem toString_of_parse (h : parse s = .ok v) : v.toString = s := by
  unfold parse at h
  split at h
  · cases h
  · obtain ⟨⟨major, r₁⟩, hmajor, h⟩ := bind_eq_ok.1 h
    obtain ⟨r₂, hdot, h⟩ := bind_eq_ok.1 h
    obtain ⟨⟨minor, r₃⟩, hminor, h⟩ := bind_eq_ok.1 h
    obtain ⟨r₄, hdot', h⟩ := bind_eq_ok.1 h
    obtain ⟨⟨patch, r₅⟩, hpatch, h⟩ := bind_eq_ok.1 h
    obtain ⟨⟨preRelease, last, r₆⟩, hpre, h⟩ := bind_eq_ok.1 h
    obtain ⟨⟨build, last', r₇⟩, hbuild, h⟩ := bind_eq_ok.1 h
    dsimp only at hdot hminor hdot' hpatch hpre hbuild h
    split at h
    · cases h
      rw [← String.toList_inj, toList_toString, eq_append_of_number hmajor, eq_cons_of_dot hdot,
        eq_append_of_number hminor, eq_cons_of_dot hdot', eq_append_of_number hpatch,
        eq_append_of_optionalPart hpre, eq_append_of_optionalPart hbuild, List.append_nil]
    · cases h

end Provenance.Version
