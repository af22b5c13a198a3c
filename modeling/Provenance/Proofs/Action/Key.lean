import Provenance.Action.Key
import Provenance.Proofs.Delimited
import Provenance.Proofs.Label
import Provenance.Proofs.Path.Spelling
import Provenance.Proofs.Text.Bytes

/-!
The bytes behind the key of an action. Each part of them tells where it ends, a text by its count, a
list by the number of its texts and an owner by the byte in front of it. So they can be read back from
left to right, whatever the fields hold, and nothing of the action is lost but the placeholder marks of
its artifacts.
-/

namespace Provenance

/-- The bytes of a text are those of its characters. -/
theorem utf8_eq_flatMap (s : String) : utf8 s = s.toList.flatMap String.utf8EncodeChar :=
  Text.toUTF8_toList s

theorem utf8_injective : Function.Injective utf8 := by
  intro s t h
  rw [utf8_eq_flatMap, utf8_eq_flatMap, ← List.toByteArray_inj] at h
  rw [← String.toByteArray_inj, ← String.utf8Encode_toList, ← String.utf8Encode_toList]
  exact h

/-- The bytes of a decimal number are told from the colon behind them. -/
theorem colon_not_mem_utf8_toString (n : Nat) : (58 : UInt8) ∉ utf8 (toString n) := by
  rw [utf8_eq_flatMap, List.mem_flatMap]
  rintro ⟨c, hc, hmem⟩
  rw [Nat.toString_eq_ofList_toDigits, String.toList_ofList] at hc
  have hdigit := Nat.isDigit_of_mem_toDigits (by omega) (by omega) hc
  have hrange : 48 ≤ c.toNat ∧ c.toNat ≤ 57 := by
    simpa [Char.isDigit, UInt32.le_iff_toNat_le] using hdigit
  have hbyte : 58 = c.toNat ∨ 128 ≤ 58 ∧ 128 ≤ c.toNat := Text.toNat_of_mem_utf8EncodeChar hmem
  omega

theorem utf8_toString_injective : Function.Injective fun n : Nat => utf8 (toString n) :=
  fun _ _ h => Nat.repr_injective (utf8_injective h)

theorem sized_append (bytes rest : List UInt8) :
    sized bytes ++ rest = utf8 (toString bytes.length) ++ 58 :: (bytes ++ rest) := by
  have hcount : utf8 s!"{bytes.length}:" = utf8 (toString bytes.length) ++ [58] := by
    change utf8 (toString bytes.length ++ ":") = _
    rw [utf8_eq_flatMap, String.toList_append, List.flatMap_append, ← utf8_eq_flatMap]
    rfl
  rw [sized, hcount, List.append_assoc, List.append_assoc, List.singleton_append]

/-- Bytes behind their count tell where they end. -/
theorem delimited_sized : Delimited sized := by
  intro x y s t h
  rw [sized_append, sized_append] at h
  obtain ⟨hcount, hbytes⟩ :=
    append_cons_inj (colon_not_mem_utf8_toString _) (colon_not_mem_utf8_toString _) h
  exact List.append_inj hbytes (utf8_toString_injective hcount)

theorem delimited_sized_utf8 : Delimited (sized ∘ utf8) := delimited_sized.comp utf8_injective

/-- A list behind the number of its texts tells where it ends. -/
theorem delimited_sizedList (tag : String) : Delimited (sizedList tag) := by
  intro xs ys s t h
  simp only [sizedList, List.append_assoc] at h
  obtain ⟨hcount, hrest⟩ := delimited_sized (List.append_cancel_left h)
  exact delimited_sized_utf8.flatMap_append_inj (utf8_toString_injective hcount) hrest

theorem Indirection.mark_injective : Function.Injective Indirection.mark := by
  intro x y h
  cases x <;> cases y <;> first | rfl | exact absurd (utf8_injective h) (by decide)

/-- Different digests are written differently. -/
theorem Sha256.hex_injective : Function.Injective Sha256.hex := by
  have hdigit : ∀ m < 16, ∀ n < 16, Nat.digitChar m = Nat.digitChar n → m = n := by decide
  have hbyte : Delimited fun b : UInt8 =>
      [Nat.digitChar (b.toNat / 16), Nat.digitChar (b.toNat % 16)] := by
    refine Delimited.of_length (fun b c h => ?_) fun _ _ => rfl
    simp only [List.cons.injEq, and_true] at h
    have hb := b.toNat_lt
    have hc := c.toNat_lt
    have hhigh := hdigit _ (by omega) _ (by omega) h.1
    have hlow := hdigit _ (by omega) _ (by omega) h.2
    rw [← UInt8.toNat_inj]
    omega
  intro d e h
  exact hbyte.flatMap_injective (fun _ => List.cons_ne_nil _ _) (String.ofList_injective h)

namespace Action

/-- The byte in front tells whether there is an owner. -/
theorem delimited_ownerBytes : Delimited ownerBytes := by
  have habsent (l : Label) (s t : List UInt8) :
      ownerBytes (some l) ++ s ≠ ownerBytes .none ++ t := by
    intro h
    have hbyte := congrArg List.head? h
    have hone : utf8 "1" = [49] := by decide +kernel
    have hzero : utf8 "0" = [48] := by decide +kernel
    simp [ownerBytes, hone, hzero] at hbyte
  intro x y s t h
  cases x with
  | none =>
    cases y with
    | none => exact ⟨rfl, List.append_cancel_left h⟩
    | some m => exact absurd h.symm (habsent m t s)
  | some l =>
    cases y with
    | none => exact absurd h (habsent l s t)
    | some m =>
      simp only [ownerBytes, List.append_assoc] at h
      obtain ⟨hlabel, hrest⟩ := delimited_sized_utf8 (List.append_cancel_left h)
      rw [Label.toString_injective hlabel]
      exact ⟨rfl, hrest⟩

/-- The bytes of two actions are the same exactly if the actions agree in everything but the
placeholder marks of their artifacts. -/
theorem keyBytes_eq_iff {a b : Action} :
    a.keyBytes = b.keyBytes ↔ a.mnemonic = b.mnemonic ∧ a.owner = b.owner ∧
      a.arguments = b.arguments ∧ a.inputPaths = b.inputPaths ∧ a.outputPaths = b.outputPaths ∧
      a.indirection = b.indirection := by
  have hpaths : Function.Injective (List.map Path.toString) :=
    List.map_injective_iff.2 Path.toString_injective
  constructor
  · intro h
    simp only [keyBytes, List.append_assoc] at h
    obtain ⟨hmnemonic, h⟩ := delimited_sized_utf8 (List.append_cancel_left h)
    obtain ⟨howner, h⟩ := delimited_ownerBytes h
    obtain ⟨harguments, h⟩ := delimited_sizedList _ h
    obtain ⟨hinputs, h⟩ := delimited_sizedList _ h
    obtain ⟨houtputs, h⟩ := delimited_sizedList _ h
    exact ⟨hmnemonic, howner, harguments, hpaths hinputs, hpaths houtputs,
      Indirection.mark_injective h⟩
  · rintro ⟨hmnemonic, howner, harguments, hinputs, houtputs, hindirection⟩
    rw [keyBytes, keyBytes, hmnemonic, howner, harguments, hinputs, houtputs, hindirection]

end Action

end Provenance
