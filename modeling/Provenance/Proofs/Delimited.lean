import Mathlib

/-!
Codes that tell where they end. What is written in such a code can be told from whatever is written
after it, so values written one after the other are read back one after the other. A list is read back
if its length is known, if nothing is written after it, or up to a mark that no entry starts with.
-/

namespace Provenance

variable {α β γ : Type} {code : α → List β}

/-- Texts up to the first mark are told apart, and what follows the mark. -/
theorem append_cons_inj {mark : β} : ∀ {s t u v : List β}, mark ∉ s → mark ∉ t →
    s ++ mark :: u = t ++ mark :: v → s = t ∧ u = v
  | [], [], _, _, _, _, h => ⟨rfl, (List.cons.inj h).2⟩
  | [], _ :: _, _, _, _, ht, h => absurd ((List.cons.inj h).1 ▸ List.mem_cons_self ..) ht
  | _ :: _, [], _, _, hs, _, h => absurd ((List.cons.inj h).1 ▸ List.mem_cons_self ..) hs
  | _ :: s, _ :: t, _, _, hs, ht, h => by
    obtain ⟨rfl, hrest⟩ := List.cons.inj h
    obtain ⟨rfl, rfl⟩ := append_cons_inj (List.not_mem_of_not_mem_cons hs)
      (List.not_mem_of_not_mem_cons ht) hrest
    exact ⟨rfl, rfl⟩

/-- What the code of a value is followed by has no part in which value it is read as. -/
def Delimited (code : α → List β) : Prop :=
  ∀ ⦃x y : α⦄ ⦃s t : List β⦄, code x ++ s = code y ++ t → x = y ∧ s = t

namespace Delimited

/-- Codes of one length need only tell their values apart. -/
theorem of_length (hinj : Function.Injective code) (hlength : ∀ x y, (code x).length = (code y).length) :
    Delimited code := by
  intro x y s t h
  obtain ⟨hcode, hrest⟩ := List.append_inj h (hlength x y)
  exact ⟨hinj hcode, hrest⟩

/-- A code is told from what follows it, if some reader tells it. -/
theorem of_read {read : List β → Option (α × List β)}
    (hread : ∀ x s, read (code x ++ s) = some (x, s)) : Delimited code := by
  intro x y s t h
  have hsame : some (x, s) = some (y, t) := by rw [← hread x s, h, hread]
  exact Prod.mk.inj (Option.some.inj hsame)

theorem injective (h : Delimited code) : Function.Injective code := by
  intro x y hxy
  exact (h (s := []) (t := []) (by rw [hxy])).1

/-- A code may stand between fixed texts. -/
theorem between (h : Delimited code) (before after : List β) :
    Delimited fun x => before ++ code x ++ after := by
  intro x y s t hxy
  simp only [List.append_assoc] at hxy
  obtain ⟨rfl, hrest⟩ := h (List.append_cancel_left hxy)
  exact ⟨rfl, List.append_cancel_left hrest⟩

theorem comp (h : Delimited code) {f : γ → α} (hf : Function.Injective f) :
    Delimited (code ∘ f) := by
  intro x y s t hxy
  obtain ⟨hvalue, hrest⟩ := h hxy
  exact ⟨hf hvalue, hrest⟩

/-- Lists of one length are read back entry by entry. -/
theorem flatMap_append_inj (h : Delimited code) : ∀ {xs ys : List α} {s t : List β},
    xs.length = ys.length → xs.flatMap code ++ s = ys.flatMap code ++ t → xs = ys ∧ s = t
  | [], [], _, _, _, heq => ⟨rfl, heq⟩
  | [], _ :: _, _, _, hlength, _ => nomatch hlength
  | _ :: _, [], _, _, hlength, _ => nomatch hlength
  | x :: xs, y :: ys, s, t, hlength, heq => by
    rw [List.flatMap_cons, List.flatMap_cons, List.append_assoc, List.append_assoc] at heq
    obtain ⟨rfl, hrest⟩ := h heq
    obtain ⟨rfl, rfl⟩ := h.flatMap_append_inj (Nat.succ.inj hlength) hrest
    exact ⟨rfl, rfl⟩

/-- A list is read back from its whole code, if no entry has an empty one. -/
theorem flatMap_injective (h : Delimited code) (hne : ∀ x, code x ≠ []) :
    Function.Injective fun xs : List α => xs.flatMap code := by
  intro xs
  induction xs with
  | nil =>
    intro ys heq
    cases ys with
    | nil => rfl
    | cons y ys => simp [eq_comm, hne] at heq
  | cons x xs ih =>
    intro ys heq
    cases ys with
    | nil => simp [hne] at heq
    | cons y ys =>
      simp only [List.flatMap_cons] at heq
      obtain ⟨rfl, hrest⟩ := h heq
      rw [ih hrest]

/-- A list is read back up to a mark that no entry starts with. -/
theorem flatMap_mark (h : Delimited code) {mark : β} (hstart : ∀ x, ∃ b ∈ (code x).head?, b ≠ mark) :
    Delimited fun xs : List α => xs.flatMap code ++ [mark] := by
  have hentry : ∀ x xs s t, (x :: xs).flatMap code ++ [mark] ++ s ≠ [mark] ++ t := by
    intro x xs s t heq
    obtain ⟨b, hb, hne⟩ := hstart x
    obtain ⟨rest, hrest⟩ := List.head?_eq_some_iff.1 hb
    rw [List.flatMap_cons, hrest] at heq
    exact hne (List.cons.inj heq).1
  intro xs
  induction xs with
  | nil =>
    intro ys s t heq
    cases ys with
    | nil => exact ⟨rfl, List.append_cancel_left heq⟩
    | cons y ys => exact absurd heq.symm (hentry y ys t s)
  | cons x xs ih =>
    intro ys s t heq
    cases ys with
    | nil => exact absurd heq (hentry x xs s t)
    | cons y ys =>
      simp only [List.flatMap_cons, List.append_assoc] at heq
      obtain ⟨rfl, hrest⟩ := h heq
      obtain ⟨rfl, rfl⟩ := ih (by simpa only [List.append_assoc] using hrest)
      exact ⟨rfl, rfl⟩

end Delimited

end Provenance
