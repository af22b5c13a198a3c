import Provenance.Proofs.Matcher.Consumption

/-!
The ledger of a run: which offer consumed which file. Files are conserved: each pending file is
either consumed by one offer or left over at the end, and what is printed are the actions of the
entries that the filter lets through.
-/

namespace Provenance.Matcher

variable {g : Graph} {m : Matcher} {o : Offer} {os : List Offer} {f : String}

/-- The offers of a run that consume a file, each with its file, in order. -/
def ledger (m : Matcher) (g : Graph) : List Offer → List (Offer × String)
  | [] => []
  | o :: os =>
    ((m.consumed? g o).map (o, ·)).toList ++ (m.offer g o.1 (some o.2)).2.ledger g os

theorem ledger_cons_of_none (h : m.consumed? g o = none) :
    m.ledger g (o :: os) = m.ledger g os := by
  rw [ledger, h, offer_of_consumed?_eq_none h]
  rfl

theorem ledger_cons_of_some (h : m.consumed? g o = some f) :
    m.ledger g (o :: os) =
      (o, f) :: ({ m with pending := m.pending.erase f } : Matcher).ledger g os := by
  rw [ledger, h, offer_of_consumed?_eq_some h]
  rfl

/-- What a run prints are the actions of the entries that the filter lets through. -/
theorem run_eq_map_ledger : ∀ (os : List Offer) (m : Matcher),
    (m.run g os).1 = ((m.ledger g os).filter (m.mnemonics.allows ·.1.2)).map (·.1.2)
  | [], _ => rfl
  | o :: os, m => by
    cases h : m.consumed? g o with
    | none => rw [run_cons_of_none h, ledger_cons_of_none h, run_eq_map_ledger os m]
    | some f =>
      rw [run_cons_of_some h, ledger_cons_of_some h]
      simp only [run_eq_map_ledger os, List.filter_cons]
      cases m.mnemonics.allows o.2 with
      | false => rfl
      | true => rfl

/-- Conservation: a pending file is consumed by one offer, or left over. -/
theorem ledger_perm : ∀ (os : List Offer) (m : Matcher),
    ((m.ledger g os).map Prod.snd ++ (m.run g os).2.pending.files).Perm m.pending.files
  | [], _ => List.Perm.refl _
  | o :: os, m => by
    cases h : m.consumed? g o with
    | none =>
      rw [run_cons_of_none h, ledger_cons_of_none h]
      exact ledger_perm os m
    | some f =>
      rw [run_cons_of_some h, ledger_cons_of_some h]
      -- the offer moves one file from the pending ones to the ledger
      have hrest := ledger_perm os { m with pending := m.pending.erase f }
      exact (hrest.cons f).trans (List.perm_cons_erase (mem_pending_of_consumed? h)).symm

/-- What is left over are the pending files that no offer consumed, in their order. -/
theorem pending_run_eq_filter : ∀ (os : List Offer) (m : Matcher),
    (m.run g os).2.pending.files =
      m.pending.files.filter (· ∉ (m.ledger g os).map Prod.snd)
  | [], m => (List.filter_eq_self.2 fun _ _ => rfl).symm
  | o :: os, m => by
    cases h : m.consumed? g o with
    | none =>
      rw [run_cons_of_none h, ledger_cons_of_none h]
      exact pending_run_eq_filter os m
    | some f =>
      rw [run_cons_of_some h, ledger_cons_of_some h]
      simp only [pending_run_eq_filter os, PendingFiles.files_erase, List.filter_filter]
      refine List.filter_congr fun x _ => ?_
      rw [← Bool.decide_and, decide_eq_decide, List.map_cons, List.mem_cons, not_or, and_comm]

/-- An entry is of an offer that was made, and of a file that was pending and matches it. -/
theorem of_mem_ledger {e : Offer × String} : ∀ {os : List Offer} {m : Matcher},
    e ∈ m.ledger g os → e.1 ∈ os ∧ e.2 ∈ m.pending.files ∧ Matches g e.2 e.1
  | [], _, he => by cases he
  | o :: os, m, he => by
    cases h : m.consumed? g o with
    | none =>
      rw [ledger_cons_of_none h] at he
      obtain ⟨ho, hrest⟩ := of_mem_ledger he
      exact ⟨List.mem_cons_of_mem o ho, hrest⟩
    | some f =>
      rw [ledger_cons_of_some h] at he
      rcases List.mem_cons.1 he with rfl | he
      · exact ⟨List.mem_cons_self .., mem_pending_of_consumed? h, matches_of_consumed? h⟩
      · obtain ⟨ho, hf, hmatches⟩ := of_mem_ledger he
        exact ⟨List.mem_cons_of_mem o ho, List.mem_of_mem_erase hf, hmatches⟩

theorem files_ledger_nodup (os : List Offer) (m : Matcher) :
    ((m.ledger g os).map Prod.snd).Nodup :=
  ((ledger_perm os m).nodup_iff.2 m.pending.files_nodup).of_append_left

/-- Every printed action has an entry that the filter lets through, and a file of its own. -/
theorem exists_injective_files (os : List Offer) (m : Matcher) :
    ∃ file : Fin (m.run g os).1.length → String, Function.Injective file ∧
      ∀ i, ∃ e ∈ m.ledger g os, m.mnemonics.allows e.1.2 = true ∧
        e.1.2 = (m.run g os).1.get i ∧ e.2 = file i := by
  rw [run_eq_map_ledger]
  have hnodup : (((m.ledger g os).filter (m.mnemonics.allows ·.1.2)).map Prod.snd).Nodup :=
    (files_ledger_nodup os m).sublist (List.filter_sublist.map Prod.snd)
  have hentries : ∀ e ∈ (m.ledger g os).filter (m.mnemonics.allows ·.1.2),
      e ∈ m.ledger g os ∧ m.mnemonics.allows e.1.2 = true := fun e he => List.mem_filter.1 he
  -- the index type depends on the printed entries, so they have to become a variable first
  generalize (m.ledger g os).filter (m.mnemonics.allows ·.1.2) = printed at hnodup hentries ⊢
  have hlength : (printed.map (·.1.2)).length = (printed.map Prod.snd).length := by simp
  refine ⟨fun i => (printed.map Prod.snd).get (i.cast hlength),
    (List.nodup_iff_injective_get.1 hnodup).comp (Fin.cast_injective hlength), fun i => ?_⟩
  have hmem := List.get_mem printed (i.cast (List.length_map _))
  obtain ⟨hentry, hallowed⟩ := hentries _ hmem
  exact ⟨_, hentry, hallowed, by simp, by simp⟩

/-- Consumed and printed, consumed and refused, left over: each pending file is counted once. -/
theorem length_pending_eq (os : List Offer) (m : Matcher) :
    m.pending.files.length = (m.run g os).1.length +
      ((m.ledger g os).filter fun e => !m.mnemonics.allows e.1.2).length +
        (m.run g os).2.pending.files.length := by
  have hsplit := List.length_eq_length_filter_add (l := m.ledger g os) (m.mnemonics.allows ·.1.2)
  have hperm := (ledger_perm (g := g) os m).length_eq
  rw [List.length_append, List.length_map] at hperm
  rw [run_eq_map_ledger, List.length_map]
  omega

end Provenance.Matcher
