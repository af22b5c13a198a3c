import Provenance.Proofs.Resolution.Outcome

/-!
Requests for more files. An offer consumes one file at most, so a further file may take an action
from a file that it used to answer for; but the offer is spent either way, and no action that was
printed is lost. What carries the argument is that the files pending for the smaller request stay
pending for the larger one.
-/

namespace Provenance

namespace Matcher

variable {g : Graph} {m m' : Matcher}

/-- A matcher that waits for the files of another one, and perhaps for more. -/
structure Within (m m' : Matcher) : Prop where
  mnemonics : m'.mnemonics = m.mnemonics
  pending : m.pending.files ⊆ m'.pending.files

/-- An offer that is printed for fewer files is printed for more. -/
theorem Within.offer (h : m.Within m') (o : Offer) :
    ((m.offer g o.1 (some o.2)).1 = true → (m'.offer g o.1 (some o.2)).1 = true) ∧
      (m.offer g o.1 (some o.2)).2.Within (m'.offer g o.1 (some o.2)).2 := by
  cases hm : m.consumed? g o with
  | none =>
    rw [offer_of_consumed?_eq_none hm]
    refine ⟨fun htake => absurd htake Bool.false_ne_true, ?_⟩
    cases hm' : m'.consumed? g o with
    | none =>
      rw [offer_of_consumed?_eq_none hm']
      exact h
    | some f =>
      rw [offer_of_consumed?_eq_some hm']
      refine ⟨h.mnemonics, fun x hx => PendingFiles.mem_erase_iff.2 ⟨?_, h.pending hx⟩⟩
      -- an offer that matches no pending file can only take a file from the larger request
      rintro rfl
      exact consumed?_eq_none_iff.1 hm x hx (matches_of_consumed? hm')
  | some f =>
    rw [offer_of_consumed?_eq_some hm]
    have hf := h.pending (mem_pending_of_consumed? hm)
    cases hm' : m'.consumed? g o with
    | none => exact absurd (matches_of_consumed? hm) (consumed?_eq_none_iff.1 hm' f hf)
    | some f' =>
      rw [offer_of_consumed?_eq_some hm', h.mnemonics]
      refine ⟨id, ⟨rfl, fun x hx => ?_⟩⟩
      obtain ⟨hne, hx⟩ := PendingFiles.mem_erase_iff.1 hx
      refine PendingFiles.mem_erase_iff.2 ⟨?_, h.pending hx⟩
      -- a file that takes the place of `f` is not pending for the smaller request
      rintro rfl
      exact hne (Option.some.inj ((consumed?_of_subset h.pending hm' hx).symm.trans hm))

/-- What is printed for fewer files is printed for more, in the same order. -/
theorem Within.run_sublist : ∀ (os : List Offer) {m m' : Matcher}, m.Within m' →
    (m.run g os).1.Sublist (m'.run g os).1
  | [], _, _, _ => List.Sublist.refl []
  | o :: os, m, m', h => by
    obtain ⟨htake, hafter⟩ := h.offer (g := g) o
    rw [run_cons, run_cons]
    refine List.Sublist.append ?_ (run_sublist os hafter)
    by_cases hprinted : (m.offer g o.1 (some o.2)).1 = true
    · rw [if_pos hprinted, if_pos (htake hprinted)]
    · rw [if_neg hprinted]
      exact List.nil_sublist _

end Matcher

namespace Request

variable {r : Request} {files : List String} {g : Graph} {ts : List Target}

theorem within_matcher (h : r.files ⊆ files) : r.matcher.Within { r with files }.matcher := by
  refine ⟨rfl, fun f hf => ?_⟩
  rw [files_matcher, List.mem_eraseDups] at hf ⊢
  exact h hf

theorem gather_sublist (h : r.files ⊆ files) :
    (r.gather g ts).1.Sublist ({ r with files }.gather g ts).1 := by
  cases hmode : r.mode with
  | files =>
    simp only [gather_eq_run, hmode]
    exact (within_matcher h).run_sublist (g.offers ts)
  | target =>
    simp only [gather, hmode]
    exact List.Sublist.refl _

/-- A request for more files prints the actions that it printed, in the same order, and perhaps
others between them; with the same files otherwise listed, it prints the same. -/
theorem resolve_sublist_of_subset (tool : BuildTool) {r : Request} {files : List String}
    (h : r.files ⊆ files) :
    let more : Request := { r with files }
    (∀ rep, (resolve tool r).1 = .ok rep →
        ∃ rep', (resolve tool more).1 = .ok rep' ∧ rep.entries.Sublist rep'.entries ∧
          rep'.buildSucceeded = rep.buildSucceeded) ∧
      (files ⊆ r.files → ∀ rep, (resolve tool more).1 = .ok rep ↔ (resolve tool r).1 = .ok rep) := by
  intro more
  constructor
  · intro rep hrep
    obtain ⟨ts, haccept, hfound, rfl⟩ := resolve_eq_ok_iff.1 hrep
    have hsub : (r.gather tool.graph ts).1.Sublist (more.gather tool.graph ts).1 :=
      gather_sublist h
    refine ⟨_, resolve_eq_ok_iff.2 ⟨ts, haccept, fun hnone => hfound ?_, rfl⟩,
      hsub.map Action.entry, rfl⟩
    exact List.sublist_nil.1 (hnone ▸ hsub)
  · -- two lists that are sublists of each other are equal
    intro hback rep
    have hgather (ts : List Target) :
        (more.gather tool.graph ts).1 = (r.gather tool.graph ts).1 :=
      (gather_sublist (r := more) hback).antisymm (gather_sublist h)
    simp only [resolve_eq_ok_iff, hgather]
    rfl

/-- The shared header takes the action that the source was answered by, and the source is left over;
the action is printed all the same, however often and in whichever order the two are asked for. -/
theorem resolve_sublist_sharedHeader :
    let r : Request := { files := ["p/a.cc"], mode := .files }
    let printed := (compileOf "CppCompile" "p/a.cc" "p/a.o").entry
    ∃ rep, (resolve sharedHeader r).1 = .ok ⟨[printed], true⟩ ∧
      (resolve sharedHeader { r with files := ["p/a.cc", "p/x.h"] }).1 = .ok rep ∧
      (resolve sharedHeader { r with files := ["p/x.h", "p/a.cc", "p/x.h"] }).1 = .ok rep ∧
      printed ∈ rep.entries ∧ rep.buildSucceeded = true := by
  intro r printed
  have hmore : r.files ⊆ ["p/a.cc", "p/x.h"] := by decide
  have hforth : ["p/a.cc", "p/x.h"] ⊆ ["p/x.h", "p/a.cc", "p/x.h"] := by decide
  have hback : ["p/x.h", "p/a.cc", "p/x.h"] ⊆ ["p/a.cc", "p/x.h"] := by decide
  have hgather : (r.gather sharedHeader.graph [mixedTarget]).1 =
      [compileOf "CppCompile" "p/a.cc" "p/a.o"] :=
    gather_sharedHeader [] false
  have hrep : (resolve sharedHeader r).1 = .ok ⟨[printed], true⟩ := by
    refine resolve_eq_ok_iff.2 ⟨_, accept_sharedHeader, ?_, ?_⟩
    · rw [hgather]
      exact List.cons_ne_nil _ _
    · rw [hgather]
      rfl
  obtain ⟨rep, hrep', hsub, hsucceeded⟩ := (resolve_sublist_of_subset sharedHeader hmore).1 _ hrep
  refine ⟨rep, hrep, hrep', ?_, List.singleton_sublist.1 hsub, hsucceeded⟩
  exact ((resolve_sublist_of_subset sharedHeader (r := { r with files := ["p/a.cc", "p/x.h"] })
    hforth).2 hback rep).2 hrep'

end Request

end Provenance
