import Provenance.Proofs.Matcher.Consumption

/-!
Calls to a matcher. A matcher can be called for whatever action and target, without an action too, and
over another graph each time, since a graph may grow between two calls. Each call consumes the first of
its candidates that is pending, or nothing. So however it is called, a matcher only ever loses files, keeps
the order of the rest, and loses none of them twice.
-/

namespace Provenance

/-- A call to a matcher: the graph at the time, a target, and the action offered for it, if there is
one. -/
structure Call where
  graph : Graph
  target : Target
  action : Option Action

/-- The files that a call may consume for an action: the real files that the action reads, and then, as
written, the headers that the target declares. -/
def Call.files (c : Call) (a : Action) : List String :=
  c.graph.realInputs a ++
    match c.target.attribute? Target.headers with
    | some labels => labels.map Label.pathText
    | none => []

theorem Call.files_eq_candidates (c : Call) (a : Action) :
    c.files a = Matcher.candidates c.graph a c.target := by
  rw [files, Matcher.candidates, Target.listedFiles, Graph.realInputs]
  cases c.target.attribute? Target.headers with
  | none => rfl
  | some labels => rfl

namespace Matcher

variable {m m' : Matcher} {c : Call} {take : Bool}

/-- What a matcher says to a call, and the matcher after it. -/
def call (m : Matcher) (c : Call) : Bool × Matcher := m.offer c.graph c.target c.action

/-- The matcher after some calls. -/
def after (m : Matcher) (calls : List Call) : Matcher := calls.foldl (fun m c => (m.call c).2) m

theorem after_concat (m : Matcher) (calls : List Call) (c : Call) :
    m.after (calls ++ [c]) = ((m.after calls).call c).2 :=
  List.foldl_concat ..

/-- What a call may come to. -/
inductive Responds (m : Matcher) (c : Call) : Bool → Matcher → Prop
  /-- There is no action, and nothing changes. -/
  | absent : c.action = none → Responds m c false m
  /-- No file of the call is pending, and nothing changes. -/
  | unmatched {a : Action} : c.action = some a → (∀ f ∈ c.files a, f ∉ m.pending.files) →
      Responds m c false m
  /-- The first file of the call that is pending is taken out from among the others, and the filter says
  whether to print the action. -/
  | consumed {a : Action} {f : String} {front back earlier later : List String} {m' : Matcher} :
      c.action = some a → c.files a = front ++ f :: back → (∀ x ∈ front, x ∉ m.pending.files) →
      m.pending.files = earlier ++ f :: later → m'.pending.files = earlier ++ later →
      m'.mnemonics = m.mnemonics → Responds m c (m.mnemonics.allows a) m'

theorem responds_call (m : Matcher) (c : Call) : m.Responds c (m.call c).1 (m.call c).2 := by
  obtain ⟨g, t, action⟩ := c
  cases action with
  | none => exact .absent rfl
  | some a =>
    have hfiles : Call.files ⟨g, t, some a⟩ a = candidates g a t := Call.files_eq_candidates ..
    cases hconsumed : m.consumed? g (t, a) with
    | none =>
      rw [call, offer_of_consumed?_eq_none hconsumed]
      refine .unmatched rfl fun f hf hpending => ?_
      rw [hfiles] at hf
      exact consumed?_eq_none_iff.1 hconsumed f hpending hf
    | some f =>
      rw [call, offer_of_consumed?_eq_some hconsumed]
      rw [consumed?_eq_find?] at hconsumed
      obtain ⟨hf, front, back, hsplit, hfront⟩ := List.find?_eq_some_iff_append.1 hconsumed
      obtain ⟨earlier, later, -, hpending, herase⟩ :=
        List.exists_erase_eq (PendingFiles.contains_iff.1 hf)
      refine .consumed rfl (hfiles.trans hsplit) (fun x hx => ?_) hpending herase rfl
      simpa [PendingFiles.contains] using hfront x hx

/-- A call leaves the filter alone, and the order of the files that stay. -/
theorem Responds.keeps (h : m.Responds c take m') :
    m'.mnemonics = m.mnemonics ∧ m'.pending.files.Sublist m.pending.files := by
  cases h with
  | absent => exact ⟨rfl, List.Sublist.refl _⟩
  | unmatched => exact ⟨rfl, List.Sublist.refl _⟩
  | consumed _ _ _ hpending hafter hmnemonics =>
    refine ⟨hmnemonics, ?_⟩
    rw [hpending, hafter]
    exact (List.sublist_cons_self ..).append_left _

/-- The files that were pending for one matcher and are not for another. -/
def lost (m m' : Matcher) : List String := m.pending.files.filter (· ∉ m'.pending.files)

/-- The files that some calls consume, call by call. -/
def consumedBy (m : Matcher) : List Call → List String
  | [] => []
  | c :: calls => m.lost (m.call c).2 ++ (m.call c).2.consumedBy calls

/-- What a matcher lost and what it still waits for are the files that it waited for. -/
theorem lost_append_perm (h : m'.pending.files.Sublist m.pending.files) :
    (m.lost m' ++ m'.pending.files).Perm m.pending.files := by
  have hnodup : (m.lost m' ++ m'.pending.files).Nodup := by
    refine (m.pending.files_nodup.filter _).append m'.pending.files_nodup fun f hlost hpending => ?_
    exact of_decide_eq_true (List.mem_filter.1 hlost).2 hpending
  refine (List.perm_ext_iff_of_nodup hnodup m.pending.files_nodup).2 fun f => ?_
  rw [List.mem_append, lost, List.mem_filter, decide_eq_true_iff]
  constructor
  · rintro (⟨hf, -⟩ | hf)
    · exact hf
    · exact h.subset hf
  · intro hf
    by_cases hpending : f ∈ m'.pending.files
    · exact .inr hpending
    · exact .inl ⟨hf, hpending⟩

/-- Over any calls, the filter stays, the files that are left keep their order, and each of the others is
consumed by one call. -/
theorem after_keeps : ∀ (calls : List Call) (m : Matcher),
    (m.after calls).mnemonics = m.mnemonics ∧
      (m.after calls).pending.files.Sublist m.pending.files ∧
      (m.consumedBy calls ++ (m.after calls).pending.files).Perm m.pending.files
  | [], m => ⟨rfl, List.Sublist.refl _, List.Perm.refl _⟩
  | c :: calls, m => by
    obtain ⟨hmnemonics, hstep⟩ := (m.responds_call c).keeps
    obtain ⟨hmnemonics', hrest, hperm⟩ := after_keeps calls (m.call c).2
    refine ⟨hmnemonics'.trans hmnemonics, hrest.trans hstep, ?_⟩
    rw [consumedBy, List.append_assoc]
    exact (hperm.append_left _).trans (lost_append_perm hstep)

/-- A matcher may be called in any way, for any actions and targets and over any graphs. The next call then
consumes the first of its files that is pending, if there is one. The pending files are those that the
matcher started with, in their order, less the ones that the calls consumed, and no file was consumed
twice. The files that a matcher for a request starts with are the requested ones, each at its first
mention. -/
theorem calls_consume (m : Matcher) (calls : List Call) (c : Call) :
    (m.after calls).Responds c ((m.after calls).call c).1 (m.after (calls ++ [c])) ∧
      (m.after calls).mnemonics = m.mnemonics ∧
      (m.after calls).pending.files.Sublist m.pending.files ∧
      (m.consumedBy calls).Nodup ∧
      (m.consumedBy calls ++ (m.after calls).pending.files).Perm m.pending.files ∧
      ∀ files, (PendingFiles.ofList files).files = files.eraseDups := by
  obtain ⟨hmnemonics, hsublist, hperm⟩ := after_keeps calls m
  refine ⟨?_, hmnemonics, hsublist, ?_, hperm, PendingFiles.files_ofList⟩
  · rw [after_concat]
    exact responds_call _ c
  · exact (hperm.nodup_iff.2 m.pending.files_nodup).of_append_left

-- The scheduling action behind a placeholder is registered between two calls for the action that reads it,
-- so the second call consumes a header that the first could not see. The call without an action consumes
-- nothing, the one after it the declared header, and the last one finds no file of its own pending.
example :
    let file (name : String) : Artifact := .file (.ofString name)
    let standIn : Artifact := .standIn (.ofString "headers")
    let compile : Action := { mnemonic := "Compile", inputs := [standIn, file "p/a.c"] }
    let schedule : Action :=
      { mnemonic := "Schedule", inputs := [file "p/x.h"], outputs := [standIn]
        indirection := .scheduling }
    let target : Target :=
      { label := ⟨"p", "a", by decide, by decide, by decide⟩
        attributes := [(Target.headers, [⟨"p", "a.h", by decide, by decide, by decide⟩])] }
    let before : Call := ⟨.empty, target, some compile⟩
    let later : Call := ⟨Graph.ofOperations [.add schedule], target, some compile⟩
    let m : Matcher := ⟨.ofList ["p/a.h", "p/x.h", "p/b.c", "p/a.c", "p/x.h"], ["Link"]⟩
    m.consumedBy [before, later, ⟨.empty, target, none⟩, later, later] =
      ["p/a.c", "p/x.h", "p/a.h"] := by
  decide +kernel

end Matcher

end Provenance
