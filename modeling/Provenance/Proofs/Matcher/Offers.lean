import Mathlib
import Provenance.Proofs.Graph.Registration
import Provenance.Matcher

/-!
The offers of a resolution. Whatever the targets, matching comes down to one list of offers, each an
action with the target it is offered for, that one matcher is shown in turn. A file matches the offers
of actions that read it, and those for targets that list it as a header.
-/

namespace Provenance

variable {g : Graph} {ts : List Target} {f : String}

/-- An action, and the target it is offered for. -/
abbrev Offer := Target × Action

/-- The real files that an action reads, past scheduling placeholders. -/
def Graph.realInputs (g : Graph) (a : Action) : List String :=
  (g.expand a.inputs).map (·.path.toString)

/-- The offers for some targets: target by target, the generators of the files it compiles. -/
def Graph.offers (g : Graph) (ts : List Target) : List Offer :=
  ts.flatMap fun t => t.filesToCompile.filterMap fun x => (g.generator? x.path).map (t, ·)

theorem Graph.mem_offers {o : Offer} :
    o ∈ g.offers ts ↔
      o.1 ∈ ts ∧ ∃ x ∈ o.1.filesToCompile, g.generator? x.path = some o.2 := by
  obtain ⟨t, a⟩ := o
  rw [Graph.offers, List.mem_flatMap]
  constructor
  · rintro ⟨u, hu, h⟩
    obtain ⟨x, hx, hgen⟩ := List.mem_filterMap.1 h
    obtain ⟨b, hb, ⟨⟩⟩ := Option.map_eq_some_iff.1 hgen
    exact ⟨hu, x, hx, hb⟩
  · rintro ⟨ht, x, hx, hgen⟩
    refine ⟨t, ht, List.mem_filterMap.2 ⟨x, hx, ?_⟩⟩
    rw [hgen]
    rfl

theorem Graph.mem_actions_of_mem_offers {o : Offer} (h : o ∈ g.offers ts) : o.2 ∈ g.actions := by
  obtain ⟨-, x, -, hgen⟩ := Graph.mem_offers.1 h
  exact (mem_of_generator? hgen).1

namespace Matcher

/-- Shows a matcher some offers in turn, and gives the actions to print. -/
def run (m : Matcher) (g : Graph) : List Offer → List Action × Matcher
  | [] => ([], m)
  | (t, a) :: os =>
    let (take, m) := m.offer g t (some a)
    let (found, m) := m.run g os
    (if take then a :: found else found, m)

theorem run_cons (m : Matcher) (g : Graph) (o : Offer) (os : List Offer) :
    m.run g (o :: os) =
      ((if (m.offer g o.1 (some o.2)).1 then [o.2] else []) ++
          ((m.offer g o.1 (some o.2)).2.run g os).1,
        ((m.offer g o.1 (some o.2)).2.run g os).2) := by
  simp only [run]
  split
  · rfl
  · rfl

theorem run_append (g : Graph) : ∀ (os os' : List Offer) (m : Matcher),
    m.run g (os ++ os') =
      ((m.run g os).1 ++ ((m.run g os).2.run g os').1, ((m.run g os).2.run g os').2)
  | [], _, _ => rfl
  | (t, a) :: os, os', m => by
    simp only [List.cons_append, run, run_append g os os']
    split
    · rfl
    · rfl

theorem offerAll_eq_run (g : Graph) (t : Target) : ∀ (artifacts : List Artifact) (m : Matcher),
    m.offerAll g t artifacts =
      m.run g (artifacts.filterMap fun x => (g.generator? x.path).map (t, ·))
  | [], _ => rfl
  | x :: artifacts, m => by
    cases hgen : g.generator? x.path with
    | none => simp [offerAll, offer, hgen, offerAll_eq_run g t artifacts]
    | some a => simp [offerAll, run, hgen, offerAll_eq_run g t artifacts]

/-- To match target by target is to show one matcher all the offers. -/
theorem gatherAll_eq_run (g : Graph) : ∀ (ts : List Target) (m : Matcher),
    m.gatherAll g ts = m.run g (g.offers ts)
  | [], _ => rfl
  | t :: ts, m => by
    rw [Graph.offers, List.flatMap_cons, run_append, ← offerAll_eq_run]
    simp only [gatherAll, gather, gatherAll_eq_run g ts]
    rfl

/-- The files that an offer may consume, in order of preference: the real files behind the inputs,
then the declared headers of the target. -/
def candidates (g : Graph) (a : Action) (t : Target) : List String :=
  (g.expand a.inputs).map (·.path.toString) ++ t.listedFiles Target.headers

/-- An offer that may consume a file. -/
def Matches (g : Graph) (f : String) (o : Offer) : Prop := f ∈ candidates g o.2 o.1

instance (g : Graph) (f : String) (o : Offer) : Decidable (Matches g f o) := by
  unfold Matches
  infer_instance

theorem matches_iff {o : Offer} :
    Matches g f o ↔ f ∈ g.realInputs o.2 ∨ f ∈ o.1.listedFiles Target.headers :=
  List.mem_append

/-- If a file matches an offer, some offer is the first that it matches. -/
theorem exists_first_match {os : List Offer} (h : ∃ o ∈ os, Matches g f o) :
    ∃ front o back, os = front ++ o :: back ∧ (∀ u ∈ front, ¬Matches g f u) ∧ Matches g f o := by
  obtain ⟨o, ho, hmatches⟩ := h
  obtain ⟨o', hfind⟩ : ∃ o', os.find? (Matches g f ·) = some o' := by
    rw [← Option.isSome_iff_exists, List.find?_isSome]
    exact ⟨o, ho, decide_eq_true hmatches⟩
  obtain ⟨hfirst, front, back, hos, hfront⟩ := List.find?_eq_some_iff_append.1 hfind
  refine ⟨front, o', back, hos, fun u hu => ?_, of_decide_eq_true hfirst⟩
  simpa using hfront u hu

end Matcher

end Provenance
