import Provenance.Proofs.Digraph.Unfolding
import Provenance.Proofs.Graph.Need

/-!
The collection of actions. Actions can be found by way of artifacts, with a memory of the artifacts that
were looked at and another one of the actions that were found; whatever the graph, such a survey ends,
and finds the actions that are collected, in the same order. In a graph without cycles an artifact can
also be unfolded by recursion, with nothing remembered, into its generator and what the inputs of the
generator unfold to. The collection is what that gives, with repetitions and refused actions left out.
-/

namespace Provenance.Graph

open Provenance.Digraph Relation

variable {g : Graph} {roots : List Artifact} {x : Artifact} {p : Path} {i j : ActionId}

/-- The generators of some artifacts, by number. -/
def generatorIds (g : Graph) (artifacts : List Artifact) : List ActionId :=
  artifacts.filterMap fun x => g.generatorId? x.path

/-- The inputs of the action of a number. -/
def inputsOf (g : Graph) (i : ActionId) : List Artifact :=
  ((g.action? i).map Action.inputs).getD []

theorem next_prerequisites (g : Graph) (i : ActionId) :
    g.prerequisites.next i = g.generatorIds (g.inputsOf i) := by
  cases hi : g.action? i with
  | none => simp [prerequisites, inputsOf, generatorIds, hi]
  | some a => simp [prerequisites, inputsOf, generatorIds, hi, Action.inputPaths]

/-- A search for actions: the artifacts still to be looked at, those that were, and the actions found,
the latest first. -/
structure Survey where
  pending : List Artifact
  seen : List Artifact
  found : List ActionId

namespace Survey

/-- One turn of a survey. An artifact that was seen is passed over, and so is one that leads to an action
found before. -/
def turn (g : Graph) : Survey → Survey
  | ⟨[], seen, found⟩ => ⟨[], seen, found⟩
  | ⟨x :: rest, seen, found⟩ =>
    if x ∈ seen then ⟨rest, seen, found⟩
    else match g.generatorId? x.path with
      | none => ⟨rest, x :: seen, found⟩
      | some i =>
        if i ∈ found then ⟨rest, x :: seen, found⟩
        else ⟨g.inputsOf i ++ rest, x :: seen, i :: found⟩

/-- What was seen is of no more use: its generators were found. -/
def Recorded (g : Graph) (s : Survey) : Prop :=
  ∀ x ∈ s.seen, ∀ i, g.generatorId? x.path = some i → i ∈ s.found

/-- What a survey comes to: what it found, and what a walk from its pending artifacts adds. -/
def outcome (g : Graph) (s : Survey) : List ActionId :=
  s.found.reverse ++ g.prerequisites.walk (g.generatorIds s.pending) s.found

/-- The inputs of the actions that were not found. -/
def unread (g : Graph) (found : List ActionId) : List Artifact :=
  ((List.range g.size).filter (· ∉ found)).flatMap g.inputsOf

/-- The number of artifacts that a survey may still have to look at. -/
def work (g : Graph) (s : Survey) : Nat := s.pending.length + (unread g s.found).length

variable {s : Survey} {rest seen seen' : List Artifact} {found : List ActionId}

/-- An artifact whose generator was found adds nothing. -/
theorem outcome_of_found (h : ∀ i, g.generatorId? x.path = some i → i ∈ found) :
    (⟨x :: rest, seen, found⟩ : Survey).outcome g = (⟨rest, seen', found⟩ : Survey).outcome g := by
  cases hi : g.generatorId? x.path with
  | none => simp [outcome, generatorIds, hi]
  | some i =>
    have hfound : g.prerequisites.walk (i :: g.generatorIds rest) found =
        g.prerequisites.walk (g.generatorIds rest) found := by
      rw [walk, if_pos (h i hi)]
    rw [outcome, outcome, ← hfound]
    simp [generatorIds, hi]

/-- An artifact whose generator was not found adds the generator, and puts the inputs of the generator in
front of what is pending. -/
theorem outcome_of_not_found (hi : g.generatorId? x.path = some i) (hnew : i ∉ found) :
    (⟨x :: rest, seen, found⟩ : Survey).outcome g =
      (⟨g.inputsOf i ++ rest, seen', i :: found⟩ : Survey).outcome g := by
  have hpending : g.generatorIds (x :: rest) = i :: g.generatorIds rest := by
    simp [generatorIds, hi]
  have hnext : g.generatorIds (g.inputsOf i ++ rest) =
      g.prerequisites.next i ++ g.generatorIds rest := by
    rw [next_prerequisites]
    exact List.filterMap_append
  simp only [outcome, hpending, hnext]
  rw [walk, if_neg hnew, List.reverse_cons, List.append_assoc, List.singleton_append]

/-- What a turn does: it passes over an artifact whose generator was found, if it has one, or it finds the
generator. -/
theorem Recorded.turn_cons (h : (⟨x :: rest, seen, found⟩ : Survey).Recorded g) :
    (∃ seen', turn g ⟨x :: rest, seen, found⟩ = ⟨rest, seen', found⟩ ∧ seen' ⊆ x :: seen ∧
        ∀ i, g.generatorId? x.path = some i → i ∈ found) ∨
      ∃ i, g.generatorId? x.path = some i ∧ i ∉ found ∧
        turn g ⟨x :: rest, seen, found⟩ = ⟨g.inputsOf i ++ rest, x :: seen, i :: found⟩ := by
  by_cases hx : x ∈ seen
  · exact .inl ⟨seen, if_pos hx, List.subset_cons_self x seen, h x hx⟩
  cases hi : g.generatorId? x.path with
  | none =>
    have hturn : turn g ⟨x :: rest, seen, found⟩ = ⟨rest, x :: seen, found⟩ := by
      simp only [turn, if_neg hx, hi]
    exact .inl ⟨_, hturn, List.Subset.refl _, by simp⟩
  | some i =>
    by_cases hfound : i ∈ found
    · have hturn : turn g ⟨x :: rest, seen, found⟩ = ⟨rest, x :: seen, found⟩ := by
        simp only [turn, if_neg hx, hi, if_pos hfound]
      exact .inl ⟨_, hturn, List.Subset.refl _, by simp [hfound]⟩
    · have hturn : turn g ⟨x :: rest, seen, found⟩ =
          ⟨g.inputsOf i ++ rest, x :: seen, i :: found⟩ := by
        simp only [turn, if_neg hx, hi, if_neg hfound]
      exact .inr ⟨i, rfl, hfound, hturn⟩

/-- A turn keeps the record, and what the survey comes to. -/
theorem Recorded.turn (h : s.Recorded g) :
    (s.turn g).Recorded g ∧ (s.turn g).outcome g = s.outcome g := by
  obtain ⟨_ | ⟨x, rest⟩, seen, found⟩ := s
  · exact ⟨h, rfl⟩
  rcases h.turn_cons with ⟨seen', hturn, hseen, hfound⟩ | ⟨i, hi, hnew, hturn⟩
  · rw [hturn]
    refine ⟨fun y hy j hj => ?_, (outcome_of_found hfound).symm⟩
    rcases List.mem_cons.1 (hseen hy) with rfl | hy
    · exact hfound j hj
    · exact h y hy j hj
  · rw [hturn]
    refine ⟨fun y hy j hj => ?_, (outcome_of_not_found hi hnew).symm⟩
    rcases List.mem_cons.1 hy with rfl | hy
    · rw [Option.some.inj (hj.symm.trans hi)]
      exact List.mem_cons_self ..
    · exact List.mem_cons_of_mem i (h y hy j hj)

/-- The inputs of an action that is found now are no longer to come. -/
theorem length_unread_cons_le (hnew : i ∉ found) :
    (unread g (i :: found)).length + (g.inputsOf i).length ≤ (unread g found).length := by
  have hle := length_flatMap_filter_cons_le g.inputsOf (List.range g.size) found hnew
  by_cases hi : i ∈ List.range g.size
  · simpa only [unread, if_pos hi] using hle
  · have hnone : g.inputsOf i = [] := by
      have : g.action? i = none := List.getElem?_eq_none (by simpa [Registry.size] using hi)
      simp [inputsOf, this]
    simpa only [unread, if_neg hi, hnone, List.length_nil] using hle

/-- Every turn leaves less to look at. -/
theorem Recorded.work_turn_lt (h : s.Recorded g) (hpending : s.pending ≠ []) :
    (s.turn g).work g < s.work g := by
  obtain ⟨_ | ⟨x, rest⟩, seen, found⟩ := s
  · exact absurd rfl hpending
  rcases h.turn_cons with ⟨seen', hturn, -, -⟩ | ⟨i, -, hnew, hturn⟩
  · rw [hturn]
    simp only [work, List.length_cons]
    omega
  · have hle := length_unread_cons_le (g := g) hnew
    rw [hturn]
    simp only [work, List.length_cons, List.length_append]
    omega

/-- A survey ends after a turn for each artifact that it may look at, or before, and has found then what
it came to from the start. -/
theorem Recorded.exists_turns {s : Survey} (h : s.Recorded g) :
    ∃ n ≤ s.work g, ∃ seen, (Survey.turn g)^[n] s = ⟨[], seen, (s.outcome g).reverse⟩ := by
  by_cases hpending : s.pending = []
  · obtain ⟨pending, seen, found⟩ := s
    cases hpending
    refine ⟨0, Nat.zero_le _, seen, ?_⟩
    have hwalk : g.prerequisites.walk (g.generatorIds []) found = [] := by
      rw [generatorIds, List.filterMap_nil, walk]
    simp [outcome, hwalk]
  · obtain ⟨hrecorded, houtcome⟩ := h.turn
    have hlt := h.work_turn_lt hpending
    -- the recursion is on the work that a turn leaves
    obtain ⟨n, hn, seen, hturns⟩ := hrecorded.exists_turns
    refine ⟨n + 1, hn.trans_lt hlt, seen, ?_⟩
    rw [Function.iterate_succ_apply, hturns, houtcome]
termination_by s.work g

end Survey

theorem flatMap_inputsOf (g : Graph) :
    (List.range g.size).flatMap g.inputsOf = g.actions.flatMap Action.inputs := by
  have hmap : (List.range g.size).map g.inputsOf = g.actions.map Action.inputs := by
    refine List.ext_getElem (by simp [Registry.size]) fun i h _ => ?_
    have hi : i < g.actions.length := by simpa [Registry.size] using h
    simp [inputsOf, Registry.action?, hi]
  rw [List.flatMap_def, List.flatMap_def, hmap]

/-- A survey from some artifacts finds the needed actions, in order. -/
theorem exists_turns_survey (g : Graph) (roots : List Artifact) :
    ∃ n ≤ roots.length + (g.actions.flatMap Action.inputs).length, ∃ seen,
      (Survey.turn g)^[n] ⟨roots, [], []⟩ = ⟨[], seen, (g.needed roots).reverse⟩ := by
  have hstart : (⟨roots, [], []⟩ : Survey).Recorded g := List.forall_mem_nil _
  obtain ⟨n, hn, seen, hturns⟩ := hstart.exists_turns
  refine ⟨n, ?_, seen, hturns⟩
  rw [← flatMap_inputsOf]
  simpa [Survey.work, Survey.unread] using hn

/-- The number of an action is collected exactly if the action is needed and the filter lets it
through. -/
theorem Consistent.mem_collect_iff (h : g.Consistent) {M : MnemonicFilter} :
    i ∈ g.collect roots M ↔ ∃ a, g.action? i = some a ∧ g.Needs roots a ∧ M.allows a = true := by
  rw [collect, List.mem_filter]
  constructor
  · rintro ⟨hi, hallows⟩
    obtain ⟨a, ha, hneeds⟩ := needs_of_mem_needed hi
    rw [ha] at hallows
    exact ⟨a, ha, hneeds, hallows⟩
  · rintro ⟨a, ha, hneeds, hallows⟩
    obtain ⟨j, hj, hja⟩ := hneeds.exists_mem_needed
    rw [h.action?_injective ha hja]
    refine ⟨hj, ?_⟩
    rw [hja]
    exact hallows

/-- However a graph was built up, a survey of it is over after a turn for each artifact that it starts from
and for each input of an action, or before, and what it found, as far as the filter lets it through, is
the collection. The collection holds the number of each action that the artifacts need and that the
filter lets through, once, and no other number. -/
theorem collect_exact (ops : List Operation) (roots : List Artifact) (M : MnemonicFilter) :
    let g := ofOperations ops
    (∃ n ≤ roots.length + (g.actions.flatMap Action.inputs).length, ∃ seen found,
        (Survey.turn g)^[n] ⟨roots, [], []⟩ = ⟨[], seen, found⟩ ∧
          g.collect roots M = found.reverse.filter fun i => (g.action? i).any M.allows) ∧
      (g.collect roots M).Nodup ∧
      ∀ i, i ∈ g.collect roots M ↔
        ∃ a, g.action? i = some a ∧ g.Needs roots a ∧ M.allows a = true := by
  intro g
  have h : g.Consistent := consistent_ofOperations ops
  obtain ⟨n, hn, seen, hturns⟩ := g.exists_turns_survey roots
  refine ⟨⟨n, hn, seen, _, hturns, ?_⟩, ?_, fun i => h.mem_collect_iff⟩
  · rw [List.reverse_reverse, collect]
  · exact (nodup_preorder _ _).filter _

-- Two actions that read each other's output, one of them through a placeholder that is no scheduling one,
-- and a refused action that the walk has to pass through.
example :
    let file (name : String) : Artifact := .file (.ofString name)
    (ofOperations [
      .add { mnemonic := "Group", inputs := [file "b.o"], outputs := [.standIn (.ofString "group")]
             indirection := .aggregating },
      .add { mnemonic := "Compile", inputs := [.standIn (.ofString "group")]
             outputs := [file "a.o", file "a.d"] },
      .add { mnemonic := "Compile", inputs := [file "a.d"], outputs := [file "b.o"] }]).collect
        [file "a.o", file "x.c", file "a.d"] ["Compile"] = [1, 2] := by
  decide +kernel

/-- A path depends on the inputs of its generator. -/
theorem next_dependencies (hi : g.generatorId? p = some i) :
    g.dependencies.next p = (g.inputsOf i).map Artifact.path := by
  cases ha : g.action? i with
  | none => simp [dependencies, generator?, inputsOf, hi, ha]
  | some a => simp [dependencies, generator?, inputsOf, hi, ha, Action.inputPaths]

/-- From a path that an action writes, a dependency leads to a path of each action that comes before it. -/
theorem exists_edge_dependencies (hp : g.generatorId? p = some i) (hij : g.prerequisites.Edge i j) :
    ∃ q, g.generatorId? q = some j ∧ g.dependencies.Edge p q := by
  rw [Edge, next_prerequisites] at hij
  obtain ⟨x, hx, hj⟩ := List.mem_filterMap.1 hij
  refine ⟨x.path, hj, ?_⟩
  rw [Edge, next_dependencies hp]
  exact List.mem_map_of_mem hx

theorem exists_transGen_dependencies (hp : g.generatorId? p = some i)
    (hij : TransGen g.prerequisites.Edge i j) :
    ∃ q, g.generatorId? q = some j ∧ TransGen g.dependencies.Edge p q := by
  induction hij with
  | single hij =>
    obtain ⟨q, hq, hpq⟩ := exists_edge_dependencies hp hij
    exact ⟨q, hq, .single hpq⟩
  | tail _ hjk ih =>
    obtain ⟨q, hq, hpq⟩ := ih
    obtain ⟨r, hr, hqr⟩ := exists_edge_dependencies hq hjk
    exact ⟨r, hr, hpq.tail hqr⟩

/-- Without a cycle among the dependencies, no action comes before itself. -/
theorem acyclic_prerequisites (h : g.checkAcyclic = .ok ()) : g.prerequisites.Acyclic := by
  intro i hi
  obtain ⟨k, -, hki⟩ := TransGen.tail'_iff.1 hi
  rw [Edge, next_prerequisites] at hki
  obtain ⟨x, -, hx⟩ := List.mem_filterMap.1 hki
  obtain ⟨q, hq, hxq⟩ := exists_transGen_dependencies hx hi
  -- `q` may be another output of the action, but all outputs of an action depend on the same paths
  obtain ⟨r, hxr, hrq⟩ := TransGen.head'_iff.1 hxq
  have hqr : g.dependencies.Edge q r := by
    rw [Edge, next_dependencies hx] at hxr
    rwa [Edge, next_dependencies hq]
  exact checkAcyclic_eq_ok_iff_acyclic.1 h r (TransGen.tail' hrq hqr)

/-- What an artifact unfolds to: its generator, and then what the inputs of the generator unfold to, in
order. A source file unfolds to nothing. -/
def unfolding (g : Graph) (h : g.checkAcyclic = .ok ()) (x : Artifact) : List ActionId :=
  match _hi : g.generatorId? x.path with
  | some i => i :: (g.inputsOf i).attach.flatMap fun ⟨y, _⟩ => unfolding g h y
  | none => []
termination_by (g.dependencies.preorder [x.path]).length
decreasing_by
  rename_i hy
  refine (checkAcyclic_eq_ok_iff_acyclic.1 h).length_preorder_lt ?_
  rw [Edge, next_dependencies _hi]
  exact List.mem_map_of_mem hy

theorem unfolding_of_generator (h : g.checkAcyclic = .ok ()) (hi : g.generatorId? x.path = some i) :
    g.unfolding h x = i :: (g.inputsOf i).flatMap (g.unfolding h) := by
  rw [unfolding]
  split
  · rename_i j hj
    cases hi.symm.trans hj
    rw [List.flatMap_subtype fun _ _ => rfl, List.unattach_attach]
  · rename_i hnone
    cases hi.symm.trans hnone

theorem unfolding_of_source (h : g.checkAcyclic = .ok ()) (hx : g.generatorId? x.path = none) :
    g.unfolding h x = [] := by
  rw [unfolding]
  split
  · rename_i j hj
    cases hx.symm.trans hj
  · rfl

/-- Artifacts unfold to what their generators unfold to, if each of them does. -/
theorem flatMap_unfolding (h : g.checkAcyclic = .ok ()) : ∀ artifacts : List Artifact,
    (∀ x ∈ artifacts, ∀ i, g.generatorId? x.path = some i →
      g.unfolding h x = g.prerequisites.unfold (acyclic_prerequisites h) i) →
    artifacts.flatMap (g.unfolding h) =
      (g.generatorIds artifacts).flatMap (g.prerequisites.unfold (acyclic_prerequisites h))
  | [], _ => rfl
  | x :: artifacts, hunfold => by
    obtain ⟨hx, hrest⟩ := List.forall_mem_cons.1 hunfold
    have ih := flatMap_unfolding h artifacts hrest
    rw [List.flatMap_cons, ih]
    cases hi : g.generatorId? x.path with
    | none => simp [generatorIds, hi, unfolding_of_source h hi]
    | some i => simp [generatorIds, hi, hx i hi]

/-- An artifact unfolds to what its generator unfolds to among the prerequisites. -/
theorem unfolding_eq_unfold (h : g.checkAcyclic = .ok ()) (hi : g.generatorId? x.path = some i) :
    g.unfolding h x = g.prerequisites.unfold (acyclic_prerequisites h) i := by
  induction i using unfold.induct g.prerequisites (acyclic_prerequisites h) generalizing x with
  | case1 i ih =>
    rw [unfolding_of_generator h hi, unfold, next_prerequisites]
    refine congrArg (i :: ·) (flatMap_unfolding h _ fun y hy j hj => ih j ?_ hj)
    rw [next_prerequisites]
    exact List.mem_filterMap.2 ⟨y, hy, hj⟩

/-- In a graph without cycles, the actions collected for some artifacts are those that the artifacts unfold
to, each where it occurs for the first time, as far as the filter lets them through. -/
theorem collect_eq_eraseDups (h : g.checkAcyclic = .ok ()) (roots : List Artifact) (M : MnemonicFilter) :
    g.collect roots M =
      (roots.flatMap (g.unfolding h)).eraseDups.filter fun i => (g.action? i).any M.allows := by
  have hneeded : g.needed roots = (g.generatorIds roots |>.flatMap
      (g.prerequisites.unfold (acyclic_prerequisites h))).eraseDups :=
    preorder_eq_eraseDups (acyclic_prerequisites h) _
  rw [collect, hneeded, flatMap_unfolding h roots fun x _ i hi => unfolding_eq_unfold h hi]

/-- A program of two objects that share a group of headers, linked with a second output of the first
compilation. -/
def sharedGroup : Graph :=
  let file (name : String) : Artifact := .file (.ofString name)
  let group : Artifact := .standIn (.ofString "group")
  ofOperations [
    .add { mnemonic := "Group", inputs := [file "common.h"], outputs := [group]
           indirection := .aggregating },
    .add { mnemonic := "Compile", inputs := [file "a.c", group], outputs := [file "a.o", file "a.d"] },
    .add { mnemonic := "Compile", inputs := [group, file "b.c"], outputs := [file "b.o"] },
    .add { mnemonic := "Link", inputs := [file "a.o", file "b.o", file "a.d"]
           outputs := [file "app"] }]

/-- The shared group is unfolded for every output that is met, and collected where it is met first; the
link is refused, and what it leads to is collected all the same. -/
theorem collect_sharedGroup :
    let file (name : String) : Artifact := .file (.ofString name)
    let roots : List Artifact := [file "app", file "main.c", file "b.o"]
    ∃ h : sharedGroup.checkAcyclic = .ok (),
      roots.flatMap (sharedGroup.unfolding h) = [3, 1, 0, 2, 0, 1, 0] ++ [2, 0] ∧
        sharedGroup.collect roots ["Compile", "Group"] = [1, 0, 2] := by
  intro file roots
  have h : sharedGroup.checkAcyclic = .ok () := by cbv
  have hsource (name : String) (hname : sharedGroup.generatorId? (.ofString name) = none) :
      sharedGroup.unfolding h (file name) = [] :=
    unfolding_of_source h hname
  have hgroup : sharedGroup.unfolding h (.standIn (.ofString "group")) = [0] := by
    have hinputs : sharedGroup.inputsOf 0 = [file "common.h"] := by decide +kernel
    rw [unfolding_of_generator h (i := 0) (by decide +kernel), hinputs, List.flatMap_singleton,
      hsource "common.h" (by decide +kernel)]
  have hcompile (name : String) (hname : sharedGroup.generatorId? (.ofString name) = some 1) :
      sharedGroup.unfolding h (file name) = [1, 0] := by
    have hinputs : sharedGroup.inputsOf 1 = [file "a.c", .standIn (.ofString "group")] := by
      decide +kernel
    rw [unfolding_of_generator h hname, hinputs]
    simp [hsource "a.c" (by decide +kernel), hgroup]
  have hother : sharedGroup.unfolding h (file "b.o") = [2, 0] := by
    have hinputs : sharedGroup.inputsOf 2 = [.standIn (.ofString "group"), file "b.c"] := by
      decide +kernel
    rw [unfolding_of_generator h (i := 2) (by decide +kernel), hinputs]
    simp [hsource "b.c" (by decide +kernel), hgroup]
  have hlink : sharedGroup.unfolding h (file "app") = [3, 1, 0, 2, 0, 1, 0] := by
    have hinputs : sharedGroup.inputsOf 3 = [file "a.o", file "b.o", file "a.d"] := by decide +kernel
    rw [unfolding_of_generator h (i := 3) (by decide +kernel), hinputs]
    simp [hcompile "a.o" (by decide +kernel), hcompile "a.d" (by decide +kernel), hother]
  have hroots : roots.flatMap (sharedGroup.unfolding h) = [3, 1, 0, 2, 0, 1, 0] ++ [2, 0] := by
    simp [roots, hlink, hother, hsource "main.c" (by decide +kernel)]
  refine ⟨h, hroots, ?_⟩
  rw [collect_eq_eraseDups h, hroots]
  decide +kernel

end Provenance.Graph
