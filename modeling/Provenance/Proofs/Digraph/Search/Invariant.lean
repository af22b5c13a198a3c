import Provenance.Digraph.Search
import Provenance.Proofs.Digraph.ClosedWalk

/-!
The invariant of the search for a cycle. The open nodes are those on the stack, each on it once and
each a successor of the one below it; an open node has all its followed successors closed but for the
next one on the stack; and what a closed node leads to is closed and does not lead back to it. Every
move keeps this, so it holds wherever the search comes to.
-/

namespace Provenance.Digraph

open Relation

variable {α : Type}

/-- One node leads to another in a single step. -/
def Edge (d : Digraph α) (a b : α) : Prop := b ∈ d.next a

namespace Search

variable {d : Digraph α}

/-- Every successor of an open node is still to be followed, or closed, or the next open node, and
nothing else is still to be followed from there. -/
def Followed (d : Digraph α) (closed : α → Prop) : List (Frame α) → Option α → Prop
  | [], _ => True
  | f :: below, above =>
    (∀ b ∈ f.rest, d.Edge f.node b) ∧ (∀ b, d.Edge f.node b → b ∈ f.rest ∨ closed b ∨ b ∈ above) ∧
      Followed d closed below (some f.node)

theorem Followed.imp {closed closed' : α → Prop} (hc : ∀ a, closed a → closed' a) :
    ∀ {stack : List (Frame α)} {above : Option α}, Followed d closed stack above →
      Followed d closed' stack above
  | [], _, _ => trivial
  | _ :: _, _, ⟨hrest, hf, hbelow⟩ =>
    ⟨hrest, fun b hb => (hf b hb).imp_right (Or.imp_left (hc b)), Followed.imp hc hbelow⟩

/-- A node that is closed by now need not be excepted as the next open one. -/
theorem Followed.of_closed {closed : α → Prop} {a : α} (ha : closed a) :
    ∀ {stack : List (Frame α)}, Followed d closed stack (some a) → Followed d closed stack none
  | [], _ => trivial
  | _ :: _, ⟨hrest, hf, hbelow⟩ => by
    refine ⟨hrest, fun b hb => ?_, hbelow⟩
    rcases hf b hb with h | h | h
    · exact .inl h
    · exact .inr (.inl h)
    · obtain rfl : a = b := by simpa using h
      exact .inr (.inl ha)

variable [DecidableEq α] {s t : Search α}

/-- The nodes of the open path, the innermost first. -/
def path (s : Search α) : List α := s.stack.map Frame.node

/-- A node whose frame was on the stack and has left it. -/
def Closed (s : Search α) (a : α) : Prop := s.mark? a = some .closed

/-- The ways in which a search moves on. -/
inductive Move (d : Digraph α) : Search α → Search α → Prop
  | skipRoot {r roots marks} (h : marks.lookup r ≠ none) :
      Move d ⟨r :: roots, [], marks⟩ ⟨roots, [], marks⟩
  | enterRoot {r roots marks} (h : marks.lookup r = none) :
      Move d ⟨r :: roots, [], marks⟩ ⟨roots, [⟨r, d.next r⟩], (r, .opened) :: marks⟩
  | close {roots a below marks} :
      Move d ⟨roots, ⟨a, []⟩ :: below, marks⟩ ⟨roots, below, (a, .closed) :: marks⟩
  | skipEdge {roots a b rest below marks} (h : marks.lookup b = some .closed) :
      Move d ⟨roots, ⟨a, b :: rest⟩ :: below, marks⟩ ⟨roots, ⟨a, rest⟩ :: below, marks⟩
  | enterEdge {roots a b rest below marks} (h : marks.lookup b = none) :
      Move d ⟨roots, ⟨a, b :: rest⟩ :: below, marks⟩
        ⟨roots, ⟨b, d.next b⟩ :: ⟨a, rest⟩ :: below, (b, .opened) :: marks⟩

theorem move_of_step (h : s.step d = .moved t) : Move d s t := by
  obtain ⟨roots, stack, marks⟩ := s
  match stack, roots with
  | [], [] => simp [step] at h
  | [], r :: roots =>
    simp only [step] at h
    split at h
    · rename_i hr
      cases h
      refine .skipRoot fun hn => ?_
      rw [mark?, hn] at hr
      cases hr
    · rename_i hr
      cases h
      exact .enterRoot hr
  | ⟨a, []⟩ :: below, roots =>
    cases h
    exact .close
  | ⟨a, b :: rest⟩ :: below, roots =>
    simp only [step] at h
    split at h
    · rename_i hb
      cases h
      exact .skipEdge hb
    · cases h
    · rename_i hb
      cases h
      exact .enterEdge hb

/-- The search goes on to its next root only when the stack is empty. -/
theorem Move.stack_eq_nil (h : Move d s t) (hroots : t.roots ≠ s.roots) : s.stack = [] := by
  cases h with
  | skipRoot => rfl
  | enterRoot => rfl
  | close => exact absurd rfl hroots
  | skipEdge => exact absurd rfl hroots
  | enterEdge => exact absurd rfl hroots

theorem of_step_found {cycle : List α} (h : s.step d = .found cycle) :
    ∃ a b rest below, s.stack = ⟨a, b :: rest⟩ :: below ∧ s.mark? b = some .opened ∧
      cycle = s.cycleThrough b := by
  obtain ⟨roots, stack, marks⟩ := s
  match stack, roots with
  | [], [] => simp [step] at h
  | [], r :: roots =>
    simp only [step] at h
    split at h <;> cases h
  | ⟨a, []⟩ :: below, roots => cases h
  | ⟨a, b :: rest⟩ :: below, roots =>
    simp only [step] at h
    split at h
    · cases h
    · rename_i hb
      cases h
      exact ⟨a, b, rest, below, rfl, hb, rfl⟩
    · cases h

theorem of_step_finished (h : s.step d = .finished) : s.stack = [] ∧ s.roots = [] := by
  obtain ⟨roots, stack, marks⟩ := s
  match stack, roots with
  | [], [] => exact ⟨rfl, rfl⟩
  | [], r :: roots =>
    simp only [step] at h
    split at h <;> cases h
  | ⟨a, []⟩ :: below, roots => cases h
  | ⟨a, b :: rest⟩ :: below, roots =>
    simp only [step] at h
    split at h <;> cases h

theorem lookup_cons_marks (marks : List (α × Mark)) (a x : α) (m : Mark) :
    ((a, m) :: marks).lookup x = if x = a then some m else marks.lookup x := by
  by_cases h : x = a
  · simp [List.lookup, h]
  · simp [List.lookup, h, beq_eq_false_iff_ne.2 h]

/-- What holds throughout a search. -/
structure Inv (d : Digraph α) (s : Search α) : Prop where
  opened_iff : ∀ a, s.mark? a = some .opened ↔ a ∈ s.path
  path_nodup : s.path.Nodup
  linked : s.path.IsChain fun a b => d.Edge b a
  followed : Followed d s.Closed s.stack none
  closed_next : ∀ a, s.Closed a → ∀ b, d.Edge a b → s.Closed b
  closed_acyclic : ∀ a, s.Closed a → ¬TransGen d.Edge a a

theorem inv_start (roots : List α) : (start roots).Inv d where
  opened_iff a := by simp [start, mark?, path]
  path_nodup := List.nodup_nil
  linked := List.isChain_nil
  followed := trivial
  closed_next a h := by simp [start, Closed, mark?] at h
  closed_acyclic a h := by simp [start, Closed, mark?] at h

/-- The invariant sees of the frames only their nodes and what they still have to follow. -/
theorem Inv.with_stack (h : s.Inv d) {roots : List α} {stack : List (Frame α)}
    (hpath : stack.map Frame.node = s.path) (hf : Followed d s.Closed stack none) :
    (⟨roots, stack, s.marks⟩ : Search α).Inv d where
  opened_iff a := by rw [path, hpath]; exact h.opened_iff a
  path_nodup := by rw [path, hpath]; exact h.path_nodup
  linked := by rw [path, hpath]; exact h.linked
  followed := hf
  closed_next := h.closed_next
  closed_acyclic := h.closed_acyclic

section Marks

variable {roots : List α} {stack : List (Frame α)} {marks : List (α × Mark)} {a : α}

theorem mark?_cons (x : α) (m : Mark) :
    (⟨roots, stack, (a, m) :: marks⟩ : Search α).mark? x =
      if x = a then some m else marks.lookup x :=
  lookup_cons_marks marks a x m

theorem closed_cons_opened (ha : marks.lookup a = none) (x : α) :
    (⟨roots, stack, (a, .opened) :: marks⟩ : Search α).Closed x ↔
      marks.lookup x = some .closed := by
  rw [Closed, mark?_cons]
  by_cases hx : x = a
  · rw [if_pos hx, hx, ha]
    simp
  · rw [if_neg hx]

theorem closed_cons_closed (x : α) :
    (⟨roots, stack, (a, .closed) :: marks⟩ : Search α).Closed x ↔
      x = a ∨ marks.lookup x = some .closed := by
  rw [Closed, mark?_cons]
  by_cases hx : x = a
  · simp [hx]
  · simp [hx]

end Marks

theorem Inv.not_mem_path (h : s.Inv d) {a : α} (ha : s.mark? a = none) : a ∉ s.path := by
  intro hm
  rw [(h.opened_iff a).2 hm] at ha
  cases ha

/-- While the stack is empty, every node that was entered is closed. -/
theorem Inv.closed_of_stack_eq_nil (h : s.Inv d) (hs : s.stack = []) {a : α} {m : Mark}
    (ha : s.mark? a = some m) : m = .closed := by
  cases m with
  | closed => rfl
  | opened =>
    have hmem := (h.opened_iff a).1 ha
    rw [path, hs] at hmem
    cases hmem

/-- Entering a node without a mark, from the innermost open node if there is one. -/
theorem Inv.enter (h : s.Inv d) {roots : List α} {stack : List (Frame α)} {a : α}
    (ha : s.mark? a = none) (hpath : stack.map Frame.node = s.path)
    (hlink : ∀ b ∈ s.path.head?, d.Edge b a) (hf : Followed d s.Closed stack (some a)) :
    (⟨roots, ⟨a, d.next a⟩ :: stack, (a, .opened) :: s.marks⟩ : Search α).Inv d where
  opened_iff x := by
    rw [mark?_cons, path, List.map_cons, hpath, List.mem_cons]
    by_cases hx : x = a
    · simp [hx]
    · rw [if_neg hx]
      exact (h.opened_iff x).trans (or_iff_right hx).symm
  path_nodup := by
    rw [path, List.map_cons, hpath]
    exact List.nodup_cons.2 ⟨h.not_mem_path ha, h.path_nodup⟩
  linked := by
    rw [path, List.map_cons, hpath]
    exact List.isChain_cons.2 ⟨hlink, h.linked⟩
  followed :=
    ⟨fun b hb => hb, fun b hb => .inl hb, hf.imp fun x hx => (closed_cons_opened ha x).2 hx⟩
  closed_next x hx b hb := by
    rw [closed_cons_opened ha] at hx ⊢
    exact h.closed_next x hx b hb
  closed_acyclic x hx := h.closed_acyclic x ((closed_cons_opened ha x).1 hx)

theorem Inv.closed_of_reflTransGen (h : s.Inv d) {a b : α} (ha : s.Closed a)
    (hab : ReflTransGen d.Edge a b) : s.Closed b := by
  induction hab with
  | refl => exact ha
  | tail _ hbc ih => exact h.closed_next _ ih _ hbc

/-- Closing the innermost open node. It leads to closed nodes only, and those only to closed ones, so
it does not lead back to itself. -/
theorem Inv.close {roots : List α} {a : α} {below : List (Frame α)} {marks : List (α × Mark)}
    (h : (⟨roots, ⟨a, []⟩ :: below, marks⟩ : Search α).Inv d) :
    (⟨roots, below, (a, .closed) :: marks⟩ : Search α).Inv d := by
  obtain ⟨hopen, hnodup, hlinked, ⟨-, hf, hbelow⟩, hnext, hacyclic⟩ := id h
  obtain ⟨hnot, hnodup⟩ := List.nodup_cons.1 hnodup
  have hclosed : ∀ b, d.Edge a b → (⟨roots, ⟨a, []⟩ :: below, marks⟩ : Search α).Closed b := by
    intro b hb
    simpa using hf b hb
  refine ⟨fun x => ?_, hnodup, hlinked.tail, ?_, ?_, ?_⟩
  · rw [mark?_cons]
    by_cases hx : x = a
    · rw [if_pos hx, hx]
      exact iff_of_false (fun h => by cases h) hnot
    · rw [if_neg hx]
      exact (hopen x).trans (List.mem_cons.trans (or_iff_right hx))
  · refine Followed.of_closed ((closed_cons_closed a).2 (.inl rfl)) (hbelow.imp fun x hx => ?_)
    exact (closed_cons_closed x).2 (.inr hx)
  · intro x hx b hb
    refine (closed_cons_closed b).2 (.inr ?_)
    rcases (closed_cons_closed x).1 hx with rfl | hx
    · exact hclosed b hb
    · exact hnext x hx b hb
  · intro x hx hxx
    rcases (closed_cons_closed x).1 hx with rfl | hx
    · obtain ⟨b, hxb, hbx⟩ := TransGen.head'_iff.1 hxx
      have hcl := h.closed_of_reflTransGen (hclosed b hxb) hbx
      rw [Closed, (hopen x).2 (List.mem_cons_self ..)] at hcl
      cases hcl
    · exact hacyclic x hx hxx

/-- Every move keeps the invariant. -/
theorem Inv.move (h : s.Inv d) (hm : Move d s t) : t.Inv d := by
  cases hm with
  | skipRoot => exact h.with_stack rfl trivial
  | enterRoot hr => exact h.enter hr rfl (by simp [path]) trivial
  | close => exact h.close
  | skipEdge hb =>
    obtain ⟨hrest, hf, hbelow⟩ := h.followed
    refine h.with_stack rfl ⟨fun c hc => hrest c (List.mem_cons_of_mem _ hc), fun c hc => ?_, hbelow⟩
    rcases hf c hc with hmem | hcl | habove
    · rcases List.mem_cons.1 hmem with rfl | hmem
      · exact .inr (.inl hb)
      · exact .inl hmem
    · exact .inr (.inl hcl)
    · cases habove
  | enterEdge hb =>
    obtain ⟨hrest, hf, hbelow⟩ := h.followed
    refine h.enter hb rfl ?_ ⟨fun c hc => hrest c (List.mem_cons_of_mem _ hc), fun c hc => ?_, hbelow⟩
    · rintro c ⟨⟩
      exact hrest _ (List.mem_cons_self ..)
    · rcases hf c hc with hmem | hcl | habove
      · rcases List.mem_cons.1 hmem with rfl | hmem
        · exact .inr (.inr rfl)
        · exact .inl hmem
      · exact .inr (.inl hcl)
      · cases habove

/-- The search comes from one state to another in any number of steps. -/
def Leads (d : Digraph α) : Search α → Search α → Prop :=
  ReflTransGen fun s t => s.step d = .moved t

/-- The invariant holds wherever the search comes to. -/
theorem Inv.leads (h : s.Inv d) (hl : Leads d s t) : t.Inv d := by
  induction hl with
  | refl => exact h
  | tail _ hstep ih => exact ih.move (move_of_step hstep)

end Search

end Provenance.Digraph
