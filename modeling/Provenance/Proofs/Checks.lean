import Mathlib

/-!
Checks in sequence. A chain of checks succeeds exactly when each of them does, and a check of every
entry of a list exactly when each entry passes. To compare each entry with those before it is to ask
that no two of them are equal.
-/

namespace Provenance.Checks

variable {ε ε' α β : Type}

theorem bind_eq_ok {x : Except ε α} {f : α → Except ε β} {b : β} :
    x >>= f = .ok b ↔ ∃ a, x = .ok a ∧ f a = .ok b := by
  cases x with
  | error e => exact iff_of_false (fun h => by cases h) fun ⟨_, h, _⟩ => by cases h
  | ok a =>
    refine ⟨fun h => ⟨a, rfl, h⟩, ?_⟩
    rintro ⟨_, ⟨⟩, h⟩
    exact h

theorem pure_eq_ok {a b : α} : (pure a : Except ε α) = .ok b ↔ a = b := Except.ok.injEq a b ▸ Iff.rfl

theorem exists_eq_ok_of_isOk {x : Except ε α} (h : x.isOk = true) : ∃ a, x = .ok a := by
  cases x with
  | error e => cases h
  | ok a => exact ⟨a, rfl⟩

theorem mapError_eq_ok {x : Except ε α} {f : ε → ε'} {a : α} :
    x.mapError f = .ok a ↔ x = .ok a := by
  cases x with
  | error e => exact iff_of_false (fun h => by cases h) fun h => by cases h
  | ok b =>
    constructor
    · rintro ⟨⟩
      rfl
    · rintro ⟨⟩
      rfl

/-- Checking every entry gives, entry by entry, what the single checks give. -/
theorem mapM_eq_ok_iff {f : α → Except ε β} :
    ∀ {xs : List α} {ys : List β}, xs.mapM f = .ok ys ↔ List.Forall₂ (f · = .ok ·) xs ys
  | [], ys => by
    rw [List.mapM_nil, pure_eq_ok, List.forall₂_nil_left_iff]
    exact eq_comm
  | x :: xs, ys => by
    rw [List.mapM_cons, bind_eq_ok, List.forall₂_cons_left_iff]
    refine exists_congr fun y => ?_
    rw [bind_eq_ok]
    constructor
    · rintro ⟨hy, zs, hzs, h⟩
      exact ⟨zs, hy, mapM_eq_ok_iff.1 hzs, (pure_eq_ok.1 h).symm⟩
    · rintro ⟨zs, hy, hzs, rfl⟩
      exact ⟨hy, zs, mapM_eq_ok_iff.2 hzs, rfl⟩

theorem exists_mapM_eq_ok_iff {f : α → Except ε β} :
    ∀ {xs : List α}, (∃ ys, xs.mapM f = .ok ys) ↔ ∀ x ∈ xs, ∃ y, f x = .ok y
  | [] => iff_of_true ⟨[], rfl⟩ (List.forall_mem_nil _)
  | x :: xs => by
    rw [List.forall_mem_cons, ← exists_mapM_eq_ok_iff]
    simp only [mapM_eq_ok_iff, List.forall₂_cons_left_iff]
    constructor
    · rintro ⟨_, y, ys, hy, hys, rfl⟩
      exact ⟨⟨y, hy⟩, ys, hys⟩
    · rintro ⟨⟨y, hy⟩, ys, hys⟩
      exact ⟨y :: ys, y, ys, hy, hys, rfl⟩

theorem forM_eq_ok_iff {f : α → Except ε Unit} :
    ∀ {xs : List α}, xs.forM f = .ok () ↔ ∀ x ∈ xs, f x = .ok ()
  | [] => iff_of_true rfl (List.forall_mem_nil _)
  | x :: xs => by
    rw [List.forM_eq_forM, List.forM_cons, bind_eq_ok, List.forall_mem_cons, ← forM_eq_ok_iff]
    exact ⟨fun ⟨_, hx, hxs⟩ => ⟨hx, hxs⟩, fun ⟨hx, hxs⟩ => ⟨(), hx, hxs⟩⟩

/-- What is related entry by entry has a partner for every entry. -/
theorem exists_rel_of_mem {R : α → β → Prop} {xs : List α} {ys : List β} (h : List.Forall₂ R xs ys) :
    (∀ x ∈ xs, ∃ y ∈ ys, R x y) ∧ ∀ y ∈ ys, ∃ x ∈ xs, R x y := by
  induction h with
  | nil => exact ⟨List.forall_mem_nil _, List.forall_mem_nil _⟩
  | cons hxy _ ih =>
    rw [List.forall_mem_cons, List.forall_mem_cons]
    refine ⟨⟨⟨_, List.mem_cons_self .., hxy⟩, fun x hx => ?_⟩,
      ⟨_, List.mem_cons_self .., hxy⟩, fun y hy => ?_⟩
    · obtain ⟨y, hy, hrel⟩ := ih.1 x hx
      exact ⟨y, List.mem_cons_of_mem _ hy, hrel⟩
    · obtain ⟨x, hx, hrel⟩ := ih.2 y hy
      exact ⟨x, List.mem_cons_of_mem _ hx, hrel⟩

/-- Every result is the result of an entry. -/
theorem exists_of_mem_mapM {f : α → Except ε β} {y : β} {xs : List α} {ys : List β}
    (h : xs.mapM f = .ok ys) (hy : y ∈ ys) : ∃ x ∈ xs, f x = .ok y :=
  (exists_rel_of_mem (mapM_eq_ok_iff.1 h)).2 y hy

/-- The result of an entry is among the results. -/
theorem mem_of_mapM {f : α → Except ε β} {xs : List α} {ys : List β} {x : α} {y : β}
    (h : xs.mapM f = .ok ys) (hx : x ∈ xs) (hy : f x = .ok y) : y ∈ ys := by
  obtain ⟨z, hz, hxz⟩ := (exists_rel_of_mem (mapM_eq_ok_iff.1 h)).1 x hx
  cases hy.symm.trans hxz
  exact hz

theorem map_eq_map_of_forall₂ {γ : Type} {u : α → γ} {v : β → γ} {xs : List α} {ys : List β}
    (h : List.Forall₂ (fun x y => u x = v y) xs ys) : xs.map u = ys.map v := by
  induction h with
  | nil => rfl
  | cons hx _ ih => rw [List.map_cons, List.map_cons, hx, ih]

/-- What each check keeps of its entry, a check of the list keeps of the list. -/
theorem map_eq_map_of_mapM {γ : Type} {f : α → Except ε β} {u : α → γ} {v : β → γ}
    (hf : ∀ {x y}, f x = .ok y → v y = u x) {xs : List α} {ys : List β}
    (h : xs.mapM f = .ok ys) : ys.map v = xs.map u := by
  have hrel : List.Forall₂ (fun x y => u x = v y) xs ys :=
    (mapM_eq_ok_iff.1 h).imp fun _ _ hx => (hf hx).symm
  exact (map_eq_map_of_forall₂ hrel).symm

/-- Lists whose entries are checked alike, one by one, are checked alike. -/
theorem mapM_eq_mapM_of_forall₂ {γ : Type} {f : α → Except ε γ} {f' : β → Except ε γ}
    {xs : List α} {ys : List β} (h : List.Forall₂ (fun x y => f x = f' y) xs ys) :
    xs.mapM f = ys.mapM f' := by
  induction h with
  | nil => rfl
  | cons hx _ ih => rw [List.mapM_cons, List.mapM_cons, hx, ih]

/-- The entries of a list can be checked in any order. -/
theorem exists_mapM_of_perm {f : α → Except ε β} {xs xs' : List α} {ys : List β}
    (hperm : xs.Perm xs') (h : xs.mapM f = .ok ys) :
    ∃ ys', xs'.mapM f = .ok ys' ∧ ys.Perm ys' := by
  obtain ⟨ys', hrel, hys⟩ := List.perm_comp_forall₂ hperm.symm (mapM_eq_ok_iff.1 h)
  exact ⟨ys', mapM_eq_ok_iff.2 hrel, hys.symm⟩

/-- The first entry is checked against what was seen, and the others against it as well. -/
theorem nodup_cons_fresh_iff {x : α} {xs seen : List α} :
    ((x :: xs).Nodup ∧ ∀ y ∈ x :: xs, y ∉ seen) ↔
      x ∉ seen ∧ xs.Nodup ∧ ∀ y ∈ xs, y ∉ x :: seen := by
  rw [List.nodup_cons, List.forall_mem_cons]
  constructor
  · rintro ⟨⟨hx, hxs⟩, hseen, hfresh⟩
    refine ⟨hseen, hxs, fun y hy hmem => ?_⟩
    rcases List.mem_cons.1 hmem with rfl | hmem
    · exact hx hy
    · exact hfresh y hy hmem
  · rintro ⟨hseen, hxs, hfresh⟩
    refine ⟨⟨fun hx => hfresh x hx (List.mem_cons_self ..), hxs⟩, hseen, fun y hy hmem => ?_⟩
    exact hfresh y hy (List.mem_cons_of_mem x hmem)

/-- A check of what may be absent gives what the check of it gives, if it is there. -/
theorem option_mapM_eq_ok_iff {f : α → Except ε β} {x : Option α} {y : Option β} :
    x.mapM f = .ok y ↔ Option.Rel (f · = .ok ·) x y := by
  cases x with
  | none =>
    constructor
    · rintro ⟨⟩
      exact .none
    · rintro ⟨⟩
      rfl
  | some a =>
    rw [Option.mapM_some]
    cases hf : f a with
    | error e =>
      refine iff_of_false (fun h => by cases h) ?_
      rintro ⟨h⟩
      cases hf.symm.trans h
    | ok b =>
      constructor
      · rintro ⟨⟩
        exact .some hf
      · rintro (⟨h⟩ | _)
        cases hf.symm.trans h
        rfl

theorem exists_option_mapM_eq_ok_iff {f : α → Except ε β} {x : Option α} :
    (∃ y, x.mapM f = .ok y) ↔ ∀ a ∈ x, ∃ b, f a = .ok b := by
  simp only [option_mapM_eq_ok_iff]
  cases x with
  | none => exact iff_of_true ⟨none, .none⟩ fun _ h => by cases h
  | some a =>
    constructor
    · rintro ⟨_, ⟨h⟩⟩ _ ⟨⟩
      exact ⟨_, h⟩
    · intro h
      obtain ⟨b, hb⟩ := h a rfl
      exact ⟨some b, .some hb⟩

end Provenance.Checks
