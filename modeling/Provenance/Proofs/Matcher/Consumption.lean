import Provenance.Proofs.Matcher.Offers

/-!
The files that offers consume. An offer consumes the first of its candidates that is pending, and
nothing if none of them is; whatever it does to a matcher follows from what it consumes. A matcher
that waits for one file gives it to the first offer that the file matches.
-/

namespace Provenance

namespace PendingFiles

theorem contains_iff {p : PendingFiles} {f : String} : p.contains f = true ↔ f ∈ p.files :=
  List.contains_iff_mem

theorem files_erase {p : PendingFiles} {f : String} :
    (p.erase f).files = p.files.filter (· ≠ f) := by
  simp [erase, p.files_nodup.erase_eq_filter, bne, beq_eq_decide]

theorem mem_erase_iff {p : PendingFiles} {f x : String} :
    x ∈ (p.erase f).files ↔ x ≠ f ∧ x ∈ p.files :=
  p.files_nodup.mem_erase_iff

/-- Of the pending files, the erased one is the one that is gone. -/
theorem find?_not_mem_erase {p : PendingFiles} {f : String} (hf : f ∈ p.files) :
    p.files.find? (· ∉ (p.erase f).files) = some f := by
  have hgone (x : String) (hx : x ∈ p.files) : x ∉ (p.erase f).files ↔ x = f := by
    rw [mem_erase_iff, not_and]
    exact ⟨fun h => by_contra fun hne => h hne hx, fun h hne => absurd h hne⟩
  cases hfind : p.files.find? (· ∉ (p.erase f).files) with
  | none => exact absurd (List.find?_eq_none.1 hfind f hf) (by simpa using (hgone f hf).2 rfl)
  | some x =>
    have hx : x ∉ (p.erase f).files := by simpa using List.find?_some hfind
    rw [(hgone x (List.mem_of_find?_eq_some hfind)).1 hx]

/-- To take a file that is not pending changes nothing. -/
theorem take_of_not_contains {p : PendingFiles} {f : String} (h : p.contains f = false) :
    p.take f = (false, p) := by
  have hf : f ∉ p.files := fun hmem => by simp [contains_iff.2 hmem] at h
  have herase : p.erase f = p := by
    rw [erase, PendingFiles.mk.injEq]
    exact List.erase_of_not_mem hf
  rw [take, h, herase]

/-- To take a pending file leaves one file fewer. -/
theorem size_take (p : PendingFiles) (f : String) :
    (p.take f).2.size + (if (p.take f).1 then 1 else 0) = p.size := by
  cases hf : p.contains f with
  | true =>
    rw [take, hf, if_pos rfl]
    exact List.length_erase_add_one (contains_iff.1 hf)
  | false =>
    rw [take_of_not_contains hf]
    rfl

/-- As long as files are pending, one can be taken. -/
theorem isEmpty_iff {p : PendingFiles} : p.isEmpty = true ↔ ∀ f, (p.take f).1 = false := by
  rw [isEmpty, List.isEmpty_iff, List.eq_nil_iff_forall_not_mem]
  refine forall_congr' fun f => ?_
  rw [take, Bool.eq_false_iff, Ne, contains_iff]

/-- Of some files, the first one that is pending is taken. -/
theorem takeFirst_eq_find? (p : PendingFiles) : ∀ files : List String,
    p.takeFirst files =
      match files.find? p.contains with
      | some f => (true, p.erase f)
      | none => (false, p)
  | [] => rfl
  | f :: files => by
    rw [takeFirst, List.find?_cons]
    cases hf : p.contains f with
    | true =>
      rw [take, hf]
      rfl
    | false =>
      rw [take_of_not_contains hf]
      exact takeFirst_eq_find? p files

/-- The files of a request are pending in order of their first mention. -/
theorem files_ofList (files : List String) : (ofList files).files = files.eraseDups := by
  have hdistinct : ∀ files seen : List String,
      distinct seen files = (files.filter (· ∉ seen)).eraseDups := by
    intro files
    induction files with
    | nil => intro seen; rfl
    | cons f r ih =>
      intro seen
      by_cases hf : f ∈ seen
      · simp [distinct, hf, ih]
      · simp [distinct, hf, ih, List.eraseDups_cons, List.filter_filter, beq_eq_decide]
  simpa [ofList] using hdistinct files []

end PendingFiles

namespace Matcher

variable {g : Graph} {m m' : Matcher} {o : Offer} {os : List Offer} {f : String}

/-- An offer looks for two kinds of files one after the other, which comes down to one search among
its candidates. -/
theorem offer_eq_find? (m : Matcher) (g : Graph) (t : Target) (a : Action) :
    m.offer g t (some a) =
      match (candidates g a t).find? m.pending.contains with
      | some f => (m.mnemonics.allows a, { m with pending := m.pending.erase f })
      | none => (false, m) := by
  simp only [offer, candidates, List.find?_append, PendingFiles.takeFirst_eq_find?]
  cases ((g.expand a.inputs).map (·.path.toString)).find? m.pending.contains with
  | some f => rfl
  | none =>
    cases (t.listedFiles Target.headers).find? m.pending.contains with
    | some f => rfl
    | none => rfl

/-- The file that an offer consumes: it is pending before the offer and no more after it. -/
def consumed? (m : Matcher) (g : Graph) (o : Offer) : Option String :=
  m.pending.files.find? (· ∉ (m.offer g o.1 (some o.2)).2.pending.files)

/-- The file that is gone is the first candidate that was pending. -/
theorem consumed?_eq_find? :
    m.consumed? g o = (candidates g o.2 o.1).find? m.pending.contains := by
  cases hfind : (candidates g o.2 o.1).find? m.pending.contains with
  | none =>
    simp only [consumed?, offer_eq_find?, hfind]
    exact List.find?_eq_none.2 fun f hf hgone => of_decide_eq_true hgone hf
  | some f =>
    simp only [consumed?, offer_eq_find?, hfind]
    exact PendingFiles.find?_not_mem_erase (PendingFiles.contains_iff.1 (List.find?_some hfind))

theorem offer_of_consumed?_eq_none (h : m.consumed? g o = none) :
    m.offer g o.1 (some o.2) = (false, m) := by
  rw [consumed?_eq_find?] at h
  simp only [offer_eq_find?, h]

theorem offer_of_consumed?_eq_some (h : m.consumed? g o = some f) :
    m.offer g o.1 (some o.2) =
      (m.mnemonics.allows o.2, { m with pending := m.pending.erase f }) := by
  rw [consumed?_eq_find?] at h
  simp only [offer_eq_find?, h]

/-- Nothing is consumed exactly if no pending file matches the offer. -/
theorem consumed?_eq_none_iff :
    m.consumed? g o = none ↔ ∀ f ∈ m.pending.files, ¬Matches g f o := by
  rw [consumed?_eq_find?, List.find?_eq_none]
  constructor
  · exact fun h f hf hmatches => h f hmatches (PendingFiles.contains_iff.2 hf)
  · exact fun h f hmatches hf => h f (PendingFiles.contains_iff.1 hf) hmatches

theorem mem_pending_of_consumed? (h : m.consumed? g o = some f) : f ∈ m.pending.files :=
  List.mem_of_find?_eq_some h

theorem matches_of_consumed? (h : m.consumed? g o = some f) : Matches g f o :=
  List.mem_of_find?_eq_some (consumed?_eq_find? ▸ h)

/-- A file that is consumed where more files are pending is consumed where it is pending among
fewer. -/
theorem consumed?_of_subset (hsub : m.pending.files ⊆ m'.pending.files)
    (h : m'.consumed? g o = some f) (hf : f ∈ m.pending.files) : m.consumed? g o = some f := by
  rw [consumed?_eq_find?] at h ⊢
  obtain ⟨-, front, back, hcandidates, hfront⟩ := List.find?_eq_some_iff_append.1 h
  refine List.find?_eq_some_iff_append.2
    ⟨PendingFiles.contains_iff.2 hf, front, back, hcandidates, fun x hx => ?_⟩
  -- a candidate before the consumed one is pending in neither matcher
  have hx' : x ∉ m'.pending.files := by simpa [PendingFiles.contains] using hfront x hx
  simpa [PendingFiles.contains] using fun hpending => hx' (hsub hpending)

theorem mnemonics_offer : (m.offer g o.1 (some o.2)).2.mnemonics = m.mnemonics := by
  cases h : m.consumed? g o with
  | none => rw [offer_of_consumed?_eq_none h]
  | some f => rw [offer_of_consumed?_eq_some h]

theorem run_cons_of_none (h : m.consumed? g o = none) : m.run g (o :: os) = m.run g os := by
  rw [run_cons, offer_of_consumed?_eq_none h]
  rfl

theorem run_cons_of_some (h : m.consumed? g o = some f) :
    m.run g (o :: os) =
      ((if m.mnemonics.allows o.2 then [o.2] else []) ++
          (({ m with pending := m.pending.erase f } : Matcher).run g os).1,
        (({ m with pending := m.pending.erase f } : Matcher).run g os).2) := by
  rw [run_cons, offer_of_consumed?_eq_some h]

/-- Offers that match no pending file change nothing. -/
theorem run_of_not_matches : ∀ {os : List Offer} {m : Matcher},
    (∀ o ∈ os, ∀ f ∈ m.pending.files, ¬Matches g f o) → m.run g os = ([], m)
  | [], _, _ => rfl
  | o :: os, m, h => by
    obtain ⟨ho, hos⟩ := List.forall_mem_cons.1 h
    rw [run_cons_of_none (consumed?_eq_none_iff.2 ho), run_of_not_matches hos]

/-- The one pending file is consumed by an offer that it matches. -/
theorem consumed?_of_matches (hfiles : m.pending.files = [f]) (ho : Matches g f o) :
    m.consumed? g o = some f := by
  cases h : m.consumed? g o with
  | none =>
    refine absurd ho (consumed?_eq_none_iff.1 h f ?_)
    rw [hfiles]
    exact List.mem_singleton_self f
  | some x =>
    have hx := mem_pending_of_consumed? h
    rw [hfiles, List.mem_singleton] at hx
    rw [hx]

/-- The one pending file goes to the first offer that it matches, and nothing is left for the offers
after it. -/
theorem run_of_first_match {front back : List Offer} (hfiles : m.pending.files = [f])
    (hfront : ∀ o ∈ front, ¬Matches g f o) (ho : Matches g f o) :
    m.run g (front ++ o :: back) =
      (if m.mnemonics.allows o.2 then [o.2] else [],
        { m with pending := m.pending.erase f }) := by
  have hfront' : m.run g front = ([], m) := by
    refine run_of_not_matches fun o ho x hx => ?_
    rw [hfiles, List.mem_singleton] at hx
    rw [hx]
    exact hfront o ho
  have hback : ({ m with pending := m.pending.erase f } : Matcher).run g back =
      ([], { m with pending := m.pending.erase f }) := by
    refine run_of_not_matches fun o _ x hx => ?_
    simp [PendingFiles.erase, hfiles] at hx
  rw [run_append, hfront', run_cons_of_some (consumed?_of_matches hfiles ho), hback]
  simp

end Matcher

end Provenance
