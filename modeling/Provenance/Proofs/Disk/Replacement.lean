import Provenance.Disk
import Provenance.Proofs.Checks

/-!
Replacing a file by way of a temporary one. The place that a file of a name would take is in a directory
and is no directory itself, so what is put there changes no other place and keeps every way. The name
leads to the new file, and its text is read back. A temporary file opens no way that was not there
before, and when it is moved or removed, the disk is as if it had never been.
-/

namespace Provenance.Disk

open Checks

variable {d d' : Disk} {p q t : Place} {n : Node} {name text component : String}

theorem directory_eq_ok : d.directory p = .ok q ↔ d.node? p = some .directory ∧ p = q := by
  rw [directory]
  split
  · rename_i h
    rw [h, Except.ok.injEq, and_iff_right rfl]
  · rename_i h
    simp [h]
  · rename_i h
    simp [h]

/-- What a directory is in is in use on account of that directory, listed itself or not. -/
theorem isPrefixOf_of_node?_eq_directory (hp : d.node? p = some .directory) (hq : q <+: p) :
    (q.isPrefixOf d.home || d.nodes.any (q.isPrefixOf ·.1)) = true := by
  have hbelow {r : Place} (hr : p <+: r) : q.isPrefixOf r = true :=
    List.isPrefixOf_iff_prefix.2 (hq.trans hr)
  rw [node?, Option.or_eq_some_iff] at hp
  rw [Bool.or_eq_true, List.any_eq_true]
  rcases hp with hlisted | ⟨-, hunder⟩
  · obtain ⟨l, r, hnodes, -⟩ := List.lookup_eq_some_iff.1 hlisted
    exact .inr ⟨(p, .directory), by simp [hnodes], hbelow (List.prefix_refl p)⟩
  · split at hunder
    · rename_i h
      rw [Bool.or_eq_true, List.any_eq_true] at h
      rcases h with hhome | ⟨e, he, hpe⟩
      · exact .inl (hbelow (List.isPrefixOf_iff_prefix.1 hhome))
      · exact .inr ⟨e, he, hbelow (List.isPrefixOf_iff_prefix.1 hpe)⟩
    · cases hunder

theorem lookup_filter_of_ne (nodes : List (Place × Node)) (hq : q ≠ p) :
    (nodes.filter (·.1 ≠ p)).lookup q = nodes.lookup q := by
  induction nodes with
  | nil => rfl
  | cons e nodes ih => grind

theorem node?_put_self : (d.put p n).node? p = some n := by
  rw [node?, put, List.lookup_cons_self, Option.some_or]

/-- Nothing is listed at a place that is not in use. -/
theorem filter_ne_of_node?_eq_none (hp : d.node? p = none) :
    d.nodes.filter (·.1 ≠ p) = d.nodes := by
  rw [node?, Option.or_eq_none_iff] at hp
  refine List.filter_eq_self.2 fun e he => decide_eq_true ?_
  exact (bne_iff_ne.1 (List.lookup_eq_none_iff.1 hp.1 e he)).symm

/-- A new file that is removed leaves no trace. -/
theorem remove_put (hp : d.node? p = none) : (d.put p n).remove p = d := by
  have hnodes : ((p, n) :: d.nodes.filter (·.1 ≠ p)).filter (·.1 ≠ p) = d.nodes := by
    rw [List.filter_cons_of_neg (by simp), filter_ne_of_node?_eq_none hp,
      filter_ne_of_node?_eq_none hp]
  rw [remove, put, hnodes]

/-- Only what is put last at a place stands there. -/
theorem put_put {n' : Node} : (d.put p n).put p n' = d.put p n' := by
  have hnodes : ((p, n) :: d.nodes.filter (·.1 ≠ p)).filter (·.1 ≠ p) =
      d.nodes.filter (·.1 ≠ p) := by
    rw [List.filter_cons_of_neg (by simp), List.filter_filter]
    simp
  rw [put, put, hnodes, put]

/-- What is put in a directory changes no other place. -/
theorem node?_put_of_ne (hp : d.node? p.dropLast = some .directory) (hq : q ≠ p) :
    (d.put p n).node? q = d.node? q := by
  have hlookup : (d.put p n).nodes.lookup q = d.nodes.lookup q := by
    rw [put, List.lookup_cons, beq_eq_false_iff_ne.2 hq, lookup_filter_of_ne d.nodes hq]
  have hunder : (q.isPrefixOf (d.put p n).home || (d.put p n).nodes.any (q.isPrefixOf ·.1)) =
      (q.isPrefixOf d.home || d.nodes.any (q.isPrefixOf ·.1)) := by
    by_cases hqp : q <+: p
    · -- such a place is above the directory that `p` is in, which has stood there before
      have habove : q <+: p.dropLast := by
        rcases List.eq_nil_or_concat p with rfl | ⟨r, c, rfl⟩
        · exact absurd (List.prefix_nil.1 hqp) hq
        · rw [List.concat_eq_append] at hq hqp ⊢
          rw [List.dropLast_concat]
          exact (List.prefix_concat_iff.1 hqp).resolve_left hq
      rw [isPrefixOf_of_node?_eq_directory hp habove]
      simp [put, List.isPrefixOf_iff_prefix.2 hqp]
    · have hfalse : q.isPrefixOf p = false := by
        rw [Bool.eq_false_iff, Ne, List.isPrefixOf_iff_prefix]
        exact hqp
      have hothers : (d.nodes.filter (·.1 ≠ p)).any (q.isPrefixOf ·.1) =
          d.nodes.any (q.isPrefixOf ·.1) := by
        rw [List.any_filter]
        refine List.any_congr rfl fun e => ?_
        by_cases he : e.1 = p <;> simp [he, hfalse]
      simp only [put, List.any_cons, hfalse, hothers, Bool.false_or]
  rw [node?, node?, hlookup, hunder]

/-- A disk with all the ways of another one: what is in use on that one is in use on it, and the
directories are directories. -/
structure Extends (d' d : Disk) : Prop where
  home : d'.home = d.home
  directory : ∀ {p}, d.node? p = some .directory → d'.node? p = some .directory
  used : ∀ {p}, d.node? p ≠ none → d'.node? p ≠ none

theorem extends_put (hp : d.node? p.dropLast = some .directory) (hfree : d.node? p ≠ some .directory) :
    (d.put p n).Extends d where
  home := rfl
  directory {q} hq := by
    have hne : q ≠ p := by
      rintro rfl
      exact hfree hq
    rw [node?_put_of_ne hp hne, hq]
  used {q} hq := by
    by_cases hne : q = p
    · rw [hne, node?_put_self]
      exact Option.some_ne_none n
    · rwa [node?_put_of_ne hp hne]

theorem Extends.step (h : d'.Extends d) (hstep : d.step p component = .ok q) :
    d'.step p component = .ok q := by
  obtain ⟨r, hr, hq⟩ := bind_eq_ok.1 hstep
  obtain ⟨hp, rfl⟩ := directory_eq_ok.1 hr
  refine bind_eq_ok.2 ⟨p, directory_eq_ok.2 ⟨h.directory hp, rfl⟩, ?_⟩
  split_ifs at hq ⊢
  · exact hq
  · exact hq
  · cases hused : d.node? (p ++ [component]) with
    | none =>
      rw [hused] at hq
      cases hq
    | some n =>
      obtain ⟨n', hn'⟩ := Option.ne_none_iff_exists'.1 (h.used (hused ▸ Option.some_ne_none n))
      rw [hused] at hq
      rw [hn']
      exact hq

/-- Where components lead on a disk, they lead on one with all its ways. -/
theorem Extends.foldlM_step (h : d'.Extends d) {cs : List String} (hfollow : cs.foldlM d.step p = .ok q) :
    cs.foldlM d'.step p = .ok q := by
  induction cs generalizing p with
  | nil => exact hfollow
  | cons c cs ih =>
    rw [List.foldlM_cons] at hfollow ⊢
    obtain ⟨r, hr, hq⟩ := bind_eq_ok.1 hfollow
    exact bind_eq_ok.2 ⟨r, h.step hr, ih hq⟩

/-- Names lead on a disk where they lead on one whose ways it has. -/
theorem Extends.find (h : d'.Extends d) (hfind : d.find name = .ok p) : d'.find name = .ok p := by
  obtain ⟨⟨⟩, hchecked, hrest⟩ := bind_eq_ok.1 hfind
  obtain ⟨r, hfollow, hr⟩ := bind_eq_ok.1 hrest
  have hstart : d'.start name = d.start name := by rw [start, start, h.home]
  refine bind_eq_ok.2 ⟨(), hchecked, bind_eq_ok.2 ⟨r, hstart ▸ h.foldlM_step hfollow, ?_⟩⟩
  split_ifs at hr ⊢
  · obtain ⟨hdirectory, rfl⟩ := directory_eq_ok.1 hr
    exact directory_eq_ok.2 ⟨h.directory hdirectory, rfl⟩
  · exact hr

/-- A way to a directory is there on every disk with the same home that has the directories of this
one. -/
theorem foldlM_step_of_directories (hdirs : ∀ q, d'.node? q = some .directory → d.node? q = some .directory)
    {cs : List String} (hfollow : cs.foldlM d'.step p = .ok q) (hq : d'.node? q = some .directory) :
    cs.foldlM d.step p = .ok q ∧ d'.node? p = some .directory := by
  induction cs generalizing p with
  | nil =>
    obtain rfl := Except.ok.inj hfollow
    exact ⟨rfl, hq⟩
  | cons c cs ih =>
    rw [List.foldlM_cons] at hfollow ⊢
    obtain ⟨r, hstep, hrest⟩ := bind_eq_ok.1 hfollow
    obtain ⟨hfollow', hr⟩ := ih hrest
    obtain ⟨p', hp', hnext⟩ := bind_eq_ok.1 hstep
    obtain ⟨hp, rfl⟩ := directory_eq_ok.1 hp'
    refine ⟨bind_eq_ok.2 ⟨r, bind_eq_ok.2 ⟨p, directory_eq_ok.2 ⟨hdirs p hp, rfl⟩, ?_⟩, hfollow'⟩, hp⟩
    split_ifs at hnext ⊢
    · exact hnext
    · exact hnext
    · -- the component leads to a directory, which both disks have
      cases hused : d'.node? (p ++ [c]) with
      | none =>
        rw [hused] at hnext
        cases hnext
      | some n =>
        rw [hused] at hnext
        obtain rfl := Except.ok.inj hnext
        rw [hdirs _ hr]

/-- The last component of a name. -/
def last (name : String) : String := (components name).getLastD ""

theorem components_eq_concat (name : String) :
    components name = (components name).dropLast ++ [last name] := by
  have hne : components name ≠ [] := fun h => Text.fields_ne_nil _ _ (List.map_eq_nil_iff.1 h)
  rw [last, List.getLastD_eq_getLast?, List.getLast?_eq_some_getLast hne, Option.getD_some,
    List.dropLast_concat_getLast hne]

/-- A name whose last component a file in a directory may have. -/
structure Vacant (d : Disk) (name : String) (directory : Place) : Prop where
  checked : checkName name = .ok ()
  follow : (components name).dropLast.foldlM d.step (d.start name) = .ok directory
  isDirectory : d.node? directory = some .directory
  plain : last name ≠ "" ∧ last name ≠ "." ∧ last name ≠ ".."
  short : ¬maxName < (last name).utf8ByteSize
  unclosed : name.toList.getLast? ≠ some '/'
  free : d.node? (directory ++ [last name]) ≠ some .directory

theorem exists_vacant_of_vacancy (h : d.vacancy name = .ok p) :
    ∃ r, d.Vacant name r ∧ p = r ++ [last name] := by
  obtain ⟨⟨⟩, hchecked, h⟩ := bind_eq_ok.1 h
  obtain ⟨r, hfollow, h⟩ := bind_eq_ok.1 h
  obtain ⟨r', hdirectory, h⟩ := bind_eq_ok.1 h
  obtain ⟨hr, rfl⟩ := directory_eq_ok.1 hdirectory
  dsimp only at h
  rw [← last] at h
  split_ifs at h with hplain hlong hclosed hfree
  have hordinary : last name ≠ "" ∧ last name ≠ "." ∧ last name ≠ ".." := by
    simpa [not_or, and_assoc] using hplain
  exact ⟨r, ⟨hchecked, hfollow, hr, hordinary, hlong, hclosed, hfree⟩, (Except.ok.inj h).symm⟩

namespace Vacant

variable {directory : Place}

theorem extends_put (h : d.Vacant name directory) : (d.put (directory ++ [last name]) n).Extends d :=
  Disk.extends_put (by rw [List.dropLast_concat, h.isDirectory]) h.free

/-- The name leads to what is put at its place. -/
theorem find_put (h : d.Vacant name directory) :
    (d.put (directory ++ [last name]) n).find name = .ok (directory ++ [last name]) := by
  have hext : (d.put (directory ++ [last name]) n).Extends d := h.extends_put
  have hlast : (d.put (directory ++ [last name]) n).step directory (last name) =
      .ok (directory ++ [last name]) := by
    refine bind_eq_ok.2 ⟨directory, directory_eq_ok.2 ⟨hext.directory h.isDirectory, rfl⟩, ?_⟩
    simp [h.plain, h.short, node?_put_self]
  have hfollow : (components name).foldlM (d.put (directory ++ [last name]) n).step
      ((d.put (directory ++ [last name]) n).start name) = .ok (directory ++ [last name]) := by
    rw [components_eq_concat, List.foldlM_append]
    refine bind_eq_ok.2 ⟨directory, hext.foldlM_step h.follow, ?_⟩
    exact bind_eq_ok.2 ⟨_, hlast, rfl⟩
  refine bind_eq_ok.2 ⟨(), h.checked, bind_eq_ok.2 ⟨_, hfollow, ?_⟩⟩
  rw [if_neg h.unclosed]

end Vacant

/-- Where a name leads to a file, its text is read. -/
theorem read_eq_ok (hfind : d.find name = .ok p) (hp : d.node? p = some (.file text.toUTF8)) :
    d.read name = .ok text := by
  refine bind_eq_ok.2 ⟨p, hfind, ?_⟩
  have htext : String.fromUTF8? text.toUTF8 = some text := dif_pos text.isValidUTF8
  rw [hp]
  simp only [htext]

/-- A disk with one file of another one replaced, or with one file more: that of a name, which now holds
a text. -/
structure Replaced (d : Disk) (name text : String) (d' : Disk) (p : Place) : Prop where
  home : d'.home = d.home
  homeName : d'.homeName = d.homeName
  /-- The file is where the name led to before, if it led anywhere. -/
  place : ∀ q, d.find name = .ok q → q = p
  find : d'.find name = .ok p
  read : d'.read name = .ok text
  others : ∀ q, q ≠ p → d'.node? q = d.node? q

/-- What is put where a file of a name would go replaces that file. -/
theorem Vacant.replaced_put {directory : Place} (h : d.Vacant name directory) :
    d.Replaced name text (d.put (directory ++ [last name]) (.file text.toUTF8))
      (directory ++ [last name]) where
  home := rfl
  homeName := rfl
  place q hq := by
    have hfind := (h.extends_put (n := .file text.toUTF8)).find hq
    exact Except.ok.inj (hfind.symm.trans h.find_put)
  find := h.find_put
  read := read_eq_ok h.find_put node?_put_self
  others q hq := node?_put_of_ne (by rw [List.dropLast_concat, h.isDirectory]) hq

/-- A place in a directory that is not in use. -/
structure Free (d : Disk) (t : Place) : Prop where
  inDirectory : d.node? t.dropLast = some .directory
  unused : d.node? t = none

/-- A new file in a directory takes a free place. -/
theorem free_of_newPlace {directory file : String} (h : d.newPlace directory file = .ok t) :
    d.Free t ∧ ∃ r, t = r ++ [file] := by
  obtain ⟨⟨⟩, -, h⟩ := bind_eq_ok.1 h
  obtain ⟨r', -, h⟩ := bind_eq_ok.1 h
  obtain ⟨r, hr, h⟩ := bind_eq_ok.1 h
  obtain ⟨hdirectory, rfl⟩ := directory_eq_ok.1 hr
  cases hfree : d.node? (r' ++ [file]) with
  | some n =>
    rw [hfree] at h
    cases h
  | none =>
    rw [hfree] at h
    obtain rfl := Except.ok.inj h
    exact ⟨⟨by rw [List.dropLast_concat, hdirectory], hfree⟩, r', rfl⟩

namespace Free

variable {bytes : ByteArray}

theorem directory_of_put (h : d.Free t) (hq : (d.put t (.file bytes)).node? q = some .directory) :
    d.node? q = some .directory := by
  have hne : q ≠ t := by
    rintro rfl
    rw [node?_put_self] at hq
    cases hq
  rwa [node?_put_of_ne h.inDirectory hne] at hq

/-- Where a file of a name would go beside a new file, it would go without that file. -/
theorem vacant_of_put (h : d.Free t) {r : Place} (hv : (d.put t (.file bytes)).Vacant name r) :
    d.Vacant name r where
  checked := hv.checked
  follow := (foldlM_step_of_directories (fun _ => h.directory_of_put) hv.follow hv.isDirectory).1
  isDirectory := h.directory_of_put hv.isDirectory
  plain := hv.plain
  short := hv.short
  unclosed := hv.unclosed
  free hfree := by
    by_cases hp : r ++ [last name] = t
    · rw [hp, h.unused] at hfree
      cases hfree
    · refine hv.free ?_
      rw [node?_put_of_ne h.inDirectory hp, hfree]

/-- A new file that is moved replaces the file of the name and changes nothing else. -/
theorem exists_replaced_of_move (h : d.Free t)
    (hmove : (d.put t (.file text.toUTF8)).move t name = .ok d') : ∃ p, d.Replaced name text d' p := by
  obtain ⟨p, hp, hmove⟩ := bind_eq_ok.1 hmove
  obtain ⟨directory, hvacant', rfl⟩ := exists_vacant_of_vacancy hp
  have hvacant := h.vacant_of_put hvacant'
  rw [node?_put_self] at hmove
  obtain rfl := Except.ok.inj hmove
  rw [remove_put h.unused]
  exact ⟨_, hvacant.replaced_put⟩

end Free

end Provenance.Disk
