import Provenance.Artifact
import Provenance.Proofs.Path.Spelling

/-!
Normal spelling of paths. A path can also be rebuilt from the parts of its text, pushing one after the
other onto an empty path, and that gives the normal spelling. It holds the names of the text in their
order, with single separators between them, and is its own normal spelling; so two texts have the same
normal spelling exactly if both or none are absolute and their names are the same.
-/

namespace Provenance.Path

variable {p : Path} {s t : String} {cs : List String} {base : String}

/-- A text is absolute if it starts with a separator. -/
def IsAbsolute (s : String) : Prop := s.toList.head? = some '/'

instance : DecidablePred IsAbsolute := fun s => inferInstanceAs (Decidable (s.toList.head? = _))

/-- What stands between the separators of a text. -/
def pieces (s : String) : List String := (s.toList.splitOn '/').map String.ofList

/-- The pieces of a text that are neither empty nor `.`. -/
def names (s : String) : List String := (pieces s).filter fun c => c ≠ "" ∧ c ≠ "."

/-- What the text of a path consists of, on a host with a single root. -/
inductive Part where
  | root
  /-- A `.` that the text starts with. -/
  | here
  | up
  | name (c : String)
  deriving DecidableEq

def Part.text : Part → String
  | root => "/"
  | here => "."
  | up => ".."
  | name c => c

/-- The parts of a text. Repeated and trailing separators do not count, nor does `.` unless the text
starts with it. -/
def parts (s : String) : List Part :=
  (if IsAbsolute s then [.root] else if (pieces s).head? = some "." then [.here] else []) ++
    (names s).map fun c => if c = ".." then .up else .name c

/-- A path with a text pushed onto it. An absolute text takes the place of the path, and any other goes
behind a separator. -/
def push (base c : String) : String :=
  if IsAbsolute c then c
  else if base = "" ∨ base.toList.getLast? = some '/' then base ++ c
  else base ++ "/" ++ c

/-- The path rebuilt from the parts of a text, but for `.`. -/
def rebuild (s : String) : String :=
  (((parts s).filter (· ≠ .here)).map Part.text).foldl push ""

/-! ### Reading -/

theorem components_ofString (s : String) : (ofString s).components = names s := by
  rw [ofString, names, pieces, ← Text.fields_eq_splitOn]
  refine List.filter_congr fun c hc => ?_
  obtain ⟨f, hf, rfl⟩ := List.mem_map.1 hc
  have hslash : '/' ∉ f := Text.sep_not_mem_fields hf
  simp [IsComponent, hslash]

theorem rooted_ofString_iff : (ofString s).rooted = true ↔ IsAbsolute s := by
  simp [ofString, IsAbsolute]

theorem ofString_eq_iff :
    ofString s = ofString t ↔ (IsAbsolute s ↔ IsAbsolute t) ∧ names s = names t := by
  rw [Path.mk.injEq, components_ofString, components_ofString, ← rooted_ofString_iff,
    ← rooted_ofString_iff, Bool.eq_iff_iff]

/-! ### Rebuilding -/

theorem not_isAbsolute_of_isComponent {c : String} (h : IsComponent c) : ¬IsAbsolute c :=
  fun habsolute => h.2.2 (List.mem_of_mem_head? habsolute)

theorem getLast?_append_of_isComponent {c : String} (h : IsComponent c) (base : String) :
    (base ++ c).toList.getLast? ≠ some '/' := by
  obtain ⟨hne, -, hslash⟩ := h
  have hchars : c.toList ≠ [] := by simpa using hne
  rw [String.toList_append, List.getLast?_append_of_ne_nil _ hchars]
  exact fun hlast => hslash (List.mem_of_mem_getLast? hlast)

/-- Onto a path with a name at its end, components are pushed with a separator in front of each. -/
theorem foldl_push_behind_name : ∀ {cs : List String} {base : String}, (∀ c ∈ cs, IsComponent c) →
    base ≠ "" → base.toList.getLast? ≠ some '/' →
    (cs.foldl push base).toList = base.toList ++ cs.flatMap fun c => '/' :: c.toList
  | [], _, _, _, _ => by simp
  | c :: cs, base, hcs, hne, hlast => by
    obtain ⟨hc, hcs⟩ := List.forall_mem_cons.1 hcs
    have hpush : push base c = base ++ "/" ++ c := by
      rw [push, if_neg (not_isAbsolute_of_isComponent hc), if_neg (by simp [hne, hlast])]
    rw [List.foldl_cons, hpush, foldl_push_behind_name hcs (by simp)
      (getLast?_append_of_isComponent hc _)]
    simp

/-- Onto nothing or the root, components are pushed with separators between them. -/
theorem foldl_push (hcs : ∀ c ∈ cs, IsComponent c) (hbase : base = "" ∨ base = "/") :
    (cs.foldl push base).toList = base.toList ++ Text.join ['/'] (cs.map String.toList) := by
  cases cs with
  | nil => simp [Text.join]
  | cons c cs =>
    obtain ⟨hc, hcs⟩ := List.forall_mem_cons.1 hcs
    have hpush : push base c = base ++ c := by
      rw [push, if_neg (not_isAbsolute_of_isComponent hc), if_pos]
      rcases hbase with rfl | rfl <;> simp
    rw [List.foldl_cons, hpush, foldl_push_behind_name hcs (by simp [hc.1])
      (getLast?_append_of_isComponent hc _), List.map_cons, Text.join_cons_eq_flatMap,
      String.toList_append, List.append_assoc, List.flatMap_map]
    rfl

/-- Without `.`, the parts of a text are the root of an absolute one, and its names. -/
theorem text_parts (s : String) : ((parts s).filter (· ≠ .here)).map Part.text =
    (if IsAbsolute s then ["/"] else []) ++ names s := by
  have hnames (cs : List String) :
      ((cs.map fun c => if c = ".." then Part.up else .name c).filter (· ≠ .here)).map Part.text =
        cs := by
    induction cs with
    | nil => rfl
    | cons c cs ih => by_cases hc : c = ".." <;> simp_all [Part.text]
  rw [parts, List.filter_append, List.map_append, hnames]
  split
  · rfl
  · split <;> rfl

/-- A rebuilt path is the normal spelling of the path that the text names. -/
theorem rebuild_eq_toString (s : String) : rebuild s = (ofString s).toString := by
  have hcs := components_ofString s ▸ (ofString s).components_ok
  rw [rebuild, text_parts, List.foldl_append, ← String.toList_inj, toString, String.toList_ofList,
    components_ofString]
  by_cases hs : IsAbsolute s
  · rw [if_pos hs, if_pos (rooted_ofString_iff.2 hs)]
    exact foldl_push hcs (.inr rfl)
  · rw [if_neg hs, if_neg (mt rooted_ofString_iff.1 hs)]
    exact foldl_push hcs (.inl rfl)

example : rebuild "//./a//.././b/" = "/a/../b" := by decide +kernel

/-! ### Normal spelling -/

theorem toString_of_components_nil (h : p.components = []) :
    p.toString = if p.rooted then "/" else "" := by
  rw [toString, h]
  split <;> rfl

/-- The normal spelling of a path is cut into its components, behind an empty piece for the root. -/
theorem pieces_toString (h : p.components ≠ []) :
    pieces p.toString = (if p.rooted then [""] else []) ++ p.components := by
  have hfields : ∀ f ∈ p.components.map String.toList, '/' ∉ f := by
    rintro f hf
    obtain ⟨c, hc, rfl⟩ := List.mem_map.1 hf
    exact (p.components_ok c hc).2.2
  have hjoin := Text.fields_join (by simpa using h) hfields
  rw [pieces, ← Text.fields_eq_splitOn, toString, String.toList_ofList]
  split
  · rw [List.singleton_append, Text.fields, if_pos rfl, hjoin]
    simp
  · rw [List.nil_append, hjoin]
    simp

theorem dot_not_mem_pieces (p : Path) : "." ∉ pieces p.toString := by
  intro hdot
  by_cases hnil : p.components = []
  · rw [toString_of_components_nil hnil] at hdot
    revert hdot
    split <;> decide
  · rw [pieces_toString hnil, List.mem_append] at hdot
    rcases hdot with hdot | hdot
    · revert hdot
      split <;> simp
    · exact (p.components_ok "." hdot).2.1 rfl

/-- Where no name follows a separator, there is an empty piece behind another piece. -/
theorem exists_pieces_of_gap {a b : List Char} (hs : s.toList = a ++ '/' :: b)
    (hb : b = [] ∨ b.head? = some '/') :
    ∃ front back, pieces s = front ++ "" :: back ∧ front ≠ [] := by
  obtain ⟨back, hback⟩ : ∃ back, b.splitOn '/' = [] :: back := by
    rcases hb with rfl | hb
    · exact ⟨[], List.splitOn_nil _⟩
    · obtain ⟨r, rfl⟩ := List.head?_eq_some_iff.1 hb
      exact ⟨r.splitOn '/', by simp [List.splitOn_cons_eq_if_modifyHead]⟩
  refine ⟨(a.splitOn '/').map String.ofList, back.map String.ofList, ?_, ?_⟩
  · rw [pieces, hs, List.splitOn_append_cons_self, hback, List.map_append, List.map_cons]
  · simp [List.splitOn_ne_nil]

/-- In a normal spelling a name follows each separator, unless the path is the root alone. -/
theorem eq_root_of_gap {a b : List Char} (hp : p.toString.toList = a ++ '/' :: b)
    (hb : b = [] ∨ b.head? = some '/') : p.toString = "/" := by
  by_cases hnil : p.components = []
  · rw [toString_of_components_nil hnil] at hp ⊢
    split
    · rfl
    · simp_all
  · obtain ⟨front, back, hpieces, hfront⟩ := exists_pieces_of_gap hp hb
    have hempty : "" ∈ p.components := by
      rw [pieces_toString hnil] at hpieces
      rcases List.append_eq_append_iff.1 hpieces with ⟨mid, -, hcs⟩ | ⟨mid, hroot, hcs⟩
      · simp [hcs]
      · -- the root is one piece at most, and there is a piece in front of the gap already
        have hlen : front.length + mid.length ≤ 1 := by
          rw [← List.length_append, ← hroot]
          split <;> simp
        have hpos := List.length_pos_iff.2 hfront
        have hmid : mid = [] := List.length_eq_zero_iff.1 (by omega)
        rw [hmid, List.nil_append] at hcs
        simp [← hcs]
    exact absurd rfl (p.components_ok "" hempty).1

/-- A text is the normal spelling of the path that another text names. -/
structure NormalSpelling (n s : String) : Prop where
  /-- The text is rebuilt as itself. -/
  fixed : rebuild n = n
  names_eq : names n = names s
  isAbsolute_iff : IsAbsolute n ↔ IsAbsolute s
  dot_not_mem : "." ∉ pieces n
  /-- No piece between two separators is empty. -/
  not_doubled : ¬['/', '/'] <:+: n.toList
  not_trailing : n.toList.getLast? = some '/' → n = "/"

theorem normalSpelling_toString (s : String) : NormalSpelling (ofString s).toString s := by
  obtain ⟨habsolute, hnames⟩ := ofString_eq_iff.1 (ofString_toString (ofString s))
  refine ⟨?_, hnames, habsolute, dot_not_mem_pieces _, ?_, ?_⟩
  · rw [rebuild_eq_toString, ofString_toString]
  · rintro ⟨a, b, hab⟩
    have hgap : (ofString s).toString.toList = a ++ '/' :: '/' :: b := by simp [← hab]
    have hlen := congrArg List.length hgap
    rw [eq_root_of_gap hgap (.inr rfl)] at hlen
    simp only [List.length_append, List.length_cons] at hlen
    have hroot : "/".toList.length = 1 := rfl
    omega
  · intro hlast
    obtain ⟨a, ha⟩ := List.getLast?_eq_some_iff.1 hlast
    exact eq_root_of_gap ha (.inl rfl)

/-- The path of an artifact is the normal spelling of its text, however it is rebuilt from it. Two
artifacts have the same path, and the same spelling of it, exactly if both or none of their texts are
absolute and the names in them are the same. -/
theorem artifact_path_normal :
    (∀ s, let a := Artifact.file (ofString s)
        a.path.toString = rebuild s ∧ NormalSpelling a.path.toString s) ∧
      ∀ s t, let a := Artifact.file (ofString s)
        let b := Artifact.file (ofString t)
        (a.path = b.path ↔ (IsAbsolute s ↔ IsAbsolute t) ∧ names s = names t) ∧
          (a.path.toString = b.path.toString ↔ a.path = b.path) := by
  refine ⟨fun s => ⟨?_, normalSpelling_toString s⟩, fun s t => ⟨ofString_eq_iff, ?_⟩⟩
  · exact (rebuild_eq_toString s).symm
  · exact toString_injective.eq_iff

end Provenance.Path
