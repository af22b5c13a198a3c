import Provenance.Graph.Collection
import Provenance.Graph.Expansion
import Provenance.Target

/-!
Matching of actions against requested files. A requested file is pending until an action is offered
that reads it, or whose target lists it as a header; that offer consumes the file, and one offer
consumes one file at most. A mnemonic filter may keep the action from being printed, but the file is
consumed all the same.
-/

namespace Provenance

/-- Requested files that no action has consumed yet, in order of request and without repetition. -/
structure PendingFiles where
  files : List String
  files_nodup : files.Nodup
  deriving DecidableEq

namespace PendingFiles

/-- The first occurrences of some texts that are not among those seen. -/
def distinct (seen : List String) : List String → List String
  | [] => []
  | f :: r => if f ∈ seen then distinct seen r else f :: distinct (f :: seen) r

theorem mem_distinct {f : String} {seen files : List String} :
    f ∈ distinct seen files ↔ f ∈ files ∧ f ∉ seen := by
  induction files generalizing seen with
  | nil => simp [distinct]
  | cons g r ih =>
    by_cases hg : g ∈ seen <;> by_cases hf : f = g <;> simp_all [distinct]

theorem distinct_nodup (seen files : List String) : (distinct seen files).Nodup := by
  induction files generalizing seen with
  | nil => simp [distinct]
  | cons g r ih =>
    by_cases hg : g ∈ seen <;> simp [distinct, hg, ih, mem_distinct]

/-- The files of a request. -/
def ofList (files : List String) : PendingFiles := ⟨distinct [] files, distinct_nodup [] files⟩

def contains (p : PendingFiles) (file : String) : Bool := p.files.contains file

def size (p : PendingFiles) : Nat := p.files.length

def isEmpty (p : PendingFiles) : Bool := p.files.isEmpty

/-- The pending files without one of them. -/
def erase (p : PendingFiles) (file : String) : PendingFiles :=
  ⟨p.files.erase file, p.files_nodup.erase file⟩

/-- Consumes a file, and says whether it was pending. -/
def take (p : PendingFiles) (file : String) : Bool × PendingFiles := (p.contains file, p.erase file)

/-- Consumes the first of some files that is pending, and says whether there was one. -/
def takeFirst (p : PendingFiles) : List String → Bool × PendingFiles
  | [] => (false, p)
  | f :: r =>
    let (taken, p) := p.take f
    if taken then (true, p) else p.takeFirst r

end PendingFiles

/-- The files still asked for, and the mnemonics to print. -/
structure Matcher where
  pending : PendingFiles
  mnemonics : MnemonicFilter

namespace Matcher

/-- Offers an action for a target, and says whether to print it. The real files behind its inputs are
looked for first, and the declared headers of the target if none of them is pending. -/
def offer (m : Matcher) (g : Graph) (t : Target) : Option Action → Bool × Matcher
  | none => (false, m)
  | some a =>
    let (taken, pending) := m.pending.takeFirst ((g.expand a.inputs).map (·.path.toString))
    if taken then (m.mnemonics.allows a, { m with pending })
    else
      let (taken, pending) := pending.takeFirst (t.listedFiles Target.headers)
      if taken then (m.mnemonics.allows a, { m with pending }) else (false, { m with pending })

/-- Offers the generators of some artifacts of a target in turn, and gives the actions to print. -/
def offerAll (m : Matcher) (g : Graph) (t : Target) : List Artifact → List Action × Matcher
  | [] => ([], m)
  | a :: r =>
    let action := g.generator? a.path
    let (take, m) := m.offer g t action
    let (found, m) := m.offerAll g t r
    (if take then action.toList ++ found else found, m)

/-- The actions to print among those that compile a target's files. -/
def gather (m : Matcher) (g : Graph) (t : Target) : List Action × Matcher :=
  m.offerAll g t t.filesToCompile

/-- The actions to print among those that compile the files of some targets, target by target. -/
def gatherAll (m : Matcher) (g : Graph) : List Target → List Action × Matcher
  | [] => ([], m)
  | t :: r =>
    let (found, m) := m.gather g t
    let (more, m) := m.gatherAll g r
    (found ++ more, m)

end Matcher

end Provenance
