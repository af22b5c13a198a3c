import Provenance.Text.Fields

/-!
Reading the words of a command line: settings with and without values, plain words, and a command
that ends the settings before it. A setting that takes a value has it in the same word or in the next
one. A value in a word of its own counts only when the setting is settled, which happens as soon as
another word is understood, or at the end; so a word that is not understood shows before a fault of
the setting in front of it.
-/

namespace Provenance

/-- Why a command line is not understood, or what it asks for instead of a run. -/
inductive UsageError where
  | helpRequested
  | versionRequested
  /-- Nothing is given at all. -/
  | nothingGiven
  | commandMissing
  | unknownCommand
  | unknownArgument
  | argumentMissing
  /-- A setting is given twice that may be given once. -/
  | givenTwice
  /-- A setting has a value that takes none. -/
  | unexpectedValue
  /-- A setting has no value, or one that it does not take. -/
  | invalidValue
  deriving DecidableEq

/-- The exit code of a process that ends so. -/
def UsageError.exitCode : UsageError → Nat
  | helpRequested => 0
  | versionRequested => 0
  | _ => 2

namespace Words

/-- What a setting takes. -/
inductive Takes where
  /-- No value; given once at most. -/
  | nothing
  /-- A value that passes a check; given once at most. -/
  | one (isValid : String → Bool)
  /-- A value each time it is given. -/
  | many
  /-- No value; the setting ends the reading. -/
  | ends (error : UsageError)

/-- Whether a value is due. -/
def Takes.value : Takes → Bool
  | one _ => true
  | many => true
  | _ => false

/-- A setting with its spellings. -/
structure Setting where
  short : Option Char := none
  long : String
  takes : Takes

/-- What may be on a command line, up to a command. -/
structure Grammar where
  settings : List Setting
  commands : List String := []
  /-- Whether plain words are taken. -/
  takesWords : Bool := false

/-- A setting in front of its value. -/
structure Pending where
  setting : Setting
  value : Option String := none

/-- What is read of a command line. -/
structure Reading where
  /-- The settings that were given, by their long names, each with its value if it takes one. -/
  given : List (String × String) := []
  /-- The setting that was read last, if it is not settled. -/
  pending : Option Pending := none
  words : List String := []

namespace Reading

def has (s : Reading) (name : String) : Bool := (s.given.lookup name).isSome

/-- The value of a setting, if it was given. -/
def value? (s : Reading) (name : String) : Option String := s.given.lookup name

/-- The values of a setting, in order. -/
def values (s : Reading) (name : String) : List String :=
  (s.given.filter (·.1 = name)).map Prod.snd

/-- Whether the next word is a value, unless it is a setting itself. -/
def awaitsValue (s : Reading) : Bool := s.pending.any (·.value.isNone)

/-- Takes note of a setting and its value. -/
def note (s : Reading) (t : Setting) (value : Option String) : Except UsageError Reading :=
  match t.takes, value with
  | .ends e, _ => .error e
  | .nothing, _ =>
    if s.has t.long then .error .givenTwice else .ok { s with given := s.given ++ [(t.long, "")] }
  | .one isValid, some v =>
    if s.has t.long then .error .givenTwice
    else if isValid v then .ok { s with given := s.given ++ [(t.long, v)] }
    else .error .invalidValue
  | .many, some v => .ok { s with given := s.given ++ [(t.long, v)] }
  | _, none => .error .invalidValue

/-- Settles the setting that was read last. -/
def settle (s : Reading) : Except UsageError Reading :=
  match s.pending with
  | some p => { s with pending := none }.note p.setting p.value
  | none => .ok s

/-- Takes a setting that was written with a value or without. -/
def take (s : Reading) (t : Setting) (attached : Option String) : Except UsageError Reading := do
  let s ← s.settle
  if t.takes.value && attached.isNone then return { s with pending := some { setting := t } }
  else s.note t attached

/-- Takes a setting that was written out. -/
def takeLong (g : Grammar) (s : Reading) (name : String) (attached : Option String) :
    Except UsageError Reading :=
  match g.settings.find? (·.long = name) with
  | some t => if attached.isSome && !t.takes.value then .error .unexpectedValue else s.take t attached
  | none => .error .unknownArgument

/-- Takes the settings that a word names by one letter each. What follows the letter of a setting
with a value is the value, with an equals sign before it or without. -/
def takeShort (g : Grammar) (s : Reading) : List Char → Except UsageError Reading
  | [] => .ok s
  | c :: r =>
    match g.settings.find? (·.short = some c) with
    | some t =>
      if t.takes.value then
        match r with
        | [] => s.take t none
        | '=' :: r => s.take t (some (String.ofList r))
        | r => s.take t (some (String.ofList r))
      else do takeShort g (← s.take t none) r
    | none => .error .unknownArgument

/-- Takes a word that belongs to no setting. -/
def takeWord (s : Reading) (word : String) : Except UsageError Reading := do
  let s ← s.settle
  return { s with words := s.words ++ [word] }

end Reading

/-- The error of a word that has no place on the command line. A command after the separator is not
taken for one. -/
def stray (g : Grammar) (separated : Bool) (word : String) : UsageError :=
  if g.commands = [] || (separated && g.commands.contains word) then .unknownArgument
  else .unknownCommand

/-- Reads the words after the separator, which are all plain. -/
def readPlain (g : Grammar) (s : Reading) : List String → Except UsageError Reading
  | [] => .ok s
  | w :: ws =>
    if g.takesWords then do readPlain g (← s.takeWord w) ws else .error (stray g true w)

/-- Reads words up to a command, and gives the command with the words after it. -/
def read (g : Grammar) (s : Reading) :
    List String → Except UsageError (Reading × Option (String × List String))
  | [] => .ok (s, none)
  | w :: ws =>
    if !s.awaitsValue && g.commands.contains w then .ok (s, some (w, ws))
    else match w.toList with
      | ['-', '-'] => do return (← readPlain g s ws, none)
      | '-' :: '-' :: r =>
        let (name, attached) := match Text.cut '=' r with
          | some (name, value) => (name, some (String.ofList value))
          | none => (r, none)
        do read g (← s.takeLong g (String.ofList name) attached) ws
      | '-' :: c :: r => do read g (← s.takeShort g (c :: r)) ws
      | _ =>
        match s.pending with
        | some ⟨t, none⟩ => read g { s with pending := some ⟨t, some w⟩ } ws
        | _ =>
          if g.takesWords then do read g (← s.takeWord w) ws else .error (stray g false w)

end Words

end Provenance
