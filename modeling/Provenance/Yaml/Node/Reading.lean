import Provenance.Yaml.Node

/-!
Reading nodes from tokens, by recursive descent. An alias is replaced by the node that its anchor
stands for. Where the tokens do not go together, or the text can not be read any further, the nodes
that are open are cut off, and nothing more is read.
-/

namespace Provenance.Yaml

/-- What is left of the tokens, and what was declared and counted in those before. -/
structure Reader where
  tokens : List Token
  /-- The anchors with their nodes, the last first. -/
  anchors : List (String × Node) := []
  /-- The tag handles, with what they stand for. -/
  handles : List (String × String) := []
  /-- The number of open collections. -/
  depth : Nat := 0
  /-- The number of anchors so far. -/
  anchorCount : Nat := 0
  /-- The number of aliases so far. -/
  aliasCount : Nat := 0
  /-- The size of all that aliases were replaced by so far. -/
  copied : Nat := 0

namespace Reader

/-- Collections can be open in each other up to this depth. -/
def maxDepth : Nat := 2000

/-- Aliases can be replaced by nodes up to this total size. -/
def maxCopied : Nat := 1000000

/-- Whether there are many aliases for few anchors, as in a text that is made to grow when it is
read. -/
def hasTooManyAliases (r : Reader) : Bool := 100 ≤ r.aliasCount && 10 * r.anchorCount < r.aliasCount

end Reader

/-- Reading from tokens. -/
abbrev Read := StateM Reader

namespace Read

/-- The next token. -/
def peek : Read Token := return (← get).tokens.headD ⟨.broken ⟨.unfinished, none⟩, {}⟩

def skip : Read Unit := modify fun r => { r with tokens := r.tokens.drop 1 }

/-- Reads nothing any more for a cause, unless there was a fault before. -/
def stopAt (m : Mark) (cause : Cause) : Read Fault := do
  let fault := match (← peek).kind with
    | .broken f => f
    | _ => ⟨cause, some m.location⟩
  modify fun r => { r with tokens := [⟨.broken fault, m⟩] }
  return fault

/-- Reads nothing any more, because the next token does not fit. -/
def stop (cause : Cause) : Read Fault := do stopAt (← peek).mark cause

/-- Goes past a token of a kind, and says whether it was there. -/
def accept (kind : TokenKind) : Read Bool := do
  if (← peek).kind = kind then skip; return true
  else return false

/-- Whether the next token is one of some kinds. -/
def isNext (kinds : List TokenKind) : Read Bool := return kinds.contains (← peek).kind

/-- The kind that a tag stands for, if its handle is declared. -/
def tagKind? (t : Tag) : Read (Option TagKind) := do
  match (← get).handles.lookup t.handle with
  | some target => return some (Tag.kind ⟨target, t.suffix⟩)
  | none =>
    if t.handle = "!!" then return some (Tag.kind ⟨Tag.core, t.suffix⟩)
    else if 2 ≤ t.handle.length then return none
    else return some t.kind

/-- What stands in front of a node's content. -/
structure Properties where
  anchor? : Option String := none
  kind : TagKind := .untagged
  /-- Whether there is an anchor or a tag. -/
  any : Bool := false

/-- Reads an anchor that may stand here. -/
def anchor (p : Properties) : Read Properties := do
  match (← peek).kind with
  | .anchor name => do
    skip
    modify fun r => { r with
      anchors := r.anchors.filter (·.1 ≠ name), anchorCount := r.anchorCount + 1 }
    return { p with anchor? := some name, any := true }
  | _ => return p

/-- Reads a tag that may stand here. -/
def tag (m : Mark) (p : Properties) : Read Properties := do
  match (← peek).kind with
  | .tag tag => do
    match ← tagKind? tag with
    | some kind => do skip; return { p with kind, any := true }
    | none => do let _ ← stopAt m (.undeclaredTagHandle tag.handle); return p
  | _ => return p

/-- The anchor and the tag in front of a node, in either order. -/
def properties : Read Properties := do
  let t ← peek
  match t.kind with
  | .anchor _ => do tag t.mark (← anchor {})
  | _ => do anchor (← tag t.mark {})

/-- A scalar. One without any text that has an anchor counts as plain. -/
def leaf (m : Mark) (p : Properties) (style : ScalarStyle) (text : String) : Node :=
  let plain := style = .plain || (text = "" && p.anchor?.isSome)
  .ofLeaf ⟨p.kind, plain, text, m.location⟩

/-- A node that is not written. -/
def absent : Read Node := return leaf (← peek).mark {} .plain "~"

/-- A collection, unless too many are open around it. -/
def nested (m : Mark) (body : Read Node) : Read Node := do
  if Reader.maxDepth ≤ (← get).depth then return .missing (← stopAt m .tooDeep)
  else do
    modify fun r => { r with depth := r.depth + 1 }
    let node ← body
    modify fun r => { r with depth := r.depth - 1 }
    return node

/-- The node that an alias stands for. -/
def copy (m : Mark) (name : String) : Read Node := do
  match (← get).anchors.lookup name with
  | none => return .missing (← stopAt m (.unknownAnchor name))
  | some node => do
    skip
    modify fun r => { r with aliasCount := r.aliasCount + 1, copied := r.copied + node.size }
    if Reader.maxCopied < (← get).copied then return .missing (← stopAt m .tooManyCopies)
    else return node

/-- What there is in place of anything when no more steps are left. -/
def unfinished : Fault := ⟨.unfinished, none⟩

mutual

/-- A node. Block collections may start here if `block` holds, and a sequence that is not indented if
`indentless` holds. -/
def node (block indentless : Bool) : Nat → Read Node
  | 0 => return .missing unfinished
  | n + 1 => do
    let t ← peek
    match t.kind with
    | .alias name => copy t.mark name
    | _ => do
      let p ← properties
      let node ← content block indentless p n
      modify fun r => { r with anchors := (p.anchor?.map (·, node)).toList ++ r.anchors }
      return node

/-- The content of a node, after its properties. -/
def content (block indentless : Bool) (p : Properties) : Nat → Read Node
  | 0 => return .missing unfinished
  | n + 1 => do
    let t ← peek
    let m := t.mark
    let list (entries : Read (List Node × Option Fault)) : Read Node := do
      let (items, cut) ← entries
      return .sequence m.location items cut
    let record (members : Read (List (Node × Node) × Option Fault)) : Read Node := do
      let (pairs, cut) ← members
      return .mapping m.location pairs cut
    match t.kind, block, indentless with
    | .blockEntry, _, true => nested m (list (indentlessEntries n))
    | .scalar style text, _, _ =>
      if style = .folded && m.column = 0 && Text.trim text.toList ≠ [] then
        return .missing (← stop .foldNotIndented)
      else do
        skip
        return leaf m p style text
    | .flowSequenceStart, _, _ => nested m do skip; list (flowEntries true n)
    | .flowMappingStart, _, _ => nested m do skip; record (flowMembers true n)
    | .blockSequenceStart, true, _ => nested m do skip; list (blockEntries n)
    | .blockMappingStart, true, _ => nested m do skip; record (blockMembers n)
    | .broken f, _, _ => return .missing f
    | _, _, _ =>
      if p.any then return leaf m p .plain ""
      else return .missing (← stop .expectedContent)

/-- The entries of a block sequence, up to and with its end, and what cuts them off. -/
def blockEntries : Nat → Read (List Node × Option Fault)
  | 0 => return ([], some unfinished)
  | n + 1 => do
    if ← accept .blockEnd then return ([], none)
    else if ← accept .blockEntry then do
      let item ← if ← isNext [.blockEntry, .blockEnd] then absent else node true false n
      let (items, cut) ← blockEntries n
      return (item :: items, cut)
    else return ([], some (← stop .expectedDash))

/-- The entries of a sequence at the indentation of the mapping around it. -/
def indentlessEntries : Nat → Read (List Node × Option Fault)
  | 0 => return ([], some unfinished)
  | n + 1 => do
    match (← peek).kind with
    | .blockEntry => do
      skip
      let item ← if ← isNext [.blockEntry, .key, .value, .blockEnd] then absent
        else node true false n
      let (items, cut) ← indentlessEntries n
      return (item :: items, cut)
    | .broken f => return ([], some f)
    | _ => return ([], none)

/-- The value of a block mapping's member. -/
def blockValue : Nat → Read Node
  | 0 => return .missing unfinished
  | n + 1 => do
    if ← accept .value then
      if ← isNext [.key, .value, .blockEnd] then absent else node true true n
    else absent

/-- The members of a block mapping, up to and with its end, and what cuts them off. -/
def blockMembers : Nat → Read (List (Node × Node) × Option Fault)
  | 0 => return ([], some unfinished)
  | n + 1 => do
    match (← peek).kind with
    | .blockEnd => do skip; return ([], none)
    | .key => do
      skip
      let key ← if ← isNext [.key, .value, .blockEnd] then absent else node true true n
      moreBlockMembers key n
    | .value => do moreBlockMembers (← absent) n
    | _ => return ([], some (← stop .expectedKey))

/-- The members of a block mapping from the value of a key on. -/
def moreBlockMembers (key : Node) : Nat → Read (List (Node × Node) × Option Fault)
  | 0 => return ([], some unfinished)
  | n + 1 => do
    let value ← blockValue n
    let (pairs, cut) ← blockMembers n
    return ((key, value) :: pairs, cut)

/-- The value of a member between brackets that one of some tokens ends. -/
def flowValue (ends : List TokenKind) : Nat → Read Node
  | 0 => return .missing unfinished
  | n + 1 => do
    if ← accept .value then
      if ← isNext ends then absent else node false false n
    else absent

/-- The entries of a sequence between brackets, up to and with the closing one, and what cuts them
off. -/
def flowEntries (first : Bool) : Nat → Read (List Node × Option Fault)
  | 0 => return ([], some unfinished)
  | n + 1 => do
    if ← accept .flowSequenceEnd then return ([], none)
    else if !first && !(← accept .flowEntry) then return ([], some (← stop .expectedComma))
    else if ← accept .flowSequenceEnd then return ([], none)
    else do
      let item ← flowItem n
      let (items, cut) ← flowEntries false n
      return (item :: items, cut)

/-- An entry of a sequence between brackets, which may be a mapping of one member. -/
def flowItem : Nat → Read Node
  | 0 => return .missing unfinished
  | n + 1 => do
    let t ← peek
    if t.kind ≠ .key then node false false n
    else nested t.mark do
      skip
      let key ← if ← isNext [.value, .flowEntry, .flowSequenceEnd] then do
          let key ← absent
          skip
          pure key
        else node false false n
      let value ← flowValue [.flowEntry, .flowSequenceEnd] n
      return .mapping t.mark.location [(key, value)] none

/-- The members of a mapping between braces, up to and with the closing one, and what cuts them
off. -/
def flowMembers (first : Bool) : Nat → Read (List (Node × Node) × Option Fault)
  | 0 => return ([], some unfinished)
  | n + 1 => do
    if ← accept .flowMappingEnd then return ([], none)
    else if !first && !(← accept .flowEntry) then return ([], some (← stop .expectedComma))
    else if ← accept .flowMappingEnd then return ([], none)
    else do
      let member ← flowMember n
      let (pairs, cut) ← flowMembers false n
      return (member :: pairs, cut)

/-- A member of a mapping between braces. -/
def flowMember : Nat → Read (Node × Node)
  | 0 => return (.missing unfinished, .missing unfinished)
  | n + 1 => do
    let ends := [.flowEntry, .flowMappingEnd]
    match (← peek).kind with
    | .key => do
      skip
      let key ← if ← isNext (.value :: ends) then absent else node false false n
      return (key, ← flowValue ends n)
    | .value => do
      let key ← absent
      return (key, ← flowValue ends n)
    | _ => do
      let key ← node false false n
      return (key, ← absent)

end

end Read

end Provenance.Yaml
