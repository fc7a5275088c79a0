import Acceptance.Yaml.Token

/-!
# Nodes of a manifest

A document is a tree of scalars, sequences and mappings. `Node.ofTokens?` reads the one document of
a token list; where an alias stands, the node that it names is put.
-/

namespace Acceptance.Yaml

inductive Node where
  | scalar (tag : Option String) (plain : Bool) (text : String)
  | sequence (tag : Option String) (items : List Node)
  | mapping (tag : Option String) (entries : List (Node × Node))
  deriving Inhabited

/-- A node that nobody wrote. -/
def Node.absent : Node := .scalar none true ""

/-- A node that has a name, and the aliases that are followed within it. -/
structure Named where
  node : Node
  aliases : Nat

/-- What the reader of a document knows. -/
structure Reader where
  tokens : List Token
  /-- Names given so far; a node that is not read to its end has none to offer. -/
  anchors : List (String × Option Named) := []
  /-- What the handles of tags stand for. -/
  stems : List (String × String) := []
  /-- Ends of nodes, starts of collections and aliases read so far. -/
  events : Nat := 0
  /-- Aliases followed so far, also within the nodes that aliases name. -/
  aliases : Nat := 0

abbrev Parse := StateT Reader Option

namespace Parse

def peek : Parse Token := do
  match (← get).tokens with
  | token :: _ => pure token
  | [] => pure .streamEnd

def skip : Parse Unit := modify fun r => { r with tokens := r.tokens.tail }

def countEvent : Parse Unit := modify fun r => { r with events := r.events + 1 }

/-- The next token, if it is the one wanted. -/
def expect (token : Token) : Parse Unit := do
  if (← peek) == token then skip else failure

/-- Reads the token if it comes next. -/
def accept (token : Token) : Parse Bool := do
  if (← peek) == token then
    skip
    pure true
  else pure false

def absent : Parse Node := do
  countEvent
  pure .absent

/-- The tag that a handle and a suffix stand for. -/
def expandTag (handle suffix : String) : Parse String := do
  if handle.isEmpty then pure suffix
  else match ((← get).stems.find? (·.1 == handle)) with
    | some (_, stem) => pure (stem ++ suffix)
    | none => failure

def anchor? : Parse (Option String) := do
  match ← peek with
  | .anchor name =>
    skip
    pure (some name)
  | _ => pure none

def tag? : Parse (Option String) := do
  match ← peek with
  | .tag handle suffix =>
    skip
    some <$> expandTag handle suffix
  | _ => pure none

/-- An anchor and a tag, in either order. -/
def properties : Parse (Option String × Option String) := do
  match ← anchor? with
  | some name => pure (some name, ← tag?)
  | none =>
    let tag ← tag?
    if tag.isSome then pure (← anchor?, tag) else pure (none, none)

/-- The node that an alias names. -/
def follow (name : String) : Parse Node := do
  match ((← get).anchors.find? (·.1 == name)) with
  | some (_, some named) =>
    modify fun r => { r with events := r.events + 1, aliases := r.aliases + 1 + named.aliases }
    pure named.node
  | _ => failure

def name (anchor : Option String) (named : Option Named) : Parse Unit :=
  match anchor with
  | some a => modify fun r => { r with anchors := (a, named) :: r.anchors }
  | none => pure ()

/-- A scalar's tag; a lone mark says no more than no tag. -/
def scalarTag : Option String → Option String
  | some "!" => none
  | tag => tag

/-- Whether the token ends a node that has not begun, in a block mapping. -/
def endsEntry : Token → Bool
  | .key | .value | .blockEnd => true
  | _ => false

mutual

/-- A node. `block` admits block collections, `indentless` a sequence that is not indented. -/
def node (block indentless : Bool) : Nat → Parse Node
  | 0 => failure
  | fuel + 1 => do
    match ← peek with
    | .alias target =>
      skip
      follow target
    | _ =>
      let (anchor, tag) ← properties
      let before := (← get).aliases
      name anchor none
      let found ← content block indentless (anchor.isSome || tag.isSome) tag fuel
      let after := (← get).aliases
      name anchor (some ⟨found, after - before⟩)
      pure found

/-- A node behind its anchor and tag. Only a `named` one may be empty. -/
def content (block indentless named : Bool) (tag : Option String) : Nat → Parse Node
  | 0 => failure
  | fuel + 1 => do
    countEvent
    match ← peek with
    | .scalar plain text =>
      skip
      pure (.scalar (scalarTag tag) plain text)
    | .flowSequenceStart =>
      skip
      .sequence tag <$> flowSequence true fuel
    | .flowMappingStart =>
      skip
      .mapping tag <$> flowMapping true fuel
    | .blockEntry =>
      if indentless then .sequence tag <$> indentlessSequence fuel
      else if named then pure (.scalar tag true "") else failure
    | .blockSequenceStart =>
      if block then do
        skip
        .sequence tag <$> blockSequence fuel
      else if named then pure (.scalar tag true "") else failure
    | .blockMappingStart =>
      if block then do
        skip
        .mapping tag <$> blockMapping fuel
      else if named then pure (.scalar tag true "") else failure
    | _ => if named then pure (.scalar tag true "") else failure

def blockSequence : Nat → Parse (List Node)
  | 0 => failure
  | fuel + 1 => do
    if ← accept .blockEntry then
      let item ← match ← peek with
        | .blockEntry | .blockEnd => absent
        | _ => node true false fuel
      return item :: (← blockSequence fuel)
    else
      expect .blockEnd
      countEvent
      pure []

def indentlessSequence : Nat → Parse (List Node)
  | 0 => failure
  | fuel + 1 => do
    if ← accept .blockEntry then
      let item ← match ← peek with
        | .blockEntry | .key | .value | .blockEnd => absent
        | _ => node true false fuel
      return item :: (← indentlessSequence fuel)
    else
      countEvent
      pure []

def blockMapping : Nat → Parse (List (Node × Node))
  | 0 => failure
  | fuel + 1 => do
    if ← accept .key then
      let key ← if endsEntry (← peek) then absent else node true true fuel
      let value ←
        if ← accept .value then
          if endsEntry (← peek) then absent else node true true fuel
        else absent
      return (key, value) :: (← blockMapping fuel)
    else
      expect .blockEnd
      countEvent
      pure []

/-- The items of a list in brackets; `first` says that no item stands before. -/
def flowSequence (first : Bool) : Nat → Parse (List Node)
  | 0 => failure
  | fuel + 1 => do
    if ← accept .flowSequenceEnd then
      countEvent
      pure []
    else
      if !first then expect .flowEntry
      if ← accept .flowSequenceEnd then
        countEvent
        pure []
      else
        let item ←
          if ← accept .key then
            countEvent
            flowPair fuel
          else node false false fuel
        return item :: (← flowSequence false fuel)

/-- A mapping of one entry within a list. A key that is missing takes the token behind it along. -/
def flowPair : Nat → Parse Node
  | 0 => failure
  | fuel + 1 => do
    let key ← match ← peek with
      | .value | .flowEntry | .flowSequenceEnd =>
        skip
        absent
      | _ => node false false fuel
    let value ←
      if ← accept .value then
        match ← peek with
        | .flowEntry | .flowSequenceEnd => absent
        | _ => node false false fuel
      else absent
    countEvent
    pure (.mapping none [(key, value)])

def flowMapping (first : Bool) : Nat → Parse (List (Node × Node))
  | 0 => failure
  | fuel + 1 => do
    if ← accept .flowMappingEnd then
      countEvent
      pure []
    else
      if !first then expect .flowEntry
      if ← accept .flowMappingEnd then
        countEvent
        pure []
      else
        let entry ←
          if ← accept .key then
            let key ← match ← peek with
              | .value | .flowEntry | .flowMappingEnd => absent
              | _ => node false false fuel
            let value ←
              if ← accept .value then
                match ← peek with
                | .flowEntry | .flowMappingEnd => absent
                | _ => node false false fuel
              else absent
            pure (key, value)
          else
            let key ← node false false fuel
            pure (key, ← absent)
        return entry :: (← flowMapping false fuel)

end

/-- Handles that every document knows. -/
def commonStems : List (String × String) := [("!", "!"), ("!!", "tag:yaml.org,2002:")]

/-- The directives before a document: at most one version, which must be 1.1 or 1.2, and at most one
shorthand for a handle. -/
def directives (version : Bool) (stems : List (String × String)) :
    Nat → Parse (Bool × List (String × String))
  | 0 => failure
  | fuel + 1 => do
    match ← peek with
    | .version major minor =>
      if version || major ≠ 1 || (minor ≠ 1 && minor ≠ 2) then failure
      else
        skip
        directives true stems fuel
    | .tagShorthand handle stem =>
      if stems.any (·.1 == handle) then failure
      else
        skip
        directives version ((handle, stem) :: stems) fuel
    | _ => pure (version, stems)

def skipDocumentEnds : Nat → Parse Unit
  | 0 => pure ()
  | fuel + 1 => do
    if ← accept .documentEnd then skipDocumentEnds fuel

/-- A document that starts with its mark may be empty. -/
def contentAfterMark (fuel : Nat) : Parse Node := do
  match ← peek with
  | .version .. | .tagShorthand .. | .documentStart | .documentEnd | .streamEnd => absent
  | _ => node true false fuel

/-- The one document, if there is one. -/
def document (fuel : Nat) : Parse (Option Node) := do
  match ← peek with
  | .streamEnd => pure none
  | .version .. | .tagShorthand .. | .documentStart =>
    let (_, stems) ← directives false [] fuel
    modify fun r => { r with stems := stems ++ commonStems }
    expect .documentStart
    some <$> contentAfterMark fuel
  | _ =>
    modify fun r => { r with stems := commonStems }
    some <$> node true false fuel

/-- Aliases that may be followed for each event of a document. -/
def aliasesPerEvent : Nat := 100

/-- A stream of one document or none. -/
def stream (fuel : Nat) : Parse (Option Node) := do
  let found ← document fuel
  skipDocumentEnds fuel
  expect .streamEnd
  let r ← get
  if r.aliases > r.events * aliasesPerEvent then failure else pure found

end Parse

/-- The document of a manifest; `none` within if the manifest is empty. -/
def Node.ofTokens? (tokens : List Token) : Option (Option Node) :=
  ((Parse.stream (2 * tokens.length + 8)).run { tokens }).map (·.1)

end Acceptance.Yaml
