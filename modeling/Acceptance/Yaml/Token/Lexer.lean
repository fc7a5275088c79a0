import Acceptance.Yaml.Token.Tag

/-!
# From text to tokens

The lexer reads a manifest from front to back. Only a colon shows that what stands before it was a
key, so a node that may be one is remembered, and the key is put before it when the colon comes.
-/

namespace Acceptance.Yaml

/-- A node that becomes a key if a colon follows it on its line. -/
structure PossibleKey where
  /-- Tokens before the node. -/
  position : Nat
  index : Nat
  line : Nat
  column : Nat
  /-- Whether nothing but a key can stand there. -/
  required : Bool

structure Lexer where
  cursor : Cursor
  /-- Tokens read, the last one first. -/
  tokens : List Token := []
  /-- Columns of the open blocks, the innermost first. -/
  blocks : List Nat := []
  /-- The possible key at this level. -/
  here : Option PossibleKey := none
  /-- The possible keys outside each open list, the innermost first. -/
  outside : List (Option PossibleKey) := []
  /-- Whether a key may start here. -/
  keyAllowed : Bool := true

namespace Lexer

def inFlow (l : Lexer) : Bool := !l.outside.isEmpty

def emit (token : Token) (l : Lexer) : Lexer := { l with tokens := token :: l.tokens }

/-- Puts tokens behind the first `position` ones. -/
def insertAt (position : Nat) (tokens : List Token) (l : Lexer) : Lexer :=
  let after := l.tokens.length - position
  { l with tokens := l.tokens.take after ++ tokens.reverse ++ l.tokens.drop after }

def skip (n : Nat) (l : Lexer) : Lexer := { l with cursor := l.cursor.advance n }

/-- Past blanks, comments and line ends. Outside of lists a key may start on a new line. -/
def toToken : Nat → Lexer → Lexer
  | 0, l => l
  | fuel + 1, l =>
    let c := l.cursor.skipWhile fun ch => ch == ' ' || ((l.inFlow || !l.keyAllowed) && ch == '\t')
    let c := if c.rest.head? == some '#' then c.skipWhile (fun ch => !isBreak ch) else c
    if c.rest.head?.any isBreak then
      toToken fuel { l with cursor := c.next, keyAllowed := l.keyAllowed || !l.inFlow }
    else { l with cursor := c }

/-- How long a key may be. -/
def keyLimit : Nat := 1024

/-- Forgets a key that can no longer be one; fails if there had to be one. -/
def stillKey? (c : Cursor) : Option PossibleKey → Option (Option PossibleKey)
  | none => some none
  | some k =>
    if k.line < c.line || k.index + keyLimit < c.index then
      if k.required then none else some none
    else some (some k)

def dropStale? (l : Lexer) : Option Lexer := do
  let here ← stillKey? l.cursor l.here
  let outside ← l.outside.mapM (stillKey? l.cursor)
  some { l with here, outside }

/-- Gives up the possible key at this level. -/
def dropKey? (l : Lexer) : Option Lexer :=
  if l.here.any (·.required) then none else some { l with here := none }

/-- Remembers that the next token may start a key. -/
def saveKey? (l : Lexer) : Option Lexer :=
  if l.keyAllowed then do
    let l ← l.dropKey?
    let c := l.cursor
    some { l with here := some ⟨l.tokens.length, c.index, c.line, c.column,
      !l.inFlow && l.blocks.head? == some c.column⟩ }
  else some l

/-- Ends the blocks to the right of the column. -/
def closeBlocks (column : Nat) (l : Lexer) : Lexer :=
  if l.inFlow then l
  else
    let closed := l.blocks.takeWhile (column < ·)
    { l with
      blocks := l.blocks.drop closed.length
      tokens := closed.map (fun _ => .blockEnd) ++ l.tokens }

def closeAllBlocks (l : Lexer) : Lexer :=
  if l.inFlow then l
  else { l with blocks := [], tokens := l.blocks.map (fun _ => .blockEnd) ++ l.tokens }

/-- Whether a block that starts at the column is a new one. -/
def opensBlock (column : Nat) (l : Lexer) : Bool := !l.inFlow && l.blocks.head?.all (· < column)

/-- Starts a block here, unless it is open already. -/
def openBlock (token : Token) (l : Lexer) : Lexer :=
  let column := l.cursor.column
  if l.opensBlock column then { l.emit token with blocks := column :: l.blocks } else l

def allowKey (b : Bool) (l : Lexer) : Lexer := { l with keyAllowed := b }

def documentMark? (token : Token) (l : Lexer) : Option Lexer := do
  let l ← l.closeAllBlocks.dropKey?
  some (((l.allowKey false).skip 3).emit token)

def flowStart? (token : Token) (l : Lexer) : Option Lexer := do
  let l ← l.saveKey?
  let l := { l with outside := l.here :: l.outside, here := none }
  some (((l.allowKey true).skip 1).emit token)

def flowEnd? (token : Token) (l : Lexer) : Option Lexer := do
  let l ← l.dropKey?
  let l := match l.outside with
    | [] => l
    | key :: outside => { l with here := key, outside }
  some (((l.allowKey false).skip 1).emit token)

def flowEntry? (l : Lexer) : Option Lexer := do
  let l ← l.dropKey?
  some (((l.allowKey true).skip 1).emit .flowEntry)

def blockEntry? (l : Lexer) : Option Lexer := do
  if !l.inFlow && !l.keyAllowed then none
  else
    let l ← (l.openBlock .blockSequenceStart).dropKey?
    some (((l.allowKey true).skip 1).emit .blockEntry)

def explicitKey? (l : Lexer) : Option Lexer := do
  if !l.inFlow && !l.keyAllowed then none
  else
    let l ← (l.openBlock .blockMappingStart).dropKey?
    some (((l.allowKey !l.inFlow).skip 1).emit .key)

/-- The colon: what was remembered is a key, and may open a block where it stands. -/
def value? (l : Lexer) : Option Lexer :=
  match l.here with
  | some k =>
    let opened := l.opensBlock k.column
    let l := l.insertAt k.position (if opened then [.blockMappingStart, .key] else [.key])
    let l := if opened then { l with blocks := k.column :: l.blocks } else l
    some ((({ l with here := none }.allowKey false).skip 1).emit .value)
  | none =>
    if !l.inFlow && !l.keyAllowed then none
    else
      let l := l.openBlock .blockMappingStart
      some (((l.allowKey !l.inFlow).skip 1).emit .value)

def anchor? (token : String → Token) (l : Lexer) : Option Lexer := do
  let l ← l.saveKey?
  let (name, cursor) ← name? l.cursor.next
  some ({ l.allowKey false with cursor }.emit (token name))

def nodeTag? (l : Lexer) : Option Lexer := do
  let l ← l.saveKey?
  let (token, cursor) ← tag? l.inFlow l.cursor
  some ({ l.allowKey false with cursor }.emit token)

def directiveLine? (l : Lexer) : Option Lexer := do
  let l ← l.closeAllBlocks.dropKey?
  let (token, cursor) ← directive? l.cursor.next
  some ({ l.allowKey false with cursor }.emit token)

def blockScalar? (literal : Bool) (l : Lexer) : Option Lexer := do
  let l ← l.dropKey?
  let (text, cursor) ← block? literal l.blocks.head? l.cursor.next
  some ({ l.allowKey true with cursor }.emit (.scalar false text))

def quotedScalar? (single : Bool) (l : Lexer) : Option Lexer := do
  let l ← l.saveKey?
  let (text, cursor) ← quoted? single l.cursor.next
  some ({ l.allowKey false with cursor }.emit (.scalar false text))

def plainScalar? (l : Lexer) : Option Lexer := do
  let l ← l.saveKey?
  let least := match l.blocks.head? with
    | some column => column + 1
    | none => 0
  let (text, cursor, broken) ← plain? l.inFlow least l.cursor
  some ({ l.allowKey broken with cursor }.emit (.scalar true text))

/-- Characters with which no plain scalar starts. -/
def indicators : List Char :=
  ['-', '?', ':', ',', '[', ']', '{', '}', '#', '&', '*', '!', '|', '>', '\'', '"', '%', '@', '\x60']

/-- Whether a plain scalar starts with `c` and goes on with `rest`. -/
def startsPlain (flow : Bool) (c : Char) (rest : List Char) : Bool :=
  (!isBlank c && !isBreak c && !indicators.contains c) ||
  (c == '-' && !rest.head?.any isBlank) ||
  (!flow && (c == '?' || c == ':') && !atGap rest)

/-- Reads the token that starts here. -/
def token? (l : Lexer) : Option Lexer :=
  let c := l.cursor
  if c.atMarker '-' then l.documentMark? .documentStart
  else if c.atMarker '.' then l.documentMark? .documentEnd
  else match c.rest with
    | [] => none
    | '%' :: rest =>
      if c.column == 0 then l.directiveLine?
      else if startsPlain l.inFlow '%' rest then l.plainScalar? else none
    | '[' :: _ => l.flowStart? .flowSequenceStart
    | '{' :: _ => l.flowStart? .flowMappingStart
    | ']' :: _ => l.flowEnd? .flowSequenceEnd
    | '}' :: _ => l.flowEnd? .flowMappingEnd
    | ',' :: _ => l.flowEntry?
    | '*' :: _ => l.anchor? .alias
    | '&' :: _ => l.anchor? .anchor
    | '!' :: _ => l.nodeTag?
    | '\'' :: _ => l.quotedScalar? true
    | '"' :: _ => l.quotedScalar? false
    | ch :: rest =>
      if ch == '-' && atGap rest then l.blockEntry?
      else if ch == '?' && (l.inFlow || atGap rest) then l.explicitKey?
      else if ch == ':' && (l.inFlow || atGap rest) then l.value?
      else if ch == '|' && !l.inFlow then l.blockScalar? true
      else if ch == '>' && !l.inFlow then l.blockScalar? false
      else if startsPlain l.inFlow ch rest then l.plainScalar?
      else none

def finish? (l : Lexer) : Option (List Token) := do
  let l ← l.closeAllBlocks.dropKey?
  some (l.emit .streamEnd).tokens.reverse

/-- Reads all tokens; each takes one character or more of `fuel`. -/
def run? : Nat → Lexer → Option (List Token)
  | 0, _ => none
  | fuel + 1, l => do
    let l ← (l.toToken (l.cursor.rest.length + 1)).dropStale?
    let l := l.closeBlocks l.cursor.column
    if l.cursor.rest.isEmpty then l.finish? else run? fuel (← l.token?)

end Lexer

/-- The tokens of a manifest, if it is well formed so far. -/
def Token.ofText? (s : String) : Option (List Token) := do
  let cs ← source? s
  Lexer.run? (cs.length + 1) { cursor := .start cs }

end Acceptance.Yaml
