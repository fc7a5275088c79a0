/-!
# Tokens of a manifest

What the text of a manifest is made of. Indentation appears as the start and the end of a block.
-/

namespace Acceptance.Yaml

inductive Token where
  | streamEnd
  | version (major minor : Nat)
  | tagShorthand (handle stem : String)
  | documentStart
  | documentEnd
  | blockSequenceStart
  | blockMappingStart
  | blockEnd
  | flowSequenceStart
  | flowSequenceEnd
  | flowMappingStart
  | flowMappingEnd
  | blockEntry
  | flowEntry
  | key
  | value
  | alias (name : String)
  | anchor (name : String)
  | tag (handle suffix : String)
  /-- `plain` holds for a scalar without quotes. -/
  | scalar (plain : Bool) (text : String)
  deriving DecidableEq, Repr

end Acceptance.Yaml
