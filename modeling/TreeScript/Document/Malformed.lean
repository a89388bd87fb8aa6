/-!
# Malformed documents

## Main definitions

* `Malformed` — why a text is no document, with a text for each reason.
-/

namespace TreeScript

/-- Why a text is not a well-formed document. -/
inductive Malformed where
  /-- A control character occurs. -/
  | controlCharacter
  /-- A character that can start no token. -/
  | strayCharacter
  /-- A tab where spaces must indent. -/
  | tabIndentation
  /-- A quoted scalar without an end. -/
  | unclosedQuote
  /-- A document marker inside a quoted scalar. -/
  | markerInQuotes
  /-- An escape sequence that means nothing. -/
  | badEscape
  /-- A line that must be a key has no colon. -/
  | missingColon
  /-- A sequence entry where none may start. -/
  | misplacedEntry
  /-- A key where none may start. -/
  | misplacedKey
  /-- A value where none may start. -/
  | misplacedValue
  /-- An anchor or alias without a proper name. -/
  | badAnchor
  /-- A tag that is not spelled properly. -/
  | badTag
  /-- A tag with a handle that was not declared. -/
  | unknownTagHandle
  /-- A directive that is not understood. -/
  | badDirective
  /-- The header of a block scalar is not understood. -/
  | badBlockHeader
  /-- A token where the grammar allows none such. -/
  | unexpectedToken
  /-- An alias for an anchor that was not set before. -/
  | unknownAnchor (name : String)
  /-- A scalar that does not have the type of its tag. -/
  | tagMismatch
  /-- Collections nested too deeply. -/
  | tooDeep
  /-- A merge key with something other than mappings. -/
  | badMerge
  /-- Binary data that is not in base 64. -/
  | badBinary
  /-- Far more of a document is repeated by aliases than is written. -/
  | excessiveAliasing
  /-- The text could not be read at all. -/
  | unreadable
  deriving DecidableEq, Repr, Inhabited

/-- The text of a reason. -/
def Malformed.message : Malformed → String
  | .controlCharacter => "control characters are not allowed"
  | .strayCharacter => "found character that cannot start any token"
  | .tabIndentation => "found a tab character where spaces must indent"
  | .unclosedQuote => "found unexpected end of a quoted scalar"
  | .markerInQuotes => "found unexpected document indicator"
  | .badEscape => "found unknown escape sequence"
  | .missingColon => "could not find expected ':'"
  | .misplacedEntry => "block sequence entries are not allowed in this context"
  | .misplacedKey => "mapping keys are not allowed in this context"
  | .misplacedValue => "mapping values are not allowed in this context"
  | .badAnchor => "did not find expected anchor name"
  | .badTag => "did not find expected tag"
  | .unknownTagHandle => "found undefined tag handle"
  | .badDirective => "found unknown directive"
  | .badBlockHeader => "did not find expected block scalar header"
  | .unexpectedToken => "did not find expected node content"
  | .unknownAnchor name => "unknown anchor '" ++ name ++ "' referenced"
  | .tagMismatch => "cannot decode a scalar as its tag says"
  | .tooDeep => "exceeded the greatest depth of collections"
  | .badMerge => "map merge requires map or sequence of maps as the value"
  | .badBinary => "value contains invalid base64 data"
  | .excessiveAliasing => "document contains excessive aliasing"
  | .unreadable => "the text cannot be read"

end TreeScript
