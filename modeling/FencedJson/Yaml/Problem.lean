import FencedJson.Stack
import FencedJson.Text.Quoted

/-! # Problems of YAML texts -/

namespace FencedJson.Yaml

/-- Why a text is no YAML, or is YAML that nothing can be made of. -/
inductive Problem where
  | unprintable
  | badCharacter
  | badDirective
  | badVersion
  | repeatedDirective
  | badName
  | badTag
  | unknownHandle
  | unknownTag
  | badHeader
  | badIndentation
  | unclosedQuote
  | badEscape
  | separatorInQuotes
  | misplacedEntry
  | misplacedKey
  | misplacedValue
  | colonExpected
  | entryExpected
  | nodeExpected
  | documentExpected
  | severalDocuments
  | unknownAlias
  | repeatedKey
  | compoundKey
  | badMerge
  | badShape
  | badTimestamp
  | badBinary
  deriving DecidableEq, Repr

def Problem.message : Problem → String
  | unprintable => "special characters are not allowed"
  | badCharacter => "no token can start with this character"
  | badDirective => "a directive is malformed"
  | badVersion => "version 1 of YAML is required"
  | repeatedDirective => "a directive is repeated"
  | badName => "the name of an anchor or an alias is malformed"
  | badTag => "a tag is malformed"
  | unknownHandle => "the handle of a tag is not declared"
  | unknownTag => "no value can be made for a tag"
  | badHeader => "the header of a block scalar is malformed"
  | badIndentation =>
      "a blank line is wider than the first line of a block scalar"
  | unclosedQuote => "a quoted scalar is not closed"
  | badEscape => "an escape is malformed"
  | separatorInQuotes => "a document separator stands in a quoted scalar"
  | misplacedEntry => "sequence entries are not allowed here"
  | misplacedKey => "mapping keys are not allowed here"
  | misplacedValue => "mapping values are not allowed here"
  | colonExpected => "a simple key has no colon"
  | entryExpected => "an entry or the end of a collection is expected"
  | nodeExpected => "a node is expected"
  | documentExpected => "the start of a document is expected"
  | severalDocuments => "a single document is expected"
  | unknownAlias => "an alias has no anchor"
  | repeatedKey => "a key is repeated"
  | compoundKey => "a mapping cannot be a key"
  | badMerge => "only mappings can be merged"
  | badShape => "a collection has not the shape that its tag asks for"
  | badTimestamp => "a timestamp is malformed"
  | badBinary => "binary data is malformed"

inductive Failure where
  | problem (problem : Problem)
  | unreadable (message : String)
  /-- A number without a character, as its tag alone makes it one. -/
  | emptyNumber
  /-- A time whose day is not in the calendar, once it is that of another zone.
  -/
  | outOfRange
  | unknownWord (word : String)
  /-- A version of YAML that no rules are known for. -/
  | unknownVersion (major minor : Nat)
  /-- A key that is, or holds, a collection of this kind. -/
  | unhashable (kind : String)
  | repeatedEntry
  /-- An escape of a code past the last character, or even past thirty-one bits.
  -/
  | codeTooLarge (wide : Bool)
  | tooDeep
  deriving DecidableEq, Repr

def Failure.message : Failure → String
  | problem cause => cause.message
  | unreadable message => message
  | emptyNumber => "string index out of range"
  | outOfRange => "date value out of range"
  | unknownWord word => Quoted.ofString word
  | unknownVersion major minor => s!"({major}, {minor})"
  | unhashable kind => s!"unhashable type: '{kind}'"
  | repeatedEntry => ""
  | codeTooLarge wide =>
      if wide then "Python int too large to convert to C int"
      else "chr() arg not in range(0x110000)"
  | tooDeep => Overflow.function.message

end FencedJson.Yaml
