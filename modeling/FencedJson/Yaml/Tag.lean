import FencedJson.Text.Digits
import FencedJson.Text.Reading
import FencedJson.Text.Utf8
import FencedJson.Yaml.BlockScalar
import FencedJson.Yaml.Token

/-! # Names, tags and directives -/

namespace FencedJson.Yaml

def readName (text : List Char) : Except Problem (String × List Char) :=
  let name := text.takeWhile isNameChar
  let rest := text.dropWhile isNameChar
  if name.isEmpty || rest.head? = some '\ufeff' then .error .badName
  else .ok (String.ofList name, rest)

def isTagChar (version : Version) (c : Char) : Bool :=
  isWordChar c || ";/?:@&=+$,_.!~*'()[]".toList.contains c ||
    (c = '#' && !version.isOld)

/-- The characters of a resource name at the front of a text. The bytes that
escapes in a row write are decoded together; those of them that were read are
`pending`. -/
def tagChars (version : Version) (pending : List UInt8) (text : List Char) :
    Except Problem (List Char × List Char) :=
  match text with
  | '%' :: a :: b :: rest =>
      match hexNumber? [a, b] with
      | none => .error .badTag
      | some code => tagChars version (pending ++ [UInt8.ofNat code]) rest
  | [] =>
      match Utf8.decode pending with
      | .error _ => .error .badTag
      | .ok decoded => .ok (decoded, [])
  | c :: rest =>
      match Utf8.decode pending with
      | .error _ => .error .badTag
      | .ok decoded =>
          if c = '%' then .error .badTag
          else if isTagChar version c then
            (tagChars version [] rest).map fun (name, rest) =>
              (decoded ++ c :: name, rest)
          else .ok (decoded, c :: rest)

def tagName (version : Version) (text : List Char) :
    Except Problem (String × List Char) :=
  match tagChars version [] text with
  | .error problem => .error problem
  | .ok ([], _) => .error .badTag
  | .ok (name, rest) => .ok (String.ofList name, rest)

/-- A handle with the marks around it, at the front of a text behind its first
mark. A mark before a space is a handle of its own. -/
def tagHandle (text : List Char) : Except Problem (String × List Char) :=
  if text.head? = some ' ' then .ok ("!", text)
  else
    match text.dropWhile isWordChar with
    | '!' :: rest =>
        .ok (String.ofList ('!' :: text.takeWhile isWordChar ++ ['!']), rest)
    | _ => .error .badTag

def tagBody (version : Version) (text : List Char) :
    Except Problem (WrittenTag × List Char) :=
  let (short, text) := match text with
    | '!' :: rest => ("!!", rest)
    | _ => ("!", text)
  match text with
  | '<' :: rest =>
      match tagName version rest with
      | .ok (name, '>' :: rest) => .ok (⟨none, name⟩, rest)
      | .ok _ => .error .badTag
      | .error problem => .error problem
  | _ =>
      if isGap text.head? then .ok (⟨none, short⟩, text)
      else
        let word := text.takeWhile fun c => !endsWord (some c)
        let handle :=
          if word.contains '!' then tagHandle text else .ok (short, text)
        match handle with
        | .error problem => .error problem
        | .ok (handle, rest) =>
            (tagName version rest).map fun (name, rest) =>
              (⟨some handle, name⟩, rest)

def readTag (version : Version) (text : List Char) :
    Except Problem (WrittenTag × List Char) :=
  match tagBody version text with
  | .error problem => .error problem
  | .ok (tag, rest) =>
      if endsWord rest.head? then .ok (tag, rest) else .error .badTag

/-! ## Directives -/

def versionPart (text : List Char) : Except Failure (Nat × List Char) :=
  match text.takeWhile isDigit with
  | [] => .error (.problem .badDirective)
  | digits =>
      if integerDigitLimit < digits.length then
        .error (.unreadable (integerDigitMessage digits.length))
      else .ok (decimalNumber digits, text.dropWhile isDigit)

def versionDirective (text : List Char) : Except Failure (Token × List Char) :=
  match versionPart text with
  | .error failure => .error failure
  | .ok (major, '.' :: rest) =>
      match versionPart rest with
      | .error failure => .error failure
      | .ok (minor, after) =>
          if endsWord after.head? then .ok (.version ⟨major, minor⟩, after)
          else .error (.problem .badDirective)
  | .ok _ => .error (.problem .badDirective)

def handleDirective (version : Version) (text : List Char) :
    Except Problem (Token × List Char) :=
  match text with
  | '!' :: rest =>
      match tagHandle rest with
      | .error problem => .error problem
      | .ok (handle, rest) =>
          if rest.head? ≠ some ' ' then .error .badDirective
          else
            match tagName version (rest.dropWhile (· = ' ')) with
            | .error problem => .error problem
            | .ok (front, rest) =>
                if endsWord rest.head? then .ok (.handle handle front, rest)
                else .error .badDirective
  | _ => .error .badDirective

/-- The directive at the front of a text behind its mark, and the text from the
next line on. Directives of other names are passed over. -/
def readDirective (version : Version) (text : List Char) :
    Except Failure (Token × List Char) :=
  let isDirectiveChar (c : Char) : Bool := isWordChar c || c = ':' || c = '.'
  let name := text.takeWhile isDirectiveChar
  let rest := text.dropWhile isDirectiveChar
  if name.isEmpty || !endsWord rest.head? then .error (.problem .badDirective)
  else
    let value :=
      if name = "YAML".toList then versionDirective (rest.dropWhile (· = ' '))
      else if name = "TAG".toList then
        (handleDirective version (rest.dropWhile (· = ' '))).mapError .problem
      else .ok (.otherDirective, rest.dropWhile fun c => !isFeed c)
    match value with
    | .error failure => .error failure
    | .ok (token, rest) =>
        match afterComment? rest with
        | some rest => .ok (token, rest)
        | none => .error (.problem .badDirective)

end FencedJson.Yaml
