import FencedJson.Entries
import FencedJson.Text.Blank
import FencedJson.Text.Reading

/-! # Files of assignments

A file of assignments gives values to names, one to a line. Values may be
quoted, and may refer to names that have a value already. Lines that are no
assignments are passed over.
-/

namespace FencedJson.Assignments

/-- The names with their values. A name that stands alone has none. -/
abbrev Table := List (String × Option String)

def isInlineBlank (c : Char) : Bool := isWide c && c ≠ '\n' && c ≠ '\r'

def isLineEnd (c : Char) : Bool := c = '\n' || c = '\r'

/-! ## Values -/

/-- The rest of a quoted value up to its closing mark, and the text behind it. A
backslash keeps a mark from closing the value, unless nothing else closes it. -/
def quotedValue (mark : Char) : List Char → Option (List Char × List Char)
  | [] => none
  | '\\' :: c :: rest =>
      if c = mark then
        match quotedValue mark rest with
        | some (value, rest) => some ('\\' :: mark :: value, rest)
        | none => some (['\\'], rest)
      else (quotedValue mark (c :: rest)).map fun (value, rest) =>
        ('\\' :: value, rest)
  | c :: rest =>
      if c = mark then some ([], rest)
      else (quotedValue mark rest).map fun (value, rest) => (c :: value, rest)

def escape? (mark c : Char) : Option Char :=
  if c = '\\' ∨ c = '\'' then some c
  else if mark = '"' then
    [('"', '"'), ('a', '\x07'), ('b', '\x08'), ('f', '\x0c'),
      ('n', '\n'), ('r', '\r'), ('t', '\t'), ('v', '\x0b')].lookup c
  else none

def unescape (mark : Char) : List Char → List Char
  | '\\' :: c :: rest =>
      match escape? mark c with
      | some value => value :: unescape mark rest
      | none => '\\' :: unescape mark (c :: rest)
  | c :: rest => c :: unescape mark rest
  | [] => []

def beforeComment : List Char → List Char
  | c :: '#' :: rest =>
      if isWide c then [] else c :: beforeComment ('#' :: rest)
  | c :: rest => c :: beforeComment rest
  | [] => []

def unquotedValue (text : List Char) : List Char :=
  trimEnd (beforeComment (text.takeWhile fun c => !isLineEnd c))

example : unquotedValue "a #b\nc".toList = ['a'] := by decide +kernel

def value? (text : List Char) : Option (List Char × List Char) :=
  match text with
  | [] => some ([], [])
  | c :: rest =>
      if c = '\'' ∨ c = '"' then
        (quotedValue c rest).map fun (value, rest) => (unescape c value, rest)
      else some (unquotedValue (c :: rest),
        (c :: rest).dropWhile fun c => !isLineEnd c)

/-! ## Lines -/

/-- A line that is an assignment, or is blank or a comment, or is neither. -/
inductive Line where
  | assignment (name : String) (value : Option String)
  | void

def withoutExport (text : List Char) : List Char :=
  match after? "export".toList text with
  | some (c :: rest) =>
      if isInlineBlank c then rest.dropWhile isInlineBlank else text
  | _ => text

/-- The name at the front of a text, and whether it is well formed. A comment is
no name but is well formed. -/
def name? (text : List Char) : Option (Option String × List Char) :=
  match text with
  | '#' :: _ => some (none, text)
  | '\'' :: rest =>
      match rest.takeWhile (· ≠ '\''), rest.dropWhile (· ≠ '\'') with
      | c :: name, _ :: rest => some (some (String.ofList (c :: name)), rest)
      | _, _ => none
  | _ =>
      let isNameChar (c : Char) : Bool := c ≠ '=' && c ≠ '#' && !isWide c
      match text.takeWhile isNameChar with
      | [] => none
      | name => some (some (String.ofList name), text.dropWhile isNameChar)

def lineEnd? (text : List Char) : Option (List Char) :=
  let text := text.dropWhile isInlineBlank
  let text := if text.head? = some '#' then text.dropWhile fun c =>
      !isLineEnd c else text
  match text with
  | [] => some []
  | '\r' :: '\n' :: rest => some rest
  | c :: rest => if isLineEnd c then some rest else none

/-- The value behind a name, if one is given, or how much was read of a faulty
one. -/
def assigned (text : List Char) :
    Except (List Char) (Option String × List Char) :=
  match text.dropWhile isInlineBlank with
  | '=' :: rest =>
      let rest := rest.dropWhile isInlineBlank
      match value? rest with
      | some (value, rest) => .ok (some (String.ofList value), rest)
      | none => .error rest
  | rest => .ok (none, rest)

def nextLine (text : List Char) : List Char :=
  (text.dropWhile fun c => !isLineEnd c).tail

def line (text : List Char) : Line × List Char :=
  let text := text.dropWhile isWide
  if text.isEmpty then (.void, [])
  else
    let text := withoutExport text
    match name? text with
    | none => (.void, nextLine text)
    | some (name, rest) =>
        match assigned rest with
        | .error rest => (.void, nextLine rest)
        | .ok (value, rest) =>
            match lineEnd? rest, name with
            | none, _ => (.void, nextLine rest)
            | some rest, none => (.void, rest)
            | some rest, some name => (.assignment name value, rest)

/-- The assignments of a text in their order. A line takes up some of the text,
and one that did not would end it. -/
def assignments (text : List Char) : Table :=
  let (first, rest) := line text
  let others := if rest.length < text.length then assignments rest else []
  match first with
  | .assignment name value => (name, value) :: others
  | .void => others
termination_by text.length

/-! ## References -/

/-- A name that is referred to, with what stands in for its value. -/
structure Reference where
  name : String
  otherwise : String

def isReferenceChar (c : Char) : Bool := c ≠ '\x7d' && c ≠ ':'

def reference? (text : List Char) : Option (Reference × List Char) :=
  match text.dropWhile isReferenceChar with
  | ':' :: '-' :: rest =>
      match rest.dropWhile (· ≠ '\x7d') with
      | _ :: after =>
          some (⟨String.ofList (text.takeWhile isReferenceChar),
            String.ofList (rest.takeWhile (· ≠ '\x7d'))⟩, after)
      | [] => none
  | '\x7d' :: rest =>
      some (⟨String.ofList (text.takeWhile isReferenceChar), ""⟩, rest)
  | _ => none

theorem length_lt_of_reference? {text rest : List Char} {reference : Reference}
    (read : reference? text = some (reference, rest)) :
    rest.length < text.length := by
  unfold reference? at read
  split at read
  · next found =>
    have := length_lt_of_dropWhile_eq_cons found
    split at read
    · next after =>
      have := length_lt_of_dropWhile_eq_cons after
      simp_all
      omega
    · simp at read
  · next found =>
    have := length_lt_of_dropWhile_eq_cons found
    simp_all
  · simp at read

def expand (values : Table) (text : List Char) : List Char :=
  match text with
  | '$' :: '\x7b' :: rest =>
      match read : reference? rest with
      | some (reference, after) =>
          have := length_lt_of_reference? read
          let value := match values.lookup reference.name with
            | some value => value.getD ""
            | none => reference.otherwise
          value.toList ++ expand values after
      | none => '$' :: expand values ('\x7b' :: rest)
  | c :: rest => c :: expand values rest
  | [] => []
termination_by text.length

/-- Expand values in their order. References go to earlier values, and to those
of the environment where there are none. -/
def expandAll (environment : Table) (lines : Table) : Table :=
  lines.foldl (fun done (name, value) =>
    putEntry name (value.map fun text =>
      String.ofList (expand (done ++ environment) text.toList)) done) []

def read (environment : List (String × String)) (text : List Char) : Table :=
  expandAll (environment.map fun (name, value) => (name, some value))
    (assignments text)

end FencedJson.Assignments
