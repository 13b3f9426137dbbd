import FencedJson.Text.Blank
import FencedJson.Text.Caseless
import FencedJson.Text.Digits
import FencedJson.Text.Reading

/-! # Labels, destinations and titles of links

The parts of a link are read from the front of a text. Of a destination only one
thing matters here: whether it may be linked to at all.
-/

namespace FencedJson.Markdown

def normalLabel (label : List Char) : List Char :=
  Caseless.fold (collapseBlanks (trim label))

def isInlineBlank (c : Char) : Bool := c = ' ' || c = '\t'

def isPartBlank (c : Char) : Bool := isInlineBlank c || c = '\n'

/-! ## Escapes and character references -/

def isAsciiPunctuation (c : Char) : Bool :=
  let n := c.toNat
  (0x21 ≤ n && n ≤ 0x2f) || (0x3a ≤ n && n ≤ 0x40) || (0x5b ≤ n && n ≤ 0x60) ||
    (0x7b ≤ n && n ≤ 0x7e)

/-- Named references to blanks and to the marks that a refused or admitted
address may hold. All others stand for characters that no such address contains.
-/
def namedReferences : List (String × Char) :=
  [("Tab", '\t'), ("NewLine", '\n'), ("nbsp", '\u00a0'),
    ("NonBreakingSpace", '\u00a0'), ("ensp", '\u2002'), ("emsp", '\u2003'),
    ("emsp13", '\u2004'), ("emsp14", '\u2005'), ("numsp", '\u2007'),
    ("puncsp", '\u2008'), ("thinsp", '\u2009'), ("ThinSpace", '\u2009'),
    ("hairsp", '\u200a'), ("VeryThinSpace", '\u200a'),
    ("MediumSpace", '\u205f'), ("ThickSpace", '\u205f'), ("colon", ':'),
    ("semi", ';'), ("sol", '/')]

def isReferable (n : Nat) : Bool :=
  n ≤ 0x10ffff && !(0xd800 ≤ n && n ≤ 0xdfff) && !(0xfdd0 ≤ n && n ≤ 0xfdef) &&
    n % 0x10000 < 0xfffe && 8 < n && n ≠ 0x0b && !(0x0e ≤ n && n ≤ 0x1f) &&
    !(0x7f ≤ n && n ≤ 0x9f)

def referenceNumber? : List Char → Option Nat
  | [] => none
  | c :: digits =>
      if c = 'x' ∨ c = 'X' then
        if digits.isEmpty ∨ 8 < digits.length then none else hexNumber? digits
      else if (c :: digits).all isDigit && (c :: digits).length ≤ 8 then
        some (decimalNumber (c :: digits))
      else none

def referenced? : List Char → Option Char
  | '#' :: number =>
      (referenceNumber? number).bind fun n =>
        if isReferable n then some (Char.ofNat n) else none
  | name => (namedReferences.find? fun entry => entry.1.toList = name).map (·.2)

def unescape (text : List Char) : List Char :=
  match text with
  | [] => []
  | '\\' :: c :: rest =>
      if isAsciiPunctuation c then c :: unescape rest else '\\' ::
        unescape (c :: rest)
  | '&' :: rest =>
      match found : rest.dropWhile (· ≠ ';') with
      | _ :: following =>
          have := length_lt_of_dropWhile_eq_cons found
          match referenced? (rest.takeWhile (· ≠ ';')) with
          | some c => c :: unescape following
          | none => '&' :: unescape rest
      | [] => '&' :: unescape rest
  | c :: rest => c :: unescape rest
termination_by text.length
decreasing_by
  all_goals simp_wf
  all_goals omega

/-! ## Addresses -/

def refusedSchemes : List (List Char) :=
  ["vbscript:", "javascript:", "file:", "data:"].map String.toList

def admittedData : List (List Char) :=
  ["data:image/gif;", "data:image/png;", "data:image/jpeg;",
    "data:image/webp;"].map String.toList

def isAdmitted (address : List Char) : Bool :=
  let plain := (trim address).map Char.toLower
  !(refusedSchemes.any fun scheme => (after? scheme plain).isSome) ||
    admittedData.any fun kind => (after? kind plain).isSome

/-! ## Destinations and titles -/

/-- A destination in angle brackets after its opening one: what it holds, and
the rest after the closing bracket. -/
def bracketedDestination? : List Char → Option (List Char × List Char)
  | [] => none
  | '>' :: rest => some ([], rest)
  | '\n' :: _ | '<' :: _ => none
  | '\\' :: c :: rest =>
      (bracketedDestination? rest).map fun (held, rest) =>
        ('\\' :: c :: held, rest)
  | c :: rest =>
      (bracketedDestination? rest).map fun (held, rest) => (c :: held, rest)

def parenthesisLimit : Nat := 32

/-- A destination without brackets, which ends at a blank or a control
character, or at a parenthesis that closes none of its own. -/
def bareDestination? (depth : Nat) : List Char → Option (List Char × List Char)
  | [] => if depth = 0 then some ([], []) else none
  | ['\\'] => if depth = 0 then some (['\\'], []) else none
  | '\\' :: c :: rest =>
      if c = ' ' then
        if depth = 0 then some ([], '\\' :: c :: rest) else none
      else (bareDestination? depth rest).map fun (held, rest) =>
        ('\\' :: c :: held, rest)
  | c :: rest =>
      if c.toNat ≤ 0x20 ∨ c.toNat = 0x7f then
        if depth = 0 then some ([], c :: rest) else none
      else if c = '(' then
        if parenthesisLimit ≤ depth then none
        else (bareDestination? (depth + 1) rest).map fun (held, rest) =>
          (c :: held, rest)
      else if c = ')' then
        if depth = 0 then some ([], c :: rest)
        else (bareDestination? (depth - 1) rest).map fun (held, rest) =>
          (c :: held, rest)
      else (bareDestination? depth rest).map fun (held, rest) =>
        (c :: held, rest)

def destination? (text : List Char) : Option (List Char × List Char) :=
  match text with
  | '<' :: rest =>
      (bracketedDestination? rest).map fun (held, rest) => (unescape held, rest)
  | _ =>
      match bareDestination? 0 text with
      | some ([], _) | none => none
      | some (held, rest) => some (unescape held, rest)

def titleClose? : Char → Option Char
  | '"' => some '"'
  | '\'' => some '\''
  | '(' => some ')'
  | _ => none

inductive TitleRest where
  | closed (held : Bool) (rest : List Char)
  | broken
  | unfinished (held : Bool)

def titleRest (close : Char) (held : Bool) : List Char → TitleRest
  | [] => .unfinished held
  | ['\\'] => .unfinished true
  | '\\' :: _ :: rest => titleRest close true rest
  | c :: rest =>
      if c = close then .closed held rest
      else if c = '(' ∧ close = ')' then .broken
      else titleRest close true rest

def afterTitle? : List Char → Option (List Char)
  | [] => none
  | opening :: rest =>
      (titleClose? opening).bind fun close =>
        match titleRest close false rest with
        | .closed _ rest => some rest
        | _ => none

end FencedJson.Markdown
