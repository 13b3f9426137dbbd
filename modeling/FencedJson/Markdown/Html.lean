import FencedJson.Text.Blank
import FencedJson.Text.Reading

/-! # HTML in Markdown

Tags, comments and the like are passed through, inside of a paragraph or as
blocks of their own. The functions here find where such a construct ends.
-/

namespace FencedJson.Markdown.Html

def isLetter (c : Char) : Bool := ('a' ≤ c && c ≤ 'z') || ('A' ≤ c && c ≤ 'Z')

def isAlphanumeric (c : Char) : Bool := isLetter c || ('0' ≤ c && c ≤ '9')

abbrev Shorter (text : List Char) :=
  { rest : List Char // rest.length < text.length }

/-! ## Tags -/

def afterTagName? : List Char → Option (List Char)
  | [] => none
  | c :: rest =>
      if isLetter c then some
        (rest.dropWhile fun d => isAlphanumeric d || d = '-')
      else none

def isAttributeStart (c : Char) : Bool := isLetter c || c = '_' || c = ':'

def isAttributePart (c : Char) : Bool :=
  isAlphanumeric c || c = ':' || c = '.' || c = '_' || c = '-'

def isUnquoted (c : Char) : Bool :=
  0x20 < c.toNat && c ≠ '"' && c ≠ '\'' && c ≠ '=' && c ≠ '<' &&
    c ≠ '>' && c ≠ '`'

def afterUnquoted : (text : List Char) → List (Shorter text)
  | [] => []
  | c :: rest =>
      if isUnquoted c then
        (afterUnquoted rest).map (fun further =>
          ⟨further.1, Nat.lt_trans further.2 (by simp)⟩) ++ [⟨rest, by simp⟩]
      else []

def afterQuote? (quote : Char) : (text : List Char) → Option (Shorter text)
  | [] => none
  | c :: rest =>
      if c = quote then some ⟨rest, by simp⟩
      else (afterQuote? quote rest).map fun further =>
        ⟨further.1, Nat.lt_trans further.2 (by simp)⟩

def afterValue : (text : List Char) → List (Shorter text)
  | [] => []
  | c :: rest =>
      if c = '"' ∨ c = '\'' then
        ((afterQuote? c rest).map fun further =>
          (⟨further.1, Nat.lt_trans further.2 (by simp)⟩ :
            Shorter (c :: rest))).toList
      else afterUnquoted (c :: rest)

def afterAttributeName? (text : List Char) : Option (Shorter text) :=
  match text with
  | [] => none
  | blank :: rest =>
      if isWide blank then
        match found : rest.dropWhile isWide with
        | [] => none
        | first :: tail =>
            if isAttributeStart first then
              have shorter : tail.length < rest.length :=
                length_lt_of_dropWhile_eq_cons found
              some ⟨tail.dropWhile isAttributePart, Nat.lt_succ_of_lt
                (Nat.lt_of_le_of_lt (length_dropWhile_le isAttributePart tail)
                  shorter)⟩
            else none
      else none

def afterTagClose? (text : List Char) : Option (List Char) :=
  match text.dropWhile isWide with
  | '/' :: '>' :: rest => some rest
  | '>' :: rest => some rest
  | _ => none

/-- The possible ends of an attribute: those of its value, or the end of its
name where no value is given. -/
def afterAttribute (text : List Char) : List (Shorter text) :=
  match afterAttributeName? text with
  | none => []
  | some ⟨named, shorter⟩ =>
      match found : named.dropWhile isWide with
      | '=' :: rest =>
          have restBound := length_lt_of_dropWhile_eq_cons found
          have valueBound := length_dropWhile_le isWide rest
          (afterValue (rest.dropWhile isWide)).map fun further =>
            ⟨further.1, by have := further.2; omega⟩
      | _ => [⟨named, shorter⟩]

def afterAttributes? (text : List Char) : Option (List Char) :=
  ((afterAttribute text).findSome? fun further => afterAttributes? further.1).or
    (afterTagClose? text)
termination_by text.length
decreasing_by exact further.2

def afterOpenTag? (text : List Char) : Option (List Char) :=
  ((after? ['<'] text).bind afterTagName?).bind afterAttributes?

def afterCloseTag? (text : List Char) : Option (List Char) :=
  ((after? ['<', '/'] text).bind afterTagName?).bind fun rest =>
    after? ['>'] (rest.dropWhile isWide)

/-! ## Comments and the like -/

def afterNext? (part : List Char) : List Char → Option (List Char)
  | [] => none
  | c :: rest => (after? part (c :: rest)).or (afterNext? part rest)

/-- The rest after the text of a comment. Dashes in it are taken together with
what follows them, so that a run of dashes may hide the end mark. -/
def afterCommentText? : List Char → Option (List Char)
  | '-' :: '-' :: '>' :: rest => some rest
  | '-' :: '-' :: _ :: rest => afterCommentText? rest
  | ['-', '-'] => none
  | '-' :: _ :: rest => afterCommentText? rest
  | ['-'] => none
  | _ :: rest => afterCommentText? rest
  | [] => none

def afterComment? (text : List Char) : Option (List Char) :=
  ((after? "<!-->".toList text).or (after? "<!--->".toList text)).or
    ((after? "<!--".toList text).bind afterCommentText?)

def afterProcessing? (text : List Char) : Option (List Char) :=
  (after? ['<', '?'] text).bind (afterNext? ['?', '>'])

def afterDeclaration? (text : List Char) : Option (List Char) :=
  match after? ['<', '!'] text with
  | some (c :: rest) => if isLetter c then afterNext? ['>'] rest else none
  | _ => none

def afterCdata? (text : List Char) : Option (List Char) :=
  (after? "<![CDATA[".toList text).bind (afterNext? [']', ']', '>'])

def afterInline? (text : List Char) : Option (List Char) :=
  [afterOpenTag?, afterCloseTag?, afterComment?, afterProcessing?,
    afterDeclaration?, afterCdata?].findSome? fun construct => construct text

/-! ## Blocks -/

/-- Is `c` the lower-case letter `letter` but for case? Three letters beyond
ASCII count as variants of a plain one. -/
def sameLetter (letter c : Char) : Bool :=
  c.toLower = letter || (letter = 's' && c = '\u017f') ||
    (letter = 'k' && c = '\u212a') ||
      (letter = 'i' && (c = '\u0131' || c = '\u0130'))

def afterWord? : (word text : List Char) → Option (List Char)
  | [], rest => some rest
  | _ :: _, [] => none
  | letter :: word, c :: rest =>
      if sameLetter letter c then afterWord? word rest else none

def verbatimNames : List String := ["script", "pre", "style", "textarea"]

def blockNames : List String :=
  ["address", "article", "aside", "base", "basefont", "blockquote",
    "body", "caption", "center", "col", "colgroup", "dd", "details", "dialog",
    "dir", "div", "dl", "dt", "fieldset", "figcaption", "figure", "footer",
    "form", "frame", "frameset", "h1", "h2", "h3", "h4", "h5", "h6", "head",
    "header", "hr", "html", "iframe", "legend", "li", "link", "main", "menu",
    "menuitem", "nav", "noframes", "ol", "optgroup", "option", "p", "param",
    "search", "section", "summary", "table", "tbody", "td", "tfoot", "th",
    "thead", "title", "tr", "track", "ul"]

def endsName (slashed : Bool) : List Char → Bool
  | [] => true
  | '/' :: '>' :: _ => slashed
  | c :: _ => isWide c || c = '>'

/-- The kinds of HTML block, which differ in how they begin and end. -/
inductive BlockKind where
  | verbatim
  | comment
  | processing
  | declaration
  | cdata
  | element
  | loneTag
  deriving DecidableEq, Repr

namespace BlockKind

def all : List BlockKind :=
  [verbatim, comment, processing, declaration, cdata, element, loneTag]

def begins (kind : BlockKind) (body : List Char) : Bool :=
  match kind with
  | verbatim => verbatimNames.any fun name =>
      match (after? ['<'] body).bind (afterWord? name.toList) with
      | some rest => endsName false rest
      | none => false
  | comment => (after? "<!--".toList body).isSome
  | processing => (after? "<?".toList body).isSome
  | declaration =>
      match after? "<!".toList body with
      | some (c :: _) => 'A' ≤ c && c ≤ 'Z'
      | _ => false
  | cdata => (after? "<![CDATA[".toList body).isSome
  | element => blockNames.any fun name =>
      match ((after? ['<', '/'] body).or (after? ['<'] body)).bind
          (afterWord? name.toList) with
      | some rest => endsName true rest
      | none => false
  | loneTag =>
      match (afterOpenTag? body).or (afterCloseTag? body) with
      | some rest => rest.all isWide
      | none => false

def ends (kind : BlockKind) (body : List Char) : Bool :=
  match kind with
  | verbatim => endsVerbatim body
  | comment => occursIn "-->".toList body
  | processing => occursIn "?>".toList body
  | declaration => occursIn ">".toList body
  | cdata => occursIn "]]>".toList body
  | element | loneTag => body.isEmpty
where
  endsVerbatim : List Char → Bool
    | [] => false
    | c :: rest =>
        (verbatimNames.any fun name =>
          (((after? ['<', '/'] (c :: rest)).bind (afterWord? name.toList)).bind
            (after? ['>'])).isSome) || endsVerbatim rest

def interrupts (kind : BlockKind) : Bool := kind ≠ loneTag

def ofBody? (body : List Char) : Option BlockKind :=
  match body with
  | '<' :: _ => all.find? fun kind => kind.begins body
  | _ => none

end BlockKind
end FencedJson.Markdown.Html
