/-! # Blank characters

Unicode counts more characters as blank than JSON or Markdown do. The class here
is the wide one: the space separators and the control characters that separate
words, lines or records.
-/

namespace FencedJson

def isWide (c : Char) : Bool :=
  let n := c.toNat
  (0x09 ≤ n && n ≤ 0x0d) || (0x1c ≤ n && n ≤ 0x20) || n == 0x85 || n == 0xa0 ||
    n == 0x1680 || (0x2000 ≤ n && n ≤ 0x200a) || n == 0x2028 || n == 0x2029 ||
    n == 0x202f || n == 0x205f || n == 0x3000

def isSpace (c : Char) : Bool := isWide c && !(0x1c ≤ c.toNat && c.toNat ≤ 0x1f)

def trimSpace (text : List Char) : List Char :=
  ((text.dropWhile isSpace).reverse.dropWhile isSpace).reverse

def trimEnd (text : List Char) : List Char :=
  (text.reverse.dropWhile isWide).reverse

def trim (text : List Char) : List Char := trimEnd (text.dropWhile isWide)

def firstWord? (text : List Char) : Option (List Char) :=
  match (text.dropWhile isWide).takeWhile fun c => !isWide c with
  | [] => none
  | word => some word

def collapseBlanks : List Char → List Char
  | [] => []
  | [c] => if isWide c then [' '] else [c]
  | c :: next :: rest =>
      if isWide c then
        if isWide next then collapseBlanks (next :: rest)
        else ' ' :: collapseBlanks (next :: rest)
      else c :: collapseBlanks (next :: rest)

end FencedJson
