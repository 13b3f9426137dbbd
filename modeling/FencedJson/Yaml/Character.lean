/-! # Characters of YAML

The line ends of a text are unified before it is read, so no carriage return
occurs. Tests that take an option hold at the end of the text as well.
-/

namespace FencedJson.Yaml

def isPrintable (c : Char) : Bool :=
  let n := c.toNat
  c = '\t' || c = '\n' || c = '\r' || (0x20 ≤ n && n ≤ 0x7e) || n == 0x85 ||
    (0xa0 ≤ n && n ≤ 0xd7ff) || (0xe000 ≤ n && n ≤ 0xfffd) || 0x10000 ≤ n

def isFeed (c : Char) : Bool := c = '\n' || c = '\x85'

def isBreak (c : Char) : Bool := isFeed c || c = '\u2028' || c = '\u2029'

def breakValue (c : Char) : Char := if isFeed c then '\n' else c

def isBlank (c : Char) : Bool := c = ' ' || c = '\t'

def endsWord : Option Char → Bool
  | none => true
  | some c => c = ' ' || isBreak c

/-- Is an indicator in front of this separated from what follows? -/
def isGap : Option Char → Bool
  | none => true
  | some c => isBlank c || isFeed c

def isWordChar (c : Char) : Bool :=
  ('0' ≤ c && c ≤ '9') || ('A' ≤ c && c ≤ 'Z') || ('a' ≤ c && c ≤ 'z') ||
    c = '-' || c = '_'

def isFlowIndicator (c : Char) : Bool := ",[]\x7b\x7d".toList.contains c

def isNameChar (c : Char) : Bool :=
  let n := c.toNat
  !isFlowIndicator c && c ≠ '\ufeff' && ((0x21 ≤ n && n ≤ 0x7e) || 0xa0 ≤ n)

def isIndicator (c : Char) : Bool :=
  "-?:,[]\x7b\x7d#&*!|>'\"%@`".toList.contains c

def isSeparator : List Char → Bool
  | '-' :: '-' :: '-' :: rest => isGap rest.head?
  | '.' :: '.' :: '.' :: rest => isGap rest.head?
  | _ => false

end FencedJson.Yaml
