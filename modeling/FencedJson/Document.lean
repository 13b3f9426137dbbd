import FencedJson.Markdown.Block
import FencedJson.Markdown.Inline

/-! # Document trees

A document is a tree of nodes. Code blocks, fenced or indented, are nodes of one
type with a language and a value. A tree need not come from Markdown, and a node
may lack any of its parts.
-/

namespace FencedJson

inductive Node where
  | mk (type : Option String) (lang : Option String) (value : Option String)
      (line : Option Int) (children : List Node)
  deriving BEq, Inhabited

namespace Node

def type : Node → Option String
  | mk type _ _ _ _ => type

def lang : Node → Option String
  | mk _ lang _ _ _ => lang

def value : Node → Option String
  | mk _ _ value _ _ => value

def line : Node → Option Int
  | mk _ _ _ line _ => line

def children : Node → List Node
  | mk _ _ _ _ children => children

def codeBlockType : String := "CodeBlock"

def codeBlock (value : String) (lang : Option String) (line : Int) : Node :=
  mk (some codeBlockType) lang (some value) (some line) []

/-- The line on which the node begins; a node at no known place is on the first.
-/
def startLine (node : Node) : Int := node.line.getD 1

def plain (type : String) (line : Option Nat) (children : List Node) : Node :=
  mk (some type) none none (line.map Int.ofNat) children

end Node

namespace Markdown

def fenceLanguage (info : String) : Option String :=
  (firstWord? info.toList).map String.ofList

def withoutFinalNewline (text : String) : String :=
  match text.toList.reverse with
  | '\n' :: '\r' :: rest => String.ofList rest.reverse
  | '\n' :: rest => String.ofList rest.reverse
  | _ => text

def Block.labels : Block → List (List Char)
  | .quote _ children => labelsOf children
  | .list _ _ items => labelsOf items
  | .item _ children => labelsOf children
  | .definition label => [label]
  | _ => []
where
  labelsOf : List Block → List (List Char)
    | [] => []
    | block :: rest => block.labels ++ labelsOf rest

mutual

def Inline.toNode : Inline → Node
  | .text => .plain "text" none []
  | .softBreak => .plain "softbreak" none []
  | .hardBreak => .plain "hardbreak" none []
  | .code => .plain "code_inline" none []
  | .html => .plain "html_inline" none []
  | .emphasis children => .plain "em" none (inlineNodes children)
  | .strong children => .plain "strong" none (inlineNodes children)
  | .link children => .plain "link" none (inlineNodes children)
  | .image children => .plain "image" none (inlineNodes children)

def inlineNodes : List Inline → List Node
  | [] => []
  | node :: rest => node.toNode :: inlineNodes rest

end

def codeNode (line : Nat) (lang : Option String) (lines : List (List Char)) :
    Node :=
  .codeBlock (String.ofList (joinLines lines)) lang line

mutual

def Block.toNodes (inside : List Char → List Node) : Block → List Node
  | .paragraph line text =>
      [.plain "paragraph" (some line)
        [.plain "inline" (some line) (inside text)]]
  | .heading line text =>
      [.plain "heading" (some line) [.plain "inline" (some line) (inside text)]]
  | .rule line => [.plain "hr" (some line) []]
  | .html line => [.plain "html_block" (some line) []]
  | .code line lines => [codeNode line none lines]
  | .fence line info lines _ =>
      [codeNode line (fenceLanguage (String.ofList info)) lines]
  | .quote line children =>
      [.plain "blockquote" (some line) (nodesOf inside children)]
  | .list ordered line items =>
      [.plain (if ordered then "ordered_list" else "bullet_list") (some line)
        (nodesOf inside items)]
  | .item line children =>
      [.plain "list_item" (some line) (nodesOf inside children)]
  | .definition _ => []

def nodesOf (inside : List Char → List Node) : List Block → List Node
  | [] => []
  | block :: rest => block.toNodes inside ++ nodesOf inside rest

end

def parse (text : String) : Node :=
  let blocks := parseBlocks text.toList
  let labels := Block.labels.labelsOf blocks
  let inside (content : List Char) : List Node :=
    inlineNodes (Inline.parse (fun label => labels.contains label)
      (!labels.isEmpty) content)
  .plain "root" none (nodesOf inside blocks)

end Markdown
end FencedJson
