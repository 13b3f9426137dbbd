import FencedJson.Document

/-! # The blocks to check

The JSON blocks of a document, found by walking its tree. A node comes before
the nodes below it.
-/

namespace FencedJson

def jsonLanguages : List String := ["json", "json5"]

def Node.isJson (node : Node) : Bool :=
  node.type == some Node.codeBlockType &&
    match node.lang with
    | some lang => jsonLanguages.contains lang
    | none => false

mutual

def Node.jsonBlocks : Node → List Node
  | .mk type lang value line children =>
      let node := Node.mk type lang value line children
      (if node.isJson then [node] else []) ++ jsonBlocksOf children

def jsonBlocksOf : List Node → List Node
  | [] => []
  | node :: rest => node.jsonBlocks ++ jsonBlocksOf rest

end

/-- A block below another block is a block of its own. -/
example :
    let inner := Node.codeBlock "1" (some "json5") 2
    let outer := Node.mk (some "CodeBlock") (some "json") none none [inner]
    outer.jsonBlocks = [outer, inner] := rfl

end FencedJson
