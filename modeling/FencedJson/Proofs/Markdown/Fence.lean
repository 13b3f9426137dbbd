import FencedJson.Check.Extraction

/-! # The fences of a document

The fenced code blocks of a document, one after the other, whatever quotes and
lists they stand in. Those in a JSON language are the blocks to check.
-/

namespace FencedJson

mutual

def Node.codeBlocks : Node → List Node
  | .mk type lang value line children =>
      let node := Node.mk type lang value line children
      (if type = some Node.codeBlockType then [node] else []) ++
        codeBlocksOf children

def codeBlocksOf : List Node → List Node
  | [] => []
  | node :: rest => node.codeBlocks ++ codeBlocksOf rest

end

mutual

theorem jsonBlocks_eq_filter :
    ∀ node : Node, node.jsonBlocks = node.codeBlocks.filter Node.isJson
  | .mk type lang value line children => by
      rw [Node.jsonBlocks, Node.codeBlocks, List.filter_append,
        jsonBlocksOf_eq_filter children]
      congr 1
      by_cases code : type = some Node.codeBlockType
      · rw [if_pos code, List.filter_cons, List.filter_nil]
      · have other :
            (Node.mk type lang value line children).isJson = false := by
          simp [Node.isJson, Node.type, code]
        rw [if_neg code, other]
        rfl

theorem jsonBlocksOf_eq_filter : ∀ nodes : List Node,
    jsonBlocksOf nodes = (codeBlocksOf nodes).filter Node.isJson
  | [] => rfl
  | node :: rest => by
      rw [jsonBlocksOf, codeBlocksOf, List.filter_append,
        jsonBlocks_eq_filter node, jsonBlocksOf_eq_filter rest]

end

theorem codeBlocksOf_append (front back : List Node) :
    codeBlocksOf (front ++ back) = codeBlocksOf front ++ codeBlocksOf back := by
  induction front with
  | nil => rfl
  | cons node front induction =>
      simp only [List.cons_append, codeBlocksOf, induction, List.append_assoc]

theorem codeBlocks_plain {type : String} (other : type ≠ Node.codeBlockType)
    (line : Option Nat) (children : List Node) :
    (Node.plain type line children).codeBlocks = codeBlocksOf children := by
  simp [Node.plain, Node.codeBlocks, other]

namespace Markdown

/-- A fenced code block as it stands in its document. -/
structure Fence where
  line : Nat
  info : List Char
  lines : List (List Char)
  closed : Bool
  deriving DecidableEq, Repr

namespace Fence

def last (fence : Fence) : Nat :=
  fence.line + fence.lines.length + fence.closed.toNat

def language (fence : Fence) : Option String :=
  fenceLanguage (String.ofList fence.info)

def text (fence : Fence) : String := String.ofList (joinLines fence.lines)

def node (fence : Fence) : Node :=
  .codeBlock fence.text fence.language fence.line

def isJson (fence : Fence) : Bool :=
  match fence.language with
  | some lang => jsonLanguages.contains lang
  | none => false

end Fence

mutual

def Block.fences : Block → List Fence
  | .fence line info lines closed => [⟨line, info, lines, closed⟩]
  | .quote _ children => fencesOf children
  | .list _ _ items => fencesOf items
  | .item _ children => fencesOf children
  | _ => []

def fencesOf : List Block → List Fence
  | [] => []
  | block :: rest => block.fences ++ fencesOf rest

end

def documentFences (text : String) : List Fence :=
  fencesOf (parseBlocks text.toList)

/-- A code block of a document, fenced or indented. -/
inductive CodeBlock where
  | fenced (fence : Fence)
  | indented (line : Nat) (lines : List (List Char))
  deriving DecidableEq, Repr

namespace CodeBlock

def node : CodeBlock → Node
  | fenced fence => fence.node
  | indented line lines => codeNode line none lines

def fence? : CodeBlock → Option Fence
  | fenced fence => some fence
  | indented .. => none

end CodeBlock

mutual

def Block.codeBlocks : Block → List CodeBlock
  | .fence line info lines closed => [.fenced ⟨line, info, lines, closed⟩]
  | .code line lines => [.indented line lines]
  | .quote _ children => codeOf children
  | .list _ _ items => codeOf items
  | .item _ children => codeOf children
  | _ => []

def codeOf : List Block → List CodeBlock
  | [] => []
  | block :: rest => block.codeBlocks ++ codeOf rest

end

def documentCode (text : String) : List CodeBlock :=
  codeOf (parseBlocks text.toList)

mutual

theorem fences_eq_filterMap : ∀ block : Block,
    block.fences = block.codeBlocks.filterMap CodeBlock.fence?
  | .paragraph .. | .heading .. | .rule _ | .html _ | .definition _
  | .fence .. | .code .. => rfl
  | .quote _ children | .list _ _ children | .item _ children =>
      fencesOf_eq_filterMap children

theorem fencesOf_eq_filterMap : ∀ blocks : List Block,
    fencesOf blocks = (codeOf blocks).filterMap CodeBlock.fence?
  | [] => rfl
  | block :: rest => by
      rw [fencesOf, codeOf, List.filterMap_append, fences_eq_filterMap block,
        fencesOf_eq_filterMap rest]

end

mutual

theorem codeBlocks_toNode : ∀ inline : Inline, inline.toNode.codeBlocks = []
  | .text | .softBreak | .hardBreak | .code | .html => by
      simp only [Inline.toNode]
      rw [codeBlocks_plain (by decide)]
      rfl
  | .emphasis children | .strong children | .link children
  | .image children => by
      simp only [Inline.toNode]
      rw [codeBlocks_plain (by decide)]
      exact codeBlocksOf_inlineNodes children

theorem codeBlocksOf_inlineNodes : ∀ inlines : List Inline,
    codeBlocksOf (inlineNodes inlines) = []
  | [] => rfl
  | inline :: rest => by
      rw [inlineNodes, codeBlocksOf, codeBlocks_toNode inline,
        codeBlocksOf_inlineNodes rest, List.append_nil]

end

theorem codeBlocksOf_plain {type : String} (other : type ≠ Node.codeBlockType)
    (line : Option Nat) (children : List Node) :
    codeBlocksOf [Node.plain type line children] = codeBlocksOf children := by
  rw [codeBlocksOf, codeBlocks_plain other, codeBlocksOf, List.append_nil]

mutual

theorem codeBlocksOf_toNodes {inside : List Char → List Node}
    (plain : ∀ text, codeBlocksOf (inside text) = []) :
    ∀ block : Block, codeBlocksOf (block.toNodes inside) =
      block.codeBlocks.map CodeBlock.node
  | .paragraph line text | .heading line text => by
      rw [Block.toNodes, codeBlocksOf_plain (by decide),
        codeBlocksOf_plain (by decide)]
      exact plain text
  | .rule line | .html line => by
      rw [Block.toNodes, codeBlocksOf_plain (by decide)]
      rfl
  | .code .. | .fence .. | .definition label => rfl
  | .quote line children => by
      rw [Block.toNodes, codeBlocksOf_plain (by decide)]
      exact codeBlocksOf_nodesOf plain children
  | .list ordered line items => by
      rw [Block.toNodes, codeBlocksOf_plain (by cases ordered <;> decide)]
      exact codeBlocksOf_nodesOf plain items
  | .item line children => by
      rw [Block.toNodes, codeBlocksOf_plain (by decide)]
      exact codeBlocksOf_nodesOf plain children

theorem codeBlocksOf_nodesOf {inside : List Char → List Node}
    (plain : ∀ text, codeBlocksOf (inside text) = []) :
    ∀ blocks : List Block,
      codeBlocksOf (nodesOf inside blocks) = (codeOf blocks).map CodeBlock.node
  | [] => rfl
  | block :: rest => by
      rw [nodesOf, codeOf, codeBlocksOf_append,
        codeBlocksOf_toNodes plain block, codeBlocksOf_nodesOf plain rest,
        List.map_append]

end

theorem codeBlocks_parse (text : String) :
    (parse text).codeBlocks = (documentCode text).map CodeBlock.node := by
  rw [parse, codeBlocks_plain (by decide)]
  exact codeBlocksOf_nodesOf (fun _ => codeBlocksOf_inlineNodes _) _

private theorem filter_isJson_map_node (blocks : List CodeBlock) :
    (blocks.map CodeBlock.node).filter Node.isJson =
      ((blocks.filterMap CodeBlock.fence?).filter Fence.isJson).map
        Fence.node := by
  induction blocks with
  | nil => rfl
  | cons block rest induction =>
      cases block with
      | indented line lines =>
          have other : (CodeBlock.indented line lines).node.isJson = false :=
            rfl
          rw [List.map_cons, List.filter_cons_of_neg (by simp [other]),
            induction]
          rfl
      | fenced fence =>
          have json : (CodeBlock.fenced fence).node.isJson = fence.isJson := rfl
          have first : (CodeBlock.fenced fence).fence? = some fence := rfl
          rw [List.map_cons, List.filterMap_cons_some first, List.filter_cons,
            List.filter_cons, json, induction]
          cases fence.isJson <;> rfl

theorem jsonBlocks_parse (text : String) : (parse text).jsonBlocks =
    ((documentFences text).filter Fence.isJson).map Fence.node := by
  rw [jsonBlocks_eq_filter, codeBlocks_parse,
    filter_isJson_map_node, documentCode, ← fencesOf_eq_filterMap]
  rfl

end Markdown
end FencedJson
