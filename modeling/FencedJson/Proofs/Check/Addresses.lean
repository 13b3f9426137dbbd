import FencedJson.Check.Extraction

/-! # Addresses of nodes

A node of a tree has an address: the indices of the children on the way from the
root to it. Addresses in the order of a dictionary are in the order of the
document: a node comes before the nodes below it, and these come before what is
next to the node.
-/

namespace FencedJson

def Node.at? (node : Node) : List Nat → Option Node
  | [] => some node
  | index :: rest => node.children[index]?.bind fun child => child.at? rest

mutual

def Node.entries : Node → List (List Nat × Node)
  | .mk type lang value line children =>
      ([], .mk type lang value line children) :: entriesFrom 0 children

/-- The nodes of trees that are next to each other, the first of them at an
index. -/
def entriesFrom (index : Nat) : List Node → List (List Nat × Node)
  | [] => []
  | node :: rest =>
      node.entries.map (Prod.map (index :: ·) id) ++
        entriesFrom (index + 1) rest

end

example :
    let inner := Node.codeBlock "1" (some "json5") 2
    let outer := Node.mk (some "CodeBlock")
        (some "json") none none [inner, inner]
    outer.entries = [([], outer), ([0], inner), ([1], inner)] := rfl

/-! ## What is found -/

mutual

theorem jsonBlocks_eq_filter_entries : ∀ node : Node,
    node.jsonBlocks = (node.entries.map Prod.snd).filter Node.isJson
  | .mk type lang value line children => by
      rw [Node.jsonBlocks, Node.entries, List.map_cons, List.filter_cons,
        jsonBlocksOf_eq_filter_entries 0 children]
      cases (Node.mk type lang value line children).isJson <;> rfl

theorem jsonBlocksOf_eq_filter_entries : ∀ (index : Nat) (nodes : List Node),
    jsonBlocksOf nodes = ((entriesFrom index nodes).map Prod.snd).filter
      Node.isJson
  | _, [] => rfl
  | index, node :: rest => by
      have same : Prod.snd ∘ Prod.map (index :: ·) id =
          (Prod.snd : List Nat × Node → Node) := rfl
      rw [jsonBlocksOf, entriesFrom, List.map_append, List.map_map, same,
        List.filter_append, jsonBlocks_eq_filter_entries node,
        jsonBlocksOf_eq_filter_entries (index + 1) rest]

end

/-! ## Where it is found -/

mutual

theorem mem_entries_iff : ∀ (root : Node) {address : List Nat} {node : Node},
    (address, node) ∈ root.entries ↔ root.at? address = some node
  | .mk type lang value line children, address, node => by
      rw [Node.entries, List.mem_cons, mem_entriesFrom_iff 0 children]
      cases address with
      | nil => simp [Node.at?, eq_comm]
      | cons index rest =>
          simp only [Node.at?, Node.children,
            Option.bind_eq_some_iff, Nat.zero_add, List.cons.injEq,
            reduceCtorEq, Prod.mk.injEq, false_and, false_or]
          constructor
          · rintro ⟨step, way, root, ⟨rfl, rfl⟩, child, behind⟩
            exact ⟨root, child, behind⟩
          · rintro ⟨root, child, behind⟩
            exact ⟨index, rest, root, ⟨rfl, rfl⟩, child, behind⟩

theorem mem_entriesFrom_iff :
    ∀ (index : Nat) (nodes : List Node) {address : List Nat}
    {node : Node}, (address, node) ∈ entriesFrom index nodes ↔
      ∃ step rest root, address = (index + step) :: rest ∧
      nodes[step]? = some root ∧ root.at? rest = some node
  | _, [], _, _ => by simp [entriesFrom]
  | index, root :: roots, address, node => by
      rw [entriesFrom, List.mem_append, mem_entriesFrom_iff (index + 1) roots,
        List.mem_map]
      -- Steps count from the first tree on, so those to later trees are one
      -- longer from here.
      constructor
      · rintro (⟨⟨rest, found⟩, member, same⟩ | ⟨step, rest, found, rfl,
          sibling, behind⟩)
        · cases same
          exact ⟨0, rest, root, rfl, rfl, (mem_entries_iff root).1 member⟩
        · exact ⟨step + 1, rest,
            found, by rw [Nat.add_right_comm, Nat.add_assoc], sibling, behind⟩
      · rintro ⟨step, rest, found, rfl, sibling, behind⟩
        cases step with
        | zero =>
            cases sibling
            exact .inl ⟨(rest, node), (mem_entries_iff root).2 behind, rfl⟩
        | succ step =>
            exact .inr
              ⟨step, rest,
                found, by
                  rw [Nat.add_right_comm, Nat.add_assoc], sibling, behind⟩

end

/-! ## In which order -/

theorem exists_index_of_mem_entriesFrom {index : Nat} {nodes : List Node}
    {entry : List Nat × Node} (member : entry ∈ entriesFrom index nodes) :
    ∃ sibling rest, entry.1 = sibling :: rest ∧ index ≤ sibling := by
  rcases (mem_entriesFrom_iff index nodes).1 member with
    ⟨step, rest, -, address, -, -⟩
  exact ⟨index + step, rest, address, Nat.le_add_right ..⟩

mutual

theorem pairwise_entries : ∀ root : Node,
    root.entries.Pairwise fun entry later => entry.1 < later.1
  | .mk type lang value line children => by
      rw [Node.entries, List.pairwise_cons]
      refine ⟨fun later member => ?_, pairwise_entriesFrom 0 children⟩
      rcases exists_index_of_mem_entriesFrom member with
        ⟨sibling, rest, address, -⟩
      rw [address]
      exact List.nil_lt_cons ..

theorem pairwise_entriesFrom : ∀ (index : Nat) (nodes : List Node),
    (entriesFrom index nodes).Pairwise fun entry later => entry.1 < later.1
  | _, [] => .nil
  | index, root :: roots => by
      rw [entriesFrom, List.pairwise_append, List.pairwise_map]
      -- In one tree what is behind the index decides, between two trees the
      -- index.
      refine ⟨?_, pairwise_entriesFrom (index + 1) roots, ?_⟩
      · exact (pairwise_entries root).imp fun before =>
          List.cons_lt_cons_iff.2 (.inr ⟨rfl, before⟩)
      · intro entry member later member'
        rcases List.mem_map.1 member with ⟨inner, -, rfl⟩
        rcases exists_index_of_mem_entriesFrom member' with
          ⟨sibling, rest, address, behind⟩
        rw [address]
        exact List.cons_lt_cons_iff.2 (.inl behind)

end

/-! ## The blocks to check -/

private theorem Node.isJson_iff {node : Node} : node.isJson ↔
    node.type = some "CodeBlock" ∧
    (node.lang = some "json" ∨ node.lang = some "json5") := by
  cases lang : node.lang <;>
    simp [Node.isJson, lang, Node.codeBlockType, jsonLanguages]

/-- The blocks to check stand at the addresses of the code blocks in JSON
languages, one at each address, in the order of the addresses. A block comes
before those below it. -/
theorem jsonBlocks_by_address (root : Node) :
    ∃ addresses : List (List Nat),
      root.jsonBlocks.map some = addresses.map root.at? ∧
      (∀ address, address ∈ addresses ↔ ∃ node, root.at? address = some node ∧
        node.type = some "CodeBlock" ∧
        (node.lang = some "json" ∨ node.lang = some "json5")) ∧
      addresses.Pairwise (· < ·) ∧
      ∀ (outer inner : Fin addresses.length),
        addresses[outer] <+: addresses[inner] → outer ≤ inner := by
  let found := root.entries.filter fun entry => entry.2.isJson
  have ordered : (found.map Prod.fst).Pairwise (· < ·) :=
    List.pairwise_map.2 ((pairwise_entries root).filter _)
  refine ⟨found.map Prod.fst, ?_, fun address => ?_, ordered,
    fun outer inner below => ?_⟩
  · rw [jsonBlocks_eq_filter_entries, List.filter_map,
      List.map_map, List.map_map]
    refine List.map_congr_left fun entry member => ?_
    exact ((mem_entries_iff root).1 (List.mem_filter.1 member).1).symm
  · simp only [found, List.mem_map, List.mem_filter, Prod.exists,
      exists_and_right, exists_eq_right, mem_entries_iff, Node.isJson_iff]
  · refine Fin.not_lt.1 fun behind => ?_
    have before := List.pairwise_iff_getElem.1 ordered inner outer inner.2
        outer.2 behind
    exact List.not_lt.2 below.le before

end FencedJson
