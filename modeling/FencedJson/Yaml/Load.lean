import FencedJson.Field.Conversion
import FencedJson.Yaml.Node
import FencedJson.Yaml.Scalar
import FencedJson.Yaml.Tokens

/-! # The datum of a YAML text

Aliases are replaced by what they stand for, every node gets its tag, mappings
are merged into those that ask for it, and the tags tell what datum comes of
each node.
-/

namespace FencedJson.Yaml

/-! ## Trees -/

inductive Tree where
  | scalar (tag : Tag) (text : List Char)
  | sequence (tag : Tag) (items : List Tree)
  | mapping (tag : Tag) (entries : List (Tree × Tree))

namespace Tree

def tag : Tree → Tag
  | scalar tag _ | sequence tag _ | mapping tag _ => tag

abbrev Anchors := List (String × Tree)

def remember (anchors : Anchors) (marks : Marks) (tree : Tree) : Anchors :=
  match marks.anchor with
  | some name => (name, tree) :: anchors
  | none => anchors

def scalarTag (version : Version) (marks : Marks) (plain : Bool)
    (text : List Char) :
    Except Failure Tag :=
  match marks.tag? with
  | some name => .ok (.ofName name)
  | none =>
      if !plain then .ok .text
      else if version = .standard ∨
        version = .old then .ok (Plain.tagOf version text)
      else .error (.unknownVersion version.major version.minor)

mutual

/-- The tree of a node, and the anchors up to its end. An alias in what it
stands for itself is taken as empty. -/
def ofNode (version : Version) (anchors : Anchors) : Node →
    Except Failure (Tree × Anchors)
  | .alias name =>
      match anchors.lookup name with
      | some tree => .ok (tree, anchors)
      | none => .error (.problem .unknownAlias)
  | .scalar marks plain text =>
      (scalarTag version marks plain text).map fun tag =>
        let tree := scalar tag text
        (tree, remember anchors marks tree)
  | .sequence marks items =>
      let tag := (marks.tag?.map .ofName).getD .sequence
      (ofItems version (remember anchors marks (sequence tag [])) items).map
        fun (items, anchors) =>
          let tree := sequence tag items
          (tree, remember anchors marks tree)
  | .mapping marks entries =>
      let tag := (marks.tag?.map .ofName).getD .mapping
      (ofEntries version (remember anchors marks (mapping tag [])) entries).map
        fun (entries, anchors) =>
          let tree := mapping tag entries
          (tree, remember anchors marks tree)

def ofItems (version : Version) (anchors : Anchors) :
    List Node → Except Failure (List Tree × Anchors)
  | [] => .ok ([], anchors)
  | item :: rest =>
      match ofNode version anchors item with
      | .error failure => .error failure
      | .ok (first, anchors) =>
          (ofItems version anchors rest).map fun (others, anchors) =>
            (first :: others, anchors)

def ofEntries (version : Version) (anchors : Anchors) :
    List (Node × Node) → Except Failure (List (Tree × Tree) × Anchors)
  | [] => .ok ([], anchors)
  | (key, value) :: rest =>
      match ofNode version anchors key with
      | .error failure => .error failure
      | .ok (key, anchors) =>
          match ofNode version anchors value with
          | .error failure => .error failure
          | .ok (value, anchors) =>
              (ofEntries version anchors rest).map fun (others, anchors) =>
                ((key, value) :: others, anchors)

end

def scalarText : Tree → Except Problem (List Char)
  | scalar _ text => .ok text
  | sequence _ _ => .error .badShape
  | mapping _ entries => ofValue entries
where
  ofValue : List (Tree × Tree) → Except Problem (List Char)
    | [] => .error .badShape
    | (key, value) :: rest =>
        if key.tag = .value then value.scalarText else ofValue rest

end Tree

/-! ## Keys -/

def wholeOf? : Datum → Option Int
  | .boolean value => some (if value then 1 else 0)
  | .integer value => some value
  | .double value =>
      if value.isNan || value.isInfinite then none else value.toInt?
  | _ => none

mutual

/-- Are two data the same key? Numbers are compared by their value. -/
def sameKey (left right : Datum) : Bool :=
  match wholeOf? left, wholeOf? right with
  | some first, some second => first = second
  | none, none =>
      match left, right with
      | .null, .null => true
      | .double first, .double second => first = second
      | .text first, .text second => first = second
      | .bytes first, .bytes second => first = second
      | .date first, .date second => first = second
      | .moment first time, .moment second other =>
          first = second && time = other
      | .tuple first, .tuple second => sameKeys first second
      | _, _ => false
  | _, _ => false

def sameKeys : List Datum → List Datum → Bool
  | [], [] => true
  | first :: left, second :: right =>
      sameKey first second && sameKeys left right
  | _, _ => false

end

mutual

/-- The kind of the first collection that keeps a datum from being a key, if any
does. -/
def unhashable? : Datum → Option String
  | .tuple items => firstUnhashable? items
  | .sequence items => some (Datum.sequence items).kind
  | .mapping entries => some (Datum.mapping entries).kind
  | .orderedMapping entries => some (Datum.orderedMapping entries).kind
  | .set items => some (Datum.set items).kind
  | _ => none

def firstUnhashable? : List Datum → Option String
  | [] => none
  | item :: rest => (unhashable? item).or (firstUnhashable? rest)

end

def hashed (datum : Datum) : Except Failure Datum :=
  match unhashable? datum with
  | some kind => .error (.unhashable kind)
  | none => .ok datum

def keyOf : Datum → Except Failure Datum
  | .sequence items => hashed (.tuple items)
  | .mapping _ | .orderedMapping _ | .set _ => .error (.problem .compoundKey)
  | datum => hashed datum

def putKey (key value : Datum) : List (Datum × Datum) → List (Datum × Datum)
  | [] => [(key, value)]
  | (first, old) :: rest =>
      if sameKey first key then (first, value) :: rest else (first, old) ::
        putKey key value rest

def distinct (merging : Bool) (entries : List (Datum × Datum)) :
    Except Failure (List (Datum × Datum)) :=
  entries.foldlM (fun done (key, value) =>
    if !merging && done.any (fun entry => sameKey entry.1 key) then .error
      (.problem .repeatedKey)
    else .ok (putKey key value done)) []

/-! ## Data -/

/-- The entries of a mapping. Those that are merged into it come first. -/
structure Contents where
  merged : List (Datum × Datum)
  own : List (Datum × Datum)

namespace Contents

def empty : Contents := ⟨[], []⟩

def all (contents : Contents) : List (Datum × Datum) :=
  contents.merged ++ contents.own

def distinctEntries (contents : Contents) :
    Except Failure (List (Datum × Datum)) :=
  distinct (!contents.merged.isEmpty) contents.all

end Contents

namespace Tree

mutual

def datum (version : Version) : Tree → Except Failure Datum
  | sequence .sequence items => (dataOf version items).map .sequence
  | sequence .orderedMapping items =>
      (orderedEntries version [] items).map .orderedMapping
  | sequence .pairs items =>
      (singles version items).map fun pairs =>
        .sequence (pairs.map fun (key, value) => .tuple [key, value])
  | mapping .mapping entries =>
      ((contents version .empty entries).bind Contents.distinctEntries).map
        .mapping
  | mapping .set entries =>
      ((contents version .empty entries).bind Contents.distinctEntries).map
        fun entries =>
        .set (entries.map (·.1))
  | tree =>
      match tree.tag, tree.scalarText with
      | .unknown, _ => .error (.problem .unknownTag)
      | tag, .ok text => Scalar.datum version tag text
      | _, .error problem => .error (.problem problem)
termination_by tree => 2 * sizeOf tree

def dataOf (version : Version) : List Tree → Except Failure (List Datum)
  | [] => .ok []
  | item :: rest =>
      match datum version item, dataOf version rest with
      | .ok first, .ok others => .ok (first :: others)
      | .error failure, _ => .error failure
      | _, .error failure => .error failure
termination_by items => 2 * sizeOf items

def keyDatum (version : Version) : Tree → Except Failure Datum
  | scalar .value text => .ok (.text (String.ofList text))
  | tree => (datum version tree).bind keyOf
termination_by tree => 2 * sizeOf tree + 1

/-- The entries behind some others of items each of which is a mapping of one
entry, and no two of one key. -/
def orderedEntries (version : Version) (done : List (Datum × Datum)) :
    List Tree → Except Failure (List (Datum × Datum))
  | [] => .ok done
  | mapping _ [(key, value)] :: rest =>
      match (datum version key).bind hashed with
      | .error failure => .error failure
      | .ok key =>
          if done.any fun entry => sameKey entry.1 key then .error
            .repeatedEntry
          else
            match datum version value with
            | .error failure => .error failure
            | .ok value => orderedEntries version (done ++ [(key, value)]) rest
  | _ :: _ => .error (.problem .badShape)
termination_by items => 2 * sizeOf items

def singles (version : Version) : List Tree →
    Except Failure (List (Datum × Datum))
  | [] => .ok []
  | mapping _ [(key, value)] :: rest =>
      match datum version key, datum version value, singles version rest with
      | .ok key, .ok value, .ok others => .ok ((key, value) :: others)
      | .error failure, _, _ => .error failure
      | _, .error failure, _ => .error failure
      | _, _, .error failure => .error failure
  | _ :: _ => .error (.problem .badShape)
termination_by items => 2 * sizeOf items

def contents (version : Version) (before : Contents) :
    List (Tree × Tree) → Except Failure Contents
  | [] => .ok before
  | (key, value) :: rest =>
      if key.tag = .merge then
        if before.merged.isEmpty then
          match contribution version value with
          | .ok merged => contents version { before with merged } rest
          | .error failure => .error failure
        else .error (.problem .repeatedKey)
      else
        match keyDatum version key, datum version value with
        | .ok key, .ok value =>
            contents version { before with own :=
              before.own ++ [(key, value)] } rest
        | .error failure, _ => .error failure
        | _, .error failure => .error failure
termination_by entries => 2 * sizeOf entries

def contribution (version : Version) : Tree →
    Except Failure (List (Datum × Datum))
  | mapping _ entries => (contents version .empty entries).map Contents.all
  | sequence _ items => contributions version items
  | scalar _ _ => .error (.problem .badMerge)
termination_by tree => 2 * sizeOf tree

def contributions (version : Version) : List Tree →
    Except Failure (List (Datum × Datum))
  | [] => .ok []
  | mapping _ entries :: rest =>
      match contents version .empty entries, contributions version rest with
      | .ok first, .ok others => .ok (others ++ first.all)
      | .error failure, _ => .error failure
      | _, .error failure => .error failure
  | _ :: _ => .error (.problem .badMerge)
termination_by items => 2 * sizeOf items

end

end Tree

/-- What makes a datum of a text with unified line ends. -/
abbrev Reader := (text : List Char) → Except Failure Datum

/-- The datum of a text with no more than so many levels. Nothing at all is
null. -/
def load (levels : Nat) : Reader := fun text =>
  match tokens text with
  | .error failure => .error failure
  | .ok tokens =>
      match Document.ofTokens levels tokens with
      | .error failure => .error failure
      | .ok none => .ok .null
      | .ok (some (document, root)) =>
          match Tree.ofNode document.version [] root with
          | .error failure => .error failure
          | .ok (tree, _) => tree.datum document.version

end FencedJson.Yaml
