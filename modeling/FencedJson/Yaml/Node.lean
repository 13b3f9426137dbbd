import FencedJson.Text.Reading
import FencedJson.Yaml.Problem
import FencedJson.Yaml.Token

/-! # The nodes of a document

Tokens are put together to nodes: scalars, sequences and mappings, with the
aliases still in the place of what they stand for.
-/

namespace FencedJson.Yaml

structure Marks where
  anchor : Option String
  tag : Option String
  deriving DecidableEq, Repr

namespace Marks

def none : Marks := ⟨.none, .none⟩

def openTag : String := "!"

def tag? (marks : Marks) : Option String := marks.tag.filter (· ≠ openTag)

end Marks

inductive Node where
  | alias (name : String)
  | scalar (marks : Marks) (plain : Bool) (text : List Char)
  | sequence (marks : Marks) (items : List Node)
  | mapping (marks : Marks) (entries : List (Node × Node))
  deriving Inhabited

namespace Node

def empty : Node := scalar .none true []

def ofScalar (marks : Marks) (plain : Bool) (text : List Char) : Node :=
  scalar marks (if marks.tag.isNone then plain else marks.tag?.isNone) text

end Node

inductive Collection where
  | blockSequence
  /-- A block sequence that is indented no further than its parent. -/
  | flatSequence
  | blockMapping
  | flowSequence
  | flowMapping
  deriving DecidableEq, Repr

namespace Collection

def isFlow : Collection → Bool
  | flowSequence | flowMapping => true
  | _ => false

def closing : Collection → Token
  | flowSequence => .flowSequenceEnd
  | flowMapping => .flowMappingEnd
  | _ => .blockEnd

def valueStops : Collection → List Token
  | blockSequence => [.blockEntry, .blockEnd]
  | flatSequence => [.blockEntry, .key, .value, .blockEnd]
  | blockMapping => [.key, .value, .blockEnd]
  | flowSequence => [.flowEntry, .flowSequenceEnd]
  | flowMapping => [.flowEntry, .flowMappingEnd]

def keyStops : Collection → List Token
  | flowSequence => [.value, .flowEntry, .flowSequenceEnd]
  | flowMapping => [.value, .flowEntry, .flowMappingEnd]
  | collection => collection.valueStops

end Collection

structure Document where
  version : Version
  handles : List (String × String)

namespace Document

def standard : Document :=
  ⟨.standard, [("!", "!"), ("!!", "tag:yaml.org,2002:")]⟩

def tagOf (document : Document) (tag : WrittenTag) : Except Problem String :=
  match tag.handle with
  | none => .ok tag.name
  | some handle =>
      match document.handles.lookup handle with
      | some front => .ok (front ++ tag.name)
      | none => .error .unknownHandle

def marksOf (document : Document) (tokens : List Token) :
    Except Problem (Marks × Nat) :=
  match tokens with
  | .anchor anchor :: .tag tag :: _ | .tag tag :: .anchor anchor :: _ =>
      (document.tagOf tag).map fun tag => (⟨some anchor, some tag⟩, 2)
  | .anchor anchor :: _ => .ok (⟨some anchor, none⟩, 1)
  | .tag tag :: _ => (document.tagOf tag).map fun tag => (⟨none, some tag⟩, 1)
  | _ => .ok (.none, 0)

abbrev TokenReader (α : Type) (tokens : List Token) :=
  Except Failure (Reading α tokens)

def failed {α : Type} (problem : Problem) : Except Failure α :=
  .error (.problem problem)

mutual

def node (document : Document) (depth : Nat) (block flat : Bool)
    (tokens : List Token) :
    TokenReader Node tokens :=
  match tokens with
  | [] => failed .nodeExpected
  | .alias name :: rest => .ok ⟨.alias name, rest, by simp⟩
  | first :: others =>
      match document.marksOf (first :: others) with
      | .error problem => failed problem
      | .ok (_, 0) =>
          match document.content depth .none block flat (first :: others) with
          | .error failure => .error failure
          | .ok none => failed .nodeExpected
          | .ok (some read) => .ok read
      | .ok (marks, count + 1) =>
          match document.content depth marks block flat (others.drop count) with
          | .error failure => .error failure
          | .ok none =>
              .ok ⟨.ofScalar marks true [], others.drop count, by simp +arith⟩
          | .ok (some read) => .ok (read.widen (by simp +arith))
termination_by 5 * tokens.length + 3

def content (document : Document) (depth : Nat) (marks : Marks)
    (block flat : Bool) (tokens : List Token) :
    Except Failure (Option (Reading Node tokens)) :=
  match tokens with
  | .scalar plain text :: rest =>
      .ok (some ⟨.ofScalar marks plain text, rest, by simp⟩)
  | .flowSequenceStart :: rest =>
      match depth with
      | 0 => .error .tooDeep
      | depth + 1 => (document.flowItems depth rest).map fun read =>
          some ((read.map (.sequence marks)).widen (by simp))
  | .flowMappingStart :: rest =>
      match depth with
      | 0 => .error .tooDeep
      | depth + 1 => (document.flowPairs depth rest).map fun read =>
          some ((read.map (.mapping marks)).widen (by simp))
  | .blockSequenceStart :: rest =>
      if block then
        match depth with
        | 0 => .error .tooDeep
        | depth + 1 => (document.blockItems depth rest).map fun read =>
            some ((read.map (.sequence marks)).widen (by simp))
      else .ok none
  | .blockMappingStart :: rest =>
      if block then
        match depth with
        | 0 => .error .tooDeep
        | depth + 1 => (document.blockPairs depth rest).map fun read =>
            some ((read.map (.mapping marks)).widen (by simp))
      else .ok none
  | .blockEntry :: rest =>
      if flat then
        match depth with
        | 0 => .error .tooDeep
        | depth + 1 =>
            match document.indicated depth .flatSequence .blockEntry rest with
            | .error failure => .error failure
            | .ok first =>
                have : first.rest.length < rest.length + 1 := first.shorter
                (document.flatItems depth first.rest).map fun (items, others) =>
                  some ⟨.sequence marks (first.value :: items), others.val,
                    Nat.lt_of_le_of_lt others.property first.shorter⟩
      else .ok none
  | _ => .ok none
termination_by 5 * tokens.length + 2

/-- An indicator and the node behind it, or the empty node where another
indicator or the end of the collection follows. -/
def indicated (document : Document) (depth : Nat) (collection : Collection)
    (indicator : Token) (rest : List Token) :
    TokenReader Node (indicator :: rest) :=
  let stops := if indicator =
      .key then collection.keyStops else collection.valueStops
  match rest.head? with
  | none => failed .nodeExpected
  | some next =>
      if next ∈ stops then .ok ⟨.empty, rest, by simp⟩
      else
        (document.node depth (!collection.isFlow)
          (collection = .blockMapping) rest).map fun read =>
            read.widen (by simp)
termination_by 5 * (rest.length + 1)

def flatItems (document : Document) (depth : Nat) (tokens : List Token) :
    Except Failure
      (List Node × { rest : List Token // rest.length ≤ tokens.length }) :=
  match tokens with
  | .blockEntry :: rest =>
      match document.indicated depth .flatSequence .blockEntry rest with
      | .error failure => .error failure
      | .ok first =>
          have : first.rest.length < rest.length + 1 := first.shorter
          (document.flatItems depth first.rest).map fun (items, others) =>
            (first.value :: items,
              ⟨others.val, Nat.le_trans others.property
                (Nat.le_of_lt first.shorter)⟩)
  | tokens => .ok ([], ⟨tokens, Nat.le_refl _⟩)
termination_by 5 * tokens.length + 1

def blockItems (document : Document) (depth : Nat) (tokens : List Token) :
    TokenReader (List Node) tokens :=
  match tokens with
  | .blockEntry :: rest =>
      match document.indicated depth .blockSequence .blockEntry rest with
      | .error failure => .error failure
      | .ok first =>
          have : first.rest.length < rest.length + 1 := first.shorter
          (document.blockItems depth first.rest).map fun others =>
            (others.map (first.value :: ·)).widen (Nat.le_of_lt first.shorter)
  | .blockEnd :: rest => .ok ⟨[], rest, by simp⟩
  | _ => failed .entryExpected
termination_by 5 * tokens.length + 1

def pair (document : Document) (depth : Nat) (collection : Collection)
    (tokens : List Token) : TokenReader (Node × Node) tokens :=
  match tokens with
  | .key :: rest =>
      match document.indicated depth collection .key rest with
      | .error failure => .error failure
      | .ok key =>
          have := key.shorter
          match found : key.rest with
          | .value :: others =>
              (document.indicated depth collection .value others).map
                fun value =>
                (value.map (key.value, ·)).widen (by rw [← found]; omega)
          | _ => .ok ⟨(key.value, .empty), key.rest, key.shorter⟩
  | .value :: rest =>
      if document.version.isOld then failed .entryExpected
      else
        (document.indicated depth collection .value rest).map fun value =>
          value.map (.empty, ·)
  | _ => failed .entryExpected
termination_by 5 * tokens.length + 1
decreasing_by
  · simp
  · grind
  · simp

def blockPairs (document : Document) (depth : Nat) (tokens : List Token) :
    TokenReader (List (Node × Node)) tokens :=
  match tokens with
  | .blockEnd :: rest => .ok ⟨[], rest, by simp⟩
  | tokens =>
      match document.pair depth .blockMapping tokens with
      | .error failure => .error failure
      | .ok first =>
          have := first.shorter
          (document.blockPairs depth first.rest).map fun others =>
            (others.map (first.value :: ·)).widen (Nat.le_of_lt first.shorter)
termination_by 5 * tokens.length + 2

/-- The entries of a flow sequence up to its end. A pair is a mapping of its
own. -/
def flowItems (document : Document) (depth : Nat) (tokens : List Token) :
    TokenReader (List Node) tokens :=
  match tokens with
  | .flowSequenceEnd :: rest => .ok ⟨[], rest, by simp⟩
  | tokens =>
      let item := if tokens.head? = some .key then
          (document.pair depth .flowSequence tokens).map fun read =>
            read.map fun entry => .mapping .none [entry]
        else document.node depth false false tokens
      match item with
      | .error failure => .error failure
      | .ok first =>
          have := first.shorter
          match found : first.rest with
          | .flowSequenceEnd :: rest =>
              .ok ⟨[first.value], rest, by simp_all; omega⟩
          | .flowEntry :: rest =>
              (document.flowItems depth rest).map fun others =>
                (others.map (first.value :: ·)).widen (by simp_all; omega)
          | _ => failed .entryExpected
termination_by 5 * tokens.length + 4
decreasing_by
  · simp
  · simp
  · simp_all; omega

def flowPairs (document : Document) (depth : Nat) (tokens : List Token) :
    TokenReader (List (Node × Node)) tokens :=
  match tokens with
  | .flowMappingEnd :: rest => .ok ⟨[], rest, by simp⟩
  | tokens =>
      let entry := if tokens.head? = some .key ∨ tokens.head? = some .value then
          document.pair depth .flowMapping tokens
        else
          (document.node depth false false tokens).map fun read =>
            read.map fun key => (key, .empty)
      match entry with
      | .error failure => .error failure
      | .ok first =>
          have := first.shorter
          match found : first.rest with
          | .flowMappingEnd :: rest =>
              .ok ⟨[first.value], rest, by simp_all; omega⟩
          | .flowEntry :: rest =>
              (document.flowPairs depth rest).map fun others =>
                (others.map (first.value :: ·)).widen (by simp_all; omega)
          | _ => failed .entryExpected
termination_by 5 * tokens.length + 4
decreasing_by
  · simp
  · simp
  · simp_all; omega

end

/-! ## Documents -/

def withDirectives (document : Document) (versioned : Bool)
    (declared : List String) :
    List Token → Except Problem (Document × List Token)
  | .version version :: rest =>
      if versioned then .error .repeatedDirective
      else if version.major ≠ 1 then .error .badVersion
      else withDirectives { document with version } true declared rest
  | .handle handle front :: rest =>
      if handle ∈ declared then .error .repeatedDirective
      else withDirectives { document with handles :=
        (handle, front) :: document.handles } versioned
          (handle :: declared) rest
  | .otherDirective :: rest => withDirectives document versioned declared rest
  | .documentStart :: rest => .ok (document, rest)
  | _ => .error .documentExpected

/-- What ends a document, and nothing behind it. The old version allows the mark
of the end more than once. -/
def endsWell (document : Document) : List Token → Bool
  | [] => true
  | .documentEnd :: rest =>
      if document.version.isOld then rest.all
        (· = .documentEnd) else rest.isEmpty
  | _ => false

def rootFrom (document : Document) (levels : Nat) (tokens : List Token) :
    Except Failure Node :=
  match document.node levels true false tokens with
  | .error failure => .error failure
  | .ok read =>
      if document.endsWell read.rest then .ok read.value else failed
        .severalDocuments

/-- The only document of a text, with its node, or `none` where the text is
void. No more than so many levels of collections are followed. -/
def ofTokens (levels : Nat) (tokens : List Token) :
    Except Failure (Option (Document × Node)) :=
  let explicit : Bool := match tokens.head? with
    | some (.version _) | some (.handle _ _) | some .otherDirective | some
        .documentStart =>
        true
    | _ => false
  if tokens.isEmpty then .ok none
  else if explicit then
    match standard.withDirectives false [] tokens with
    | .error problem => failed problem
    | .ok (document, rest) =>
        match rest with
        | [] | .documentEnd :: _ =>
            if document.endsWell rest then .ok (some (document, .empty))
            else failed .severalDocuments
        | .documentStart :: _ | .version _ :: _ | .handle _ _ ::
            _ | .otherDirective :: _ =>
            failed .severalDocuments
        | rest =>
            (document.rootFrom levels rest).map fun root =>
              some (document, root)
  else (standard.rootFrom levels tokens).map fun root => some (standard, root)

end Document
end FencedJson.Yaml
