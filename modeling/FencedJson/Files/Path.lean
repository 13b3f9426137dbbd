import FencedJson.Text.Reading

/-! # Paths

A path is a list of names below the root of the file system or below the working
directory. Empty names and single dots say nothing and are left out; two dots
stay.
-/

namespace FencedJson

structure Path where
  /-- The slashes that a path from the root of the file system begins with. -/
  root : String
  parts : List String
  deriving DecidableEq, Repr

namespace Path

def pieces : List Char → List (List Char)
  | [] => [[]]
  | c :: rest =>
      if c = '/' then [] :: pieces rest
      else
        match pieces rest with
        | [] => [[c]]
        | piece :: others => (c :: piece) :: others

def names (text : List Char) : List String :=
  ((pieces text).map String.ofList).filter fun name => name ≠ "" ∧ name ≠ "."

def ofString (text : String) : Path :=
  let slashes := (text.toList.takeWhile (· = '/')).length
  ⟨if slashes = 0 then "" else if slashes = 2 then "//" else "/",
    names text.toList⟩

def isAbsolute (path : Path) : Bool := path.root ≠ ""

def join (outer inner : Path) : Path :=
  if inner.isAbsolute then inner else { outer with parts :=
    outer.parts ++ inner.parts }

def joinNames (parts : List String) : String := "/".intercalate parts

def toString (path : Path) : String :=
  if path.parts.isEmpty ∧ ¬path.isAbsolute then "." else path.root ++
    joinNames path.parts

instance : ToString Path := ⟨toString⟩

example : (ofString "./docs//a.md").toString = "docs/a.md" := by decide +kernel

example : (ofString "").toString = "." := by decide +kernel

/-- The names that a path leads to from `base` on, where double dots go back by
one name. -/
def descend (base : List String) : List String → List String
  | [] => base
  | name :: rest =>
      if name = ".." then descend base.dropLast rest else descend
        (base ++ [name]) rest

def withoutCommon : List String → List String → List String × List String
  | first :: left, second :: right =>
      if first = second then withoutCommon left right
      else (first :: left, second :: right)
  | left, right => (left, right)

/-- The way from the directory `start` to `target`, both from the root of the
file system and without double dots. -/
def relative (target start : List String) : Path :=
  let (down, up) := withoutCommon target start
  ⟨"", up.map (fun _ => "..") ++ down⟩

example : relative ["w", "a.md"] ["w", "docs"] =
    ⟨"", ["..", "a.md"]⟩ := by decide

end Path
end FencedJson
