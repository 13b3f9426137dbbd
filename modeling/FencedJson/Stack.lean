/-! # The stack of calls

No more than so many calls can be open at a time. How far a nested text is
followed hangs on how many of them are left where its reader is called.
-/

namespace FencedJson

/-- What could not be done for want of a call. -/
inductive Overflow where
  | function
  | object
  | comparison
  | instanceCheck
  | array
  | mapping
  deriving DecidableEq, Repr

namespace Overflow

def activity : Overflow → String
  | function => ""
  | object => " while calling a Python object"
  | comparison => " in comparison"
  | instanceCheck => " in __instancecheck__"
  | array => " while decoding a JSON array from a unicode string"
  | mapping => " while decoding a JSON object from a unicode string"

def message (overflow : Overflow) : String :=
  "maximum recursion depth exceeded" ++ overflow.activity

end Overflow

/-- How far a reader follows texts with so many calls left, and what it is about
where it gives up. -/
structure Stamina where
  levels : (frames : Nat) → (text : String) → Nat
  overflow : (frames : Nat) → (text : String) → Overflow
  levels_mono : ∀ {fewer more : Nat} (text : String), fewer ≤ more →
    levels fewer text ≤ levels more text

structure Stack where
  limit : Nat
  frames : Nat
  /-- The reader of relaxed JSON, whose calls are its own affair. -/
  relaxed : Stamina

namespace Stack

def call (stack : Stack) (count : Nat) : Stack :=
  { stack with frames := stack.frames - count }

@[simp] theorem call_call (stack : Stack) (count more : Nat) :
    (stack.call count).call more = stack.call (count + more) := by
  simp only [call, Nat.sub_sub]

/-- The stack of a worker, with the calls on it that bring the work. -/
def worker (stack : Stack) : Stack := { stack with frames := stack.limit - 5 }

/-- Between the parser of strict JSON and the first bracket there are five
calls. Each bracket takes one. -/
def strictLevels (stack : Stack) : Nat := stack.frames - 5

def relaxedLevels (stack : Stack) (text : String) : Nat :=
  stack.relaxed.levels stack.frames text

def relaxedOverflow (stack : Stack) (text : String) : Overflow :=
  stack.relaxed.overflow stack.frames text

/-- The stack of a program that has just begun. A level of relaxed JSON is taken
to need sixteen calls. -/
def standard : Stack where
  limit := 1000
  frames := 999
  relaxed :=
    { levels := fun frames _ => frames / 16
      overflow := fun _ _ => .function
      levels_mono := fun _ fewer => Nat.div_le_div_right fewer }

end Stack
end FencedJson
