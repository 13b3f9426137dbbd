import FencedJson.Text.Reading

/-! # The words that are no JSON

`NaN`, `Infinity` and `-Infinity` name numbers that JSON cannot write. Some
writers emit them all the same, so they are recognised in order to be refused.
-/

namespace FencedJson.Json

inductive Constant where
  | nan
  | infinity
  | negativeInfinity
  deriving DecidableEq, Repr

namespace Constant

def word : Constant → String
  | nan => "NaN"
  | infinity => "Infinity"
  | negativeInfinity => "-Infinity"

def atFront? (text : List Char) : Option (Constant × List Char) :=
  [nan, infinity, negativeInfinity].findSome? fun constant =>
    (after? constant.word.toList text).map (constant, ·)

/-- What follows the closing quotation mark of a string whose opening mark has
been read. A backslash hides the next character; a line feed may not be hidden.
-/
def afterString? : List Char → Option (List Char)
  | [] => none
  | '"' :: rest => some rest
  | '\\' :: hidden :: rest => if hidden = '\n' then none else afterString? rest
  | ['\\'] => none
  | _ :: rest => afterString? rest

theorem length_afterString?_lt {text rest : List Char}
    (found : afterString? text = some rest) : rest.length < text.length := by
  fun_induction afterString? text with
  | case1 => simp at found
  | case2 text => simp_all
  | case3 => simp at found
  | case4 hidden text notBreak induction =>
      have := induction found
      simp only [List.length_cons]
      omega
  | case5 => simp at found
  | case6 head text notQuote notEscape notLast induction =>
      have := induction found
      simp only [List.length_cons]
      omega

/-- The end of `text` that begins with the first constant outside of a string. A
quotation mark that opens no string is passed over. -/
def firstIn? (text : List Char) : Option (List Char) :=
  match text with
  | [] => none
  | head :: rest =>
      if head = '"' then
        match closed : afterString? rest with
        | some following =>
            have := length_afterString?_lt closed
            firstIn? following
        | none => firstIn? rest
      else if (atFront? (head :: rest)).isSome then some (head :: rest)
      else firstIn? rest
termination_by text.length
decreasing_by
  all_goals simp_wf
  omega

/-- The offset at which a refused constant is reported: that of the first
constant outside of a string, and the front of the text when there is none. -/
def reportedOffset (text : List Char) : Nat :=
  match firstIn? text with
  | none => 0
  | some following => text.length - following.length

end Constant
end FencedJson.Json
