import FencedJson.Proofs.Except
import FencedJson.Yaml.Tokens

/-! # What stops the tokens of a text

Only three things keep a text from its tokens: a problem, an escape that asks
for a character past the last one, and a part of a version with too many digits.
What is left of a text is always an end of it, so such an escape and such a part
stand in the text.
-/

namespace FencedJson.Yaml

/-- A failure that is accounted for by a text. -/
inductive IsStoppedBy (text : List Char) : Failure → Prop
  | problem (problem : Problem) : IsStoppedBy text (.problem problem)
  | escape {letter : Char} {length code : Nat} {rest : List Char}
      (written : '\\' :: letter :: rest <:+ text)
      (coded : codeLength? letter = some length)
      (complete : length ≤ rest.length)
      (value : hexNumber? (rest.take length) = some code)
      (past : 0x110000 ≤ code) :
      IsStoppedBy text (.codeTooLarge (0x80000000 ≤ code))
  | version {digits rest : List Char} (written : digits ++ rest <:+ text)
      (plain : digits.all isDigit) (long : integerDigitLimit < digits.length) :
      IsStoppedBy text (.unreadable (integerDigitMessage digits.length))

theorem IsStoppedBy.widen {text inner : List Char} {failure : Failure}
    (stopped : IsStoppedBy inner failure) (within : inner <:+ text) :
    IsStoppedBy text failure := by
  cases stopped with
  | problem problem => exact .problem problem
  | escape written coded complete value past =>
      exact .escape (written.trans within) coded complete value past
  | version written plain long =>
      exact .version (written.trans within) plain long

/-! ## Quoted scalars -/

def ReadsWithin {α : Type} {front : List Char} (text : List Char) :
    Except Failure (Reading α front) → Prop
  | .ok read => read.rest <:+ text
  | .error failure => IsStoppedBy text failure

namespace ReadsWithin

variable {α β : Type} {front other text inner : List Char}
  {outcome : Except Failure (Reading α front)}

theorem widen (reads : ReadsWithin inner outcome) (within : inner <:+ text) :
    ReadsWithin text outcome := by
  cases outcome with
  | error failure => exact IsStoppedBy.widen reads within
  | ok read => exact List.IsSuffix.trans reads within

theorem map {transform : Reading α front → Reading β other}
    (reads : ReadsWithin text outcome)
    (same : ∀ read, (transform read).rest = read.rest) :
    ReadsWithin text (outcome.map transform) := by
  cases outcome with
  | error failure => exact reads
  | ok read =>
      change (transform read).rest <:+ text
      rw [same]
      exact reads

end ReadsWithin

private theorem isSuffix_interval (blank : Char → Bool) (column : Nat)
    (text : List Char) :
    (interval blank column text).rest <:+ text := by
  fun_induction interval with
  | case1 => exact List.suffix_refl []
  | case2 => exact List.suffix_refl _
  | case3 column c rest _ _ induction =>
      exact induction.trans (List.suffix_cons c rest)
  | case4 column c rest _ _ _ found induction =>
      exact induction.trans (List.suffix_cons c rest)
  | case5 => exact List.suffix_refl _

theorem readsWithin_lineBreak (escaped : Bool) (first : Char)
    (rest : List Char) :
    ReadsWithin (first :: rest) (lineBreak escaped first rest) := by
  unfold lineBreak
  dsimp only
  split
  · exact .problem .separatorInQuotes
  · exact (isSuffix_interval isBlank 0 rest).trans (List.suffix_cons first rest)

private theorem isStoppedBy_of_codeEscape {letter : Char} {length : Nat}
    {rest : List Char} {failure : Failure}
    (coded : codeLength? letter = some length)
    (failed : codeEscape length rest = .error failure) :
    IsStoppedBy ('\\' :: letter :: rest) failure := by
  unfold codeEscape at failed
  split at failed
  · cases failed
    exact .problem .badEscape
  · next code value =>
      split at failed
      · cases failed
        exact .problem .badEscape
      · next complete =>
          unfold characterOfCode at failed
          split at failed
          · next past =>
              cases failed
              exact .escape (List.suffix_refl _) coded
                (Nat.le_of_not_lt complete) value past
          · split at failed <;> simp at failed

theorem readsWithin_escape (text : List Char) :
    ReadsWithin ('\\' :: text) (escape text) := by
  unfold escape
  split
  · exact .problem .badEscape
  · next c rest =>
      have within : c :: rest <:+ '\\' :: c :: rest := List.suffix_cons _ _
      split
      · exact (List.suffix_cons c rest).trans within
      · next length _ coded =>
          cases outcome : codeEscape length rest with
          | error failure => exact isStoppedBy_of_codeEscape coded outcome
          | ok value =>
              exact (List.drop_suffix length rest).trans
                ((List.suffix_cons c rest).trans within)
      · split
        · exact (readsWithin_lineBreak true c rest).widen within
        · exact .problem .badEscape

theorem readsWithin_blanks (c : Char) (rest : List Char) :
    ReadsWithin (c :: rest) (blanks c rest) := by
  unfold blanks
  split
  · exact .problem .unclosedQuote
  · next next after found =>
      have within : next :: after <:+ c :: rest :=
        found ▸ (List.dropWhile_suffix isBlank).trans (List.suffix_cons c rest)
      split
      · exact ((readsWithin_lineBreak false next after).widen within).map
          fun _ => rfl
      · exact within

/-- Reading leaves an end of a text, unless there was nothing to read, or is
stopped by the text. -/
def ReadsPartWithin {α : Type} {front : List Char} (text : List Char) :
    Except Failure (Option (Reading α front)) → Prop
  | .ok none => True
  | .ok (some read) => read.rest <:+ text
  | .error failure => IsStoppedBy text failure

theorem ReadsWithin.part {α β : Type} {front other text : List Char}
    {outcome : Except Failure (Reading α front)}
    {transform : Reading α front → Reading β other}
    (reads : ReadsWithin text outcome)
    (same : ∀ read, (transform read).rest = read.rest) :
    ReadsPartWithin text (outcome.map fun read => some (transform read)) := by
  cases outcome with
  | error failure => exact reads
  | ok read =>
      change (transform read).rest <:+ text
      rw [same]
      exact reads

theorem readsPartWithin_quotedPart (double : Bool) (text : List Char) :
    ReadsPartWithin text (quotedPart double text) := by
  unfold quotedPart
  split
  · exact .problem .unclosedQuote
  · next rest =>
      cases double with
      | true => exact List.suffix_cons _ _
      | false => exact (List.suffix_cons _ rest).trans (List.suffix_cons _ _)
  · next c rest _ =>
      generalize (if double then '"' else '\'') = mark
      split
      · trivial
      · split
        · next escaped =>
            have isBackslash : c = '\\' :=
              of_decide_eq_true (Bool.and_eq_true_iff.1 escaped).2
            subst isBackslash
            exact (readsWithin_escape rest).part fun _ => rfl
        · split
          · exact (readsWithin_blanks c rest).part fun _ => rfl
          · split
            · exact (readsWithin_lineBreak false c rest).part fun _ => rfl
            · exact List.suffix_cons c rest

theorem isStoppedBy_of_quotedBody {double : Bool} {text : List Char}
    {failure : Failure} (failed : quotedBody double text = .error failure) :
    IsStoppedBy text failure := by
  fun_induction quotedBody double text with
  | case1 text stop found =>
      have reads := readsPartWithin_quotedPart double text
      rw [found] at reads
      cases failed
      exact reads
  | case2 =>
      cases failed
      exact .problem .unclosedQuote
  | case3 => cases failed
  | case4 text part found _ induction =>
      have reads := readsPartWithin_quotedPart double text
      rw [found] at reads
      exact (induction (map_eq_error_iff.1 failed)).widen reads

/-! ## Directives -/

private theorem suffix_of_versionPart {text rest : List Char} {part : Nat}
    (read : versionPart text = .ok (part, rest)) : rest <:+ text := by
  unfold versionPart at read
  split at read
  · cases read
  · split at read
    · cases read
    · cases read
      exact List.dropWhile_suffix isDigit

theorem isStoppedBy_of_versionPart {text : List Char} {failure : Failure}
    (failed : versionPart text = .error failure) :
    IsStoppedBy text failure := by
  unfold versionPart at failed
  split at failed
  · cases failed
    exact .problem .badDirective
  · split at failed
    · next long =>
        cases failed
        have rejoined : text.takeWhile isDigit ++
            text.dropWhile isDigit = text :=
          List.takeWhile_append_dropWhile
        exact .version ⟨[], rejoined⟩ List.all_takeWhile long
    · cases failed

private theorem isStoppedBy_of_versionDirective {text : List Char}
    {failure : Failure} (failed : versionDirective text = .error failure) :
    IsStoppedBy text failure := by
  unfold versionDirective at failed
  split at failed
  · next stopped =>
      cases failed
      exact isStoppedBy_of_versionPart stopped
  · next major rest read =>
      have within : rest <:+ text :=
        (List.suffix_cons '.' rest).trans (suffix_of_versionPart read)
      split at failed
      · next stopped =>
          cases failed
          exact (isStoppedBy_of_versionPart stopped).widen within
      · split at failed
        · cases failed
        · cases failed
          exact .problem .badDirective
  · cases failed
    exact .problem .badDirective

theorem isStoppedBy_of_readDirective {version : Version} {text : List Char}
    {failure : Failure} (failed : readDirective version text = .error failure) :
    IsStoppedBy text failure := by
  unfold readDirective at failed
  dsimp only at failed
  split at failed
  · cases failed
    exact .problem .badDirective
  · split at failed
    · next stopped =>
        cases failed
        split at stopped
        · exact (isStoppedBy_of_versionDirective stopped).widen
            ((List.dropWhile_suffix _).trans (List.dropWhile_suffix _))
        · split at stopped
          · rcases mapError_eq_error_iff.1 stopped with ⟨problem, -, rfl⟩
            exact .problem problem
          · cases stopped
    · split at failed
      · cases failed
      · cases failed
        exact .problem .badDirective

/-! ## Tokens -/

theorem isStoppedBy_of_blockScalar {folded : Bool} {least : Nat}
    {text whole : List Char} {failure : Failure}
    (failed : blockScalar folded least text = .error failure) :
    IsStoppedBy whole failure := by
  unfold blockScalar at failed
  split at failed
  · cases failed
    exact .problem _
  · split at failed
    · simp at failed
    · dsimp only at failed
      split at failed
      · cases failed
        exact .problem .badIndentation
      · simp at failed

theorem Cursor.isSuffix_skip (count : Nat) (cursor : Cursor) :
    (cursor.skip count).rest <:+ cursor.rest := by
  rw [rest_skip]
  exact List.drop_suffix count cursor.rest

namespace Scan

variable {scan next : Scan}

def GoesOn (scan : Scan) : Except Failure Scan → Prop
  | .ok next => next.cursor.rest <:+ scan.cursor.rest
  | .error failure => IsStoppedBy scan.cursor.rest failure

theorem goesOn_mapError {result : Except Problem Scan}
    (further : ∀ next, result = .ok next →
      next.cursor.rest <:+ scan.cursor.rest) :
    scan.GoesOn (result.mapError .problem) := by
  cases result with
  | error problem => exact .problem problem
  | ok next => exact further next rfl

/-! ### What leaves the cursor where it is -/

theorem cursor_of_refresh (found : scan.refresh = .ok next) :
    next.cursor = scan.cursor := by
  unfold refresh at found
  split at found
  · rw [← Except.ok.inj found]
  · simp at found
  · simp at found

theorem cursor_of_dropCandidate (found : scan.dropCandidate = .ok next) :
    next.cursor = scan.cursor := by
  rcases map_eq_ok_iff.1 found with ⟨candidate, -, rfl⟩
  rfl

theorem cursor_of_addCandidate (found : scan.addCandidate = .ok next) :
    next.cursor = scan.cursor := by
  unfold addCandidate at found
  split at found
  · rcases map_eq_ok_iff.1 found with ⟨candidate, -, rfl⟩
    rfl
  · rw [← Except.ok.inj found]

theorem cursor_unwind (scan : Scan) (column : Int) :
    (scan.unwind column).cursor = scan.cursor := by
  unfold unwind
  split <;> rfl

theorem cursor_openBlock (scan : Scan) (column index : Nat) (start : Token) :
    (scan.openBlock column index start).cursor = scan.cursor := by
  unfold openBlock
  split <;> rfl

/-! ### What goes on -/

theorem isSuffix_take (scan : Scan) (count : Nat) (token : Token)
    (keyAllowed : Bool) :
    (scan.take count token keyAllowed).cursor.rest <:+ scan.cursor.rest :=
  Cursor.isSuffix_skip count scan.cursor

theorem isSuffix_of_take_dropCandidate {count : Nat} {token : Token}
    {keyAllowed : Bool}
    (found :
      (scan.dropCandidate.map fun scan => scan.take count token keyAllowed) =
        .ok next) :
    next.cursor.rest <:+ scan.cursor.rest := by
  rcases map_eq_ok_iff.1 found with ⟨dropped, kept, rfl⟩
  rw [← cursor_of_dropCandidate kept]
  exact isSuffix_take dropped count token keyAllowed

theorem isSuffix_of_documentMark {token : Token}
    (found : scan.documentMark token = .ok next) :
    next.cursor.rest <:+ scan.cursor.rest :=
  cursor_unwind scan (-1) ▸ isSuffix_of_take_dropCandidate found

theorem goesOn_directive {rest : List Char}
    (within : rest <:+ scan.cursor.rest) :
    scan.GoesOn (scan.directive rest) := by
  unfold directive
  split
  · next dropped token after kept _ =>
      change (dropped.cursor.goto after).rest <:+ scan.cursor.rest
      rw [← cursor_unwind scan (-1), ← cursor_of_dropCandidate kept]
      exact Cursor.isSuffix_skip _ _
  · exact .problem _
  · next stopped _ => exact (isStoppedBy_of_readDirective stopped).widen within

theorem isSuffix_of_openBracket {opening : Char} {token : Token}
    (found : scan.openBracket opening token = .ok next) :
    next.cursor.rest <:+ scan.cursor.rest := by
  rcases map_eq_ok_iff.1 found with ⟨added, kept, rfl⟩
  rw [← cursor_of_addCandidate kept]
  exact Cursor.isSuffix_skip 1 _

theorem isSuffix_of_closeBracket {token : Token}
    (found : scan.closeBracket token = .ok next) :
    next.cursor.rest <:+ scan.cursor.rest := by
  rcases map_eq_ok_iff.1 found with ⟨dropped, kept, rfl⟩
  rw [← cursor_of_dropCandidate kept]
  dsimp only
  split <;> exact Cursor.isSuffix_skip 1 _

theorem isSuffix_of_marked {problem : Problem} {start token : Token}
    {keyAllowed : Bool}
    (found : scan.marked problem start token keyAllowed = .ok next) :
    next.cursor.rest <:+ scan.cursor.rest := by
  unfold marked at found
  split at found
  · simp at found
  · exact cursor_openBlock scan _ _ start ▸ isSuffix_of_take_dropCandidate found

theorem isSuffix_of_value (found : scan.value = .ok next) :
    next.cursor.rest <:+ scan.cursor.rest := by
  unfold value at found
  split at found
  · cases found
    refine (isSuffix_take _ 1 .value false).trans ?_
    rw [cursor_openBlock]
    exact List.suffix_refl _
  · exact isSuffix_of_marked found

theorem goesOn_node {read : Except Failure (Token × List Char)}
    (stopped : ∀ failure, read = .error failure →
      IsStoppedBy scan.cursor.rest failure) :
    scan.GoesOn (scan.node read) := by
  unfold node
  split
  · next added token rest kept =>
      change (added.cursor.goto rest).rest <:+ scan.cursor.rest
      rw [← cursor_of_addCandidate kept]
      exact Cursor.isSuffix_skip _ _
  · exact .problem _
  · exact stopped _ rfl

theorem goesOn_blockText (folded : Bool) (rest : List Char) :
    scan.GoesOn (scan.blockText folded rest) := by
  unfold blockText
  split
  · next dropped text rest kept _ =>
      change (dropped.cursor.goto rest).rest <:+ scan.cursor.rest
      rw [← cursor_of_dropCandidate kept]
      exact Cursor.isSuffix_skip _ _
  · exact .problem _
  · next failed _ => exact isStoppedBy_of_blockScalar failed

theorem goesOn_quotedText (double : Bool) {rest : List Char}
    (within : rest <:+ scan.cursor.rest) :
    scan.GoesOn (scan.quotedText double rest) :=
  goesOn_node fun _ failed =>
    (isStoppedBy_of_quotedBody (map_eq_error_iff.1 failed)).widen within

theorem goesOn_plainText : scan.GoesOn scan.plainText := by
  unfold plainText
  dsimp only
  generalize readPlain scan.plainContext scan.cursor.rest = read
  have goes :
      scan.GoesOn (scan.node (.ok (.scalar true read.value, read.rest))) :=
    goesOn_node (by simp)
  cases outcome : scan.node (.ok (.scalar true read.value, read.rest)) <;>
    rw [outcome] at goes
  · exact goes
  · exact goes

theorem goesOn_nameToken (make : String → Token) (rest : List Char) :
    scan.GoesOn (scan.node (nameToken make rest)) := by
  apply goesOn_node
  intro failure failed
  unfold nameToken at failed
  split at failed
  · simp at failed
  · cases failed
    exact .problem _

private theorem goesOn_tagToken (version : Version) (rest : List Char) :
    scan.GoesOn (scan.node (tagToken version rest)) := by
  apply goesOn_node
  intro failure failed
  unfold tagToken at failed
  split at failed
  · simp at failed
  · cases failed
    exact .problem _

theorem goesOn_ite {condition : Prop} [Decidable condition]
    {first second : Except Failure Scan} (goes : scan.GoesOn first)
    (otherwise : scan.GoesOn second) :
    scan.GoesOn (if condition then first else second) := by
  split
  · exact goes
  · exact otherwise

private theorem goesOn_token (pending : Bool) {c : Char} {rest : List Char}
    (here : scan.cursor.rest = c :: rest) :
    scan.GoesOn (scan.token pending c rest) := by
  have within : rest <:+ scan.cursor.rest := here ▸ List.suffix_cons c rest
  unfold token
  refine goesOn_ite (goesOn_directive within) ?_
  refine goesOn_ite (goesOn_mapError fun _ => isSuffix_of_documentMark) ?_
  refine goesOn_ite (goesOn_mapError fun _ => isSuffix_of_documentMark) ?_
  refine goesOn_ite (goesOn_mapError fun _ => isSuffix_of_openBracket) ?_
  refine goesOn_ite (goesOn_mapError fun _ => isSuffix_of_openBracket) ?_
  refine goesOn_ite (goesOn_mapError fun _ => isSuffix_of_closeBracket) ?_
  refine goesOn_ite (goesOn_mapError fun _ => isSuffix_of_closeBracket) ?_
  refine goesOn_ite (goesOn_mapError fun _ => isSuffix_of_take_dropCandidate) ?_
  refine goesOn_ite (goesOn_mapError fun _ => isSuffix_of_marked) ?_
  refine goesOn_ite (goesOn_mapError fun _ => isSuffix_of_marked) ?_
  refine goesOn_ite (goesOn_mapError fun _ => isSuffix_of_value) ?_
  refine goesOn_ite (goesOn_nameToken .alias rest) ?_
  refine goesOn_ite (goesOn_nameToken .anchor rest) ?_
  refine goesOn_ite (goesOn_tagToken scan.version rest) ?_
  refine goesOn_ite (goesOn_blockText false rest) ?_
  refine goesOn_ite (goesOn_blockText true rest) ?_
  refine goesOn_ite (goesOn_quotedText false within) ?_
  refine goesOn_ite (goesOn_quotedText true within) ?_
  exact goesOn_ite goesOn_plainText (.problem .badCharacter)

theorem isStoppedBy_of_finish {text : List Char} {failure : Failure}
    (failed : scan.finish = .error failure) : IsStoppedBy text failure := by
  unfold finish at failed
  split at failed
  · simp at failed
  · cases failed
    exact .problem _

private theorem isSuffix_toNextToken (scan : Scan) :
    scan.toNextToken.cursor.rest <:+ scan.cursor.rest :=
  Cursor.isSuffix_skip _ scan.cursor

theorem GoesOn.widen {result : Except Failure Scan} (goes : next.GoesOn result)
    (within : next.cursor.rest <:+ scan.cursor.rest) : scan.GoesOn result := by
  cases result with
  | error failure => exact IsStoppedBy.widen goes within
  | ok last => exact List.IsSuffix.trans goes within

theorem goesOn_step {before here : Scan} (pending : Bool) {c : Char}
    {rest : List Char} (kept : scan.refresh = .ok before)
    (passed : before.toNextToken.refresh = .ok here)
    (found : here.cursor.rest = c :: rest) :
    scan.GoesOn ((here.unwind here.cursor.column).token pending c rest) := by
  have unwound := cursor_unwind here here.cursor.column
  apply (goesOn_token pending
    ((congrArg Cursor.rest unwound).trans found)).widen
  rw [unwound, cursor_of_refresh passed, ← cursor_of_refresh kept]
  exact isSuffix_toNextToken before

private theorem isStoppedBy_of_toEnd {failure : Failure}
    (failed : scan.toEnd = .error failure) :
    IsStoppedBy scan.cursor.rest failure := by
  fun_induction toEnd scan with
  | case1 =>
      cases failed
      exact .problem _
  | case2 =>
      cases failed
      exact .problem _
  | case3 => exact isStoppedBy_of_finish failed
  | case4 scan before kept here passed c rest found stop stopped =>
      cases failed
      have goes := goesOn_step before.hasCandidate kept passed found
      rw [stopped] at goes
      exact goes
  | case5 scan before kept here passed c rest found next taken _ induction =>
      have goes := goesOn_step before.hasCandidate kept passed found
      rw [taken] at goes
      exact (induction failed).widen goes
  | case6 => exact isStoppedBy_of_finish failed

private theorem isSuffix_start (text : List Char) :
    (start text).cursor.rest <:+ text := by
  unfold start Cursor.start
  dsimp only
  split
  · exact List.suffix_cons _ _
  · exact List.suffix_refl _

end Scan

theorem isStoppedBy_of_tokens {text : List Char} {failure : Failure}
    (failed : tokens text = .error failure) : IsStoppedBy text failure := by
  unfold tokens at failed
  split at failed
  · exact (Scan.isStoppedBy_of_toEnd failed).widen (Scan.isSuffix_start text)
  · cases failed
    exact .problem .unprintable

end FencedJson.Yaml
