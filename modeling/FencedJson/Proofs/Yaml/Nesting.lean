import FencedJson.Proofs.Except
import FencedJson.Yaml.Node

/-! # What keeps tokens from a node

Apart from problems, only the depth keeps tokens from being put together to a
node, and then there are more tokens than levels.
-/

namespace FencedJson.Yaml.Document

/-- A failure that is accounted for by so many tokens with so many levels left.
-/
inductive IsNodeFailure (depth count : Nat) : Failure → Prop
  | problem (problem : Problem) : IsNodeFailure depth count (.problem problem)
  | tooDeep (more : depth < count) : IsNodeFailure depth count .tooDeep

namespace IsNodeFailure

variable {depth count more : Nat} {failure : Failure}

theorem widen (stopped : IsNodeFailure depth count failure)
    (within : count ≤ more) :
    IsNodeFailure depth more failure := by
  cases stopped with
  | problem problem => exact .problem problem
  | tooDeep above => exact .tooDeep (Nat.lt_of_lt_of_le above within)

theorem lift (stopped : IsNodeFailure depth count failure)
    (within : count < more) :
    IsNodeFailure (depth + 1) more failure := by
  cases stopped with
  | problem problem => exact .problem problem
  | tooDeep above => exact .tooDeep (Nat.lt_of_le_of_lt above within)

end IsNodeFailure

variable {document : Document} {failure : Failure}

mutual

theorem isNodeFailure_of_node {depth : Nat} {block flat : Bool}
    {tokens : List Token} (failed : document.node depth block flat tokens =
      .error failure) :
    IsNodeFailure depth tokens.length failure := by
  unfold node at failed
  generalize whole : tokens = given at failed
  split at failed
  · cases failed
    exact .problem .nodeExpected
  · cases failed
  · split at failed
    · cases failed
      exact .problem _
    · split at failed
      · next stopped =>
          cases failed
          exact isNodeFailure_of_content stopped
      · cases failed
        exact .problem .nodeExpected
      · cases failed
    · split at failed
      · next stopped =>
          cases failed
          exact (isNodeFailure_of_content stopped).widen (by simp +arith)
      · cases failed
      · cases failed
termination_by (tokens.length, 3)
decreasing_by
  all_goals
    simp only [Prod.lex_def, List.length_cons, List.length_drop,
      true_and, whole]
    omega

theorem isNodeFailure_of_content {depth : Nat} {marks : Marks}
    {block flat : Bool} {tokens : List Token}
    (failed : document.content depth marks block flat tokens = .error failure) :
    IsNodeFailure depth tokens.length failure := by
  unfold content at failed
  generalize whole : tokens = given at failed
  split at failed
  · cases failed
  · split at failed
    · cases failed
      exact .tooDeep (Nat.succ_pos _)
    · exact (isNodeFailure_of_flowItems (map_eq_error_iff.1 failed)).lift
        (Nat.lt_succ_self _)
  · split at failed
    · cases failed
      exact .tooDeep (Nat.succ_pos _)
    · exact (isNodeFailure_of_flowPairs (map_eq_error_iff.1 failed)).lift
        (Nat.lt_succ_self _)
  · split at failed
    · split at failed
      · cases failed
        exact .tooDeep (Nat.succ_pos _)
      · exact (isNodeFailure_of_blockItems (map_eq_error_iff.1 failed)).lift
          (Nat.lt_succ_self _)
    · cases failed
  · split at failed
    · split at failed
      · cases failed
        exact .tooDeep (Nat.succ_pos _)
      · exact (isNodeFailure_of_blockPairs (map_eq_error_iff.1 failed)).lift
          (Nat.lt_succ_self _)
    · cases failed
  · split at failed
    · split at failed
      · cases failed
        exact .tooDeep (Nat.succ_pos _)
      · split at failed
        · next stopped =>
            cases failed
            exact (isNodeFailure_of_indicated stopped).lift (Nat.lt_succ_self _)
        · next first _ =>
            have shorter : first.rest.length < _ + 1 := first.shorter
            exact (isNodeFailure_of_flatItems (map_eq_error_iff.1 failed)).lift
              shorter
    · cases failed
  · cases failed
termination_by (tokens.length, 2)
decreasing_by
  all_goals
    simp only [Prod.lex_def, List.length_cons, true_and, whole]
    omega

theorem isNodeFailure_of_indicated {depth : Nat} {collection : Collection}
    {indicator : Token} {rest : List Token}
    (failed : document.indicated depth collection indicator rest =
      .error failure) :
    IsNodeFailure depth rest.length failure := by
  unfold indicated at failed
  dsimp only at failed
  generalize
    (if indicator = .key then collection.keyStops else collection.valueStops) =
      stops at failed
  split at failed
  · cases failed
    exact .problem .nodeExpected
  · split at failed
    · cases failed
    · exact isNodeFailure_of_node (map_eq_error_iff.1 failed)
termination_by (rest.length + 1, 0)

theorem isNodeFailure_of_flatItems {depth : Nat} {tokens : List Token}
    (failed : document.flatItems depth tokens = .error failure) :
    IsNodeFailure depth tokens.length failure := by
  unfold flatItems at failed
  generalize whole : tokens = given at failed
  split at failed
  · split at failed
    · next stopped =>
        cases failed
        exact (isNodeFailure_of_indicated stopped).widen (Nat.le_succ _)
    · next first _ =>
        have shorter : first.rest.length < _ + 1 := first.shorter
        exact (isNodeFailure_of_flatItems (map_eq_error_iff.1 failed)).widen
          (Nat.le_of_lt shorter)
  · cases failed
termination_by (tokens.length, 1)
decreasing_by
  all_goals
    simp only [Prod.lex_def, List.length_cons, true_and, whole]
    omega

theorem isNodeFailure_of_blockItems {depth : Nat} {tokens : List Token}
    (failed : document.blockItems depth tokens = .error failure) :
    IsNodeFailure depth tokens.length failure := by
  unfold blockItems at failed
  generalize whole : tokens = given at failed
  split at failed
  · split at failed
    · next stopped =>
        cases failed
        exact (isNodeFailure_of_indicated stopped).widen (Nat.le_succ _)
    · next first _ =>
        have shorter : first.rest.length < _ + 1 := first.shorter
        exact (isNodeFailure_of_blockItems (map_eq_error_iff.1 failed)).widen
          (Nat.le_of_lt shorter)
  · cases failed
  · cases failed
    exact .problem .entryExpected
termination_by (tokens.length, 1)
decreasing_by
  all_goals
    simp only [Prod.lex_def, List.length_cons, true_and, whole]
    omega

theorem isNodeFailure_of_pair {depth : Nat} {collection : Collection}
    {tokens : List Token} (failed : document.pair depth collection tokens =
      .error failure) :
    IsNodeFailure depth tokens.length failure := by
  unfold pair at failed
  generalize whole : tokens = given at failed
  split at failed
  · split at failed
    · next stopped =>
        cases failed
        exact (isNodeFailure_of_indicated stopped).widen (Nat.le_succ _)
    · next key _ =>
        have shorter : key.rest.length < _ + 1 := key.shorter
        split at failed
        · next others found =>
            have within : others.length < key.rest.length := by simp [found]
            apply (isNodeFailure_of_indicated (map_eq_error_iff.1 failed)).widen
            simp only [List.length_cons]
            omega
        · cases failed
  · split at failed
    · cases failed
      exact .problem .entryExpected
    · exact (isNodeFailure_of_indicated (map_eq_error_iff.1 failed)).widen
        (Nat.le_succ _)
  · cases failed
    exact .problem .entryExpected
termination_by (tokens.length, 1)
decreasing_by
  all_goals
    simp only [Prod.lex_def, List.length_cons, true_and, whole]
    omega

theorem isNodeFailure_of_blockPairs {depth : Nat} {tokens : List Token}
    (failed : document.blockPairs depth tokens = .error failure) :
    IsNodeFailure depth tokens.length failure := by
  unfold blockPairs at failed
  split at failed
  · cases failed
  · split at failed
    · next stopped =>
        cases failed
        exact isNodeFailure_of_pair stopped
    · next first _ =>
        have shorter := first.shorter
        exact (isNodeFailure_of_blockPairs (map_eq_error_iff.1 failed)).widen
          (Nat.le_of_lt shorter)
termination_by (tokens.length, 2)
decreasing_by
  all_goals
    simp only [Prod.lex_def, true_and]
    omega

theorem isNodeFailure_of_flowItems {depth : Nat} {tokens : List Token}
    (failed : document.flowItems depth tokens = .error failure) :
    IsNodeFailure depth tokens.length failure := by
  unfold flowItems at failed
  split at failed
  · cases failed
  · dsimp only at failed
    split at failed
    · next stopped =>
        cases failed
        split at stopped
        · exact isNodeFailure_of_pair (map_eq_error_iff.1 stopped)
        · exact isNodeFailure_of_node stopped
    · next first _ =>
        have shorter := first.shorter
        split at failed
        · cases failed
        · next rest found =>
            have within : rest.length < first.rest.length := by simp [found]
            exact (isNodeFailure_of_flowItems (map_eq_error_iff.1 failed)).widen
              (by omega)
        · cases failed
          exact .problem .entryExpected
termination_by (tokens.length, 4)
decreasing_by
  all_goals
    simp only [Prod.lex_def, true_and]
    omega

theorem isNodeFailure_of_flowPairs {depth : Nat} {tokens : List Token}
    (failed : document.flowPairs depth tokens = .error failure) :
    IsNodeFailure depth tokens.length failure := by
  unfold flowPairs at failed
  split at failed
  · cases failed
  · dsimp only at failed
    split at failed
    · next stopped =>
        cases failed
        split at stopped
        · exact isNodeFailure_of_pair stopped
        · exact isNodeFailure_of_node (map_eq_error_iff.1 stopped)
    · next first _ =>
        have shorter := first.shorter
        split at failed
        · cases failed
        · next rest found =>
            have within : rest.length < first.rest.length := by simp [found]
            exact (isNodeFailure_of_flowPairs (map_eq_error_iff.1 failed)).widen
              (by omega)
        · cases failed
          exact .problem .entryExpected
termination_by (tokens.length, 4)
decreasing_by
  all_goals
    simp only [Prod.lex_def, true_and]
    omega

end

/-! ## Documents -/

theorem length_of_withDirectives {versioned : Bool} {declared : List String}
    {tokens rest : List Token} {found : Document}
    (read : document.withDirectives versioned declared tokens =
      .ok (found, rest)) :
    rest.length ≤ tokens.length := by
  fun_induction withDirectives document versioned declared tokens with
  | case3 _ _ _ _ _ _ _ induction =>
      exact Nat.le_trans (induction read) (Nat.le_succ _)
  | case5 _ _ _ _ _ _ _ induction =>
      exact Nat.le_trans (induction read) (Nat.le_succ _)
  | case6 _ _ _ _ induction =>
      exact Nat.le_trans (induction read) (Nat.le_succ _)
  | case7 =>
      cases read
      exact Nat.le_succ _
  | case1 | case2 | case4 | case8 => cases read

theorem isNodeFailure_of_rootFrom {levels : Nat} {tokens : List Token}
    (failed : document.rootFrom levels tokens = .error failure) :
    IsNodeFailure levels tokens.length failure := by
  unfold rootFrom at failed
  split at failed
  · next stopped =>
      cases failed
      exact isNodeFailure_of_node stopped
  · split at failed
    · cases failed
    · cases failed
      exact .problem .severalDocuments

theorem isNodeFailure_of_ofTokens {levels : Nat} {tokens : List Token}
    (failed : ofTokens levels tokens = .error failure) :
    IsNodeFailure levels tokens.length failure := by
  unfold ofTokens at failed
  extract_lets explicit at failed
  clear_value explicit
  split at failed
  · cases failed
  · split at failed
    · split at failed
      · cases failed
        exact .problem _
      · next document rest read =>
          split at failed
          case h_1 | h_2 =>
            split at failed
            · cases failed
            · cases failed
              exact .problem .severalDocuments
          case h_3 | h_4 | h_5 | h_6 =>
            cases failed
            exact .problem .severalDocuments
          case h_7 =>
            exact (isNodeFailure_of_rootFrom (map_eq_error_iff.1 failed)).widen
              (length_of_withDirectives read)
    · exact isNodeFailure_of_rootFrom (map_eq_error_iff.1 failed)

end FencedJson.Yaml.Document
