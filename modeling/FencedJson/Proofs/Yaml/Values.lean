import FencedJson.Proofs.Yaml.Escapes
import FencedJson.Proofs.Yaml.Nesting
import FencedJson.Yaml.Load

/-! # What keeps a text from a datum

A text has a datum unless there is a problem with it, or one of five other
things stands in its way: an escape past the last character, a version with too
many digits, too deep a nesting, a version without rules, or a part that cannot
be converted as its tag or its place asks for.
-/

namespace FencedJson.Yaml

def Failure.isProblem : Failure → Bool
  | problem _ => true
  | _ => false

namespace Tree

def ofBoth (entries : List (Tree × Tree)) : List Tree :=
  entries.flatMap fun (key, value) => [key, value]

def children : Tree → List Tree
  | scalar _ _ => []
  | sequence _ items => items
  | mapping _ entries => ofBoth entries

inductive IsPartOf : Tree → Tree → Prop
  | refl (tree : Tree) : IsPartOf tree tree
  | child {part inner tree : Tree} (member : inner ∈ tree.children)
      (within : IsPartOf part inner) : IsPartOf part tree

def convertedTags : List Tag := [.boolean, .integer, .double, .timestamp]

def RepeatsKey (version : Version) (items : List Tree) : Prop :=
  ∃ (tag tag' : Tag) (entry entry' : Tree × Tree) (key key' : Datum),
    [mapping tag [entry], mapping tag' [entry']].Sublist items ∧
      entry.1.datum version = .ok key ∧ entry'.1.datum version = .ok key' ∧
      sameKey key key'

/-- A tree that cannot be converted as its tag asks for, or as a key. -/
inductive IsUnfit (version : Version) : Tree → Failure → Prop
  | scalar {tree : Tree} {text : List Char} {failure : Failure}
      (tagged : tree.tag ∈ convertedTags) (written : tree.scalarText = .ok text)
      (failed : Scalar.datum version tree.tag text = .error failure)
      (foreign : failure.isProblem = false) : IsUnfit version tree failure
  | key {tree : Tree} {datum : Datum} {kind : String}
      (made : tree.datum version = .ok datum)
      (held : unhashable? datum = some kind) :
      IsUnfit version tree (.unhashable kind)
  | sequenceKey {tree : Tree} {items : List Datum} {kind : String}
      (made : tree.datum version = .ok (.sequence items))
      (held : firstUnhashable? items = some kind) :
      IsUnfit version tree (.unhashable kind)
  | entries {items : List Tree} (repeated : RepeatsKey version items) :
      IsUnfit version (sequence .orderedMapping items) .repeatedEntry

/-- A failure that is accounted for by some trees. -/
inductive IsDatumFailure (version : Version) (trees : List Tree) :
    Failure → Prop
  | problem (problem : Problem) :
      IsDatumFailure version trees (.problem problem)
  | part {part tree : Tree} {failure : Failure} (member : tree ∈ trees)
      (within : part.IsPartOf tree) (unfit : part.IsUnfit version failure) :
      IsDatumFailure version trees failure

namespace IsDatumFailure

variable {version : Version} {trees more : List Tree} {tree : Tree}
  {failure : Failure}

theorem widen (stopped : IsDatumFailure version trees failure)
    (subset : trees ⊆ more) :
    IsDatumFailure version more failure := by
  cases stopped with
  | problem problem => exact .problem problem
  | part member within unfit => exact .part (subset member) within unfit

theorem of_children (stopped : IsDatumFailure version tree.children failure) :
    IsDatumFailure version [tree] failure := by
  cases stopped with
  | problem problem => exact .problem problem
  | part member within unfit =>
      exact .part (List.mem_singleton_self tree) (.child member within) unfit

end IsDatumFailure

variable {version : Version} {failure : Failure}

theorem mem_convertedTags_of_datum {tag : Tag} {text : List Char}
    (failed : Scalar.datum version tag text = .error failure)
    (foreign : failure.isProblem = false) : tag ∈ convertedTags := by
  cases tag with
  | boolean | integer | double | timestamp => simp [convertedTags]
  | null | text => cases failed
  | binary =>
      simp only [Scalar.datum, Scalar.binary] at failed
      split at failed
      · split at failed
        · cases failed
        · cases failed
          cases foreign
      · cases failed
        cases foreign
  | merge | value | unknown | sequence | mapping | set |
      orderedMapping | pairs =>
      cases failed
      cases foreign

theorem IsDatumFailure.of_isProblem {trees : List Tree}
    (isProblem : failure.isProblem = true) :
    IsDatumFailure version trees failure := by
  cases failure with
  | problem problem => exact .problem problem
  | _ => cases isProblem

theorem eq_unhashable_of_hashed {datum : Datum}
    (failed : hashed datum = .error failure) :
    ∃ kind, unhashable? datum = some kind ∧ failure = .unhashable kind := by
  unfold hashed at failed
  split at failed
  · next kind held =>
      cases failed
      exact ⟨kind, held, rfl⟩
  · cases failed

theorem isDatumFailure_of_hashed {tree : Tree} {datum : Datum}
    (made : tree.datum version = .ok datum)
    (failed : hashed datum = .error failure) :
    IsDatumFailure version [tree] failure := by
  rcases eq_unhashable_of_hashed failed with ⟨kind, held, rfl⟩
  exact .part (List.mem_singleton_self tree) (.refl tree) (.key made held)

theorem datum_of_hashes {tree : Tree} {datum : Datum}
    (hashes : (tree.datum version).bind hashed = .ok datum) :
    tree.datum version = .ok datum := by
  cases made : tree.datum version with
  | error failure =>
      rw [made] at hashes
      cases hashes
  | ok found =>
      rw [made, Except.bind, hashed] at hashes
      split at hashes
      · cases hashes
      · rw [hashes]

theorem isDatumFailure_of_keyOf {tree : Tree} {datum : Datum}
    (made : tree.datum version = .ok datum)
    (failed : keyOf datum = .error failure) :
    IsDatumFailure version [tree] failure := by
  unfold keyOf at failed
  split at failed
  · next items =>
      rcases eq_unhashable_of_hashed failed with ⟨kind, held, rfl⟩
      rw [unhashable?] at held
      exact .part (List.mem_singleton_self tree) (.refl tree)
        (.sequenceKey made held)
  · cases failed
    exact .problem .compoundKey
  · cases failed
    exact .problem .compoundKey
  · cases failed
    exact .problem .compoundKey
  · exact isDatumFailure_of_hashed made failed

theorem RepeatsKey.of_mem {earlier rest : List Tree} {tag tag' : Tag}
    {entry entry' : Tree × Tree} {key key' : Datum}
    (member : mapping tag [entry] ∈ earlier)
    (made : entry.1.datum version = .ok key)
    (made' : entry'.1.datum version = .ok key') (same : sameKey key key') :
    RepeatsKey version (earlier ++ mapping tag' [entry'] :: rest) := by
  have later : [mapping tag' [entry']].Sublist
      (mapping tag' [entry'] :: rest) :=
    List.singleton_sublist.2 (List.mem_cons_self ..)
  exact ⟨tag, tag', entry, entry', key, key',
    (List.singleton_sublist.2 member).append later, made, made', same⟩

theorem isProblem_of_distinct {merging : Bool} {entries : List (Datum × Datum)}
    (failed : distinct merging entries = .error failure) :
    failure.isProblem := by
  unfold distinct at failed
  generalize [] = done at failed
  induction entries generalizing done with
  | nil => cases failed
  | cons entry rest induction =>
      rw [List.foldlM_cons] at failed
      rcases bind_eq_error_iff.1 failed with failed | ⟨next, -, failed⟩
      · dsimp only at failed
        split at failed
        · cases failed
          rfl
        · cases failed
      · exact induction _ failed

mutual

theorem isDatumFailure_of_datum {tree : Tree}
    (failed : tree.datum version = .error failure) :
    IsDatumFailure version [tree] failure := by
  unfold datum at failed
  generalize whole : tree = given at failed
  split at failed
  · have stopped := isDatumFailure_of_dataOf (map_eq_error_iff.1 failed)
    exact .of_children stopped
  · have none : ∀ made ∈ ([] : List (Datum × Datum)), ∃ tag entry,
        mapping tag [entry] ∈ ([] : List Tree) ∧
        entry.1.datum version = .ok made.1 := by simp
    rcases isDatumFailure_of_orderedEntries none
      (map_eq_error_iff.1 failed) with stopped | ⟨rfl, repeated⟩
    · exact .of_children stopped
    · exact .part (List.mem_singleton_self _) (.refl _) (.entries repeated)
  · have stopped := isDatumFailure_of_singles (map_eq_error_iff.1 failed)
    exact .of_children stopped
  · rcases bind_eq_error_iff.1 (map_eq_error_iff.1 failed) with
      failed | ⟨contents, -, failed⟩
    · have stopped := isDatumFailure_of_contents failed
      exact .of_children stopped
    · exact .of_isProblem (isProblem_of_distinct failed)
  · rcases bind_eq_error_iff.1 (map_eq_error_iff.1 failed) with
      failed | ⟨contents, -, failed⟩
    · have stopped := isDatumFailure_of_contents failed
      exact .of_children stopped
    · exact .of_isProblem (isProblem_of_distinct failed)
  · subst whole
    split at failed
    · cases failed
      exact .problem .unknownTag
    · next written _ =>
        cases foreign : failure.isProblem with
        | true => exact .of_isProblem foreign
        | false =>
            exact .part (List.mem_singleton_self tree) (.refl tree)
              (.scalar (mem_convertedTags_of_datum failed foreign) written
                failed foreign)
    · cases failed
      exact .problem _
termination_by sizeOf tree
decreasing_by
  all_goals
    simp only [whole, sequence.sizeOf_spec, mapping.sizeOf_spec]
    omega

theorem isDatumFailure_of_dataOf {items : List Tree}
    (failed : dataOf version items = .error failure) :
    IsDatumFailure version items failure := by
  unfold dataOf at failed
  generalize whole : items = given at failed
  split at failed
  · cases failed
  · next item rest =>
      split at failed
      · cases failed
      · next stopped =>
          cases failed
          exact (isDatumFailure_of_datum stopped).widen (by simp)
      · next stopped _ =>
          cases failed
          exact (isDatumFailure_of_dataOf stopped).widen
            (List.subset_cons_self item rest)
termination_by sizeOf items
decreasing_by
  all_goals
    simp only [whole, List.cons.sizeOf_spec]
    omega

theorem isDatumFailure_of_keyDatum {tree : Tree}
    (failed : keyDatum version tree = .error failure) :
    IsDatumFailure version [tree] failure := by
  unfold keyDatum at failed
  split at failed
  · cases failed
  · rcases bind_eq_error_iff.1 failed with stopped | ⟨value, made, stopped⟩
    · exact isDatumFailure_of_datum stopped
    · exact isDatumFailure_of_keyOf made stopped
termination_by sizeOf tree + 1

theorem isDatumFailure_of_singles {items : List Tree}
    (failed : singles version items = .error failure) :
    IsDatumFailure version items failure := by
  unfold singles at failed
  generalize whole : items = given at failed
  split at failed
  · cases failed
  · next tag key value rest =>
      have inFront : [mapping tag [(key, value)]] ⊆ mapping tag
          [(key, value)] :: rest := by simp
      split at failed
      · cases failed
      · next stopped =>
          cases failed
          have account := (isDatumFailure_of_datum stopped).widen
            (show [key] ⊆
              (mapping tag [(key, value)]).children by simp [children, ofBoth])
          exact account.of_children.widen inFront
      · next stopped _ =>
          cases failed
          have account := (isDatumFailure_of_datum stopped).widen
            (show [value] ⊆
              (mapping tag [(key, value)]).children by simp [children, ofBoth])
          exact account.of_children.widen inFront
      · next stopped _ _ =>
          cases failed
          exact (isDatumFailure_of_singles stopped).widen
            (List.subset_cons_self _ rest)
  · cases failed
    exact .problem .badShape
termination_by sizeOf items
decreasing_by
  all_goals
    simp only [whole, List.cons.sizeOf_spec, mapping.sizeOf_spec,
      Prod.mk.sizeOf_spec]
    omega

theorem isDatumFailure_of_orderedEntries {done : List (Datum × Datum)}
    {earlier items : List Tree}
    (entered : ∀ made ∈ done, ∃ tag entry, mapping tag [entry] ∈ earlier ∧
      entry.1.datum version = .ok made.1)
    (failed : orderedEntries version done items = .error failure) :
    IsDatumFailure version items failure ∨
      failure = .repeatedEntry ∧ RepeatsKey version (earlier ++ items) := by
  unfold orderedEntries at failed
  generalize whole : items = given at failed
  split at failed
  · cases failed
  · next tag key value rest =>
      have inFront : [mapping tag [(key, value)]] ⊆ mapping tag
          [(key, value)] :: rest := by simp
      have ofKey (stopped : IsDatumFailure version [key] failure) :
          IsDatumFailure version
            (mapping tag [(key, value)] :: rest) failure := by
        have account := stopped.widen
          (show [key] ⊆
            (mapping tag [(key, value)]).children by simp [children, ofBoth])
        exact account.of_children.widen inFront
      split at failed
      · next stopped =>
          cases failed
          rcases bind_eq_error_iff.1 stopped with
            stopped | ⟨datum, made, stopped⟩
          · exact .inl (ofKey (isDatumFailure_of_datum stopped))
          · exact .inl (ofKey (isDatumFailure_of_hashed made stopped))
      · next name hashes =>
          have made : key.datum version = .ok name := datum_of_hashes hashes
          split at failed
          · next found =>
              cases failed
              rcases List.any_eq_true.1 found with ⟨old, member, same⟩
              rcases entered old member with ⟨tag', entry, among, made'⟩
              exact .inr ⟨rfl, .of_mem among made' made same⟩
          · split at failed
            · next stopped =>
                cases failed
                have account := (isDatumFailure_of_datum stopped).widen
                  (show [value] ⊆
                    (mapping tag [(key, value)]).children by
                      simp [children, ofBoth])
                exact .inl (account.of_children.widen inFront)
            · next other _ =>
                have further : ∀ made ∈ done ++ [(name, other)], ∃ tag' entry,
                    mapping tag' [entry] ∈ earlier ++
                      [mapping tag [(key, value)]] ∧
                      entry.1.datum version = .ok made.1 := by
                  intro entry member
                  rcases List.mem_append.1 member with member | member
                  · rcases entered entry member with
                      ⟨tag', entry', among, made'⟩
                    exact ⟨tag', entry', List.mem_append_left _ among, made'⟩
                  · rw [List.mem_singleton.1 member]
                    exact ⟨tag, (key, value), by simp, made⟩
                rcases isDatumFailure_of_orderedEntries further failed with
                  stopped | ⟨rfl, repeated⟩
                · exact .inl (stopped.widen (List.subset_cons_self _ rest))
                · rw [List.append_assoc] at repeated
                  exact .inr ⟨rfl, repeated⟩
  · cases failed
    exact .inl (.problem .badShape)
termination_by sizeOf items
decreasing_by
  all_goals
    simp only [whole, List.cons.sizeOf_spec, mapping.sizeOf_spec,
      Prod.mk.sizeOf_spec]
    omega

theorem isDatumFailure_of_contents {before : Contents}
    {entries : List (Tree × Tree)}
    (failed : contents version before entries = .error failure) :
    IsDatumFailure version (ofBoth entries) failure := by
  unfold contents at failed
  generalize whole : entries = given at failed
  split at failed
  · cases failed
  · next key value rest =>
      have others : ofBoth rest ⊆ ofBoth ((key, value) :: rest) := by
        simp [ofBoth]
      split at failed
      · split at failed
        · split at failed
          · exact (isDatumFailure_of_contents failed).widen others
          · next stopped =>
              cases failed
              exact (isDatumFailure_of_contribution stopped).widen
                (by simp [ofBoth])
        · cases failed
          exact .problem .repeatedKey
      · split at failed
        · exact (isDatumFailure_of_contents failed).widen others
        · next stopped =>
            cases failed
            exact (isDatumFailure_of_keyDatum stopped).widen (by simp [ofBoth])
        · next stopped _ =>
            cases failed
            exact (isDatumFailure_of_datum stopped).widen (by simp [ofBoth])
termination_by sizeOf entries
decreasing_by
  all_goals
    simp only [whole, List.cons.sizeOf_spec, Prod.mk.sizeOf_spec]
    omega

theorem isDatumFailure_of_contribution {tree : Tree}
    (failed : contribution version tree = .error failure) :
    IsDatumFailure version [tree] failure := by
  unfold contribution at failed
  generalize whole : tree = given at failed
  split at failed
  · have stopped := isDatumFailure_of_contents (map_eq_error_iff.1 failed)
    exact .of_children stopped
  · have stopped := isDatumFailure_of_contributions failed
    exact .of_children stopped
  · cases failed
    exact .problem .badMerge
termination_by sizeOf tree
decreasing_by
  all_goals
    simp only [whole, sequence.sizeOf_spec, mapping.sizeOf_spec]
    omega

theorem isDatumFailure_of_contributions {items : List Tree}
    (failed : contributions version items = .error failure) :
    IsDatumFailure version items failure := by
  unfold contributions at failed
  generalize whole : items = given at failed
  split at failed
  · cases failed
  · next tag entries rest =>
      split at failed
      · cases failed
      · next stopped =>
          cases failed
          have account : IsDatumFailure version
              (mapping tag entries).children failure :=
            isDatumFailure_of_contents stopped
          exact account.of_children.widen (by simp)
      · next stopped _ =>
          cases failed
          exact (isDatumFailure_of_contributions stopped).widen
            (List.subset_cons_self _ rest)
  · cases failed
    exact .problem .badMerge
termination_by sizeOf items
decreasing_by
  all_goals
    simp only [whole, List.cons.sizeOf_spec, mapping.sizeOf_spec]
    omega

end

/-! ## Trees from nodes -/

inductive IsTreeFailure (version : Version) : Failure → Prop
  | problem (problem : Problem) : IsTreeFailure version (.problem problem)
  | version (notStandard : version ≠ .standard) (notOld : version ≠ .old) :
      IsTreeFailure version (.unknownVersion version.major version.minor)

private theorem isTreeFailure_of_scalarTag {marks : Marks} {plain : Bool}
    {text : List Char} (failed : scalarTag version marks plain text =
      .error failure) :
    IsTreeFailure version failure := by
  unfold scalarTag at failed
  split at failed
  · cases failed
  · split at failed
    · cases failed
    · split at failed
      · cases failed
      · next unknown =>
          cases failed
          exact .version (fun same => unknown (.inl same))
            (fun same => unknown (.inr same))

mutual

theorem isTreeFailure_of_ofNode : ∀ {node : Node} {anchors : Anchors},
    ofNode version anchors node = .error failure → IsTreeFailure version failure
  | .alias _, _, failed => by
      unfold ofNode at failed
      split at failed
      · cases failed
      · cases failed
        exact .problem .unknownAlias
  | .scalar _ _ _, _, failed =>
      isTreeFailure_of_scalarTag (map_eq_error_iff.1 failed)
  | .sequence _ _, _, failed =>
      isTreeFailure_of_ofItems (map_eq_error_iff.1 failed)
  | .mapping _ _, _, failed =>
      isTreeFailure_of_ofEntries (map_eq_error_iff.1 failed)

theorem isTreeFailure_of_ofItems : ∀ {items : List Node} {anchors : Anchors},
    ofItems version anchors items = .error failure →
    IsTreeFailure version failure
  | [], _, failed => by cases failed
  | _ :: _, _, failed => by
      unfold ofItems at failed
      split at failed
      · next stopped =>
          cases failed
          exact isTreeFailure_of_ofNode stopped
      · exact isTreeFailure_of_ofItems (map_eq_error_iff.1 failed)

theorem isTreeFailure_of_ofEntries :
    ∀ {entries : List (Node × Node)} {anchors : Anchors}, ofEntries version
      anchors entries = .error failure → IsTreeFailure version failure
  | [], _, failed => by cases failed
  | (_, _) :: _, _, failed => by
      unfold ofEntries at failed
      split at failed
      · next stopped =>
          cases failed
          exact isTreeFailure_of_ofNode stopped
      · split at failed
        · next stopped =>
            cases failed
            exact isTreeFailure_of_ofNode stopped
        · exact isTreeFailure_of_ofEntries (map_eq_error_iff.1 failed)

end

end Tree

/-! ## Texts -/

/-- What else than a problem stands between a text and its datum. -/
inductive IsHinderedBy (levels : Nat) (text : List Char) : Failure → Prop
  | escape {letter : Char} {length code : Nat} {rest : List Char}
      (written : '\\' :: letter :: rest <:+ text)
      (coded : codeLength? letter = some length)
      (complete : length ≤ rest.length)
      (value : hexNumber? (rest.take length) = some code)
      (past : 0x110000 ≤ code) :
      IsHinderedBy levels text (.codeTooLarge (0x80000000 ≤ code))
  | digits {digits rest : List Char} (written : digits ++ rest <:+ text)
      (plain : digits.all isDigit) (long : integerDigitLimit < digits.length) :
      IsHinderedBy levels text (.unreadable (integerDigitMessage digits.length))
  | depth {found : List Token} (cut : tokens text = .ok found)
      (more : levels < found.length) :
      IsHinderedBy levels text .tooDeep
  | version {found : List Token} {document : Document} {root : Node}
      (cut : tokens text = .ok found)
      (built : Document.ofTokens levels found = .ok (some (document, root)))
      (notStandard : document.version ≠ .standard)
      (notOld : document.version ≠ .old) :
      IsHinderedBy levels text
        (.unknownVersion document.version.major document.version.minor)
  | part {found : List Token} {document : Document} {root : Node}
      {anchors : Tree.Anchors} {part tree : Tree} {failure : Failure}
      (cut : tokens text = .ok found)
      (built : Document.ofTokens levels found = .ok (some (document, root)))
      (resolved : Tree.ofNode document.version [] root = .ok (tree, anchors))
      (within : part.IsPartOf tree)
      (unfit : part.IsUnfit document.version failure) :
      IsHinderedBy levels text failure

theorem isHinderedBy_of_load {levels : Nat} {text : List Char}
    {failure : Failure} (failed : load levels text = .error failure)
    (foreign : failure.isProblem = false) :
    IsHinderedBy levels text failure := by
  unfold load at failed
  split at failed
  · next stop stopped =>
      cases failed
      cases isStoppedBy_of_tokens stopped with
      | problem problem => cases foreign
      | escape written coded complete value past =>
          exact .escape written coded complete value past
      | version written plain long => exact .digits written plain long
  · next found cut =>
      split at failed
      · next stopped =>
          cases failed
          cases Document.isNodeFailure_of_ofTokens stopped with
          | problem problem => cases foreign
          | tooDeep more => exact .depth cut more
      · cases failed
      · next document root built =>
          split at failed
          · next stopped =>
              cases failed
              cases Tree.isTreeFailure_of_ofNode stopped with
              | problem problem => cases foreign
              | version notStandard notOld =>
                  exact .version cut built notStandard notOld
          · next tree anchors resolved =>
              cases Tree.isDatumFailure_of_datum failed with
              | problem problem => cases foreign
              | part member within unfit =>
                  rw [List.mem_singleton.1 member] at within
                  exact .part cut built resolved within unfit

end FencedJson.Yaml
