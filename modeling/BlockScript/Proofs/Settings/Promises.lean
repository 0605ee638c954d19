import Mathlib.Data.List.Forall2
import Mathlib.Data.List.Nodup
import BlockScript.Proofs.Settings.Laying
import BlockScript.Yaml.Reader

namespace BlockScript.Yaml

/-!
# The promises of the reader

The reader collects faults while it lays the entries of a mapping, and goes on behind
them.  Its result is a record only if there was no fault at all, so each entry has been
laid over its field then.

A mapping whose entries are known here has only keys that are the names with which they
are written.  Null keys and keys that merge are no names, and binary keys are written
otherwise.
-/

namespace SituatedNode

/-- The scalar that a node is or stands for: how it is written, and its value. -/
def scalar? (situated : SituatedNode) : Option (String × ScalarValue) :=
  match situated.follow with
  | .ok { node := .scalar _ tag written, surroundings := _ } =>
      (ScalarValue.ofScalar tag written).toOption.map (written, ·)
  | _ => none

/-- The name that a key is, if it is written so and does not merge. -/
def keyName? : Node → Option String
  | .scalar line tag written =>
      if Overlay.isMergeKey (.scalar line tag written) then
        none
      else
        ((ScalarValue.ofScalar tag written).toOption.bind (·.asText? written)).filter (· = written)
  | .sequence .. | .mapping .. | .alias .. => none

/-- The entries of a mapping by the names that its keys are, if all of them are names. -/
def namedEntries?
    (surroundings : Surroundings) :
    List (Node × Node) → Option (List (String × SituatedNode))
  | [] => some []
  | (key, node) :: rest =>
      match keyName? key, namedEntries? surroundings rest with
      | some name, some entries => some ((name, { node, surroundings }) :: entries)
      | _, _ => none

/-- The entries of the mapping that a node is or stands for. -/
def entries? (situated : SituatedNode) : Option (List (String × SituatedNode)) :=
  match situated.follow with
  | .ok { node := .mapping _ _ list, surroundings } => namedEntries? surroundings list
  | _ => none

end SituatedNode

/-- What the nodes that are read give to fields. -/
def readContents : Contents reader where
  isNull situated := situated.scalar?.any (·.2 = .null)
  text? situated := situated.scalar?.bind fun (written, value) => value.asText? written
  truth? situated := situated.scalar?.bind (·.2.asTruth?)
  entries? := SituatedNode.entries?

/-- A result that is no value is a failure. -/
theorem exists_error_of_forall_ne_ok
    {ε α : Type}
    {result : Except ε α}
    (refused : ∀ value, result ≠ .ok value) :
    ∃ failure, result = .error failure := by
  cases result with
  | error failure => exact ⟨failure, rfl⟩
  | ok value => cases refused value rfl

/-- A thrown failure is no value. -/
@[simp]
theorem throw_ne_ok
    {ε α : Type}
    {failure : ε}
    {value : α} :
    (throw failure : Except ε α) ≠ .ok value :=
  nofun

namespace SituatedNode

/-- The text of a node is that of the scalar that it is or stands for. -/
theorem text?_eq_ok_iff
    {typeName : String}
    {situated : SituatedNode}
    {found : Option String} :
    situated.text? typeName = .ok found ↔
      ∃ written value,
        situated.scalar? = some (written, value) ∧ found = value.asText? written := by
  simp only [text?, scalar?, bind, Except.bind, pure, Except.pure]
  rcases situated.follow with _ | ⟨node, surroundings⟩
  · simp
  · cases node with
    | scalar line tag written =>
        simp only
        cases ScalarValue.ofScalar tag written <;> simp [Except.toOption, eq_comm]
    | sequence line tag items => simp
    | mapping line tag entries => simp
    | «alias» line name anchor site => simp

/-- A truth value comes from the scalar that a node is or stands for; null leaves what was there. -/
theorem truth_eq_ok_iff
    {initial value : Bool}
    {situated : SituatedNode} :
    situated.truth initial = .ok value ↔
      ∃ written found,
        situated.scalar? = some (written, found) ∧
          (found = .null ∧ value = initial ∨ found.asTruth? = some value) := by
  simp only [truth, scalar?, bind, Except.bind, pure, Except.pure]
  rcases situated.follow with _ | ⟨node, surroundings⟩
  · simp
  · cases node with
    | scalar line tag written =>
        simp only
        cases ScalarValue.ofScalar tag written with
        | error failure => simp [Except.toOption]
        | ok found =>
            cases found with
            | text word =>
                simp only [Except.toOption, ScalarValue.asTruth?]
                cases worded : ScalarValue.wordTruth? word <;>
                  simp [worded]
            | null => simp [Except.toOption, ScalarValue.asTruth?, eq_comm]
            | truth found => simp [Except.toOption, ScalarValue.asTruth?]
            | other => simp [Except.toOption, ScalarValue.asTruth?]
    | sequence line tag items => simp
    | mapping line tag entries => simp
    | «alias» line name anchor site => simp

/-- A null is a scalar whose value is null. -/
theorem isNull_iff
    {situated : SituatedNode} :
    readContents.isNull situated = true ↔
      ∃ written, situated.scalar? = some (written, .null) := by
  simp [readContents, Option.any_eq_true]

/-- Scalars are laid over texts. -/
theorem laysScalars_text
    (typeName : String) :
    LaysScalars readContents.isNull readContents.text? (reader.text typeName) where
  null := by
    intro initial situated isNull
    obtain ⟨written, isScalar⟩ := isNull_iff.mp isNull
    have read : situated.text? typeName = .ok none :=
      text?_eq_ok_iff.mpr ⟨written, .null, isScalar, rfl⟩
    change situated.text typeName initial = .ok initial
    simp [text, read, bind, Except.bind, pure, Except.pure]
  stored := by
    intro initial value situated _ isText
    obtain ⟨⟨written, scalar⟩, isScalar, isValue⟩ := Option.bind_eq_some_iff.mp isText
    have read : situated.text? typeName = .ok (some value) :=
      text?_eq_ok_iff.mpr ⟨written, scalar, isScalar, isValue.symm⟩
    change situated.text typeName initial = .ok value
    simp [text, read, bind, Except.bind, pure, Except.pure]
  mistyped := by
    intro initial situated notNull noText
    refine exists_error_of_forall_ne_ok fun value laid => ?_
    change situated.text typeName initial = .ok value at laid
    cases read : situated.text? typeName with
    | error failure => simp [text, read, bind, Except.bind] at laid
    | ok found =>
        obtain ⟨written, scalar, isScalar, -⟩ := text?_eq_ok_iff.mp read
        cases scalar with
        | null => simp [isNull_iff.mpr ⟨written, isScalar⟩] at notNull
        | truth value => simp [readContents, isScalar, ScalarValue.asText?] at noText
        | text content => simp [readContents, isScalar, ScalarValue.asText?] at noText
        | other => simp [readContents, isScalar, ScalarValue.asText?] at noText

/-- Scalars are laid over truth values. -/
theorem laysScalars_truth :
    LaysScalars readContents.isNull readContents.truth? reader.truth where
  null := by
    intro initial situated isNull
    obtain ⟨written, isScalar⟩ := isNull_iff.mp isNull
    exact truth_eq_ok_iff.mpr ⟨written, .null, isScalar, .inl ⟨rfl, rfl⟩⟩
  stored := by
    intro initial value situated _ isTruth
    obtain ⟨⟨written, scalar⟩, isScalar, isValue⟩ := Option.bind_eq_some_iff.mp isTruth
    exact truth_eq_ok_iff.mpr ⟨written, scalar, isScalar, .inr isValue⟩
  mistyped := by
    intro initial situated notNull noTruth
    refine exists_error_of_forall_ne_ok fun value laid => ?_
    rcases truth_eq_ok_iff.mp laid with ⟨written, scalar, isScalar, ⟨rfl, -⟩ | isValue⟩
    · simp [isNull_iff.mpr ⟨written, isScalar⟩] at notNull
    · simp [readContents, isScalar, isValue] at noTruth

/-- Null leaves a record. -/
theorem record_of_isNull
    {α : Type}
    {owner : String}
    {field? : FieldReader SituatedNode Failure α}
    {initial : α}
    {situated : SituatedNode}
    (isNull : readContents.isNull situated = true) :
    situated.record owner field? initial = .ok initial := by
  obtain ⟨written, isScalar⟩ := isNull_iff.mp isNull
  revert isScalar
  simp only [record, scalar?, bind, Except.bind, pure, Except.pure]
  rcases situated.follow with _ | ⟨node, surroundings⟩
  · simp
  · cases node with
    | scalar line tag text =>
        simp only
        cases ScalarValue.ofScalar tag text with
        | error failure => simp [Except.toOption]
        | ok value => cases value <;> simp [Except.toOption]
    | sequence line tag items => simp
    | mapping line tag entries => simp
    | «alias» line name anchor site => simp

/-- A key that is a name does not merge, is told apart by that name, and is read as it. -/
theorem keyName?_eq_some
    {key : Node}
    {name : String}
    (named : keyName? key = some name) :
    Overlay.isMergeKey key = false ∧
      KeyIdentity.ofNode key = .scalar name ∧
        ∀ surroundings, text? "string" { node := key, surroundings } = .ok (some name) := by
  cases key with
  | scalar line tag written =>
      simp only [keyName?] at named
      split at named
      · cases named
      · rename_i unmerged
        obtain ⟨read, same⟩ := Option.filter_eq_some_iff.mp named
        obtain rfl : name = written := by simpa using same
        obtain ⟨value, valued, isText⟩ := Option.bind_eq_some_iff.mp read
        refine ⟨by simpa using unmerged, rfl, fun surroundings => ?_⟩
        refine text?_eq_ok_iff.mpr ⟨name, value, ?_, isText.symm⟩
        simp [scalar?, follow, valued]
  | sequence line tag items => cases named
  | mapping line tag entries => cases named
  | «alias» line name anchor site => cases named

/-- Each entry has the name that a key of a mapping is, and the node behind that key. -/
def AreNamed
    (surroundings : Surroundings) :
    List (Node × Node) → List (String × SituatedNode) → Prop :=
  List.Forall₂ fun laid entry =>
    keyName? laid.1 = some entry.1 ∧ entry.2 = { node := laid.2, surroundings }

/-- The entries of a mapping have the names that its keys are. -/
theorem areNamed_of_namedEntries?
    {surroundings : Surroundings}
    {list : List (Node × Node)}
    {entries : List (String × SituatedNode)}
    (named : namedEntries? surroundings list = some entries) :
    AreNamed surroundings list entries := by
  induction list generalizing entries with
  | nil =>
      cases named
      exact .nil
  | cons laid rest inductionHypothesis =>
      unfold namedEntries? at named
      split at named
      · rename_i name others isName areNamed
        cases named
        exact .cons ⟨isName, rfl⟩ (inductionHypothesis areNamed)
      · cases named

end SituatedNode

namespace Overlay

variable
  {α : Type}
  {surroundings : Surroundings}
  {owner : String}
  {field? : FieldReader SituatedNode Failure α}
  {before after : Overlay α}
  {list : List (Node × Node)}
  {entries : List (String × SituatedNode)}

/-- What laying an entry that does not merge leaves as it was. -/
structure Continues (before after : Overlay α) : Prop where
  merged? : after.merged? = before.merged?
  used? : after.used? = before.used?

/-- Laying the value of a field goes on from what was laid before. -/
theorem continues_field
    {line : Nat}
    {name : String}
    {node : Node}
    (ok : before.field surroundings owner field? line name node = .ok after) :
    Continues before after := by
  simp only [field, Overlay.after] at ok
  split at ok
  · cases ok
    exact ⟨rfl, rfl⟩
  · split at ok
    · cases ok
      exact ⟨rfl, rfl⟩
    · split at ok <;> cases ok <;> exact ⟨rfl, rfl⟩

/-- The value of a field is laid without a fault if the field is known and new and takes it. -/
theorem field_eq_ok_iff
    {line : Nat}
    {name : String}
    {node : Node} :
    before.field surroundings owner field? line name node = .ok after ∧ after.faults = [] ↔
      before.faults = [] ∧
        ∃ lay value,
          field? name = some lay ∧
            name ∉ before.given ∧
              lay before.value { node, surroundings } = .ok value ∧
                after = { before with value, given := name :: before.given } := by
  simp only [field, Overlay.after]
  constructor
  · rintro ⟨ok, clean⟩
    split at ok
    · cases ok
      simp [addFaults] at clean
    · rename_i lay known
      split at ok
      · cases ok
        simp [addFaults] at clean
      · rename_i fresh
        split at ok
        · rename_i value laid
          cases ok
          exact ⟨clean, lay, value, known, by simpa using fresh, laid, rfl⟩
        · cases ok
          simp [addFaults] at clean
        · cases ok
  · rintro ⟨noFaults, lay, value, known, fresh, laid, rfl⟩
    simp [known, fresh, laid, noFaults]

/-- An entry whose key is a name is laid as the value of the field with that name. -/
theorem entry_of_keyName?
    {laid : Node × Node}
    {name : String}
    (unused : before.used? = none)
    (named : SituatedNode.keyName? laid.1 = some name) :
    entry surroundings owner field? before laid =
      before.field surroundings owner field? laid.1.line name laid.2 := by
  obtain ⟨unmerged, -, key⟩ := SituatedNode.keyName?_eq_some named
  have notUsed : before.hasUsed name = false := by simp [hasUsed, unused]
  have same : { before with used? := before.used?.map (name :: ·) } = before := by
    rw [unused, Option.map_none, ← unused]
  simp only [entry, unmerged, key, notUsed, same, Bool.false_eq_true, ↓reduceIte]

/-- If entries are laid without a fault, each of them is laid over its field. -/
theorem laid_of_foldlM
    (named : SituatedNode.AreNamed surroundings list entries)
    (unused : before.used? = none)
    (ok : list.foldlM (entry surroundings owner field?) before = .ok after)
    (clean : after.faults = []) :
    before.faults = [] ∧ Laid field? before.value entries after.value := by
  induction named generalizing before with
  | nil =>
      cases ok
      exact ⟨clean, .nil⟩
  | @cons laid entry rest others first _ inductionHypothesis =>
      obtain ⟨name, situated⟩ := entry
      obtain ⟨isName, rfl⟩ := first
      rw [List.foldlM_cons, entry_of_keyName? unused isName] at ok
      cases step : before.field surroundings owner field? laid.1.line name laid.2 with
      | error failure => simp [step, bind, Except.bind] at ok
      | ok between =>
          simp only [step, bind, Except.bind] at ok
          have stillUnused := (continues_field step).used?.trans unused
          -- Faults are only ever added, so there was none behind the first entry either.
          obtain ⟨noFaults, laidOthers⟩ := inductionHypothesis stillUnused ok
          obtain ⟨alsoNoFaults, lay, value, known, -, laidFirst, rfl⟩ :=
            field_eq_ok_iff.mp ⟨step, noFaults⟩
          exact ⟨alsoNoFaults, .cons known laidFirst laidOthers⟩

/-- Entries are laid without a fault if each of them is laid over its field, and no other is. -/
theorem exists_foldlM
    {value : α}
    (named : SituatedNode.AreNamed surroundings list entries)
    (laid : Laid field? before.value entries value)
    (unused : before.used? = none)
    (noFaults : before.faults = [])
    (once : (entries.map Prod.fst).Nodup)
    (fresh : ∀ entry ∈ entries, entry.1 ∉ before.given) :
    ∃ after,
      list.foldlM (entry surroundings owner field?) before = .ok after ∧
        after.faults = [] ∧ after.value = value := by
  induction named generalizing before with
  | nil =>
      cases laid
      exact ⟨before, rfl, noFaults, rfl⟩
  | @cons laidNode entry rest others first _ inductionHypothesis =>
      obtain ⟨name, situated⟩ := entry
      obtain ⟨isName, rfl⟩ := first
      obtain ⟨isFresh, freshOthers⟩ := List.forall_mem_cons.mp fresh
      obtain ⟨absent, onceOthers⟩ := List.nodup_cons.mp once
      cases laid with
      | @cons _ between _ _ _ _ lay known laidFirst laidOthers =>
          have step :
              before.field surroundings owner field? laidNode.1.line name laidNode.2 =
                .ok { before with value := between, given := name :: before.given } :=
            (field_eq_ok_iff.mpr ⟨noFaults, lay, between, known, isFresh, laidFirst, rfl⟩).1
          rw [List.foldlM_cons, entry_of_keyName? unused isName, step]
          refine inductionHypothesis laidOthers unused noFaults onceOthers ?_
          intro other isOther isGiven
          rcases List.mem_cons.mp isGiven with same | wasGiven
          · exact absent (List.mem_map.mpr ⟨other, isOther, same⟩)
          · exact freshOthers other isOther wasGiven

/-- Entries whose keys are names merge nothing. -/
theorem merged?_of_foldlM
    (named : SituatedNode.AreNamed surroundings list entries)
    (unused : before.used? = none)
    (ok : list.foldlM (entry surroundings owner field?) before = .ok after) :
    after.merged? = before.merged? := by
  induction named generalizing before with
  | nil =>
      cases ok
      rfl
  | @cons laid entry rest others first _ inductionHypothesis =>
      rw [List.foldlM_cons, entry_of_keyName? unused first.1] at ok
      cases step : before.field surroundings owner field? laid.1.line entry.1 laid.2 with
      | error failure => simp [step, bind, Except.bind] at ok
      | ok between =>
          simp only [step, bind, Except.bind] at ok
          have continues := continues_field step
          exact (inductionHypothesis (continues.used?.trans unused) ok).trans continues.merged?

end Overlay

/-- A record results if there was no fault. -/
theorem Overlay.result_eq_ok_iff
    {α : Type}
    {overlay : Overlay α}
    {value : α} :
    overlay.result = .ok value ↔ overlay.faults = [] ∧ overlay.value = value := by
  unfold result
  split <;> simp_all

/-- No key is repeated exactly if every two of them are told apart. -/
theorem repeatedKeys_eq_nil_iff
    {list : List (Node × Node)} :
    repeatedKeys list = [] ↔ (list.map (KeyIdentity.ofNode ·.1)).Nodup := by
  induction list with
  | nil => simp [repeatedKeys]
  | cons first rest inductionHypothesis =>
      simp only [repeatedKeys, List.append_eq_nil_iff, List.map_eq_nil_iff, List.filter_eq_nil_iff,
        decide_eq_true_eq, inductionHypothesis, List.map_cons, List.nodup_cons, List.mem_map,
        not_exists, not_and]

/-- Keys that are names are repeated exactly if the names are. -/
theorem repeatedKeys_eq_nil_iff_names
    {surroundings : Surroundings}
    {list : List (Node × Node)}
    {entries : List (String × SituatedNode)}
    (named : SituatedNode.AreNamed surroundings list entries) :
    repeatedKeys list = [] ↔ (entries.map Prod.fst).Nodup := by
  have identities :
      list.map (KeyIdentity.ofNode ·.1) = (entries.map Prod.fst).map KeyIdentity.scalar := by
    induction named with
    | nil => rfl
    | cons first _ inductionHypothesis =>
        obtain ⟨-, identity, -⟩ := SituatedNode.keyName?_eq_some first.1
        simp only [List.map_cons, identity, inductionHypothesis]
  have injective : Function.Injective KeyIdentity.scalar := fun _ _ => KeyIdentity.scalar.inj
  rw [repeatedKeys_eq_nil_iff, identities, List.nodup_map_iff injective]

/-- The entries of a mapping are laid without a fault if no key is repeated and each is laid. -/
theorem Overlay.exists_entries_iff
    {α : Type}
    {surroundings : Surroundings}
    {owner : String}
    {field? : FieldReader SituatedNode Failure α}
    {initial after : α}
    {list : List (Node × Node)}
    {entries : List (String × SituatedNode)}
    (budget : Nat)
    (named : SituatedNode.AreNamed surroundings list entries) :
    (∃ overlay,
        Overlay.entries owner field? (budget + 1) surroundings { value := initial } list =
            .ok overlay ∧
          overlay.faults = [] ∧ overlay.value = after) ↔
      (entries.map Prod.fst).Nodup ∧ Laid field? initial entries after := by
  rw [← repeatedKeys_eq_nil_iff_names named]
  constructor
  · rintro ⟨overlay, ok, clean, rfl⟩
    simp only [Overlay.entries, bind, Except.bind, pure, Except.pure] at ok
    split at ok
    · rename_i unrepeated
      refine ⟨by simpa using unrepeated, ?_⟩
      split at ok
      · cases ok
      · rename_i laid folded
        rw [merged?_of_foldlM named rfl folded] at ok
        cases ok
        exact (laid_of_foldlM named rfl folded clean).2
    · rename_i repeated
      cases ok
      have unrepeated : repeatedKeys list = [] := by simpa [addFaults] using clean
      simp [unrepeated] at repeated
  · rintro ⟨unrepeated, laid⟩
    have folds :
        ∃ overlay,
          list.foldlM (entry surroundings owner field?) ({ value := initial } : Overlay α) =
              .ok overlay ∧
            overlay.faults = [] ∧ overlay.value = after :=
      exists_foldlM named laid rfl rfl ((repeatedKeys_eq_nil_iff_names named).mp unrepeated)
        (by simp)
    obtain ⟨overlay, folded, clean, isValue⟩ := folds
    have unmerged : overlay.merged? = none := merged?_of_foldlM named rfl folded
    refine ⟨overlay, ?_, clean, isValue⟩
    simp [Overlay.entries, unrepeated, folded, unmerged, bind, Except.bind, pure, Except.pure]

/-- A mapping is laid over a record exactly if no key is repeated and each entry is laid. -/
theorem SituatedNode.record_eq_ok_iff
    {α : Type}
    {owner : String}
    {field? : FieldReader SituatedNode Failure α}
    {initial after : α}
    {situated : SituatedNode}
    {entries : List (String × SituatedNode)}
    (isMapping : situated.entries? = some entries) :
    situated.record owner field? initial = .ok after ↔
      (entries.map Prod.fst).Nodup ∧ Laid field? initial entries after := by
  unfold SituatedNode.entries? at isMapping
  split at isMapping
  · rename_i line tag list surroundings followed
    have named := areNamed_of_namedEntries? isMapping
    rw [← Overlay.exists_entries_iff surroundings.budget named]
    simp only [record, followed, bind, Except.bind]
    cases Overlay.entries owner field? (surroundings.budget + 1) surroundings
        { value := initial } list with
    | error failure => simp
    | ok overlay => simp [Overlay.result_eq_ok_iff]
  · cases isMapping

/-- The reader keeps its promises. -/
theorem promises_reader : Promises readContents where
  text := SituatedNode.laysScalars_text
  truth := SituatedNode.laysScalars_truth
  null := SituatedNode.record_of_isNull
  stored := by
    intro α typeName field? initial after situated entries isMapping _ once
    exact (SituatedNode.record_eq_ok_iff isMapping).trans (and_iff_right once)
  unknown := by
    intro α typeName field? initial situated entries isMapping unknown
    obtain ⟨entry, isEntry, noField⟩ := unknown
    refine exists_error_of_forall_ne_ok fun value ok => ?_
    have laid := ((SituatedNode.record_eq_ok_iff isMapping).mp ok).2
    simpa [noField] using laid.known entry isEntry
  repeated := by
    intro α typeName field? initial situated entries isMapping repeated
    refine exists_error_of_forall_ne_ok fun value ok => ?_
    exact repeated ((SituatedNode.record_eq_ok_iff isMapping).mp ok).1

end BlockScript.Yaml
