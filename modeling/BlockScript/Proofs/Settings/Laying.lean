import Mathlib.Data.List.Nodup
import BlockScript.Proofs.Settings.Contents

namespace BlockScript.Yaml

/-!
# Laying entries over a record

A record says what its fields take and which part of it each of them changes.  Then
entries can be laid over the record exactly when they suit it, and each part becomes
what the entries give to its field, or stays what it was before.
-/

variable
  {library : Library}
  {contents : Contents library}
  {α β : Type}
  {field? : FieldReader library.Node library.Failure α}
  {fields : List (String × (library.Node → Prop))}
  {IsExpected : String → library.Node → Prop}
  {part : α → β}
  {read? : library.Node → Option β}
  {name : String}

/-- A node is laid over a value that it may be, and null over any value. -/
theorem LaysScalars.eq_ok_iff
    {lay : β → library.Node → Except library.Failure β}
    {initial value : β}
    {node : library.Node}
    (laysScalars : LaysScalars contents.isNull read? lay) :
    lay initial node = .ok value ↔
      (contents.isNull node = true ∨ (read? node).isSome) ∧
        value = (contents.unlessNull read? node).getD initial := by
  unfold Contents.unlessNull
  cases isNull : contents.isNull node with
  | true =>
      rw [laysScalars.null isNull]
      simpa using eq_comm
  | false =>
      cases isRead : read? node with
      | some stored =>
          rw [laysScalars.stored isNull isRead]
          simpa using eq_comm
      | none =>
          have refused : ∃ failure, lay initial node = .error failure :=
            laysScalars.mistyped isNull isRead
          obtain ⟨failure, failed⟩ := refused
          simp [failed]

namespace Contents

/-- The first entry gives its value to the name that its key is. -/
theorem given?_cons_self
    (node : library.Node)
    (rest : List (String × library.Node)) :
    contents.given? read? name ((name, node) :: rest) = contents.unlessNull read? node := by
  rw [given?, List.lookup_cons_self, Option.bind_some]

/-- An entry gives nothing to a name that its key is not. -/
theorem given?_cons_of_ne
    {other : String}
    (differs : name ≠ other)
    (node : library.Node)
    (rest : List (String × library.Node)) :
    contents.given? read? name ((other, node) :: rest) = contents.given? read? name rest := by
  rw [given?, given?, List.lookup_cons, beq_false_of_ne differs]

/-- A name that no key is gets nothing. -/
theorem given?_eq_none
    {entries : List (String × library.Node)}
    (absent : name ∉ entries.map Prod.fst) :
    contents.given? read? name entries = none := by
  have notFound : entries.lookup name = none := by
    rw [List.lookup_eq_none_iff]
    intro entry isEntry
    rw [bne_iff_ne]
    rintro rfl
    exact absent (List.mem_map_of_mem isEntry)
  rw [given?, notFound, Option.bind_none]

/-- Entries that suit a record still do without the first of them. -/
theorem Suits.of_cons
    {first : String × library.Node}
    {rest : List (String × library.Node)}
    (suits : contents.Suits fields (first :: rest)) :
    contents.Suits fields rest where
  known := fun other isOther => suits.known other (List.mem_cons_of_mem _ isOther)
  once := (List.nodup_cons.mp suits.once).2
  typed := fun other isOther => suits.typed other (List.mem_cons_of_mem _ isOther)

end Contents

/--
A record has the given fields, and a node that is expected for a field can be laid over
it exactly when it is null or of the type of the field, whatever was there.
-/
structure Takes
    (contents : Contents library)
    (field? : FieldReader library.Node library.Failure α)
    (fields : List (String × (library.Node → Prop)))
    (IsExpected : String → library.Node → Prop) :
    Prop where
  known : ∀ name, name ∈ fields.map Prod.fst ↔ (field? name).isSome
  typed :
    ∀ {name isTyped lay initial node},
      (name, isTyped) ∈ fields →
        field? name = some lay →
          IsExpected name node →
            ((∃ value, lay initial node = .ok value) ↔
              contents.isNull node = true ∨ isTyped node)

/-- A part of a record that only the field with the given name changes, to what its node gives. -/
def IsPart
    (contents : Contents library)
    (field? : FieldReader library.Node library.Failure α)
    (IsExpected : String → library.Node → Prop)
    (name : String)
    (part : α → β)
    (read? : library.Node → Option β) :
    Prop :=
  ∀ {field lay initial node value},
    field? field = some lay →
      IsExpected field node →
        lay initial node = .ok value →
          part value =
            if field = name then
              (contents.unlessNull read? node).getD (part initial)
            else
              part initial

/-- Entries that are laid are for fields of the record. -/
theorem Laid.known
    {before after : α}
    {entries : List (String × library.Node)}
    (laid : Laid field? before entries after) :
    ∀ entry ∈ entries, (field? entry.1).isSome := by
  induction laid with
  | nil => exact nofun
  | cons known _ _ inductionHypothesis =>
      refine List.forall_mem_cons.mpr ⟨?_, inductionHypothesis⟩
      exact Option.isSome_of_eq_some known

/-- An entry that is laid is laid over its field. -/
theorem Laid.exists_of_mem
    {before after : α}
    {entries : List (String × library.Node)}
    {entry : String × library.Node}
    (laid : Laid field? before entries after)
    (isEntry : entry ∈ entries) :
    ∃ lay initial value, field? entry.1 = some lay ∧ lay initial entry.2 = .ok value := by
  induction laid with
  | nil => cases isEntry
  | cons known first _ inductionHypothesis =>
      cases isEntry with
      | head => exact ⟨_, _, _, known, first⟩
      | tail _ isOther => exact inductionHypothesis isOther

/-- Entries without repeated keys suit a record over which they are laid. -/
theorem Laid.suits
    {before after : α}
    {entries : List (String × library.Node)}
    (laid : Laid field? before entries after)
    (takes : Takes contents field? fields IsExpected)
    (expected : ∀ entry ∈ entries, IsExpected entry.1 entry.2)
    (once : (entries.map Prod.fst).Nodup) :
    contents.Suits fields entries where
  known := fun entry isEntry => (takes.known entry.1).mpr (laid.known entry isEntry)
  once := once
  typed := by
    intro entry isEntry isTyped isField
    obtain ⟨lay, initial, value, known, first⟩ := laid.exists_of_mem isEntry
    exact (takes.typed isField known (expected entry isEntry)).mp ⟨value, first⟩

/-- Entries that suit a record can be laid over it. -/
theorem exists_laid
    {entries : List (String × library.Node)}
    (takes : Takes contents field? fields IsExpected)
    (expected : ∀ entry ∈ entries, IsExpected entry.1 entry.2)
    (suits : contents.Suits fields entries)
    (before : α) :
    ∃ after, Laid field? before entries after := by
  induction entries generalizing before with
  | nil => exact ⟨before, .nil⟩
  | cons entry rest inductionHypothesis =>
      obtain ⟨name, node⟩ := entry
      have isKnown := suits.known _ List.mem_cons_self
      obtain ⟨lay, known⟩ := Option.isSome_iff_exists.mp ((takes.known name).mp isKnown)
      obtain ⟨⟨field, isTyped⟩, isField, isName⟩ := List.mem_map.mp isKnown
      change field = name at isName
      subst isName
      obtain ⟨between, first⟩ :=
        (takes.typed isField known (expected _ List.mem_cons_self)).mpr
          (suits.typed _ List.mem_cons_self isTyped isField)
      obtain ⟨after, others⟩ :=
        inductionHypothesis (fun other isOther => expected other (List.mem_cons_of_mem _ isOther))
          suits.of_cons between
      exact ⟨after, .cons known first others⟩

/-- Entries that are laid have changed a part of the record to what they give to its field. -/
theorem Laid.part_eq
    {before after : α}
    {entries : List (String × library.Node)}
    (laid : Laid field? before entries after)
    (isPart : IsPart contents field? IsExpected name part read?)
    (expected : ∀ entry ∈ entries, IsExpected entry.1 entry.2)
    (once : (entries.map Prod.fst).Nodup) :
    part after = (contents.given? read? name entries).getD (part before) := by
  induction laid with
  | nil => rfl
  | @cons before between after field node rest lay known first others inductionHypothesis =>
      obtain ⟨absent, onceRest⟩ := List.nodup_cons.mp once
      obtain ⟨isExpected, expectedRest⟩ := List.forall_mem_cons.mp expected
      rw [inductionHypothesis expectedRest onceRest, isPart known isExpected first]
      by_cases same : field = name
      · subst same
        -- No entry behind this one is for the same field.
        rw [if_pos rfl, Contents.given?_eq_none absent, Contents.given?_cons_self,
          Option.getD_none]
      · rw [if_neg same, Contents.given?_cons_of_ne (Ne.symm same)]

/-- Entries are laid over a record by a library exactly when none is repeated and all are laid. -/
theorem Promises.record_eq_ok_iff
    {typeName : String}
    {initial after : α}
    {node : library.Node}
    {entries : List (String × library.Node)}
    (promises : Promises contents)
    (isMapping : contents.entries? node = some entries) :
    library.record typeName field? initial node = .ok after ↔
      (entries.map Prod.fst).Nodup ∧ Laid field? initial entries after := by
  by_cases once : (entries.map Prod.fst).Nodup
  · by_cases known : ∀ entry ∈ entries, (field? entry.1).isSome
    · simp only [promises.stored isMapping known once, once, true_and]
    · have unknown : ∃ entry ∈ entries, field? entry.1 = none := by simpa using known
      have refused : ∃ failure, library.record typeName field? initial node = .error failure :=
        promises.unknown isMapping unknown
      obtain ⟨failure, failed⟩ := refused
      have notLaid : ¬Laid field? initial entries after := fun laid => known laid.known
      simp [failed, notLaid]
  · have refused : ∃ failure, library.record typeName field? initial node = .error failure :=
      promises.repeated isMapping once
    obtain ⟨failure, failed⟩ := refused
    simp [failed, once]

/-- A mapping can be laid over a record exactly when its entries suit the record. -/
theorem Promises.exists_record_iff
    {typeName : String}
    {initial : α}
    {node : library.Node}
    {entries : List (String × library.Node)}
    (promises : Promises contents)
    (takes : Takes contents field? fields IsExpected)
    (isMapping : contents.entries? node = some entries)
    (expected : ∀ entry ∈ entries, IsExpected entry.1 entry.2) :
    (∃ value, library.record typeName field? initial node = .ok value) ↔
      contents.Suits fields entries := by
  simp only [promises.record_eq_ok_iff isMapping]
  constructor
  · rintro ⟨value, once, laid⟩
    exact laid.suits takes expected once
  · intro suits
    obtain ⟨value, laid⟩ := exists_laid takes expected suits initial
    exact ⟨value, suits.once, laid⟩

/-- A mapping that is laid over a record changes a part of it to what it gives to its field. -/
theorem Promises.part_of_record
    {typeName : String}
    {initial value : α}
    {node : library.Node}
    {entries : List (String × library.Node)}
    (promises : Promises contents)
    (isPart : IsPart contents field? IsExpected name part read?)
    (isMapping : contents.entries? node = some entries)
    (expected : ∀ entry ∈ entries, IsExpected entry.1 entry.2)
    (ok : library.record typeName field? initial node = .ok value) :
    part value = (contents.given? read? name entries).getD (part initial) := by
  obtain ⟨once, laid⟩ := (promises.record_eq_ok_iff isMapping).mp ok
  exact laid.part_eq isPart expected once

end BlockScript.Yaml
