import Mathlib.Data.List.Forall2
import Mathlib.Data.List.Perm.Basic
import BlockScript.Proofs.Settings.Laying

namespace BlockScript

/-!
# Mappings that differ in their arrangement only

The entries of a mapping may stand in another order, and so may those of a mapping that
is one of its values.  What entries give to a field, and whether they suit a record,
stays the same.
-/

namespace Yaml

/-- Entries in another order, with values that are alike. -/
def Rearranged
    {Node : Type}
    (Alike : Node → Node → Prop)
    (entries others : List (String × Node)) :
    Prop :=
  ∃ paired,
    List.Forall₂ (fun entry other => entry.1 = other.1 ∧ Alike entry.2 other.2) entries paired ∧
      paired.Perm others

/-- Two nodes are the same scalar to every field. -/
structure SameScalar
    {library : Library}
    (contents : Contents library)
    (node other : library.Node) :
    Prop where
  isNull_eq : contents.isNull node = contents.isNull other
  text?_eq : contents.text? node = contents.text? other
  truth?_eq : contents.truth? node = contents.truth? other

/-- Two nodes are the same scalar, or mappings with the same entries in any order. -/
structure SameValue
    {library : Library}
    (contents : Contents library)
    (node other : library.Node) :
    Prop extends SameScalar contents node other where
  entries? :
    Option.Rel (Rearranged (SameScalar contents)) (contents.entries? node)
      (contents.entries? other)

/-- If no name is repeated, looking a name up finds the value of the only entry for it. -/
theorem lookup_eq_some_iff
    {Node : Type}
    {entries : List (String × Node)}
    {name : String}
    {node : Node}
    (once : (entries.map Prod.fst).Nodup) :
    entries.lookup name = some node ↔ (name, node) ∈ entries := by
  induction entries with
  | nil => simp
  | cons first rest inductionHypothesis =>
      obtain ⟨key, value⟩ := first
      obtain ⟨absent, onceRest⟩ := List.nodup_cons.mp once
      by_cases same : name = key
      · subst same
        have notBehind : (name, node) ∉ rest := fun isEntry =>
          absent (List.mem_map.mpr ⟨(name, node), isEntry, rfl⟩)
        rw [List.lookup_cons_self, List.mem_cons, or_iff_left notBehind, Option.some.injEq,
          Prod.mk.injEq, eq_comm]
        simp
      · rw [List.lookup_cons, beq_false_of_ne same, List.mem_cons, Prod.mk.injEq,
          or_iff_right fun isFirst => same isFirst.1]
        exact inductionHypothesis onceRest

namespace Rearranged

variable
  {Node : Type}
  {Alike : Node → Node → Prop}
  {entries others : List (String × Node)}

/-- Rearranged entries have the same names. -/
theorem names
    (rearranged : Rearranged Alike entries others) :
    (entries.map Prod.fst).Perm (others.map Prod.fst) := by
  obtain ⟨paired, alike, permuted⟩ := rearranged
  have sameNames : entries.map Prod.fst = paired.map Prod.fst := by
    clear permuted
    induction alike with
    | nil => rfl
    | cons first _ inductionHypothesis =>
        rw [List.map_cons, List.map_cons, first.1, inductionHypothesis]
  rw [sameNames]
  exact permuted.map Prod.fst

/-- Every entry has a partner among the rearranged ones. -/
theorem forth
    (rearranged : Rearranged Alike entries others) :
    ∀ entry ∈ entries, ∃ other ∈ others, entry.1 = other.1 ∧ Alike entry.2 other.2 := by
  obtain ⟨paired, alike, permuted⟩ := rearranged
  simp only [← permuted.mem_iff]
  clear permuted
  induction alike with
  | nil => exact nofun
  | cons first _ inductionHypothesis =>
      refine List.forall_mem_cons.mpr ⟨⟨_, List.mem_cons_self, first⟩, fun entry isEntry => ?_⟩
      obtain ⟨other, isOther, partner⟩ := inductionHypothesis entry isEntry
      exact ⟨other, List.mem_cons_of_mem _ isOther, partner⟩

/-- Entries are a rearrangement of every rearrangement of them. -/
theorem symm
    (symmetric : ∀ {node other}, Alike node other → Alike other node)
    (rearranged : Rearranged Alike entries others) :
    Rearranged Alike others entries := by
  obtain ⟨paired, alike, permuted⟩ := rearranged
  obtain ⟨reordered, partners, reorders⟩ := List.perm_comp_forall₂ permuted.symm alike.flip
  exact ⟨reordered, partners.imp fun _ _ pair => ⟨pair.1.symm, symmetric pair.2⟩, reorders⟩

end Rearranged

variable
  {library : Library}
  {contents : Contents library}
  {Alike : library.Node → library.Node → Prop}
  {fields : List (String × (library.Node → Prop))}
  {entries others : List (String × library.Node)}

/-- Being the same scalar goes both ways. -/
theorem SameScalar.symm
    {node other : library.Node}
    (same : SameScalar contents node other) :
    SameScalar contents other node :=
  ⟨same.isNull_eq.symm, same.text?_eq.symm, same.truth?_eq.symm⟩

/-- So does being the same value. -/
theorem SameValue.symm
    {node other : library.Node}
    (same : SameValue contents node other) :
    SameValue contents other node where
  toSameScalar := same.toSameScalar.symm
  entries? := by
    have related := same.entries?
    generalize contents.entries? node = found, contents.entries? other = alsoFound at related ⊢
    cases related with
    | some rearranged => exact .some (rearranged.symm SameScalar.symm)
    | none => exact .none

/-- What is the same value as a mapping is a mapping with the same entries in any order. -/
theorem SameValue.exists_entries
    {node other : library.Node}
    (same : SameValue contents node other)
    (isMapping : contents.entries? node = some entries) :
    ∃ others,
      contents.entries? other = some others ∧ Rearranged (SameScalar contents) entries others := by
  have related := same.entries?
  rw [isMapping] at related
  generalize contents.entries? other = found at related ⊢
  cases related with
  | some rearranged => exact ⟨_, rfl, rearranged⟩

/-- Nodes that are alike are null together, and of the type of a field together. -/
structure Ignores
    (contents : Contents library)
    (fields : List (String × (library.Node → Prop)))
    (Alike : library.Node → library.Node → Prop) :
    Prop where
  symm : ∀ {node other}, Alike node other → Alike other node
  isNull_eq : ∀ {node other}, Alike node other → contents.isNull node = contents.isNull other
  typed :
    ∀ field ∈ fields, ∀ {node other}, Alike node other → field.2 node → field.2 other

namespace Rearranged

/-- Entries suit a record in any arrangement if they do in one. -/
theorem suits
    (rearranged : Rearranged Alike entries others)
    (ignores : Ignores contents fields Alike)
    (suits : contents.Suits fields entries) :
    contents.Suits fields others := by
  have back := (rearranged.symm ignores.symm).forth
  refine ⟨?_, rearranged.names.nodup_iff.mp suits.once, ?_⟩
  · intro other isOther
    obtain ⟨entry, isEntry, sameName, _⟩ := back other isOther
    exact sameName ▸ suits.known entry isEntry
  · intro other isOther isTyped isField
    obtain ⟨entry, isEntry, sameName, alike⟩ := back other isOther
    rw [ignores.isNull_eq alike]
    exact (suits.typed entry isEntry isTyped (sameName ▸ isField)).imp_right
      (ignores.typed _ isField (ignores.symm alike))

/-- Whether entries suit a record does not depend on their arrangement. -/
theorem suits_iff
    (rearranged : Rearranged Alike entries others)
    (ignores : Ignores contents fields Alike) :
    contents.Suits fields entries ↔ contents.Suits fields others :=
  ⟨rearranged.suits ignores, (rearranged.symm ignores.symm).suits ignores⟩

/--
What entries give to a field does not depend on their arrangement, if no key is repeated
and the value for the field is read like all values that are alike.
-/
theorem given?_eq
    {β : Type}
    {read? : library.Node → Option β}
    {name : String}
    (rearranged : Rearranged Alike entries others)
    (once : (entries.map Prod.fst).Nodup)
    (same :
      ∀ node other,
        (name, node) ∈ entries →
          Alike node other →
            contents.unlessNull read? node = contents.unlessNull read? other) :
    contents.given? read? name entries = contents.given? read? name others := by
  cases found : entries.lookup name with
  | some node =>
      have isEntry := (lookup_eq_some_iff once).mp found
      obtain ⟨⟨otherName, other⟩, isOther, sameName, alike⟩ := rearranged.forth _ isEntry
      change name = otherName at sameName
      subst sameName
      have alsoFound := (lookup_eq_some_iff (rearranged.names.nodup_iff.mp once)).mpr isOther
      rw [Contents.given?, Contents.given?, found, alsoFound]
      exact same node other isEntry alike
  | none =>
      have absent : name ∉ entries.map Prod.fst := by
        intro isKey
        obtain ⟨⟨key, node⟩, isEntry, rfl⟩ := List.mem_map.mp isKey
        rw [(lookup_eq_some_iff once).mpr isEntry] at found
        cases found
      have alsoAbsent : name ∉ others.map Prod.fst := fun isKey =>
        absent (rearranged.names.mem_iff.mpr isKey)
      rw [Contents.given?_eq_none absent, Contents.given?_eq_none alsoAbsent]

end Rearranged

/-- The listings look at scalars only. -/
theorem ignores_listingsFields :
    Ignores contents contents.listingsFields (SameScalar contents) where
  symm := SameScalar.symm
  isNull_eq := SameScalar.isNull_eq
  typed := by
    intro field isField node other same typed
    simp only [Contents.listingsFields, List.mem_cons, List.not_mem_nil, or_false] at isField
    rcases isField with rfl | rfl
    all_goals exact (congrArg Option.isSome same.truth?_eq).symm.trans typed

/-- Listings are listings in any arrangement. -/
theorem SameValue.isListings
    {node other : library.Node}
    (same : SameValue contents node other)
    (isListings : contents.IsListings node) :
    contents.IsListings other := by
  obtain ⟨entries, isMapping, suits⟩ := isListings
  obtain ⟨others, isOther, rearranged⟩ := same.exists_entries isMapping
  exact ⟨others, isOther, rearranged.suits ignores_listingsFields suits⟩

/-- The settings look at scalars and at the entries of the listings only. -/
theorem ignores_settingsFields :
    Ignores contents contents.settingsFields (SameValue contents) where
  symm := SameValue.symm
  isNull_eq := fun same => same.isNull_eq
  typed := by
    intro field isField node other same typed
    simp only [Contents.settingsFields, List.mem_cons, List.not_mem_nil, or_false] at isField
    rcases isField with rfl | rfl | rfl | rfl
    · exact (congrArg Option.isSome same.text?_eq).symm.trans typed
    · exact (congrArg Option.isSome same.text?_eq).symm.trans typed
    · exact (congrArg Option.isSome same.truth?_eq).symm.trans typed
    · exact same.isListings typed

end Yaml

end BlockScript
