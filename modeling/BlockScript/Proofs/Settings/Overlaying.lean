import Mathlib
import BlockScript.Proofs.Settings.Fields
import BlockScript.Proofs.Settings.Promises
import BlockScript.Proofs.Settings.Rearranging

namespace BlockScript

/-!
# Settings are an overlay on the defaults

A document that is a mapping gives settings when its entries suit them and the values
that result can be used.  Neither depends on the order of the entries, so two documents
that differ in their arrangement give the same settings or none.

This holds with every library that lays scalars, nulls and mappings as promised.
-/

open Yaml

/-- A name is that of the colour mode that it leads to. -/
theorem ColorMode.ofName?_eq_some_iff
    {name : String}
    {mode : ColorMode} :
    ofName? name = some mode ↔ mode.name = name := by
  constructor
  · intro found
    unfold ofName? at found
    split at found <;> cases found <;> rfl
  · rintro rfl
    cases mode <;> rfl

namespace Draft

/-- A draft can be used: its colour mode exists and its prompt is not empty. -/
def IsUsable (draft : Draft) : Prop :=
  (∃ mode : ColorMode, mode.name = draft.color) ∧ draft.prompt ≠ ""

/-- Settings that hold what a draft holds. -/
structure Gives (draft : Draft) (settings : Settings) : Prop where
  prompt : settings.prompt = draft.prompt
  color : settings.color.name = draft.color
  echo : settings.echo = draft.echo
  listings : settings.listings = draft.listings

/-- A draft is accepted exactly if it can be used, and gives the settings that it holds. -/
theorem check_eq_ok_iff
    {draft : Draft}
    {settings : Settings} :
    draft.check = .ok settings ↔ draft.prompt ≠ "" ∧ draft.Gives settings := by
  unfold check
  split
  · rename_i unknown
    constructor
    · intro ok
      cases ok
    · rintro ⟨-, gives⟩
      rw [ColorMode.ofName?_eq_some_iff.mpr gives.color] at unknown
      cases unknown
  · rename_i mode known
    split
    · rename_i empty
      constructor
      · intro ok
        cases ok
      · exact fun usable => absurd empty usable.1
    · rename_i notEmpty
      constructor
      · intro ok
        cases ok
        exact ⟨notEmpty, rfl, ColorMode.ofName?_eq_some_iff.mp known, rfl, rfl⟩
      · rintro ⟨-, gives⟩
        have sameMode := ColorMode.ofName?_eq_some_iff.mpr gives.color
        rw [known, Option.some.injEq] at sameMode
        rw [sameMode, ← gives.prompt, ← gives.echo, ← gives.listings]

/-- A draft gives settings exactly if its colour mode exists. -/
theorem exists_gives_iff
    {draft : Draft} :
    (∃ settings, draft.Gives settings) ↔ ∃ mode : ColorMode, mode.name = draft.color := by
  constructor
  · rintro ⟨settings, gives⟩
    exact ⟨settings.color, gives.color⟩
  · rintro ⟨mode, named⟩
    exact ⟨{ draft with color := mode }, rfl, named, rfl, rfl⟩

end Draft

variable
  {library : Library}
  {contents : Contents library}
  {root : library.Node}
  {entries others : List (String × library.Node)}

/-- A mapping that is laid over the default draft gives each field what it says. -/
theorem Draft.eq_overlaid
    {value : Draft}
    (promises : Promises contents)
    (isMapping : contents.entries? root = some entries)
    (expected : ∀ entry ∈ entries, Draft.IsExpected contents entry.1 entry.2)
    (laid : library.record "config.Config" (field? library) {} root = .ok value) :
    value = overlaid contents entries := by
  have prompt := promises.part_of_record (isPart_prompt promises) isMapping expected laid
  have color := promises.part_of_record (isPart_color promises) isMapping expected laid
  have echo := promises.part_of_record (isPart_echo promises) isMapping expected laid
  have tokens :=
    promises.part_of_record (isPart_ofListings promises (Listings.isPart_tokens promises))
      isMapping expected laid
  have tree :=
    promises.part_of_record (isPart_ofListings promises (Listings.isPart_tree promises))
      isMapping expected laid
  obtain ⟨_, _, _, ⟨_, _⟩⟩ := value
  simp only at prompt color echo tokens tree
  rw [prompt, color, echo, tokens, tree]
  rfl

namespace Yaml.Rearranged

/-- A node for the listings gives each of them the same in any arrangement. -/
theorem unlessNull_givenIn?_eq
    {β : Type}
    {read? : library.Node → Option β}
    {node other : library.Node}
    (same : SameValue contents node other)
    (suitable : contents.isNull node = true ∨ contents.IsListings node)
    (alike :
      ∀ {node other},
        SameScalar contents node other →
          contents.unlessNull read? node = contents.unlessNull read? other)
    (name : String) :
    contents.unlessNull (contents.givenIn? read? name) node =
      contents.unlessNull (contents.givenIn? read? name) other := by
  rw [Contents.unlessNull, Contents.unlessNull, ← same.isNull_eq]
  rcases suitable with isNull | ⟨entries, isMapping, suits⟩
  · rw [if_pos isNull, if_pos isNull]
  · obtain ⟨others, isOther, rearranged⟩ := same.exists_entries isMapping
    rw [Contents.givenIn?, Contents.givenIn?, isMapping, isOther, Option.getD_some,
      Option.getD_some, rearranged.given?_eq suits.once fun _ _ _ => alike]

/-- Entries that suit the settings lay the same over the defaults in any arrangement. -/
theorem overlaid_eq
    (rearranged : Rearranged (SameValue contents) entries others)
    (suits : contents.Suits contents.settingsFields entries) :
    Draft.overlaid contents entries = Draft.overlaid contents others := by
  have text {node other} (same : SameScalar contents node other) :
      contents.unlessNull contents.text? node = contents.unlessNull contents.text? other := by
    rw [Contents.unlessNull, Contents.unlessNull, same.isNull_eq, same.text?_eq]
  have truth {node other} (same : SameScalar contents node other) :
      contents.unlessNull contents.truth? node = contents.unlessNull contents.truth? other := by
    rw [Contents.unlessNull, Contents.unlessNull, same.isNull_eq, same.truth?_eq]
  have texts (name : String) :
      contents.given? contents.text? name entries = contents.given? contents.text? name others :=
    rearranged.given?_eq suits.once fun _ _ _ same => text same.toSameScalar
  have truths (name : String) :
      contents.given? contents.truth? name entries =
        contents.given? contents.truth? name others :=
    rearranged.given?_eq suits.once fun _ _ _ same => truth same.toSameScalar
  have listings (name : String) :
      contents.given? (contents.givenIn? contents.truth? name) "dump" entries =
        contents.given? (contents.givenIn? contents.truth? name) "dump" others := by
    refine rearranged.given?_eq suits.once fun node other isEntry same => ?_
    have suitable := suits.typed _ isEntry contents.IsListings (by simp [Contents.settingsFields])
    exact unlessNull_givenIn?_eq same suitable truth name
  simp only [Draft.overlaid, texts, truths, listings]

end Yaml.Rearranged

/-- For the listings null or a mapping is expected in any arrangement if it is in one. -/
theorem Draft.expected_of_rearranged
    (rearranged : Rearranged (SameValue contents) entries others)
    (expected : ∀ entry ∈ entries, Draft.IsExpected contents entry.1 entry.2) :
    ∀ other ∈ others, Draft.IsExpected contents other.1 other.2 := by
  intro other isOther isListings
  obtain ⟨entry, isEntry, sameName, same⟩ := (rearranged.symm SameValue.symm).forth other isOther
  rw [same.isNull_eq]
  refine (expected entry isEntry (sameName ▸ isListings)).imp_right fun isMapping => ?_
  obtain ⟨entries, isMapping⟩ := Option.isSome_iff_exists.mp isMapping
  obtain ⟨others, isOther, -⟩ := same.symm.exists_entries isMapping
  exact Option.isSome_of_eq_some isOther

namespace Settings

/-- A draft gives settings if it is checked. -/
theorem ofDraft_eq_ok_iff
    {Failure : Type}
    {draft : Draft}
    {settings : Settings} :
    (ofDraft draft : Except (SettingsFault Failure) Settings) = .ok settings ↔
      draft.check = .ok settings := by
  unfold ofDraft
  split <;> simp_all

/-- What settings are read from a text whose document is a mapping. -/
theorem decode_eq_ok_iff
    {octets : ByteArray}
    {settings : Settings}
    (promises : Promises contents)
    (read : library.root? octets = .ok (some root))
    (isMapping : contents.entries? root = some entries)
    (expected : ∀ entry ∈ entries, Draft.IsExpected contents entry.1 entry.2) :
    decode library octets = .ok settings ↔
      contents.Suits contents.settingsFields entries ∧
        (Draft.overlaid contents entries).prompt ≠ "" ∧
          (Draft.overlaid contents entries).Gives settings := by
  have laid :
      (∃ draft, library.record "config.Config" (Draft.field? library) {} root = .ok draft) ↔
        contents.Suits contents.settingsFields entries :=
    promises.exists_record_iff (Draft.takes promises) isMapping expected
  rw [decode, read, ← laid, ← Draft.check_eq_ok_iff]
  simp only
  cases recorded : library.record "config.Config" (Draft.field? library) {} root with
  | error failure => simp
  | ok draft =>
      rw [ofDraft_eq_ok_iff, Draft.eq_overlaid promises isMapping expected recorded]
      simp

/-- Results that succeed with the same values are the same but for why they fail. -/
theorem toOption_eq_of_forall_ok
    {ε α : Type}
    {first second : Except ε α}
    (same : ∀ value, first = .ok value ↔ second = .ok value) :
    first.toOption = second.toOption := by
  cases first with
  | ok value => rw [(same value).mp rfl]
  | error reason =>
      cases second with
      | error other => rfl
      | ok value => cases (same value).mpr rfl

/--
For every library that keeps its promises, and every text whose document is a mapping with
scalar keys, in which a mapping or null stands for the listings if anything does:

Settings are read from the text exactly when, at both levels, every key is the name of a
field, no key is repeated and every value is null or has the type of its field, and when
the colour mode that results exists and the prompt that results is not empty.  They are
then, field by field, what the document gives and otherwise the default.  Every other text
whose document has the same entries in any order, at both levels, gives the same settings,
or none if this one gives none.
-/
theorem overlay_in_any_order
    {octets : ByteArray}
    (promises : Promises contents)
    (read : library.root? octets = .ok (some root))
    (isMapping : contents.entries? root = some entries)
    (expected :
      ∀ node,
        ("dump", node) ∈ entries →
          contents.isNull node = true ∨ (contents.entries? node).isSome) :
    ((∃ settings, decode library octets = .ok settings) ↔
        contents.Suits contents.settingsFields entries ∧
          (Draft.overlaid contents entries).IsUsable) ∧
      (∀ settings,
        decode library octets = .ok settings → (Draft.overlaid contents entries).Gives settings) ∧
        ∀ otherOctets other others,
          library.root? otherOctets = .ok (some other) →
            contents.entries? other = some others →
              Rearranged (SameValue contents) entries others →
                (decode library otherOctets).toOption = (decode library octets).toOption := by
  have expected : ∀ entry ∈ entries, Draft.IsExpected contents entry.1 entry.2 := by
    rintro ⟨name, node⟩ isEntry rfl
    exact expected node isEntry
  refine ⟨?_, ?_, ?_⟩
  · simp only [decode_eq_ok_iff promises read isMapping expected, exists_and_left,
      Draft.exists_gives_iff, Draft.IsUsable]
    exact and_congr_right fun _ => And.comm
  · intro settings ok
    exact ((decode_eq_ok_iff promises read isMapping expected).mp ok).2.2
  · intro otherOctets other others alsoRead alsoMapping rearranged
    refine toOption_eq_of_forall_ok fun settings => ?_
    have alsoExpected := Draft.expected_of_rearranged rearranged expected
    rw [decode_eq_ok_iff promises read isMapping expected,
      decode_eq_ok_iff promises alsoRead alsoMapping alsoExpected,
      ← rearranged.suits_iff ignores_settingsFields]
    exact and_congr_right fun suits => by rw [rearranged.overlaid_eq suits]

/-- A text in block style. -/
def blockText : ByteArray :=
  "echo: y\ndump:\n  ast: y\n  tokens: ~\n".toUTF8

/-- The document of the text in block style. -/
def blockDocument : Document where
  root :=
    .mapping 1 .map
      [(.scalar 1 .str "echo", .scalar 1 .str "y"),
        (.scalar 2 .str "dump",
          .mapping 3 .map
            [(.scalar 3 .str "ast", .scalar 3 .str "y"),
              (.scalar 4 .str "tokens", .scalar 4 .null "~")])]
  size := 9

/-- The entries of the document in block style. -/
def blockEntries : List (String × SituatedNode) :=
  let surroundings := (SituatedNode.ofDocument blockDocument).surroundings
  [("echo", { node := .scalar 1 .str "y", surroundings }),
    ("dump",
      { node :=
          .mapping 3 .map
            [(.scalar 3 .str "ast", .scalar 3 .str "y"),
              (.scalar 4 .str "tokens", .scalar 4 .null "~")]
        surroundings })]

/-- A text, partly in flow style, with the same entries in another order at both levels. -/
def flowText : ByteArray :=
  "dump: {tokens: ~, ast: y}\necho: y\n".toUTF8

/-- The document of the text in flow style. -/
def flowDocument : Document where
  root :=
    .mapping 1 .map
      [(.scalar 1 .str "dump",
          .mapping 1 .map
            [(.scalar 1 .str "tokens", .scalar 1 .null "~"),
              (.scalar 1 .str "ast", .scalar 1 .str "y")]),
        (.scalar 2 .str "echo", .scalar 2 .str "y")]
  size := 9

/-- The entries of the document in flow style. -/
def flowEntries : List (String × SituatedNode) :=
  let surroundings := (SituatedNode.ofDocument flowDocument).surroundings
  [("dump",
      { node :=
          .mapping 1 .map
            [(.scalar 1 .str "tokens", .scalar 1 .null "~"),
              (.scalar 1 .str "ast", .scalar 1 .str "y")]
        surroundings }),
    ("echo", { node := .scalar 2 .str "y", surroundings })]

set_option maxRecDepth 10000 in
/-- The text in block style is read. -/
theorem ofOctets?_blockText : Document.ofOctets? blockText = .ok (some blockDocument) := by
  cbv

set_option maxRecDepth 10000 in
/-- The text in flow style is read. -/
theorem ofOctets?_flowText : Document.ofOctets? flowText = .ok (some flowDocument) := by
  cbv

/-- The reader finds the root of the text in block style. -/
theorem root?_blockText :
    reader.root? blockText = .ok (some (SituatedNode.ofDocument blockDocument)) := by
  simp only [reader, ofOctets?_blockText, Option.map_some]

/-- The reader finds the root of the text in flow style. -/
theorem root?_flowText :
    reader.root? flowText = .ok (some (SituatedNode.ofDocument flowDocument)) := by
  simp only [reader, ofOctets?_flowText, Option.map_some]

/-- Scalars that differ in their lines only are the same value. -/
theorem sameScalar_of_lines
    (line otherLine : Nat)
    (tag : Tag)
    (written : String)
    (surroundings : Surroundings) :
    SameScalar readContents { node := .scalar line tag written, surroundings }
      { node := .scalar otherLine tag written, surroundings } :=
  ⟨rfl, rfl, rfl⟩

/-- Two entries in the other order are a rearrangement of them. -/
theorem rearranged_pair
    {Node : Type}
    {Alike : Node → Node → Prop}
    {node otherNode behind otherBehind : Node}
    (name nameBehind : String)
    (first : Alike node otherNode)
    (second : Alike behind otherBehind) :
    Rearranged Alike [(name, node), (nameBehind, behind)]
      [(nameBehind, otherBehind), (name, otherNode)] :=
  ⟨[(name, otherNode), (nameBehind, otherBehind)], .cons ⟨rfl, first⟩ (.cons ⟨rfl, second⟩ .nil),
    .swap _ _ []⟩

/-- The entries in flow style are those in block style, rearranged. -/
theorem rearranged_flowEntries :
    Rearranged (SameValue readContents) blockEntries flowEntries := by
  have listings :=
    rearranged_pair "ast" "tokens" (sameScalar_of_lines 3 1 .str "y" { budget := 81 })
      (sameScalar_of_lines 4 1 .null "~" { budget := 81 })
  refine rearranged_pair "echo" "dump" ?_ ?_
  · exact ⟨sameScalar_of_lines 1 2 .str "y" _, .none⟩
  · exact ⟨⟨rfl, rfl, rfl⟩, .some listings⟩

/--
The two texts have the same entries in another order, at both levels.  They suit the
settings, and both texts give them.
-/
theorem overlay_in_any_order_flowText :
    reader.root? blockText = .ok (some (SituatedNode.ofDocument blockDocument)) ∧
      readContents.entries? (SituatedNode.ofDocument blockDocument) = some blockEntries ∧
        readContents.Suits readContents.settingsFields blockEntries ∧
          decode reader blockText = .ok { echo := true, listings := { tree := true } } ∧
            (Draft.overlaid readContents blockEntries).Gives
                { echo := true, listings := { tree := true } } ∧
              (decode reader flowText).toOption =
                some { echo := true, listings := { tree := true } } := by
  have ok : decode reader blockText = .ok { echo := true, listings := { tree := true } } := by
    rw [decode, root?_blockText]
    rfl
  have expected :
      ∀ node,
        ("dump", node) ∈ blockEntries →
          readContents.isNull node = true ∨ (readContents.entries? node).isSome := by
    intro node isEntry
    simp only [blockEntries, List.mem_cons, Prod.mk.injEq, String.reduceEq, false_and, true_and,
      List.not_mem_nil, or_false, false_or] at isEntry
    subst isEntry
    exact .inr rfl
  obtain ⟨succeeds, gives, anyOrder⟩ :=
    overlay_in_any_order promises_reader root?_blockText rfl expected
  have same := anyOrder flowText _ flowEntries root?_flowText rfl rearranged_flowEntries
  rw [ok] at same
  exact ⟨root?_blockText, rfl, (succeeds.mp ⟨_, ok⟩).1, ok, gives _ ok, same⟩

end Settings

end BlockScript
