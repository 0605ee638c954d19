import BlockScript.Proofs.Settings.Laying

namespace BlockScript

/-!
# The fields of the settings

What each field of the listings and of a draft takes, and which part of the record
it changes.  No field looks at what another field has given.
-/

open Yaml

variable
  {library : Library}
  {contents : Contents library}

/-- A value that follows from another one is found exactly when that one is. -/
theorem update_eq_ok_iff
    {ε α β : Type}
    {found : Except ε β}
    {update : β → α}
    {value : α} :
    (do return update (← found) : Except ε α) = .ok value ↔
      ∃ part, found = .ok part ∧ value = update part := by
  cases found with
  | error failure => simp [bind, Except.bind]
  | ok part => simp [bind, Except.bind, pure, Except.pure, eq_comm]

/-- A value that follows from another one can be found exactly when that one can. -/
theorem exists_update_eq_ok_iff
    {ε α β : Type}
    {found : Except ε β}
    {update : β → α} :
    (∃ value, (do return update (← found) : Except ε α) = .ok value) ↔
      ∃ part, found = .ok part := by
  cases found with
  | error failure => simp [bind, Except.bind]
  | ok part => simp [bind, Except.bind, pure, Except.pure]

/-- What is laid over a field of scalars is null or of its type. -/
theorem Yaml.LaysScalars.exists_iff
    {β : Type}
    {read? : library.Node → Option β}
    {lay : β → library.Node → Except library.Failure β}
    {initial : β}
    {node : library.Node}
    (laysScalars : LaysScalars contents.isNull read? lay) :
    (∃ value, lay initial node = .ok value) ↔
      contents.isNull node = true ∨ (read? node).isSome := by
  simp only [laysScalars.eq_ok_iff, exists_and_left, exists_eq, and_true]

namespace Listings

/-- Every node may be expected for a field of the listings. -/
abbrev IsExpected (_ : String) (_ : library.Node) : Prop :=
  True

/-- What laying a node over a field of the listings does. -/
theorem field?_cases
    (promises : Promises contents)
    {field : String}
    {lay : Listings → library.Node → Except library.Failure Listings}
    {initial value : Listings}
    {node : library.Node}
    (found : field? library field = some lay)
    (ok : lay initial node = .ok value) :
    (field = "tokens" ∧
        value =
          { initial with
            tokens := (contents.unlessNull contents.truth? node).getD initial.tokens }) ∨
      (field = "ast" ∧
        value =
          { initial with tree := (contents.unlessNull contents.truth? node).getD initial.tree }) := by
  unfold field? at found
  split at found
  · cases found
    obtain ⟨_, read, rfl⟩ := update_eq_ok_iff.mp ok
    rw [(promises.truth.eq_ok_iff.mp read).2]
    exact .inl ⟨rfl, rfl⟩
  · cases found
    obtain ⟨_, read, rfl⟩ := update_eq_ok_iff.mp ok
    rw [(promises.truth.eq_ok_iff.mp read).2]
    exact .inr ⟨rfl, rfl⟩
  · cases found

/-- The listings take truth values. -/
theorem takes
    (promises : Promises contents) :
    Takes contents (field? library) contents.listingsFields IsExpected where
  known := by
    intro name
    unfold field?
    split <;> simp_all [Contents.listingsFields]
  typed := by
    intro name isTyped lay initial node isField found _
    simp only [Contents.listingsFields, List.mem_cons, Prod.mk.injEq, List.not_mem_nil,
      or_false] at isField
    rcases isField with ⟨rfl, rfl⟩ | ⟨rfl, rfl⟩
    · cases found
      exact exists_update_eq_ok_iff.trans promises.truth.exists_iff
    · cases found
      exact exists_update_eq_ok_iff.trans promises.truth.exists_iff

/-- Only its field changes whether tokens are listed. -/
theorem isPart_tokens
    (promises : Promises contents) :
    IsPart contents (field? library) IsExpected "tokens" tokens contents.truth? := by
  intro field lay initial node value found _ ok
  rcases field?_cases promises found ok with ⟨rfl, rfl⟩ | ⟨rfl, rfl⟩ <;> rfl

/-- Only its field changes whether the tree is listed. -/
theorem isPart_tree
    (promises : Promises contents) :
    IsPart contents (field? library) IsExpected "ast" tree contents.truth? := by
  intro field lay initial node value found _ ok
  rcases field?_cases promises found ok with ⟨rfl, rfl⟩ | ⟨rfl, rfl⟩ <;> rfl

end Listings

namespace Draft

/-- For the field of the listings null or a mapping with scalar keys is expected. -/
def IsExpected
    (contents : Contents library)
    (field : String)
    (node : library.Node) :
    Prop :=
  field = "dump" → contents.isNull node = true ∨ (contents.entries? node).isSome

/-- What laying a node over a field of a draft does. -/
theorem field?_cases
    (promises : Promises contents)
    {field : String}
    {lay : Draft → library.Node → Except library.Failure Draft}
    {initial value : Draft}
    {node : library.Node}
    (found : field? library field = some lay)
    (ok : lay initial node = .ok value) :
    (field = "prompt" ∧
        value =
          { initial with
            prompt := (contents.unlessNull contents.text? node).getD initial.prompt }) ∨
      (field = "color" ∧
          value =
            { initial with
              color := (contents.unlessNull contents.text? node).getD initial.color }) ∨
        (field = "echo" ∧
            value =
              { initial with
                echo := (contents.unlessNull contents.truth? node).getD initial.echo }) ∨
          (field = "dump" ∧
            ∃ listings,
              library.record "config.Dump" (Listings.field? library) initial.listings node =
                  .ok listings ∧
                value = { initial with listings }) := by
  unfold field? at found
  split at found
  · cases found
    obtain ⟨_, read, rfl⟩ := update_eq_ok_iff.mp ok
    rw [((promises.text _).eq_ok_iff.mp read).2]
    exact .inl ⟨rfl, rfl⟩
  · cases found
    obtain ⟨_, read, rfl⟩ := update_eq_ok_iff.mp ok
    rw [((promises.text _).eq_ok_iff.mp read).2]
    exact .inr (.inl ⟨rfl, rfl⟩)
  · cases found
    obtain ⟨_, read, rfl⟩ := update_eq_ok_iff.mp ok
    rw [(promises.truth.eq_ok_iff.mp read).2]
    exact .inr (.inr (.inl ⟨rfl, rfl⟩))
  · cases found
    obtain ⟨listings, read, rfl⟩ := update_eq_ok_iff.mp ok
    exact .inr (.inr (.inr ⟨rfl, listings, read, rfl⟩))
  · cases found

/-- Null or a mapping is laid over the listings exactly when it is null or suits them. -/
theorem exists_listings_iff
    (promises : Promises contents)
    {initial : Listings}
    {node : library.Node}
    (expected : contents.isNull node = true ∨ (contents.entries? node).isSome) :
    (∃ value,
        library.record "config.Dump" (Listings.field? library) initial node = .ok value) ↔
      contents.isNull node = true ∨ contents.IsListings node := by
  cases isNull : contents.isNull node with
  | true => simp [promises.null isNull]
  | false =>
      rw [isNull] at expected
      obtain ⟨entries, isMapping⟩ := Option.isSome_iff_exists.mp (expected.resolve_left nofun)
      rw [promises.exists_record_iff (Listings.takes promises) isMapping fun _ _ => trivial]
      simp [Contents.IsListings, isMapping]

/-- A draft takes texts, a truth value and listings. -/
theorem takes
    (promises : Promises contents) :
    Takes contents (field? library) contents.settingsFields (IsExpected contents) where
  known := by
    intro name
    unfold field?
    split <;> simp_all [Contents.settingsFields]
  typed := by
    intro name isTyped lay initial node isField found expected
    simp only [Contents.settingsFields, List.mem_cons, Prod.mk.injEq, List.not_mem_nil,
      or_false] at isField
    rcases isField with ⟨rfl, rfl⟩ | ⟨rfl, rfl⟩ | ⟨rfl, rfl⟩ | ⟨rfl, rfl⟩
    · cases found
      exact exists_update_eq_ok_iff.trans (promises.text _).exists_iff
    · cases found
      exact exists_update_eq_ok_iff.trans (promises.text _).exists_iff
    · cases found
      exact exists_update_eq_ok_iff.trans promises.truth.exists_iff
    · cases found
      exact exists_update_eq_ok_iff.trans (exists_listings_iff promises (expected rfl))

/-- Only its field changes the prompt. -/
theorem isPart_prompt
    (promises : Promises contents) :
    IsPart contents (field? library) (IsExpected contents) "prompt" prompt contents.text? := by
  intro field lay initial node value found _ ok
  rcases field?_cases promises found ok with
    ⟨rfl, rfl⟩ | ⟨rfl, rfl⟩ | ⟨rfl, rfl⟩ | ⟨rfl, _, _, rfl⟩ <;> rfl

/-- Only its field changes the colour mode. -/
theorem isPart_color
    (promises : Promises contents) :
    IsPart contents (field? library) (IsExpected contents) "color" color contents.text? := by
  intro field lay initial node value found _ ok
  rcases field?_cases promises found ok with
    ⟨rfl, rfl⟩ | ⟨rfl, rfl⟩ | ⟨rfl, rfl⟩ | ⟨rfl, _, _, rfl⟩ <;> rfl

/-- Only its field changes whether values are echoed. -/
theorem isPart_echo
    (promises : Promises contents) :
    IsPart contents (field? library) (IsExpected contents) "echo" echo contents.truth? := by
  intro field lay initial node value found _ ok
  rcases field?_cases promises found ok with
    ⟨rfl, rfl⟩ | ⟨rfl, rfl⟩ | ⟨rfl, rfl⟩ | ⟨rfl, _, _, rfl⟩ <;> rfl

/-- A part of the listings is a part of a draft, which only the field of the listings changes. -/
theorem isPart_ofListings
    (promises : Promises contents)
    {β : Type}
    {name : String}
    {part : Listings → β}
    {read? : library.Node → Option β}
    (isPart : IsPart contents (Listings.field? library) Listings.IsExpected name part read?) :
    IsPart contents (field? library) (IsExpected contents) "dump" (part ·.listings)
      (contents.givenIn? read? name) := by
  intro field lay initial node value found expected ok
  rcases field?_cases promises found ok with
    ⟨rfl, rfl⟩ | ⟨rfl, rfl⟩ | ⟨rfl, rfl⟩ | ⟨rfl, listings, laid, rfl⟩
  · rfl
  · rfl
  · rfl
  · rw [if_pos rfl, Contents.unlessNull]
    cases isNull : contents.isNull node with
    | true =>
        rw [promises.null isNull] at laid
        cases laid
        rfl
    | false =>
        have isMapping := (expected rfl).resolve_left (by simp [isNull])
        obtain ⟨entries, isMapping⟩ := Option.isSome_iff_exists.mp isMapping
        have changed := promises.part_of_record isPart isMapping (fun _ _ => trivial) laid
        simpa [Contents.givenIn?, isMapping] using changed

end Draft

end BlockScript
