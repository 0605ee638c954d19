import BlockScript.Tree.Outline
import BlockScript.Proofs.Text.Quoted
import BlockScript.Proofs.Source.MaximalMunch

namespace BlockScript

open Lexical

/-!
# Outlines have one reading

An outline is a bare word, a quoted text, or a word with further outlines in parentheses.
Bare words hold no blank, no parenthesis and no quote.  The text of an outline then tells
where each part ends, and with it the whole outline.
-/

/-- The parts of an outline. -/
inductive Outline where
  | word (text : String)
  | quoted (text : String)
  | node (head : String) (parts : List Outline)
  deriving Repr

/-- A character that may stand in a bare word. -/
def isPlain (c : Char) : Bool :=
  !([' ', '(', ')', '"'].contains c)

/-- A text that may stand as a bare word. -/
def IsWord
    (text : String) :
    Prop :=
  text.toList ≠ [] ∧ ∀ c ∈ text.toList, isPlain c = true

instance
    (text : String) :
    Decidable (IsWord text) :=
  decidable_of_iff (text.toList.isEmpty = false ∧ text.toList.all isPlain = true)
    (by simp [IsWord])

namespace Outline

mutual

/-- The characters of an outline. -/
def render : Outline → List Char
  | .word text => text.toList
  | .quoted text => (Text.quote text).toList
  | .node head parts => '(' :: (head.toList ++ renderAll parts ++ [')'])

/-- The characters of outlines, each after a space. -/
def renderAll : List Outline → List Char
  | [] => []
  | part :: others => ' ' :: (part.render ++ renderAll others)

end

/-- A quoted text before further text. -/
theorem render_quoted_append
    (text : String)
    (rest : List Char) :
    (Outline.quoted text).render ++ rest =
      '"' :: (Text.Quoted.encode text.toList ++ '"' :: rest) := by
  rw [render, Text.quote, String.toList_ofList]
  simp

/-- A node before further text. -/
theorem render_node_append
    (head : String)
    (parts : List Outline)
    (rest : List Char) :
    (Outline.node head parts).render ++ rest =
      '(' :: (head.toList ++ (renderAll parts ++ ')' :: rest)) := by
  rw [render]
  simp

/-- Every bare word of an outline may stand as one. -/
inductive Legible : Outline → Prop where
  | word
      {text : String}
      (isWord : IsWord text) :
      Legible (.word text)
  | quoted
      (text : String) :
      Legible (.quoted text)
  | node
      {head : String}
      {parts : List Outline}
      (isWord : IsWord head)
      (legible : ∀ part ∈ parts, Legible part) :
      Legible (.node head parts)

/-- Behind a bare word its end is found. -/
theorem word_append_inj
    {text other : String}
    {rest behind : List Char}
    (isWord : IsWord text)
    (isOther : IsWord other)
    (ends : StopsAt isPlain rest)
    (otherEnds : StopsAt isPlain behind)
    (same : text.toList ++ rest = other.toList ++ behind) :
    text = other ∧ rest = behind := by
  obtain ⟨word, tail⟩ := takeWhile_append_of_stopsAt isWord.2 ends
  obtain ⟨otherWord, otherTail⟩ := takeWhile_append_of_stopsAt isOther.2 otherEnds
  rw [same] at word tail
  exact ⟨String.toList_inj.mp (word.symm.trans otherWord), tail.symm.trans otherTail⟩

/-- A bare word does not begin like a quoted text or a parenthesis. -/
theorem word_append_ne
    {text : String}
    {c : Char}
    {rest behind : List Char}
    (isWord : IsWord text)
    (notPlain : isPlain c = false) :
    text.toList ++ rest ≠ c :: behind := by
  obtain ⟨first, others, shape⟩ := List.exists_cons_of_ne_nil isWord.1
  rw [shape]
  intro same
  have isFirst := isWord.2 first (by rw [shape]; exact List.mem_cons_self)
  rw [(List.cons.inj same).1, notPlain] at isFirst
  cases isFirst

/-- The text of an outline, and where it ends, determine its reading. -/
def Reads
    (outline : Outline) :
    Prop :=
  ∀ {other : Outline} {rest behind : List Char},
    other.Legible → StopsAt isPlain rest → StopsAt isPlain behind →
      outline.render ++ rest = other.render ++ behind → outline = other ∧ rest = behind

/-- What follows the head or a part of a node is no part of a bare word. -/
theorem stopsAt_renderAll
    (parts : List Outline)
    (rest : List Char) :
    StopsAt isPlain (renderAll parts ++ ')' :: rest) := by
  cases parts with
  | nil =>
      rintro c ⟨⟩
      decide
  | cons part others =>
      rw [renderAll]
      rintro c ⟨⟩
      decide

/-- The parts of a node are determined by their text up to the closing parenthesis. -/
theorem renderAll_append_inj
    {parts others : List Outline}
    {rest behind : List Char}
    (reads : ∀ part ∈ parts, part.Reads)
    (legible : ∀ other ∈ others, other.Legible)
    (same : renderAll parts ++ ')' :: rest = renderAll others ++ ')' :: behind) :
    parts = others ∧ rest = behind := by
  induction parts generalizing others with
  | nil =>
      cases others with
      | nil => exact ⟨rfl, (List.cons.inj same).2⟩
      | cons other others =>
          rw [renderAll, renderAll] at same
          exact absurd (List.cons.inj same).1 (by decide)
  | cons part parts inductionHypothesis =>
      rw [List.forall_mem_cons] at reads
      cases others with
      | nil =>
          rw [renderAll, renderAll] at same
          exact absurd (List.cons.inj same).1 (by decide)
      | cons other others =>
          rw [List.forall_mem_cons] at legible
          rw [renderAll, renderAll, List.cons_append, List.cons_append, List.append_assoc,
            List.append_assoc, List.cons.injEq] at same
          obtain ⟨rfl, sameRest⟩ :=
            reads.1 legible.1 (stopsAt_renderAll _ _) (stopsAt_renderAll _ _) same.2
          obtain ⟨rfl, sameBehind⟩ := inductionHypothesis reads.2 legible.2 sameRest
          exact ⟨rfl, sameBehind⟩

/-- A legible outline has one reading. -/
theorem Legible.reads
    {outline : Outline}
    (legible : outline.Legible) :
    outline.Reads := by
  -- The first character tells the three shapes apart: a quote, a parenthesis, or neither.
  induction legible with
  | word isWord =>
      intro other rest behind otherLegible ends otherEnds same
      rw [render] at same
      cases otherLegible with
      | word isOther =>
          rw [render] at same
          obtain ⟨rfl, sameRest⟩ := word_append_inj isWord isOther ends otherEnds same
          exact ⟨rfl, sameRest⟩
      | quoted otherText =>
          rw [render_quoted_append] at same
          exact absurd same (word_append_ne isWord (by decide))
      | node isOtherHead _ =>
          rw [render_node_append] at same
          exact absurd same (word_append_ne isWord (by decide))
  | quoted text =>
      intro other rest behind otherLegible _ otherEnds same
      rw [render_quoted_append] at same
      cases otherLegible with
      | word isOther =>
          rw [render] at same
          exact absurd same.symm (word_append_ne isOther (by decide))
      | quoted otherText =>
          rw [render_quoted_append, List.cons.injEq] at same
          obtain ⟨sameText, sameRest⟩ := Text.Quoted.encode_append_quote_inj same.2
          rw [String.toList_inj.mp sameText]
          exact ⟨rfl, sameRest⟩
      | node isOtherHead _ =>
          rw [render_node_append] at same
          exact absurd (List.cons.inj same).1 (by decide)
  | node isHead _ inductionHypothesis =>
      intro other rest behind otherLegible _ otherEnds same
      rw [render_node_append] at same
      cases otherLegible with
      | word isOther =>
          rw [render] at same
          exact absurd same.symm (word_append_ne isOther (by decide))
      | quoted otherText =>
          rw [render_quoted_append] at same
          exact absurd (List.cons.inj same).1 (by decide)
      | node isOtherHead otherLegible =>
          rw [render_node_append, List.cons.injEq] at same
          obtain ⟨rfl, sameParts⟩ :=
            word_append_inj isHead isOtherHead (stopsAt_renderAll _ _) (stopsAt_renderAll _ _)
              same.2
          obtain ⟨rfl, sameRest⟩ :=
            renderAll_append_inj inductionHypothesis otherLegible sameParts
          exact ⟨rfl, sameRest⟩

/-- Legible outlines with the same text are the same. -/
theorem Legible.render_inj
    {outline other : Outline}
    (legible : outline.Legible)
    (otherLegible : other.Legible)
    (same : outline.render = other.render) :
    outline = other := by
  have atEnd : StopsAt isPlain [] := by simp [StopsAt]
  exact (legible.reads otherLegible atEnd atEnd (by rw [same])).1

end Outline

end BlockScript
