import BlockScript.Proofs.Source.Writing

namespace BlockScript

open Source

/-!
# Literals are read alike alone and in a source

The value of a text as a literal is found from the text alone, and a source is cut
without looking at values.  Both agree on what a number is: digits, with a point
between digits at most once.  A segment that is cut as a literal therefore always has
a value, unless it is a number beyond all doubles, and the faults of texts that are no
literals never come up in a source.
-/

namespace Lexical

/-- One or two runs of digits are written, with the magnitude that they stand for. -/
inductive Denotes : List Char → Decimal → Prop where
  | whole
      {digits : List Char}
      (whole : IsDigits digits) :
      Denotes digits (.ofParts digits [])
  | fractional
      {digits fraction : List Char}
      (whole : IsDigits digits)
      (part : IsDigits fraction) :
      Denotes (digits ++ '.' :: fraction) (.ofParts digits fraction)

/-- Runs of digits are the lexeme of a number, with the double nearest to it as its value. -/
theorem Denotes.isLexeme
    {text : List Char}
    {read : Decimal}
    {number : Float}
    (denotes : Denotes text read)
    (rounded : read.toFloat? = some number) :
    IsLexeme .number text ∧
      Literal.ofLexeme .number (String.ofList text) = .ok (.number number) := by
  have inRange : read.toFloat? ≠ none := by simp [rounded]
  cases denotes with
  | whole whole =>
      have role := congrArg Segment.role (ofLiteral_digits whole)
      rw [rounded] at role
      exact ⟨.wholeNumber whole inRange, roleOf_eq_token_iff.mp role⟩
  | fractional whole part =>
      have role := congrArg Segment.role (ofLiteral_fraction whole part)
      rw [rounded] at role
      exact ⟨.fractionalNumber whole part inRange, roleOf_eq_token_iff.mp role⟩

/-- Digits and points that are read as a magnitude are one or two runs of digits. -/
theorem denotes_of_ofText?
    {text : List Char}
    {decimal : Decimal}
    (numeric : Literal.isNumeric text = true)
    (found : Decimal.ofText? text = some decimal) :
    Denotes text decimal := by
  have split := List.takeWhile_append_dropWhile (p := (· != '.')) (l := text)
  have stops := stopsAt_dropWhile (· != '.') text
  simp only [Decimal.ofText?, Option.ite_none_right_eq_some, Option.some.injEq, Bool.and_eq_true,
    Bool.not_eq_true', List.isEmpty_eq_false_iff, List.all_eq_true] at found
  generalize text.takeWhile (· != '.') = digits at split found
  generalize text.dropWhile (· != '.') = behind at split stops found
  obtain ⟨⟨notNil, all⟩, rfl⟩ := found
  cases behind with
  | nil =>
      rw [List.append_nil] at split
      subst split
      simp only [List.drop_nil, List.append_nil] at notNil all ⊢
      exact .whole ⟨notNil, all⟩
  | cons c fraction =>
      have isPoint : c = '.' := by simpa using stops c rfl
      subst isPoint split
      -- That the point is neither first nor last is checked on the text, not on its runs.
      simp only [Literal.isNumeric, Bool.and_eq_true, bne_iff_ne] at numeric
      simp only [List.drop_one, List.tail_cons, List.forall_mem_append] at notNil all ⊢
      refine .fractional ⟨?_, all.1⟩ ⟨?_, all.2⟩
      · rintro rfl
        exact numeric.1.2 rfl
      · rintro rfl
        simp at numeric

/-- A text with a value as a number is one or two runs of digits, in range. -/
theorem exists_denotes_of_ofLexeme
    {text : String}
    {value : Value}
    (valued : Literal.ofLexeme .number text = .ok value) :
    ∃ read number,
      Denotes text.toList read ∧ read.toFloat? = some number ∧ value = .number number := by
  simp only [Literal.ofLexeme, Literal.ofNumeric] at valued
  split at valued
  · rename_i numeric
    split at valued
    · cases valued
    · rename_i read found
      cases rounded : read.toFloat? with
      | none =>
          rw [rounded] at valued
          cases valued
      | some number =>
          rw [rounded] at valued
          cases valued
          exact ⟨read, number, denotes_of_ofText? numeric found, rounded, rfl⟩
  · cases valued

/-- A text with a value as a number is the lexeme of a number. -/
theorem isLexeme_of_ofLexeme_number
    {text : String}
    {value : Value}
    (valued : Literal.ofLexeme .number text = .ok value) :
    IsLexeme .number text.toList := by
  obtain ⟨read, number, denotes, rounded, _⟩ := exists_denotes_of_ofLexeme valued
  exact (denotes.isLexeme rounded).1

/-- A lexeme alone is read as one token with the value that it determines. -/
theorem Lexeme.reads
    (lexeme : Lexeme)
    {value : Value}
    (valued : Literal.ofLexeme lexeme.kind (String.ofList lexeme.text) = .ok value) :
    (Lexing.ofSource lexeme.text).errors = [] ∧
      (Lexing.ofSource lexeme.text).tokens.map content =
        [(lexeme.kind, String.ofList lexeme.text, value), (.endOfInput, "", .nil)] := by
  let writing : Writing :=
    { front := { text := [], isFiller := .nil }, separated := [], last := some lexeme }
  have isText : writing.text = lexeme.text := by simp [writing, Writing.text]
  obtain ⟨noErrors, spells⟩ := writing.reads
  rw [isText] at noErrors spells
  refine ⟨noErrors, ?_⟩
  have alone : List.Forall₂ Spells [⟨lexeme.kind, String.ofList lexeme.text, value, 1⟩] [lexeme] :=
    .cons ⟨rfl, rfl, valued⟩ .nil
  rw [tokens_ofSource, List.map_append, map_content_eq alone spells]
  rfl

/-- Every token before the end of a source spells a lexeme. -/
theorem exists_spells
    (source : List Char) :
    ∀ token ∈ tokensBeforeEnd source, ∃ lexeme, Spells token lexeme := by
  obtain ⟨segments, partition, _⟩ := exists_partition_segmentsFrom 1 [] source
  obtain ⟨lexemes, spells⟩ := partition.exists_lexemes 1
  rw [← partition.segments_eq] at spells
  exact exists_spells_of_mem spells

/-- Every token of a source carries the value of its text. -/
theorem ofLexeme_of_mem_tokens
    {source : List Char}
    {token : Token}
    (isToken : token ∈ (Lexing.ofSource source).tokens) :
    Literal.ofLexeme token.kind token.lexeme = .ok token.literal := by
  rw [tokens_ofSource, List.mem_append, List.mem_singleton] at isToken
  rcases isToken with isInner | rfl
  · obtain ⟨lexeme, spells⟩ := exists_spells source token isInner
    rw [spells.sameKind, spells.sameText]
    exact spells.valued
  · rfl

/-- Every token of a source but its end has a lexeme as its text. -/
theorem isLexeme_of_mem_tokens
    {source : List Char}
    {token : Token}
    (isToken : token ∈ (Lexing.ofSource source).tokens)
    (notEnd : token.kind ≠ .endOfInput) :
    IsLexeme token.kind token.lexeme.toList := by
  rw [tokens_ofSource, List.mem_append, List.mem_singleton] at isToken
  rcases isToken with isInner | rfl
  · obtain ⟨lexeme, spells⟩ := exists_spells source token isInner
    rw [spells.sameKind, spells.sameText, String.toList_ofList]
    exact lexeme.isLexeme
  · exact absurd rfl notEnd

/-- The first content of the tokens of a source is that of one of them. -/
theorem exists_token_of_content
    {source : List Char}
    {kind : Kind}
    {text : String}
    {value : Value}
    {others : List (Kind × String × Value)}
    (contents : (Lexing.ofSource source).tokens.map content = (kind, text, value) :: others) :
    ∃ token ∈ (Lexing.ofSource source).tokens,
      token.kind = kind ∧ token.lexeme = text ∧ token.literal = value := by
  have isContent : (kind, text, value) ∈ (Lexing.ofSource source).tokens.map content := by
    rw [contents]
    exact List.mem_cons_self
  obtain ⟨token, isToken, same⟩ := List.mem_map.mp isContent
  cases same
  exact ⟨token, isToken, rfl, rfl, rfl⟩

/-- A segment of a partition may stand before some rest. -/
theorem Partition.exists_firstSegment
    {source : List Char}
    {segments : List Segment}
    (partition : Partition source segments) :
    ∀ segment ∈ segments, ∃ rest, FirstSegment segment rest := by
  induction partition with
  | nil =>
      simp
  | cons first _ inductionHypothesis =>
      rw [List.forall_mem_cons]
      exact ⟨⟨_, first⟩, inductionHypothesis⟩

/-- A faulty segment that is a number is beyond all doubles. -/
theorem outOfRange_of_numberRole
    {text : List Char}
    {rounded : Option Float}
    {fault : LexicalFault}
    (segment : Segment.ofLiteral .number text = { text, role := numberRole text rounded })
    (isFault : numberRole text rounded = .fault fault) :
    ∃ lexeme,
      fault = .badLiteral (.outOfRange lexeme) ∧
        Literal.ofLexeme .number lexeme = .error (.outOfRange lexeme) := by
  cases rounded with
  | some number => cases isFault
  | none =>
      cases isFault
      refine ⟨String.ofList text, rfl, ?_⟩
      have role := congrArg Segment.role segment
      simp only [Segment.ofLiteral, numberRole] at role
      generalize Literal.ofLexeme .number (String.ofList text) = valued at role ⊢
      cases valued with
      | ok value => cases role
      | error found =>
          cases role
          rfl

/-- What makes a segment faulty: it ends too early, begins nothing, or is a number too large. -/
theorem FirstSegment.fault_cases
    {segment : Segment}
    {rest : List Char}
    {fault : LexicalFault}
    (first : FirstSegment segment rest)
    (isFault : segment.role = .fault fault) :
    fault ∈ [.unexpectedCharacter, .unterminatedString, .unterminatedComment] ∨
      ∃ lexeme,
        fault = .badLiteral (.outOfRange lexeme) ∧
          Literal.ofLexeme .number lexeme = .error (.outOfRange lexeme) := by
  cases first with
  | wholeNumber whole =>
      dsimp only at isFault
      exact .inr (outOfRange_of_numberRole (ofLiteral_digits whole) isFault)
  | fractionalNumber whole part =>
      dsimp only at isFault
      exact .inr (outOfRange_of_numberRole (ofLiteral_fraction whole part) isFault)
  | _ =>
      cases isFault
      all_goals simp

/-- The lexical errors of a source are faults of its segments. -/
theorem fault_cases_of_mem_errors
    {source : List Char}
    {error : LexicalError}
    (isError : error ∈ (Lexing.ofSource source).errors) :
    error.fault ∈ [.unexpectedCharacter, .unterminatedString, .unterminatedComment] ∨
      ∃ lexeme,
        error.fault = .badLiteral (.outOfRange lexeme) ∧
          Literal.ofLexeme .number lexeme = .error (.outOfRange lexeme) := by
  obtain ⟨segments, partition, _⟩ := exists_partition_segmentsFrom 1 [] source
  rw [Lexing.ofSource, partition.segments_eq] at isError
  obtain ⟨placed, isPlaced, isFound⟩ := List.mem_filterMap.mp isError
  have isSegment : placed.segment ∈ segments := by
    rw [← map_segment_placedFrom 1 segments]
    exact List.mem_map_of_mem isPlaced
  obtain ⟨rest, first⟩ := partition.exists_firstSegment placed.segment isSegment
  refine first.fault_cases ?_
  unfold PlacedSegment.error? at isFound
  split at isFound
  · rename_i role
    cases isFound
    exact role
  all_goals cases isFound

/-- Only strings and numbers have a value. -/
theorem literal_eq_nil
    {kind : Kind}
    {text : String}
    {value : Value}
    (valued : Literal.ofLexeme kind text = .ok value)
    (notString : kind ≠ .string)
    (notNumber : kind ≠ .number) :
    value = .nil := by
  cases kind with
  | string => exact absurd rfl notString
  | number => exact absurd rfl notNumber
  | _ =>
      cases valued
      rfl

/-- A text that is read as one string is a string between quotes. -/
theorem IsLexeme.ofLexeme_string
    {text : List Char}
    (isLexeme : IsLexeme .string text) :
    Literal.ofLexeme .string (String.ofList text) =
      .ok (.string (String.ofList text.tail.dropLast)) := by
  cases isLexeme with
  | @string body =>
      rw [List.tail_cons, List.dropLast_concat]
      exact roleOf_eq_token_iff.mp (congrArg Segment.role (ofLiteral_string body))

end Lexical

open Lexical

/--
Literals are read alike alone and in a source.  A text has a value as a number exactly
when it is one or two runs of digits in range, and exactly then it is read as that one
number; a text that is read as one string has what stands between its quotes as its
value.  Every token of a source carries the value of its text, tokens other than strings
and numbers carry none, and of the faults that a text may have as a literal only that it
is beyond all doubles comes up in a source.
-/
theorem Lexing.literals_agree :
    (∀ text : String,
      ((∃ value, Literal.ofLexeme .number text = .ok value) ↔ IsLexeme .number text.toList) ∧
        ∀ value,
          Literal.ofLexeme .number text = .ok value ↔
            (ofSource text.toList).errors = [] ∧
              (ofSource text.toList).tokens.map content =
                [(.number, text, value), (.endOfInput, "", .nil)]) ∧
      (∀ (text : String) (value : Value),
        (ofSource text.toList).tokens.map content =
            [(.string, text, value), (.endOfInput, "", .nil)] →
          Literal.ofLexeme .string text =
            .ok (.string (String.ofList text.toList.tail.dropLast))) ∧
        ∀ source : List Char,
          (∀ token ∈ (ofSource source).tokens,
            if token.kind = .string ∨ token.kind = .number then
              Literal.ofLexeme token.kind token.lexeme = .ok token.literal
            else
              token.literal = .nil) ∧
            ∀ error ∈ (ofSource source).errors,
              error.fault.message ∈
                  ["Unexpected character.", "Unterminated string.", "Unterminated block comment."] ∨
                ∃ lexeme,
                  error.fault = .badLiteral (.outOfRange lexeme) ∧
                    Literal.ofLexeme .number lexeme = .error (.outOfRange lexeme) := by
  refine ⟨fun text => ⟨?_, fun value => ?_⟩, fun text value alone => ?_, fun source => ⟨?_, ?_⟩⟩
  · constructor
    · rintro ⟨value, valued⟩
      exact isLexeme_of_ofLexeme_number valued
    · intro isLexeme
      obtain ⟨value, valued, _⟩ := isLexeme.exists_firstSegment blankFollows_nil
      exact ⟨value, by rwa [String.ofList_toList] at valued⟩
  · constructor
    · intro valued
      let lexeme : Lexeme := ⟨.number, text.toList, isLexeme_of_ofLexeme_number valued⟩
      have ownValue :
          Literal.ofLexeme lexeme.kind (String.ofList lexeme.text) = .ok value := by
        rwa [String.ofList_toList]
      have alone := lexeme.reads ownValue
      rwa [String.ofList_toList] at alone
    · rintro ⟨_, alone⟩
      obtain ⟨token, isToken, isNumber, rfl, rfl⟩ := exists_token_of_content alone
      rw [← isNumber]
      exact ofLexeme_of_mem_tokens isToken
  · obtain ⟨token, isToken, isString, rfl, rfl⟩ := exists_token_of_content alone
    have isLexeme := isLexeme_of_mem_tokens isToken (by simp [isString])
    rw [isString] at isLexeme
    simpa using isLexeme.ofLexeme_string
  · intro token isToken
    have valued := ofLexeme_of_mem_tokens isToken
    split
    · exact valued
    · rename_i isOther
      rw [not_or] at isOther
      exact literal_eq_nil valued isOther.1 isOther.2
  · intro error isError
    refine (fault_cases_of_mem_errors isError).imp_left fun isListed => ?_
    exact List.mem_map_of_mem (f := LexicalFault.message) isListed

/-- A string that holds the sign of a comment is one token, whose value is what it holds. -/
theorem Lexing.literals_agree_slashes :
    (ofSource "\"a//\"".toList).tokens.map content =
        [(.string, "\"a//\"", .string "a//"), (.endOfInput, "", .nil)] ∧
      Literal.ofLexeme .string "\"a//\"" = .ok (.string "a//") := by
  have alone :
      (ofSource "\"a//\"".toList).tokens.map content =
        [(.string, "\"a//\"", .string "a//"), (.endOfInput, "", .nil)] := by
    decide +kernel
  have inner : String.ofList "\"a//\"".toList.tail.dropLast = "a//" := by decide +kernel
  refine ⟨alone, ?_⟩
  rw [literals_agree.2.1 _ _ alone, inner]

end BlockScript
