import BlockScript.Proofs.Source.MaximalMunch

namespace BlockScript

open Lexical

/-!
# Joining sources with a line feed

No segment that has its own end reaches across a line feed that follows a source,
whether it is faulty or not.  The tokens and errors of two sources with a line
feed between them are therefore those of the first source and those of the second,
further down by the lines of the first.
-/

/-- A token further down. -/
def Token.shifted
    (lines : Nat)
    (token : Token) :
    Token :=
  { token with line := token.line + lines }

/-- A lexical error further down. -/
def LexicalError.shifted
    (lines : Nat)
    (error : LexicalError) :
    LexicalError :=
  { error with line := error.line + lines }

/-- A segment placed further down. -/
def PlacedSegment.shifted
    (lines : Nat)
    (placed : PlacedSegment) :
    PlacedSegment :=
  { placed with line := placed.line + lines }

/-- The token of a segment is further down with its segment. -/
theorem PlacedSegment.token?_shifted
    (lines : Nat)
    (placed : PlacedSegment) :
    (placed.shifted lines).token? = placed.token?.map (Token.shifted lines) := by
  obtain ⟨⟨text, role⟩, line⟩ := placed
  cases role <;> simp [shifted, token?, Token.shifted]

/-- The error of a segment is further down with its segment. -/
theorem PlacedSegment.error?_shifted
    (lines : Nat)
    (placed : PlacedSegment) :
    (placed.shifted lines).error? = placed.error?.map (LexicalError.shifted lines) := by
  obtain ⟨⟨text, role⟩, line⟩ := placed
  cases role <;> simp [shifted, error?, LexicalError.shifted]

/-- Whether a fault is that the source ended before the segment did. -/
def LexicalFault.isUnterminated : LexicalFault → Bool
  | .unterminatedString => true
  | .unterminatedComment => true
  | _ => false

/-- A segment that ended before its source or with it. -/
def Segment.IsTerminated
    (segment : Segment) :
    Prop :=
  ∀ fault, segment.role = .fault fault → fault.isUnterminated = false

namespace Lexical

/-- What stops a text that a line feed does not go on with stops it before a line feed. -/
theorem StopsAt.append_lineFeed
    {property : Char → Bool}
    {rest : List Char}
    (stops : StopsAt property rest)
    (notFeed : property '\n' = false)
    (following : List Char) :
    StopsAt property (rest ++ '\n' :: following) := by
  intro c isFirst
  cases rest with
  | nil =>
      cases isFirst
      exact notFeed
  | cons first others =>
      cases isFirst
      exact stops c rfl

/-- A segment that has its own end may stand where a line feed and more follow. -/
theorem FirstSegment.append_lineFeed
    {segment : Segment}
    {rest : List Char}
    (first : FirstSegment segment rest)
    (terminated : segment.IsTerminated)
    (following : List Char) :
    FirstSegment segment (rest ++ '\n' :: following) := by
  cases first with
  | blank listed => exact .blank listed
  | lineComment inLine ends =>
      refine .lineComment inLine (.inr ?_)
      rcases ends with rfl | ⟨others, rfl⟩
      · exact ⟨following, rfl⟩
      · exact ⟨others ++ '\n' :: following, rfl⟩
  | blockComment firstEnd => exact .blockComment firstEnd
  | unterminatedComment => exact Bool.noConfusion (terminated _ rfl)
  | @mark sign _ longest =>
      exact .mark (longest.append_lineFeed (by cases sign <;> rfl) following)
  | string firstQuote => exact .string firstQuote
  | unterminatedString => exact Bool.noConfusion (terminated _ rfl)
  | wholeNumber whole longest noFraction =>
      refine .wholeNumber whole (longest.append_lineFeed rfl following) ?_
      intro others isPoint
      cases rest with
      | nil => cases isPoint
      | cons point rest =>
          cases isPoint
          exact (noFraction rest rfl).append_lineFeed rfl following
  | fractionalNumber whole part longest =>
      exact .fractionalNumber whole part (longest.append_lineFeed rfl following)
  | reservedWord longest =>
      exact .reservedWord (longest.append_lineFeed rfl following)
  | identifier starts goesOn notReserved longest =>
      exact .identifier starts goesOn notReserved (longest.append_lineFeed rfl following)
  | unexpected notBlank notMark notQuote notDigit notName =>
      exact .unexpected notBlank notMark notQuote notDigit notName

/-- The segment of a line feed. -/
def lineFeedSegment : Segment where
  text := ['\n']
  role := .blank

/-- The partition of two sources with a line feed between them. -/
theorem Partition.append_lineFeed
    {source following : List Char}
    {segments others : List Segment}
    (partition : Partition source segments)
    (terminated : ∀ segment ∈ segments, segment.IsTerminated)
    (another : Partition following others) :
    Partition (source ++ '\n' :: following) (segments ++ lineFeedSegment :: others) := by
  induction partition with
  | nil =>
      have feed : FirstSegment lineFeedSegment following := .blank (by simp)
      exact .cons feed another
  | cons first _ inductionHypothesis =>
      rw [List.forall_mem_cons] at terminated
      rw [List.append_assoc]
      exact .cons (first.append_lineFeed terminated.1 following)
        (inductionHypothesis terminated.2)

/-- Segments behind others are placed behind their lines. -/
theorem placedFrom_append
    (line : Nat)
    (segments others : List Segment) :
    placedFrom line (segments ++ others) =
      placedFrom line segments ++
        placedFrom (line + Source.lineFeeds (segments.flatMap Segment.text)) others := by
  induction segments generalizing line with
  | nil =>
      rfl
  | cons segment segments inductionHypothesis =>
      simp [placedFrom, inductionHypothesis, Source.lineFeeds, Nat.add_assoc]

/-- Segments that begin further down are all placed further down. -/
theorem placedFrom_add
    (line lines : Nat)
    (segments : List Segment) :
    placedFrom (line + lines) segments =
      (placedFrom line segments).map (PlacedSegment.shifted lines) := by
  induction segments generalizing line with
  | nil =>
      rfl
  | cons segment segments inductionHypothesis =>
      have ending :
          line + lines + Source.lineFeeds segment.text =
            line + Source.lineFeeds segment.text + lines := by
        omega
      simp only [placedFrom, ending, inductionHypothesis, List.map_cons, PlacedSegment.shifted]

/-- Every segment of a partition is among those placed. -/
theorem map_segment_placedFrom
    (line : Nat)
    (segments : List Segment) :
    (placedFrom line segments).map PlacedSegment.segment = segments := by
  induction segments generalizing line with
  | nil =>
      rfl
  | cons segment segments inductionHypothesis =>
      simp [placedFrom, inductionHypothesis]

/-- There are no lexical errors exactly when no segment is faulty. -/
theorem errors_placedFrom_eq_nil_iff
    {line : Nat}
    {segments : List Segment} :
    (placedFrom line segments).filterMap PlacedSegment.error? = [] ↔
      ∀ segment ∈ segments, ∀ fault, segment.role ≠ .fault fault := by
  induction segments generalizing line with
  | nil =>
      simp [placedFrom]
  | cons segment segments inductionHypothesis =>
      obtain ⟨text, role⟩ := segment
      cases role <;>
        simp [placedFrom, List.filterMap_cons, PlacedSegment.error?, inductionHypothesis]

/-- A written number is never the end of the input. -/
theorem numberRole_ne_endOfInput
    (text : List Char)
    (rounded : Option Float)
    (literal : Value) :
    numberRole text rounded ≠ .token .endOfInput literal := by
  cases rounded <;> simp [numberRole]

/-- No segment is the end of the input. -/
theorem FirstSegment.role_ne_endOfInput
    {segment : Segment}
    {rest : List Char}
    (first : FirstSegment segment rest)
    (literal : Value) :
    segment.role ≠ .token .endOfInput literal := by
  cases first with
  | wholeNumber =>
      dsimp only
      exact numberRole_ne_endOfInput _ _ literal
  | fractionalNumber =>
      dsimp only
      exact numberRole_ne_endOfInput _ _ literal
  | _ => simp

/-- No segment of a partition is the end of the input. -/
theorem Partition.role_ne_endOfInput
    {source : List Char}
    {segments : List Segment}
    (partition : Partition source segments)
    (literal : Value) :
    ∀ segment ∈ segments, segment.role ≠ .token .endOfInput literal := by
  induction partition with
  | nil =>
      simp
  | cons first _ inductionHypothesis =>
      rw [List.forall_mem_cons]
      exact ⟨first.role_ne_endOfInput literal, inductionHypothesis⟩

/-- A token of placed segments is one of these segments. -/
theorem exists_segment_of_mem_tokens
    {line : Nat}
    {segments : List Segment}
    {token : Token}
    (isToken : token ∈ (placedFrom line segments).filterMap PlacedSegment.token?) :
    ∃ segment ∈ segments, segment.role = .token token.kind token.literal := by
  obtain ⟨placed, isPlaced, isFound⟩ := List.mem_filterMap.mp isToken
  refine ⟨placed.segment, ?_, ?_⟩
  · rw [← map_segment_placedFrom line segments]
    exact List.mem_map_of_mem isPlaced
  · unfold PlacedSegment.token? at isFound
    split at isFound <;> cases isFound
    assumption

end Lexical

namespace Source

/-- The tokens of a source before its end. -/
def tokensBeforeEnd
    (source : List Char) :
    List Token :=
  (segments source).filterMap PlacedSegment.token?

/-- The tokens of a source end with its end. -/
theorem tokens_ofSource
    (source : List Char) :
    (Lexing.ofSource source).tokens = tokensBeforeEnd source ++ [endToken source] :=
  rfl

/-- No token before the end of a source is an end. -/
theorem kind_tokensBeforeEnd
    (source : List Char) :
    ∀ token ∈ tokensBeforeEnd source, token.kind ≠ .endOfInput := by
  obtain ⟨segments, partition, _⟩ := exists_partition_segmentsFrom 1 [] source
  intro token isToken isEnd
  rw [tokensBeforeEnd, partition.segments_eq] at isToken
  obtain ⟨segment, isSegment, role⟩ := exists_segment_of_mem_tokens isToken
  rw [isEnd] at role
  exact partition.role_ne_endOfInput token.literal segment isSegment role

/-- Where no error says that the source ended too early, every segment has its own end. -/
theorem isTerminated_of_errors
    {source : List Char}
    (terminated :
      ∀ error ∈ (Lexing.ofSource source).errors, error.fault.isUnterminated = false) :
    ∀ placed ∈ segments source, placed.segment.IsTerminated := by
  intro placed isPlaced fault isFault
  have blamed : placed.error? = some { line := placed.line, fault } := by
    simp only [PlacedSegment.error?, isFault]
  exact terminated _ (List.mem_filterMap.mpr ⟨placed, isPlaced, blamed⟩)

/-- Two sources with a line feed between them have the segments of both. -/
theorem segments_append_lineFeed
    {source : List Char}
    (terminated : ∀ placed ∈ segments source, placed.segment.IsTerminated)
    (following : List Char) :
    segments (source ++ '\n' :: following) =
      segments source ++
        { segment := lineFeedSegment, line := 1 + (lineFeeds source + 1) } ::
          (segments following).map (PlacedSegment.shifted (lineFeeds source + 1)) := by
  obtain ⟨own, partition, _⟩ := exists_partition_segmentsFrom 1 [] source
  obtain ⟨others, another, _⟩ := exists_partition_segmentsFrom 1 [] following
  rw [partition.segments_eq] at terminated
  have ownTerminated : ∀ segment ∈ own, segment.IsTerminated := by
    intro segment isOwn
    rw [← map_segment_placedFrom 1 own] at isOwn
    obtain ⟨placed, isPlaced, rfl⟩ := List.mem_map.mp isOwn
    exact terminated placed isPlaced
  have joined := partition.append_lineFeed ownTerminated another
  have feed :
      placedFrom (1 + lineFeeds source) (lineFeedSegment :: others) =
        { segment := lineFeedSegment, line := 1 + (lineFeeds source + 1) } ::
          placedFrom (1 + (lineFeeds source + 1)) others :=
    rfl
  rw [joined.segments_eq, partition.segments_eq, another.segments_eq, placedFrom_append,
    partition.flatMap_text, feed, placedFrom_add]

section Joined

variable
  {source : List Char}
  (terminated : ∀ placed ∈ segments source, placed.segment.IsTerminated)
  (following : List Char)
include terminated

/-- Two sources with a line feed between them have the tokens of both. -/
theorem tokensBeforeEnd_append_lineFeed :
    tokensBeforeEnd (source ++ '\n' :: following) =
      tokensBeforeEnd source ++
        (tokensBeforeEnd following).map (Token.shifted (lineFeeds source + 1)) := by
  rw [tokensBeforeEnd, segments_append_lineFeed terminated, List.filterMap_append,
    List.filterMap_cons_none rfl]
  simp only [tokensBeforeEnd, List.filterMap_map, List.map_filterMap, Function.comp_def,
    PlacedSegment.token?_shifted]

/-- Two sources with a line feed between them have the errors of both. -/
theorem errors_append_lineFeed :
    (Lexing.ofSource (source ++ '\n' :: following)).errors =
      (Lexing.ofSource source).errors ++
        (Lexing.ofSource following).errors.map (LexicalError.shifted (lineFeeds source + 1)) := by
  change (segments (source ++ '\n' :: following)).filterMap PlacedSegment.error? = _
  rw [segments_append_lineFeed terminated, List.filterMap_append, List.filterMap_cons_none rfl]
  simp only [Lexing.ofSource, List.filterMap_map, List.map_filterMap, Function.comp_def,
    PlacedSegment.error?_shifted]

end Joined

/-- Two sources with a line feed between them have the tokens of both, and no new errors. -/
theorem lexing_append_lineFeed
    {source following : List Char}
    (sound : (Lexing.ofSource source).errors = [])
    (followingSound : (Lexing.ofSource following).errors = []) :
    tokensBeforeEnd (source ++ '\n' :: following) =
        tokensBeforeEnd source ++
          (tokensBeforeEnd following).map (Token.shifted (lineFeeds source + 1)) ∧
      (Lexing.ofSource (source ++ '\n' :: following)).errors = [] := by
  have terminated : ∀ placed ∈ segments source, placed.segment.IsTerminated := by
    apply isTerminated_of_errors
    rw [sound]
    exact nofun
  refine ⟨tokensBeforeEnd_append_lineFeed terminated following, ?_⟩
  rw [errors_append_lineFeed terminated, sound, followingSound]
  rfl

/-- The end of the second of two sources is further down by the lines of the first. -/
theorem endToken_append_lineFeed
    (source following : List Char) :
    endToken (source ++ '\n' :: following) =
      (endToken following).shifted (lineFeeds source + 1) := by
  simp only [endToken, Token.shifted, lineFeeds, List.count_append, List.count_cons_self,
    Token.mk.injEq, true_and]
  omega

/--
Reading distributes over a line feed.  Unless the first of two sources ends inside a
string or a block comment, the tokens of both with a line feed between them are those
of the first without its end and those of the second, and the errors are those of the
first and those of the second; what belongs to the second is further down by the line
feeds before it.
-/
theorem lexing_distributes_over_lineFeed
    {source : List Char}
    (terminated :
      ∀ error ∈ (Lexing.ofSource source).errors,
        error.fault ≠ .unterminatedString ∧ error.fault ≠ .unterminatedComment)
    (following : List Char) :
    Lexing.ofSource (source ++ '\n' :: following) =
      { tokens :=
          (Lexing.ofSource source).tokens.dropLast ++
            (Lexing.ofSource following).tokens.map (Token.shifted (lineFeeds source + 1))
        errors :=
          (Lexing.ofSource source).errors ++
            (Lexing.ofSource following).errors.map
              (LexicalError.shifted (lineFeeds source + 1)) } := by
  have ends :
      ∀ error ∈ (Lexing.ofSource source).errors, error.fault.isUnterminated = false := by
    intro error isError
    obtain ⟨notString, notComment⟩ := terminated error isError
    unfold LexicalFault.isUnterminated
    split
    · exact absurd ‹_› notString
    · exact absurd ‹_› notComment
    · rfl
  have ownEnds := isTerminated_of_errors ends
  have tokens :
      (Lexing.ofSource (source ++ '\n' :: following)).tokens =
        (Lexing.ofSource source).tokens.dropLast ++
          (Lexing.ofSource following).tokens.map (Token.shifted (lineFeeds source + 1)) := by
    simp only [tokens_ofSource, tokensBeforeEnd_append_lineFeed ownEnds, endToken_append_lineFeed,
      List.dropLast_concat, List.map_append, List.map_cons, List.map_nil, List.append_assoc]
  have errors := errors_append_lineFeed ownEnds following
  exact congr (congrArg Lexing.mk tokens) errors

/-- A string over two lines, a faulty character, a comment, and a sign that could be longer. -/
def cutShort : List Char :=
  "\"a\nb\" @ // c\n<".toList

/-- The sign stays as it is, though the next line begins with what would make it longer. -/
theorem lexing_distributes_over_lineFeed_cutShort :
    (∀ error ∈ (Lexing.ofSource cutShort).errors,
        error.fault ≠ .unterminatedString ∧ error.fault ≠ .unterminatedComment) ∧
      Lexing.ofSource (cutShort ++ '\n' :: "= \"e".toList) =
        { tokens :=
            [{ kind := .string, lexeme := "\"a\nb\"", literal := .string "a\nb", line := 2 },
              { kind := .mark .less, lexeme := "<", literal := .nil, line := 3 },
              { kind := .mark .equal, lexeme := "=", literal := .nil, line := 4 },
              { kind := .endOfInput, lexeme := "", literal := .nil, line := 4 }]
          errors :=
            [{ line := 2, fault := .unexpectedCharacter },
              { line := 4, fault := .unterminatedString }] } := by
  have terminated :
      ∀ error ∈ (Lexing.ofSource cutShort).errors,
        error.fault ≠ .unterminatedString ∧ error.fault ≠ .unterminatedComment := by
    decide +kernel
  refine ⟨terminated, ?_⟩
  rw [lexing_distributes_over_lineFeed terminated "= \"e".toList]
  decide +kernel

end Source

end BlockScript
