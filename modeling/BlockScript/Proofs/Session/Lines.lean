import BlockScript.Proofs.Execution.Blaming
import BlockScript.Proofs.Machine.Scanning
import BlockScript.Proofs.Reading.Blaming
import BlockScript.Proofs.Session.Gate

namespace BlockScript

open Source

/-!
# The lines of tokens and diagnostics

A segment of a source is on the line on which it ends: one more than the line feeds
up to its end, whether they stand between tokens, in strings or in comments.  Tokens
and lexical errors have the line of their segment.  Every other error blames a token
of its unit, since a tree keeps only tokens that it was read from, so that each
diagnostic of a unit has a line of the unit.
-/

/-- The line that a diagnostic names. -/
def Diagnostic.line? : Diagnostic → Option Int
  | .lexical line _ => some line
  | .grammar token _ => some token.line
  | .runtime token _ => some token.line
  | .plain _ => none
  | .wrapped _ inner => inner.line?

namespace Source

/--
What was read of a source belongs to consecutive segments of it, each on the line on
which it ends, and the end of the source is on the last line.
-/
structure HasExactLines
    (source : List Char)
    (placed : List PlacedSegment)
    (lexing : Lexing) :
    Prop where
  partition : Lexical.Partition source (placed.map PlacedSegment.segment)
  line :
    ∀ earlier found later, placed = earlier ++ found :: later →
      found.line = 1 + lineFeeds ((earlier ++ [found]).flatMap fun other => other.segment.text)
  tokens :
    lexing.tokens =
      placed.filterMap PlacedSegment.token? ++
        [{ kind := .endOfInput, lexeme := "", literal := .nil, line := 1 + lineFeeds source }]
  errors : lexing.errors = placed.filterMap PlacedSegment.error?

/-- Segments placed one after the other are each on the line on which they end. -/
theorem line_of_placedFrom
    {line : Nat}
    {segments : List Segment}
    {earlier later : List PlacedSegment}
    {found : PlacedSegment}
    (split : Lexical.placedFrom line segments = earlier ++ found :: later) :
    found.line =
      line + lineFeeds ((earlier ++ [found]).flatMap fun other => other.segment.text) := by
  induction earlier generalizing line segments with
  | nil =>
      cases segments with
      | nil => cases split
      | cons segment segments =>
          cases split
          simp
  | cons first earlier inductionHypothesis =>
      cases segments with
      | nil => cases split
      | cons segment segments =>
          rw [Lexical.placedFrom, List.cons_append, List.cons_eq_cons] at split
          obtain ⟨rfl, behind⟩ := split
          rw [inductionHypothesis behind]
          simp only [lineFeeds, List.cons_append, List.flatMap_cons, List.count_append]
          omega

/-- The lines of every source are exact. -/
theorem hasExactLines_segments
    (source : List Char) :
    HasExactLines source (segments source) (Lexing.ofSource source) := by
  obtain ⟨own, partition, _⟩ := Lexical.exists_partition_segmentsFrom 1 [] source
  have placed : segments source = Lexical.placedFrom 1 own := partition.segments_eq
  refine ⟨?_, ?_, rfl, rfl⟩
  · rw [placed, Lexical.map_segment_placedFrom]
    exact partition
  · intro earlier found later split
    rw [placed] at split
    exact line_of_placedFrom split

-- A string and a block comment count their line feeds, and a line comment has none of its own.
example :
    (Lexing.ofSource "a /*\n*/ \"\n\" // b\nc".toList).tokens.map Token.line = [1, 3, 4, 4] := by
  decide +kernel

/-- A line of a source. -/
def HasLine
    (source : List Char)
    (line : Int) :
    Prop :=
  1 ≤ line ∧ line ≤ 1 + lineFeeds source

namespace HasExactLines

variable {source : List Char} {placed : List PlacedSegment} {lexing : Lexing}

/-- A segment is on a line of its source. -/
theorem hasLine_of_mem
    (lines : HasExactLines source placed lexing)
    {found : PlacedSegment}
    (isPlaced : found ∈ placed) :
    HasLine source found.line := by
  obtain ⟨earlier, later, split⟩ := List.append_of_mem isPlaced
  have onLine := lines.line earlier found later split
  have covers := lines.partition.flatMap_text
  rw [split] at covers
  have upToEnd :
      (earlier ++ [found]).flatMap (fun other => other.segment.text) <+: source := by
    rw [← covers]
    exact ⟨later.flatMap fun other => other.segment.text, by simp [List.flatMap_map]⟩
  have fewer :
      lineFeeds ((earlier ++ [found]).flatMap fun other => other.segment.text) ≤
        lineFeeds source :=
    upToEnd.sublist.count_le '\n'
  unfold HasLine
  omega

/-- A lexical error is on a line of its source. -/
theorem hasLine_of_mem_errors
    (lines : HasExactLines source placed lexing)
    {error : LexicalError}
    (isError : error ∈ lexing.errors) :
    HasLine source error.line := by
  rw [lines.errors] at isError
  obtain ⟨found, isPlaced, isFault⟩ := List.mem_filterMap.mp isError
  have same : error.line = found.line := by
    unfold PlacedSegment.error? at isFault
    split at isFault <;> cases isFault
    rfl
  rw [same]
  exact lines.hasLine_of_mem isPlaced

/-- A token is on a line of its source. -/
theorem hasLine_of_mem_tokens
    (lines : HasExactLines source placed lexing)
    {token : Token}
    (isToken : token ∈ lexing.tokens) :
    HasLine source token.line := by
  rw [lines.tokens] at isToken
  rcases List.mem_append.mp isToken with isInner | isEnd
  · obtain ⟨found, isPlaced, isFound⟩ := List.mem_filterMap.mp isInner
    have same : token.line = found.line := by
      unfold PlacedSegment.token? at isFound
      split at isFound <;> cases isFound
      rfl
    rw [same]
    exact lines.hasLine_of_mem isPlaced
  · rw [List.mem_singleton.mp isEnd]
    unfold HasLine
    dsimp only
    omega

end HasExactLines

variable {source : List Char}

/-- What reading a source reports is on a line of it. -/
theorem hasLine_of_mem_diagnostics
    {diagnostic : Diagnostic}
    (isReported : diagnostic ∈ Source.diagnostics source) :
    ∃ line, diagnostic.line? = some line ∧ HasLine source line := by
  have lines := hasExactLines_segments source
  rcases List.mem_append.mp isReported with isLexical | isGrammar
  · obtain ⟨error, isError, rfl⟩ := List.mem_map.mp isLexical
    exact ⟨error.line, rfl, lines.hasLine_of_mem_errors isError⟩
  · obtain ⟨error, isError, rfl⟩ := List.mem_map.mp isGrammar
    have isLast : (Lexing.ofSource source).tokens.getLast? = some (endToken source) := by
      simp [tokens_ofSource]
    have isToken := Grammar.mem_of_mem_errors isLast rfl isError
    exact ⟨error.token.line, rfl, lines.hasLine_of_mem_tokens isToken⟩

/-- Executing a clean source blames tokens on a line of it. -/
theorem IsClean.hasLine_of_executes
    {policy : Policy}
    {globals after : Scope}
    {execution : Execution}
    {error : RuntimeError}
    (clean : IsClean source)
    (runs : Executes policy globals (statements source) execution after)
    (fails : execution.error? = some error) :
    HasLine source error.token.line := by
  have onLine : ∀ token ∈ tokensBeforeEnd source, HasLine source token.line := by
    intro token isToken
    refine (hasExactLines_segments source).hasLine_of_mem_tokens ?_
    rw [tokens_ofSource]
    exact List.mem_append_left _ isToken
  have keeps : Stmt.KeepsOnlyAll (fun token => HasLine source token.line) (statements source) :=
    clean.phrase.keepsOnly onLine
  have blames := keeps.execProgram policy { chain := .globals globals, lines := [] }
  rw [runs] at blames
  unfold Execution.error? at fails
  cases ends : execution.outcome with
  | failed failure =>
      rw [ends] at fails blames
      cases fails
      exact blames
  | _ =>
      rw [ends] at fails
      cases fails

end Source

namespace Session

/-- Every diagnostic of a unit is on a line of the unit. -/
theorem hasLine_of_mem_run
    {policy : Policy}
    {session : Session}
    {source : List Char}
    {diagnostic : Diagnostic}
    (isReported : diagnostic ∈ (session.run policy source).1.diagnostics) :
    ∃ line, diagnostic.line? = some line ∧ HasLine source line := by
  cases gate : (session.log.reportAll (Source.diagnostics source)).hadError with
  | true =>
      rw [run_of_hadError policy gate, diagnostics_ofExecution] at isReported
      rcases List.mem_append.mp isReported with isRead | isRun
      · exact hasLine_of_mem_diagnostics isRead
      · cases isRun
  | false =>
      obtain ⟨execution, after, runs⟩ :=
        exists_executes policy session.globals (Source.statements source)
      have clean : IsClean source := by
        by_contra unclean
        have gated := (hadError_reportAll_diagnostics_iff session.log source).mpr (.inr unclean)
        rw [gate] at gated
        cases gated
      rw [run_of_executes gate runs, diagnostics_ofExecution] at isReported
      rcases List.mem_append.mp isReported with isRead | isRun
      · exact hasLine_of_mem_diagnostics isRead
      · obtain ⟨error, fails, rfl⟩ := List.mem_map.mp isRun
        exact ⟨error.token.line, rfl,
          clean.hasLine_of_executes runs (Option.mem_toList.mp fails)⟩

/--
Line numbers are exact.  What is read of any source belongs to segments of it that are
each on the line on which they end, with the end of the source on the last line, and the
machine finds it by counting as it moves; whatever was run before, each diagnostic of a
unit names a line of the unit.
-/
theorem lines_are_exact
    (source : List Char) :
    (∃ placed, HasExactLines source placed (Lexing.ofSource source)) ∧
      Machine.Gives (Machine.lex source) (Lexing.ofSource source) ∧
        ∀ (policy : Policy) (session : Session),
          ∀ diagnostic ∈ (session.run policy source).1.diagnostics,
            ∃ line, diagnostic.line? = some line ∧ 1 ≤ line ∧ line ≤ 1 + lineFeeds source := by
  refine ⟨⟨segments source, hasExactLines_segments source⟩, Machine.gives_lex source, ?_⟩
  intro policy session diagnostic isReported
  exact hasLine_of_mem_run isReported

end Session

end BlockScript
