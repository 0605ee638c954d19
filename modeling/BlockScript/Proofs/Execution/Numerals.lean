import BlockScript.Reading.Program
import BlockScript.Execution.Evaluation
import BlockScript.Proofs.Decimal.Printing

namespace BlockScript

/-!
# Printed numbers are programs

The text of a finite number with a semicolon behind it is a program of one expression, and
the expression has the number as its value wherever it is evaluated.  A minus sign in front
is a token of its own: the number behind it is read without a sign and then negated.
-/

/-- The segment that a token is cut from. -/
def Token.segment
    (token : Token) :
    Segment where
  text :=
    token.lexeme.toList
  role :=
    .token token.kind token.literal

namespace Lexical

/-- The tokens of segments that hold no line feed stay on the first line. -/
theorem tokens_placedFrom_segments
    {tokens : List Token}
    (firstLine : ∀ token ∈ tokens, token.line = 1)
    (noLineFeed : ∀ token ∈ tokens, '\n' ∉ token.lexeme.toList) :
    (placedFrom 1 (tokens.map Token.segment)).filterMap PlacedSegment.token? = tokens := by
  induction tokens with
  | nil =>
      rfl
  | cons token tokens inductionHypothesis =>
      rw [List.forall_mem_cons] at firstLine noLineFeed
      have sameLine : 1 + Source.lineFeeds token.segment.text = 1 := by
        rw [Source.lineFeeds, Token.segment, List.count_eq_zero_of_not_mem noLineFeed.1]
      have isToken : PlacedSegment.token? { segment := token.segment, line := 1 } = some token := by
        simp [PlacedSegment.token?, Token.segment, ← firstLine.1]
      rw [List.map_cons, placedFrom, sameLine, List.filterMap_cons_some isToken,
        inductionHypothesis firstLine.2 noLineFeed.2]

/-- The end of a source of one line. -/
def endOfLine : Token where
  kind := .endOfInput
  lexeme := ""
  literal := .nil
  line := 1

/-- A source of one line that is cut into the given tokens is read as these tokens. -/
theorem ofSource_of_partition
    {source : List Char}
    {tokens : List Token}
    (partition : Partition source (tokens.map Token.segment))
    (firstLine : ∀ token ∈ tokens, token.line = 1)
    (noLineFeed : '\n' ∉ source) :
    Lexing.ofSource source = { tokens := tokens ++ [endOfLine], errors := [] } := by
  have inTokens : ∀ token ∈ tokens, '\n' ∉ token.lexeme.toList := by
    intro token isToken isIn
    refine noLineFeed ?_
    rw [← partition.flatMap_text, List.mem_flatMap]
    exact ⟨token.segment, List.mem_map_of_mem isToken, isIn⟩
  have noErrors :
      (placedFrom 1 (tokens.map Token.segment)).filterMap PlacedSegment.error? = [] := by
    rw [errors_placedFrom_eq_nil_iff, List.forall_mem_map]
    intro token _ fault isFault
    cases isFault
  have ending : Source.endToken source = endOfLine := by
    rw [Source.endToken, Source.lineFeeds, List.count_eq_zero_of_not_mem noLineFeed]
    rfl
  rw [Lexing.ofSource, partition.segments_eq, tokens_placedFrom_segments firstLine inTokens,
    noErrors, ending]

/-- A written number on the first line. -/
def numberToken
    (text : List Char)
    (number : Float) :
    Token where
  kind := .number
  lexeme := String.ofList text
  literal := .number number
  line := 1

/-- A mark on the first line. -/
def markToken
    (sign : Mark) :
    Token where
  kind := .mark sign
  lexeme := sign.spelling
  literal := .nil
  line := 1

section Written

variable
  {text : List Char}
  {read : Decimal}
  {number : Float}
  (denotes : Denotes text read)
  (rounded : read.toFloat? = some number)

include denotes rounded

/-- A written number alone is read as one token. -/
theorem Denotes.reads :
    Lexing.ofSource text = { tokens := [numberToken text number, endOfLine], errors := [] } := by
  have first : FirstSegment { text, role := .token .number (.number number) } [] :=
    denotes.firstSegment rounded (by simp)
  have partition : Partition text ([numberToken text number].map Token.segment) := by
    simpa [Token.segment, numberToken] using Partition.nil.cons first
  exact ofSource_of_partition partition (by simp [numberToken]) denotes.noLineFeed

/-- A written number before a semicolon is cut as two segments. -/
theorem Denotes.partition_semicolon :
    Partition (text ++ [';'])
      ([numberToken text number, markToken .semicolon].map Token.segment) := by
  have first : FirstSegment { text, role := .token .number (.number number) } [';'] :=
    denotes.firstSegment rounded (by simp; decide)
  have last : FirstSegment (Token.segment (markToken .semicolon)) [] := .mark (by simp [StopsAt])
  have behind : Partition [';'] [Token.segment (markToken .semicolon)] := Partition.nil.cons last
  simpa [Token.segment, numberToken] using behind.cons first

/-- A written number before a semicolon is read as two tokens. -/
theorem Denotes.reads_semicolon :
    Lexing.ofSource (text ++ [';']) =
      { tokens := [numberToken text number, markToken .semicolon, endOfLine], errors := [] } :=
  ofSource_of_partition (denotes.partition_semicolon rounded) (by simp [numberToken, markToken])
    (by simp [denotes.noLineFeed])

/-- A minus sign in front of a written number is read as a token of its own. -/
theorem Denotes.reads_minus :
    Lexing.ofSource ('-' :: text ++ [';']) =
      { tokens :=
          [markToken .minus, numberToken text number, markToken .semicolon, endOfLine]
        errors := [] } := by
  have first : FirstSegment (Token.segment (markToken .minus)) (text ++ [';']) :=
    .mark (by simp [StopsAt, continuations])
  have partition :
      Partition ('-' :: text ++ [';'])
        ([markToken .minus, numberToken text number, markToken .semicolon].map Token.segment) :=
    (denotes.partition_semicolon rounded).cons first
  exact ofSource_of_partition partition (by simp [numberToken, markToken])
    (by simp [denotes.noLineFeed])

end Written

end Lexical

open Lexical

/--
A finite number reads back as it is printed.  Its text with a semicolon behind it is read
without errors as a program of one expression, whose value is the number in every chain of
scopes, which it leaves as they are; and the text of a number without a sign is read as one
token that carries the number.
-/
theorem Value.text_number_reads_back
    {number : Float}
    (finite : number.isFinite = true) :
    (∃ expr : Expr,
      (Lexing.ofSource (text (.number number) ++ ";").toList).errors = [] ∧
        Program.ofTokens (Lexing.ofSource (text (.number number) ++ ";").toList).tokens =
            { statements := [.expression expr], errors := [] } ∧
          ∀ {depth : Nat} (chain : Chain depth),
            expr.eval chain = { result := .ok (.number number), chain }) ∧
      (Double.isNegative number = false →
        Lexing.ofSource (text (.number number)).toList =
          { tokens :=
              [{ kind := .number
                 lexeme := text (.number number)
                 literal := .number number
                 line := 1 },
                { kind := .endOfInput, lexeme := "", literal := .nil, line := 1 }]
            errors := [] }) := by
  have below := Double.magnitudeBits_lt_infinityBits finite
  obtain ⟨read, denotes, rounded⟩ := exists_denotes_shortest below
  have written : text (.number number) = _ := Numeral.text_of_lt_infinityBits below
  rw [written]
  -- From here on it only matters what the written magnitude denotes, not how it was chosen.
  generalize (Decimal.shortest (Double.magnitudeBits number)).plainText = magnitude at denotes ⊢
  have semicolon : ";".toList = [';'] := rfl
  cases signed : Double.isNegative number with
  | false =>
      rw [Double.ofMagnitudeBits_magnitudeBits signed] at rounded
      simp only [Bool.false_eq_true, if_false, List.nil_append, String.toList_append,
        String.toList_ofList, semicolon]
      refine ⟨⟨.literal (.number number), ?_⟩, fun _ => denotes.reads rounded⟩
      rw [denotes.reads_semicolon rounded]
      exact ⟨rfl, rfl, fun _ => rfl⟩
  | true =>
      have negated := Double.neg_ofMagnitudeBits_magnitudeBits finite signed
      generalize Double.ofMagnitudeBits (Double.magnitudeBits number) = unsigned at rounded negated
      simp only [if_true, List.singleton_append, String.toList_append, String.toList_ofList,
        semicolon]
      refine ⟨⟨.unary (markToken .minus) .negate (.literal (.number unsigned)), ?_⟩, nofun⟩
      rw [denotes.reads_minus rounded]
      refine ⟨rfl, rfl, fun chain => ?_⟩
      rw [← negated]
      rfl

/-- Negative zero is printed with its sign, and the program so printed gives it back. -/
theorem Value.text_number_reads_back_negativeZero :
    (Float.ofBits 0x8000000000000000).isFinite = true ∧
      text (.number (Float.ofBits 0x8000000000000000)) = "-0" ∧
        ∃ expr : Expr,
          Program.ofTokens
              (Lexing.ofSource
                (text (.number (Float.ofBits 0x8000000000000000)) ++ ";").toList).tokens =
              { statements := [.expression expr], errors := [] } ∧
            (expr.eval (.globals ∅)).result = .ok (.number (Float.ofBits 0x8000000000000000)) := by
  have finite : (Float.ofBits 0x8000000000000000).isFinite = true := by decide +kernel
  obtain ⟨⟨expr, _, isProgram, value⟩, _⟩ := text_number_reads_back finite
  exact ⟨finite, by decide +kernel, expr, isProgram, by rw [value]⟩

end BlockScript
