import BlockScript.Proofs.Reading.Preceding
import BlockScript.Proofs.Reading.Language
import Mathlib.Data.List.TakeWhile

namespace BlockScript

open Grammar

/-!
# Statement boundaries

A reader rests when it is outside every block, clause and statement.  It does so
behind a program that holds no error, and also behind a semicolon when no block
and no header of a counting loop has begun: a semicolon either ends what is
being read or is blamed, and a blamed semicolon ends the recovery at once.  What
follows is then read as a program of its own.
-/

namespace Reader

/-- Nothing has begun that has not ended. -/
structure Rests
    (reader : Reader) :
    Prop where
  outer : reader.outer = []
  clauses : reader.clauses = []
  mode : reader.mode = .declaration

/-- A reader that rests is one that has just begun, behind what it has read. -/
theorem Rests.eq_start_after
    {reader : Reader}
    (rests : reader.Rests) :
    reader = start.after reader.program := by
  obtain ⟨errors, outer, done, clauses, mode⟩ := reader
  obtain ⟨rfl, rfl, rfl⟩ := rests
  simp [start, after, program, kept, outerAfter, doneAfter]

/-- At the end of the input a reader that rests gives what it has read. -/
theorem Rests.finish_eq
    {reader : Reader}
    (rests : reader.Rests)
    (ending : Token) :
    reader.finish ending = reader.program := by
  have ended : reader.endStatement ending = reader := by
    simp [endStatement, rests.mode]
  simp only [finish, ended, rests.outer, List.length_nil, List.replicate_zero, List.nil_append]
  rw [← rests.outer]

/-- Behind tokens that bring the reader to rest, others are read on their own. -/
theorem ofTokens_append_of_rests
    {first second : List Token}
    {firstEnding ending : Token}
    (firstEnds : firstEnding.kind = .endOfInput)
    (ends : ending.kind = .endOfInput)
    (firstInner : ∀ token ∈ first, token.kind ≠ .endOfInput)
    (secondInner : ∀ token ∈ second, token.kind ≠ .endOfInput)
    (notElse : ∀ token ∈ second.head?, token.kind ≠ .keyword .elseWord)
    (rests : (start.feedAll first).settled.Rests) :
    Program.ofTokens (first ++ second ++ [ending]) =
      Program.ofTokens (first ++ [firstEnding]) ++ Program.ofTokens (second ++ [ending]) := by
  have allInner : ∀ token ∈ first ++ second, token.kind ≠ .endOfInput := by
    intro token found
    rcases List.mem_append.mp found with inFirst | inSecond
    · exact firstInner token inFirst
    · exact secondInner token inSecond
  have firstReads :
      Program.ofTokens (first ++ [firstEnding]) = (start.feedAll first).settled.program := by
    rw [Program.ofTokens, read_append firstEnds _ _ firstInner, ← finish_settled,
      rests.finish_eq]
  calc
    Program.ofTokens (first ++ second ++ [ending])
        = (((start.feedAll first).feedAll second).settled).finish ending := by
          rw [Program.ofTokens, read_append ends _ _ allInner, feedAll_append, finish_settled]
    _ = ((start.feedAll first).settled.feedAll second).finish ending := by
          rw [← settled_feedAll_settled _ notElse, finish_settled]
    _ = ((start.after (start.feedAll first).settled.program).feedAll second).finish ending := by
          rw [← rests.eq_start_after]
    _ = (start.feedAll first).settled.program ++ (start.feedAll second).finish ending := by
          rw [feedAll_after, finish_after]
    _ = Program.ofTokens (first ++ [firstEnding]) ++ Program.ofTokens (second ++ [ending]) := by
          rw [firstReads, Program.ofTokens, read_append ends _ _ secondInner]

/-- A program without errors brings the reader to rest. -/
theorem rests_of_errors_eq_nil
    {tokens : List Token}
    {ending : Token}
    (ends : ending.kind = .endOfInput)
    (inner : ∀ token ∈ tokens, token.kind ≠ .endOfInput)
    (noErrors : (Program.ofTokens (tokens ++ [ending])).errors = []) :
    (start.feedAll tokens).settled.Rests := by
  have cut : beforeEnd (tokens ++ [ending]) = tokens := by
    have taken :
        tokens.takeWhile (fun token => decide (token.kind ≠ .endOfInput)) = tokens := by
      rw [List.takeWhile_eq_self_iff]
      simpa using inner
    rw [beforeEnd, List.takeWhile_append, taken]
    simp [ends]
  have body := bodyPhrase_of_errors_eq_nil (by simp) ends noErrors
  rw [cut] at body
  rw [body.reads start rfl rfl rfl]
  exact ⟨rfl, rfl, rfl⟩

end Reader

/-- Whether an expression stands outside the header of a counting loop. -/
def Purpose.isPlain : Purpose → Bool
  | .print => true
  | .statement place => place = .alone
  | .initial place _ => place = .alone
  | .ifCondition => true
  | .whileCondition => true
  | .forCondition _ => false
  | .forStep .. => false

/-- Whether what is expected stands outside the header of a counting loop. -/
def Mode.isPlain : Mode → Bool
  | .header begun => begun ≠ .forHeader
  | .name place => place = .alone
  | .afterName place _ => place = .alone
  | .forInitial => false
  | .forCondition _ => false
  | .forStep .. => false
  | .operand purpose _ => purpose.isPlain
  | .operator purpose _ _ => purpose.isPlain
  | _ => true

namespace Reader

/-- Neither a block nor the header of a counting loop has begun. -/
structure IsPlain
    (reader : Reader) :
    Prop where
  outer : reader.outer = []
  mode : reader.mode.isPlain = true
  skips : reader.mode = .skipping → reader.clauses = []

/-- Nothing has begun before the first token. -/
theorem isPlain_start :
    start.IsPlain where
  outer :=
    rfl
  mode :=
    rfl
  skips isSkipping := by
    cases isSkipping

/-- Outside every block no token closes one. -/
theorem closedBy?_of_outer_nil
    (reader : Reader)
    (outside : reader.outer = [])
    (token : Token) :
    reader.closedBy? token = none := by
  unfold closedBy?
  split
  · rename_i block outer _ isOuter
    rw [outside] at isOuter
    cases isOuter
  · rfl

/-- Outside every block a rejected token only drops the statement that was being read. -/
theorem reject_of_outer_nil
    (reader : Reader)
    (outside : reader.outer = [])
    (token : Token)
    (fault : GrammarFault) :
    reader.reject token fault =
      { reader.record { token, fault } with
        clauses := []
        mode := if token.kind = .mark .semicolon then .declaration else .skipping } := by
  have notClosed : (reader.record { token, fault }).closedBy? token = none :=
    closedBy?_of_outer_nil (reader.record { token, fault }) outside token
  simp only [reject, notClosed]

/-- A rejected token begins neither a block nor a header. -/
theorem isPlain_reject
    (reader : Reader)
    (outside : reader.outer = [])
    (token : Token)
    (fault : GrammarFault) :
    (reader.reject token fault).IsPlain := by
  rw [reject_of_outer_nil reader outside]
  refine ⟨outside, ?_, fun _ => rfl⟩
  dsimp only
  split <;> rfl

/-- Completing a statement begins neither a block nor a header. -/
theorem isPlain_completeIn
    (reader : Reader)
    (outside : reader.outer = [])
    (statement : Stmt)
    (clauses : List Clause) :
    (reader.completeIn statement clauses).IsPlain := by
  induction clauses generalizing statement with
  | nil =>
      exact ⟨outside, rfl, fun _ => rfl⟩
  | cons clause outer inductionHypothesis =>
      cases clause with
      | ifThen condition => exact ⟨outside, rfl, by simp [completeIn]⟩
      | _ => exact inductionHypothesis _

/-- A token where an operand is expected begins neither a block nor a header. -/
theorem isPlain_feedOperand
    (reader : Reader)
    (outside : reader.outer = [])
    {purpose : Purpose}
    (plain : purpose.isPlain = true)
    (frames : List Frame)
    (token : Token) :
    (reader.feedOperand purpose frames token).IsPlain := by
  unfold feedOperand
  split
  case h_8 =>
    split
    · exact ⟨outside, plain, by simp⟩
    · exact isPlain_reject reader outside token _
  all_goals exact ⟨outside, plain, by simp⟩

/-- A token behind an expression begins neither a block nor a header. -/
theorem isPlain_feedPurpose
    (reader : Reader)
    (outside : reader.outer = [])
    {purpose : Purpose}
    (plain : purpose.isPlain = true)
    (expr : Expr)
    (token : Token) :
    (reader.feedPurpose expr token purpose).IsPlain := by
  unfold feedPurpose
  split
  case h_1 => exact isPlain_completeIn reader outside _ _
  case h_2 place _ =>
    have alone : place = .alone := by simpa [Purpose.isPlain] using plain
    subst alone
    exact isPlain_completeIn reader outside _ _
  case h_3 place _ _ =>
    have alone : place = .alone := by simpa [Purpose.isPlain] using plain
    subst alone
    exact isPlain_completeIn reader outside _ _
  case h_4 => exact ⟨outside, rfl, by simp [await]⟩
  case h_5 => exact ⟨outside, rfl, by simp [await]⟩
  case h_6 => cases plain
  case h_7 => cases plain
  case h_8 => exact isPlain_reject reader outside token _

/-- A token that ends an expression begins neither a block nor a header. -/
theorem isPlain_feedClosing
    (reader : Reader)
    (outside : reader.outer = [])
    {purpose : Purpose}
    (plain : purpose.isPlain = true)
    (expr : Expr)
    (token : Token)
    (frames : List Frame) :
    (reader.feedClosing purpose expr token frames).IsPlain := by
  unfold feedClosing
  split
  · split
    · exact ⟨outside, plain, by simp⟩
    · exact isPlain_reject reader outside token _
  · split
    · exact ⟨outside, plain, by simp⟩
    · exact isPlain_reject reader outside token _
  · exact isPlain_feedPurpose reader outside plain _ token

/-- A token where an operator is expected begins neither a block nor a header. -/
theorem isPlain_feedOperator
    (reader : Reader)
    (outside : reader.outer = [])
    {purpose : Purpose}
    (plain : purpose.isPlain = true)
    (frames : List Frame)
    (operand : Expr)
    (token : Token) :
    (reader.feedOperator purpose frames operand token).IsPlain := by
  rw [feedOperator_eq, collapseTo]
  unfold afterCollapse
  split
  · exact ⟨outside, plain, by simp [inMode]⟩
  · split
    · exact ⟨outside, plain, by simp [inMode]⟩
    · exact ⟨outside, plain, by simp [inMode]⟩
    · exact isPlain_feedClosing
        { reader with
          errors := (collapse (stopLevel token.kind) reader.errors operand frames).errors }
        outside plain _ token _

/-- The first token of a statement that is neither a block nor a counting loop. -/
theorem isPlain_feedStatement
    (reader : Reader)
    (outside : reader.outer = [])
    {token : Token}
    (notFor : token.kind ≠ .keyword .forWord)
    (notBrace : token.kind ≠ .mark .leftBrace) :
    (reader.feedStatement token).IsPlain := by
  by_cases isBreak : token.kind = .keyword .breakWord
  · rw [feedStatement_break _ isBreak]
    exact ⟨outside, rfl, by simp [inMode]⟩
  · unfold feedStatement
    split
    case h_1 begins => exact (notFor begins).elim
    case h_5 begins => exact (isBreak begins).elim
    case h_6 begins => exact (notBrace begins).elim
    case h_7 => exact isPlain_feedOperand reader outside rfl _ token
    all_goals exact ⟨outside, rfl, by simp⟩

/-- The first token of a declaration that is neither a block nor a counting loop. -/
theorem isPlain_feedDeclaration
    (reader : Reader)
    (outside : reader.outer = [])
    {token : Token}
    (notFor : token.kind ≠ .keyword .forWord)
    (notBrace : token.kind ≠ .mark .leftBrace) :
    (reader.feedDeclaration token).IsPlain := by
  unfold feedDeclaration
  rw [closedBy?_of_outer_nil reader outside]
  dsimp only
  split
  · exact ⟨outside, rfl, by simp⟩
  · exact isPlain_feedStatement reader outside notFor notBrace

/-- Only their own first tokens begin a block or a counting loop. -/
theorem IsPlain.feed
    {reader : Reader}
    (plain : reader.IsPlain)
    {token : Token}
    (notFor : token.kind ≠ .keyword .forWord)
    (notBrace : token.kind ≠ .mark .leftBrace) :
    (reader.feed token).IsPlain := by
  obtain ⟨outside, plainMode, skips⟩ := plain
  unfold Reader.feed
  cases expects : reader.mode with
  | declaration => exact isPlain_feedDeclaration reader outside notFor notBrace
  | statement => exact isPlain_feedStatement reader outside notFor notBrace
  | afterThen condition thenBranch =>
      dsimp only
      split
      · exact ⟨outside, rfl, by simp [await]⟩
      · exact isPlain_feedDeclaration (reader.settle _) outside notFor notBrace
  | header header =>
      dsimp only
      split
      · cases header with
        | ifHeader => exact ⟨outside, rfl, by simp⟩
        | whileHeader => exact ⟨outside, rfl, by simp⟩
        | forHeader => simp [expects, Mode.isPlain] at plainMode
      · exact isPlain_reject reader outside token _
  | name place =>
      dsimp only
      split
      · refine ⟨outside, ?_, by simp⟩
        simpa [expects, Mode.isPlain] using plainMode
      · exact isPlain_reject reader outside token _
  | afterName place name =>
      have alone : place = .alone := by simpa [expects, Mode.isPlain] using plainMode
      subst alone
      dsimp only
      split
      · exact ⟨outside, rfl, by simp⟩
      · exact isPlain_completeIn reader outside _ _
      · exact isPlain_reject reader outside token _
  | leave word =>
      dsimp only
      split
      · exact isPlain_completeIn reader outside _ _
      · exact isPlain_reject reader outside token _
  | operand purpose frames =>
      rw [expects] at plainMode
      exact isPlain_feedOperand reader outside plainMode _ token
  | operator purpose frames operand =>
      rw [expects] at plainMode
      exact isPlain_feedOperator reader outside plainMode _ _ token
  | skipping =>
      dsimp only [feedSkipping]
      rw [closedBy?_of_outer_nil reader outside]
      dsimp only
      split
      · exact isPlain_feedDeclaration reader outside notFor notBrace
      · split
        · exact ⟨outside, rfl, by simp⟩
        · exact ⟨outside, by rw [expects]; rfl, skips⟩
  | forInitial => simp [expects, Mode.isPlain] at plainMode
  | forCondition initial => simp [expects, Mode.isPlain] at plainMode
  | forStep initial condition => simp [expects, Mode.isPlain] at plainMode

/-- Tokens that begin neither a block nor a counting loop. -/
theorem IsPlain.feedAll
    {reader : Reader}
    (plain : reader.IsPlain)
    {tokens : List Token}
    (noLoop : ∀ token ∈ tokens, token.kind ≠ .keyword .forWord)
    (noBlock : ∀ token ∈ tokens, token.kind ≠ .mark .leftBrace) :
    (reader.feedAll tokens).IsPlain := by
  induction tokens generalizing reader with
  | nil =>
      exact plain
  | cons token tokens inductionHypothesis =>
      rw [List.forall_mem_cons] at noLoop noBlock
      exact inductionHypothesis (plain.feed noLoop.1 noBlock.1) noLoop.2 noBlock.2

variable (reader : Reader) {semicolon : Token}

/-- A blamed semicolon brings the reader to rest. -/
theorem rests_reject
    (outside : reader.outer = [])
    (isSemicolon : semicolon.kind = .mark .semicolon)
    (fault : GrammarFault) :
    (reader.reject semicolon fault).settled.Rests := by
  rw [reject_of_outer_nil reader outside]
  simp only [isSemicolon, ↓reduceIte, settled]
  exact ⟨outside, rfl, rfl⟩

/-- A completed statement brings the reader to rest. -/
theorem rests_complete
    (outside : reader.outer = [])
    (statement : Stmt) :
    (reader.complete statement).settled.Rests := by
  rw [settled_complete]
  exact ⟨outside, rfl, rfl⟩

/-- A semicolon is blamed where an operand is expected. -/
theorem rests_feedOperand
    (outside : reader.outer = [])
    (isSemicolon : semicolon.kind = .mark .semicolon)
    (purpose : Purpose)
    (frames : List Frame) :
    (reader.feedOperand purpose frames semicolon).settled.Rests := by
  have blamed :
      reader.feedOperand purpose frames semicolon = reader.reject semicolon .expectExpression := by
    simp [feedOperand, isSemicolon, UnaryOperator.ofKind?]
  rw [blamed]
  exact rests_reject reader outside isSemicolon _

/-- A semicolon is blamed where a statement is expected. -/
theorem rests_feedStatement
    (outside : reader.outer = [])
    (isSemicolon : semicolon.kind = .mark .semicolon) :
    (reader.feedStatement semicolon).settled.Rests := by
  have asOperand :
      reader.feedStatement semicolon = reader.feedOperand (.statement .alone) [] semicolon := by
    simp [feedStatement, isSemicolon]
  rw [asOperand]
  exact rests_feedOperand reader outside isSemicolon _ _

/-- A semicolon is blamed where a declaration is expected. -/
theorem rests_feedDeclaration
    (outside : reader.outer = [])
    (isSemicolon : semicolon.kind = .mark .semicolon) :
    (reader.feedDeclaration semicolon).settled.Rests := by
  have asStatement : reader.feedDeclaration semicolon = reader.feedStatement semicolon := by
    simp [feedDeclaration, closedBy?_of_outer_nil reader outside, isSemicolon]
  rw [asStatement]
  exact rests_feedStatement reader outside isSemicolon

/-- A semicolon ends an expression outside the header of a counting loop, or is blamed. -/
theorem rests_feedPurpose
    (outside : reader.outer = [])
    (isSemicolon : semicolon.kind = .mark .semicolon)
    {purpose : Purpose}
    (plain : purpose.isPlain = true)
    (expr : Expr) :
    (reader.feedPurpose expr semicolon purpose).settled.Rests := by
  cases purpose with
  | print =>
      simp only [feedPurpose, isSemicolon]
      exact rests_complete reader outside _
  | statement place =>
      have alone : place = .alone := by simpa [Purpose.isPlain] using plain
      subst alone
      simp only [feedPurpose, isSemicolon]
      exact rests_complete reader outside _
  | initial place name =>
      have alone : place = .alone := by simpa [Purpose.isPlain] using plain
      subst alone
      simp only [feedPurpose, isSemicolon]
      exact rests_complete reader outside _
  | ifCondition =>
      simp only [feedPurpose, isSemicolon]
      exact rests_reject reader outside isSemicolon _
  | whileCondition =>
      simp only [feedPurpose, isSemicolon]
      exact rests_reject reader outside isSemicolon _
  | forCondition initial => cases plain
  | forStep initial condition => cases plain

/-- A semicolon is blamed inside a bracket, and ends the expression otherwise. -/
theorem rests_feedClosing
    (outside : reader.outer = [])
    (isSemicolon : semicolon.kind = .mark .semicolon)
    {purpose : Purpose}
    (plain : purpose.isPlain = true)
    (expr : Expr)
    (frames : List Frame) :
    (reader.feedClosing purpose expr semicolon frames).settled.Rests := by
  unfold feedClosing
  split
  · rw [if_neg (by rw [isSemicolon]; decide)]
    exact rests_reject reader outside isSemicolon _
  · rw [if_neg (by rw [isSemicolon]; decide)]
    exact rests_reject reader outside isSemicolon _
  · exact rests_feedPurpose reader outside isSemicolon plain _

/-- A semicolon where an operator is expected fills every frame up to a bracket. -/
theorem rests_feedOperator
    (outside : reader.outer = [])
    (isSemicolon : semicolon.kind = .mark .semicolon)
    {purpose : Purpose}
    (plain : purpose.isPlain = true)
    (frames : List Frame)
    (operand : Expr) :
    (reader.feedOperator purpose frames operand semicolon).settled.Rests := by
  simp only [feedOperator, isSemicolon, BinaryOperator.ofKind?, collapseTo]
  exact rests_feedClosing
    { reader with errors := (collapse .comma reader.errors operand frames).errors }
    outside isSemicolon plain _ _

/-- Outside blocks and headers of counting loops a semicolon brings the reader to rest. -/
theorem IsPlain.rests_feed
    {reader : Reader}
    (plain : reader.IsPlain)
    (isSemicolon : semicolon.kind = .mark .semicolon) :
    (reader.feed semicolon).settled.Rests := by
  obtain ⟨outside, plainMode, skips⟩ := plain
  have notElse : semicolon.kind ≠ .keyword .elseWord := by
    rw [isSemicolon]
    decide
  have notParen : semicolon.kind ≠ .mark .leftParen := by
    rw [isSemicolon]
    decide
  have notName : semicolon.kind ≠ .identifier := by
    rw [isSemicolon]
    decide
  unfold Reader.feed
  cases expects : reader.mode with
  | declaration => exact rests_feedDeclaration reader outside isSemicolon
  | statement => exact rests_feedStatement reader outside isSemicolon
  | afterThen condition thenBranch =>
      simp only [notElse, ↓reduceIte]
      exact rests_feedDeclaration (reader.settle _) outside isSemicolon
  | header header =>
      simp only [notParen, ↓reduceIte]
      exact rests_reject reader outside isSemicolon _
  | name place =>
      simp only [notName, ↓reduceIte]
      exact rests_reject reader outside isSemicolon _
  | afterName place name =>
      have alone : place = .alone := by simpa [expects, Mode.isPlain] using plainMode
      subst alone
      simp only [isSemicolon]
      exact rests_complete reader outside _
  | leave word =>
      simp only [isSemicolon, ↓reduceIte]
      exact rests_complete reader outside _
  | operand purpose frames => exact rests_feedOperand reader outside isSemicolon _ _
  | operator purpose frames operand =>
      rw [expects] at plainMode
      exact rests_feedOperator reader outside isSemicolon plainMode _ _
  | skipping =>
      simp only [feedSkipping, closedBy?_of_outer_nil reader outside, isSemicolon, resumesAt,
        Bool.false_eq_true, ↓reduceIte]
      exact ⟨outside, skips expects, rfl⟩
  | forInitial => simp [expects, Mode.isPlain] at plainMode
  | forCondition initial => simp [expects, Mode.isPlain] at plainMode
  | forStep initial condition => simp [expects, Mode.isPlain] at plainMode

/-- Tokens without blocks and counting loops that end in a semicolon bring the reader to rest. -/
theorem rests_of_semicolon
    {tokens : List Token}
    (ends : ∃ semicolon ∈ tokens.getLast?, semicolon.kind = .mark .semicolon)
    (noLoop : ∀ token ∈ tokens, token.kind ≠ .keyword .forWord)
    (noBlock : ∀ token ∈ tokens, token.kind ≠ .mark .leftBrace) :
    (start.feedAll tokens).settled.Rests := by
  obtain ⟨semicolon, isLast, isSemicolon⟩ := ends
  obtain ⟨before, rfl⟩ := List.getLast?_eq_some_iff.mp isLast
  have plain : (start.feedAll before).IsPlain := by
    apply isPlain_start.feedAll
    · exact fun token found => noLoop token (List.mem_append_left _ found)
    · exact fun token found => noBlock token (List.mem_append_left _ found)
  rw [feedAll_append, feedAll_cons, feedAll_nil]
  exact plain.rests_feed isSemicolon

end Reader

namespace Program

/--
Programs are read one after the other.  Tokens that are read without an error,
or that end in a semicolon and hold neither an opening brace nor a counting
loop, change nothing about what follows them, unless that begins with an `else`.
-/
theorem ofTokens_append
    {first second : List Token}
    {firstEnding ending : Token}
    (firstEnds : firstEnding.kind = .endOfInput)
    (ends : ending.kind = .endOfInput)
    (firstInner : ∀ token ∈ first, token.kind ≠ .endOfInput)
    (secondInner : ∀ token ∈ second, token.kind ≠ .endOfInput)
    (notElse : ∀ token ∈ second.head?, token.kind ≠ .keyword .elseWord)
    (boundary :
      (ofTokens (first ++ [firstEnding])).errors = [] ∨
        (∃ semicolon ∈ first.getLast?, semicolon.kind = .mark .semicolon) ∧
          (∀ token ∈ first, token.kind ≠ .keyword .forWord) ∧
            ∀ token ∈ first, token.kind ≠ .mark .leftBrace) :
    (ofTokens (first ++ second ++ [ending])).statements =
        (ofTokens (first ++ [firstEnding])).statements ++
          (ofTokens (second ++ [ending])).statements ∧
      (ofTokens (first ++ second ++ [ending])).errors =
        (ofTokens (first ++ [firstEnding])).errors ++ (ofTokens (second ++ [ending])).errors := by
  have rests : (Reader.start.feedAll first).settled.Rests := by
    rcases boundary with noErrors | ⟨semicolon, noLoop, noBlock⟩
    · exact Reader.rests_of_errors_eq_nil firstEnds firstInner noErrors
    · exact Reader.rests_of_semicolon semicolon noLoop noBlock
  rw [Reader.ofTokens_append_of_rests firstEnds ends firstInner secondInner notElse rests]
  exact ⟨rfl, rfl⟩

/-- A token of the given kind without a text. -/
def bareToken
    (kind : Kind) :
    Token where
  kind :=
    kind
  lexeme :=
    ""
  literal :=
    .nil
  line :=
    1

/-- The tokens of `while ( ) x ; if ( x = ;`, in which both statements are broken. -/
def brokenStatements : List Token :=
  [.keyword .whileWord, .mark .leftParen, .mark .rightParen, .identifier, .mark .semicolon,
    .keyword .ifWord, .mark .leftParen, .identifier, .mark .equal, .mark .semicolon].map bareToken

/-- The tokens of `print x ; }`, in which only the brace is wrong. -/
def statementAndBrace : List Token :=
  [.keyword .printWord, .identifier, .mark .semicolon, .mark .rightBrace].map bareToken

/-- The errors of broken statements do not reach the statement behind their last semicolon. -/
theorem ofTokens_append_brokenStatements :
    (ofTokens (brokenStatements ++ [bareToken .endOfInput])).errors.length = 2 ∧
      (ofTokens (brokenStatements ++ statementAndBrace ++
            [bareToken .endOfInput])).statements =
          (ofTokens (brokenStatements ++ [bareToken .endOfInput])).statements ++
            (ofTokens (statementAndBrace ++ [bareToken .endOfInput])).statements ∧
        (ofTokens (brokenStatements ++ statementAndBrace ++
            [bareToken .endOfInput])).errors =
          (ofTokens (brokenStatements ++ [bareToken .endOfInput])).errors ++
            (ofTokens (statementAndBrace ++ [bareToken .endOfInput])).errors :=
  ⟨by decide,
    ofTokens_append rfl rfl (by decide) (by decide) (by decide)
      (.inr ⟨⟨_, rfl, rfl⟩, by decide, by decide⟩)⟩

end Program

end BlockScript
