import BlockScript.Reading.Program
import BlockScript.Proofs.Grammar.Phrase

namespace BlockScript

/-!
# Feeding tokens

What a token does where an operator is expected depends on its level alone: it
ends the frames of that level and the tighter ones, and only then is looked at.
What it does where a declaration is expected does not depend on whether a
conditional before it has been settled, unless it is an `else`.
-/

namespace Reader

/-- Take several tokens, none of which is the end of the input. -/
def feedAll
    (reader : Reader)
    (tokens : List Token) :
    Reader :=
  tokens.foldl feed reader

/-- Nothing is taken. -/
@[simp]
theorem feedAll_nil
    (reader : Reader) :
    reader.feedAll [] = reader :=
  rfl

/-- The first token is taken first. -/
@[simp]
theorem feedAll_cons
    (reader : Reader)
    (token : Token)
    (tokens : List Token) :
    reader.feedAll (token :: tokens) = (reader.feed token).feedAll tokens :=
  rfl

/-- Taking two lists is taking one after the other. -/
@[simp]
theorem feedAll_append
    (reader : Reader)
    (first second : List Token) :
    reader.feedAll (first ++ second) = (reader.feedAll first).feedAll second := by
  simp [feedAll]

/-- Reading up to an end token feeds the tokens before it. -/
theorem read_append
    {ending : Token}
    (ends : ending.kind = .endOfInput)
    (tokens rest : List Token)
    (inner : ∀ token ∈ tokens, token.kind ≠ .endOfInput)
    (reader : Reader) :
    reader.read (tokens ++ ending :: rest) = (reader.feedAll tokens).finish ending := by
  induction tokens generalizing reader with
  | nil =>
      simp [read, ends]
  | cons token tokens inductionHypothesis =>
      have notEnd : token.kind ≠ .endOfInput :=
        inner token List.mem_cons_self
      have others : ∀ other ∈ tokens, other.kind ≠ .endOfInput :=
        fun other member => inner other (List.mem_cons_of_mem token member)
      simp only [List.cons_append, read, notEnd, ↓reduceIte, feedAll_cons]
      exact inductionHypothesis others (reader.feed token)

/-- The reader with errors found after those it holds, given in the order of the source. -/
def noting
    (reader : Reader)
    (errors : List GrammarError) :
    Reader :=
  { reader with errors := errors.reverse ++ reader.errors }

/-- The reader when it expects something else. -/
def inMode
    (reader : Reader)
    (mode : Mode) :
    Reader :=
  { reader with mode }

/-- Noting nothing changes nothing. -/
@[simp]
theorem noting_nil
    (reader : Reader) :
    reader.noting [] = reader :=
  rfl

/-- Errors are noted one part after the other. -/
@[simp]
theorem noting_noting
    (reader : Reader)
    (first second : List GrammarError) :
    (reader.noting first).noting second = reader.noting (first ++ second) := by
  simp [noting]

/-- The level of what a token ends where an operator is expected. -/
def stopLevel
    (kind : Kind) :
    Level :=
  match BinaryOperator.ofKind? kind with
  | some operator => operator.level
  | none =>
      match kind with
      | .mark .question => .equality
      | .mark .equal => .conditional
      | _ => .comma

/-- What a token does behind an expression whose ended frames have been filled. -/
def afterCollapse
    (reader : Reader)
    (purpose : Purpose)
    (token : Token)
    (expr : Expr)
    (outer : List Frame) :
    Reader :=
  match BinaryOperator.ofKind? token.kind with
  | some operator => reader.inMode (.operand purpose (.binary token operator expr :: outer))
  | none =>
      match token.kind with
      | .mark .question => reader.inMode (.operand purpose (.choice expr :: outer))
      | .mark .equal => reader.inMode (.operand purpose (.assign expr token :: outer))
      | _ => reader.feedClosing purpose expr token outer

/-- A token where an operator is expected fills the frames of its level, then acts. -/
theorem feedOperator_eq
    (reader : Reader)
    (purpose : Purpose)
    (frames : List Frame)
    (operand : Expr)
    (token : Token) :
    reader.feedOperator purpose frames operand token =
      reader.collapseTo (stopLevel token.kind) frames operand
        fun reader expr outer => reader.afterCollapse purpose token expr outer := by
  unfold feedOperator stopLevel
  split
  · rename_i operator signed
    simp [collapseTo, afterCollapse, signed, inMode]
  · rename_i unsigned
    split
    · rename_i isQuestion
      simp [collapseTo, afterCollapse, isQuestion, BinaryOperator.ofKind?, inMode]
    · rename_i isEqual
      simp [collapseTo, afterCollapse, isEqual, BinaryOperator.ofKind?, inMode]
    · rename_i notQuestion notEqual
      simp only [collapseTo, afterCollapse, unsigned]

/-- Completing a statement forgets what was expected. -/
@[simp]
theorem completeIn_inMode
    (reader : Reader)
    (mode : Mode)
    (statement : Stmt)
    (clauses : List Clause) :
    (reader.inMode mode).completeIn statement clauses = reader.completeIn statement clauses := by
  induction clauses generalizing statement with
  | nil =>
      rfl
  | cons clause outer inductionHypothesis =>
      cases clause with
      | ifThen condition => rfl
      | _ => exact inductionHypothesis _

/-- Completing a statement forgets what was expected. -/
@[simp]
theorem complete_inMode
    (reader : Reader)
    (mode : Mode)
    (statement : Stmt) :
    (reader.inMode mode).complete statement = reader.complete statement :=
  completeIn_inMode reader mode statement reader.clauses

/-- Closing a block forgets what was expected. -/
@[simp]
theorem closedBy?_inMode
    (reader : Reader)
    (mode : Mode)
    (token : Token) :
    (reader.inMode mode).closedBy? token = reader.closedBy? token := by
  unfold closedBy?
  split
  · rename_i block outer isBrace isOuter
    have sameOuter : reader.outer = block :: outer := isOuter
    simp only [isBrace, sameOuter]
    exact congrArg some
      (complete_inMode { reader with outer, done := block.before, clauses := block.clauses }
        mode _)
  · rename_i unmatched
    split
    · rename_i block outer isBrace isOuter
      exact (unmatched block outer isBrace isOuter).elim
    · rfl

/-- Rejecting a token forgets what was expected. -/
@[simp]
theorem reject_inMode
    (reader : Reader)
    (mode : Mode)
    (token : Token)
    (fault : GrammarFault) :
    (reader.inMode mode).reject token fault = reader.reject token fault := by
  have recorded :
      (reader.inMode mode).record { token, fault } =
        (reader.record { token, fault }).inMode mode :=
    rfl
  unfold reject
  simp only [recorded, closedBy?_inMode]
  rfl

/-- Completing a part of a header or a statement forgets what was expected. -/
@[simp]
theorem completeAt_inMode
    (reader : Reader)
    (mode : Mode)
    (statement : Stmt)
    (place : Place) :
    (reader.inMode mode).completeAt statement place = reader.completeAt statement place := by
  cases place with
  | alone => exact complete_inMode reader mode statement
  | loopHeader => rfl

/-- A token where an operand is expected acts whatever was expected. -/
@[simp]
theorem feedOperand_inMode
    (reader : Reader)
    (mode : Mode)
    (purpose : Purpose)
    (frames : List Frame)
    (token : Token) :
    (reader.inMode mode).feedOperand purpose frames token =
      reader.feedOperand purpose frames token := by
  unfold feedOperand
  split <;> first | rfl | (split <;> first | rfl | exact reject_inMode reader mode token _)

/-- A token behind an expression acts whatever was expected. -/
@[simp]
theorem feedPurpose_inMode
    (reader : Reader)
    (mode : Mode)
    (expr : Expr)
    (token : Token)
    (purpose : Purpose) :
    (reader.inMode mode).feedPurpose expr token purpose =
      reader.feedPurpose expr token purpose := by
  unfold feedPurpose
  split <;>
    first
      | rfl
      | exact complete_inMode reader mode _
      | exact completeAt_inMode reader mode _ _
      | exact reject_inMode reader mode token _

/-- A token that ends an expression acts whatever was expected. -/
@[simp]
theorem feedClosing_inMode
    (reader : Reader)
    (mode : Mode)
    (purpose : Purpose)
    (expr : Expr)
    (token : Token)
    (frames : List Frame) :
    (reader.inMode mode).feedClosing purpose expr token frames =
      reader.feedClosing purpose expr token frames := by
  unfold feedClosing
  split
  · split
    · rfl
    · exact reject_inMode reader mode token _
  · split
    · rfl
    · exact reject_inMode reader mode token _
  · exact feedPurpose_inMode reader mode expr token purpose

/-- A token where an operator is expected acts whatever was expected. -/
theorem feedOperator_inMode
    (reader : Reader)
    (mode : Mode)
    (purpose : Purpose)
    (frames : List Frame)
    (operand : Expr)
    (token : Token) :
    (reader.inMode mode).feedOperator purpose frames operand token =
      reader.feedOperator purpose frames operand token := by
  unfold feedOperator collapseTo
  split
  · rfl
  · split
    · rfl
    · rfl
    · exact feedClosing_inMode
        { reader with errors := (collapse .comma reader.errors operand frames).errors }
        mode purpose _ token _

/-- The word that leaves a loop is noted when it stands outside every loop. -/
theorem feedStatement_break
    (reader : Reader)
    {word : Token}
    (begins : word.kind = .keyword .breakWord) :
    reader.feedStatement word =
      (reader.noting (Grammar.leaveErrors reader.inLoop word)).inMode (.leave word) := by
  cases inside : reader.inLoop with
  | true => simp [feedStatement, begins, inside, Grammar.leaveErrors, inMode]
  | false => simp [feedStatement, begins, inside, Grammar.leaveErrors, inMode, record, noting]

/-- The first token of a statement acts whatever was expected. -/
@[simp]
theorem feedStatement_inMode
    (reader : Reader)
    (mode : Mode)
    (token : Token) :
    (reader.inMode mode).feedStatement token = reader.feedStatement token := by
  by_cases isBreak : token.kind = .keyword .breakWord
  · rw [feedStatement_break reader isBreak, feedStatement_break (reader.inMode mode) isBreak]
    rfl
  · unfold feedStatement
    split
    case h_5 begins => exact (isBreak begins).elim
    case h_7 => exact feedOperand_inMode reader mode _ _ token
    all_goals rfl

/-- The reader once it is known that no alternative follows. -/
def settled
    (reader : Reader) :
    Reader :=
  match reader.mode with
  | .afterThen condition thenBranch => reader.settle (.ifThen condition thenBranch)
  | _ => reader

/-- Only an `else` tells whether a conditional has been settled. -/
theorem feed_settled
    (reader : Reader)
    {token : Token}
    (notElse : token.kind ≠ .keyword .elseWord) :
    reader.settled.feed token = reader.feed token := by
  unfold settled
  split
  · rename_i condition thenBranch expects
    have unsettled :
        reader.feed token = (reader.settle (.ifThen condition thenBranch)).feedDeclaration token := by
      simp only [feed, expects, notElse, ↓reduceIte]
    rw [unsettled]
    rfl
  · rfl

/-- A settled reader has nothing to settle. -/
theorem settled_settled
    (reader : Reader) :
    reader.settled.settled = reader.settled := by
  cases expects : reader.mode with
  | afterThen condition thenBranch =>
      have settles : reader.settled = reader.settle (.ifThen condition thenBranch) := by
        simp only [settled, expects]
      rw [settles]
      rfl
  | _ =>
      have settles : reader.settled = reader := by
        simp only [settled, expects]
      rw [settles, settles]

/-- Only an `else` at the front tells whether a conditional has been settled. -/
theorem settled_feedAll_settled
    (reader : Reader)
    {tokens : List Token}
    (notElse : ∀ token ∈ tokens.head?, token.kind ≠ .keyword .elseWord) :
    (reader.settled.feedAll tokens).settled = (reader.feedAll tokens).settled := by
  cases tokens with
  | nil =>
      exact settled_settled reader
  | cons token tokens =>
      rw [feedAll_cons, feed_settled reader (notElse token rfl), feedAll_cons]

/-- The end of the input settles a conditional. -/
theorem finish_settled
    (reader : Reader)
    (ending : Token) :
    reader.settled.finish ending = reader.finish ending := by
  have same : reader.settled.endStatement ending = reader.endStatement ending := by
    unfold settled
    split
    · rename_i condition thenBranch expects
      have unsettled :
          reader.endStatement ending = reader.settle (.ifThen condition thenBranch) := by
        simp only [endStatement, expects]
      rw [unsettled]
      rfl
    · rfl
  unfold finish
  rw [same]

/-- A completed statement fills every clause around it once it is settled. -/
theorem settled_completeIn
    (reader : Reader)
    (statement : Stmt)
    (clauses : List Clause) :
    (reader.completeIn statement clauses).settled =
      { reader with clauses }.settle statement := by
  induction clauses generalizing statement with
  | nil =>
      rfl
  | cons clause outer inductionHypothesis =>
      cases clause with
      | ifThen condition => rfl
      | _ => exact inductionHypothesis _

/-- A completed statement fills every clause around it once it is settled. -/
theorem settled_complete
    (reader : Reader)
    (statement : Stmt) :
    (reader.complete statement).settled = reader.settle statement :=
  settled_completeIn reader statement reader.clauses

end Reader

namespace Frame

/-- The level of the operand that a frame awaits. -/
def awaited : Frame → Level
  | .unary .. => .unary
  | .binary _ operator _ => Grammar.tighter operator.level
  | .assign .. => .assignment
  | .otherwise .. => .conditional
  | .choice _ => .comma
  | .group => .comma

/-- What is tighter than the awaited operand does not end a frame. -/
theorem not_isEndedBy_of_lt
    {frame : Frame}
    {stop : Level}
    (tighter : frame.awaited.rank < stop.rank) :
    frame.isEndedBy stop = false := by
  cases frame with
  | binary token operator left =>
      have below := Grammar.rank_le_tighter operator.level
      simp only [awaited] at tighter
      simp only [isEndedBy, level?, decide_eq_false_iff_not]
      omega
  | _ =>
      simp_all [awaited, isEndedBy, level?]

/-- A binary operator that may stand in the awaited operand does not end a frame. -/
theorem not_isEndedBy_level
    {frame : Frame}
    {operator : BinaryOperator}
    (allowed : frame.awaited.rank ≤ operator.level.rank) :
    frame.isEndedBy operator.level = false := by
  cases frame with
  | binary token own left =>
      have above := Grammar.rank_tighter (Grammar.rank_level_lt_unary own)
      simp only [awaited] at allowed
      simp only [isEndedBy, level?, decide_eq_false_iff_not]
      omega
  | _ =>
      revert allowed
      cases operator <;> simp [awaited, isEndedBy, level?, BinaryOperator.level, Level.rank]

end Frame

end BlockScript
