import BlockScript.Proofs.Reading.Errors

namespace BlockScript

/-!
# What was read before does not matter

Statements completed and errors found before a token do not change what the
token does.  `Reader.after` puts a program below everything that a reader holds;
feeding commutes with it, so that a reader which rests outside every statement
goes on as one that has just begun.
-/

namespace Program

/-- One program behind another. -/
def append
    (first second : Program) :
    Program where
  statements :=
    first.statements ++ second.statements
  errors :=
    first.errors ++ second.errors

instance : Append Program :=
  ⟨append⟩

end Program

namespace Reader

/-- The statements completed in a block, which earlier ones precede if no block is around it. -/
def doneAfter
    (earlier : List Stmt) :
    List OpenBlock → List Stmt → List Stmt
  | [], done => done ++ earlier
  | _ :: _, done => done

/-- Open blocks, the outermost of which earlier statements precede. -/
def outerAfter
    (earlier : List Stmt) :
    List OpenBlock → List OpenBlock
  | [] => []
  | block :: outer =>
      { block with before := doneAfter earlier outer block.before } :: outerAfter earlier outer

/-- The reader when a program has been read before all that it holds. -/
def after
    (earlier : Program)
    (reader : Reader) :
    Reader where
  errors :=
    reader.errors ++ earlier.errors.reverse
  outer :=
    outerAfter earlier.statements.reverse reader.outer
  done :=
    doneAfter earlier.statements.reverse reader.outer reader.done
  clauses :=
    reader.clauses
  mode :=
    reader.mode

/-- A completed statement comes behind the earlier ones. -/
theorem doneAfter_cons
    (earlier : List Stmt)
    (outer : List OpenBlock)
    (statement : Stmt)
    (done : List Stmt) :
    doneAfter earlier outer (statement :: done) = statement :: doneAfter earlier outer done := by
  cases outer <;> rfl

variable (earlier : Program)

/-- The loops around a statement are those that were entered since. -/
theorem inLoop_after
    (reader : Reader) :
    (reader.after earlier).inLoop = reader.inLoop := by
  have sameLoops :
      ∀ outer : List OpenBlock,
        (outerAfter earlier.statements.reverse outer).any
            (fun block => block.clauses.any Clause.isLoop) =
          outer.any fun block => block.clauses.any Clause.isLoop := by
    intro outer
    induction outer with
    | nil =>
        rfl
    | cons block outer inductionHypothesis =>
        simp only [outerAfter, List.any_cons, inductionHypothesis]
  simp only [inLoop, after, sameLoops]

/-- A completed statement fills the clauses that have begun since. -/
theorem completeIn_after
    (reader : Reader)
    (statement : Stmt)
    (clauses : List Clause) :
    (reader.after earlier).completeIn statement clauses =
      (reader.completeIn statement clauses).after earlier := by
  induction clauses generalizing statement with
  | nil =>
      simp [completeIn, after, doneAfter_cons]
  | cons clause outer inductionHypothesis =>
      cases clause with
      | ifThen condition => rfl
      | _ => exact inductionHypothesis _

/-- A completed statement fills the clauses that have begun since. -/
theorem complete_after
    (reader : Reader)
    (statement : Stmt) :
    (reader.after earlier).complete statement = (reader.complete statement).after earlier :=
  completeIn_after earlier reader statement reader.clauses

/-- A settled statement fills the clauses that have begun since. -/
theorem settle_after
    (reader : Reader)
    (statement : Stmt) :
    (reader.after earlier).settle statement = (reader.settle statement).after earlier := by
  simp [settle, after, doneAfter_cons]

/-- A brace closes a block that was opened since. -/
theorem closedBy?_after
    (reader : Reader)
    (token : Token) :
    (reader.after earlier).closedBy? token =
      (reader.closedBy? token).map fun closed => closed.after earlier := by
  obtain ⟨errors, outer, done, clauses, mode⟩ := reader
  by_cases isBrace : token.kind = .mark .rightBrace
  · cases outer with
    | nil => simp [closedBy?, after, outerAfter, isBrace]
    | cons block outer =>
        simp only [closedBy?, after, outerAfter, doneAfter, isBrace, Option.map_some]
        exact congrArg some
          (complete_after earlier
            { errors, outer, done := block.before, clauses := block.clauses, mode } _)
  · unfold closedBy?
    split
    · rename_i closes _
      exact (isBrace closes).elim
    · split
      · rename_i closes _
        exact (isBrace closes).elim
      · rfl

/-- A rejected token drops the statement that was being read. -/
theorem reject_after
    (reader : Reader)
    (token : Token)
    (fault : GrammarFault) :
    (reader.after earlier).reject token fault = (reader.reject token fault).after earlier := by
  have recorded :
      (reader.after earlier).record { token, fault } =
        (reader.record { token, fault }).after earlier :=
    rfl
  unfold reject
  simp only [recorded, closedBy?_after]
  cases (reader.record { token, fault }).closedBy? token <;> rfl

/-- A declaration or an expression statement is completed in its place. -/
theorem completeAt_after
    (reader : Reader)
    (statement : Stmt)
    (place : Place) :
    (reader.after earlier).completeAt statement place =
      (reader.completeAt statement place).after earlier := by
  cases place with
  | alone => exact complete_after earlier reader statement
  | loopHeader => rfl

/-- A token where an operand is expected. -/
theorem feedOperand_after
    (reader : Reader)
    (purpose : Purpose)
    (frames : List Frame)
    (token : Token) :
    (reader.after earlier).feedOperand purpose frames token =
      (reader.feedOperand purpose frames token).after earlier := by
  unfold feedOperand
  split
  case h_8 =>
    split
    · rfl
    · exact reject_after earlier reader token _
  all_goals rfl

/-- A token behind an expression. -/
theorem feedPurpose_after
    (reader : Reader)
    (expr : Expr)
    (token : Token)
    (purpose : Purpose) :
    (reader.after earlier).feedPurpose expr token purpose =
      (reader.feedPurpose expr token purpose).after earlier := by
  unfold feedPurpose
  split
  case h_1 => exact complete_after earlier reader _
  case h_2 => exact completeAt_after earlier reader _ _
  case h_3 => exact completeAt_after earlier reader _ _
  case h_8 => exact reject_after earlier reader token _
  all_goals rfl

/-- A token that ends an expression. -/
theorem feedClosing_after
    (reader : Reader)
    (purpose : Purpose)
    (expr : Expr)
    (token : Token)
    (frames : List Frame) :
    (reader.after earlier).feedClosing purpose expr token frames =
      (reader.feedClosing purpose expr token frames).after earlier := by
  unfold feedClosing
  split
  · split
    · rfl
    · exact reject_after earlier reader token _
  · split
    · rfl
    · exact reject_after earlier reader token _
  · exact feedPurpose_after earlier reader expr token purpose

/-- Frames are filled whatever errors were found before. -/
theorem collapse_append
    (level : Level)
    (errors others : List GrammarError)
    (operand : Expr)
    (frames : List Frame) :
    collapse level (errors ++ others) operand frames =
      { collapse level errors operand frames with
        errors := (collapse level errors operand frames).errors ++ others } := by
  induction frames generalizing errors operand with
  | nil =>
      rfl
  | cons frame outer inductionHypothesis =>
      unfold collapse
      split
      · rw [← List.append_assoc, inductionHypothesis]
      · rfl

/-- A token where an operator is expected. -/
theorem feedOperator_after
    (reader : Reader)
    (purpose : Purpose)
    (frames : List Frame)
    (operand : Expr)
    (token : Token) :
    (reader.after earlier).feedOperator purpose frames operand token =
      (reader.feedOperator purpose frames operand token).after earlier := by
  rw [feedOperator_eq, feedOperator_eq, collapseTo, collapseTo]
  have filled :
      collapse (stopLevel token.kind) (reader.after earlier).errors operand frames =
        { collapse (stopLevel token.kind) reader.errors operand frames with
          errors :=
            (collapse (stopLevel token.kind) reader.errors operand frames).errors ++
              earlier.errors.reverse } :=
    collapse_append _ _ _ _ _
  rw [filled]
  unfold afterCollapse
  split
  · rfl
  · split
    · rfl
    · rfl
    · exact feedClosing_after earlier
        { reader with
          errors := (collapse (stopLevel token.kind) reader.errors operand frames).errors }
        purpose _ token _

/-- The first token of a statement. -/
theorem feedStatement_after
    (reader : Reader)
    (token : Token) :
    (reader.after earlier).feedStatement token = (reader.feedStatement token).after earlier := by
  by_cases isBreak : token.kind = .keyword .breakWord
  · rw [feedStatement_break _ isBreak, feedStatement_break _ isBreak, inLoop_after]
    simp [noting, inMode, after]
  · unfold feedStatement
    split
    case h_5 begins => exact (isBreak begins).elim
    case h_7 => exact feedOperand_after earlier reader _ _ token
    all_goals rfl

/-- The first token of a declaration, or the end of a block. -/
theorem feedDeclaration_after
    (reader : Reader)
    (token : Token) :
    (reader.after earlier).feedDeclaration token =
      (reader.feedDeclaration token).after earlier := by
  unfold feedDeclaration
  rw [closedBy?_after]
  cases reader.closedBy? token with
  | some closed => rfl
  | none =>
      simp only [Option.map_none]
      split
      · rfl
      · exact feedStatement_after earlier reader token

/-- A token while reading looks for the next statement. -/
theorem feedSkipping_after
    (reader : Reader)
    (token : Token) :
    (reader.after earlier).feedSkipping token = (reader.feedSkipping token).after earlier := by
  unfold feedSkipping
  rw [closedBy?_after]
  cases reader.closedBy? token with
  | some closed => rfl
  | none =>
      simp only [Option.map_none]
      split
      · exact feedDeclaration_after earlier reader token
      · split <;> rfl

/-- A token does the same whatever was read before. -/
theorem feed_after
    (reader : Reader)
    (token : Token) :
    (reader.after earlier).feed token = (reader.feed token).after earlier := by
  have sameMode : (reader.after earlier).mode = reader.mode := rfl
  unfold feed
  rw [sameMode]
  cases reader.mode with
  | declaration => exact feedDeclaration_after earlier reader token
  | statement => exact feedStatement_after earlier reader token
  | afterThen condition thenBranch =>
      dsimp only
      split
      · rfl
      · rw [settle_after]
        exact feedDeclaration_after earlier _ token
  | header header =>
      dsimp only
      split
      · cases header <;> rfl
      · exact reject_after earlier reader token _
  | name place =>
      dsimp only
      split
      · rfl
      · exact reject_after earlier reader token _
  | afterName place name =>
      dsimp only
      split
      · rfl
      · exact completeAt_after earlier reader _ place
      · exact reject_after earlier reader token _
  | forInitial =>
      dsimp only
      split
      · rfl
      · rfl
      · exact feedOperand_after earlier reader _ _ token
  | forCondition initial =>
      dsimp only
      split
      · rfl
      · exact feedOperand_after earlier reader _ _ token
  | forStep initial condition =>
      dsimp only
      split
      · rfl
      · exact feedOperand_after earlier reader _ _ token
  | leave word =>
      dsimp only
      split
      · exact complete_after earlier reader _
      · exact reject_after earlier reader token _
  | operand purpose frames => exact feedOperand_after earlier reader _ _ token
  | operator purpose frames operand => exact feedOperator_after earlier reader _ _ _ token
  | skipping => exact feedSkipping_after earlier reader token

/-- Tokens do the same whatever was read before. -/
theorem feedAll_after
    (reader : Reader)
    (tokens : List Token) :
    (reader.after earlier).feedAll tokens = (reader.feedAll tokens).after earlier := by
  induction tokens generalizing reader with
  | nil =>
      rfl
  | cons token tokens inductionHypothesis =>
      rw [feedAll_cons, feedAll_cons, feed_after, inductionHypothesis]

/-- The outermost block is preceded by the earlier statements. -/
theorem getLast?_outerAfter
    (statements : List Stmt)
    (block : OpenBlock)
    (outer : List OpenBlock) :
    (outerAfter statements (block :: outer)).getLast? =
      (block :: outer).getLast?.map fun outermost =>
        { outermost with before := outermost.before ++ statements } := by
  induction outer generalizing block with
  | nil =>
      rfl
  | cons next outer inductionHypothesis =>
      rw [outerAfter, outerAfter, List.getLast?_cons_cons, List.getLast?_cons_cons, ← outerAfter]
      exact inductionHypothesis next

/-- The statements kept come behind the earlier ones. -/
theorem kept_after
    (reader : Reader) :
    (reader.after earlier).kept = reader.kept ++ earlier.statements.reverse := by
  obtain ⟨errors, outer, done, clauses, mode⟩ := reader
  cases outer with
  | nil =>
      rfl
  | cons block outer =>
      simp only [kept, after, getLast?_outerAfter, List.getLast?_cons, Option.map_some]

/-- The program read so far comes behind the earlier one. -/
theorem program_after
    (reader : Reader) :
    (reader.after earlier).program = earlier ++ reader.program := by
  have statements :
      (reader.after earlier).kept.reverse = earlier.statements ++ reader.kept.reverse := by
    rw [kept_after, List.reverse_append, List.reverse_reverse]
  have errors :
      (reader.after earlier).errors.reverse = earlier.errors ++ reader.errors.reverse := by
    simp [after]
  unfold program
  rw [statements, errors]
  rfl

/-- The end of the input settles the same statement whatever was read before. -/
theorem endStatement_after
    (reader : Reader)
    (ending : Token) :
    (reader.after earlier).endStatement ending = (reader.endStatement ending).after earlier := by
  have sameMode : (reader.after earlier).mode = reader.mode := rfl
  unfold endStatement
  rw [sameMode]
  split
  · rfl
  · rfl
  · exact settle_after earlier reader _
  · exact feed_after earlier reader ending

/-- What is read at the end of the input comes behind the earlier program. -/
theorem finish_after
    (reader : Reader)
    (ending : Token) :
    (reader.after earlier).finish ending = earlier ++ reader.finish ending := by
  have sameDepth :
      ∀ outer : List OpenBlock,
        (outerAfter earlier.statements.reverse outer).length = outer.length := by
    intro outer
    induction outer with
    | nil =>
        rfl
    | cons block outer inductionHypothesis =>
        simp [outerAfter, inductionHypothesis]
  unfold finish
  rw [endStatement_after, ← program_after]
  simp only [after, sameDepth, List.append_assoc]

end Reader

end BlockScript
