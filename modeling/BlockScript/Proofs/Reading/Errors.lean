import BlockScript.Proofs.Reading.Phrases

namespace BlockScript

/-!
# Errors are only added

A token never takes back an error.  A rejected token adds one error that blames
it, so that reading without rejections leaves only violations of the two side
conditions of the grammar.
-/

/-- The faults that blame a token the grammar allows. -/
def GrammarFault.isSideCondition : GrammarFault → Bool
  | .invalidAssignmentTarget => true
  | .breakOutsideLoop => true
  | _ => false

/-- Every error is a violation of a side condition. -/
def SideConditionsOnly
    (errors : List GrammarError) :
    Prop :=
  ∀ error ∈ errors, error.fault.isSideCondition = true

namespace Reader

/-- Completing a statement adds no error. -/
@[simp]
theorem errors_completeIn
    (reader : Reader)
    (statement : Stmt)
    (clauses : List Clause) :
    (reader.completeIn statement clauses).errors = reader.errors := by
  induction clauses generalizing statement with
  | nil =>
      rfl
  | cons clause outer inductionHypothesis =>
      cases clause with
      | ifThen condition => rfl
      | _ => exact inductionHypothesis _

/-- Completing a statement adds no error. -/
@[simp]
theorem errors_complete
    (reader : Reader)
    (statement : Stmt) :
    (reader.complete statement).errors = reader.errors :=
  errors_completeIn reader statement reader.clauses

/-- Closing a block adds no error. -/
theorem errors_closedBy?
    {reader closed : Reader}
    {token : Token}
    (closes : reader.closedBy? token = some closed) :
    closed.errors = reader.errors := by
  unfold closedBy? at closes
  split at closes
  · cases closes
    exact errors_complete _ _
  · cases closes

/-- Rejecting a token adds one error that blames it. -/
@[simp]
theorem errors_reject
    (reader : Reader)
    (token : Token)
    (fault : GrammarFault) :
    (reader.reject token fault).errors = { token, fault } :: reader.errors := by
  unfold reject
  dsimp only
  split
  · rename_i closed closes
    exact errors_closedBy? closes
  · rfl

/-- A rejection is not a violation of a side condition. -/
theorem not_sideConditionsOnly_reject
    {reader : Reader}
    {token : Token}
    {fault : GrammarFault}
    (syntactic : fault.isSideCondition = false) :
    ¬SideConditionsOnly (reader.reject token fault).errors := by
  intro only
  have isSide := only { token, fault } (by simp)
  rw [syntactic] at isSide
  cases isSide

/-- Filling frames only adds errors. -/
theorem suffix_collapse
    (level : Level)
    (errors : List GrammarError)
    (operand : Expr)
    (frames : List Frame) :
    errors <:+ (collapse level errors operand frames).errors := by
  induction frames generalizing errors operand with
  | nil =>
      exact List.suffix_refl errors
  | cons frame outer inductionHypothesis =>
      unfold collapse
      split
      · exact (List.suffix_append frame.error?.toList errors).trans
          (inductionHypothesis _ _)
      · exact List.suffix_refl errors

/-- Completing a part of a header or a statement adds no error. -/
@[simp]
theorem errors_completeAt
    (reader : Reader)
    (statement : Stmt)
    (place : Place) :
    (reader.completeAt statement place).errors = reader.errors := by
  cases place with
  | alone => exact errors_complete reader statement
  | loopHeader => rfl

/-- A token where an operand is expected only adds errors. -/
theorem suffix_feedOperand
    (reader : Reader)
    (purpose : Purpose)
    (frames : List Frame)
    (token : Token) :
    reader.errors <:+ (reader.feedOperand purpose frames token).errors := by
  unfold feedOperand
  split
  case h_8 =>
    split
    · exact List.suffix_refl _
    · simp
  all_goals exact List.suffix_refl _

/-- A token behind an expression only adds errors. -/
theorem suffix_feedPurpose
    (reader : Reader)
    (expr : Expr)
    (token : Token)
    (purpose : Purpose) :
    reader.errors <:+ (reader.feedPurpose expr token purpose).errors := by
  unfold feedPurpose
  split <;> simp [await]

/-- A token that ends an expression only adds errors. -/
theorem suffix_feedClosing
    (reader : Reader)
    (purpose : Purpose)
    (expr : Expr)
    (token : Token)
    (frames : List Frame) :
    reader.errors <:+ (reader.feedClosing purpose expr token frames).errors := by
  unfold feedClosing
  split
  · split <;> simp
  · split <;> simp
  · exact suffix_feedPurpose reader expr token purpose

/-- A token where an operator is expected only adds errors. -/
theorem suffix_feedOperator
    (reader : Reader)
    (purpose : Purpose)
    (frames : List Frame)
    (operand : Expr)
    (token : Token) :
    reader.errors <:+ (reader.feedOperator purpose frames operand token).errors := by
  have filled := suffix_collapse (stopLevel token.kind) reader.errors operand frames
  rw [feedOperator_eq, collapseTo]
  refine filled.trans ?_
  unfold afterCollapse
  split
  · exact List.suffix_refl _
  · split
    · exact List.suffix_refl _
    · exact List.suffix_refl _
    · exact suffix_feedClosing
        { reader with
          errors := (collapse (stopLevel token.kind) reader.errors operand frames).errors }
        purpose _ token _

/-- The first token of a statement only adds errors. -/
theorem suffix_feedStatement
    (reader : Reader)
    (token : Token) :
    reader.errors <:+ (reader.feedStatement token).errors := by
  by_cases isBreak : token.kind = .keyword .breakWord
  · rw [feedStatement_break reader isBreak]
    exact List.suffix_append _ _
  · unfold feedStatement
    split
    case h_5 begins => exact (isBreak begins).elim
    case h_7 => exact suffix_feedOperand reader _ _ token
    all_goals exact List.suffix_refl _

/-- The first token of a declaration only adds errors. -/
theorem suffix_feedDeclaration
    (reader : Reader)
    (token : Token) :
    reader.errors <:+ (reader.feedDeclaration token).errors := by
  unfold feedDeclaration
  split
  · rename_i closed closes
    simp [errors_closedBy? closes]
  · split
    · exact List.suffix_refl _
    · exact suffix_feedStatement reader token

/-- A token only adds errors. -/
theorem suffix_feed
    (reader : Reader)
    (token : Token) :
    reader.errors <:+ (reader.feed token).errors := by
  unfold feed
  split
  · exact suffix_feedDeclaration reader token
  · exact suffix_feedStatement reader token
  · split
    · exact List.suffix_refl _
    · exact suffix_feedDeclaration (reader.settle _) token
  · split
    · split <;> exact List.suffix_refl _
    · simp
  · split <;> simp
  · split <;> simp
  · split
    · exact List.suffix_refl _
    · exact List.suffix_refl _
    · exact suffix_feedOperand reader _ _ token
  · split
    · exact List.suffix_refl _
    · exact suffix_feedOperand reader _ _ token
  · split
    · exact List.suffix_refl _
    · exact suffix_feedOperand reader _ _ token
  · split <;> simp
  · exact suffix_feedOperand reader _ _ token
  · exact suffix_feedOperator reader _ _ _ token
  · unfold feedSkipping
    split
    · rename_i closed closes
      simp [errors_closedBy? closes]
    · split
      · exact suffix_feedDeclaration reader token
      · split <;> exact List.suffix_refl _

/-- Tokens only add errors. -/
theorem suffix_feedAll
    (reader : Reader)
    (tokens : List Token) :
    reader.errors <:+ (reader.feedAll tokens).errors := by
  induction tokens generalizing reader with
  | nil =>
      exact List.suffix_refl _
  | cons token tokens inductionHypothesis =>
      exact (suffix_feed reader token).trans (inductionHypothesis (reader.feed token))

/-- Settling what the end of the input leaves open only adds errors. -/
theorem suffix_endStatement
    (reader : Reader)
    (ending : Token) :
    reader.errors <:+ (reader.endStatement ending).errors := by
  unfold endStatement
  split
  · exact List.suffix_refl _
  · exact List.suffix_refl _
  · exact List.suffix_refl _
  · exact suffix_feed reader ending

/-- The end of the input only adds errors. -/
theorem mem_finish
    {reader : Reader}
    {error : GrammarError}
    (found : error ∈ reader.errors)
    (ending : Token) :
    error ∈ (reader.finish ending).errors := by
  have kept := suffix_endStatement reader ending
  simp [finish, program, kept.subset found]

end Reader

end BlockScript
