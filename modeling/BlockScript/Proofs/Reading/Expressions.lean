import BlockScript.Proofs.Reading.Holding

namespace BlockScript.Grammar

open Reader

/-!
# Reading an expression keeps its account

Filling a frame turns the beginning of a phrase and its last operand into a
phrase of the frame's level.  Filling every frame that a token ends therefore
leaves a phrase that is at least as tight as the token, behind frames that allow
the token to stand there.
-/

/-- A frame that an operator does not end awaits an operand in which it may stand. -/
theorem awaited_le_of_not_ended
    {frame : Frame}
    {stop : Level}
    (stays : frame.isEndedBy stop = false) :
    frame.awaited.rank ≤ stop.rank := by
  cases frame with
  | binary token own left =>
      have above := rank_tighter (rank_level_lt_unary own)
      simp only [Frame.isEndedBy, Frame.level?, decide_eq_false_iff_not] at stays
      simp only [Frame.awaited]
      omega
  | choice => exact Nat.zero_le _
  | group => exact Nat.zero_le _
  | _ =>
      simp only [Frame.isEndedBy, Frame.level?, decide_eq_false_iff_not] at stays
      simp only [Frame.awaited]
      omega

/-- A frame that a question mark does not end awaits an operand in which it may stand. -/
theorem awaited_le_conditional
    {frame : Frame}
    (stays : frame.isEndedBy .equality = false) :
    frame.awaited.rank ≤ Level.conditional.rank := by
  revert stays
  cases frame with
  | binary token own left =>
      cases own <;>
        simp [Frame.awaited, Frame.isEndedBy, Frame.level?, BinaryOperator.level, tighter, Level.rank]
  | _ =>
      simp [Frame.isEndedBy, Frame.level?, Frame.awaited, Level.rank]

/-- A frame that an equals sign does not end awaits an operand in which it may stand. -/
theorem awaited_le_assignment
    {frame : Frame}
    (stays : frame.isEndedBy .conditional = false) :
    frame.awaited.rank ≤ Level.assignment.rank := by
  revert stays
  cases frame with
  | binary token own left =>
      cases own <;>
        simp [Frame.awaited, Frame.isEndedBy, Frame.level?, BinaryOperator.level, tighter, Level.rank]
  | _ =>
      simp [Frame.isEndedBy, Frame.level?, Frame.awaited, Level.rank]

/-- The innermost frame and its last operand are a phrase of the frame's level. -/
theorem FramesHold.fill
    {frame : Frame}
    {outer : List Frame}
    {level own : Level}
    {tokens exprTokens : List Token}
    {expr : Expr}
    {errors exprErrors : List GrammarError}
    (framed : FramesHold (frame :: outer) tokens errors)
    (levelled : frame.level? = some own)
    (phrase : ExprPhrase level exprTokens expr exprErrors)
    (allows : frame.awaited.rank ≤ level.rank) :
    ∃ outerTokens filledTokens outerErrors filledErrors,
      FramesHold outer outerTokens outerErrors ∧
        Allows outer own ∧
          ExprPhrase own filledTokens (frame.fill expr) filledErrors ∧
            tokens ++ exprTokens = outerTokens ++ filledTokens ∧
              errors ++ (exprErrors ++ frame.error?.toList) = outerErrors ++ filledErrors := by
  have operand := phrase.loosenTo allows
  cases framed with
  | group => cases levelled
  | choice => cases levelled
  | unary around signed =>
      cases levelled
      exact ⟨_, _, _, _, around, fun _ _ => rank_le_unary _, .unary signed operand,
        by simp, by simp [Frame.error?]⟩
  | binary around allowed earlier signed =>
      cases levelled
      exact ⟨_, _, _, _, around, allowed, .binary signed earlier operand,
        by simp, by simp [Frame.error?]⟩
  | assign around allowed assigned assigns =>
      cases levelled
      exact ⟨_, _, _, _, around, allowed, .assign assigned assigns operand, by simp, by simp⟩
  | otherwise around allowed tested asks chosen separates =>
      cases levelled
      exact ⟨_, _, _, _, around, allowed, .conditional tested asks chosen separates operand,
        by simp, by simp [Frame.error?]⟩

/-- An expression whose frames have been filled, accounted for behind given errors. -/
structure CollapseHolds
    (stop : Level)
    (base : List GrammarError)
    (tokens : List Token)
    (collapsed : Collapse) :
    Prop where
  parts :
    ∃ level frameTokens exprTokens frameErrors exprErrors,
      FramesHold collapsed.frames frameTokens frameErrors ∧
        ExprPhrase level exprTokens collapsed.expr exprErrors ∧
          stop.rank ≤ level.rank ∧
            tokens = frameTokens ++ exprTokens ∧
              collapsed.errors.reverse = base ++ (frameErrors ++ exprErrors)
  stays :
    ∀ frame ∈ collapsed.frames.head?, frame.isEndedBy stop = false

/-- Filling the frames that a level ends keeps the account of an expression. -/
theorem FramesHold.collapse
    {stop level : Level}
    {frames : List Frame}
    {tokens exprTokens : List Token}
    {expr : Expr}
    {base frameErrors exprErrors errors : List GrammarError}
    (framed : FramesHold frames tokens frameErrors)
    (phrase : ExprPhrase level exprTokens expr exprErrors)
    (tight : stop.rank ≤ level.rank)
    (allows : Allows frames level)
    (found : errors.reverse = base ++ (frameErrors ++ exprErrors)) :
    CollapseHolds stop base (tokens ++ exprTokens) (collapse stop errors expr frames) := by
  induction frames generalizing level tokens exprTokens expr frameErrors exprErrors errors with
  | nil =>
      exact ⟨⟨level, tokens, exprTokens, frameErrors, exprErrors, framed, phrase, tight, rfl, found⟩,
        by simp [BlockScript.collapse]⟩
  | cons frame outer inductionHypothesis =>
      cases ended : frame.isEndedBy stop with
      | false =>
          simp only [BlockScript.collapse, ended, Bool.false_eq_true, ↓reduceIte]
          exact ⟨⟨level, tokens, exprTokens, frameErrors, exprErrors, framed, phrase, tight, rfl,
            found⟩, by simpa using ended⟩
      | true =>
          cases levelled : frame.level? with
          | none => simp [Frame.isEndedBy, levelled] at ended
          | some own =>
              have within : stop.rank ≤ own.rank := by
                simpa [Frame.isEndedBy, levelled] using ended
              obtain ⟨outerTokens, filledTokens, outerErrors, filledErrors, around, allowed,
                  filled, sameTokens, sameErrors⟩ :=
                framed.fill levelled phrase (allows frame rfl)
              have noted :
                  (frame.error?.toList ++ errors).reverse =
                    base ++ (outerErrors ++ filledErrors) := by
                rw [← sameErrors, List.reverse_append, found]
                cases frame.error? <;> simp
              simp only [BlockScript.collapse, ended, ↓reduceIte]
              rw [sameTokens]
              exact inductionHypothesis around filled within allowed noted

end BlockScript.Grammar
