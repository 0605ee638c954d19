import BlockScript.Proofs.Reading.Feeding

namespace BlockScript

/-!
# Phrases are read as what they stand for

Reading the tokens of a phrase gives the tree that the phrase stands for and
notes exactly the violations in it.  An expression is complete only once the
token behind it is known, so that its statement speaks of that token too: it
must not hold operands together more tightly than the level of the phrase.
-/

namespace Reader

/-- The innermost frame awaits an operand of the given level or a looser one. -/
def Allows
    (frames : List Frame)
    (level : Level) :
    Prop :=
  ∀ frame ∈ frames.head?, frame.awaited.rank ≤ level.rank

/-- Outside every frame each level is allowed. -/
theorem allows_nil
    (level : Level) :
    Allows [] level := by
  intro frame isInnermost
  cases isInnermost

/-- A frame allows what it awaits. -/
theorem allows_cons
    {frame : Frame}
    {outer : List Frame}
    {level : Level}
    (awaits : frame.awaited.rank ≤ level.rank) :
    Allows (frame :: outer) level := by
  intro innermost isInnermost
  cases isInnermost
  exact awaits

/-- What allows a level allows every tighter one. -/
theorem Allows.tighten
    {frames : List Frame}
    {level tight : Level}
    (allows : Allows frames level)
    (tighter : level.rank ≤ tight.rank) :
    Allows frames tight :=
  fun frame isInnermost => Nat.le_trans (allows frame isInnermost) tighter

/-- Frames that a level does not end stay as they are. -/
theorem collapse_of_not_ended
    {stop : Level}
    {frames : List Frame}
    (stays : ∀ frame ∈ frames.head?, frame.isEndedBy stop = false)
    (errors : List GrammarError)
    (operand : Expr) :
    collapse stop errors operand frames = { expr := operand, frames, errors } := by
  cases frames with
  | nil =>
      rfl
  | cons frame outer =>
      simp [collapse, stays frame rfl]

/-- The token where a statement is expected. -/
theorem feed_statement
    (reader : Reader)
    (token : Token) :
    (reader.inMode .statement).feed token = reader.feedStatement token :=
  feedStatement_inMode reader .statement token

/-- The token where a declaration is expected. -/
theorem feed_declaration
    {reader : Reader}
    (expects : reader.mode = .declaration)
    (token : Token) :
    reader.feed token = reader.feedDeclaration token := by
  simp only [feed, expects]

/-- The token where an operand is expected. -/
theorem feed_operand
    (reader : Reader)
    (purpose : Purpose)
    (frames : List Frame)
    (token : Token) :
    (reader.inMode (.operand purpose frames)).feed token =
      reader.feedOperand purpose frames token :=
  feedOperand_inMode reader _ purpose frames token

/-- The token where an operator is expected. -/
theorem feed_operator
    (reader : Reader)
    (purpose : Purpose)
    (frames : List Frame)
    (operand : Expr)
    (token : Token) :
    (reader.inMode (.operator purpose frames operand)).feed token =
      reader.collapseTo (stopLevel token.kind) frames operand
        fun reader expr outer => reader.afterCollapse purpose token expr outer :=
  (feedOperator_inMode reader _ purpose frames operand token).trans
    (feedOperator_eq reader purpose frames operand token)

/-- A token that ends the innermost frame may as well come after it has been filled. -/
theorem feed_operator_fill
    (reader : Reader)
    (purpose : Purpose)
    (frame : Frame)
    (outer : List Frame)
    (operand : Expr)
    {token : Token}
    (ended : frame.isEndedBy (stopLevel token.kind) = true) :
    (reader.inMode (.operator purpose (frame :: outer) operand)).feed token =
      ((reader.noting frame.error?.toList).inMode
        (.operator purpose outer (frame.fill operand))).feed token := by
  have noted :
      frame.error?.toList.reverse ++ reader.errors = frame.error?.toList ++ reader.errors := by
    cases frame.error? <;> rfl
  rw [feed_operator, feed_operator]
  simp [collapseTo, collapse, ended, noting, noted]

/-- A token that ends no frame acts on the operand before it. -/
theorem feed_operator_stop
    (reader : Reader)
    (purpose : Purpose)
    {frames : List Frame}
    (operand : Expr)
    {token : Token}
    (stays : ∀ frame ∈ frames.head?, frame.isEndedBy (stopLevel token.kind) = false) :
    (reader.inMode (.operator purpose frames operand)).feed token =
      reader.afterCollapse purpose token operand frames := by
  rw [feed_operator]
  simp only [collapseTo, collapse_of_not_ended stays]

/-- A binary operator awaits its right operand. -/
theorem feed_binary
    (reader : Reader)
    (purpose : Purpose)
    {frames : List Frame}
    (left : Expr)
    {token : Token}
    {operator : BinaryOperator}
    (signed : BinaryOperator.ofKind? token.kind = some operator)
    (allows : Allows frames operator.level) :
    (reader.inMode (.operator purpose frames left)).feed token =
      reader.inMode (.operand purpose (.binary token operator left :: frames)) := by
  have stop : stopLevel token.kind = operator.level := by
    simp [stopLevel, signed]
  rw [feed_operator_stop reader purpose left]
  · simp [afterCollapse, signed]
  · intro frame isInnermost
    rw [stop]
    exact Frame.not_isEndedBy_level (allows frame isInnermost)

/-- A question mark awaits the middle part of a conditional expression. -/
theorem feed_question
    (reader : Reader)
    (purpose : Purpose)
    {frames : List Frame}
    (condition : Expr)
    {token : Token}
    (asks : token.kind = .mark .question)
    (allows : Allows frames .conditional) :
    (reader.inMode (.operator purpose frames condition)).feed token =
      reader.inMode (.operand purpose (.choice condition :: frames)) := by
  rw [feed_operator_stop reader purpose condition]
  · simp [afterCollapse, asks, BinaryOperator.ofKind?]
  · intro frame isInnermost
    rw [asks]
    exact Frame.not_isEndedBy_of_lt (Nat.lt_succ_of_le (allows frame isInnermost))

/-- An equals sign awaits the value of an assignment. -/
theorem feed_equals
    (reader : Reader)
    (purpose : Purpose)
    {frames : List Frame}
    (target : Expr)
    {token : Token}
    (assigns : token.kind = .mark .equal)
    (allows : Allows frames .assignment) :
    (reader.inMode (.operator purpose frames target)).feed token =
      reader.inMode (.operand purpose (.assign target token :: frames)) := by
  rw [feed_operator_stop reader purpose target]
  · simp [afterCollapse, assigns, BinaryOperator.ofKind?]
  · intro frame isInnermost
    rw [assigns]
    exact Frame.not_isEndedBy_of_lt (Nat.lt_succ_of_le (allows frame isInnermost))

/-- A closing parenthesis ends the group it belongs to. -/
theorem feed_closingParen
    (reader : Reader)
    (purpose : Purpose)
    (outer : List Frame)
    (expr : Expr)
    {token : Token}
    (closes : token.kind = .mark .rightParen) :
    (reader.inMode (.operator purpose (.group :: outer) expr)).feed token =
      reader.inMode (.operator purpose outer (.group expr)) := by
  rw [feed_operator_stop reader purpose expr]
  · simp [afterCollapse, closes, BinaryOperator.ofKind?, feedClosing, inMode]
  · rintro frame ⟨⟩
    rfl

/-- A colon ends the middle part of a conditional expression. -/
theorem feed_colon
    (reader : Reader)
    (purpose : Purpose)
    (outer : List Frame)
    (condition thenValue : Expr)
    {token : Token}
    (separates : token.kind = .mark .colon) :
    (reader.inMode (.operator purpose (.choice condition :: outer) thenValue)).feed token =
      reader.inMode (.operand purpose (.otherwise condition thenValue :: outer)) := by
  rw [feed_operator_stop reader purpose thenValue]
  · simp [afterCollapse, separates, BinaryOperator.ofKind?, feedClosing, inMode]
  · rintro frame ⟨⟩
    rfl

end Reader

namespace Grammar

open Reader

/-- A token that is an expression on its own is an operand. -/
theorem feedOperand_of_exprOfToken?
    (reader : Reader)
    (purpose : Purpose)
    (frames : List Frame)
    {token : Token}
    {expr : Expr}
    (alone : exprOfToken? token = some expr) :
    reader.feedOperand purpose frames token =
      reader.inMode (.operator purpose frames expr) := by
  unfold exprOfToken? at alone
  unfold feedOperand
  split at alone <;> simp_all [inMode]

/-- An opening parenthesis begins a group. -/
theorem feedOperand_leftParen
    (reader : Reader)
    (purpose : Purpose)
    (frames : List Frame)
    {token : Token}
    (opens : token.kind = .mark .leftParen) :
    reader.feedOperand purpose frames token =
      reader.inMode (.operand purpose (.group :: frames)) := by
  simp [feedOperand, opens, inMode]

/-- An operator before an operand awaits that operand. -/
theorem feedOperand_unary
    (reader : Reader)
    (purpose : Purpose)
    (frames : List Frame)
    {token : Token}
    {operator : UnaryOperator}
    (signed : UnaryOperator.ofKind? token.kind = some operator) :
    reader.feedOperand purpose frames token =
      reader.inMode (.operand purpose (.unary token operator :: frames)) := by
  unfold UnaryOperator.ofKind? at signed
  split at signed <;> simp_all [feedOperand, inMode, UnaryOperator.ofKind?]

/-- Any other token cannot stand where an operand is expected. -/
theorem feedOperand_reject
    (reader : Reader)
    (purpose : Purpose)
    (frames : List Frame)
    {token : Token}
    (notAlone : exprOfToken? token = none)
    (notParen : token.kind ≠ .mark .leftParen)
    (notSigned : UnaryOperator.ofKind? token.kind = none) :
    reader.feedOperand purpose frames token = reader.reject token .expectExpression := by
  unfold exprOfToken? at notAlone
  unfold feedOperand
  split <;> simp_all

/-- The tokens of an expression phrase leave the reader behind the expression. -/
theorem ExprPhrase.feedAll_feed
    {level : Level}
    {tokens : List Token}
    {expr : Expr}
    {errors : List GrammarError}
    (phrase : ExprPhrase level tokens expr errors)
    (reader : Reader)
    (purpose : Purpose)
    {frames : List Frame}
    (allows : Allows frames level)
    {next : Token}
    (stops : (stopLevel next.kind).rank ≤ level.rank) :
    ((reader.inMode (.operand purpose frames)).feedAll tokens).feed next =
      ((reader.noting errors).inMode (.operator purpose frames expr)).feed next := by
  induction phrase generalizing reader purpose frames next with
  | @atom token expr alone =>
      rw [feedAll_cons, feed_operand, feedOperand_of_exprOfToken? _ _ _ alone]
      rfl
  | @group opening closing tokens expr errors opens _ closes inner =>
      have stop : stopLevel closing.kind = .comma := by
        rw [closes]
        rfl
      rw [feedAll_cons, feed_operand, feedOperand_leftParen _ _ _ opens, feedAll_append,
        feedAll_cons, feedAll_nil,
        inner reader purpose (allows_cons (Nat.le_refl _)) (Nat.le_of_eq (congrArg Level.rank stop)),
        feed_closingParen _ _ _ _ closes]
  | @unary token operator tokens expr errors signed _ operand =>
      rw [feedAll_cons, feed_operand, feedOperand_unary _ _ _ signed,
        operand reader purpose (allows_cons (Nat.le_refl _)) stops,
        feed_operator_fill _ _ _ _ _ (by simpa [Frame.isEndedBy, Frame.level?] using stops)]
      rfl
  | @binary token operator left right leftExpr rightExpr _ _ signed _ _ earlier last =>
      have stop : stopLevel token.kind = operator.level := by
        simp [stopLevel, signed]
      have below := rank_le_tighter operator.level
      rw [feedAll_append, feedAll_cons,
        earlier reader purpose allows (Nat.le_of_eq (congrArg Level.rank stop)),
        feed_binary _ _ _ signed allows,
        last _ purpose (allows_cons (Nat.le_refl _)) (Nat.le_trans stops below),
        feed_operator_fill _ _ _ _ _ (by simpa [Frame.isEndedBy, Frame.level?] using stops)]
      simp [Frame.fill, Frame.error?]
  | @conditional question colon _ _ _ _ _ _ _ _ _ _ asks _ separates _ tested chosen alternative =>
      have stopQuestion : stopLevel question.kind = .equality := by
        rw [asks]
        rfl
      have stopColon : stopLevel colon.kind = .comma := by
        rw [separates]
        rfl
      rw [feedAll_append, feedAll_cons,
        tested reader purpose (allows.tighten (by decide)) (Nat.le_of_eq (congrArg Level.rank stopQuestion)),
        feed_question _ _ _ asks allows, feedAll_append, feedAll_cons,
        chosen _ purpose (allows_cons (Nat.le_refl _)) (Nat.le_of_eq (congrArg Level.rank stopColon)),
        feed_colon _ _ _ _ _ separates,
        alternative _ purpose (allows_cons (Nat.le_refl _)) stops,
        feed_operator_fill _ _ _ _ _ (by simpa [Frame.isEndedBy, Frame.level?] using stops)]
      simp [Frame.fill, Frame.error?]
  | @assign equals _ _ _ _ _ _ _ assigns _ assigned source =>
      have stop : stopLevel equals.kind = .conditional := by
        rw [assigns]
        rfl
      rw [feedAll_append, feedAll_cons,
        assigned reader purpose (allows.tighten (by decide)) (Nat.le_of_eq (congrArg Level.rank stop)),
        feed_equals _ _ _ assigns allows,
        source _ purpose (allows_cons (Nat.le_refl _)) stops,
        feed_operator_fill _ _ _ _ _ (by simpa [Frame.isEndedBy, Frame.level?] using stops)]
      simp
  | @loosen level _ _ _ _ inner =>
      have below := rank_le_tighter level
      exact inner reader purpose (allows.tighten below) (Nat.le_trans stops below)

/-- The tokens of an expression phrase and what its purpose demands complete that purpose. -/
theorem ExprPhrase.feedAll_feedPurpose
    {tokens : List Token}
    {expr : Expr}
    {errors : List GrammarError}
    (phrase : ExprPhrase .comma tokens expr errors)
    (reader : Reader)
    (purpose : Purpose)
    {next : Token}
    (demanded : next.kind = .mark .semicolon ∨ next.kind = .mark .rightParen) :
    ((reader.inMode (.operand purpose [])).feedAll tokens).feed next =
      (reader.noting errors).feedPurpose expr next purpose := by
  have stop : stopLevel next.kind = .comma := by
    rcases demanded with isSemicolon | isParen
    · rw [isSemicolon]
      rfl
    · rw [isParen]
      rfl
  rw [phrase.feedAll_feed reader purpose (allows_nil _)
      (Nat.le_of_eq (congrArg Level.rank stop)),
    feed_operator_stop _ _ _ (by simp)]
  rcases demanded with isSemicolon | isParen
  · simp [afterCollapse, isSemicolon, BinaryOperator.ofKind?, feedClosing]
  · simp [afterCollapse, isParen, BinaryOperator.ofKind?, feedClosing]

/-- Where a token that begins an expression is read as an operand, so is the whole phrase. -/
theorem ExprPhrase.feedAll_congr
    {level : Level}
    {tokens : List Token}
    {expr : Expr}
    {errors : List GrammarError}
    (phrase : ExprPhrase level tokens expr errors)
    {reader waiting : Reader}
    {purpose : Purpose}
    (begins :
      ∀ first : Token, beginsExpression first.kind = true →
        waiting.feed first = reader.feedOperand purpose [] first) :
    waiting.feedAll tokens = (reader.inMode (.operand purpose [])).feedAll tokens := by
  obtain ⟨first, rest, rfl, isFirst⟩ := phrase.exists_first
  rw [feedAll_cons, feedAll_cons, begins first isFirst, feed_operand]

/-- An expression statement is read where a statement is expected. -/
theorem feedStatement_of_beginsExpression
    (reader : Reader)
    {first : Token}
    (begins : beginsExpression first.kind = true) :
    reader.feedStatement first = reader.feedOperand (.statement .alone) [] first := by
  unfold feedStatement
  split <;> simp_all [beginsExpression]

/-- A statement is read where a declaration is expected. -/
theorem feedDeclaration_of_beginsStatement
    (reader : Reader)
    {first : Token}
    (begins : beginsStatement first.kind = true) :
    reader.feedDeclaration first = reader.feedStatement first := by
  have notBrace : first.kind ≠ .mark .rightBrace := by
    intro isBrace
    rw [isBrace] at begins
    cases begins
  have notVar : first.kind ≠ .keyword .varWord := by
    intro isVar
    rw [isVar] at begins
    cases begins
  have notClosed : reader.closedBy? first = none := by
    unfold closedBy?
    split
    · rename_i isBrace _
      exact (notBrace isBrace).elim
    · rfl
  simp [feedDeclaration, notClosed, notVar]

/-- The tokens of a declaration phrase declare its variable where its word has been taken. -/
theorem VariablePhrase.feedAll_eq
    {word : Token}
    {tokens : List Token}
    {statement : Stmt}
    {errors : List GrammarError}
    (phrase : VariablePhrase (word :: tokens) statement errors)
    (reader : Reader)
    (place : Place) :
    (reader.inMode (.name place)).feedAll tokens =
      (reader.noting errors).completeAt statement place := by
  cases phrase with
  | @bare _ name semicolon _ named ends =>
      have atName :
          (reader.inMode (.name place)).feed name = reader.inMode (.afterName place name) := by
        simp [feed, inMode, named]
      have atEnd :
          (reader.inMode (.afterName place name)).feed semicolon =
            (reader.inMode (.afterName place name)).completeAt (.declare name none) place := by
        simp [feed, inMode, ends]
      rw [feedAll_cons, atName, feedAll_cons, atEnd, completeAt_inMode]
      rfl
  | @initialized _ name equals semicolon initial expr _ _ named assigns value ends =>
      have atName :
          (reader.inMode (.name place)).feed name = reader.inMode (.afterName place name) := by
        simp [feed, inMode, named]
      have atEquals :
          (reader.inMode (.afterName place name)).feed equals =
            reader.inMode (.operand (.initial place name) []) := by
        simp [feed, inMode, assigns]
      rw [feedAll_cons, atName, feedAll_cons, atEquals, feedAll_append, feedAll_cons, feedAll_nil,
        value.feedAll_feedPurpose reader _ (.inl ends)]
      simp [feedPurpose, ends]

end Grammar

end BlockScript
