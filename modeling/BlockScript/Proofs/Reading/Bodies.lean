import BlockScript.Proofs.Reading.Phrases
import BlockScript.Proofs.Grammar.Agreement

namespace BlockScript

/-!
# Statements and bodies are read as what they stand for

A statement that ends in a conditional without an alternative is complete only
once the token behind it is known not to be an `else`.  `Reader.Completes` says
what is known before that: the reader becomes the completed one when settled,
and is already the completed one when the statement is closed.
-/

namespace Reader

/-- The reader inside a clause that has begun. -/
def within
    (reader : Reader)
    (clause : Clause) :
    Reader :=
  { reader with clauses := clause :: reader.clauses }

/-- The reader with statements added to those of the innermost block. -/
def adding
    (reader : Reader)
    (statements : List Stmt) :
    Reader :=
  { reader with done := statements.reverse ++ reader.done }

/-- Errors are noted alike inside and outside a clause. -/
theorem noting_within
    (reader : Reader)
    (clause : Clause)
    (errors : List GrammarError) :
    (reader.within clause).noting errors = (reader.noting errors).within clause :=
  rfl

/-- A clause that awaits a statement. -/
theorem await_eq
    (reader : Reader)
    (clause : Clause) :
    reader.await clause = (reader.within clause).inMode .statement :=
  rfl

/-- Whether the reader is in a loop inside a clause. -/
theorem inLoop_within
    (reader : Reader)
    (clause : Clause) :
    (reader.within clause).inLoop = (clause.isLoop || reader.inLoop) := by
  simp [within, inLoop, Bool.or_assoc]

/-- Only the clauses given count for a completed statement. -/
theorem completeIn_within
    (reader : Reader)
    (clause : Clause)
    (statement : Stmt)
    (clauses : List Clause) :
    (reader.within clause).completeIn statement clauses =
      reader.completeIn statement clauses := by
  induction clauses generalizing statement with
  | nil =>
      rfl
  | cons innermost outer inductionHypothesis =>
      cases innermost with
      | ifThen condition => rfl
      | _ => exact inductionHypothesis _

/-- A statement with the given ending has been read into a result. -/
structure Completes
    (ending : Grammar.Ending)
    (result reader : Reader)
    (statement : Stmt) :
    Prop where
  closed :
    ending = .closed → result = reader.complete statement
  settled :
    result.settled = reader.settle statement

namespace Completes

/-- A statement that is complete at once. -/
theorem of_complete
    {ending : Grammar.Ending}
    {result reader : Reader}
    {statement : Stmt}
    (done : result = reader.complete statement) :
    Completes ending result reader statement where
  closed _ :=
    done
  settled := by
    rw [done]
    exact settled_complete reader statement

/-- A statement completes the clause that awaits it and no alternative. -/
theorem fill
    {ending : Grammar.Ending}
    {result reader : Reader}
    {statement : Stmt}
    {clause : Clause}
    (completes : Completes ending result (reader.within clause) statement)
    (noAlternative : ∀ condition, clause ≠ .ifThen condition) :
    Completes ending result reader (clause.fill statement) where
  closed isClosed := by
    rw [completes.closed isClosed]
    cases clause with
    | ifThen condition => exact (noAlternative condition rfl).elim
    | _ => exact completeIn_within reader _ _ reader.clauses
  settled :=
    completes.settled

/-- A statement without an alternative behind it completes its conditional when settled. -/
theorem fillThen
    {ending : Grammar.Ending}
    {result reader : Reader}
    {statement : Stmt}
    {condition : Expr}
    (completes : Completes ending result (reader.within (.ifThen condition)) statement) :
    Completes .extensible result reader (.ifThen condition statement) where
  closed isClosed := by
    cases isClosed
  settled :=
    completes.settled

end Completes

/-- A brace opens a block inside the statement that is being read. -/
def opened
    (reader : Reader) :
    Reader where
  errors :=
    reader.errors
  outer :=
    { before := reader.done, clauses := reader.clauses } :: reader.outer
  done :=
    []
  clauses :=
    []
  mode :=
    .declaration

/-- A block lies in a loop exactly when the statement that holds it does. -/
theorem inLoop_opened
    (reader : Reader) :
    reader.opened.inLoop = reader.inLoop := by
  simp [opened, inLoop]

/-- An opening brace opens a block. -/
theorem feedStatement_leftBrace
    (reader : Reader)
    {token : Token}
    (opens : token.kind = .mark .leftBrace) :
    reader.feedStatement token = reader.opened := by
  simp [feedStatement, opens, opened]

/-- A closing brace completes the block that was opened last. -/
theorem feed_rightBrace
    (reader closing : Reader)
    (statements : List Stmt)
    {token : Token}
    (closes : token.kind = .mark .rightBrace)
    (read : closing.settled = reader.opened.adding statements) :
    closing.feed token = reader.complete (.block statements) := by
  have notElse : token.kind ≠ .keyword .elseWord := by
    rw [closes]
    decide
  have closed :
      (reader.opened.adding statements).closedBy? token =
        some (reader.complete (.block statements)) := by
    simp only [closedBy?, closes, opened, adding, List.append_nil, List.reverse_reverse]
    exact congrArg some (complete_inMode reader .declaration (.block statements))
  have expects : (reader.opened.adding statements).mode = .declaration := rfl
  rw [← feed_settled closing notElse, read, feed_declaration expects, feedDeclaration, closed]

end Reader

namespace Grammar

open Reader

/-- The first part of the header of a counting loop is read where it is expected. -/
theorem InitialPhrase.feedAll_eq
    {tokens : List Token}
    {initial : Option Stmt}
    {errors : List GrammarError}
    (phrase : InitialPhrase tokens initial errors)
    (reader : Reader) :
    (reader.inMode .forInitial).feedAll tokens =
      (reader.noting errors).inMode (.forCondition initial) := by
  cases phrase with
  | missing ends =>
      simp [feed, inMode, ends]
  | declare declares =>
      obtain ⟨word, rest, rfl, begins⟩ := declares.exists_first
      have atWord :
          (reader.inMode .forInitial).feed word = reader.inMode (.name .loopHeader) := by
        simp [feed, inMode, begins]
      rw [feedAll_cons, atWord, declares.feedAll_eq reader .loopHeader]
      rfl
  | @expression semicolon before expr _ value ends =>
      have atFirst :
          ∀ first : Token, beginsExpression first.kind = true →
            (reader.inMode .forInitial).feed first =
              reader.feedOperand (.statement .loopHeader) [] first := by
        intro first begins
        rw [← feedOperand_inMode reader .forInitial]
        simp only [feed, inMode]
        split <;> simp_all [beginsExpression]
      rw [feedAll_append, value.feedAll_congr atFirst, feedAll_cons, feedAll_nil,
        value.feedAll_feedPurpose reader _ (.inl ends)]
      simp [feedPurpose, ends, completeAt, inMode]

/-- The second part of the header of a counting loop is read where it is expected. -/
theorem OptionalPhrase.feedAll_condition
    {tokens : List Token}
    {condition : Option Expr}
    {errors : List GrammarError}
    (phrase : OptionalPhrase tokens condition errors)
    (reader : Reader)
    (initial : Option Stmt)
    {semicolon : Token}
    (ends : semicolon.kind = .mark .semicolon) :
    ((reader.inMode (.forCondition initial)).feedAll tokens).feed semicolon =
      (reader.noting errors).inMode (.forStep initial condition) := by
  cases phrase with
  | missing =>
      simp [feed, inMode, ends]
  | present value =>
      have atFirst :
          ∀ first : Token, beginsExpression first.kind = true →
            (reader.inMode (.forCondition initial)).feed first =
              reader.feedOperand (.forCondition initial) [] first := by
        intro first begins
        rw [← feedOperand_inMode reader (.forCondition initial)]
        simp only [feed, inMode]
        split <;> simp_all [beginsExpression]
      rw [value.feedAll_congr atFirst, value.feedAll_feedPurpose reader _ (.inl ends)]
      simp [feedPurpose, ends, inMode]

/-- The third part of the header of a counting loop is read where it is expected. -/
theorem OptionalPhrase.feedAll_step
    {tokens : List Token}
    {step : Option Expr}
    {errors : List GrammarError}
    (phrase : OptionalPhrase tokens step errors)
    (reader : Reader)
    (initial : Option Stmt)
    (condition : Option Expr)
    {closing : Token}
    (closes : closing.kind = .mark .rightParen) :
    ((reader.inMode (.forStep initial condition)).feedAll tokens).feed closing =
      (reader.noting errors).await (.forBody initial condition step) := by
  cases phrase with
  | missing =>
      simp [feed, inMode, closes, await]
  | present value =>
      have atFirst :
          ∀ first : Token, beginsExpression first.kind = true →
            (reader.inMode (.forStep initial condition)).feed first =
              reader.feedOperand (.forStep initial condition) [] first := by
        intro first begins
        rw [← feedOperand_inMode reader (.forStep initial condition)]
        simp only [feed, inMode]
        split <;> simp_all [beginsExpression]
      rw [value.feedAll_congr atFirst, value.feedAll_feedPurpose reader _ (.inr closes)]
      simp [feedPurpose, closes]

/-- The header of a statement with a condition awaits the statement inside it. -/
theorem feedAll_conditionHeader
    (reader : Reader)
    {word opening closing : Token}
    {condition : List Token}
    {expr : Expr}
    {errors : List GrammarError}
    {header : Header}
    {purpose : Purpose}
    {clause : Expr → Clause}
    (atWord : (reader.inMode .statement).feed word = reader.inMode (.header header))
    (atOpening :
      (reader.inMode (.header header)).feed opening = reader.inMode (.operand purpose []))
    (tested : ExprPhrase .comma condition expr errors)
    (closes : closing.kind = .mark .rightParen)
    (atClosing :
      ∀ before : Reader, before.feedPurpose expr closing purpose = before.await (clause expr))
    (rest : List Token) :
    (reader.inMode .statement).feedAll (word :: opening :: (condition ++ closing :: rest)) =
      (((reader.noting errors).within (clause expr)).inMode .statement).feedAll rest := by
  rw [feedAll_cons, atWord, feedAll_cons, atOpening, feedAll_append, feedAll_cons,
    tested.feedAll_feedPurpose reader _ (.inr closes), atClosing, await_eq]

/-- The header of a conditional statement awaits its first branch. -/
theorem feedAll_ifHeader
    (reader : Reader)
    {word opening closing : Token}
    {condition : List Token}
    {expr : Expr}
    {errors : List GrammarError}
    (begins : word.kind = .keyword .ifWord)
    (opens : opening.kind = .mark .leftParen)
    (tested : ExprPhrase .comma condition expr errors)
    (closes : closing.kind = .mark .rightParen)
    (rest : List Token) :
    (reader.inMode .statement).feedAll (word :: opening :: (condition ++ closing :: rest)) =
      (((reader.noting errors).within (.ifThen expr)).inMode .statement).feedAll rest :=
  feedAll_conditionHeader reader
    (by simp [feed, feedStatement, inMode, begins] : _ = reader.inMode (.header .ifHeader))
    (by simp [feed, inMode, opens] : _ = reader.inMode (.operand .ifCondition []))
    tested closes (fun before => by simp [feedPurpose, closes]) rest

/-- The header of a loop with a condition awaits its body. -/
theorem feedAll_whileHeader
    (reader : Reader)
    {word opening closing : Token}
    {condition : List Token}
    {expr : Expr}
    {errors : List GrammarError}
    (begins : word.kind = .keyword .whileWord)
    (opens : opening.kind = .mark .leftParen)
    (tested : ExprPhrase .comma condition expr errors)
    (closes : closing.kind = .mark .rightParen)
    (rest : List Token) :
    (reader.inMode .statement).feedAll (word :: opening :: (condition ++ closing :: rest)) =
      (((reader.noting errors).within (.whileBody expr)).inMode .statement).feedAll rest :=
  feedAll_conditionHeader reader
    (by simp [feed, feedStatement, inMode, begins] : _ = reader.inMode (.header .whileHeader))
    (by simp [feed, inMode, opens] : _ = reader.inMode (.operand .whileCondition []))
    tested closes (fun before => by simp [feedPurpose, closes]) rest

/-- The header of a counting loop awaits its body. -/
theorem feedAll_forHeader
    (reader : Reader)
    {word opening semicolon closing : Token}
    {initial condition step : List Token}
    {initialStmt : Option Stmt}
    {conditionExpr stepExpr : Option Expr}
    {initialErrors conditionErrors stepErrors : List GrammarError}
    (begins : word.kind = .keyword .forWord)
    (opens : opening.kind = .mark .leftParen)
    (first : InitialPhrase initial initialStmt initialErrors)
    (second : OptionalPhrase condition conditionExpr conditionErrors)
    (separates : semicolon.kind = .mark .semicolon)
    (third : OptionalPhrase step stepExpr stepErrors)
    (closes : closing.kind = .mark .rightParen)
    (rest : List Token) :
    (reader.inMode .statement).feedAll
        (word :: opening :: (initial ++ (condition ++ semicolon :: (step ++ closing :: rest)))) =
      (((reader.noting (initialErrors ++ (conditionErrors ++ stepErrors))).within
        (.forBody initialStmt conditionExpr stepExpr)).inMode .statement).feedAll rest := by
  have atWord :
      (reader.inMode .statement).feed word = reader.inMode (.header .forHeader) := by
    simp [feed, feedStatement, inMode, begins]
  have atOpening :
      (reader.inMode (.header .forHeader)).feed opening = reader.inMode .forInitial := by
    simp [feed, inMode, opens]
  rw [feedAll_cons, atWord, feedAll_cons, atOpening, feedAll_append, first.feedAll_eq reader,
    feedAll_append, feedAll_cons, second.feedAll_condition _ _ separates, feedAll_append,
    feedAll_cons, third.feedAll_step _ _ _ closes, await_eq, noting_noting, noting_noting]

/-- A reader that has settled after some tokens goes on from there. -/
theorem settled_feedAll_append
    {reader middle : Reader}
    {tokens rest : List Token}
    (reached : (reader.feedAll tokens).settled = middle)
    (notElse : ∀ token ∈ rest.head?, token.kind ≠ .keyword .elseWord) :
    (reader.feedAll (tokens ++ rest)).settled = (middle.feedAll rest).settled := by
  rw [feedAll_append, ← reached, settled_feedAll_settled _ notElse]

/-- Where a declaration is expected, a statement phrase is read as a statement. -/
theorem StatementPhrase.feedAll_declaration
    {inLoop : Bool}
    {ending : Ending}
    {tokens : List Token}
    {statement : Stmt}
    {errors : List GrammarError}
    (phrase : StatementPhrase inLoop ending tokens statement errors)
    {reader : Reader}
    (expects : reader.mode = .declaration) :
    reader.feedAll tokens = (reader.inMode .statement).feedAll tokens := by
  obtain ⟨first, rest, rfl, begins⟩ := phrase.exists_first
  rw [feedAll_cons, feedAll_cons, feed_declaration expects, feed_statement,
    feedDeclaration_of_beginsStatement reader begins]

/-- Where a declaration is expected, a declaration phrase declares its variable. -/
theorem VariablePhrase.feedAll_declaration
    {tokens : List Token}
    {statement : Stmt}
    {errors : List GrammarError}
    (phrase : VariablePhrase tokens statement errors)
    {reader : Reader}
    (expects : reader.mode = .declaration) :
    reader.feedAll tokens = (reader.noting errors).complete statement := by
  obtain ⟨word, rest, rfl, begins⟩ := phrase.exists_first
  have atWord : reader.feed word = reader.inMode (.name .alone) := by
    rw [feed_declaration expects]
    simp [feedDeclaration, closedBy?, begins, inMode]
  rw [feedAll_cons, atWord, phrase.feedAll_eq reader .alone]
  rfl

/-- Wherever a statement is expected, the tokens complete the statement and note the errors. -/
def StatementReads
    (inLoop : Bool)
    (ending : Ending)
    (tokens : List Token)
    (statement : Stmt)
    (errors : List GrammarError) :
    Prop :=
  ∀ reader : Reader, reader.inLoop = inLoop →
    Completes ending ((reader.inMode .statement).feedAll tokens) (reader.noting errors) statement

/-- Wherever a block begins or goes on, the tokens add the statements and note the errors. -/
def BodyReads
    (inLoop : Bool)
    (tokens : List Token)
    (statements : List Stmt)
    (errors : List GrammarError) :
    Prop :=
  ∀ reader : Reader, reader.inLoop = inLoop → reader.mode = .declaration → reader.clauses = [] →
    (reader.feedAll tokens).settled = (reader.noting errors).adding statements

/-- A block is read when its body is. -/
theorem StatementReads.block
    {inLoop : Bool}
    {opening closing : Token}
    {tokens : List Token}
    {statements : List Stmt}
    {errors : List GrammarError}
    (opens : opening.kind = .mark .leftBrace)
    (body : BodyReads inLoop tokens statements errors)
    (closes : closing.kind = .mark .rightBrace) :
    StatementReads inLoop .closed (opening :: (tokens ++ [closing]))
      (.block statements) errors := by
  intro reader inside
  have read := body reader.opened ((inLoop_opened reader).trans inside) rfl rfl
  apply Completes.of_complete
  rw [feedAll_cons, feed_statement, feedStatement_leftBrace reader opens, feedAll_append,
    feedAll_cons, feedAll_nil]
  apply feed_rightBrace (reader.noting errors) _ statements closes
  rw [read]
  rfl

/-- Leaving a loop is read, and noted outside every loop. -/
theorem StatementReads.leave
    {inLoop : Bool}
    {word semicolon : Token}
    (begins : word.kind = .keyword .breakWord)
    (ends : semicolon.kind = .mark .semicolon) :
    StatementReads inLoop .closed [word, semicolon] (.leave word) (leaveErrors inLoop word) := by
  intro reader inside
  have atEnd :
      ∀ before : Reader,
        (before.inMode (.leave word)).feed semicolon = before.complete (.leave word) := by
    intro before
    rw [← complete_inMode before (.leave word)]
    simp [feed, inMode, ends]
  apply Completes.of_complete
  rw [feedAll_cons, feed_statement, feedStatement_break reader begins, inside, feedAll_cons,
    atEnd, feedAll_nil]

/-- An expression statement is read. -/
theorem StatementReads.expression
    {inLoop : Bool}
    {semicolon : Token}
    {tokens : List Token}
    {expr : Expr}
    {errors : List GrammarError}
    (value : ExprPhrase .comma tokens expr errors)
    (ends : semicolon.kind = .mark .semicolon) :
    StatementReads inLoop .closed (tokens ++ [semicolon]) (.expression expr) errors := by
  intro reader _
  have atFirst :
      ∀ first : Token, beginsExpression first.kind = true →
        (reader.inMode .statement).feed first =
          reader.feedOperand (.statement .alone) [] first :=
    fun first begins =>
      (feed_statement reader first).trans (feedStatement_of_beginsExpression reader begins)
  apply Completes.of_complete
  rw [feedAll_append, value.feedAll_congr atFirst, feedAll_cons, feedAll_nil,
    value.feedAll_feedPurpose reader _ (.inl ends)]
  simp [feedPurpose, ends, completeAt]

/-- A print statement is read. -/
theorem StatementReads.print
    {inLoop : Bool}
    {word semicolon : Token}
    {tokens : List Token}
    {expr : Expr}
    {errors : List GrammarError}
    (begins : word.kind = .keyword .printWord)
    (value : ExprPhrase .comma tokens expr errors)
    (ends : semicolon.kind = .mark .semicolon) :
    StatementReads inLoop .closed (word :: (tokens ++ [semicolon])) (.print expr) errors := by
  intro reader _
  have atWord :
      (reader.inMode .statement).feed word = reader.inMode (.operand .print []) := by
    simp [feed, feedStatement, inMode, begins]
  apply Completes.of_complete
  rw [feedAll_cons, atWord, feedAll_append, feedAll_cons, feedAll_nil,
    value.feedAll_feedPurpose reader _ (.inl ends)]
  simp [feedPurpose, ends]

/-- A conditional without an alternative is read when its branch is. -/
theorem StatementReads.ifThen
    {inLoop : Bool}
    {ending : Ending}
    {word opening closing : Token}
    {condition thenBranch : List Token}
    {expr : Expr}
    {thenStmt : Stmt}
    {conditionErrors thenErrors : List GrammarError}
    (begins : word.kind = .keyword .ifWord)
    (opens : opening.kind = .mark .leftParen)
    (tested : ExprPhrase .comma condition expr conditionErrors)
    (closes : closing.kind = .mark .rightParen)
    (chosen : StatementReads inLoop ending thenBranch thenStmt thenErrors) :
    StatementReads inLoop .extensible (word :: opening :: (condition ++ closing :: thenBranch))
      (.ifThen expr thenStmt) (conditionErrors ++ thenErrors) := by
  intro reader inside
  have branch :=
    chosen ((reader.noting conditionErrors).within (.ifThen expr))
      ((inLoop_within _ _).trans inside)
  rw [noting_within] at branch
  rw [feedAll_ifHeader reader begins opens tested closes, ← noting_noting]
  exact branch.fillThen

/-- A conditional with an alternative is read when both branches are. -/
theorem StatementReads.ifElse
    {inLoop : Bool}
    {ending : Ending}
    {word opening closing otherwise : Token}
    {condition thenBranch elseBranch : List Token}
    {expr : Expr}
    {thenStmt elseStmt : Stmt}
    {conditionErrors thenErrors elseErrors : List GrammarError}
    (begins : word.kind = .keyword .ifWord)
    (opens : opening.kind = .mark .leftParen)
    (tested : ExprPhrase .comma condition expr conditionErrors)
    (closes : closing.kind = .mark .rightParen)
    (chosen : StatementReads inLoop .closed thenBranch thenStmt thenErrors)
    (separates : otherwise.kind = .keyword .elseWord)
    (alternative : StatementReads inLoop ending elseBranch elseStmt elseErrors) :
    StatementReads inLoop ending
      (word :: opening :: (condition ++ closing :: (thenBranch ++ otherwise :: elseBranch)))
      (.ifElse expr thenStmt elseStmt) (conditionErrors ++ (thenErrors ++ elseErrors)) := by
  intro reader inside
  have branch :=
    chosen ((reader.noting conditionErrors).within (.ifThen expr))
      ((inLoop_within _ _).trans inside)
  have atElse :
      ((((reader.noting conditionErrors).within (.ifThen expr)).noting thenErrors).complete
          thenStmt).feed otherwise =
        (((reader.noting (conditionErrors ++ thenErrors)).within
          (.ifElse expr thenStmt)).inMode .statement) := by
    rw [← noting_noting]
    simp [complete, completeIn, within, noting, feed, separates, await, inMode]
  have rest :=
    alternative ((reader.noting (conditionErrors ++ thenErrors)).within (.ifElse expr thenStmt))
      ((inLoop_within _ _).trans inside)
  rw [noting_within, noting_noting, List.append_assoc] at rest
  rw [feedAll_ifHeader reader begins opens tested closes, feedAll_append, feedAll_cons,
    branch.closed rfl, atElse]
  exact rest.fill (by simp)

/-- A loop with a condition is read when its body is. -/
theorem StatementReads.whileLoop
    {inLoop : Bool}
    {ending : Ending}
    {word opening closing : Token}
    {condition body : List Token}
    {expr : Expr}
    {bodyStmt : Stmt}
    {conditionErrors bodyErrors : List GrammarError}
    (begins : word.kind = .keyword .whileWord)
    (opens : opening.kind = .mark .leftParen)
    (tested : ExprPhrase .comma condition expr conditionErrors)
    (closes : closing.kind = .mark .rightParen)
    (repeated : StatementReads true ending body bodyStmt bodyErrors) :
    StatementReads inLoop ending (word :: opening :: (condition ++ closing :: body))
      (.loop expr bodyStmt) (conditionErrors ++ bodyErrors) := by
  intro reader _
  have rest :=
    repeated ((reader.noting conditionErrors).within (.whileBody expr)) (inLoop_within _ _)
  rw [noting_within] at rest
  rw [feedAll_whileHeader reader begins opens tested closes, ← noting_noting]
  exact rest.fill (by simp)

/-- A counting loop is read when its body is. -/
theorem StatementReads.forLoop
    {inLoop : Bool}
    {ending : Ending}
    {word opening semicolon closing : Token}
    {initial condition step body : List Token}
    {initialStmt : Option Stmt}
    {conditionExpr stepExpr : Option Expr}
    {bodyStmt : Stmt}
    {initialErrors conditionErrors stepErrors bodyErrors : List GrammarError}
    (begins : word.kind = .keyword .forWord)
    (opens : opening.kind = .mark .leftParen)
    (first : InitialPhrase initial initialStmt initialErrors)
    (second : OptionalPhrase condition conditionExpr conditionErrors)
    (separates : semicolon.kind = .mark .semicolon)
    (third : OptionalPhrase step stepExpr stepErrors)
    (closes : closing.kind = .mark .rightParen)
    (repeated : StatementReads true ending body bodyStmt bodyErrors) :
    StatementReads inLoop ending
      (word :: opening :: (initial ++ (condition ++ semicolon :: (step ++ closing :: body))))
      (.forLoop initialStmt conditionExpr stepExpr bodyStmt)
      (initialErrors ++ (conditionErrors ++ (stepErrors ++ bodyErrors))) := by
  intro reader _
  have rest :=
    repeated
      ((reader.noting (initialErrors ++ (conditionErrors ++ stepErrors))).within
        (.forBody initialStmt conditionExpr stepExpr))
      (inLoop_within _ _)
  rw [noting_within, noting_noting] at rest
  simp only [List.append_assoc] at rest
  rw [feedAll_forHeader reader begins opens first second separates third closes]
  exact rest.fill (by simp)

/-- A body goes on behind a statement that settles outside every clause. -/
theorem BodyReads.cons
    {inLoop : Bool}
    {tokens rest : List Token}
    {statement : Stmt}
    {statements : List Stmt}
    {errors restErrors : List GrammarError}
    (first :
      ∀ reader : Reader, reader.inLoop = inLoop → reader.mode = .declaration →
        (reader.feedAll tokens).settled = (reader.noting errors).settle statement)
    (others : BodyReads inLoop rest statements restErrors)
    (notElse : ∀ token ∈ rest.head?, token.kind ≠ .keyword .elseWord) :
    BodyReads inLoop (tokens ++ rest) (statement :: statements) (errors ++ restErrors) := by
  intro reader inside expects alone
  have reached :
      (reader.feedAll tokens).settled =
        (reader.noting errors).adding [statement] := by
    rw [first reader inside expects]
    simp [settle, noting, adding, expects, alone]
  rw [settled_feedAll_append reached notElse,
    others ((reader.noting errors).adding [statement]) inside expects alone]
  simp [noting, adding]

mutual

/-- The tokens of a statement phrase are read as its statement. -/
theorem StatementPhrase.reads :
    ∀ {inLoop : Bool} {ending : Ending} {tokens : List Token} {statement : Stmt}
      {errors : List GrammarError},
      StatementPhrase inLoop ending tokens statement errors →
      StatementReads inLoop ending tokens statement errors
  | _, _, _, _, _, .block opens body closes =>
      .block opens body.reads closes
  | _, _, _, _, _, .leave begins ends =>
      .leave begins ends
  | _, _, _, _, _, .expression value ends =>
      .expression value ends
  | _, _, _, _, _, .print begins value ends =>
      .print begins value ends
  | _, _, _, _, _, .ifThen begins opens tested closes chosen =>
      .ifThen begins opens tested closes chosen.reads
  | _, _, _, _, _, .ifElse begins opens tested closes chosen separates alternative =>
      .ifElse begins opens tested closes chosen.reads separates alternative.reads
  | _, _, _, _, _, .whileLoop begins opens tested closes repeated =>
      .whileLoop begins opens tested closes repeated.reads
  | _, _, _, _, _, .forLoop begins opens first second separates third closes repeated =>
      .forLoop begins opens first second separates third closes repeated.reads

/-- The tokens of a body phrase are read as its statements. -/
theorem BodyPhrase.reads :
    ∀ {inLoop : Bool} {tokens : List Token} {statements : List Stmt}
      {errors : List GrammarError},
      BodyPhrase inLoop tokens statements errors →
      BodyReads inLoop tokens statements errors
  | _, _, _, _, .nil => by
      intro reader _ expects _
      simp only [feedAll_nil, settled, expects]
      rfl
  | _, _, _, _, .declare first others =>
      .cons
        (fun reader _ expects => by
          rw [first.feedAll_declaration expects, settled_complete])
        others.reads others.head_ne_else
  | _, _, _, _, .statement first others =>
      .cons
        (fun reader inside expects => by
          rw [first.feedAll_declaration expects]
          exact (first.reads reader inside).settled)
        others.reads others.head_ne_else

end

/-- Reading a body up to an end token gives exactly its statements and its violations. -/
theorem BodyPhrase.ofTokens_eq
    {tokens : List Token}
    {statements : List Stmt}
    {errors : List GrammarError}
    (body : BodyPhrase false tokens statements errors)
    {ending : Token}
    (ends : ending.kind = .endOfInput)
    (rest : List Token) :
    Program.ofTokens (tokens ++ ending :: rest) = { statements, errors } := by
  have derivation : Derives false (.declarations false) tokens := body.derives nofun
  have inner : ∀ token ∈ tokens, token.kind ≠ .endOfInput := derivation.kind_ne_endOfInput
  have read := body.reads .start rfl rfl rfl
  rw [Program.ofTokens, read_append ends tokens rest inner, ← finish_settled, read]
  simp [finish, endStatement, noting, adding, start, program, kept]

end Grammar

end BlockScript
