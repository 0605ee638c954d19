import BlockScript.Proofs.Reading.Expressions

namespace BlockScript.Grammar

open Reader

/-!
# Completing a statement keeps its account

A statement inside a clause makes the clause a statement.  A completed statement
is thus accounted for by the statements of its block, or by the conditional whose
alternative may still follow.
-/

/-- The ending of a clause, given that of the statement inside it. -/
def clauseEnding
    (inner : Ending) :
    Clause → Ending
  | .ifThen _ => .extensible
  | _ => inner

/-- A statement inside the innermost clause makes it a statement. -/
theorem ClausesHold.fill
    {inLoop : Bool}
    {ending : Ending}
    {clause : Clause}
    {clauses : List Clause}
    {tokens statementTokens : List Token}
    {errors statementErrors : List GrammarError}
    {statement : Stmt}
    (held : ClausesHold inLoop (clause :: clauses) tokens errors)
    (phrase :
      StatementPhrase ((clause :: clauses).any Clause.isLoop || inLoop) ending
        statementTokens statement statementErrors) :
    ∃ outerTokens filledTokens outerErrors filledErrors,
      ClausesHold inLoop clauses outerTokens outerErrors ∧
        StatementPhrase (clauses.any Clause.isLoop || inLoop) (clauseEnding ending clause)
            filledTokens (clause.fill statement) filledErrors ∧
          tokens ++ statementTokens = outerTokens ++ filledTokens ∧
            errors ++ statementErrors = outerErrors ++ filledErrors := by
  cases held with
  | ifThen around begins opens tested closes =>
      exact ⟨_, _, _, _, around, .ifThen begins opens tested closes phrase, by simp, by simp⟩
  | ifElse around begins opens tested closes chosen separates =>
      exact ⟨_, _, _, _, around, .ifElse begins opens tested closes chosen separates phrase,
        by simp, by simp⟩
  | whileBody around begins opens tested closes =>
      have body : StatementPhrase true ending statementTokens statement statementErrors := by
        simpa [Clause.isLoop] using phrase
      exact ⟨_, _, _, _, around, .whileLoop begins opens tested closes body, by simp, by simp⟩
  | forBody around second third closes =>
      obtain ⟨⟨begins, opens, first⟩, condition, separates⟩ := second
      have body : StatementPhrase true ending statementTokens statement statementErrors := by
        simpa [Clause.isLoop] using phrase
      exact ⟨_, _, _, _, around, .forLoop begins opens first condition separates third closes body,
        by simp, by simp⟩

/-- A statement inside all clauses of a block is a statement of the block. -/
theorem ClausesHold.fillAll
    {inLoop : Bool}
    {ending : Ending}
    {clauses : List Clause}
    {tokens statementTokens : List Token}
    {errors statementErrors : List GrammarError}
    {statement : Stmt}
    (held : ClausesHold inLoop clauses tokens errors)
    (phrase :
      StatementPhrase (clauses.any Clause.isLoop || inLoop) ending
        statementTokens statement statementErrors) :
    ∃ outermost,
      StatementPhrase inLoop outermost (tokens ++ statementTokens)
        (clauses.foldl Clause.fill statement) (errors ++ statementErrors) := by
  induction clauses generalizing ending tokens errors statementTokens statement statementErrors with
  | nil =>
      cases held
      exact ⟨ending, phrase⟩
  | cons clause clauses inductionHypothesis =>
      obtain ⟨_, _, _, _, around, filled, sameTokens, sameErrors⟩ := held.fill phrase
      rw [sameTokens, sameErrors]
      exact inductionHypothesis around filled

/-- A statement behind those of a body is one more of them. -/
theorem BodyPhrase.concat
    {inLoop : Bool}
    {ending : Ending}
    {tokens statementTokens : List Token}
    {done : List Stmt}
    {statement : Stmt}
    {errors statementErrors : List GrammarError}
    (body : BodyPhrase inLoop tokens done.reverse errors)
    (phrase : StatementPhrase inLoop ending statementTokens statement statementErrors) :
    BodyPhrase inLoop (tokens ++ statementTokens) (statement :: done).reverse
      (errors ++ statementErrors) := by
  simpa using body.append (.statement phrase .nil)

/-- A declaration behind the statements of a body is one more of them. -/
theorem BodyPhrase.concatVariable
    {inLoop : Bool}
    {tokens variableTokens : List Token}
    {done : List Stmt}
    {statement : Stmt}
    {errors variableErrors : List GrammarError}
    (body : BodyPhrase inLoop tokens done.reverse errors)
    (phrase : VariablePhrase variableTokens statement variableErrors) :
    BodyPhrase inLoop (tokens ++ variableTokens) (statement :: done).reverse
      (errors ++ variableErrors) := by
  simpa using body.append (.declare phrase .nil)

/-- A closed statement that has been completed keeps the account. -/
theorem holds_completeIn
    {reader : Reader}
    {clauses : List Clause}
    {blockTokens bodyTokens clauseTokens tokens : List Token}
    {blockErrors bodyErrors clauseErrors errors : List GrammarError}
    {statement : Stmt}
    (around : BlocksHold reader.outer blockTokens blockErrors)
    (before : BodyPhrase (blocksInLoop reader.outer) bodyTokens reader.done.reverse bodyErrors)
    (inside : ClausesHold (blocksInLoop reader.outer) clauses clauseTokens clauseErrors)
    (phrase :
      StatementPhrase (clauses.any Clause.isLoop || blocksInLoop reader.outer) .closed
        tokens statement errors)
    (found :
      reader.errors.reverse = blockErrors ++ (bodyErrors ++ (clauseErrors ++ errors))) :
    Holds (reader.completeIn statement clauses)
      (blockTokens ++ (bodyTokens ++ (clauseTokens ++ tokens))) := by
  induction clauses generalizing clauseTokens clauseErrors tokens statement errors with
  | nil =>
      cases inside
      exact ⟨_, [], _, [], .intro around (before.concat phrase) .nil, .declaration rfl, by simp,
        by simpa using found⟩
  | cons clause clauses inductionHypothesis =>
      cases clause with
      | ifThen condition =>
          cases inside with
          | ifThen outer begins opens tested closes =>
              exact ⟨_, _, _, _, .intro around before outer,
                .afterThen begins opens tested closes phrase, by simp, by simpa using found⟩
      | _ =>
          obtain ⟨_, _, _, _, outer, filled, sameTokens, sameErrors⟩ := inside.fill phrase
          rw [sameTokens]
          rw [sameErrors] at found
          exact inductionHypothesis outer filled found

/-- A closed statement behind a context completes it. -/
theorem ContextHolds.complete
    {reader : Reader}
    {context tokens : List Token}
    {contextErrors errors : List GrammarError}
    {statement : Stmt}
    (held : ContextHolds reader.outer reader.done reader.clauses context contextErrors)
    (phrase : StatementPhrase reader.inLoop .closed tokens statement errors)
    (found : reader.errors.reverse = contextErrors ++ errors) :
    Holds (reader.complete statement) (context ++ tokens) := by
  obtain ⟨around, before, inside⟩ := held
  simpa [Reader.complete] using
    holds_completeIn around before inside phrase (by simpa using found)

/-- A declaration outside every clause completes its context. -/
theorem ContextHolds.declare
    {reader : Reader}
    {context tokens : List Token}
    {contextErrors errors : List GrammarError}
    {statement : Stmt}
    (held : ContextHolds reader.outer reader.done reader.clauses context contextErrors)
    (free : reader.clauses = [])
    (phrase : VariablePhrase tokens statement errors)
    (found : reader.errors.reverse = contextErrors ++ errors) :
    Holds (reader.complete statement) (context ++ tokens) := by
  rw [free] at held
  cases held with
  | intro around before inside =>
      cases inside
      rw [Reader.complete, free]
      exact ⟨_, [], _, [], .intro around (before.concatVariable phrase) .nil, .declaration rfl, by simp,
        by simpa using found⟩

/-- A reader that has settled a conditional accounts for the same tokens. -/
theorem Holds.settled
    {reader : Reader}
    {tokens : List Token}
    (held : Holds reader tokens) :
    Holds reader.settled tokens := by
  obtain ⟨context, statement, contextErrors, statementErrors, outside, mode, rfl, found⟩ := held
  cases expects : reader.mode with
  | afterThen condition thenBranch =>
      have settles : reader.settled = reader.settle (.ifThen condition thenBranch) := by
        simp only [Reader.settled, expects]
      rw [expects] at mode
      cases mode with
      | afterThen begins opens tested closes chosen =>
          obtain ⟨around, before, inside⟩ := outside
          obtain ⟨outermost, phrase⟩ :=
            inside.fillAll (.ifThen begins opens tested closes chosen)
          rw [settles]
          refine ⟨_, [], _, [], .intro around (before.concat phrase) .nil, .declaration rfl,
            by simp, by simpa [settle] using found⟩
  | _ =>
      have settles : reader.settled = reader := by
        simp only [Reader.settled, expects]
      rw [settles]
      exact ⟨context, statement, contextErrors, statementErrors, outside, mode, rfl, found⟩

/-- The clause whose header is complete joins those around the innermost statement. -/
theorem holds_await
    {reader : Reader}
    {clause : Clause}
    {context : List Token}
    {contextErrors : List GrammarError}
    (held : ContextHolds reader.outer reader.done (clause :: reader.clauses) context contextErrors)
    (found : reader.errors.reverse = contextErrors) :
    Holds (reader.await clause) context :=
  ⟨context, [], contextErrors, [], held, .statement, by simp, by simpa [await] using found⟩

/-- An expression statement at its place keeps the account. -/
theorem holds_completeAt_expression
    {reader : Reader}
    {place : Place}
    {context before tokens : List Token}
    {contextErrors errors : List GrammarError}
    {expr : Expr}
    {semicolon : Token}
    (outside : ContextHolds reader.outer reader.done reader.clauses context contextErrors)
    (stands : PlaceHolds place before)
    (phrase : ExprPhrase .comma tokens expr errors)
    (ends : semicolon.kind = .mark .semicolon)
    (found : reader.errors.reverse = contextErrors ++ errors) :
    Holds (reader.completeAt (.expression expr) place)
      (context ++ (before ++ (tokens ++ [semicolon]))) := by
  cases stands with
  | alone =>
      exact outside.complete (.expression phrase ends) found
  | loopHeader begins opens =>
      exact ⟨_, _, _, _, outside, .forCondition (.header begins opens (.expression phrase ends)),
        by simp, found⟩

/-- A declaration at its place keeps the account. -/
theorem holds_completeAt_variable
    {reader : Reader}
    {place : Place}
    {context before tokens : List Token}
    {contextErrors errors : List GrammarError}
    {statement : Stmt}
    (outside : ContextHolds reader.outer reader.done reader.clauses context contextErrors)
    (stands : PlaceHolds place before)
    (free : place = .alone → reader.clauses = [])
    (phrase : VariablePhrase tokens statement errors)
    (found : reader.errors.reverse = contextErrors ++ errors) :
    Holds (reader.completeAt statement place) (context ++ (before ++ tokens)) := by
  cases stands with
  | alone =>
      exact outside.declare (free rfl) phrase found
  | loopHeader begins opens =>
      exact ⟨_, _, _, _, outside, .forCondition (.header begins opens (.declare phrase)),
        by simp, found⟩

/-- A clause with a complete header around the innermost statement of a context. -/
theorem ContextHolds.within
    {outer : List OpenBlock}
    {done : List Stmt}
    {clause : Clause}
    {clauses : List Clause}
    {context tokens : List Token}
    {contextErrors errors : List GrammarError}
    (held : ContextHolds outer done clauses context contextErrors)
    (enclosed :
      ∀ {before beforeErrors},
        ClausesHold (blocksInLoop outer) clauses before beforeErrors →
        ClausesHold (blocksInLoop outer) (clause :: clauses)
          (before ++ tokens) (beforeErrors ++ errors)) :
    ContextHolds outer done (clause :: clauses) (context ++ tokens) (contextErrors ++ errors) := by
  obtain ⟨around, before, inside⟩ := held
  simpa using ContextHolds.intro around before (enclosed inside)

end BlockScript.Grammar
