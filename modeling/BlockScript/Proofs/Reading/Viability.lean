import BlockScript.Proofs.Grammar.DanglingElse
import BlockScript.Proofs.Reading.Boundaries
import BlockScript.Proofs.Reading.Effect

namespace BlockScript.Grammar

open Reader
open Program (bareToken)

/-!
# Tokens that can still become a program

Tokens are viable when something can follow them that makes them a program, side
conditions aside.  Whatever a reader holds that has rejected nothing can be
completed: frames are filled and closed from the innermost one outward, then the
header, the clauses and the blocks around the statement.  A program, on the other
hand, is read without a rejection.  So the reader has rejected nothing exactly as
long as the tokens are viable, and the first token it rejects is the first one
with which they are not.

That the branch before an `else` does not end in a conditional without one takes
no tokens away from those that can become a program: see `Derives.exists_ifElse`.
-/

/-- Something can follow the tokens that makes them a program, side conditions aside. -/
def Viable
    (tokens : List Token) :
    Prop :=
  ∃ rest, Derives false .program (tokens ++ rest)

/-! ## The violations in a phrase -/

/-- Violations in two parts. -/
theorem sideConditionsOnly_append
    {first second : List GrammarError}
    (before : SideConditionsOnly first)
    (behind : SideConditionsOnly second) :
    SideConditionsOnly (first ++ second) := by
  intro error found
  rcases List.mem_append.mp found with isBefore | isBehind
  · exact before error isBefore
  · exact behind error isBehind

/-- Where there is no error, none is a rejection. -/
theorem sideConditionsOnly_nil :
    SideConditionsOnly [] :=
  List.forall_mem_nil _

/-- The error of a frame is a violation of a side condition. -/
theorem isSideCondition_of_error?
    {frame : Frame}
    {error : GrammarError}
    (blames : frame.error? = some error) :
    error.fault.isSideCondition = true := by
  unfold Frame.error? at blames
  split at blames <;> cases blames
  rfl

/-- The errors of an expression phrase are violations of side conditions. -/
theorem ExprPhrase.sideConditionsOnly
    {level : Level}
    {tokens : List Token}
    {expr : Expr}
    {errors : List GrammarError}
    (phrase : ExprPhrase level tokens expr errors) :
    SideConditionsOnly errors := by
  induction phrase with
  | atom => exact sideConditionsOnly_nil
  | group _ _ _ inner => exact inner
  | unary _ _ operand => exact operand
  | binary _ _ _ earlier last => exact sideConditionsOnly_append earlier last
  | conditional _ _ _ _ _ tested chosen alternative =>
      exact sideConditionsOnly_append tested (sideConditionsOnly_append chosen alternative)
  | assign _ _ _ assigned source =>
      refine sideConditionsOnly_append assigned (sideConditionsOnly_append source ?_)
      intro error found
      exact isSideCondition_of_error? (Option.mem_toList.mp found)
  | loosen _ inner => exact inner

/-- The errors of an optional phrase are violations of side conditions. -/
theorem OptionalPhrase.sideConditionsOnly
    {tokens : List Token}
    {expr : Option Expr}
    {errors : List GrammarError}
    (phrase : OptionalPhrase tokens expr errors) :
    SideConditionsOnly errors := by
  cases phrase with
  | missing => exact sideConditionsOnly_nil
  | present value => exact value.sideConditionsOnly

/-- The errors of a declaration phrase are violations of side conditions. -/
theorem VariablePhrase.sideConditionsOnly
    {tokens : List Token}
    {statement : Stmt}
    {errors : List GrammarError}
    (phrase : VariablePhrase tokens statement errors) :
    SideConditionsOnly errors := by
  cases phrase with
  | bare => exact sideConditionsOnly_nil
  | initialized _ _ _ value => exact value.sideConditionsOnly

/-- The errors in the first part of a header are violations of side conditions. -/
theorem InitialPhrase.sideConditionsOnly
    {tokens : List Token}
    {initial : Option Stmt}
    {errors : List GrammarError}
    (phrase : InitialPhrase tokens initial errors) :
    SideConditionsOnly errors := by
  cases phrase with
  | missing => exact sideConditionsOnly_nil
  | declare declares => exact declares.sideConditionsOnly
  | expression value => exact value.sideConditionsOnly

/-- A word that leaves a loop outside every loop violates a side condition. -/
theorem sideConditionsOnly_leaveErrors
    (inLoop : Bool)
    (word : Token) :
    SideConditionsOnly (leaveErrors inLoop word) := by
  cases inLoop with
  | true => exact sideConditionsOnly_nil
  | false =>
      intro error found
      cases List.mem_singleton.mp found
      rfl

mutual

/-- The errors of a statement phrase are violations of side conditions. -/
theorem StatementPhrase.sideConditionsOnly :
    ∀ {inLoop : Bool} {ending : Ending} {tokens : List Token} {statement : Stmt}
      {errors : List GrammarError},
      StatementPhrase inLoop ending tokens statement errors →
      SideConditionsOnly errors
  | _, _, _, _, _, .block _ body _ => body.sideConditionsOnly
  | _, _, _, _, _, .leave _ _ => sideConditionsOnly_leaveErrors _ _
  | _, _, _, _, _, .expression value _ => value.sideConditionsOnly
  | _, _, _, _, _, .print _ value _ => value.sideConditionsOnly
  | _, _, _, _, _, .ifThen _ _ tested _ chosen =>
      sideConditionsOnly_append tested.sideConditionsOnly chosen.sideConditionsOnly
  | _, _, _, _, _, .ifElse _ _ tested _ chosen _ alternative =>
      sideConditionsOnly_append tested.sideConditionsOnly
        (sideConditionsOnly_append chosen.sideConditionsOnly alternative.sideConditionsOnly)
  | _, _, _, _, _, .whileLoop _ _ tested _ repeated =>
      sideConditionsOnly_append tested.sideConditionsOnly repeated.sideConditionsOnly
  | _, _, _, _, _, .forLoop _ _ first second _ third _ repeated =>
      sideConditionsOnly_append first.sideConditionsOnly
        (sideConditionsOnly_append second.sideConditionsOnly
          (sideConditionsOnly_append third.sideConditionsOnly repeated.sideConditionsOnly))

/-- The errors of a body phrase are violations of side conditions. -/
theorem BodyPhrase.sideConditionsOnly :
    ∀ {inLoop : Bool} {tokens : List Token} {statements : List Stmt}
      {errors : List GrammarError},
      BodyPhrase inLoop tokens statements errors →
      SideConditionsOnly errors
  | _, _, _, _, .nil => sideConditionsOnly_nil
  | _, _, _, _, .declare first others =>
      sideConditionsOnly_append first.sideConditionsOnly others.sideConditionsOnly
  | _, _, _, _, .statement first others =>
      sideConditionsOnly_append first.sideConditionsOnly others.sideConditionsOnly

end

/-! ## Completing what a reader holds -/

/-- A bare token has the kind it is made of. -/
theorem kind_bareToken
    (kind : Kind) :
    (bareToken kind).kind = kind :=
  rfl

/-- A name is an expression. -/
theorem namePhrase
    (level : Level) :
    ExprPhrase level [bareToken .identifier] (.lookup (bareToken .identifier)) [] :=
  ExprPhrase.loosenTo (.atom rfl) (rank_le_unary level)

/-- A name and a semicolon are a statement. -/
theorem nameStatement
    (inLoop : Bool) :
    StatementPhrase inLoop .closed [bareToken .identifier, bareToken (.mark .semicolon)]
      (.expression (.lookup (bareToken .identifier))) [] :=
  .expression (namePhrase .comma) rfl

/-- Behind an operand, every frame can be filled and every bracket closed. -/
theorem FramesHold.exists_completion
    {frames : List Frame}
    {level : Level}
    {tokens exprTokens : List Token}
    {expr : Expr}
    {errors exprErrors : List GrammarError}
    (framed : FramesHold frames tokens errors)
    (phrase : ExprPhrase level exprTokens expr exprErrors)
    (allows : Allows frames level) :
    ∃ rest whole wholeErrors,
      ExprPhrase .comma (tokens ++ (exprTokens ++ rest)) whole wholeErrors := by
  induction frames generalizing level tokens exprTokens expr errors exprErrors with
  | nil =>
      cases framed
      exact ⟨[], expr, exprErrors, by simpa using phrase.loosest⟩
  | cons frame outer inductionHypothesis =>
      -- A frame with a level takes the operand as it is; a bracket and the first part of a
      -- choice want more tokens behind it.
      cases levelled : frame.level? with
      | some own =>
          obtain ⟨_, _, _, _, around, allowed, filled, sameTokens, _⟩ :=
            framed.fill levelled phrase (allows frame rfl)
          obtain ⟨rest, whole, wholeErrors, completed⟩ := inductionHypothesis around filled allowed
          refine ⟨rest, whole, wholeErrors, ?_⟩
          rwa [← List.append_assoc, sameTokens, List.append_assoc]
      | none =>
          cases framed with
          | group around opens =>
              have closed : ExprPhrase .unary _ _ _ :=
                .group opens phrase.loosest (kind_bareToken (.mark .rightParen))
              obtain ⟨rest, whole, wholeErrors, completed⟩ :=
                inductionHypothesis around closed fun _ _ => rank_le_unary _
              exact ⟨_ :: rest, whole, wholeErrors, by simpa using completed⟩
          | choice around allowed tested asks =>
              have chosen : ExprPhrase .conditional _ _ _ :=
                .conditional tested asks phrase.loosest (kind_bareToken (.mark .colon))
                  (namePhrase .conditional)
              obtain ⟨rest, whole, wholeErrors, completed⟩ :=
                inductionHypothesis around chosen allowed
              exact ⟨_ :: _ :: rest, whole, wholeErrors, by simpa using completed⟩
          | unary | binary | assign | otherwise => cases levelled

/-- Tokens are a statement inside clauses, or a declaration outside them. -/
def Finishes
    (inLoop : Bool)
    (clauses : List Clause)
    (tokens : List Token) :
    Prop :=
  (∃ ending statement errors, StatementPhrase inLoop ending tokens statement errors) ∨
    clauses = [] ∧ ∃ statement errors, VariablePhrase tokens statement errors

/-- Something can follow the tokens that makes them a statement or a declaration. -/
def Finishable
    (inLoop : Bool)
    (clauses : List Clause)
    (tokens : List Token) :
    Prop :=
  ∃ rest, Finishes inLoop clauses (tokens ++ rest)

section Innermost

variable {inLoop : Bool} {clauses : List Clause}

/-- A statement needs nothing more. -/
theorem finishable_of_statement
    {ending : Ending}
    {tokens : List Token}
    {statement : Stmt}
    {errors : List GrammarError}
    (phrase : StatementPhrase inLoop ending tokens statement errors) :
    Finishable inLoop clauses tokens :=
  ⟨[], .inl ⟨ending, statement, errors, by simpa using phrase⟩⟩

/-- What can be finished further on can be finished. -/
theorem Finishable.of_append
    {tokens more : List Token}
    (finishable : Finishable inLoop clauses (tokens ++ more)) :
    Finishable inLoop clauses tokens := by
  obtain ⟨rest, finishes⟩ := finishable
  exact ⟨more ++ rest, by simpa using finishes⟩

/-- The header of a counting loop up to its second semicolon can be finished behind a step. -/
theorem ForConditionHolds.finishable
    {initial : Option Stmt}
    {condition step : Option Expr}
    {tokens stepTokens : List Token}
    {errors stepErrors : List GrammarError}
    (second : ForConditionHolds initial condition tokens errors)
    (third : OptionalPhrase stepTokens step stepErrors) :
    Finishable inLoop clauses (tokens ++ stepTokens) := by
  obtain ⟨⟨begins, opens, first⟩, tested, separates⟩ := second
  have loop : StatementPhrase inLoop .closed _ _ _ :=
    .forLoop begins opens first tested separates third (kind_bareToken (.mark .rightParen))
      (nameStatement true)
  exact .of_append (finishable_of_statement (by simpa using loop))

/-- The header of a counting loop up to its first semicolon can be finished behind a condition. -/
theorem ForInitialHolds.finishable
    {initial : Option Stmt}
    {condition : Option Expr}
    {tokens conditionTokens : List Token}
    {errors conditionErrors : List GrammarError}
    (first : ForInitialHolds initial tokens errors)
    (second : OptionalPhrase conditionTokens condition conditionErrors) :
    Finishable inLoop clauses (tokens ++ conditionTokens) := by
  have header := ForConditionHolds.header first second (kind_bareToken (.mark .semicolon))
  exact .of_append (by simpa using header.finishable .missing)

/-- An expression statement at its place can be finished. -/
theorem PlaceHolds.finishable_expression
    {place : Place}
    {tokens exprTokens : List Token}
    {expr : Expr}
    {errors : List GrammarError}
    (stands : PlaceHolds place tokens)
    (phrase : ExprPhrase .comma exprTokens expr errors) :
    Finishable inLoop clauses (tokens ++ exprTokens) := by
  have ends := kind_bareToken (.mark .semicolon)
  cases stands with
  | alone =>
      have statement : StatementPhrase inLoop .closed _ _ _ := .expression phrase ends
      exact .of_append (finishable_of_statement statement)
  | loopHeader begins opens =>
      have header := ForInitialHolds.header begins opens (.expression phrase ends)
      exact .of_append (by simpa using header.finishable .missing)

/-- A declaration at its place is finished, or its loop can be. -/
theorem PlaceHolds.finishable_variable
    {place : Place}
    {tokens variableTokens : List Token}
    {statement : Stmt}
    {errors : List GrammarError}
    (stands : PlaceHolds place tokens)
    (free : place = .alone → clauses = [])
    (phrase : VariablePhrase variableTokens statement errors) :
    Finishable inLoop clauses (tokens ++ variableTokens) := by
  cases stands with
  | alone => exact ⟨[], .inr ⟨free rfl, statement, errors, by simpa using phrase⟩⟩
  | loopHeader begins opens =>
      have header := ForInitialHolds.header begins opens (.declare phrase)
      simpa using header.finishable .missing

/-- What an expression is for can be finished behind the expression. -/
theorem PurposeHolds.finishable
    {purpose : Purpose}
    {tokens exprTokens : List Token}
    {expr : Expr}
    {errors exprErrors : List GrammarError}
    (purposed : PurposeHolds clauses purpose tokens errors)
    (phrase : ExprPhrase .comma exprTokens expr exprErrors) :
    Finishable inLoop clauses (tokens ++ exprTokens) := by
  have ends := kind_bareToken (.mark .semicolon)
  have closes := kind_bareToken (.mark .rightParen)
  cases purposed with
  | print begins =>
      have statement : StatementPhrase inLoop .closed _ _ _ := .print begins phrase ends
      exact .of_append (finishable_of_statement statement)
  | statement stands => exact stands.finishable_expression phrase
  | initial stands free begins named assigns =>
      have declares := VariablePhrase.initialized begins named assigns phrase ends
      exact .of_append (by simpa using stands.finishable_variable free declares)
  | ifCondition begins opens =>
      have statement : StatementPhrase inLoop .extensible _ _ _ :=
        .ifThen begins opens phrase closes (nameStatement inLoop)
      exact .of_append (finishable_of_statement (by simpa using statement))
  | whileCondition begins opens =>
      have statement : StatementPhrase inLoop .closed _ _ _ :=
        .whileLoop begins opens phrase closes (nameStatement true)
      exact .of_append (finishable_of_statement (by simpa using statement))
  | forCondition first => exact first.finishable (.present phrase)
  | forStep second => exact second.finishable (.present phrase)

/-- The statement behind a word that begins a header can be finished. -/
theorem finishable_header
    {header : Header}
    {word : Token}
    (begins : word.kind = .keyword (headerWord header)) :
    Finishable inLoop clauses [word] := by
  have opens := kind_bareToken (.mark .leftParen)
  cases header with
  | ifHeader =>
      exact .of_append ((PurposeHolds.ifCondition begins opens).finishable (namePhrase .comma))
  | whileHeader =>
      exact .of_append ((PurposeHolds.whileCondition begins opens).finishable (namePhrase .comma))
  | forHeader =>
      have first := InitialPhrase.missing (kind_bareToken (.mark .semicolon))
      have header := ForInitialHolds.header begins opens first
      exact .of_append (header.finishable .missing)

/-- Whatever is expected next, the innermost statement can be finished. -/
theorem ModeHolds.finishable
    {mode : Mode}
    {tokens : List Token}
    {errors : List GrammarError}
    (held : ModeHolds inLoop clauses mode tokens errors) :
    Finishable inLoop clauses tokens := by
  have ends := kind_bareToken (.mark .semicolon)
  have named := kind_bareToken .identifier
  cases held with
  | declaration => exact .of_append (finishable_of_statement (nameStatement inLoop))
  | statement => exact .of_append (finishable_of_statement (nameStatement inLoop))
  | afterThen begins opens tested closes chosen =>
      exact finishable_of_statement (.ifThen begins opens tested closes chosen)
  | header begins => exact finishable_header begins
  | name stands free begins =>
      have declares := VariablePhrase.bare begins named ends
      exact .of_append (by simpa using stands.finishable_variable free declares)
  | afterName stands free begins isName =>
      have declares := VariablePhrase.bare begins isName ends
      exact .of_append (by simpa using stands.finishable_variable free declares)
  | forInitial stands => exact .of_append (stands.finishable_expression (namePhrase .comma))
  | forCondition first => simpa using first.finishable .missing
  | forStep second => simpa using second.finishable .missing
  | leave begins =>
      have statement : StatementPhrase inLoop .closed _ _ _ := .leave begins ends
      exact .of_append (finishable_of_statement statement)
  | operand purposed framed =>
      obtain ⟨rest, whole, _, completed⟩ :=
        framed.exists_completion (namePhrase .unary) fun _ _ => rank_le_unary _
      exact .of_append (by simpa using purposed.finishable completed)
  | operator purposed framed phrase =>
      obtain ⟨rest, whole, _, completed⟩ :=
        framed.exists_completion phrase fun _ _ => rank_le_unary _
      exact .of_append (by simpa using purposed.finishable completed)

end Innermost

/-- A body inside open blocks can be completed by closing them. -/
theorem BlocksHold.exists_completion
    {outer : List OpenBlock}
    {tokens body : List Token}
    {statements : List Stmt}
    {errors bodyErrors : List GrammarError}
    (around : BlocksHold outer tokens errors)
    (inside : BodyPhrase (blocksInLoop outer) body statements bodyErrors) :
    ∃ rest whole wholeErrors, BodyPhrase false (tokens ++ (body ++ rest)) whole wholeErrors := by
  induction outer generalizing tokens body statements errors bodyErrors with
  | nil =>
      cases around
      exact ⟨[], statements, bodyErrors, by simpa [blocksInLoop] using inside⟩
  | cons block outer inductionHypothesis =>
      cases around with
      | cons around before within opens =>
          have closed : StatementPhrase (blocksInLoop (block :: outer)) .closed _ _ _ :=
            .block opens inside (kind_bareToken (.mark .rightBrace))
          obtain ⟨_, filled⟩ := within.fillAll closed
          obtain ⟨rest, whole, wholeErrors, completed⟩ :=
            inductionHypothesis around (before.concat filled)
          exact ⟨_ :: rest, whole, wholeErrors, by simpa using completed⟩

/-- What a reader holds outside a finished statement can be completed. -/
theorem ContextHolds.exists_completion
    {outer : List OpenBlock}
    {done : List Stmt}
    {clauses : List Clause}
    {context tokens : List Token}
    {errors : List GrammarError}
    (held : ContextHolds outer done clauses context errors)
    (finishes : Finishes (clauses.any Clause.isLoop || blocksInLoop outer) clauses tokens) :
    ∃ rest whole wholeErrors, BodyPhrase false (context ++ (tokens ++ rest)) whole wholeErrors := by
  cases held with
  | intro around before inside =>
      rcases finishes with ⟨ending, statement, statementErrors, phrase⟩ |
          ⟨rfl, statement, variableErrors, phrase⟩
      · obtain ⟨_, filled⟩ := inside.fillAll phrase
        obtain ⟨rest, whole, wholeErrors, completed⟩ :=
          around.exists_completion (before.concat filled)
        exact ⟨rest, whole, wholeErrors, by simpa using completed⟩
      · cases inside
        obtain ⟨rest, whole, wholeErrors, completed⟩ :=
          around.exists_completion (before.concatVariable phrase)
        exact ⟨rest, whole, wholeErrors, by simpa using completed⟩

/-- What a reader holds that has rejected nothing can be completed to a program. -/
theorem Holds.viable
    {reader : Reader}
    {tokens : List Token}
    (held : Holds reader tokens) :
    Viable tokens := by
  obtain ⟨context, statement, _, _, outside, mode, rfl, _⟩ := held
  obtain ⟨more, finishes⟩ := mode.finishable
  obtain ⟨rest, whole, wholeErrors, completed⟩ := outside.exists_completion finishes
  refine ⟨more ++ rest, derives_program_iff.mpr ⟨whole, wholeErrors, ?_, nofun⟩⟩
  simpa using completed

/-! ## Rejections -/

/-- Settling a conditional adds no error. -/
theorem errors_settled
    (reader : Reader) :
    reader.settled.errors = reader.errors := by
  unfold Reader.settled
  split <;> rfl

/-- The tokens of a program bring no rejection, wherever reading has come. -/
theorem sideConditionsOnly_of_derives
    {tokens rest : List Token}
    (derivation : Derives false .program (tokens ++ rest)) :
    SideConditionsOnly (Reader.start.feedAll tokens).errors := by
  obtain ⟨statements, errors, body, _⟩ := derives_program_iff.mp derivation
  have read := congrArg Reader.errors (body.reads .start rfl rfl rfl)
  have found : (Reader.start.feedAll (tokens ++ rest)).errors = errors.reverse := by
    rw [← errors_settled, read]
    simp [noting, adding, start]
  have kept :
      (Reader.start.feedAll tokens).errors <:+ (Reader.start.feedAll (tokens ++ rest)).errors := by
    rw [feedAll_append]
    exact suffix_feedAll _ rest
  intro error isError
  have isLast := kept.subset isError
  rw [found] at isLast
  exact body.sideConditionsOnly error (List.mem_reverse.mp isLast)

/-- Reading has rejected nothing exactly as long as the tokens can become a program. -/
theorem sideConditionsOnly_feedAll_iff
    {tokens : List Token} :
    SideConditionsOnly (Reader.start.feedAll tokens).errors ↔ Viable tokens := by
  constructor
  · intro only
    have held := holds_start.feedAll only
    rw [List.nil_append] at held
    exact held.viable
  · rintro ⟨rest, derivation⟩
    exact sideConditionsOnly_of_derives derivation

/-- The errors behind an effect were there, blame the token or violate a side condition. -/
theorem mem_errors_of_effect
    {reader after : Reader}
    {token : Token}
    {error : GrammarError}
    (effect : Effect reader token after)
    (found : error ∈ after.errors) :
    error ∈ reader.errors ∨ error.token = token ∨ error.fault.isSideCondition = true := by
  have among :
      ∀ noted : List GrammarError, (∀ other ∈ noted, reader.MayBlame token other) →
        error ∈ (reader.noting noted).errors →
          error ∈ reader.errors ∨ error.token = token ∨ error.fault.isSideCondition = true := by
    intro noted blames isNoted
    rcases List.mem_append.mp isNoted with isNew | isOld
    · rcases blames error (List.mem_reverse.mp isNew) with isToken | ⟨frame, _, fromFrame⟩
      · exact .inr (.inl isToken)
      · exact .inr (.inr (isSideCondition_of_error? fromFrame))
    · exact .inl isOld
  cases effect with
  | expects noted mode _ blames => exact among noted blames found
  | completes noted statement _ blames => exact among noted blames (by simpa using found)
  | awaits noted clause _ blames => exact among noted blames found
  | opens => exact .inl found
  | closes ends => exact .inl (errors_closedBy? ends ▸ found)
  | rejects noted fault blames =>
      rw [errors_reject] at found
      rcases List.mem_cons.mp found with rfl | isNoted
      · exact .inr (.inl rfl)
      · exact among noted blames isNoted
  | skips => exact .inl found

/-- What a token adds to the errors blames it or violates a side condition. -/
theorem mem_errors_feed
    {reader : Reader}
    {token : Token}
    {error : GrammarError}
    (found : error ∈ (reader.feed token).errors) :
    error ∈ reader.errors ∨ error.token = token ∨ error.fault.isSideCondition = true := by
  rcases effect_feed reader token with effect | effect
  · exact mem_errors_of_effect effect found
  · rw [← errors_settled reader]
    exact mem_errors_of_effect effect found

/-- A rejection is not among violations of side conditions. -/
theorem not_mem_of_rejected
    {errors : List GrammarError}
    {error : GrammarError}
    (only : SideConditionsOnly errors)
    (rejected : error.fault.isSideCondition = false) :
    error ∉ errors := by
  intro found
  exact Bool.false_ne_true (rejected.symm.trans (only error found))

/-- Where nothing was rejected before, a rejection blames the token just taken. -/
theorem token_of_mem_feed
    {reader : Reader}
    {token : Token}
    {error : GrammarError}
    (before : SideConditionsOnly reader.errors)
    (found : error ∈ (reader.feed token).errors)
    (rejected : error.fault.isSideCondition = false) :
    error.token = token := by
  rcases mem_errors_feed found with isOld | isToken | isSide
  · exact absurd isOld (not_mem_of_rejected before rejected)
  · exact isToken
  · exact absurd isSide (Bool.eq_false_iff.mp rejected)

/-- Where nothing was rejected before, a rejection at the end blames the end. -/
theorem token_of_mem_finish
    {reader : Reader}
    {ending : Token}
    {error : GrammarError}
    (before : SideConditionsOnly reader.errors)
    (found : error ∈ (reader.finish ending).errors)
    (rejected : error.fault.isSideCondition = false) :
    error.token = ending := by
  have isNew := not_mem_of_rejected before rejected
  rcases List.mem_append.mp (List.mem_reverse.mp found) with unclosed | atEnd
  · rw [(List.mem_replicate.mp unclosed).2]
  · unfold endStatement at atEnd
    split at atEnd
    · exact absurd atEnd isNew
    · exact absurd atEnd isNew
    · exact absurd atEnd isNew
    · exact token_of_mem_feed before atEnd rejected

/-- The end of the input only adds errors behind those found before. -/
theorem reverse_errors_isPrefix_finish
    (reader : Reader)
    (ending : Token) :
    reader.errors.reverse <+: (reader.finish ending).errors := by
  have kept := suffix_endStatement reader ending
  exact List.reverse_prefix.mpr (kept.trans (List.suffix_append _ _))

/-- Among tokens that bring a rejection there is a first one that does. -/
theorem exists_first_rejected
    {reader : Reader}
    {tokens : List Token}
    (before : SideConditionsOnly reader.errors)
    (rejects : ¬SideConditionsOnly (reader.feedAll tokens).errors) :
    ∃ first token rest,
      tokens = first ++ token :: rest ∧
        SideConditionsOnly (reader.feedAll first).errors ∧
          ¬SideConditionsOnly ((reader.feedAll first).feed token).errors := by
  induction tokens generalizing reader with
  | nil =>
      exact absurd before rejects
  | cons token tokens inductionHypothesis =>
      by_cases accepts : SideConditionsOnly (reader.feed token).errors
      · obtain ⟨first, rejected, rest, rfl, only, isRejected⟩ :=
          inductionHypothesis accepts rejects
        exact ⟨token :: first, rejected, rest, rfl, only, isRejected⟩
      · exact ⟨[], token, tokens, rfl, before, accepts⟩

/-- Tokens without an end are read as far as they go. -/
theorem ofTokens_eq_program
    {tokens : List Token}
    (inner : ∀ token ∈ tokens, token.kind ≠ .endOfInput) :
    Program.ofTokens tokens = (Reader.start.feedAll tokens).program := by
  have reads :
      ∀ reader : Reader, reader.read tokens = (reader.feedAll tokens).program := by
    induction tokens with
    | nil =>
        exact fun _ => rfl
    | cons token tokens inductionHypothesis =>
        intro reader
        have notEnd := inner token List.mem_cons_self
        simp only [Reader.read, notEnd, ↓reduceIte]
        exact inductionHypothesis (fun other isLater => inner other (.tail token isLater)) _
  exact reads .start

/-- Tokens without an end are read without a rejection when taking them brings none. -/
theorem sideConditionsOnly_ofTokens
    {tokens : List Token}
    (inner : ∀ token ∈ tokens, token.kind ≠ .endOfInput)
    (accepts : SideConditionsOnly (Reader.start.feedAll tokens).errors) :
    SideConditionsOnly (Program.ofTokens tokens).errors := by
  intro error isError
  rw [ofTokens_eq_program inner] at isError
  exact accepts error (List.mem_reverse.mp isError)

/-- The first error that is not a violation of a side condition. -/
def firstRejection?
    (errors : List GrammarError) :
    Option GrammarError :=
  errors.find? fun error => !error.fault.isSideCondition

/-- Violations of side conditions hold no rejection. -/
theorem firstRejection?_eq_none_iff
    {errors : List GrammarError} :
    firstRejection? errors = none ↔ SideConditionsOnly errors := by
  simp [firstRejection?, SideConditionsOnly]

/-- A first rejection stays the first one when later errors are found. -/
theorem firstRejection?_of_isPrefix
    {earlier errors : List GrammarError}
    {error : GrammarError}
    (isPrefix : earlier <+: errors)
    (rejects : ¬SideConditionsOnly earlier)
    (first : firstRejection? errors = some error) :
    firstRejection? earlier = some error := by
  cases found : firstRejection? earlier with
  | none => exact absurd (firstRejection?_eq_none_iff.mp found) rejects
  | some other =>
      rw [firstRejection?, isPrefix.find?_eq_some found] at first
      exact first

/-- A first rejection is among the errors. -/
theorem mem_of_firstRejection?
    {errors : List GrammarError}
    {error : GrammarError}
    (first : firstRejection? errors = some error) :
    error ∈ errors ∧ error.fault.isSideCondition = false := by
  have rejected := List.find?_some first
  exact ⟨List.mem_of_find?_eq_some first, by simpa using rejected⟩

/-- An error is the first rejection behind tokens, at the earliest token there can be. -/
structure RejectedBehind
    (before : List Token)
    (error : GrammarError) :
    Prop where
  /-- Nothing was rejected earlier. -/
  accepted : SideConditionsOnly (Program.ofTokens before).errors
  /-- The blamed token brings the error to light. -/
  rejected : firstRejection? (Program.ofTokens (before ++ [error.token])).errors = some error
  /-- The tokens before it can become a program. -/
  viable : Viable before
  /-- With it they cannot. -/
  notViable : ¬Viable (before ++ [error.token])
  /-- Where it is the end, they are not a program as they stand. -/
  unfinished : error.token.kind = .endOfInput → ¬Derives false .program before

/-- A rejection before the end of the input comes as early as it can. -/
theorem rejectedBehind_inner
    {before : List Token}
    {token : Token}
    {error : GrammarError}
    (inner : ∀ other ∈ before ++ [token], other.kind ≠ .endOfInput)
    (accepts : SideConditionsOnly (Reader.start.feedAll before).errors)
    (first :
      firstRejection? (Reader.start.feedAll (before ++ [token])).errors.reverse = some error) :
    error.token = token ∧ RejectedBehind before error := by
  obtain ⟨found, isRejection⟩ := mem_of_firstRejection? first
  have blamed : error ∈ ((Reader.start.feedAll before).feed token).errors := by
    simpa [feedAll_append] using found
  have isToken := token_of_mem_feed accepts blamed isRejection
  subst isToken
  have innerBefore : ∀ other ∈ before, other.kind ≠ .endOfInput := by
    intro other isBefore
    exact inner other (List.mem_append_left _ isBefore)
  refine ⟨rfl, sideConditionsOnly_ofTokens innerBefore accepts, ?_,
    sideConditionsOnly_feedAll_iff.mp accepts, ?_, ?_⟩
  · rw [ofTokens_eq_program inner]
    exact first
  · intro viable
    have only := sideConditionsOnly_feedAll_iff.mpr viable
    exact not_mem_of_rejected only isRejection (List.mem_reverse.mp found)
  · intro isEnd
    exact absurd isEnd (inner error.token (by simp))

/-- A rejection at the end of the input comes where the tokens are not yet a program. -/
theorem rejectedBehind_end
    {before : List Token}
    {ending : Token}
    {error : GrammarError}
    (inner : ∀ other ∈ before, other.kind ≠ .endOfInput)
    (ends : ending.kind = .endOfInput)
    (accepts : SideConditionsOnly (Reader.start.feedAll before).errors)
    (first : firstRejection? ((Reader.start.feedAll before).finish ending).errors = some error) :
    error.token = ending ∧ RejectedBehind before error := by
  obtain ⟨found, isRejection⟩ := mem_of_firstRejection? first
  have isToken := token_of_mem_finish accepts found isRejection
  subst isToken
  have reads : Program.ofTokens (before ++ [error.token]) =
      (Reader.start.feedAll before).finish error.token :=
    read_append ends before [] inner .start
  refine ⟨rfl, sideConditionsOnly_ofTokens inner accepts, ?_,
    sideConditionsOnly_feedAll_iff.mp accepts, ?_, ?_⟩
  · rw [reads]
    exact first
  · rintro ⟨rest, derivation⟩
    exact derivation.kind_ne_endOfInput error.token (by simp) ends
  · intro _ derivation
    obtain ⟨statements, errors, body, _⟩ := derives_program_iff.mp derivation
    rw [← reads, body.ofTokens_eq ends []] at found
    exact not_mem_of_rejected body.sideConditionsOnly isRejection found

/-- The first rejection blames the earliest token with which there is no program. -/
theorem first_rejection_is_earliest
    {tokens : List Token}
    {last : Token}
    {error : GrammarError}
    (isLast : tokens.getLast? = some last)
    (ends : last.kind = .endOfInput)
    (first : firstRejection? (Program.ofTokens tokens).errors = some error) :
    ∃ before following,
      tokens = before ++ error.token :: following ∧ RejectedBehind before error := by
  obtain ⟨ending, rest, same, isEnding⟩ := exists_append_beforeEnd isLast ends
  have inner : ∀ token ∈ beforeEnd tokens, token.kind ≠ .endOfInput := kind_ne_of_mem_beforeEnd
  rw [ofTokens_eq_finish same isEnding] at first
  -- Either nothing is rejected before the end, or the first token that is lies before it.
  by_cases accepts : SideConditionsOnly (Reader.start.feedAll (beforeEnd tokens)).errors
  · obtain ⟨isEnd, rejected⟩ := rejectedBehind_end inner isEnding accepts first
    exact ⟨beforeEnd tokens, rest, by rw [isEnd]; exact same, rejected⟩
  · obtain ⟨before, token, more, isBefore, acceptsBefore, rejectsToken⟩ :=
      exists_first_rejected sideConditionsOnly_nil accepts
    have innerFirst : ∀ other ∈ before ++ [token], other.kind ≠ .endOfInput := by
      intro other isOther
      exact inner other (by rw [isBefore]; simpa using List.mem_append_left more isOther)
    have firstThere :
        firstRejection? (Reader.start.feedAll (before ++ [token])).errors.reverse = some error := by
      refine firstRejection?_of_isPrefix ?_ ?_ first
      · refine (List.reverse_prefix.mpr ?_).trans (reverse_errors_isPrefix_finish _ ending)
        have splits : beforeEnd tokens = (before ++ [token]) ++ more := by simpa using isBefore
        rw [splits, feedAll_append _ (before ++ [token])]
        exact suffix_feedAll _ more
      · intro only
        refine rejectsToken fun other isError => only other (List.mem_reverse.mpr ?_)
        simpa [feedAll_append] using isError
    obtain ⟨rfl, rejected⟩ := rejectedBehind_inner innerFirst acceptsBefore firstThere
    exact ⟨before, more ++ ending :: rest, by rw [same, isBefore]; simp, rejected⟩

/-- The kinds of the tokens in `1 = 2; print a b; }`. -/
def misplacedName : List Kind :=
  [.number, .mark .equal, .number, .mark .semicolon, .keyword .printWord, .identifier,
    .identifier, .mark .semicolon, .mark .rightBrace]

/-- Behind an assignment to a number, the second of two names is the first rejection. -/
theorem first_rejection_is_earliest_misplacedName :
    firstRejection? (Program.ofTokens (tokensOfKinds misplacedName)).errors =
        some { token := bareToken .identifier, fault := .expectSemicolonAfterValue } ∧
      ∃ before following,
        tokensOfKinds misplacedName = before ++ bareToken .identifier :: following ∧
          RejectedBehind before
            { token := bareToken .identifier, fault := .expectSemicolonAfterValue } := by
  have found :
      firstRejection? (Program.ofTokens (tokensOfKinds misplacedName)).errors =
        some { token := bareToken .identifier, fault := .expectSemicolonAfterValue } := by
    decide
  exact ⟨found, first_rejection_is_earliest rfl rfl found⟩

end BlockScript.Grammar
