import BlockScript.Proofs.Execution.Leaving
import BlockScript.Proofs.Reading.Holding
import BlockScript.Proofs.Reading.Language

namespace BlockScript

open Grammar

/-!
# Every stray word has been blamed

Whatever the tokens are, a word that leaves a loop is blamed when it is read
outside every loop.  A reader therefore accounts for all the stray words that it
holds: each lies in a loop that is still being read, or has been blamed.  Rejected
tokens keep that account, since dropping a statement drops its words and its loops
together, and the loops around an open block stay as they are.
-/

/-- Words that leave a loop have been blamed, unless they lie in a loop. -/
def LeavesBlamed
    (errors : List GrammarError)
    (inLoop : Bool)
    (words : List Token) :
    Prop :=
  inLoop = false → ∀ word ∈ words, { token := word, fault := .breakOutsideLoop } ∈ errors

namespace LeavesBlamed

variable {errors later : List GrammarError} {inLoop : Bool} {words others : List Token}

/-- Where there is no word, there is none to blame. -/
theorem nil
    (errors : List GrammarError)
    (inLoop : Bool) :
    LeavesBlamed errors inLoop [] := by
  intro _ word isWord
  cases isWord

/-- Errors are never taken back. -/
theorem mono
    (blamed : LeavesBlamed errors inLoop words)
    (kept : errors <:+ later) :
    LeavesBlamed later inLoop words :=
  fun outside word isWord => kept.subset (blamed outside word isWord)

/-- The words of two parts have been blamed when those of each have. -/
theorem append
    (first : LeavesBlamed errors inLoop words)
    (second : LeavesBlamed errors inLoop others) :
    LeavesBlamed errors inLoop (words ++ others) := by
  intro outside word isWord
  rcases List.mem_append.mp isWord with before | behind
  · exact first outside word before
  · exact second outside word behind

end LeavesBlamed

/-- The stray words that a clause holds before the statement it awaits. -/
def Clause.strayLeaves : Clause → List Token
  | .ifThen _ => []
  | .ifElse _ thenBranch => thenBranch.strayLeaves
  | .whileBody _ => []
  | .forBody initial _ _ => Stmt.strayLeavesAll initial.toList

/-- The stray words in the part of a header before an expression. -/
def Purpose.strayLeaves : Purpose → List Token
  | .forCondition first => Stmt.strayLeavesAll first.toList
  | .forStep first _ => Stmt.strayLeavesAll first.toList
  | _ => []

/-- The stray words in what has been read of the innermost statement. -/
def Mode.strayLeaves : Mode → List Token
  | .afterThen _ thenBranch => thenBranch.strayLeaves
  | .forCondition initial => Stmt.strayLeavesAll initial.toList
  | .forStep initial _ => Stmt.strayLeavesAll initial.toList
  | .leave word => [word]
  | .operand purpose _ => purpose.strayLeaves
  | .operator purpose _ _ => purpose.strayLeaves
  | _ => []

/-- The words that the clauses around a statement hold have been blamed. -/
def ClausesBlamed
    (errors : List GrammarError)
    (inLoop : Bool) :
    List Clause → Prop
  | [] => True
  | clause :: outer =>
      LeavesBlamed errors (outer.any Clause.isLoop || inLoop) clause.strayLeaves ∧
        ClausesBlamed errors inLoop outer

/-- The words that the blocks around a statement hold have been blamed. -/
def BlocksBlamed
    (errors : List GrammarError) :
    List OpenBlock → Prop
  | [] => True
  | block :: outer =>
      LeavesBlamed errors (blocksInLoop outer) (Stmt.strayLeavesAll block.before) ∧
        ClausesBlamed errors (blocksInLoop outer) block.clauses ∧ BlocksBlamed errors outer

section Growing

variable {errors later : List GrammarError} (kept : errors <:+ later)
include kept

/-- Errors are never taken back. -/
theorem ClausesBlamed.mono
    {inLoop : Bool}
    {clauses : List Clause}
    (blamed : ClausesBlamed errors inLoop clauses) :
    ClausesBlamed later inLoop clauses := by
  induction clauses with
  | nil =>
      trivial
  | cons clause outer inductionHypothesis =>
      exact ⟨blamed.1.mono kept, inductionHypothesis blamed.2⟩

/-- Errors are never taken back. -/
theorem BlocksBlamed.mono
    {outer : List OpenBlock}
    (blamed : BlocksBlamed errors outer) :
    BlocksBlamed later outer := by
  induction outer with
  | nil =>
      trivial
  | cons block outer inductionHypothesis =>
      exact ⟨blamed.1.mono kept, blamed.2.1.mono kept, inductionHypothesis blamed.2.2⟩

end Growing

/-- Outside the outermost block there is no loop. -/
theorem BlocksBlamed.outermost
    {errors : List GrammarError}
    {outer : List OpenBlock}
    {block : OpenBlock}
    (blamed : BlocksBlamed errors outer)
    (isLast : outer.getLast? = some block) :
    LeavesBlamed errors false (Stmt.strayLeavesAll block.before) := by
  induction outer with
  | nil =>
      cases isLast
  | cons innermost outer inductionHypothesis =>
      cases outer with
      | nil =>
          cases isLast
          exact blamed.1
      | cons next others =>
          rw [List.getLast?_cons_cons] at isLast
          exact inductionHypothesis blamed.2.2 isLast

/-- A filled clause has no stray words but its own and, outside a loop, those inside it. -/
theorem LeavesBlamed.fill
    {errors : List GrammarError}
    {inLoop : Bool}
    {clause : Clause}
    {inner : Stmt}
    (own : LeavesBlamed errors inLoop clause.strayLeaves)
    (inside : LeavesBlamed errors (clause.isLoop || inLoop) inner.strayLeaves) :
    LeavesBlamed errors inLoop (clause.fill inner).strayLeaves := by
  cases clause with
  | ifThen condition => simpa [Clause.fill, Stmt.strayLeaves, Clause.isLoop] using inside
  | ifElse condition thenBranch =>
      simp only [Clause.fill, Stmt.strayLeaves]
      exact own.append (by simpa [Clause.isLoop] using inside)
  | whileBody condition => exact own
  | forBody initial condition step => simpa [Clause.fill, Clause.strayLeaves] using own

/-- Clauses that are all filled have no stray words but their own and those inside them. -/
theorem LeavesBlamed.fillAll
    {errors : List GrammarError}
    {inLoop : Bool}
    {clauses : List Clause}
    {inner : Stmt}
    (around : ClausesBlamed errors inLoop clauses)
    (inside : LeavesBlamed errors (clauses.any Clause.isLoop || inLoop) inner.strayLeaves) :
    LeavesBlamed errors inLoop (clauses.foldl Clause.fill inner).strayLeaves := by
  induction clauses generalizing inner with
  | nil =>
      simpa using inside
  | cons clause outer inductionHypothesis =>
      rw [List.any_cons, Bool.or_assoc] at inside
      exact inductionHypothesis around.2 (around.1.fill inside)

namespace Reader

/-- A reader accounts for the stray words it holds: they lie in a loop or have been blamed. -/
structure BlamesLeaves
    (reader : Reader) :
    Prop where
  blocks : BlocksBlamed reader.errors reader.outer
  done : LeavesBlamed reader.errors (blocksInLoop reader.outer) (Stmt.strayLeavesAll reader.done)
  clauses : ClausesBlamed reader.errors (blocksInLoop reader.outer) reader.clauses
  mode : LeavesBlamed reader.errors reader.inLoop reader.mode.strayLeaves

variable {reader : Reader}

/-- A reader that has taken nothing holds no word. -/
theorem blamesLeaves_start :
    start.BlamesLeaves :=
  ⟨trivial, .nil _ _, trivial, .nil _ _⟩

namespace BlamesLeaves

/-- The account is kept when errors are added. -/
theorem grow
    (accounts : reader.BlamesLeaves)
    {later : List GrammarError}
    (kept : reader.errors <:+ later) :
    { reader with errors := later }.BlamesLeaves :=
  ⟨accounts.blocks.mono kept, accounts.done.mono kept, accounts.clauses.mono kept,
    accounts.mode.mono kept⟩

/-- The account is kept when something else is expected whose words have been blamed. -/
theorem expect
    (accounts : reader.BlamesLeaves)
    {mode : Mode}
    (blamed : LeavesBlamed reader.errors reader.inLoop mode.strayLeaves) :
    (reader.inMode mode).BlamesLeaves :=
  ⟨accounts.blocks, accounts.done, accounts.clauses, blamed⟩

/-- The account is kept when something without stray words is expected. -/
theorem expectBare
    (accounts : reader.BlamesLeaves)
    {mode : Mode}
    (bare : mode.strayLeaves = []) :
    (reader.inMode mode).BlamesLeaves :=
  accounts.expect (by rw [bare]; exact .nil _ _)

/-- The account is kept when a statement is complete whose words have been blamed. -/
theorem completeIn
    (accounts : reader.BlamesLeaves)
    {statement : Stmt}
    {clauses : List Clause}
    (around : ClausesBlamed reader.errors (blocksInLoop reader.outer) clauses)
    (blamed :
      LeavesBlamed reader.errors (clauses.any Clause.isLoop || blocksInLoop reader.outer)
        statement.strayLeaves) :
    (reader.completeIn statement clauses).BlamesLeaves := by
  induction clauses generalizing statement with
  | nil =>
      have joined := LeavesBlamed.append (by simpa using blamed) accounts.done
      exact ⟨accounts.blocks, joined, trivial, .nil _ _⟩
  | cons clause outer inductionHypothesis =>
      rw [List.any_cons, Bool.or_assoc] at blamed
      cases clause with
      | ifThen condition => exact ⟨accounts.blocks, accounts.done, around.2, blamed⟩
      | _ => exact inductionHypothesis around.2 (around.1.fill blamed)

/-- The account is kept when the statement that was being read is complete. -/
theorem complete
    (accounts : reader.BlamesLeaves)
    {statement : Stmt}
    (blamed : LeavesBlamed reader.errors reader.inLoop statement.strayLeaves) :
    (reader.complete statement).BlamesLeaves :=
  accounts.completeIn accounts.clauses blamed

/-- The account is kept when a statement without stray words is complete at its place. -/
theorem completeAt
    (accounts : reader.BlamesLeaves)
    {statement : Stmt}
    (bare : statement.strayLeaves = [])
    (place : Place) :
    (reader.completeAt statement place).BlamesLeaves := by
  cases place with
  | alone => exact accounts.complete (by rw [bare]; exact .nil _ _)
  | loopHeader => exact accounts.expectBare (by simp [Mode.strayLeaves, Stmt.strayLeavesAll, bare])

/-- The account is kept when no alternative follows. -/
theorem settleThen
    (accounts : reader.BlamesLeaves)
    {condition : Expr}
    {thenBranch : Stmt}
    (expects : reader.mode = .afterThen condition thenBranch) :
    (reader.settle (.ifThen condition thenBranch)).BlamesLeaves := by
  have held := accounts.mode
  rw [expects] at held
  have blamed :
      LeavesBlamed reader.errors reader.inLoop (Stmt.ifThen condition thenBranch).strayLeaves := by
    rw [Stmt.strayLeaves]
    exact held
  have joined := (LeavesBlamed.fillAll accounts.clauses blamed).append accounts.done
  exact ⟨accounts.blocks, joined, trivial, .nil _ _⟩

/-- The account is kept when a clause awaits its statement. -/
theorem await
    (accounts : reader.BlamesLeaves)
    {clause : Clause}
    (blamed : LeavesBlamed reader.errors reader.inLoop clause.strayLeaves) :
    (reader.await clause).BlamesLeaves :=
  ⟨accounts.blocks, accounts.done, ⟨blamed, accounts.clauses⟩, .nil _ _⟩

/-- The account is kept when the innermost block ends. -/
theorem closedBy?
    (accounts : reader.BlamesLeaves)
    {closed : Reader}
    {token : Token}
    (closes : reader.closedBy? token = some closed) :
    closed.BlamesLeaves := by
  unfold Reader.closedBy? at closes
  split at closes
  · rename_i block outer isBrace opened
    cases closes
    obtain ⟨blocks, done, _, _⟩ := accounts
    rw [opened] at blocks done
    let around : Reader := { reader with outer, done := block.before, clauses := block.clauses }
    have enclosing : (around.inMode .declaration).BlamesLeaves :=
      ⟨blocks.2.2, blocks.1, blocks.2.1, .nil _ _⟩
    have inside :
        LeavesBlamed reader.errors (blocksInLoop (block :: outer))
          (Stmt.block reader.done.reverse).strayLeaves := by
      intro outside word isWord
      simp only [Stmt.strayLeaves, Stmt.strayLeavesAll_eq_flatMap, List.mem_flatMap,
        List.mem_reverse] at isWord
      exact done outside word (by
        rw [Stmt.strayLeavesAll_eq_flatMap]
        exact List.mem_flatMap.mpr isWord)
    have completed := enclosing.complete inside
    rwa [complete_inMode] at completed
  · cases closes

/-- The account is kept when a token is rejected, whatever is dropped. -/
theorem reject
    (accounts : reader.BlamesLeaves)
    (token : Token)
    (fault : GrammarFault) :
    (reader.reject token fault).BlamesLeaves := by
  have recorded : (reader.record { token, fault }).BlamesLeaves :=
    accounts.grow (List.suffix_cons _ _)
  unfold Reader.reject
  dsimp only
  split
  · rename_i closed closes
    exact recorded.closedBy? closes
  · refine ⟨recorded.blocks, recorded.done, trivial, ?_⟩
    dsimp only
    split <;> exact .nil _ _

/-- The account is kept where an operand is expected. -/
theorem feedOperand
    (accounts : reader.BlamesLeaves)
    (purpose : Purpose)
    (blamed : LeavesBlamed reader.errors reader.inLoop purpose.strayLeaves)
    (frames : List Frame)
    (token : Token) :
    (reader.feedOperand purpose frames token).BlamesLeaves := by
  unfold Reader.feedOperand
  split
  case h_8 =>
    split
    · exact accounts.expect blamed
    · exact accounts.reject token _
  all_goals exact accounts.expect blamed

/-- The account is kept behind an expression outside every bracket. -/
theorem feedPurpose
    (accounts : reader.BlamesLeaves)
    {purpose : Purpose}
    (blamed : LeavesBlamed reader.errors reader.inLoop purpose.strayLeaves)
    (expr : Expr)
    (token : Token) :
    (reader.feedPurpose expr token purpose).BlamesLeaves := by
  unfold Reader.feedPurpose
  split
  · exact accounts.complete (.nil _ _)
  · exact accounts.completeAt rfl _
  · exact accounts.completeAt rfl _
  · exact accounts.await (.nil _ _)
  · exact accounts.await (.nil _ _)
  · exact accounts.expect blamed
  · exact accounts.await blamed
  · exact accounts.reject token _

/-- The account is kept when an expression ends. -/
theorem feedClosing
    (accounts : reader.BlamesLeaves)
    {purpose : Purpose}
    (blamed : LeavesBlamed reader.errors reader.inLoop purpose.strayLeaves)
    (expr : Expr)
    (token : Token)
    (frames : List Frame) :
    (reader.feedClosing purpose expr token frames).BlamesLeaves := by
  unfold Reader.feedClosing
  split
  · split
    · exact accounts.expect blamed
    · exact accounts.reject token _
  · split
    · exact accounts.expect blamed
    · exact accounts.reject token _
  · exact accounts.feedPurpose blamed expr token

/-- The account is kept where an operator is expected. -/
theorem feedOperator
    (accounts : reader.BlamesLeaves)
    {purpose : Purpose}
    (blamed : LeavesBlamed reader.errors reader.inLoop purpose.strayLeaves)
    (frames : List Frame)
    (operand : Expr)
    (token : Token) :
    (reader.feedOperator purpose frames operand token).BlamesLeaves := by
  have kept := suffix_collapse (stopLevel token.kind) reader.errors operand frames
  have filled := accounts.grow kept
  have filledBlamed := blamed.mono kept
  rw [feedOperator_eq, collapseTo]
  unfold afterCollapse
  split
  · exact filled.expect filledBlamed
  · split
    · exact filled.expect filledBlamed
    · exact filled.expect filledBlamed
    · exact filled.feedClosing filledBlamed _ token _

/-- A word that leaves a loop is blamed at once outside every loop. -/
theorem feedBreak
    (accounts : reader.BlamesLeaves)
    (word : Token) :
    ((reader.noting (leaveErrors reader.inLoop word)).inMode (.leave word)).BlamesLeaves := by
  refine (accounts.grow (List.suffix_append _ _)).expect ?_
  intro outside other isWord
  have notLoop : reader.inLoop = false := outside
  cases List.mem_singleton.mp isWord
  simp [leaveErrors, notLoop]

/-- The account is kept by the first token of a statement. -/
theorem feedStatement
    (accounts : reader.BlamesLeaves)
    (token : Token) :
    (reader.feedStatement token).BlamesLeaves := by
  by_cases isBreak : token.kind = .keyword .breakWord
  · rw [feedStatement_break reader isBreak]
    exact accounts.feedBreak token
  · unfold Reader.feedStatement
    split
    case h_5 begins => exact (isBreak begins).elim
    case h_6 =>
      exact ⟨⟨accounts.done, accounts.clauses, accounts.blocks⟩, .nil _ _, trivial, .nil _ _⟩
    case h_7 => exact accounts.feedOperand _ (.nil _ _) [] token
    all_goals exact accounts.expectBare rfl

/-- The account is kept by the first token of a declaration, and by the end of a block. -/
theorem feedDeclaration
    (accounts : reader.BlamesLeaves)
    (token : Token) :
    (reader.feedDeclaration token).BlamesLeaves := by
  unfold Reader.feedDeclaration
  split
  · rename_i closed closes
    exact accounts.closedBy? closes
  · split
    · exact accounts.expectBare rfl
    · exact accounts.feedStatement token

/-- The account is kept while reading looks for the next statement. -/
theorem feedSkipping
    (accounts : reader.BlamesLeaves)
    (token : Token) :
    (reader.feedSkipping token).BlamesLeaves := by
  unfold Reader.feedSkipping
  split
  · rename_i closed closes
    exact accounts.closedBy? closes
  · split
    · exact accounts.feedDeclaration token
    · split
      · exact accounts.expectBare rfl
      · exact accounts

/-- Every token keeps the account. -/
theorem feed
    (accounts : reader.BlamesLeaves)
    (token : Token) :
    (reader.feed token).BlamesLeaves := by
  have held := accounts.mode
  unfold Reader.feed
  split
  · exact accounts.feedDeclaration token
  · exact accounts.feedStatement token
  · rename_i condition thenBranch expects
    rw [expects] at held
    split
    · exact accounts.await held
    · exact (accounts.settleThen expects).feedDeclaration token
  · split
    · split <;> exact accounts.expectBare rfl
    · exact accounts.reject token _
  · split
    · exact accounts.expectBare rfl
    · exact accounts.reject token _
  · split
    · exact accounts.expectBare rfl
    · exact accounts.completeAt rfl _
    · exact accounts.reject token _
  · split
    · exact accounts.expectBare rfl
    · exact accounts.expectBare rfl
    · exact accounts.feedOperand _ (.nil _ _) [] token
  · rename_i initial expects
    rw [expects] at held
    split
    · exact accounts.expect held
    · exact accounts.feedOperand (.forCondition initial) held [] token
  · rename_i initial condition expects
    rw [expects] at held
    split
    · exact accounts.await held
    · exact accounts.feedOperand (.forStep initial condition) held [] token
  · rename_i word expects
    rw [expects] at held
    split
    · exact accounts.complete held
    · exact accounts.reject token _
  · rename_i purpose frames expects
    rw [expects] at held
    exact accounts.feedOperand purpose held frames token
  · rename_i purpose frames operand expects
    rw [expects] at held
    exact accounts.feedOperator held frames operand token
  · exact accounts.feedSkipping token

/-- All tokens keep the account. -/
theorem feedAll
    (accounts : reader.BlamesLeaves)
    (tokens : List Token) :
    (reader.feedAll tokens).BlamesLeaves := by
  induction tokens generalizing reader with
  | nil =>
      exact accounts
  | cons token tokens inductionHypothesis =>
      exact inductionHypothesis (accounts.feed token)

/-- The end of the input keeps the account. -/
theorem endStatement
    (accounts : reader.BlamesLeaves)
    (token : Token) :
    (reader.endStatement token).BlamesLeaves := by
  unfold Reader.endStatement
  split
  · exact accounts
  · exact accounts
  · rename_i condition thenBranch expects
    exact accounts.settleThen expects
  · exact accounts.feed token

/-- Outside every block there is no loop around a statement, so that its stray words are blamed. -/
theorem mem_errors
    (accounts : reader.BlamesLeaves)
    {statement : Stmt}
    (isKept : statement ∈ reader.kept)
    {word : Token}
    (stray : word ∈ statement.strayLeaves) :
    { token := word, fault := .breakOutsideLoop } ∈ reader.errors := by
  have outermost : LeavesBlamed reader.errors false (Stmt.strayLeavesAll reader.kept) := by
    unfold kept
    split
    · rename_i block isLast
      exact accounts.blocks.outermost isLast
    · rename_i noBlock
      have outside : reader.outer = [] := List.getLast?_eq_none_iff.mp noBlock
      have done := accounts.done
      rwa [outside] at done
  refine outermost rfl word ?_
  rw [Stmt.strayLeavesAll_eq_flatMap]
  exact List.mem_flatMap.mpr ⟨statement, isKept, stray⟩

end BlamesLeaves

end Reader

/-- Every stray word of a program that has been read is blamed, whatever else is wrong with it. -/
theorem Program.strayLeaves_blamed
    {tokens : List Token}
    {last : Token}
    (isLast : tokens.getLast? = some last)
    (ends : last.kind = .endOfInput)
    {statement : Stmt}
    (isKept : statement ∈ (Program.ofTokens tokens).statements)
    {word : Token}
    (stray : word ∈ statement.strayLeaves) :
    { token := word, fault := .breakOutsideLoop } ∈ (Program.ofTokens tokens).errors := by
  obtain ⟨ending, rest, same, isEnding⟩ := exists_append_beforeEnd isLast ends
  have reads := ofTokens_eq_finish same isEnding
  have accounts :=
    (Reader.blamesLeaves_start.feedAll (beforeEnd tokens)).endStatement ending
  rw [reads] at isKept ⊢
  have found := accounts.mem_errors (List.mem_reverse.mp isKept) stray
  simp [Reader.finish, Reader.program, found]

/--
Leaving a loop never goes beyond the loop.  When no word that leaves a loop is
blamed, every such word in the statements read lies in the body of a loop of its
statement, whatever other errors there are.  Statements of that kind that come to
an end do so normally or by an error, so that a program has no leaving to catch;
and behind a loop that comes to an end without an error, however its body leaves
it, the next statements are executed.
-/
theorem Program.leaves_stay_in_loops :
    (∀ (tokens : List Token) (last : Token),
        tokens.getLast? = some last → last.kind = .endOfInput →
        (∀ error ∈ (Program.ofTokens tokens).errors, error.fault ≠ .breakOutsideLoop) →
        ∀ statement ∈ (Program.ofTokens tokens).statements, statement.strayLeaves = []) ∧
      (∀ (policy : Policy) (statements : List Stmt),
        (∀ statement ∈ statements, statement.strayLeaves = []) →
        (∀ statement ∈ statements, ∀ (depth : Nat) (world : World depth),
          (statement.exec policy world).1 ≠ .exhausted →
          (statement.exec policy world).1 = .normal ∨
            ∃ error, (statement.exec policy world).1 = .failed error) ∧
        ∀ world : World 0,
          Stmt.execProgram policy statements world = Stmt.execAll policy statements world) ∧
      ∀ (policy : Policy) (condition : Expr) (body : Stmt) (rest : List Stmt) (depth : Nat)
        (world : World depth),
        let ended := (Stmt.loop condition body).exec policy world
        ended.1 ≠ .exhausted →
        (ended.1 = .normal ∧
            Stmt.execAll policy (.loop condition body :: rest) world =
              Stmt.execAll policy rest ended.2) ∨
          ∃ error, ended.1 = .failed error := by
  refine ⟨?_, ?_, ?_⟩
  · intro tokens last isLast ends noneBlamed statement isKept
    refine List.eq_nil_iff_forall_not_mem.mpr fun word stray => ?_
    exact noneBlamed _ (strayLeaves_blamed isLast ends isKept stray) rfl
  · intro policy statements strayless
    refine ⟨fun statement isOne depth world comesToEnd => ?_, fun world => ?_⟩
    · exact Stmt.exec_normal_or_failed (strayless statement isOne) comesToEnd
    · exact Stmt.execProgram_eq_execAll policy strayless world
  · intro policy condition body rest depth world ended comesToEnd
    have strayless : (Stmt.loop condition body).strayLeaves = [] := by
      rw [Stmt.strayLeaves]
    rcases Stmt.exec_normal_or_failed strayless comesToEnd with normal | failed
    · exact .inl ⟨normal, Stmt.execAll_cons_of_normal normal rest⟩
    · exact .inr failed

/-- The kinds of the tokens in `while (a) { print; if (b) break; } print c;`. -/
def loopWithError : List Kind :=
  [.keyword .whileWord, .mark .leftParen, .identifier, .mark .rightParen, .mark .leftBrace,
    .keyword .printWord, .mark .semicolon, .keyword .ifWord, .mark .leftParen, .identifier,
    .mark .rightParen, .keyword .breakWord, .mark .semicolon, .mark .rightBrace,
    .keyword .printWord, .identifier, .mark .semicolon]

/-- A loop that has lost a statement keeps its hold on the word that leaves it. -/
theorem Program.leaves_stay_in_loops_loopWithError :
    (Program.ofTokens (tokensOfKinds loopWithError)).errors.map GrammarError.fault =
        [.expectExpression] ∧
      (Program.ofTokens (tokensOfKinds loopWithError)).statements.length = 2 ∧
      ∀ statement ∈ (Program.ofTokens (tokensOfKinds loopWithError)).statements,
        statement.strayLeaves = [] ∧
          ∀ (policy : Policy) (world : World 0),
            (statement.exec policy world).1 ≠ .exhausted →
            (statement.exec policy world).1 = .normal ∨
              ∃ error, (statement.exec policy world).1 = .failed error := by
  have strayless :=
    Program.leaves_stay_in_loops.1 (tokensOfKinds loopWithError) _ rfl rfl (by decide)
  refine ⟨rfl, rfl, fun statement isKept => ⟨strayless statement isKept, ?_⟩⟩
  intro policy world
  exact (Program.leaves_stay_in_loops.2.1 policy _ strayless).1 statement isKept 0 world

end BlockScript
