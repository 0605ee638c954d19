import BlockScript.Reading.Pending
import BlockScript.Proofs.Grammar.Derivation

namespace BlockScript.Grammar

/-!
# Phrases and what they stand for

A phrase is a list of tokens with the tree it stands for and the violations of
the side conditions in it, in the order of the source.  An assignment to
something other than a variable stands for its target, and its violation comes
after those of both sides.
-/

/-- The expression that one token is on its own. -/
def exprOfToken?
    (token : Token) :
    Option Expr :=
  match token.kind with
  | .keyword .falseWord => some (.literal (.bool false))
  | .keyword .trueWord => some (.literal (.bool true))
  | .keyword .nilWord => some (.literal .nil)
  | .number => some (.literal token.literal)
  | .string => some (.literal token.literal)
  | .identifier => some (.lookup token)
  | _ => none

/-- Tokens that stand for an expression of at least some level. -/
inductive ExprPhrase : Level → List Token → Expr → List GrammarError → Prop where
  | atom
      {token : Token}
      {expr : Expr}
      (alone : exprOfToken? token = some expr) :
      ExprPhrase .unary [token] expr []
  | group
      {opening closing : Token}
      {tokens : List Token}
      {expr : Expr}
      {errors : List GrammarError}
      (opens : opening.kind = .mark .leftParen)
      (inner : ExprPhrase .comma tokens expr errors)
      (closes : closing.kind = .mark .rightParen) :
      ExprPhrase .unary (opening :: (tokens ++ [closing])) (.group expr) errors
  | unary
      {token : Token}
      {operator : UnaryOperator}
      {tokens : List Token}
      {expr : Expr}
      {errors : List GrammarError}
      (signed : UnaryOperator.ofKind? token.kind = some operator)
      (operand : ExprPhrase .unary tokens expr errors) :
      ExprPhrase .unary (token :: tokens) (.unary token operator expr) errors
  | binary
      {token : Token}
      {operator : BinaryOperator}
      {left right : List Token}
      {leftExpr rightExpr : Expr}
      {leftErrors rightErrors : List GrammarError}
      (signed : BinaryOperator.ofKind? token.kind = some operator)
      (earlier : ExprPhrase operator.level left leftExpr leftErrors)
      (last : ExprPhrase (tighter operator.level) right rightExpr rightErrors) :
      ExprPhrase operator.level (left ++ token :: right)
        (.binary token operator leftExpr rightExpr) (leftErrors ++ rightErrors)
  | conditional
      {question colon : Token}
      {condition thenValue elseValue : List Token}
      {conditionExpr thenExpr elseExpr : Expr}
      {conditionErrors thenErrors elseErrors : List GrammarError}
      (tested : ExprPhrase .equality condition conditionExpr conditionErrors)
      (asks : question.kind = .mark .question)
      (chosen : ExprPhrase .comma thenValue thenExpr thenErrors)
      (separates : colon.kind = .mark .colon)
      (alternative : ExprPhrase .conditional elseValue elseExpr elseErrors) :
      ExprPhrase .conditional (condition ++ question :: (thenValue ++ colon :: elseValue))
        (.conditional conditionExpr thenExpr elseExpr)
        (conditionErrors ++ (thenErrors ++ elseErrors))
  | assign
      {equals : Token}
      {target value : List Token}
      {targetExpr valueExpr : Expr}
      {targetErrors valueErrors : List GrammarError}
      (assigned : ExprPhrase .conditional target targetExpr targetErrors)
      (assigns : equals.kind = .mark .equal)
      (source : ExprPhrase .assignment value valueExpr valueErrors) :
      ExprPhrase .assignment (target ++ equals :: value)
        (Frame.fill valueExpr (.assign targetExpr equals))
        (targetErrors ++ (valueErrors ++ (Frame.error? (.assign targetExpr equals)).toList))
  | loosen
      {level : Level}
      {tokens : List Token}
      {expr : Expr}
      {errors : List GrammarError}
      (inner : ExprPhrase (tighter level) tokens expr errors) :
      ExprPhrase level tokens expr errors

/-- Tokens that stand for an expression that may be missing. -/
inductive OptionalPhrase : List Token → Option Expr → List GrammarError → Prop where
  | missing :
      OptionalPhrase [] none []
  | present
      {tokens : List Token}
      {expr : Expr}
      {errors : List GrammarError}
      (value : ExprPhrase .comma tokens expr errors) :
      OptionalPhrase tokens (some expr) errors

/-- Tokens that stand for the declaration of a variable. -/
inductive VariablePhrase : List Token → Stmt → List GrammarError → Prop where
  | bare
      {word name semicolon : Token}
      (begins : word.kind = .keyword .varWord)
      (named : name.kind = .identifier)
      (ends : semicolon.kind = .mark .semicolon) :
      VariablePhrase [word, name, semicolon] (.declare name none) []
  | initialized
      {word name equals semicolon : Token}
      {initial : List Token}
      {expr : Expr}
      {errors : List GrammarError}
      (begins : word.kind = .keyword .varWord)
      (named : name.kind = .identifier)
      (assigns : equals.kind = .mark .equal)
      (value : ExprPhrase .comma initial expr errors)
      (ends : semicolon.kind = .mark .semicolon) :
      VariablePhrase (word :: name :: equals :: (initial ++ [semicolon]))
        (.declare name (some expr)) errors

/-- Tokens that stand for the first part of the header of a counting loop. -/
inductive InitialPhrase : List Token → Option Stmt → List GrammarError → Prop where
  | missing
      {semicolon : Token}
      (ends : semicolon.kind = .mark .semicolon) :
      InitialPhrase [semicolon] none []
  | declare
      {tokens : List Token}
      {statement : Stmt}
      {errors : List GrammarError}
      (declares : VariablePhrase tokens statement errors) :
      InitialPhrase tokens (some statement) errors
  | expression
      {semicolon : Token}
      {tokens : List Token}
      {expr : Expr}
      {errors : List GrammarError}
      (value : ExprPhrase .comma tokens expr errors)
      (ends : semicolon.kind = .mark .semicolon) :
      InitialPhrase (tokens ++ [semicolon]) (some (.expression expr)) errors

/-- The violation when a loop is left outside every loop. -/
def leaveErrors
    (inLoop : Bool)
    (word : Token) :
    List GrammarError :=
  if inLoop then [] else [{ token := word, fault := .breakOutsideLoop }]

mutual

/-- Tokens that stand for a statement inside or outside a loop, with the given ending. -/
inductive StatementPhrase :
    Bool → Ending → List Token → Stmt → List GrammarError → Prop where
  | block
      {inLoop : Bool}
      {opening closing : Token}
      {tokens : List Token}
      {statements : List Stmt}
      {errors : List GrammarError}
      (opens : opening.kind = .mark .leftBrace)
      (body : BodyPhrase inLoop tokens statements errors)
      (closes : closing.kind = .mark .rightBrace) :
      StatementPhrase inLoop .closed (opening :: (tokens ++ [closing]))
        (.block statements) errors
  | leave
      {inLoop : Bool}
      {word semicolon : Token}
      (begins : word.kind = .keyword .breakWord)
      (ends : semicolon.kind = .mark .semicolon) :
      StatementPhrase inLoop .closed [word, semicolon]
        (.leave word) (leaveErrors inLoop word)
  | expression
      {inLoop : Bool}
      {semicolon : Token}
      {tokens : List Token}
      {expr : Expr}
      {errors : List GrammarError}
      (value : ExprPhrase .comma tokens expr errors)
      (ends : semicolon.kind = .mark .semicolon) :
      StatementPhrase inLoop .closed (tokens ++ [semicolon]) (.expression expr) errors
  | print
      {inLoop : Bool}
      {word semicolon : Token}
      {tokens : List Token}
      {expr : Expr}
      {errors : List GrammarError}
      (begins : word.kind = .keyword .printWord)
      (value : ExprPhrase .comma tokens expr errors)
      (ends : semicolon.kind = .mark .semicolon) :
      StatementPhrase inLoop .closed (word :: (tokens ++ [semicolon])) (.print expr) errors
  | ifThen
      {inLoop : Bool}
      {ending : Ending}
      {word opening closing : Token}
      {condition thenBranch : List Token}
      {expr : Expr}
      {thenStmt : Stmt}
      {conditionErrors thenErrors : List GrammarError}
      (begins : word.kind = .keyword .ifWord)
      (opens : opening.kind = .mark .leftParen)
      (tested : ExprPhrase .comma condition expr conditionErrors)
      (closes : closing.kind = .mark .rightParen)
      (chosen : StatementPhrase inLoop ending thenBranch thenStmt thenErrors) :
      StatementPhrase inLoop .extensible
        (word :: opening :: (condition ++ closing :: thenBranch))
        (.ifThen expr thenStmt) (conditionErrors ++ thenErrors)
  | ifElse
      {inLoop : Bool}
      {ending : Ending}
      {word opening closing otherwise : Token}
      {condition thenBranch elseBranch : List Token}
      {expr : Expr}
      {thenStmt elseStmt : Stmt}
      {conditionErrors thenErrors elseErrors : List GrammarError}
      (begins : word.kind = .keyword .ifWord)
      (opens : opening.kind = .mark .leftParen)
      (tested : ExprPhrase .comma condition expr conditionErrors)
      (closes : closing.kind = .mark .rightParen)
      (chosen : StatementPhrase inLoop .closed thenBranch thenStmt thenErrors)
      (separates : otherwise.kind = .keyword .elseWord)
      (alternative : StatementPhrase inLoop ending elseBranch elseStmt elseErrors) :
      StatementPhrase inLoop ending
        (word :: opening ::
          (condition ++ closing :: (thenBranch ++ otherwise :: elseBranch)))
        (.ifElse expr thenStmt elseStmt) (conditionErrors ++ (thenErrors ++ elseErrors))
  | whileLoop
      {inLoop : Bool}
      {ending : Ending}
      {word opening closing : Token}
      {condition body : List Token}
      {expr : Expr}
      {bodyStmt : Stmt}
      {conditionErrors bodyErrors : List GrammarError}
      (begins : word.kind = .keyword .whileWord)
      (opens : opening.kind = .mark .leftParen)
      (tested : ExprPhrase .comma condition expr conditionErrors)
      (closes : closing.kind = .mark .rightParen)
      (repeated : StatementPhrase true ending body bodyStmt bodyErrors) :
      StatementPhrase inLoop ending
        (word :: opening :: (condition ++ closing :: body))
        (.loop expr bodyStmt) (conditionErrors ++ bodyErrors)
  | forLoop
      {inLoop : Bool}
      {ending : Ending}
      {word opening semicolon closing : Token}
      {initial condition step body : List Token}
      {initialStmt : Option Stmt}
      {conditionExpr stepExpr : Option Expr}
      {bodyStmt : Stmt}
      {initialErrors conditionErrors stepErrors bodyErrors : List GrammarError}
      (begins : word.kind = .keyword .forWord)
      (opens : opening.kind = .mark .leftParen)
      (first : InitialPhrase initial initialStmt initialErrors)
      (second : OptionalPhrase condition conditionExpr conditionErrors)
      (separates : semicolon.kind = .mark .semicolon)
      (third : OptionalPhrase step stepExpr stepErrors)
      (closes : closing.kind = .mark .rightParen)
      (repeated : StatementPhrase true ending body bodyStmt bodyErrors) :
      StatementPhrase inLoop ending
        (word :: opening ::
          (initial ++ (condition ++ semicolon :: (step ++ closing :: body))))
        (.forLoop initialStmt conditionExpr stepExpr bodyStmt)
        (initialErrors ++ (conditionErrors ++ (stepErrors ++ bodyErrors)))

/-- Tokens that stand for the declarations and statements of a block or a program. -/
inductive BodyPhrase : Bool → List Token → List Stmt → List GrammarError → Prop where
  | nil
      {inLoop : Bool} :
      BodyPhrase inLoop [] [] []
  | declare
      {inLoop : Bool}
      {tokens rest : List Token}
      {statement : Stmt}
      {statements : List Stmt}
      {errors restErrors : List GrammarError}
      (first : VariablePhrase tokens statement errors)
      (others : BodyPhrase inLoop rest statements restErrors) :
      BodyPhrase inLoop (tokens ++ rest) (statement :: statements) (errors ++ restErrors)
  | statement
      {inLoop : Bool}
      {ending : Ending}
      {tokens rest : List Token}
      {statement : Stmt}
      {statements : List Stmt}
      {errors restErrors : List GrammarError}
      (first : StatementPhrase inLoop ending tokens statement errors)
      (others : BodyPhrase inLoop rest statements restErrors) :
      BodyPhrase inLoop (tokens ++ rest) (statement :: statements) (errors ++ restErrors)

end

/-- Nothing is tighter than a unary operator. -/
theorem rank_le_unary
    (level : Level) :
    level.rank ≤ Level.unary.rank := by
  cases level <;> decide

/-- Below the unary operators the next tighter level is one rank above. -/
theorem rank_tighter
    {level : Level}
    (below : level.rank < Level.unary.rank) :
    (tighter level).rank = level.rank + 1 := by
  cases level with
  | unary => exact absurd below (Nat.lt_irrefl _)
  | _ => rfl

/-- A level is not above the next tighter one. -/
theorem rank_le_tighter
    (level : Level) :
    level.rank ≤ (tighter level).rank := by
  cases level <;> decide

/-- A level is known by its rank. -/
theorem rank_injective
    {first second : Level}
    (same : first.rank = second.rank) :
    first = second := by
  revert same
  cases first <;> cases second <;> decide

/-- A binary operator is looser than a unary one. -/
theorem rank_level_lt_unary
    (operator : BinaryOperator) :
    operator.level.rank < Level.unary.rank := by
  cases operator <;> decide

namespace ExprPhrase

/-- A phrase of a tight level is a phrase of every looser one. -/
theorem loosenTo
    {level tight : Level}
    {tokens : List Token}
    {expr : Expr}
    {errors : List GrammarError}
    (phrase : ExprPhrase tight tokens expr errors)
    (looser : level.rank ≤ tight.rank) :
    ExprPhrase level tokens expr errors := by
  generalize distance : tight.rank - level.rank = steps
  induction steps generalizing level with
  | zero =>
      have same : level = tight :=
        rank_injective (by omega)
      exact same ▸ phrase
  | succ steps inductionHypothesis =>
      have below : level.rank < Level.unary.rank := by
        have := rank_le_unary tight
        omega
      have above := rank_tighter below
      exact .loosen (inductionHypothesis (by omega) (by omega))

/-- Every phrase may stand where any expression may. -/
theorem loosest
    {level : Level}
    {tokens : List Token}
    {expr : Expr}
    {errors : List GrammarError}
    (phrase : ExprPhrase level tokens expr errors) :
    ExprPhrase .comma tokens expr errors :=
  phrase.loosenTo (Nat.zero_le _)

/-- Only a name stands for a variable. -/
theorem eq_name_of_lookup
    {level : Level}
    {tokens : List Token}
    {name : Token}
    {errors : List GrammarError}
    (phrase : ExprPhrase level tokens (.lookup name) errors) :
    tokens = [name] ∧ name.kind = .identifier := by
  generalize isLookup : Expr.lookup name = expr at phrase
  induction phrase with
  | @atom token expr alone =>
      subst isLookup
      unfold exprOfToken? at alone
      split at alone <;> simp_all
  | @assign equals _ _ target _ _ _ _ _ _ _ =>
      cases target <;> simp_all [Frame.fill]
  | loosen _ inductionHypothesis =>
      exact inductionHypothesis isLookup
  | _ =>
      cases isLookup

end ExprPhrase

namespace BodyPhrase

/-- Two bodies one after the other are a body. -/
theorem append
    {inLoop : Bool}
    {first second : List Token}
    {statements others : List Stmt}
    {errors otherErrors : List GrammarError}
    (body : BodyPhrase inLoop first statements errors)
    (following : BodyPhrase inLoop second others otherErrors) :
    BodyPhrase inLoop (first ++ second) (statements ++ others) (errors ++ otherErrors) := by
  induction statements generalizing first errors with
  | nil =>
      cases body
      exact following
  | cons statement statements inductionHypothesis =>
      cases body with
      | declare declares rest =>
          simpa using BodyPhrase.declare declares (inductionHypothesis rest)
      | statement phrase rest =>
          simpa using BodyPhrase.statement phrase (inductionHypothesis rest)

end BodyPhrase

/-- Whether an expression may begin with a token of this kind. -/
def beginsExpression : Kind → Bool
  | .number | .string | .identifier => true
  | .keyword .trueWord | .keyword .falseWord | .keyword .nilWord => true
  | .mark .leftParen | .mark .bang | .mark .minus => true
  | _ => false

/-- Whether a statement may begin with a token of this kind. -/
def beginsStatement : Kind → Bool
  | .keyword .forWord | .keyword .ifWord | .keyword .printWord => true
  | .keyword .whileWord | .keyword .breakWord => true
  | .mark .leftBrace => true
  | kind => beginsExpression kind

/-- What begins an expression begins a statement. -/
theorem beginsStatement_of_beginsExpression
    {kind : Kind}
    (begins : beginsExpression kind = true) :
    beginsStatement kind = true := by
  unfold beginsStatement
  split <;> simp_all

/-- An expression phrase begins as an expression. -/
theorem ExprPhrase.exists_first
    {level : Level}
    {tokens : List Token}
    {expr : Expr}
    {errors : List GrammarError}
    (phrase : ExprPhrase level tokens expr errors) :
    ∃ first rest, tokens = first :: rest ∧ beginsExpression first.kind = true := by
  induction phrase with
  | @atom token expr alone =>
      refine ⟨token, [], rfl, ?_⟩
      unfold exprOfToken? at alone
      split at alone <;> simp_all [beginsExpression]
  | @group opening closing tokens _ _ opens _ _ _ =>
      exact ⟨opening, tokens ++ [closing], rfl, by rw [opens]; rfl⟩
  | @unary token operator tokens _ _ signed _ _ =>
      refine ⟨token, tokens, rfl, ?_⟩
      unfold UnaryOperator.ofKind? at signed
      split at signed <;> simp_all [beginsExpression]
  | @binary token _ _ right _ _ _ _ _ _ _ earlier _ =>
      obtain ⟨first, rest, rfl, begins⟩ := earlier
      exact ⟨first, rest ++ token :: right, rfl, begins⟩
  | conditional _ _ _ _ _ tested _ _ =>
      obtain ⟨first, rest, rfl, begins⟩ := tested
      exact ⟨first, _, rfl, begins⟩
  | assign _ _ _ assigned _ =>
      obtain ⟨first, rest, rfl, begins⟩ := assigned
      exact ⟨first, _, rfl, begins⟩
  | loosen _ inner =>
      exact inner

/-- A statement phrase begins as a statement. -/
theorem StatementPhrase.exists_first
    {inLoop : Bool}
    {ending : Ending}
    {tokens : List Token}
    {statement : Stmt}
    {errors : List GrammarError}
    (phrase : StatementPhrase inLoop ending tokens statement errors) :
    ∃ first rest, tokens = first :: rest ∧ beginsStatement first.kind = true := by
  cases phrase with
  | block opens => exact ⟨_, _, rfl, by rw [opens]; rfl⟩
  | leave begins => exact ⟨_, _, rfl, by rw [begins]; rfl⟩
  | expression value =>
      obtain ⟨first, rest, rfl, begins⟩ := value.exists_first
      exact ⟨first, _, rfl, beginsStatement_of_beginsExpression begins⟩
  | print begins => exact ⟨_, _, rfl, by rw [begins]; rfl⟩
  | ifThen begins => exact ⟨_, _, rfl, by rw [begins]; rfl⟩
  | ifElse begins => exact ⟨_, _, rfl, by rw [begins]; rfl⟩
  | whileLoop begins => exact ⟨_, _, rfl, by rw [begins]; rfl⟩
  | forLoop begins => exact ⟨_, _, rfl, by rw [begins]; rfl⟩

/-- A declaration phrase begins with its word. -/
theorem VariablePhrase.exists_first
    {tokens : List Token}
    {statement : Stmt}
    {errors : List GrammarError}
    (phrase : VariablePhrase tokens statement errors) :
    ∃ first rest, tokens = first :: rest ∧ first.kind = .keyword .varWord := by
  cases phrase with
  | bare begins => exact ⟨_, _, rfl, begins⟩
  | initialized begins => exact ⟨_, _, rfl, begins⟩

/-- A body never begins with an `else`. -/
theorem BodyPhrase.head_ne_else
    {inLoop : Bool}
    {tokens : List Token}
    {statements : List Stmt}
    {errors : List GrammarError}
    (phrase : BodyPhrase inLoop tokens statements errors) :
    ∀ token ∈ tokens.head?, token.kind ≠ .keyword .elseWord := by
  intro token isFirst isElse
  cases phrase with
  | nil => cases isFirst
  | declare declares _ =>
      obtain ⟨first, rest, rfl, begins⟩ := declares.exists_first
      cases isFirst
      rw [begins] at isElse
      cases isElse
  | statement statement _ =>
      obtain ⟨first, rest, rfl, begins⟩ := statement.exists_first
      cases isFirst
      rw [isElse] at begins
      cases begins

end BlockScript.Grammar
