import BlockScript.Proofs.Source.Joining
import BlockScript.Proofs.Reading.Language

namespace BlockScript

open Grammar

/-!
# Reading tokens further down

The line of a token matters to nothing but the messages that blame it.  Tokens
further down are therefore read as the same statements, with each token they
keep further down, and the statements of two sources with a line feed between
them are those of the first and those of the second.
-/

namespace Token

/-- A shifted token has the same kind. -/
@[simp]
theorem kind_shifted
    (lines : Nat)
    (token : Token) :
    (token.shifted lines).kind = token.kind :=
  rfl

/-- A shifted token has the same text. -/
@[simp]
theorem lexeme_shifted
    (lines : Nat)
    (token : Token) :
    (token.shifted lines).lexeme = token.lexeme :=
  rfl

/-- A shifted token carries the same value. -/
@[simp]
theorem literal_shifted
    (lines : Nat)
    (token : Token) :
    (token.shifted lines).literal = token.literal :=
  rfl

end Token

/-- An expression whose tokens are further down. -/
def Expr.shifted
    (lines : Nat) :
    Expr → Expr
  | .assign name value => .assign (name.shifted lines) (value.shifted lines)
  | .binary token operator left right =>
      .binary (token.shifted lines) operator (left.shifted lines) (right.shifted lines)
  | .group inner => .group (inner.shifted lines)
  | .literal value => .literal value
  | .conditional condition thenValue elseValue =>
      .conditional (condition.shifted lines) (thenValue.shifted lines) (elseValue.shifted lines)
  | .unary token operator operand =>
      .unary (token.shifted lines) operator (operand.shifted lines)
  | .lookup name => .lookup (name.shifted lines)

namespace Stmt

mutual

/-- A statement whose tokens are further down. -/
def shifted
    (lines : Nat) :
    Stmt → Stmt
  | .block body => .block (shiftedAll lines body)
  | .leave word => .leave (word.shifted lines)
  | .expression value => .expression (value.shifted lines)
  | .ifThen condition thenBranch =>
      .ifThen (condition.shifted lines) (thenBranch.shifted lines)
  | .ifElse condition thenBranch elseBranch =>
      .ifElse (condition.shifted lines) (thenBranch.shifted lines) (elseBranch.shifted lines)
  | .print value => .print (value.shifted lines)
  | .declare name initial => .declare (name.shifted lines) (initial.map (Expr.shifted lines))
  | .loop condition body => .loop (condition.shifted lines) (body.shifted lines)

/-- Statements whose tokens are further down. -/
def shiftedAll
    (lines : Nat) :
    List Stmt → List Stmt
  | [] => []
  | statement :: others => statement.shifted lines :: shiftedAll lines others

end

/-- A shifted counting loop is the counting loop of its shifted parts. -/
theorem shifted_forLoop
    (lines : Nat)
    (initial : Option Stmt)
    (condition step : Option Expr)
    (body : Stmt) :
    (forLoop initial condition step body).shifted lines =
      forLoop (initial.map (shifted lines)) (condition.map (Expr.shifted lines))
        (step.map (Expr.shifted lines)) (body.shifted lines) := by
  cases initial <;> cases condition <;> cases step <;>
    simp [forLoop, shifted, shiftedAll, Expr.shifted]

end Stmt

/-- A grammar error whose token is further down. -/
def GrammarError.shifted
    (lines : Nat)
    (error : GrammarError) :
    GrammarError :=
  { error with token := error.token.shifted lines }

namespace Grammar

variable {lines : Nat}

/-- An operand of one token is shifted with its token. -/
theorem exprOfToken?_shifted
    {token : Token}
    {expr : Expr}
    (alone : exprOfToken? token = some expr) :
    exprOfToken? (token.shifted lines) = some (expr.shifted lines) := by
  unfold exprOfToken? at alone ⊢
  rw [Token.kind_shifted]
  split at alone
  case h_7 => cases alone
  all_goals
    cases alone
    simp_all [Expr.shifted]

/-- An expression phrase further down stands for the shifted expression. -/
theorem ExprPhrase.shifted
    {level : Level}
    {tokens : List Token}
    {expr : Expr}
    {errors : List GrammarError}
    (phrase : ExprPhrase level tokens expr errors) :
    ExprPhrase level (tokens.map (Token.shifted lines)) (expr.shifted lines)
      (errors.map (GrammarError.shifted lines)) := by
  induction phrase with
  | atom alone => exact .atom (exprOfToken?_shifted alone)
  | group opens _ closes inner =>
      simp only [List.map_cons, List.map_append, List.map_nil, Expr.shifted]
      exact .group opens inner closes
  | unary signed _ operand =>
      simp only [List.map_cons, Expr.shifted]
      exact .unary signed operand
  | binary signed _ _ earlier last =>
      simp only [List.map_cons, List.map_append, Expr.shifted]
      exact .binary signed earlier last
  | conditional _ asks _ separates _ tested chosen alternative =>
      simp only [List.map_cons, List.map_append, Expr.shifted]
      exact .conditional tested asks chosen separates alternative
  | @assign equals _ _ target value _ _ _ assigns _ assigned source =>
      have filled :
          (Frame.fill value (.assign target equals)).shifted lines =
            Frame.fill (value.shifted lines)
              (.assign (target.shifted lines) (equals.shifted lines)) := by
        cases target <;> rfl
      have noted :
          (Frame.error? (.assign target equals)).toList.map (GrammarError.shifted lines) =
            (Frame.error?
              (.assign (target.shifted lines) (equals.shifted lines))).toList := by
        cases target <;> rfl
      simp only [List.map_cons, List.map_append, filled, noted]
      exact .assign assigned assigns source
  | loosen _ inner => exact .loosen inner

/-- An optional expression further down stands for the shifted one. -/
theorem OptionalPhrase.shifted
    {tokens : List Token}
    {expr : Option Expr}
    {errors : List GrammarError}
    (phrase : OptionalPhrase tokens expr errors) :
    OptionalPhrase (tokens.map (Token.shifted lines)) (expr.map (Expr.shifted lines))
      (errors.map (GrammarError.shifted lines)) := by
  cases phrase with
  | missing => exact .missing
  | present value => exact .present value.shifted

/-- A declaration further down stands for the shifted one. -/
theorem VariablePhrase.shifted
    {tokens : List Token}
    {statement : Stmt}
    {errors : List GrammarError}
    (phrase : VariablePhrase tokens statement errors) :
    VariablePhrase (tokens.map (Token.shifted lines)) (statement.shifted lines)
      (errors.map (GrammarError.shifted lines)) := by
  cases phrase with
  | bare begins named ends =>
      exact .bare begins named ends
  | initialized begins named assigns value ends =>
      simp only [List.map_cons, List.map_append, List.map_nil, Stmt.shifted, Option.map_some]
      exact .initialized begins named assigns value.shifted ends

/-- The first part of a loop header further down stands for the shifted one. -/
theorem InitialPhrase.shifted
    {tokens : List Token}
    {initial : Option Stmt}
    {errors : List GrammarError}
    (phrase : InitialPhrase tokens initial errors) :
    InitialPhrase (tokens.map (Token.shifted lines)) (initial.map (Stmt.shifted lines))
      (errors.map (GrammarError.shifted lines)) := by
  cases phrase with
  | missing ends => exact .missing ends
  | declare declares => exact .declare declares.shifted
  | expression value ends =>
      simp only [List.map_cons, List.map_append, List.map_nil, Stmt.shifted, Option.map_some]
      exact .expression value.shifted ends

/-- A violation further down blames the shifted word. -/
theorem map_leaveErrors
    (inLoop : Bool)
    (word : Token) :
    (leaveErrors inLoop word).map (GrammarError.shifted lines) =
      leaveErrors inLoop (word.shifted lines) := by
  cases inLoop <;> rfl

mutual

/-- A statement phrase further down stands for the shifted statement. -/
theorem StatementPhrase.shifted :
    ∀ {inLoop : Bool} {ending : Ending} {tokens : List Token} {statement : Stmt}
      {errors : List GrammarError},
      StatementPhrase inLoop ending tokens statement errors →
      StatementPhrase inLoop ending (tokens.map (Token.shifted lines)) (statement.shifted lines)
        (errors.map (GrammarError.shifted lines))
  | _, _, _, _, _, .block opens body closes => by
      simp only [List.map_cons, List.map_append, List.map_nil, Stmt.shifted]
      exact .block opens body.shifted closes
  | _, _, _, _, _, .leave begins ends => by
      simp only [List.map_cons, List.map_nil, Stmt.shifted, map_leaveErrors]
      exact .leave begins ends
  | _, _, _, _, _, .expression value ends => by
      simp only [List.map_cons, List.map_append, List.map_nil, Stmt.shifted]
      exact .expression value.shifted ends
  | _, _, _, _, _, .print begins value ends => by
      simp only [List.map_cons, List.map_append, List.map_nil, Stmt.shifted]
      exact .print begins value.shifted ends
  | _, _, _, _, _, .ifThen begins opens tested closes chosen => by
      simp only [List.map_cons, List.map_append, Stmt.shifted]
      exact .ifThen begins opens tested.shifted closes chosen.shifted
  | _, _, _, _, _, .ifElse begins opens tested closes chosen separates alternative => by
      simp only [List.map_cons, List.map_append, Stmt.shifted]
      exact .ifElse begins opens tested.shifted closes chosen.shifted separates
        alternative.shifted
  | _, _, _, _, _, .whileLoop begins opens tested closes repeated => by
      simp only [List.map_cons, List.map_append, Stmt.shifted]
      exact .whileLoop begins opens tested.shifted closes repeated.shifted
  | _, _, _, _, _, .forLoop begins opens first second separates third closes repeated => by
      simp only [List.map_cons, List.map_append, Stmt.shifted_forLoop]
      exact .forLoop begins opens first.shifted second.shifted separates third.shifted closes
        repeated.shifted

/-- A body phrase further down stands for the shifted statements. -/
theorem BodyPhrase.shifted :
    ∀ {inLoop : Bool} {tokens : List Token} {statements : List Stmt}
      {errors : List GrammarError},
      BodyPhrase inLoop tokens statements errors →
      BodyPhrase inLoop (tokens.map (Token.shifted lines)) (Stmt.shiftedAll lines statements)
        (errors.map (GrammarError.shifted lines))
  | _, _, _, _, .nil => by
      simp only [List.map_nil, Stmt.shiftedAll]
      exact .nil
  | _, _, _, _, .declare first others => by
      simp only [List.map_append, Stmt.shiftedAll]
      exact .declare first.shifted others.shifted
  | _, _, _, _, .statement first others => by
      simp only [List.map_append, Stmt.shiftedAll]
      exact .statement first.shifted others.shifted

end

end Grammar

namespace Source

/-- The statements of a source. -/
def statements
    (source : List Char) :
    List Stmt :=
  (Program.ofTokens (Lexing.ofSource source).tokens).statements

/-- A source is clean when reading it finds no error. -/
structure IsClean
    (source : List Char) :
    Prop where
  lexical : (Lexing.ofSource source).errors = []
  grammatical : (Program.ofTokens (Lexing.ofSource source).tokens).errors = []

/-- The tokens of a clean source are a program without violations. -/
theorem IsClean.phrase
    {source : List Char}
    (clean : IsClean source) :
    BodyPhrase false (tokensBeforeEnd source) (statements source) [] := by
  have isLast : (Lexing.ofSource source).tokens.getLast? = some (endToken source) := by
    simp [tokens_ofSource]
  have phrase := bodyPhrase_of_errors_eq_nil isLast rfl clean.grammatical
  rwa [tokens_ofSource, beforeEnd_append (kind_tokensBeforeEnd source) rfl] at phrase

/-- A program without violations is what its source is read as. -/
theorem ofTokens_eq_of_phrase
    {source : List Char}
    {statements : List Stmt}
    (phrase : BodyPhrase false (tokensBeforeEnd source) statements []) :
    Program.ofTokens (Lexing.ofSource source).tokens = { statements, errors := [] } := by
  rw [tokens_ofSource]
  exact phrase.ofTokens_eq rfl []

/-- The statements of two clean sources with a line feed between them. -/
theorem IsClean.append_lineFeed
    {source following : List Char}
    (clean : IsClean source)
    (followingClean : IsClean following) :
    IsClean (source ++ '\n' :: following) ∧
      statements (source ++ '\n' :: following) =
        statements source ++
          Stmt.shiftedAll (lineFeeds source + 1) (statements following) := by
  obtain ⟨tokens, noErrors⟩ := lexing_append_lineFeed clean.lexical followingClean.lexical
  have joined :
      BodyPhrase false (tokensBeforeEnd (source ++ '\n' :: following))
        (statements source ++ Stmt.shiftedAll (lineFeeds source + 1) (statements following)) [] := by
    rw [tokens]
    exact clean.phrase.append followingClean.phrase.shifted
  have reads := ofTokens_eq_of_phrase joined
  refine ⟨⟨noErrors, ?_⟩, ?_⟩
  · rw [reads]
  · rw [statements, reads]

end Source

end BlockScript
