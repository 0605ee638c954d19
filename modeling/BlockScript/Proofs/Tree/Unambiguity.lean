import BlockScript.Proofs.Tree.Outlining

namespace BlockScript

open Lexical

/-!
# Outlines are unambiguous

A tree that was read off a source is made of tokens of the source, errors or not.  Its
outline is then legible, and reading the outline gives the tree back, apart from the lines
of its tokens.  Two such trees with the same outline are therefore the same tree, however
deep they are and whatever their texts hold.
-/

namespace Lexical.IsRead

variable {token : Token}

/-- A token of a source has a lexeme as its text, unless it is the end. -/
theorem isLexeme
    (isRead : IsRead token)
    (isBare : token.kind.isBare = true) :
    IsLexeme token.kind token.lexeme.toList := by
  obtain ⟨source, isToken⟩ := isRead
  refine isLexeme_of_mem_tokens isToken ?_
  intro isEnd
  rw [isEnd] at isBare
  cases isBare

/-- The text of a token of a source may stand as a bare word. -/
theorem isWord
    (isRead : IsRead token)
    (isBare : token.kind.isBare = true) :
    IsWord token.lexeme :=
  isWord_of_isLexeme (isRead.isLexeme isBare) isBare

/-- A token of a source is read back from its text. -/
theorem ofText
    (isRead : IsRead token)
    (isBare : token.kind.isBare = true) :
    Token.ofText token.lexeme = token.unplaced := by
  have isLexeme := isRead.isLexeme isBare
  obtain ⟨source, isToken⟩ := isRead
  exact ofText_of_isLexeme isLexeme (ofLexeme_of_mem_tokens isToken)

/-- A reserved word of a source has its spelling as its text. -/
theorem lexeme_eq_spelling
    {word : Keyword}
    (isRead : IsRead token)
    (isWord : token.kind = .keyword word) :
    token.lexeme = word.spelling := by
  have isLexeme := isRead.isLexeme (by rw [isWord]; rfl)
  rw [isWord] at isLexeme
  generalize isText : token.lexeme.toList = text at isLexeme
  cases isLexeme
  exact String.toList_inj.mp isText

/-- A number of a source has a finite magnitude and no sign. -/
theorem exists_magnitude
    (isRead : IsRead token)
    (isNumber : token.kind = .number) :
    ∃ bits < Double.infinityBits, token.literal = .number (Double.ofMagnitudeBits bits) := by
  obtain ⟨source, isToken⟩ := isRead
  have valued := ofLexeme_of_mem_tokens isToken
  rw [isNumber] at valued
  obtain ⟨read, number, _, rounded, isValue⟩ := exists_denotes_of_ofLexeme valued
  rw [Decimal.toFloat?] at rounded
  split at rounded
  · rename_i finite
    cases rounded
    exact ⟨_, finite, isValue⟩
  · cases rounded

/-- A string of a source carries a text. -/
theorem exists_text
    (isRead : IsRead token)
    (isString : token.kind = .string) :
    ∃ text, token.literal = .string text := by
  obtain ⟨source, isToken⟩ := isRead
  have isLexeme := isLexeme_of_mem_tokens isToken (by simp [isString])
  have valued := ofLexeme_of_mem_tokens isToken
  rw [isString] at isLexeme valued
  have value := isLexeme.ofLexeme_string
  rw [String.ofList_toList, valued] at value
  exact ⟨_, Except.ok.inj value⟩

end Lexical.IsRead

namespace Outline

variable {token : Token}

/-- A node with one part and the text of an operator stands for the operator. -/
theorem ofOne_lexeme
    {operator : UnaryOperator}
    (isRead : IsRead token)
    (signed : UnaryOperator.ofKind? token.kind = some operator)
    (operand : Expr) :
    ofOne token.lexeme operand = .unary token.unplaced operator operand := by
  have known : UnaryOperator.ofKind? token.unplaced.kind = some operator := signed
  rw [ofOne, isRead.ofText (UnaryOperator.isBare_of_ofKind? signed),
    Expr.applyUnary, known]

/-- A node with two parts and the text of an operator stands for the operator. -/
theorem ofTwo_lexeme
    {operator : BinaryOperator}
    (isRead : IsRead token)
    (signed : BinaryOperator.ofKind? token.kind = some operator)
    (left right : Expr) :
    ofTwo token.lexeme left right = .binary token.unplaced operator left right := by
  have known : BinaryOperator.ofKind? token.unplaced.kind = some operator := signed
  rw [ofTwo, isRead.ofText (BinaryOperator.isBare_of_ofKind? signed),
    Expr.applyBinary, known]

/-- The head of a group is no operator. -/
theorem ofOne_group
    (operand : Expr) :
    ofOne "group" operand = .group operand := by
  have isName : UnaryOperator.ofKind? (Token.ofText "group").kind = none := by decide +kernel
  rw [ofOne, Expr.applyUnary, isName]

/-- The head of an assignment is no operator. -/
theorem ofTwo_equal
    (name : Token)
    (value : Expr) :
    ofTwo "=" (.lookup name) value = .assign name value := by
  have isEqual : BinaryOperator.ofKind? (Token.ofText "=").kind = none := by decide +kernel
  rw [ofTwo, Expr.applyBinary, isEqual]
  rfl

/-- The text of a name stands for the variable. -/
theorem toExpr_name
    (isRead : IsRead token)
    (isName : token.kind = .identifier) :
    (Outline.word token.lexeme).toExpr = .lookup token.unplaced := by
  have known : token.unplaced.kind = .identifier := isName
  rw [toExpr, isRead.ofText (by rw [isName]; rfl), Grammar.exprOfToken?, known]
  rfl

end Outline

/-- An expression that was read off a source is read back from its outline. -/
theorem Expr.MadeOf.toExpr_toOutline
    {expr : Expr}
    (made : expr.MadeOf IsRead) :
    expr.toOutline.toExpr = expr.unplaced := by
  induction made with
  | assign isRead isName _ inductionHypothesis =>
      rw [toOutline, Outline.toExpr, Outline.toExpr_name isRead isName, inductionHypothesis,
        Outline.ofTwo_equal, unplaced]
  | binary isRead signed _ _ leftHypothesis rightHypothesis =>
      rw [toOutline, Outline.toExpr, Outline.ofTwo_lexeme isRead signed, leftHypothesis,
        rightHypothesis, unplaced]
  | group _ inductionHypothesis =>
      rw [toOutline, Outline.toExpr, Outline.ofOne_group, inductionHypothesis, unplaced]
  | nothing => decide +kernel
  | truth value => cases value <;> decide +kernel
  | literal isRead valued =>
      rcases valued with isNumber | isString
      · obtain ⟨bits, finite, isValue⟩ := isRead.exists_magnitude isNumber
        obtain ⟨isLexeme, valued⟩ := Numeral.isLexeme_text finite
        rw [isValue, toOutline, Outline.toExpr, ofText_of_isLexeme isLexeme valued]
        · rfl
        · simp
      · obtain ⟨text, isValue⟩ := isRead.exists_text isString
        rw [isValue]
        rfl
  | conditional _ _ _ conditionHypothesis thenHypothesis elseHypothesis =>
      simp only [toOutline, Outline.toExpr, unplaced, conditionHypothesis, thenHypothesis,
        elseHypothesis]
  | unary isRead signed _ inductionHypothesis =>
      rw [toOutline, Outline.toExpr, Outline.ofOne_lexeme isRead signed, inductionHypothesis,
        unplaced]
  | lookup isRead isName => exact Outline.toExpr_name isRead isName

/-- The outline of an expression that was read off a source is legible. -/
theorem Expr.MadeOf.legible
    {expr : Expr}
    (made : expr.MadeOf IsRead) :
    expr.toOutline.Legible := by
  induction made with
  | assign isRead isName _ inductionHypothesis =>
      refine .node (by decide +kernel) ?_
      simpa using ⟨.word (isRead.isWord (by rw [isName]; rfl)), inductionHypothesis⟩
  | binary isRead signed _ _ leftHypothesis rightHypothesis =>
      refine .node (isRead.isWord (BinaryOperator.isBare_of_ofKind? signed)) ?_
      simpa using ⟨leftHypothesis, rightHypothesis⟩
  | group _ inductionHypothesis =>
      exact .node (by decide +kernel) (by simpa using inductionHypothesis)
  | nothing => exact .word (by decide +kernel)
  | truth value => cases value <;> exact .word (by decide +kernel)
  | literal isRead valued =>
      rcases valued with isNumber | isString
      · obtain ⟨bits, finite, isValue⟩ := isRead.exists_magnitude isNumber
        rw [isValue]
        exact .word (isWord_of_isLexeme (Numeral.isLexeme_text finite).1 rfl)
      · obtain ⟨text, isValue⟩ := isRead.exists_text isString
        rw [isValue]
        exact .quoted text
  | conditional _ _ _ conditionHypothesis thenHypothesis elseHypothesis =>
      refine .node (by decide +kernel) ?_
      simpa using ⟨conditionHypothesis, thenHypothesis, elseHypothesis⟩
  | unary isRead signed _ inductionHypothesis =>
      refine .node (isRead.isWord (UnaryOperator.isBare_of_ofKind? signed)) ?_
      simpa using inductionHypothesis
  | lookup isRead isName => exact .word (isRead.isWord (by rw [isName]; rfl))

/-- Expressions that were read off sources have the same outline exactly when they are the same. -/
theorem Expr.MadeOf.outline_eq_iff
    {expr other : Expr}
    (made : expr.MadeOf IsRead)
    (otherMade : other.MadeOf IsRead) :
    expr.outline = other.outline ↔ expr.unplaced = other.unplaced := by
  rw [← String.toList_inj, toList_outline, toList_outline]
  constructor
  · intro same
    rw [← made.toExpr_toOutline, ← otherMade.toExpr_toOutline,
      made.legible.render_inj otherMade.legible same]
  · intro same
    rw [← toOutline_unplaced expr, same, toOutline_unplaced]

namespace Stmt

/-- The outlines of statements, one after the other. -/
theorem toStmtAll_toOutlineAll
    {statements : List Stmt}
    (readsBack : ∀ statement ∈ statements, statement.toOutline.toStmt = statement.unplaced) :
    Outline.toStmtAll (toOutlineAll statements) = unplacedAll statements := by
  induction statements with
  | nil =>
      rfl
  | cons first rest inductionHypothesis =>
      rw [List.forall_mem_cons] at readsBack
      rw [toOutlineAll, Outline.toStmtAll, unplacedAll, readsBack.1,
        inductionHypothesis readsBack.2]

/-- The outlines of statements are legible when those of each are. -/
theorem legible_toOutlineAll
    {statements : List Stmt}
    (legible : ∀ statement ∈ statements, statement.toOutline.Legible) :
    ∀ part ∈ toOutlineAll statements, part.Legible := by
  induction statements with
  | nil =>
      nofun
  | cons first rest inductionHypothesis =>
      rw [List.forall_mem_cons] at legible
      rw [toOutlineAll, List.forall_mem_cons]
      exact ⟨legible.1, inductionHypothesis legible.2⟩

/-- A statement that was read off a source is read back from its outline. -/
theorem MadeOf.toStmt_toOutline
    {statement : Stmt}
    (made : statement.MadeOf IsRead) :
    statement.toOutline.toStmt = statement.unplaced := by
  induction made with
  | block _ inductionHypothesis =>
      rw [toOutline, Outline.toStmt, toStmtAll_toOutlineAll inductionHypothesis, unplaced]
  | leave isRead isWord =>
      have spelled := isRead.lexeme_eq_spelling isWord
      have named := isRead.ofText (by rw [isWord]; rfl)
      rw [spelled, Keyword.spelling] at named
      rw [toOutline, Outline.toStmt, named, unplaced]
  | expression valueMade =>
      rw [toOutline, Outline.toStmt, valueMade.toExpr_toOutline, unplaced]
  | ifThen conditionMade _ inductionHypothesis =>
      rw [toOutline, Outline.toStmt, conditionMade.toExpr_toOutline, inductionHypothesis, unplaced]
  | ifElse conditionMade _ _ thenHypothesis elseHypothesis =>
      rw [toOutline, Outline.toStmt, conditionMade.toExpr_toOutline, thenHypothesis,
        elseHypothesis, unplaced]
  | print valueMade =>
      rw [toOutline, Outline.toStmt, valueMade.toExpr_toOutline, unplaced]
  | @declare name initial isRead isName initialMade =>
      have named := isRead.ofText (by rw [isName]; rfl)
      cases initial with
      | none => rw [toOutline, Outline.toStmt, named, unplaced, Option.map_none]
      | some value =>
          rw [toOutline, Outline.toStmt, named, (initialMade value rfl).toExpr_toOutline, unplaced,
            Option.map_some]
  | loop conditionMade _ inductionHypothesis =>
      rw [toOutline, Outline.toStmt, conditionMade.toExpr_toOutline, inductionHypothesis, unplaced]

/-- The outline of a statement that was read off a source is legible. -/
theorem MadeOf.legible
    {statement : Stmt}
    (made : statement.MadeOf IsRead) :
    statement.toOutline.Legible := by
  induction made with
  | block _ inductionHypothesis =>
      exact .node (by decide +kernel) (legible_toOutlineAll inductionHypothesis)
  | leave _ _ => exact .node (by decide +kernel) nofun
  | expression valueMade => exact .node (by decide +kernel) (by simpa using valueMade.legible)
  | ifThen conditionMade _ inductionHypothesis =>
      refine .node (by decide +kernel) ?_
      simpa using ⟨conditionMade.legible, inductionHypothesis⟩
  | ifElse conditionMade _ _ thenHypothesis elseHypothesis =>
      refine .node (by decide +kernel) ?_
      simpa using ⟨conditionMade.legible, thenHypothesis, elseHypothesis⟩
  | print valueMade => exact .node (by decide +kernel) (by simpa using valueMade.legible)
  | @declare name initial isRead isName initialMade =>
      have named : (Outline.word name.lexeme).Legible := .word (isRead.isWord (by rw [isName]; rfl))
      cases initial with
      | none => exact .node (by decide +kernel) (by simpa using named)
      | some value =>
          refine .node (by decide +kernel) ?_
          simpa using ⟨named, (initialMade value rfl).legible⟩
  | loop conditionMade _ inductionHypothesis =>
      refine .node (by decide +kernel) ?_
      simpa using ⟨conditionMade.legible, inductionHypothesis⟩

/-- Statements that were read off sources have the same outline exactly when they are the same. -/
theorem MadeOf.outline_eq_iff
    {statement other : Stmt}
    (made : statement.MadeOf IsRead)
    (otherMade : other.MadeOf IsRead) :
    statement.outline = other.outline ↔ statement.unplaced = other.unplaced := by
  rw [← String.toList_inj, toList_outline, toList_outline]
  constructor
  · intro same
    rw [← made.toStmt_toOutline, ← otherMade.toStmt_toOutline,
      made.legible.render_inj otherMade.legible same]
  · intro same
    rw [← toOutline_unplaced statement, same, toOutline_unplaced]

end Stmt

/-- An expression with all the expressions inside it. -/
def Expr.expressions : Expr → List Expr
  | .assign name value => .assign name value :: value.expressions
  | .binary token operator left right =>
      .binary token operator left right :: (left.expressions ++ right.expressions)
  | .group inner => .group inner :: inner.expressions
  | .literal value => [.literal value]
  | .conditional condition thenValue elseValue =>
      .conditional condition thenValue elseValue ::
        (condition.expressions ++ thenValue.expressions ++ elseValue.expressions)
  | .unary token operator operand => .unary token operator operand :: operand.expressions
  | .lookup name => [.lookup name]

namespace Stmt

mutual

/-- All the expressions inside a statement. -/
def expressions : Stmt → List Expr
  | .block body => expressionsAll body
  | .leave _ => []
  | .expression value => value.expressions
  | .ifThen condition thenBranch => condition.expressions ++ thenBranch.expressions
  | .ifElse condition thenBranch elseBranch =>
      condition.expressions ++ thenBranch.expressions ++ elseBranch.expressions
  | .print value => value.expressions
  | .declare _ none => []
  | .declare _ (some initial) => initial.expressions
  | .loop condition body => condition.expressions ++ body.expressions

/-- All the expressions inside statements. -/
def expressionsAll : List Stmt → List Expr
  | [] => []
  | first :: rest => first.expressions ++ expressionsAll rest

end

end Stmt

section Parts

variable {allowed : Token → Prop}

/-- What is inside an expression is made of what the expression is made of. -/
theorem Expr.MadeOf.expressions
    {expr : Expr}
    (made : expr.MadeOf allowed) :
    ∀ inner ∈ expr.expressions, inner.MadeOf allowed := by
  induction made with
  | assign allows isName valueMade inductionHypothesis =>
      exact List.forall_mem_cons.mpr ⟨.assign allows isName valueMade, inductionHypothesis⟩
  | binary allows signed leftMade rightMade leftHypothesis rightHypothesis =>
      rw [Expr.expressions, List.forall_mem_cons, List.forall_mem_append]
      exact ⟨.binary allows signed leftMade rightMade, leftHypothesis, rightHypothesis⟩
  | group innerMade inductionHypothesis =>
      exact List.forall_mem_cons.mpr ⟨.group innerMade, inductionHypothesis⟩
  | nothing => exact List.forall_mem_singleton.mpr .nothing
  | truth value => exact List.forall_mem_singleton.mpr (.truth value)
  | literal allows valued => exact List.forall_mem_singleton.mpr (.literal allows valued)
  | conditional conditionMade thenMade elseMade conditionHypothesis thenHypothesis
      elseHypothesis =>
      rw [Expr.expressions, List.forall_mem_cons, List.forall_mem_append, List.forall_mem_append]
      exact ⟨.conditional conditionMade thenMade elseMade,
        ⟨conditionHypothesis, thenHypothesis⟩, elseHypothesis⟩
  | unary allows signed operandMade inductionHypothesis =>
      exact List.forall_mem_cons.mpr ⟨.unary allows signed operandMade, inductionHypothesis⟩
  | lookup allows isName => exact List.forall_mem_singleton.mpr (.lookup allows isName)

/-- What is inside statements is made of what each of them is made of. -/
theorem Stmt.madeOf_expressionsAll
    {statements : List Stmt}
    (made : ∀ statement ∈ statements, ∀ expr ∈ statement.expressions, expr.MadeOf allowed) :
    ∀ expr ∈ expressionsAll statements, expr.MadeOf allowed := by
  induction statements with
  | nil =>
      nofun
  | cons first rest inductionHypothesis =>
      rw [List.forall_mem_cons] at made
      rw [expressionsAll, List.forall_mem_append]
      exact ⟨made.1, inductionHypothesis made.2⟩

/-- The expressions inside a statement are made of what the statement is made of. -/
theorem Stmt.MadeOf.expressions
    {statement : Stmt}
    (made : statement.MadeOf allowed) :
    ∀ expr ∈ statement.expressions, expr.MadeOf allowed := by
  induction made with
  | block _ inductionHypothesis =>
      rw [Stmt.expressions]
      exact Stmt.madeOf_expressionsAll inductionHypothesis
  | leave _ _ =>
      rw [Stmt.expressions]
      nofun
  | expression valueMade => exact valueMade.expressions
  | ifThen conditionMade _ inductionHypothesis =>
      rw [Stmt.expressions, List.forall_mem_append]
      exact ⟨conditionMade.expressions, inductionHypothesis⟩
  | ifElse conditionMade _ _ thenHypothesis elseHypothesis =>
      rw [Stmt.expressions, List.forall_mem_append, List.forall_mem_append]
      exact ⟨⟨conditionMade.expressions, thenHypothesis⟩, elseHypothesis⟩
  | print valueMade => exact valueMade.expressions
  | @declare name initial _ _ initialMade =>
      cases initial with
      | none =>
          rw [Stmt.expressions]
          nofun
      | some value => exact (initialMade value rfl).expressions
  | loop conditionMade _ inductionHypothesis =>
      rw [Stmt.expressions, List.forall_mem_append]
      exact ⟨conditionMade.expressions, inductionHypothesis⟩

end Parts

/-- The statements of a source are made of tokens of a source. -/
theorem Program.madeOf_ofSource
    (source : List Char) :
    ∀ statement ∈ (ofTokens (Lexing.ofSource source).tokens).statements,
      statement.MadeOf IsRead :=
  madeOf_ofTokens fun _ isToken => ⟨source, isToken⟩

/--
Outlines are unambiguous.  Of the statements that are read off any two sources, errors or
not, and of the expressions inside them, two have the same outline exactly when they are the
same tree apart from the lines of its tokens.
-/
theorem Program.outlines_unambiguous
    (source other : List Char) :
    let statements := (ofTokens (Lexing.ofSource source).tokens).statements
    let others := (ofTokens (Lexing.ofSource other).tokens).statements
    (∀ a ∈ statements, ∀ b ∈ others, a.outline = b.outline ↔ a.unplaced = b.unplaced) ∧
      ∀ a ∈ statements.flatMap Stmt.expressions, ∀ b ∈ others.flatMap Stmt.expressions,
        a.outline = b.outline ↔ a.unplaced = b.unplaced := by
  have made := madeOf_ofSource source
  have otherMade := madeOf_ofSource other
  refine ⟨fun a isStatement b isOther => ?_, fun a isInside b isOther => ?_⟩
  · exact (made a isStatement).outline_eq_iff (otherMade b isOther)
  · obtain ⟨statement, isStatement, isPart⟩ := List.mem_flatMap.mp isInside
    obtain ⟨another, isAnother, isOtherPart⟩ := List.mem_flatMap.mp isOther
    exact ((made statement isStatement).expressions a isPart).outline_eq_iff
      ((otherMade another isAnother).expressions b isOtherPart)

/-- A token without a value on the given line. -/
def valueless
    (line : Int)
    (kind : Kind)
    (lexeme : String) :
    Token :=
  { kind, lexeme, literal := .nil, line }

/-- The tokens of `a = -1;` on the given line, with the end behind them. -/
def assignNegativeTokens
    (line : Int) :
    List Token :=
  [valueless line .identifier "a", valueless line (.mark .equal) "=",
    valueless line (.mark .minus) "-",
    { kind := .number
      lexeme := "1"
      literal := .number (Double.ofMagnitudeBits 0x3FF0000000000000)
      line },
    valueless line (.mark .semicolon) ";", valueless line .endOfInput ""]

/-- The statement `a = -1;` on the given line. -/
def assignNegative
    (line : Int) :
    Stmt :=
  .expression
    (.assign (valueless line .identifier "a")
      (.unary (valueless line (.mark .minus) "-") .negate
        (.literal (.number (Double.ofMagnitudeBits 0x3FF0000000000000)))))

/-- A statement and the same one further down have one outline and are one tree but for lines. -/
theorem Program.outlines_unambiguous_furtherDown :
    assignNegative 1 ∈ (ofTokens (Lexing.ofSource "a=-1;".toList).tokens).statements ∧
      assignNegative 2 ∈ (ofTokens (Lexing.ofSource "\na = - 1;".toList).tokens).statements ∧
        (assignNegative 1).outline = "(; (= a (- 1)))" ∧
          (assignNegative 2).outline = "(; (= a (- 1)))" ∧
            (assignNegative 1).unplaced = (assignNegative 2).unplaced := by
  have isRead : ∀ line, assignNegative line ∈ (ofTokens (assignNegativeTokens line)).statements :=
    fun line => List.mem_singleton_self _
  have isFirst := isRead 1
  have isSecond := isRead 2
  have first : (Lexing.ofSource "a=-1;".toList).tokens = assignNegativeTokens 1 := by
    decide +kernel
  have second : (Lexing.ofSource "\na = - 1;".toList).tokens = assignNegativeTokens 2 := by
    decide +kernel
  rw [← first] at isFirst
  rw [← second] at isSecond
  have outline : (assignNegative 1).outline = "(; (= a (- 1)))" := by decide +kernel
  have otherOutline : (assignNegative 2).outline = "(; (= a (- 1)))" := by decide +kernel
  refine ⟨isFirst, isSecond, outline, otherOutline, ?_⟩
  exact ((outlines_unambiguous _ _).1 _ isFirst _ isSecond).mp (outline.trans otherOutline.symm)

end BlockScript
