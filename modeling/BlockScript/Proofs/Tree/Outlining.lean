import BlockScript.Proofs.Grammar.Phrase
import BlockScript.Proofs.Reading.Making
import BlockScript.Proofs.Decimal.Printing
import BlockScript.Proofs.Tree.Outline

namespace BlockScript

open Lexical

/-!
# Trees are read back from their outlines

The outline of a tree keeps everything but the lines of its tokens.  Its words are read as
tokens again, and what a node stands for follows from its head and from how many parts it
has.  This needs a tree that was read off a source: a variable that could be called `nil`
would look like nothing.
-/

/-- A token without its line. -/
def Token.unplaced
    (token : Token) :
    Token :=
  { token with line := 0 }

/-- An expression without the lines of its tokens. -/
def Expr.unplaced : Expr → Expr
  | .assign name value => .assign name.unplaced value.unplaced
  | .binary token operator left right =>
      .binary token.unplaced operator left.unplaced right.unplaced
  | .group inner => .group inner.unplaced
  | .literal value => .literal value
  | .conditional condition thenValue elseValue =>
      .conditional condition.unplaced thenValue.unplaced elseValue.unplaced
  | .unary token operator operand => .unary token.unplaced operator operand.unplaced
  | .lookup name => .lookup name.unplaced

/-- The parts of the outline of an expression. -/
def Expr.toOutline : Expr → Outline
  | .assign name value => .node "=" [.word name.lexeme, value.toOutline]
  | .binary token _ left right => .node token.lexeme [left.toOutline, right.toOutline]
  | .group inner => .node "group" [inner.toOutline]
  | .literal (.string text) => .quoted text
  | .literal value => .word value.text
  | .conditional condition thenValue elseValue =>
      .node "?:" [condition.toOutline, thenValue.toOutline, elseValue.toOutline]
  | .unary token _ operand => .node token.lexeme [operand.toOutline]
  | .lookup name => .word name.lexeme

namespace Stmt

mutual

/-- A statement without the lines of its tokens. -/
def unplaced : Stmt → Stmt
  | .block body => .block (unplacedAll body)
  | .leave word => .leave word.unplaced
  | .expression value => .expression value.unplaced
  | .ifThen condition thenBranch => .ifThen condition.unplaced thenBranch.unplaced
  | .ifElse condition thenBranch elseBranch =>
      .ifElse condition.unplaced thenBranch.unplaced elseBranch.unplaced
  | .print value => .print value.unplaced
  | .declare name initial => .declare name.unplaced (initial.map Expr.unplaced)
  | .loop condition body => .loop condition.unplaced body.unplaced

/-- Statements without the lines of their tokens. -/
def unplacedAll : List Stmt → List Stmt
  | [] => []
  | first :: rest => first.unplaced :: unplacedAll rest

end

mutual

/-- The parts of the outline of a statement. -/
def toOutline : Stmt → Outline
  | .block body => .node "block" (toOutlineAll body)
  | .leave _ => .node "break" []
  | .expression value => .node ";" [value.toOutline]
  | .ifThen condition thenBranch => .node "if" [condition.toOutline, thenBranch.toOutline]
  | .ifElse condition thenBranch elseBranch =>
      .node "if" [condition.toOutline, thenBranch.toOutline, elseBranch.toOutline]
  | .print value => .node "print" [value.toOutline]
  | .declare name none => .node "var" [.word name.lexeme]
  | .declare name (some initial) => .node "var" [.word name.lexeme, initial.toOutline]
  | .loop condition body => .node "while" [condition.toOutline, body.toOutline]

/-- The parts of the outlines of statements. -/
def toOutlineAll : List Stmt → List Outline
  | [] => []
  | first :: rest => first.toOutline :: toOutlineAll rest

end

end Stmt

/-- An outline says nothing of lines. -/
theorem Expr.toOutline_unplaced
    (expr : Expr) :
    expr.unplaced.toOutline = expr.toOutline := by
  induction expr <;> simp [unplaced, toOutline, Token.unplaced, *]

namespace Stmt

mutual

/-- An outline says nothing of lines. -/
theorem toOutline_unplaced :
    (statement : Stmt) → statement.unplaced.toOutline = statement.toOutline
  | .block body => by
      rw [unplaced, toOutline, toOutline, toOutlineAll_unplacedAll body]
  | .leave word => rfl
  | .expression value => by
      rw [unplaced, toOutline, toOutline, value.toOutline_unplaced]
  | .ifThen condition thenBranch => by
      rw [unplaced, toOutline, toOutline, condition.toOutline_unplaced,
        toOutline_unplaced thenBranch]
  | .ifElse condition thenBranch elseBranch => by
      rw [unplaced, toOutline, toOutline, condition.toOutline_unplaced,
        toOutline_unplaced thenBranch, toOutline_unplaced elseBranch]
  | .print value => by
      rw [unplaced, toOutline, toOutline, value.toOutline_unplaced]
  | .declare name none => rfl
  | .declare name (some initial) => by
      rw [unplaced, Option.map_some, toOutline, toOutline, initial.toOutline_unplaced,
        Token.unplaced]
  | .loop condition body => by
      rw [unplaced, toOutline, toOutline, condition.toOutline_unplaced, toOutline_unplaced body]

/-- Outlines say nothing of lines. -/
theorem toOutlineAll_unplacedAll :
    (statements : List Stmt) → toOutlineAll (unplacedAll statements) = toOutlineAll statements
  | [] => rfl
  | first :: rest => by
      rw [unplacedAll, toOutlineAll, toOutlineAll, toOutline_unplaced first,
        toOutlineAll_unplacedAll rest]

end

end Stmt

/-- The outline of an expression is the text of its parts. -/
theorem Expr.toList_outline
    (expr : Expr) :
    expr.outline.toList = expr.toOutline.render := by
  induction expr with
  | literal value =>
      cases value <;> simp [outline, toOutline, Outline.render]
  | _ =>
      simp [outline, toOutline, Outline.render, Outline.renderAll, *]

namespace Stmt

mutual

/-- The outline of a statement is the text of its parts. -/
theorem toList_outline :
    (statement : Stmt) → statement.outline.toList = statement.toOutline.render
  | .block body => by
      simp [outline, toOutline, Outline.render, toList_outlineAll body]
  | .leave word => by
      simp [outline, toOutline, Outline.render, Outline.renderAll]
  | .expression value => by
      simp [outline, toOutline, Outline.render, Outline.renderAll, value.toList_outline]
  | .ifThen condition thenBranch => by
      simp [outline, toOutline, Outline.render, Outline.renderAll, condition.toList_outline,
        toList_outline thenBranch]
  | .ifElse condition thenBranch elseBranch => by
      simp [outline, toOutline, Outline.render, Outline.renderAll, condition.toList_outline,
        toList_outline thenBranch, toList_outline elseBranch]
  | .print value => by
      simp [outline, toOutline, Outline.render, Outline.renderAll, value.toList_outline]
  | .declare name none => by
      simp [outline, toOutline, Outline.render, Outline.renderAll]
  | .declare name (some initial) => by
      simp [outline, toOutline, Outline.render, Outline.renderAll, initial.toList_outline]
  | .loop condition body => by
      simp [outline, toOutline, Outline.render, Outline.renderAll, condition.toList_outline,
        toList_outline body]

/-- The outlines of the statements of a block are the text of their parts. -/
theorem toList_outlineAll :
    (statements : List Stmt) →
      (outlineAll statements).toList = Outline.renderAll (toOutlineAll statements)
  | [] => rfl
  | first :: rest => by
      simp [outlineAll, toOutlineAll, Outline.renderAll, toList_outline first,
        toList_outlineAll rest]

end

end Stmt

/-- The token that a text is read as, without its line. -/
def Token.ofText
    (text : String) :
    Token :=
  ((Lexing.ofSource text.toList).tokens.headD (Source.endToken [])).unplaced

namespace Outline

/-- The expression that a node with one part stands for: an operator or a group. -/
def ofOne
    (head : String)
    (operand : Expr) :
    Expr :=
  match Expr.applyUnary (.ofText head) operand with
  | .ok expr => expr
  | .error _ => .group operand

/-- The expression that a node with two parts stands for: an operator or an assignment. -/
def ofTwo
    (head : String)
    (left right : Expr) :
    Expr :=
  match Expr.applyBinary (.ofText head) left right with
  | .ok expr => expr
  | .error _ => (Frame.assign left (.ofText head)).fill right

/-- The expression that an outline stands for. -/
def toExpr : Outline → Expr
  | .word text => (Grammar.exprOfToken? (.ofText text)).getD (.literal .nil)
  | .quoted text => .literal (.string text)
  | .node head [operand] => ofOne head operand.toExpr
  | .node head [left, right] => ofTwo head left.toExpr right.toExpr
  | .node _ [condition, thenValue, elseValue] =>
      .conditional condition.toExpr thenValue.toExpr elseValue.toExpr
  | .node _ _ => .literal .nil

mutual

/-- The statement that an outline stands for. -/
def toStmt : Outline → Stmt
  | .node "block" parts => .block (toStmtAll parts)
  | .node "break" [] => .leave (.ofText "break")
  | .node ";" [value] => .expression value.toExpr
  | .node "if" [condition, thenBranch] => .ifThen condition.toExpr thenBranch.toStmt
  | .node "if" [condition, thenBranch, elseBranch] =>
      .ifElse condition.toExpr thenBranch.toStmt elseBranch.toStmt
  | .node "print" [value] => .print value.toExpr
  | .node "var" [.word name] => .declare (.ofText name) none
  | .node "var" [.word name, initial] => .declare (.ofText name) (some initial.toExpr)
  | .node "while" [condition, body] => .loop condition.toExpr body.toStmt
  | _ => .block []

/-- The statements that the parts of a block stand for. -/
def toStmtAll : List Outline → List Stmt
  | [] => []
  | part :: others => part.toStmt :: toStmtAll others

end

end Outline

/-- Whether the text of tokens of a kind may stand as a bare word. -/
def Kind.isBare : Kind → Bool
  | .mark .leftParen => false
  | .mark .rightParen => false
  | .string => false
  | .endOfInput => false
  | _ => true

/-- An operator before its operand is written as a bare word. -/
theorem UnaryOperator.isBare_of_ofKind?
    {kind : Kind}
    {operator : UnaryOperator}
    (signed : ofKind? kind = some operator) :
    kind.isBare = true := by
  unfold ofKind? at signed
  split at signed
  case h_3 => cases signed
  all_goals rfl

/-- An operator between two operands is written as a bare word. -/
theorem BinaryOperator.isBare_of_ofKind?
    {kind : Kind}
    {operator : BinaryOperator}
    (signed : ofKind? kind = some operator) :
    kind.isBare = true := by
  unfold ofKind? at signed
  split at signed
  case h_12 => cases signed
  all_goals rfl

namespace Lexical

/-- The text of a lexeme is read as a token of its kind with its value. -/
theorem ofText_of_isLexeme
    {kind : Kind}
    {text : String}
    {value : Value}
    (isLexeme : IsLexeme kind text.toList)
    (valued : Literal.ofLexeme kind text = .ok value) :
    Token.ofText text = { kind, lexeme := text, literal := value, line := 0 } := by
  let lexeme : Lexeme := ⟨kind, text.toList, isLexeme⟩
  have ownValue : Literal.ofLexeme lexeme.kind (String.ofList lexeme.text) = .ok value := by
    rwa [String.ofList_toList]
  have contents := (lexeme.reads ownValue).2
  rw [String.ofList_toList] at contents
  obtain ⟨token, others, isFirst, isContent, _⟩ := List.map_eq_cons_iff.mp contents
  cases isContent
  rw [Token.ofText, isFirst]
  rfl

/-- A token of some source. -/
def IsRead
    (token : Token) :
    Prop :=
  ∃ source, token ∈ (Lexing.ofSource source).tokens

/-- A character that bare words lack is no part of a name or a number. -/
theorem isPlain_of_isNamePart
    {c : Char}
    (isPart : isNamePart c = true ∨ c = '.') :
    isPlain c = true := by
  by_contra notPlain
  simp only [isPlain, Bool.not_eq_true', Bool.not_eq_false, List.contains_eq_mem,
    decide_eq_true_eq, List.mem_cons, List.not_mem_nil, or_false] at notPlain
  rcases notPlain with rfl | rfl | rfl | rfl <;> revert isPart <;> decide

/-- Digits may stand in a bare word. -/
theorem IsDigits.isPlain
    {digits : List Char}
    (isDigits : IsDigits digits) :
    ∀ c ∈ digits, isPlain c = true := by
  intro c isIn
  refine isPlain_of_isNamePart (.inl ?_)
  simp [isNamePart, isDigits.2 c isIn]

/-- A name may stand as a bare word. -/
theorem isPlain_of_isName
    {first : Char}
    {others : List Char}
    (starts : isNameStart first = true)
    (goesOn : ∀ c ∈ others, isNamePart c = true) :
    ∀ c ∈ first :: others, isPlain c = true := by
  rw [List.forall_mem_cons]
  exact ⟨isPlain_of_isNamePart (.inl (by simp [isNamePart, starts])),
    fun c isIn => isPlain_of_isNamePart (.inl (goesOn c isIn))⟩

/-- Marks other than parentheses may stand as bare words. -/
theorem isPlain_of_mem_spelling
    {sign : Mark}
    (isBare : (Kind.mark sign).isBare = true) :
    sign.spelling.toList ≠ [] ∧ ∀ c ∈ sign.spelling.toList, isPlain c = true := by
  cases sign <;> simp_all [Mark.spelling, isPlain, Kind.isBare]

/-- Lexemes of such a kind may stand as bare words. -/
theorem isWord_of_isLexeme
    {kind : Kind}
    {text : String}
    (isLexeme : IsLexeme kind text.toList)
    (isBare : kind.isBare = true) :
    IsWord text := by
  unfold IsWord
  generalize text.toList = characters at isLexeme
  cases isLexeme with
  | mark sign => exact isPlain_of_mem_spelling isBare
  | reservedWord word =>
      obtain ⟨first, others, spelled, starts, goesOn⟩ := exists_spelling word
      rw [spelled]
      exact ⟨List.cons_ne_nil first others, isPlain_of_isName starts goesOn⟩
  | identifier starts goesOn _ => exact ⟨List.cons_ne_nil _ _, isPlain_of_isName starts goesOn⟩
  | string _ => cases isBare
  | wholeNumber whole _ => exact ⟨whole.1, whole.isPlain⟩
  | fractionalNumber whole part _ =>
      refine ⟨by simp, ?_⟩
      rw [List.forall_mem_append, List.forall_mem_cons]
      exact ⟨whole.isPlain, isPlain_of_isNamePart (.inr rfl), part.isPlain⟩

end Lexical

end BlockScript
