import BlockScript.Proofs.Grammar.Phrase

namespace BlockScript.Grammar

/-!
# Derivations and phrases agree

A list of tokens is derived by a nonterminal exactly when it is a phrase of that
kind, and the derivation is checked exactly when the phrase violates no side
condition.  Each direction is one induction over the rules.
-/

/-- A checked derivation allows no violation of a side condition. -/
def Keeps
    (checked : Bool)
    (errors : List GrammarError) :
    Prop :=
  checked = true → errors = []

namespace Keeps

/-- A part without a violation keeps the side conditions. -/
theorem nil
    {checked : Bool} :
    Keeps checked [] :=
  fun _ => rfl

/-- Two parts keep the side conditions exactly when each does. -/
theorem append_iff
    {checked : Bool}
    {first second : List GrammarError} :
    Keeps checked (first ++ second) ↔ Keeps checked first ∧ Keeps checked second := by
  unfold Keeps
  constructor
  · intro both
    exact ⟨fun isChecked => (List.append_eq_nil_iff.mp (both isChecked)).1,
      fun isChecked => (List.append_eq_nil_iff.mp (both isChecked)).2⟩
  · rintro ⟨keepsFirst, keepsSecond⟩ isChecked
    rw [keepsFirst isChecked, keepsSecond isChecked, List.append_nil]

end Keeps

/-- A sign stands between operands of a level exactly when its operator has that level. -/
theorem mem_signs_iff
    {level : Level}
    {sign : Mark} :
    sign ∈ signs level ↔
      ∃ operator, BinaryOperator.ofKind? (.mark sign) = some operator ∧ operator.level = level := by
  cases level <;> cases sign <;> simp [signs, BinaryOperator.ofKind?, BinaryOperator.level]

/-- Every binary operator is written with a sign of its level. -/
theorem exists_sign_of_binary
    {kind : Kind}
    {operator : BinaryOperator}
    (signed : BinaryOperator.ofKind? kind = some operator) :
    ∃ sign, kind = .mark sign ∧ sign ∈ signs operator.level := by
  cases kind with
  | mark sign => exact ⟨sign, rfl, mem_signs_iff.mpr ⟨operator, signed, rfl⟩⟩
  | _ => simp [BinaryOperator.ofKind?] at signed

/-- The signs before an operand are those of the unary operators. -/
theorem exists_unary_iff
    {kind : Kind} :
    (∃ operator, UnaryOperator.ofKind? kind = some operator) ↔
      ∃ sign ∈ [Mark.bang, Mark.minus], kind = .mark sign := by
  constructor
  · rintro ⟨operator, signed⟩
    unfold UnaryOperator.ofKind? at signed
    split at signed <;> simp_all
  · rintro ⟨sign, listed, rfl⟩
    simp only [List.mem_cons, List.not_mem_nil, or_false] at listed
    rcases listed with rfl | rfl
    · exact ⟨.not, rfl⟩
    · exact ⟨.negate, rfl⟩

/-- The tokens that are an expression on their own are those of the listed kinds. -/
theorem exists_exprOfToken?_iff
    {token : Token} :
    (∃ expr, exprOfToken? token = some expr) ↔ token.kind ∈ atoms := by
  unfold exprOfToken? atoms
  split <;> simp_all

/-- What a nonterminal derives, as a phrase that keeps the side conditions if checked. -/
def Stands
    (checked : Bool) :
    Nonterminal → List Token → Prop
  | .program, tokens =>
      ∃ statements errors, BodyPhrase false tokens statements errors ∧ Keeps checked errors
  | .declarations inLoop, tokens =>
      ∃ statements errors, BodyPhrase inLoop tokens statements errors ∧ Keeps checked errors
  | .declaration inLoop, tokens =>
      ∃ statement errors, BodyPhrase inLoop tokens [statement] errors ∧ Keeps checked errors
  | .varDeclaration, tokens =>
      ∃ statement errors, VariablePhrase tokens statement errors ∧ Keeps checked errors
  | .statement inLoop ending, tokens
  | .forStatement inLoop ending, tokens
  | .ifStatement inLoop ending, tokens
  | .whileStatement inLoop ending, tokens =>
      ∃ statement errors,
        StatementPhrase inLoop ending tokens statement errors ∧ Keeps checked errors
  | .block inLoop, tokens
  | .breakStatement inLoop, tokens =>
      ∃ statement errors,
        StatementPhrase inLoop .closed tokens statement errors ∧ Keeps checked errors
  | .printStatement, tokens =>
      ∀ inLoop, ∃ statement errors,
        StatementPhrase inLoop .closed tokens statement errors ∧ Keeps checked errors
  | .expressionStatement, tokens =>
      ∃ before semicolon expr errors,
        tokens = before ++ [semicolon] ∧ semicolon.kind = .mark .semicolon ∧
          ExprPhrase .comma before expr errors ∧ Keeps checked errors
  | .forInitial, tokens =>
      ∃ statement errors, InitialPhrase tokens statement errors ∧ Keeps checked errors
  | .optionalExpression, tokens =>
      ∃ expr errors, OptionalPhrase tokens expr errors ∧ Keeps checked errors
  | .expression, tokens =>
      ∃ expr errors, ExprPhrase .comma tokens expr errors ∧ Keeps checked errors
  | .operation level, tokens =>
      ∃ expr errors, ExprPhrase level tokens expr errors ∧ Keeps checked errors
  | .primary, tokens =>
      ∃ expr errors, ExprPhrase .unary tokens expr errors ∧ Keeps checked errors

/-- What a nonterminal derives is a phrase of its kind. -/
theorem Derives.stands
    {checked : Bool}
    {nonterminal : Nonterminal}
    {tokens : List Token}
    (derivation : Derives checked nonterminal tokens) :
    Stands checked nonterminal tokens := by
  induction derivation with
  | program _ parts =>
      exact parts
  | noDeclarations =>
      exact ⟨[], [], .nil, .nil⟩
  | moreDeclarations _ _ earlier final =>
      obtain ⟨statements, errors, body, keeps⟩ := earlier
      obtain ⟨statement, lastErrors, last, keepsLast⟩ := final
      exact ⟨_, _, body.append last, Keeps.append_iff.mpr ⟨keeps, keepsLast⟩⟩
  | variableDeclaration _ declares =>
      obtain ⟨statement, errors, phrase, keeps⟩ := declares
      exact ⟨statement, errors, by simpa using BodyPhrase.declare phrase .nil, keeps⟩
  | statementDeclaration _ statement =>
      obtain ⟨statement, errors, phrase, keeps⟩ := statement
      exact ⟨statement, errors, by simpa using BodyPhrase.statement phrase .nil, keeps⟩
  | bareVariable begins named ends =>
      exact ⟨_, _, .bare begins named ends, .nil⟩
  | initializedVariable begins named assigns _ ends value =>
      obtain ⟨expr, errors, phrase, keeps⟩ := value
      exact ⟨_, errors, .initialized begins named assigns phrase ends, keeps⟩
  | blockIsStatement _ block =>
      exact block
  | breakIsStatement _ leaves =>
      exact leaves
  | expressionIsStatement _ expression =>
      obtain ⟨before, semicolon, expr, errors, rfl, ends, phrase, keeps⟩ := expression
      exact ⟨_, errors, .expression phrase ends, keeps⟩
  | forIsStatement _ counts =>
      exact counts
  | ifIsStatement _ chooses =>
      exact chooses
  | printIsStatement _ prints =>
      exact prints _
  | whileIsStatement _ repeats =>
      exact repeats
  | block opens _ closes parts =>
      obtain ⟨statements, errors, body, keeps⟩ := parts
      exact ⟨_, errors, .block opens body closes, keeps⟩
  | breakStatement begins ends inBody =>
      refine ⟨_, _, .leave begins ends, fun isChecked => ?_⟩
      rw [inBody isChecked]
      rfl
  | expressionStatement _ ends value =>
      obtain ⟨expr, errors, phrase, keeps⟩ := value
      exact ⟨_, _, expr, errors, rfl, ends, phrase, keeps⟩
  | forStatement begins opens _ _ separates _ closes _ first second third repeated =>
      obtain ⟨_, _, initial, keepsInitial⟩ := first
      obtain ⟨_, _, condition, keepsCondition⟩ := second
      obtain ⟨_, _, step, keepsStep⟩ := third
      obtain ⟨_, _, body, keepsBody⟩ := repeated
      refine ⟨_, _, .forLoop begins opens initial condition separates step closes body, ?_⟩
      simp only [Keeps.append_iff]
      exact ⟨keepsInitial, keepsCondition, keepsStep, keepsBody⟩
  | noInitial ends =>
      exact ⟨_, _, .missing ends, .nil⟩
  | variableInitial _ declares =>
      obtain ⟨statement, errors, phrase, keeps⟩ := declares
      exact ⟨_, errors, .declare phrase, keeps⟩
  | expressionInitial _ expression =>
      obtain ⟨before, semicolon, expr, errors, rfl, ends, phrase, keeps⟩ := expression
      exact ⟨_, errors, .expression phrase ends, keeps⟩
  | ifStatement begins opens _ closes _ tested chosen =>
      obtain ⟨_, _, condition, keepsCondition⟩ := tested
      obtain ⟨_, _, thenBranch, keepsThen⟩ := chosen
      exact ⟨_, _, .ifThen begins opens condition closes thenBranch,
        Keeps.append_iff.mpr ⟨keepsCondition, keepsThen⟩⟩
  | ifElseStatement begins opens _ closes _ separates _ tested chosen alternative =>
      obtain ⟨_, _, condition, keepsCondition⟩ := tested
      obtain ⟨_, _, thenBranch, keepsThen⟩ := chosen
      obtain ⟨_, _, elseBranch, keepsElse⟩ := alternative
      refine ⟨_, _, .ifElse begins opens condition closes thenBranch separates elseBranch, ?_⟩
      simp only [Keeps.append_iff]
      exact ⟨keepsCondition, keepsThen, keepsElse⟩
  | printStatement begins _ ends value =>
      obtain ⟨expr, errors, phrase, keeps⟩ := value
      exact fun _ => ⟨_, errors, .print begins phrase ends, keeps⟩
  | whileStatement begins opens _ closes _ tested repeated =>
      obtain ⟨_, _, condition, keepsCondition⟩ := tested
      obtain ⟨_, _, body, keepsBody⟩ := repeated
      exact ⟨_, _, .whileLoop begins opens condition closes body,
        Keeps.append_iff.mpr ⟨keepsCondition, keepsBody⟩⟩
  | noExpression =>
      exact ⟨_, _, .missing, .nil⟩
  | someExpression _ value =>
      obtain ⟨expr, errors, phrase, keeps⟩ := value
      exact ⟨_, errors, .present phrase, keeps⟩
  | expression _ loosest =>
      exact loosest
  | operand _ inner =>
      obtain ⟨expr, errors, phrase, keeps⟩ := inner
      exact ⟨expr, errors, .loosen phrase, keeps⟩
  | operation _ listed signed _ earlier last =>
      obtain ⟨_, _, left, keepsLeft⟩ := earlier
      obtain ⟨_, _, right, keepsRight⟩ := last
      obtain ⟨operator, stands, rfl⟩ := mem_signs_iff.mp listed
      exact ⟨_, _, .binary (signed ▸ stands) left right,
        Keeps.append_iff.mpr ⟨keepsLeft, keepsRight⟩⟩
  | @assignment equals target value _ assigns _ bare assigned source =>
      obtain ⟨valueExpr, valueErrors, valuePhrase, keepsValue⟩ := source
      cases checked with
      | true =>
          obtain ⟨name, rfl, named⟩ := bare rfl
          have atom : ExprPhrase .unary [name] (.lookup name) [] :=
            .atom (by simp [exprOfToken?, named])
          refine ⟨_, _, .assign (atom.loosenTo (rank_le_unary _)) assigns valuePhrase, ?_⟩
          simpa [Frame.error?] using keepsValue
      | false =>
          obtain ⟨_, _, targetPhrase, _⟩ := assigned
          exact ⟨_, _, .assign targetPhrase assigns valuePhrase, nofun⟩
  | conditional _ asks _ separates _ tested chosen alternative =>
      obtain ⟨_, _, condition, keepsCondition⟩ := tested
      obtain ⟨_, _, thenValue, keepsThen⟩ := chosen
      obtain ⟨_, _, elseValue, keepsElse⟩ := alternative
      refine ⟨_, _, .conditional condition asks thenValue separates elseValue, ?_⟩
      simp only [Keeps.append_iff]
      exact ⟨keepsCondition, keepsThen, keepsElse⟩
  | unary listed signed _ operand =>
      obtain ⟨expr, errors, phrase, keeps⟩ := operand
      obtain ⟨operator, stands⟩ := exists_unary_iff.mpr ⟨_, listed, signed⟩
      exact ⟨_, errors, .unary stands phrase, keeps⟩
  | primary _ inner =>
      exact inner
  | atom alone =>
      obtain ⟨expr, stands⟩ := exists_exprOfToken?_iff.mpr alone
      exact ⟨expr, [], .atom stands, .nil⟩
  | group opens _ closes inner =>
      obtain ⟨expr, errors, phrase, keeps⟩ := inner
      exact ⟨_, errors, .group opens phrase closes, keeps⟩

/-- An expression phrase is derived at its level. -/
theorem ExprPhrase.derives
    {checked : Bool}
    {level : Level}
    {tokens : List Token}
    {expr : Expr}
    {errors : List GrammarError}
    (phrase : ExprPhrase level tokens expr errors)
    (keeps : Keeps checked errors) :
    Derives checked (.operation level) tokens := by
  induction phrase with
  | atom alone =>
      exact .primary (.atom (exists_exprOfToken?_iff.mp ⟨_, alone⟩))
  | group opens _ closes inner =>
      exact .primary (.group opens (.expression (inner keeps)) closes)
  | unary signed _ operand =>
      obtain ⟨sign, listed, isSign⟩ := exists_unary_iff.mp ⟨_, signed⟩
      exact .unary listed isSign (operand keeps)
  | binary signed _ _ earlier last =>
      obtain ⟨sign, isSign, listed⟩ := exists_sign_of_binary signed
      obtain ⟨keepsLeft, keepsRight⟩ := Keeps.append_iff.mp keeps
      exact .operation (earlier keepsLeft) listed isSign (last keepsRight)
  | conditional _ asks _ separates _ tested chosen alternative =>
      simp only [Keeps.append_iff] at keeps
      obtain ⟨keepsCondition, keepsThen, keepsElse⟩ := keeps
      exact .conditional (tested keepsCondition) asks (.expression (chosen keepsThen)) separates
        (alternative keepsElse)
  | @assign equals target value targetExpr _ _ _ targetPhrase assigns _ assigned source =>
      simp only [Keeps.append_iff] at keeps
      obtain ⟨keepsTarget, keepsValue, keepsOwn⟩ := keeps
      refine .assignment (assigned keepsTarget) assigns (source keepsValue) fun isChecked => ?_
      cases targetExpr with
      | lookup name => exact ⟨name, targetPhrase.eq_name_of_lookup⟩
      | _ => exact absurd (keepsOwn isChecked) (by simp [Frame.error?])
  | loosen _ inner =>
      exact .operand (inner keeps)

/-- An optional expression phrase is derived. -/
theorem OptionalPhrase.derives
    {checked : Bool}
    {tokens : List Token}
    {expr : Option Expr}
    {errors : List GrammarError}
    (phrase : OptionalPhrase tokens expr errors)
    (keeps : Keeps checked errors) :
    Derives checked .optionalExpression tokens := by
  cases phrase with
  | missing => exact .noExpression
  | present value => exact .someExpression (.expression (value.derives keeps))

/-- A declaration phrase is derived. -/
theorem VariablePhrase.derives
    {checked : Bool}
    {tokens : List Token}
    {statement : Stmt}
    {errors : List GrammarError}
    (phrase : VariablePhrase tokens statement errors)
    (keeps : Keeps checked errors) :
    Derives checked .varDeclaration tokens := by
  cases phrase with
  | bare begins named ends => exact .bareVariable begins named ends
  | initialized begins named assigns value ends =>
      exact .initializedVariable begins named assigns (.expression (value.derives keeps)) ends

/-- The first part of a header is derived. -/
theorem InitialPhrase.derives
    {checked : Bool}
    {tokens : List Token}
    {statement : Option Stmt}
    {errors : List GrammarError}
    (phrase : InitialPhrase tokens statement errors)
    (keeps : Keeps checked errors) :
    Derives checked .forInitial tokens := by
  cases phrase with
  | missing ends => exact .noInitial ends
  | declare declares => exact .variableInitial (declares.derives keeps)
  | expression value ends =>
      exact .expressionInitial (.expressionStatement (.expression (value.derives keeps)) ends)

/-- Declarations after a first one are derived with it. -/
theorem Derives.consDeclaration
    {checked inLoop : Bool}
    {first rest : List Token}
    (declaration : Derives checked (.declaration inLoop) first)
    (declarations : Derives checked (.declarations inLoop) rest) :
    Derives checked (.declarations inLoop) (first ++ rest) := by
  generalize isRest : Nonterminal.declarations inLoop = nonterminal at declarations
  induction declarations with
  | noDeclarations =>
      cases isRest
      simpa using Derives.moreDeclarations .noDeclarations declaration
  | moreDeclarations _ final earlier _ =>
      cases isRest
      simpa using Derives.moreDeclarations (earlier rfl) final
  | _ =>
      cases isRest

mutual

/-- A statement phrase is derived with its ending. -/
theorem StatementPhrase.derives
    {checked : Bool} :
    ∀ {inLoop : Bool} {ending : Ending} {tokens : List Token} {statement : Stmt}
      {errors : List GrammarError},
      StatementPhrase inLoop ending tokens statement errors →
      Keeps checked errors →
      Derives checked (.statement inLoop ending) tokens
  | _, _, _, _, _, .block opens body closes, keeps =>
      .blockIsStatement (.block opens (body.derives keeps) closes)
  | inLoop, _, _, _, _, .leave begins ends, keeps => by
      refine .breakIsStatement (.breakStatement begins ends fun isChecked => ?_)
      cases inLoop with
      | true => rfl
      | false => exact absurd (keeps isChecked) (by simp [leaveErrors])
  | _, _, _, _, _, .expression value ends, keeps =>
      .expressionIsStatement (.expressionStatement (.expression (value.derives keeps)) ends)
  | _, _, _, _, _, .print begins value ends, keeps =>
      .printIsStatement (.printStatement begins (.expression (value.derives keeps)) ends)
  | _, _, _, _, _, .ifThen begins opens tested closes chosen, keeps => by
      obtain ⟨keepsCondition, keepsThen⟩ := Keeps.append_iff.mp keeps
      exact .ifIsStatement (.ifStatement begins opens (.expression (tested.derives keepsCondition))
        closes (chosen.derives keepsThen))
  | _, _, _, _, _, .ifElse begins opens tested closes chosen separates alternative, keeps => by
      simp only [Keeps.append_iff] at keeps
      obtain ⟨keepsCondition, keepsThen, keepsElse⟩ := keeps
      exact .ifIsStatement
        (.ifElseStatement begins opens (.expression (tested.derives keepsCondition)) closes
          (chosen.derives keepsThen) separates (alternative.derives keepsElse))
  | _, _, _, _, _, .whileLoop begins opens tested closes repeated, keeps => by
      obtain ⟨keepsCondition, keepsBody⟩ := Keeps.append_iff.mp keeps
      exact .whileIsStatement
        (.whileStatement begins opens (.expression (tested.derives keepsCondition)) closes
          (repeated.derives keepsBody))
  | _, _, _, _, _, .forLoop begins opens first second separates third closes repeated, keeps => by
      simp only [Keeps.append_iff] at keeps
      obtain ⟨keepsInitial, keepsCondition, keepsStep, keepsBody⟩ := keeps
      exact .forIsStatement
        (.forStatement begins opens (first.derives keepsInitial) (second.derives keepsCondition)
          separates (third.derives keepsStep) closes (repeated.derives keepsBody))

/-- A body is derived as declarations. -/
theorem BodyPhrase.derives
    {checked : Bool} :
    ∀ {inLoop : Bool} {tokens : List Token} {statements : List Stmt}
      {errors : List GrammarError},
      BodyPhrase inLoop tokens statements errors →
      Keeps checked errors →
      Derives checked (.declarations inLoop) tokens
  | _, _, _, _, .nil, _ => .noDeclarations
  | _, _, _, _, .declare first others, keeps => by
      obtain ⟨keepsFirst, keepsOthers⟩ := Keeps.append_iff.mp keeps
      exact (Derives.variableDeclaration (first.derives keepsFirst)).consDeclaration
        (others.derives keepsOthers)
  | _, _, _, _, .statement first others, keeps => by
      obtain ⟨keepsFirst, keepsOthers⟩ := Keeps.append_iff.mp keeps
      exact (Derives.statementDeclaration (first.derives keepsFirst)).consDeclaration
        (others.derives keepsOthers)

end

/-- Programs are derived exactly when they are bodies outside every loop. -/
theorem derives_program_iff
    {checked : Bool}
    {tokens : List Token} :
    Derives checked .program tokens ↔
      ∃ statements errors, BodyPhrase false tokens statements errors ∧ Keeps checked errors := by
  constructor
  · intro derivation
    exact derivation.stands
  · rintro ⟨statements, errors, body, keeps⟩
    exact .program (body.derives keeps)

/-- No derivation holds an end token. -/
theorem Derives.kind_ne_endOfInput
    {checked : Bool}
    {nonterminal : Nonterminal}
    {tokens : List Token}
    (derivation : Derives checked nonterminal tokens) :
    ∀ token ∈ tokens, token.kind ≠ .endOfInput := by
  induction derivation with
  | atom alone =>
      intro token isToken isEnd
      rw [List.mem_singleton.mp isToken] at isEnd
      simp [isEnd, atoms] at alone
  | _ =>
      grind

end BlockScript.Grammar
