import Mathlib.Data.List.Forall2
import BlockScript.Proofs.Flattening.Basic
import BlockScript.Proofs.Reading.Language

namespace BlockScript

open Grammar

/-!
# Reading and flattening are inverse

The flattening of a canonical tree is a phrase that stands for the tree.  In the
other direction a phrase without violations and without counting loops, which
are read as other statements, stands for a canonical tree whose flattening
agrees with the phrase token by token.
-/

/-- A canonical operand that fits its place is a phrase of the level asked for. -/
theorem Expr.phrase_of_fits
    {expr : Expr}
    {asked : Level}
    (phrase : ExprPhrase expr.level expr.flatten expr [])
    (fits : expr.fits asked = true) :
    ExprPhrase asked expr.flatten expr [] :=
  phrase.loosenTo (by simpa [Expr.fits] using fits)

/-- The flattening of a canonical expression stands for it. -/
theorem Expr.phrase_flatten
    {expr : Expr}
    (canonical : expr.isCanonical = true) :
    ExprPhrase expr.level expr.flatten expr [] := by
  induction expr with
  | assign name value inductionHypothesis =>
      simp only [isCanonical, Bool.and_eq_true, decide_eq_true_eq] at canonical
      obtain ⟨⟨named, fits⟩, valueCanonical⟩ := canonical
      have target : ExprPhrase .conditional [name] (.lookup name) [] :=
        ExprPhrase.loosenTo (.atom (by simp [exprOfToken?, named])) (rank_le_unary _)
      exact .assign target rfl (phrase_of_fits (inductionHypothesis valueCanonical) fits)
  | binary token operator left right leftHypothesis rightHypothesis =>
      simp only [isCanonical, Bool.and_eq_true, decide_eq_true_eq] at canonical
      obtain ⟨⟨⟨⟨signed, leftFits⟩, rightFits⟩, leftCanonical⟩, rightCanonical⟩ := canonical
      exact .binary signed (phrase_of_fits (leftHypothesis leftCanonical) leftFits)
        (phrase_of_fits (rightHypothesis rightCanonical) rightFits)
  | group inner inductionHypothesis =>
      exact .group rfl (inductionHypothesis canonical).loosest rfl
  | literal value =>
      cases value with
      | bool truth => cases truth <;> exact .atom rfl
      | _ => exact .atom rfl
  | conditional condition thenValue elseValue conditionHypothesis thenHypothesis elseHypothesis =>
      simp only [isCanonical, Bool.and_eq_true] at canonical
      obtain ⟨⟨⟨⟨conditionFits, elseFits⟩, conditionCanonical⟩, thenCanonical⟩, elseCanonical⟩ :=
        canonical
      exact .conditional (phrase_of_fits (conditionHypothesis conditionCanonical) conditionFits) rfl
        (thenHypothesis thenCanonical).loosest rfl
        (phrase_of_fits (elseHypothesis elseCanonical) elseFits)
  | unary token operator operand inductionHypothesis =>
      simp only [isCanonical, Bool.and_eq_true, decide_eq_true_eq] at canonical
      obtain ⟨⟨signed, fits⟩, operandCanonical⟩ := canonical
      exact .unary signed (phrase_of_fits (inductionHypothesis operandCanonical) fits)
  | lookup name =>
      have named : name.kind = .identifier := by
        simpa [isCanonical] using canonical
      exact .atom (by simp [exprOfToken?, named])

/-- The flattening of a canonical declaration stands for it. -/
theorem Stmt.variablePhrase_flatten
    {name : Token}
    {initial : Option Expr}
    (named : name.kind = .identifier)
    (canonical : initial.all Expr.isCanonical = true) :
    VariablePhrase (Stmt.declare name initial).flatten (.declare name initial) [] := by
  cases initial with
  | none => exact .bare rfl named rfl
  | some value => exact .initialized rfl named rfl (Expr.phrase_flatten canonical).loosest rfl

namespace Stmt

mutual

/-- The flattening of a canonical statement stands for it, with the ending of the statement. -/
theorem phrase_flatten
    {inLoop : Bool} :
    (statement : Stmt) →
    (canonical : statement.isCanonical inLoop = true) →
    StatementPhrase inLoop statement.ending statement.flatten statement []
  | .block body, canonical => by
      simp only [isCanonical] at canonical
      exact .block rfl (bodyPhrase_flattenAll body canonical) rfl
  | .leave word, canonical => by
      simp only [isCanonical, Bool.and_eq_true, decide_eq_true_eq] at canonical
      obtain ⟨begins, rfl⟩ := canonical
      exact .leave begins rfl
  | .expression value, canonical => by
      simp only [isCanonical] at canonical
      exact .expression (Expr.phrase_flatten canonical).loosest rfl
  | .ifThen condition thenBranch, canonical => by
      simp only [isCanonical, Bool.and_eq_true] at canonical
      obtain ⟨tested, chosen⟩ := canonical
      exact .ifThen rfl rfl (Expr.phrase_flatten tested).loosest rfl
        (phrase_flatten thenBranch chosen)
  | .ifElse condition thenBranch elseBranch, canonical => by
      simp only [isCanonical, Bool.and_eq_true, decide_eq_true_eq] at canonical
      obtain ⟨⟨⟨tested, closed⟩, chosen⟩, alternative⟩ := canonical
      have thenPhrase := phrase_flatten thenBranch chosen
      rw [closed] at thenPhrase
      exact .ifElse rfl rfl (Expr.phrase_flatten tested).loosest rfl thenPhrase rfl
        (phrase_flatten elseBranch alternative)
  | .print value, canonical => by
      simp only [isCanonical] at canonical
      exact .print rfl (Expr.phrase_flatten canonical).loosest rfl
  | .declare name initial, canonical => by
      simp only [isCanonical, Bool.false_eq_true] at canonical
  | .loop condition body, canonical => by
      simp only [isCanonical, Bool.and_eq_true] at canonical
      obtain ⟨tested, repeated⟩ := canonical
      exact .whileLoop rfl rfl (Expr.phrase_flatten tested).loosest rfl
        (phrase_flatten body repeated)

/-- The flattening of canonical declarations and statements stands for them. -/
theorem bodyPhrase_flattenAll
    {inLoop : Bool} :
    (statements : List Stmt) →
    (canonical : areCanonical inLoop statements = true) →
    BodyPhrase inLoop (flattenAll statements) statements []
  | [], _ => .nil
  | statement :: others, canonical => by
      cases isDeclaration : statement with
      | declare name initial =>
          subst isDeclaration
          simp only [areCanonical, Bool.and_eq_true, decide_eq_true_eq] at canonical
          obtain ⟨⟨named, initialCanonical⟩, othersCanonical⟩ := canonical
          exact .declare (variablePhrase_flatten named initialCanonical)
            (bodyPhrase_flattenAll others othersCanonical)
      | _ =>
          rw [← isDeclaration]
          simp only [isDeclaration, areCanonical, Bool.and_eq_true] at canonical
          obtain ⟨first, othersCanonical⟩ := canonical
          rw [← isDeclaration] at first
          exact .statement (phrase_flatten statement first)
            (bodyPhrase_flattenAll others othersCanonical)

end

end Stmt

/-- Whether trees keep the tokens of this kind as they are. -/
def Kind.isKept : Kind → Bool
  | .identifier => true
  | .keyword word => word = .breakWord
  | kind => (UnaryOperator.ofKind? kind).isSome || (BinaryOperator.ofKind? kind).isSome

namespace Token

/-- A token is written back: its kind always, what trees keep of it, and the value it carries. -/
structure Agrees
    (source written : Token) :
    Prop where
  kind : source.kind = written.kind
  kept : source.kind.isKept = true → source = written
  literal : source.kind = .number ∨ source.kind = .string → source.literal = written.literal

/-- Whether a token that is a number carries a number, and one that is a text a text. -/
def isValued
    (token : Token) :
    Bool :=
  match token.kind, token.literal with
  | .number, .number _ => true
  | .number, _ => false
  | .string, .string _ => true
  | .string, _ => false
  | _, _ => true

/-- Every token agrees with itself. -/
theorem Agrees.refl
    (token : Token) :
    token.Agrees token :=
  ⟨rfl, fun _ => rfl, fun _ => rfl⟩

/-- A mark that no tree keeps is put back. -/
theorem agrees_ofMark
    {token : Token}
    {sign : Mark}
    (isMark : token.kind = .mark sign)
    (notKept : (Kind.mark sign).isKept = false) :
    token.Agrees (.ofMark sign) where
  kind := isMark
  kept := by simp [isMark, notKept]
  literal := by simp [isMark]

/-- A word that no tree keeps is put back. -/
theorem agrees_ofWord
    {token : Token}
    {word : Keyword}
    (isWord : token.kind = .keyword word)
    (notKept : (Kind.keyword word).isKept = false) :
    token.Agrees (.ofWord word) where
  kind := isWord
  kept := by simp [isWord, notKept]
  literal := by simp [isWord]

/-- An operand of one token is written back. -/
theorem agrees_of_exprOfToken?
    {token : Token}
    {expr : Expr}
    (alone : exprOfToken? token = some expr)
    (valued : token.isValued = true) :
    List.Forall₂ Agrees [token] expr.flatten := by
  unfold exprOfToken? at alone
  split at alone
  case h_1 isFalse =>
    cases alone
    exact .cons (agrees_ofWord isFalse rfl) .nil
  case h_2 isTrue =>
    cases alone
    exact .cons (agrees_ofWord isTrue rfl) .nil
  case h_3 isNil =>
    cases alone
    exact .cons (agrees_ofWord isNil rfl) .nil
  case h_4 isNumber =>
    cases alone
    cases carries : token.literal with
    | number double =>
        have notKept : token.kind.isKept = false := by
          rw [isNumber]
          rfl
        exact .cons ⟨isNumber, by simp [notKept], fun _ => carries⟩ .nil
    | _ => simp [isValued, isNumber, carries] at valued
  case h_5 isString =>
    cases alone
    cases carries : token.literal with
    | string content =>
        have notKept : token.kind.isKept = false := by
          rw [isString]
          rfl
        exact .cons ⟨isString, by simp [notKept], fun _ => carries⟩ .nil
    | _ => simp [isValued, isString, carries] at valued
  case h_6 =>
    cases alone
    exact .cons (.refl token) .nil
  case h_7 => cases alone

end Token

namespace Grammar

/-- Tokens are written back by a canonical expression of at least some level. -/
structure ExprFlattens
    (level : Level)
    (tokens : List Token)
    (expr : Expr) :
    Prop where
  agrees : List.Forall₂ Token.Agrees tokens expr.flatten
  canonical : expr.isCanonical = true
  fits : expr.fits level = true

/-- An operand of one token is canonical. -/
theorem isCanonical_of_exprOfToken?
    {token : Token}
    {expr : Expr}
    (alone : exprOfToken? token = some expr) :
    expr.isCanonical = true ∧ expr.fits .unary = true := by
  unfold exprOfToken? at alone
  split at alone
  case h_6 named =>
    cases alone
    exact ⟨by simpa [Expr.isCanonical] using named, rfl⟩
  case h_7 => cases alone
  all_goals
    cases alone
    exact ⟨rfl, rfl⟩

/-- What fits a tight place fits every looser one. -/
theorem fits_of_rank_le
    {expr : Expr}
    {level tight : Level}
    (fits : expr.fits tight = true)
    (looser : level.rank ≤ tight.rank) :
    expr.fits level = true := by
  simp only [Expr.fits, decide_eq_true_eq] at fits ⊢
  omega

/-- A phrase without violations is written back by the expression it stands for. -/
theorem ExprPhrase.flattens
    {level : Level}
    {tokens : List Token}
    {expr : Expr}
    {errors : List GrammarError}
    (phrase : ExprPhrase level tokens expr errors)
    (clean : errors = [])
    (valued : ∀ token ∈ tokens, token.isValued = true) :
    ExprFlattens level tokens expr := by
  induction phrase with
  | @atom token expr alone =>
      obtain ⟨canonical, fits⟩ := isCanonical_of_exprOfToken? alone
      exact ⟨Token.agrees_of_exprOfToken? alone (valued token (by simp)), canonical, fits⟩
  | group opens _ closes inner =>
      simp only [List.forall_mem_cons, List.forall_mem_append] at valued
      have within := inner clean valued.2.1
      exact ⟨.cons (Token.agrees_ofMark opens rfl)
        (List.rel_append within.agrees (.cons (Token.agrees_ofMark closes rfl) .nil)),
        within.canonical, rfl⟩
  | unary signed _ operand =>
      simp only [List.forall_mem_cons] at valued
      have last := operand clean valued.2
      exact ⟨.cons (.refl _) last.agrees,
        by simp [Expr.isCanonical, signed, last.fits, last.canonical], rfl⟩
  | binary signed _ _ earlier last =>
      simp only [List.forall_mem_cons, List.forall_mem_append] at valued
      simp only [List.append_eq_nil_iff] at clean
      have left := earlier clean.1 valued.1
      have right := last clean.2 valued.2.2
      exact ⟨List.rel_append left.agrees (.cons (.refl _) right.agrees),
        by simp [Expr.isCanonical, signed, left.fits, left.canonical, right.fits, right.canonical],
        by simp [Expr.fits, Expr.level]⟩
  | conditional _ asks _ separates _ tested chosen alternative =>
      simp only [List.forall_mem_cons, List.forall_mem_append] at valued
      simp only [List.append_eq_nil_iff] at clean
      have condition := tested clean.1 valued.1
      have first := chosen clean.2.1 valued.2.2.1
      have second := alternative clean.2.2 valued.2.2.2.2
      exact ⟨List.rel_append condition.agrees
        (.cons (Token.agrees_ofMark asks rfl)
          (List.rel_append first.agrees (.cons (Token.agrees_ofMark separates rfl) second.agrees))),
        by simp [Expr.isCanonical, condition.fits, condition.canonical, first.canonical,
          second.fits, second.canonical], rfl⟩
  | @assign equals _ _ target _ _ _ assigned assigns _ _ source =>
      simp only [List.forall_mem_cons, List.forall_mem_append] at valued
      simp only [List.append_eq_nil_iff] at clean
      have value := source clean.2.1 valued.2.2
      cases target with
      | lookup name =>
          obtain ⟨rfl, named⟩ := assigned.eq_name_of_lookup
          exact ⟨.cons (.refl name) (.cons (Token.agrees_ofMark assigns rfl) value.agrees),
            by simp [Frame.fill, Expr.isCanonical, named, value.fits, value.canonical], rfl⟩
      | _ => simp [Frame.error?] at clean
  | @loosen level _ _ _ _ inner =>
      have tight := inner clean valued
      exact ⟨tight.agrees, tight.canonical, fits_of_rank_le tight.fits (rank_le_tighter level)⟩

/-- A header in parentheses and what follows it are written back. -/
theorem agrees_header
    {word opening closing : Token}
    {keyword : Keyword}
    {condition body written : List Token}
    {expr : Expr}
    (begins : word.kind = .keyword keyword)
    (notKept : (Kind.keyword keyword).isKept = false)
    (opens : opening.kind = .mark .leftParen)
    (tested : ExprFlattens .comma condition expr)
    (closes : closing.kind = .mark .rightParen)
    (follows : List.Forall₂ Token.Agrees body written) :
    List.Forall₂ Token.Agrees (word :: opening :: (condition ++ closing :: body))
      (.ofWord keyword :: .ofMark .leftParen ::
        (expr.flatten ++ .ofMark .rightParen :: written)) :=
  .cons (Token.agrees_ofWord begins notKept) (.cons (Token.agrees_ofMark opens rfl)
    (List.rel_append tested.agrees (.cons (Token.agrees_ofMark closes rfl) follows)))

/-- An expression and the semicolon behind it are written back. -/
theorem ExprFlattens.agrees_semicolon
    {level : Level}
    {tokens : List Token}
    {expr : Expr}
    {semicolon : Token}
    (value : ExprFlattens level tokens expr)
    (ends : semicolon.kind = .mark .semicolon) :
    List.Forall₂ Token.Agrees (tokens ++ [semicolon]) (expr.flatten ++ [.ofMark .semicolon]) :=
  List.rel_append value.agrees (.cons (Token.agrees_ofMark ends rfl) .nil)

/-- Tokens are written back by a canonical statement with the given ending. -/
structure StatementFlattens
    (inLoop : Bool)
    (ending : Ending)
    (tokens : List Token)
    (statement : Stmt) :
    Prop where
  agrees : List.Forall₂ Token.Agrees tokens statement.flatten
  canonical : statement.isCanonical inLoop = true
  ending : statement.ending = ending

/-- Tokens are written back by canonical declarations and statements. -/
structure BodyFlattens
    (inLoop : Bool)
    (tokens : List Token)
    (statements : List Stmt) :
    Prop where
  agrees : List.Forall₂ Token.Agrees tokens (Stmt.flattenAll statements)
  canonical : Stmt.areCanonical inLoop statements = true

/-- A declaration without violations is written back, and so is what follows it. -/
theorem VariablePhrase.flattens
    {inLoop : Bool}
    {tokens rest : List Token}
    {statement : Stmt}
    {statements : List Stmt}
    {errors : List GrammarError}
    (phrase : VariablePhrase tokens statement errors)
    (clean : errors = [])
    (valued : ∀ token ∈ tokens, token.isValued = true)
    (others : BodyFlattens inLoop rest statements) :
    BodyFlattens inLoop (tokens ++ rest) (statement :: statements) := by
  cases phrase with
  | bare begins named ends =>
      exact ⟨.cons (Token.agrees_ofWord begins rfl) (.cons (.refl _)
        (.cons (Token.agrees_ofMark ends rfl) others.agrees)),
        by simp [Stmt.areCanonical, named, others.canonical]⟩
  | initialized begins named assigns value ends =>
      simp only [List.forall_mem_cons, List.forall_mem_append] at valued
      have initial := value.flattens clean valued.2.2.2.1
      exact ⟨List.rel_append
        (.cons (Token.agrees_ofWord begins rfl) (.cons (.refl _)
          (.cons (Token.agrees_ofMark assigns rfl) (initial.agrees_semicolon ends))))
        others.agrees,
        by simp [Stmt.areCanonical, named, initial.canonical, others.canonical]⟩

/-- A canonical statement and what follows it are written back. -/
theorem StatementFlattens.cons
    {inLoop : Bool}
    {ending : Ending}
    {tokens rest : List Token}
    {statement : Stmt}
    {statements : List Stmt}
    (first : StatementFlattens inLoop ending tokens statement)
    (others : BodyFlattens inLoop rest statements) :
    BodyFlattens inLoop (tokens ++ rest) (statement :: statements) := by
  refine ⟨List.rel_append first.agrees others.agrees, ?_⟩
  have canonical := first.canonical
  cases statement with
  | declare => simp [Stmt.isCanonical] at canonical
  | _ => simp only [Stmt.areCanonical, canonical, others.canonical, Bool.and_self]

mutual

/-- A statement without violations and counting loops is written back. -/
theorem StatementPhrase.flattens :
    ∀ {inLoop : Bool} {ending : Ending} {tokens : List Token} {statement : Stmt}
      {errors : List GrammarError},
      StatementPhrase inLoop ending tokens statement errors →
      errors = [] →
      (∀ token ∈ tokens, token.isValued = true) →
      (∀ token ∈ tokens, token.kind ≠ .keyword .forWord) →
      StatementFlattens inLoop ending tokens statement
  | _, _, _, _, _, .block opens body closes, clean, valued, free => by
      simp only [List.forall_mem_cons, List.forall_mem_append] at valued free
      have inner := body.flattens clean valued.2.1 free.2.1
      exact ⟨.cons (Token.agrees_ofMark opens rfl)
        (List.rel_append inner.agrees (.cons (Token.agrees_ofMark closes rfl) .nil)),
        by simpa [Stmt.isCanonical] using inner.canonical, rfl⟩
  | inLoop, _, _, _, _, .leave begins ends, clean, _, _ => by
      have inside : inLoop = true := by
        simpa [leaveErrors] using clean
      exact ⟨.cons (.refl _) (.cons (Token.agrees_ofMark ends rfl) .nil),
        by simp [Stmt.isCanonical, begins, inside], rfl⟩
  | _, _, _, _, _, .expression value ends, clean, valued, _ => by
      simp only [List.forall_mem_append] at valued
      have inner := value.flattens clean valued.1
      exact ⟨inner.agrees_semicolon ends, inner.canonical, rfl⟩
  | _, _, _, _, _, .print begins value ends, clean, valued, _ => by
      simp only [List.forall_mem_cons, List.forall_mem_append] at valued
      have inner := value.flattens clean valued.2.1
      exact ⟨.cons (Token.agrees_ofWord begins rfl) (inner.agrees_semicolon ends),
        inner.canonical, rfl⟩
  | _, _, _, _, _, .ifThen begins opens tested closes chosen, clean, valued, free => by
      simp only [List.forall_mem_cons, List.forall_mem_append] at valued free
      simp only [List.append_eq_nil_iff] at clean
      have condition := tested.flattens clean.1 valued.2.2.1
      have inner := chosen.flattens clean.2 valued.2.2.2.2 free.2.2.2.2
      exact ⟨agrees_header begins rfl opens condition closes inner.agrees,
        by simp [Stmt.isCanonical, condition.canonical, inner.canonical], rfl⟩
  | _, _, _, _, _, .ifElse begins opens tested closes chosen separates alternative,
      clean, valued, free => by
      simp only [List.forall_mem_cons, List.forall_mem_append] at valued free
      simp only [List.append_eq_nil_iff] at clean
      have condition := tested.flattens clean.1 valued.2.2.1
      have first := chosen.flattens clean.2.1 valued.2.2.2.2.1 free.2.2.2.2.1
      have second := alternative.flattens clean.2.2 valued.2.2.2.2.2.2 free.2.2.2.2.2.2
      exact ⟨agrees_header begins rfl opens condition closes
        (List.rel_append first.agrees
          (.cons (Token.agrees_ofWord separates rfl) second.agrees)),
        by simp [Stmt.isCanonical, condition.canonical, first.ending, first.canonical,
          second.canonical], second.ending⟩
  | _, _, _, _, _, .whileLoop begins opens tested closes repeated, clean, valued, free => by
      simp only [List.forall_mem_cons, List.forall_mem_append] at valued free
      simp only [List.append_eq_nil_iff] at clean
      have condition := tested.flattens clean.1 valued.2.2.1
      have inner := repeated.flattens clean.2 valued.2.2.2.2 free.2.2.2.2
      exact ⟨agrees_header begins rfl opens condition closes inner.agrees,
        by simp [Stmt.isCanonical, condition.canonical, inner.canonical], inner.ending⟩
  | _, _, _, _, _, .forLoop begins _ _ _ _ _ _ _, _, _, free =>
      absurd begins (free _ List.mem_cons_self)

/-- A body without violations and counting loops is written back. -/
theorem BodyPhrase.flattens :
    ∀ {inLoop : Bool} {tokens : List Token} {statements : List Stmt}
      {errors : List GrammarError},
      BodyPhrase inLoop tokens statements errors →
      errors = [] →
      (∀ token ∈ tokens, token.isValued = true) →
      (∀ token ∈ tokens, token.kind ≠ .keyword .forWord) →
      BodyFlattens inLoop tokens statements
  | _, _, _, _, .nil, _, _, _ => ⟨.nil, by simp [Stmt.areCanonical]⟩
  | _, _, _, _, .declare first others, clean, valued, free => by
      simp only [List.forall_mem_append] at valued free
      simp only [List.append_eq_nil_iff] at clean
      exact first.flattens clean.1 valued.1 (others.flattens clean.2 valued.2 free.2)
  | _, _, _, _, .statement first others, clean, valued, free => by
      simp only [List.forall_mem_append] at valued free
      simp only [List.append_eq_nil_iff] at clean
      exact (first.flattens clean.1 valued.1 free.1).cons (others.flattens clean.2 valued.2 free.2)

end

end Grammar

/--
Reading and flattening are inverse.  A list of tokens without counting loops that
is read without errors is written back by the statements read, which are
canonical; and the flattening of canonical statements is read as them.
-/
theorem ofTokens_flattenAll_inverse :
    (∀ {tokens : List Token} {last : Token},
      tokens.getLast? = some last →
      last.kind = .endOfInput →
      (∀ token ∈ tokens, token.kind ≠ .keyword .forWord) →
      (∀ token ∈ tokens, token.isValued = true) →
      (Program.ofTokens tokens).errors = [] →
      List.Forall₂ Token.Agrees (beforeEnd tokens)
          (Stmt.flattenAll (Program.ofTokens tokens).statements) ∧
        Stmt.areCanonical false (Program.ofTokens tokens).statements = true) ∧
    ∀ {statements : List Stmt} {ending : Token},
      Stmt.areCanonical false statements = true →
      ending.kind = .endOfInput →
      Program.ofTokens (Stmt.flattenAll statements ++ [ending]) = { statements, errors := [] } := by
  constructor
  · intro tokens last isLast ends free valued noErrors
    have within : ∀ token ∈ beforeEnd tokens, token ∈ tokens :=
      fun token isToken => (List.takeWhile_sublist _).subset isToken
    have flattens :=
      (bodyPhrase_of_errors_eq_nil isLast ends noErrors).flattens rfl
        (fun token isToken => valued token (within token isToken))
        (fun token isToken => free token (within token isToken))
    exact ⟨flattens.agrees, flattens.canonical⟩
  · intro statements ending canonical ends
    exact (Stmt.bodyPhrase_flattenAll statements canonical).ofTokens_eq ends []

/-- A name in the examples. -/
def sampleName : Token where
  kind := .identifier
  lexeme := "a"
  literal := .nil
  line := 3

/-- The program `while (a) if (a) { var a; } else a = (a, nil) ? "b" : a - a - (a - a);`. -/
def sampleStatements : List Stmt :=
  let minus : Token := { kind := .mark .minus, lexeme := "-", literal := .nil, line := 4 }
  let comma : Token := { kind := .mark .comma, lexeme := ",", literal := .nil, line := 4 }
  let difference (left right : Expr) : Expr := .binary minus .subtract left right
  let name : Expr := .lookup sampleName
  [.loop name
    (.ifElse name (.block [.declare sampleName none])
      (.expression
        (.assign sampleName
          (.conditional (.group (.binary comma .comma name (.literal .nil)))
            (.literal (.string "b"))
            (difference (difference name name) (.group (difference name name)))))))]

/-- The nested conditional in a loop is written back, and the sample program is read back. -/
theorem ofTokens_flattenAll_inverse_sample :
    (Program.ofTokens (tokensOfKinds loopedConditional)).errors = [] ∧
      List.Forall₂ Token.Agrees (beforeEnd (tokensOfKinds loopedConditional))
        (Stmt.flattenAll (Program.ofTokens (tokensOfKinds loopedConditional)).statements) ∧
      Stmt.areCanonical false sampleStatements = true ∧
      Program.ofTokens (Stmt.flattenAll sampleStatements ++ tokensOfKinds []) =
        { statements := sampleStatements, errors := [] } :=
  ⟨rfl,
    (ofTokens_flattenAll_inverse.1 rfl rfl (by decide) (by decide) rfl).1,
    rfl,
    ofTokens_flattenAll_inverse.2 rfl rfl⟩

end BlockScript
