import BlockScript.Proofs.Machine.Operands

namespace BlockScript

/-!
# Descending through statements

A statement that has been read completes the clauses around it in the reader.
Inside a clause the reader goes on as it does outside, until it completes the
clause or rejects a token, so that a procedure may be followed without regard to
the clauses around it.
-/

namespace Purpose

/-- The mark that ends an expression read for a purpose. -/
def closing : Purpose → Mark
  | .print => .semicolon
  | .statement _ => .semicolon
  | .initial .. => .semicolon
  | .ifCondition => .rightParen
  | .whileCondition => .rightParen
  | .forCondition _ => .semicolon
  | .forStep .. => .rightParen

end Purpose

namespace Reader

/-- An expression is followed by what its purpose demands, or the token in its place is rejected. -/
theorem feedPurpose_reject
    (reader : Reader)
    (expr : Expr)
    {token : Token}
    {purpose : Purpose}
    (differs : token.kind ≠ .mark purpose.closing) :
    reader.feedPurpose expr token purpose = reader.reject token purpose.fault := by
  unfold feedPurpose
  split <;> first | rfl | exact (differs ‹_›).elim

end Reader

namespace Machine

open Descent Grammar Reader

/-- A procedure has read a statement, and the reader has completed it at its place. -/
structure HasCompleted
    (place : Place)
    (bound : Nat)
    (node : StmtNode)
    (later : Situation) :
    Prop where
  laidOut :
    ∃ statement : Stmt,
      node = statement.node ∧ later.place = fun reader => reader.completeAt statement place
  shorter : later.rest.length < bound

section Tracked

variable
  {α : Type} {tokens : List Token} {goal : α → Situation → Prop} {situation : Situation}

/-- An expression is read for its purpose, and then the mark behind it. -/
theorem tracks_expression
    (purpose : Purpose)
    {place : Expr → Reader → Reader}
    {next : Nat → ExprNode → Descent α}
    (stands : situation.place = fun reader => reader.inMode (.operand purpose []))
    (closes :
      ∀ (reader : Reader) expr (token : Token), token.kind = .mark purpose.closing →
        reader.feedPurpose expr token purpose = place expr reader)
    (goesOn :
      ∀ expr later, later.place = place expr → later.rest.length < situation.rest.length →
        Tracks tokens (fun fuel => next fuel expr.node) goal later) :
    Tracks tokens (expression tokens .comma)
      (fun value later =>
        Tracks tokens
          (fun fuel => do
            let _ ← expect tokens (.mark purpose.closing) purpose.fault
            next fuel value)
          goal later)
      situation := by
  refine (expressionTracks tokens _ .comma situation purpose [] (Nat.le_refl _)
    (allows_nil _) stands).mono ?_
  rintro node later ⟨⟨expr, rfl, laterStands⟩, ends, shorter⟩
  refine .of_next fun token rest nextToken => ?_
  rw [nextToken] at ends shorter
  have feeds (reader : Reader) :
      (reader.inMode (.operator purpose [] expr)).feed token =
        reader.feedPurpose expr token purpose :=
    feed_closing reader purpose (by simp) expr ends
  refine .bind (.expect (by simp) nextToken (fun isClosing => ?_) fun differs => ?_)
  · refine .fed laterStands
      (fun reader => (feeds reader).trans (closes reader expr token isClosing)) ?_
    refine goesOn expr _ rfl ?_
    simp only [Situation.seen, Situation.past, List.length_cons] at shorter ⊢
    omega
  · exact finds_rejecting laterStands nextToken rfl fun reader =>
      (feeds reader).trans (feedPurpose_reject reader expr differs)

/-- An expression statement is read at its place. -/
theorem tracks_expressionStatement
    (place : Place)
    (stands :
      situation.place = fun reader => reader.inMode (.operand (.statement place) [])) :
    Tracks tokens (expressionStatement tokens)
      (HasCompleted place situation.rest.length) situation :=
  .bind (tracks_expression (.statement place) stands
    (fun reader expr token (ends : token.kind = .mark .semicolon) => by
      simp only [feedPurpose, ends])
    fun expr later laterStands shorter => .pure ⟨⟨.expression expr, rfl, laterStands⟩, shorter⟩)

/-- A print statement is read. -/
theorem tracks_printStatement
    (stands : situation.place = fun reader => reader.inMode (.operand .print [])) :
    Tracks tokens (printStatement tokens)
      (HasCompleted .alone situation.rest.length) situation :=
  .bind (tracks_expression .print stands
    (fun reader expr token (ends : token.kind = .mark .semicolon) => by
      simp only [feedPurpose, ends]
      exact rfl)
    fun expr later laterStands shorter => .pure ⟨⟨.print expr, rfl, laterStands⟩, shorter⟩)

/-- The word that leaves a loop is noted alike outside every loop. -/
theorem tracks_noteOutsideLoop
    {word : Token}
    {goal : Unit → Situation → Prop}
    (stands :
      situation.place = fun reader =>
        (reader.noting (leaveErrors reader.inLoop word)).inMode (.leave word))
    (reached :
      ∀ later,
        later.place = (fun reader => reader.inMode (.leave word)) →
        later.rest = situation.rest → goal () later) :
    Tracks tokens (fun _ => noteOutsideLoop word) goal situation := by
  unfold noteOutsideLoop
  refine .bind (.of_comes (fun _ => rfl) ?_)
  by_cases outside : situation.cursor.loopDepth = 0
  · have sees :
        situation.Finds fun reader =>
          ((reader.noting [{ token := word, fault := .breakOutsideLoop }]).inMode
            (.leave word)).read situation.rest := by
      intro reader fits
      have notInLoop : reader.inLoop = false := by
        rw [← Bool.not_eq_true, fits.loops]
        exact Nat.not_lt.mpr (Nat.le_of_eq outside)
      simp only [stands, notInLoop]
      rfl
    rw [if_pos outside]
    exact .seen sees (.note (fun reader => rfl) (reached _ rfl rfl))
  · have sees :
        situation.Finds fun reader => (reader.inMode (.leave word)).read situation.rest := by
      intro reader fits
      have inLoop : reader.inLoop = true := fits.loops.mpr (Nat.pos_of_ne_zero outside)
      simp only [stands, inLoop]
      rfl
    rw [if_neg outside]
    exact .seen sees (.pure (reached _ rfl rfl))

/-- A statement that leaves a loop is read behind its word. -/
theorem tracks_leaveStatement
    {before : List Token}
    {word : Token}
    (passed : situation.before = before ++ [word])
    (stands :
      situation.place = fun reader =>
        (reader.noting (leaveErrors reader.inLoop word)).inMode (.leave word)) :
    Tracks tokens (fun _ => leaveStatement tokens)
      (HasCompleted .alone situation.rest.length) situation := by
  refine .bind (.prev passed (.bind (tracks_noteOutsideLoop stands ?_)))
  intro later laterStands sameRest
  refine .of_next fun token rest next => ?_
  refine .bind (.expect (by simp) next (fun ends => ?_) fun differs => ?_)
  · have feeds (reader : Reader) :
        (reader.inMode (.leave word)).feed token = reader.complete (.leave word) := by
      rw [← complete_inMode reader (.leave word)]
      simp [feed, inMode, ends]
    refine .fed laterStands feeds (.pure ⟨⟨.leave word, rfl, rfl⟩, ?_⟩)
    simp [Situation.seen, Situation.past, ← sameRest, next]
  · refine finds_rejecting laterStands next rfl fun reader => ?_
    rw [← reject_inMode reader (.leave word)]
    simp [feed, inMode, differs]

/-- A declaration is read behind its word, at its place. -/
theorem tracks_variableDeclaration
    (place : Place)
    (stands : situation.place = fun reader => reader.inMode (.name place)) :
    Tracks tokens (variableDeclaration tokens)
      (HasCompleted place situation.rest.length) situation := by
  unfold variableDeclaration
  refine .of_next fun name rest next => ?_
  refine .bind (.expect (by simp) next (fun named => ?_) fun differs => ?_)
  · have feeds (reader : Reader) :
        (reader.inMode (.name place)).feed name = reader.inMode (.afterName place name) := by
      simp [feed, inMode, named]
    refine .fed stands feeds (.of_next fun token after nextToken => ?_)
    replace nextToken : rest = token :: after := nextToken
    unfold initialValue
    refine .bind (.accept (by simp) nextToken (fun assigns => ?_) fun notEqual => ?_)
    · have feedsEqual (reader : Reader) :
          (reader.inMode (.afterName place name)).feed token =
            reader.inMode (.operand (.initial place name) []) := by
        simp [feed, inMode, List.mem_singleton.mp assigns]
      refine .fed rfl feedsEqual (tracks_expression (.initial place name) rfl
        (fun reader expr token (ends : token.kind = .mark .semicolon) => by
          simp only [feedPurpose, ends])
        fun expr later laterStands shorter =>
          .pure ⟨⟨.declare name (some expr), rfl, laterStands⟩, ?_⟩)
      simp only [Situation.seen, Situation.past] at shorter
      simp only [next, nextToken, List.length_cons]
      omega
    · refine .pure (.bind (.expect (by simp) nextToken (fun ends => ?_) fun differs => ?_))
      · have feedsEnd (reader : Reader) :
            (reader.inMode (.afterName place name)).feed token =
              reader.completeAt (.declare name none) place := by
          rw [← completeAt_inMode reader (.afterName place name)]
          simp [feed, inMode, ends]
        refine .fed rfl feedsEnd (.pure ⟨⟨.declare name none, rfl, rfl⟩, ?_⟩)
        simp only [Situation.seen, Situation.past, next, nextToken, List.length_cons]
        omega
      · refine finds_rejecting rfl nextToken rfl fun reader => ?_
        rw [← reject_inMode reader (.afterName place name)]
        simp only [feed, inMode]
        split <;> simp_all
  · refine finds_rejecting stands next rfl fun reader => ?_
    rw [← reject_inMode reader (.name place)]
    simp [feed, inMode, differs]

/-- The place of a statement that may be left out. -/
def optionalNode : Option Stmt → StmtNode
  | none => .missing
  | some statement => statement.node

/-- The first part of the header of a counting loop is read. -/
theorem tracks_forInitial
    (stands : situation.place = fun reader => reader.inMode .forInitial) :
    Tracks tokens (forInitial tokens)
      (fun node later =>
        (∃ initial, node = optionalNode initial ∧
          later.place = fun reader => reader.inMode (.forCondition initial)) ∧
          later.rest.length < situation.rest.length)
      situation := by
  unfold forInitial
  refine .of_next fun token rest next => ?_
  refine .accept (by simp) next (fun ends => ?_) fun notEnd => ?_
  · have feeds (reader : Reader) :
        (reader.inMode .forInitial).feed token = reader.inMode (.forCondition none) := by
      simp [feed, inMode, List.mem_singleton.mp ends]
    refine .fed stands feeds (.pure ⟨⟨none, rfl, rfl⟩, ?_⟩)
    simp [Situation.seen, Situation.past, next]
  refine .accept (by simp) next (fun begins => ?_) fun notVar => ?_
  · have feeds (reader : Reader) :
        (reader.inMode .forInitial).feed token = reader.inMode (.name .loopHeader) := by
      simp [feed, inMode, List.mem_singleton.mp begins]
    refine .fed stands feeds ((tracks_variableDeclaration .loopHeader rfl).mono ?_)
    rintro node later ⟨⟨statement, rfl, laterStands⟩, shorter⟩
    refine ⟨⟨some statement, rfl, laterStands⟩, ?_⟩
    simp only [Situation.seen, Situation.past] at shorter
    simp only [next, List.length_cons]
    omega
  · have feeds (reader : Reader) :
        (reader.inMode .forInitial).feed token =
          (reader.inMode (.operand (.statement .loopHeader) [])).feed token := by
      rw [feed_operand, ← feedOperand_inMode reader .forInitial]
      simp only [feed, inMode]
      split <;> simp_all
    refine .expecting _ stands next rfl rfl feeds
      ((tracks_expressionStatement .loopHeader rfl).mono ?_)
    rintro node later ⟨⟨statement, rfl, laterStands⟩, shorter⟩
    exact ⟨⟨some statement, rfl, laterStands⟩, shorter⟩

/-- A part of a header that may be left out is read, and the mark behind it. -/
theorem tracks_optionalBefore
    (mode : Mode)
    (purpose : Purpose)
    (place : Option Expr → Reader → Reader)
    (stands : situation.place = fun reader => reader.inMode mode)
    (inside : mode.isInside = true)
    (leftOut :
      ∀ (reader : Reader) (token : Token), token.kind = .mark purpose.closing →
        (reader.inMode mode).feed token = place none reader)
    (begins :
      ∀ (reader : Reader) (token : Token), token.kind ≠ .mark purpose.closing →
        (reader.inMode mode).feed token = reader.feedOperand purpose [] token)
    (closes :
      ∀ (reader : Reader) expr (token : Token), token.kind = .mark purpose.closing →
        reader.feedPurpose expr token purpose = place (some expr) reader) :
    Tracks tokens (optionalBefore tokens (.mark purpose.closing) purpose.fault)
      (fun node later =>
        (∃ value, node = Expr.optionalNode value ∧ later.place = place value) ∧
          later.rest.length < situation.rest.length)
      situation := by
  unfold optionalBefore expressionUnless
  refine .of_next fun token rest next => ?_
  refine .bind (.bind (.check (by simp) next ?_))
  by_cases isClosing : token.kind = .mark purpose.closing
  · simp only [isClosing, decide_true, ↓reduceIte]
    refine .pure (.bind (.expect (by simp) next (fun _ => ?_) fun differs => ?_))
    · refine .fed stands (fun reader => leftOut reader token isClosing)
        (.pure ⟨⟨none, rfl, rfl⟩, ?_⟩)
      simp [Situation.seen, Situation.past, next]
    · exact (differs isClosing).elim
  · simp only [isClosing, decide_false, Bool.false_eq_true, ↓reduceIte]
    refine .expecting (.operand purpose []) stands next inside rfl
      (fun reader => ?_) (tracks_expression purpose rfl closes ?_)
    · rw [begins reader token isClosing, feed_operand]
    · intro expr later laterStands shorter
      exact .pure ⟨⟨some expr, rfl, laterStands⟩, shorter⟩

/-- The second part of the header of a counting loop is read. -/
theorem tracks_forCondition
    (initial : Option Stmt)
    (stands : situation.place = fun reader => reader.inMode (.forCondition initial)) :
    Tracks tokens
      (optionalBefore tokens (.mark .semicolon) .expectSemicolonAfterLoopCondition)
      (fun node later =>
        (∃ condition, node = Expr.optionalNode condition ∧
          later.place = fun reader => reader.inMode (.forStep initial condition)) ∧
          later.rest.length < situation.rest.length)
      situation := by
  refine tracks_optionalBefore (.forCondition initial) (.forCondition initial)
    (fun condition reader => reader.inMode (.forStep initial condition)) stands rfl ?_ ?_ ?_
  · intro reader token ends
    simp [feed, inMode, show token.kind = .mark .semicolon from ends]
  · intro reader token begins
    rw [← feedOperand_inMode reader (.forCondition initial)]
    simp [feed, inMode, show token.kind ≠ .mark .semicolon from begins]
  · intro reader expr token ends
    simp [feedPurpose, inMode, show token.kind = .mark .semicolon from ends]

/-- The third part of the header of a counting loop is read. -/
theorem tracks_forStep
    (initial : Option Stmt)
    (condition : Option Expr)
    (stands : situation.place = fun reader => reader.inMode (.forStep initial condition)) :
    Tracks tokens
      (optionalBefore tokens (.mark .rightParen) .expectParenAfterForClauses)
      (fun node later =>
        (∃ step, node = Expr.optionalNode step ∧
          later.place = fun reader => reader.await (.forBody initial condition step)) ∧
          later.rest.length < situation.rest.length)
      situation := by
  refine tracks_optionalBefore (.forStep initial condition) (.forStep initial condition)
    (fun step reader => reader.await (.forBody initial condition step)) stands rfl ?_ ?_ ?_
  · intro reader token closes
    simp [feed, inMode, await, show token.kind = .mark .rightParen from closes]
  · intro reader token begins
    rw [← feedOperand_inMode reader (.forStep initial condition)]
    simp [feed, inMode, show token.kind ≠ .mark .rightParen from begins]
  · intro reader expr token closes
    simp [feedPurpose, show token.kind = .mark .rightParen from closes]

end Tracked

end Machine

end BlockScript
