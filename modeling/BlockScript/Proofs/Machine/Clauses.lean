import BlockScript.Proofs.Machine.Statements

namespace BlockScript

/-!
# Descending through clauses

The statement inside a clause is followed by a reader that does not know of the
clause.  Such a reader rejects what one inside the clause rejects, and what it
completes fills the clause.
-/

namespace Reader

/-- A clause around the statement does not keep a token from being rejected. -/
theorem reject_within
    (reader : Reader)
    (clause : Clause)
    (token : Token)
    (fault : GrammarFault) :
    (reader.within clause).reject token fault = reader.reject token fault := by
  have closes :
      ((reader.within clause).record { token, fault }).closedBy? token =
        (reader.record { token, fault }).closedBy? token := by
    unfold closedBy?
    rfl
  unfold reject
  dsimp only
  rw [closes]
  rfl

/-- A clause around the statement does not keep the next token from being rejected. -/
theorem rejecting_within
    (reader : Reader)
    (clause : Clause)
    (fault : GrammarFault)
    (tokens : List Token) :
    (reader.within clause).rejecting fault tokens = reader.rejecting fault tokens := by
  cases tokens with
  | nil => rfl
  | cons token rest => simp only [rejecting, reject_within]

/-- A statement completes the clause around it, unless an alternative may follow. -/
theorem complete_within
    (reader : Reader)
    {clause : Clause}
    (noAlternative : ∀ condition, clause ≠ .ifThen condition)
    (statement : Stmt) :
    (reader.within clause).complete statement = reader.complete (clause.fill statement) := by
  cases clause with
  | ifThen condition => exact (noAlternative condition rfl).elim
  | _ => exact completeIn_within reader _ _ reader.clauses

/-- Only an `else` tells whether a conditional has been settled. -/
theorem read_settled
    (reader : Reader)
    {token : Token}
    (notElse : token.kind ≠ .keyword .elseWord)
    (rest : List Token) :
    reader.settled.read (token :: rest) = reader.read (token :: rest) := by
  simp only [read, finish_settled, feed_settled reader notElse]

/-- Without an alternative a conditional is complete. -/
theorem read_afterThen
    (reader : Reader)
    (condition : Expr)
    (thenBranch : Stmt)
    {token : Token}
    (notElse : token.kind ≠ .keyword .elseWord)
    (rest : List Token) :
    (reader.inMode (.afterThen condition thenBranch)).read (token :: rest) =
      (reader.complete (.ifThen condition thenBranch)).read (token :: rest) := by
  rw [← read_settled _ notElse, ← read_settled (reader.complete _) notElse, settled_complete]
  rfl

end Reader

/-- What is expected behind the parenthesis that begins a header. -/
def Header.opened : Header → Mode
  | .ifHeader => .operand .ifCondition []
  | .whileHeader => .operand .whileCondition []
  | .forHeader => .forInitial

namespace Machine

open Descent Grammar Reader

namespace Situation

variable
  {clause : Clause} {depth : Nat} {noted : List GrammarError} {situation later : Situation}

/-- The situation inside a clause, with the given number of loops counted outside it. -/
def within
    (clause : Clause)
    (depth : Nat)
    (situation : Situation) :
    Situation :=
  { situation with
    loopDepth := depth
    place := fun reader => situation.place (reader.within clause) }

/-- What leads on leads on inside a clause. -/
theorem Leads.within
    (leads : situation.Leads noted later)
    (fits :
      ∀ reader : Reader,
        reader.Fits depth situation.blockDepth →
        (reader.within clause).Fits situation.loopDepth situation.blockDepth) :
    (situation.within clause depth).Leads noted (later.within clause depth) where
  toMoves := ⟨leads.passed, rfl, leads.blockDepth_eq, leads.errors_eq⟩
  finds reader outside := leads.finds (reader.within clause) (fits reader outside)

/-- What is rejected is rejected inside a clause. -/
theorem Blames.within
    {error : GrammarError}
    (blames : situation.Blames error)
    (fits :
      ∀ reader : Reader,
        reader.Fits depth situation.blockDepth →
        (reader.within clause).Fits situation.loopDepth situation.blockDepth) :
    (situation.within clause depth).Blames error where
  next := blames.next
  finds reader outside :=
    (blames.finds (reader.within clause) (fits reader outside)).trans
      (rejecting_within reader clause error.fault situation.rest)

end Situation

/-- A clause that is not a loop leaves the number of loops as it is. -/
theorem fits_within
    {clause : Clause}
    (notLoop : clause.isLoop = false)
    {loopDepth blockDepth : Nat}
    (reader : Reader)
    (fits : reader.Fits loopDepth blockDepth) :
    (reader.within clause).Fits loopDepth blockDepth where
  loops := by
    rw [inLoop_within, notLoop, Bool.false_or]
    exact fits.loops
  blocks := fits.blocks

/-- A loop counts. -/
theorem fits_within_loop
    {clause : Clause}
    (isLoop : clause.isLoop = true)
    {loopDepth blockDepth : Nat}
    (reader : Reader)
    (fits : reader.Fits loopDepth blockDepth) :
    (reader.within clause).Fits (loopDepth + 1) blockDepth where
  loops := by
    rw [inLoop_within, isLoop]
    simp
  blocks := fits.blocks

/-- A procedure is followed inside a clause as it is outside. -/
theorem Tracks.within
    {α : Type}
    {tokens : List Token}
    {procedure : Nat → Descent α}
    {clause : Clause}
    {goal : α → Situation → Prop}
    {situation : Situation}
    (notLoop : clause.isLoop = false)
    (tracks :
      Tracks tokens procedure
        (fun value later => goal value (later.within clause situation.loopDepth)) situation) :
    Tracks tokens procedure goal (situation.within clause situation.loopDepth) := by
  intro inside
  obtain ⟨outcome, noted, later, settles, leads, ends⟩ :=
    tracks ⟨inside.tokens_eq, inside.hasEnd⟩
  have sameDepth : later.loopDepth = situation.loopDepth := leads.loopDepth_eq
  have sameCursor : (later.within clause situation.loopDepth).cursor = later.cursor := by
    simp [Situation.within, Situation.cursor, sameDepth]
  refine ⟨outcome, noted, later.within clause situation.loopDepth, sameCursor ▸ settles,
    leads.within (fits_within notLoop), ?_⟩
  · cases outcome with
    | ok value => exact ends
    | error error =>
        refine Situation.Blames.within ends ?_
        rw [sameDepth]
        exact fits_within notLoop

/-- Statements are tracked while no more than the given number of tokens is ahead. -/
def StatementTracks
    (tokens : List Token)
    (size : Nat) :
    Prop :=
  ∀ situation : Situation,
    situation.rest.length ≤ size →
    (situation.place = fun reader => reader.inMode .statement) →
    Tracks tokens (statement tokens) (HasCompleted .alone situation.rest.length) situation

section Tracked

variable {tokens : List Token} {situation : Situation} {size : Nat}

/-- The body of a loop is left however it ends. -/
theorem settles_loopBody
    {cursor after : Cursor}
    {outcome : Except GrammarError StmtNode}
    (settles :
      Settles (statement tokens) { cursor with loopDepth := cursor.loopDepth + 1 } outcome after) :
    Settles (loopBody tokens) cursor outcome { after with loopDepth := after.loopDepth - 1 } := by
  refine .deeper (fun _ => rfl) (settles.imp fun fuel comes => ?_)
  unfold Comes at comes
  change Option.bind ((statement tokens fuel).run.run _) _ = _
  rw [comes]
  rfl

/-- The body of a loop completes the loop. -/
theorem tracks_loopBody
    (shorter : StatementTracks tokens size)
    {clause : Clause}
    (isLoop : clause.isLoop = true)
    (within : situation.rest.length ≤ size)
    (stands : situation.place = fun reader => reader.await clause) :
    Tracks tokens (loopBody tokens)
      (fun node later =>
        (∃ body : Stmt,
          node = body.node ∧ later.place = fun reader => reader.complete (clause.fill body)) ∧
          later.rest.length < situation.rest.length)
      situation := by
  intro inside
  let inner : Situation :=
    { situation with
      loopDepth := situation.loopDepth + 1
      place := fun reader => reader.inMode .statement }
  obtain ⟨outcome, noted, later, settles, leads, ends⟩ :=
    shorter inner within rfl ⟨inside.tokens_eq, inside.hasEnd⟩
  have sameDepth : later.loopDepth = situation.loopDepth + 1 := leads.loopDepth_eq
  have outer : situation = inner.within clause situation.loopDepth := by
    simp only [inner, Situation.within, ← await_eq, ← stands]
  have sameCursor :
      { later.cursor with loopDepth := later.cursor.loopDepth - 1 } =
        (later.within clause situation.loopDepth).cursor := by
    simp [Situation.within, Situation.cursor, sameDepth]
  refine ⟨outcome, noted, later.within clause situation.loopDepth,
    sameCursor ▸ settles_loopBody settles, ?_, ?_⟩
  · rw [outer]
    exact leads.within (fits_within_loop isLoop)
  · cases outcome with
    | ok node =>
        obtain ⟨⟨body, rfl, laterStands⟩, isShorter⟩ := ends
        refine ⟨⟨body, rfl, ?_⟩, isShorter⟩
        funext reader
        have noAlternative : ∀ condition, clause ≠ .ifThen condition := by
          rintro condition rfl
          cases isLoop
        simp only [Situation.within, laterStands]
        exact complete_within reader noAlternative body
    | error error =>
        refine Situation.Blames.within ends ?_
        rw [sameDepth]
        exact fits_within_loop isLoop

/-- The parenthesis that begins a header is read. -/
theorem tracks_header
    {α : Type}
    {goal : α → Situation → Prop}
    (header : Header)
    {next : Nat → Descent α}
    (stands : situation.place = fun reader => reader.inMode (.header header))
    (goesOn :
      ∀ later,
        (later.place = fun reader => reader.inMode header.opened) →
        later.rest.length < situation.rest.length → Tracks tokens next goal later) :
    Tracks tokens
      (fun fuel => do
        let _ ← expect tokens (.mark .leftParen) header.fault
        next fuel)
      goal situation := by
  refine .of_next fun token rest nextToken => ?_
  refine .bind (.expect (by simp) nextToken (fun opens => ?_) fun differs => ?_)
  · have feeds (reader : Reader) :
        (reader.inMode (.header header)).feed token = reader.inMode header.opened := by
      cases header <;> simp [feed, inMode, opens, Header.opened]
    refine .fed stands feeds (goesOn _ rfl ?_)
    simp [Situation.seen, Situation.past, nextToken]
  · refine finds_rejecting stands nextToken rfl fun reader => ?_
    rw [← reject_inMode reader (.header header)]
    simp [feed, inMode, differs]

/-- A loop with a condition is read. -/
theorem tracks_whileStatement
    (shorter : StatementTracks tokens size)
    (within : situation.rest.length ≤ size)
    (stands : situation.place = fun reader => reader.inMode (.header .whileHeader)) :
    Tracks tokens (whileStatement tokens)
      (HasCompleted .alone situation.rest.length) situation := by
  refine .deeper (fun _ => rfl) ?_
  refine tracks_header .whileHeader stands fun opened openedStands openedShorter => ?_
  refine .bind (tracks_expression .whileCondition openedStands
    (fun reader expr token (closes : token.kind = .mark .rightParen) => by
      simp only [feedPurpose, closes]
      exact rfl) ?_)
  intro condition begun begunStands begunShorter
  refine .bind ((tracks_loopBody shorter rfl (by omega) begunStands).mono ?_)
  rintro node later ⟨⟨body, rfl, laterStands⟩, laterShorter⟩
  exact .pure ⟨⟨.loop condition body, rfl, laterStands⟩, by omega⟩

/-- A counting loop is laid out from its parts. -/
theorem forLoop_node
    (initial : Option Stmt)
    (condition step : Option Expr)
    (body : Stmt) :
    StmtNode.forLoop (optionalNode initial) (Expr.optionalNode condition)
        (Expr.optionalNode step) body.node =
      (Stmt.forLoop initial condition step body).node := by
  have first : (optionalNode initial).present = Stmt.nodes initial.toList := by
    cases initial with
    | none => rfl
    | some initial => cases initial <;> rfl
  have tested :
      (Expr.optionalNode condition).orTrue = (condition.getD (.literal (.bool true))).node := by
    cases condition with
    | none => rfl
    | some condition => cases condition <;> rfl
  have stepped :
      (Expr.optionalNode step).steps = Stmt.nodes (step.toList.map .expression) := by
    cases step with
    | none => rfl
    | some step => cases step <;> rfl
  simp only [StmtNode.forLoop, first, tested, stepped, Stmt.forLoop, Stmt.node, Stmt.nodes_append,
    Stmt.nodes]

/-- A counting loop is read. -/
theorem tracks_forStatement
    (shorter : StatementTracks tokens size)
    (within : situation.rest.length ≤ size)
    (stands : situation.place = fun reader => reader.inMode (.header .forHeader)) :
    Tracks tokens (forStatement tokens)
      (HasCompleted .alone situation.rest.length) situation := by
  refine .deeper (fun _ => rfl) ?_
  refine tracks_header .forHeader stands fun opened openedStands openedShorter => ?_
  refine .bind ((tracks_forInitial openedStands).mono ?_)
  rintro _ second ⟨⟨initial, rfl, secondStands⟩, secondShorter⟩
  refine .bind ((tracks_forCondition initial secondStands).mono ?_)
  rintro _ third ⟨⟨condition, rfl, thirdStands⟩, thirdShorter⟩
  refine .bind ((tracks_forStep initial condition thirdStands).mono ?_)
  rintro _ begun ⟨⟨step, rfl, begunStands⟩, begunShorter⟩
  refine .bind ((tracks_loopBody shorter rfl (by omega) begunStands).mono ?_)
  rintro _ later ⟨⟨body, rfl, laterStands⟩, laterShorter⟩
  rw [forLoop_node]
  exact .pure ⟨⟨.forLoop initial condition step body, rfl, laterStands⟩, by omega⟩

/-- A statement inside a clause that is not a loop is read. -/
theorem tracks_branch
    (shorter : StatementTracks tokens size)
    {clause : Clause}
    (notLoop : clause.isLoop = false)
    (within : situation.rest.length ≤ size)
    (stands : situation.place = fun reader => reader.await clause) :
    Tracks tokens (statement tokens)
      (fun node later =>
        (∃ branch : Stmt,
          node = branch.node ∧
            later.place = fun reader => (reader.within clause).complete branch) ∧
          later.rest.length < situation.rest.length)
      situation := by
  have outer :
      situation =
        (situation.seen fun reader => reader.inMode .statement).within clause
          situation.loopDepth := by
    simp only [Situation.seen, Situation.within, ← await_eq, ← stands]
  rw [outer]
  have tracks := shorter (situation.seen fun reader => reader.inMode .statement) within rfl
  refine .within notLoop (tracks.mono ?_)
  rintro node later ⟨⟨branch, rfl, laterStands⟩, isShorter⟩
  refine ⟨⟨branch, rfl, ?_⟩, isShorter⟩
  simp only [Situation.within, laterStands]
  rfl

/-- A conditional statement is read, with the alternative that follows it. -/
theorem tracks_ifStatement
    (shorter : StatementTracks tokens size)
    (within : situation.rest.length ≤ size)
    (stands : situation.place = fun reader => reader.inMode (.header .ifHeader)) :
    Tracks tokens (ifStatement tokens)
      (HasCompleted .alone situation.rest.length) situation := by
  refine .deeper (fun _ => rfl) ?_
  refine tracks_header .ifHeader stands fun opened openedStands openedShorter => ?_
  refine .bind (tracks_expression .ifCondition openedStands
    (fun reader expr token (closes : token.kind = .mark .rightParen) => by
      simp only [feedPurpose, closes]
      exact rfl) ?_)
  intro condition begun begunStands begunShorter
  refine .bind ((tracks_branch shorter rfl (by omega) begunStands).mono ?_)
  rintro _ chosen ⟨⟨thenBranch, rfl, chosenStands⟩, chosenShorter⟩
  replace chosenStands :
      chosen.place = fun reader => reader.inMode (.afterThen condition thenBranch) :=
    chosenStands
  refine .of_next fun token rest next => ?_
  refine .accept (by simp) next (fun isElse => ?_) fun notElse => ?_
  · have feeds (reader : Reader) :
        (reader.inMode (.afterThen condition thenBranch)).feed token =
          reader.await (.ifElse condition thenBranch) := by
      simp [feed, inMode, await, List.mem_singleton.mp isElse]
    simp only [next, List.length_cons] at chosenShorter
    refine .fed chosenStands feeds (.bind ((tracks_branch shorter rfl ?_ rfl).mono ?_))
    · simp only [Situation.seen, Situation.past]
      omega
    rintro _ later ⟨⟨elseBranch, rfl, laterStands⟩, laterShorter⟩
    simp only [Situation.seen, Situation.past] at laterShorter
    refine .pure ⟨⟨.ifElse condition thenBranch elseBranch, rfl, ?_⟩, by omega⟩
    rw [laterStands]
    funext reader
    exact complete_within reader (by simp) elseBranch
  · have sees :
        chosen.Finds fun reader =>
          (reader.complete (.ifThen condition thenBranch)).read chosen.rest := by
      intro reader _
      rw [next, chosenStands]
      exact read_afterThen reader condition thenBranch (by simpa using notElse) rest
    exact .seen sees (.pure ⟨⟨.ifThen condition thenBranch, rfl, rfl⟩, by
      simp only [Situation.seen]
      omega⟩)

end Tracked

end Machine

end BlockScript
