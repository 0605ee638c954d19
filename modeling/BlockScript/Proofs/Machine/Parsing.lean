import BlockScript.Proofs.Machine.Clauses
import BlockScript.Proofs.Machine.Recovery

namespace BlockScript

/-!
# Reading whole programs

The machine reads the declarations of a block one after the other, and those of a
program likewise.  Each passes at least one token, whether it is read or dropped,
so that every list of declarations comes to an end; the reader gathers the same
statements and the same errors.
-/

namespace Reader

/-- At the end of the input an open block counts as an error, and what it holds is dropped. -/
theorem finish_opened
    (reader : Reader)
    (statements : List Stmt)
    {token : Token}
    (ends : token.kind = .endOfInput) :
    (reader.opened.adding statements).finish token =
      (reader.reject token .expectBraceAfterBlock).finish token := by
  have kept :
      (reader.opened.adding statements).kept =
        (reader.noting [{ token, fault := .expectBraceAfterBlock }]).resting.kept := by
    cases isOuter : reader.outer with
    | nil => simp [Reader.kept, opened, adding, resting, noting, isOuter]
    | cons block outer =>
        simp [Reader.kept, opened, adding, resting, noting, isOuter, List.getLast?_cons]
  have stays : token.kind = .mark .rightBrace → reader.outer = [] := by
    simp [ends]
  rw [reject_of_stays reader stays, finish_modeBehind]
  simp only [finish, endStatement, program, Program.mk.injEq]
  refine ⟨congrArg List.reverse kept, ?_⟩
  simp [opened, adding, resting, noting, inMode, List.replicate_succ', List.append_assoc]

end Reader

namespace Machine

open Descent Grammar Reader

namespace Situation

/-- A later situation, behind whole declarations out of which the reader gathers statements. -/
structure Gathers
    (noted : List GrammarError)
    (statements : List Stmt)
    (situation later : Situation) :
    Prop extends situation.Moves noted later where
  finds :
    ∀ reader : Reader,
      reader.Fits situation.loopDepth situation.blockDepth →
      reader.clauses = [] →
      (reader.inMode .declaration).read situation.rest =
        (((reader.noting noted).adding statements).inMode .declaration).read later.rest

namespace Gathers

variable
  {first second third : Situation} {firstNoted secondNoted : List GrammarError}
  {firstStatements secondStatements : List Stmt}

/-- Nothing is gathered where a list of declarations begins. -/
theorem refl
    (situation : Situation) :
    situation.Gathers [] [] situation where
  toMoves := .of_eq rfl rfl rfl rfl (by simp)
  finds _ _ _ := rfl

/-- What is gathered is gathered together. -/
theorem trans
    (gathers : first.Gathers firstNoted firstStatements second)
    (goesOn : second.Gathers secondNoted secondStatements third) :
    first.Gathers (firstNoted ++ secondNoted) (firstStatements ++ secondStatements) third where
  toMoves := gathers.toMoves.trans goesOn.toMoves
  finds reader fits alone := by
    have fitsLater := gathers.fits fits
    have together :
        (((reader.noting firstNoted).adding firstStatements).noting secondNoted).adding
            secondStatements =
          (reader.noting (firstNoted ++ secondNoted)).adding
            (firstStatements ++ secondStatements) := by
      simp [noting, adding]
    rw [gathers.finds reader fits alone,
      goesOn.finds ((reader.noting firstNoted).adding firstStatements)
        ⟨fitsLater.loops, fitsLater.blocks⟩ alone, together]

end Gathers

/-- A list of declarations ends at an end token, and a block also at its closing brace. -/
def EndsList
    (situation : Situation)
    (token : Token) :
    Prop :=
  token.kind = .endOfInput ∨ (token.kind = .mark .rightBrace ∧ 0 < situation.blockDepth)

end Situation

section Tracked

variable {tokens rest : List Token} {token : Token} {situation : Situation} {size : Nat}

/-- A statement that was read within fewer tokens was read within more. -/
theorem HasCompleted.mono
    {place : Place}
    {bound further : Nat}
    {node : StmtNode}
    {later : Situation}
    (completed : HasCompleted place bound node later)
    (le : bound ≤ further) :
    HasCompleted place further node later :=
  ⟨completed.laidOut, Nat.lt_of_lt_of_le completed.shorter le⟩

/-- A declaration or a statement is read where a list of declarations goes on. -/
theorem tracks_declaration
    (shorter : StatementTracks tokens size)
    (within : situation.rest.length ≤ size)
    (stands : situation.place = fun reader => reader.inMode .declaration)
    (next : situation.rest = token :: rest)
    (goesOn : ¬situation.EndsList token) :
    Tracks tokens (declaration tokens)
      (HasCompleted .alone situation.rest.length) situation := by
  refine .deeper (fun _ => rfl) ?_
  refine .accept (by simp) next (fun begins => ?_) fun notVar => ?_
  · have isVar : token.kind = .keyword .varWord := List.mem_singleton.mp begins
    have feeds (reader : Reader) :
        (reader.inMode .declaration).feed token = reader.inMode (.name .alone) := by
      rw [feed_declaration rfl, feedDeclaration_inMode]
      simp [feedDeclaration, closedBy?_eq_none, isVar, inMode]
    refine .fed stands feeds ((tracks_variableDeclaration .alone rfl).mono ?_)
    intro node later completed
    refine completed.mono ?_
    simp [Situation.seen, Situation.past, next]
  · have sees :
        situation.Finds fun reader => (reader.inMode .statement).read situation.rest := by
      intro reader fits
      have stays : token.kind = .mark .rightBrace → reader.outer = [] := by
        intro isBrace
        have noBlock : ¬0 < situation.blockDepth := fun isOpen => goesOn (.inr ⟨isBrace, isOpen⟩)
        exact List.length_eq_zero_iff.mp (fits.blocks.trans (Nat.eq_zero_of_not_pos noBlock))
      have notEnd : token.kind ≠ .endOfInput := fun isEnd => goesOn (.inl isEnd)
      have fed :
          (reader.inMode .declaration).feed token = (reader.inMode .statement).feed token := by
        rw [feed_declaration rfl, feedDeclaration_inMode, feed_statement]
        rw [List.mem_singleton] at notVar
        simp [feedDeclaration, closedBy?_eq_none stays, notVar]
      rw [next, stands]
      simp only [Reader.read, notEnd, ↓reduceIte, fed]
    exact .seen sees (shorter _ within rfl)

/-- A declaration that was read is one more statement of its list. -/
theorem settles_declarationOrNone
    {cursor after : Cursor}
    {node : StmtNode}
    (settles : Settles (declaration tokens) cursor (.ok node) after) :
    Settles (declarationOrNone tokens) cursor (.ok [node]) after := by
  refine .deeper (fun _ => rfl) (settles.imp fun fuel comes => ?_)
  unfold Comes at comes
  change Option.bind ((declaration tokens fuel).run.run _) _ = _
  rw [comes]
  rfl

/-- The error of a declaration is noted, and the declaration dropped. -/
theorem settles_declarationOrNone_error
    {cursor after last : Cursor}
    {error : GrammarError}
    (settles : Settles (declaration tokens) cursor (.error error) after)
    (recovers :
      Settles (recover tokens) { after with errors := after.errors ++ [error] } (.ok ()) last) :
    Settles (declarationOrNone tokens) cursor (.ok []) last := by
  have drops : Settles (dropAfter tokens error) after (.ok []) last :=
    Comes.bind_settles rfl (recovers.bind (.of_comes rfl))
  refine .deeper (fun _ => rfl) ((settles.and drops).imp ?_)
  rintro fuel ⟨comes, dropsThen⟩
  unfold Comes at comes
  change Option.bind ((declaration tokens fuel).run.run _) _ = _
  rw [comes]
  exact dropsThen

/-- A statement completed outside every clause is one more of its list. -/
theorem complete_of_clauses_eq_nil
    {reader : Reader}
    (alone : reader.clauses = [])
    (statement : Stmt) :
    reader.complete statement = (reader.adding [statement]).inMode .declaration := by
  simp [complete, completeIn, alone, adding, inMode]

/-- Behind the error of a declaration the reader rests where the machine recovers. -/
theorem exists_gathers_of_blames
    {error : GrammarError}
    {noted : List GrammarError}
    {later : Situation}
    (inside : situation.In tokens)
    (next : situation.rest = token :: rest)
    (goesOn : ¬situation.EndsList token)
    (stands : situation.place = fun reader => reader.inMode .declaration)
    (leads : situation.Leads noted later)
    (blames : later.Blames error) :
    ∃ last,
      Settles (recover tokens) { later.cursor with errors := later.errors ++ [error] }
          (.ok ()) last.cursor ∧
        situation.Gathers (noted ++ [error]) [] last ∧
          last.rest.length < situation.rest.length := by
  obtain ⟨passed, before, split, inner⟩ := leads.passed
  obtain ⟨blamed, after, laterRest⟩ := (leads.isIn inside).exists_next
  have isBlamed : error.token = blamed := by
    have isNext := blames.next
    rw [laterRest] at isNext
    exact (Option.some.inj isNext).symm
  have atStart (none : passed = []) : blamed = token := by
    rw [none, laterRest, next] at split
    exact (List.cons.inj split).1.symm
  have hasEnd := (leads.isIn inside).hasEnd
  have stands' :
      Cursor.Stands tokens later.before (blamed :: after)
        { later.cursor with errors := later.errors ++ [error] } :=
    ⟨laterRest ▸ (leads.isIn inside).tokens_eq, rfl⟩
  rw [laterRest] at hasEnd
  have begun : blamed.kind = .endOfInput → later.before ≠ [] := by
    rintro isEnd none
    have nonePassed : passed = [] := (List.append_eq_nil_iff.mp (before.symm.trans none)).2
    exact goesOn (.inl (atStart nonePassed ▸ isEnd))
  obtain ⟨skipped, lastRest, recovers, splitLater, innerSkipped, stops, found⟩ :=
    exists_settles_recover stands' hasEnd begun error.fault
  let last : Situation :=
    { later with
      before := later.before ++ skipped
      rest := lastRest
      errors := later.errors ++ [error] }
  have recovered : later.Moves [error] last :=
    ⟨⟨skipped, rfl, by rw [laterRest, splitLater], innerSkipped⟩, rfl, rfl, rfl⟩
  refine ⟨last, ?_, ⟨leads.toMoves.trans recovered, ?_⟩, ?_⟩
  · simpa [last, Cursor.behind, Situation.cursor] using recovers
  · intro reader fits alone
    have fitsLater := leads.fits fits
    calc
      (reader.inMode .declaration).read situation.rest
          = (situation.place reader).read situation.rest := by rw [stands]
      _ = (later.place (reader.noting noted)).read later.rest := leads.finds reader fits
      _ = (reader.noting noted).rejecting error.fault later.rest := blames.finds _ fitsLater
      _ = ((reader.noting noted).noting [error]).resting.read lastRest := by
          rw [laterRest, found _ fitsLater.blocks, ← isBlamed]
      _ = (((reader.noting (noted ++ [error])).adding []).inMode .declaration).read last.rest := by
          simp [last, resting, noting, adding, inMode, alone]
  · have progress : passed ++ skipped ≠ [] := by
      intro none
      obtain ⟨nonePassed, noneSkipped⟩ := List.append_eq_nil_iff.mp none
      have ends := stops noneSkipped
      rw [atStart nonePassed] at ends
      refine goesOn (ends.imp_right (And.imp_right fun isOpen => ?_))
      rw [← leads.blockDepth_eq]
      exact isOpen
    have isPositive := List.length_pos_iff.mpr progress
    simp only [split, laterRest, splitLater, List.length_append, last] at isPositive ⊢
    omega

/-- A declaration of a list is read or dropped, and passes at least one token. -/
theorem exists_settles_declarationOrNone
    (shorter : StatementTracks tokens size)
    (within : situation.rest.length ≤ size)
    (inside : situation.In tokens)
    (next : situation.rest = token :: rest)
    (goesOn : ¬situation.EndsList token) :
    ∃ noted statements later,
      Settles (declarationOrNone tokens) situation.cursor (.ok (Stmt.nodes statements))
          later.cursor ∧
        situation.Gathers noted statements later ∧
          later.rest.length < situation.rest.length := by
  let expecting := situation.seen fun reader => reader.inMode .declaration
  have expectingIn : expecting.In tokens := ⟨inside.tokens_eq, inside.hasEnd⟩
  have tracks :
      Tracks tokens (declaration tokens)
        (HasCompleted .alone situation.rest.length) expecting :=
    tracks_declaration shorter within rfl next goesOn
  obtain ⟨outcome, noted, later, settles, leads, ends⟩ := tracks expectingIn
  cases outcome with
  | ok node =>
      obtain ⟨⟨statement, rfl, laterStands⟩, isShorter⟩ := ends
      refine ⟨noted, [statement], later, settles_declarationOrNone settles, ⟨?_, ?_⟩, isShorter⟩
      · exact ⟨leads.passed, leads.loopDepth_eq, leads.blockDepth_eq, leads.errors_eq⟩
      · intro reader fits alone
        have reads := leads.finds reader fits
        rw [laterStands] at reads
        refine reads.trans (congrArg (fun reader => Reader.read reader later.rest) ?_)
        exact complete_of_clauses_eq_nil (show (reader.noting noted).clauses = [] from alone)
          statement
  | error error =>
      obtain ⟨last, recovers, gathers, isShorter⟩ :=
        exists_gathers_of_blames expectingIn next goesOn rfl leads ends
      exact ⟨noted ++ [error], [], last, settles_declarationOrNone_error settles recovers,
        ⟨⟨gathers.passed, gathers.loopDepth_eq, gathers.blockDepth_eq, gathers.errors_eq⟩,
          gathers.finds⟩, isShorter⟩

/-- A procedure that goes through a list one declaration after the other. -/
def ReadsList
    (tokens : List Token)
    (blockDepth : Nat)
    (procedure : List StmtNode → Nat → Descent (List StmtNode)) :
    Prop :=
  ∀ (situation : Situation) (token : Token) (rest : List Token) (done more : List StmtNode)
    (outcome : Except GrammarError (List StmtNode)) (after last : Cursor),
    situation.In tokens →
    situation.blockDepth = blockDepth →
    situation.rest = token :: rest →
    ¬situation.EndsList token →
    Settles (declarationOrNone tokens) situation.cursor (.ok more) after →
    Settles (procedure (done ++ more)) after outcome last →
    Settles (procedure done) situation.cursor outcome last

/-- Declarations are gathered up to where their list ends. -/
theorem exists_gathers
    (shorter : StatementTracks tokens size)
    {procedure : List StmtNode → Nat → Descent (List StmtNode)}
    (situation : Situation)
    (reads : ReadsList tokens situation.blockDepth procedure)
    (within : situation.rest.length ≤ size)
    (inside : situation.In tokens) :
    ∃ noted statements later token rest,
      situation.Gathers noted statements later ∧
        later.rest = token :: rest ∧
          later.EndsList token ∧
            ∀ done outcome last,
              Settles (procedure (done ++ Stmt.nodes statements)) later.cursor outcome last →
              Settles (procedure done) situation.cursor outcome last := by
  -- Every declaration passes a token, so the induction is on the number of those ahead.
  induction bound : situation.rest.length using Nat.strongRecOn generalizing situation with
  | ind bound inductionHypothesis =>
      obtain ⟨token, rest, next⟩ := inside.exists_next
      by_cases ends : situation.EndsList token
      · refine ⟨[], [], situation, token, rest, .refl situation, next, ends, ?_⟩
        intro done outcome last settles
        simpa [Stmt.nodes] using settles
      · obtain ⟨noted, statements, later, settles, gathers, isShorter⟩ :=
          exists_settles_declarationOrNone shorter within inside next ends
        obtain ⟨further, others, last, lastToken, lastRest, gathersOn, lastNext, lastEnds,
            goesOn⟩ :=
          inductionHypothesis later.rest.length (by omega) later
            (gathers.blockDepth_eq ▸ reads) (by omega) (gathers.isIn inside) rfl
        refine ⟨noted ++ further, statements ++ others, last, lastToken, lastRest,
          gathers.trans gathersOn, lastNext, lastEnds, ?_⟩
        intro done outcome final settlesOn
        rw [Stmt.nodes_append, ← List.append_assoc] at settlesOn
        exact reads situation token rest done _ _ _ _ inside rfl next ends settles
          (goesOn _ _ _ settlesOn)

/-- A block is left however it ends. -/
theorem settles_block
    {cursor after : Cursor}
    {outcome : Except GrammarError (List StmtNode)}
    (settles :
      Settles (blockRest tokens []) { cursor with blockDepth := cursor.blockDepth + 1 }
        outcome after) :
    Settles (block tokens) cursor outcome { after with blockDepth := after.blockDepth - 1 } := by
  refine .deeper (fun _ => rfl) (settles.imp fun fuel comes => ?_)
  unfold Comes at comes
  change Option.bind ((blockRest tokens [] fuel).run.run _) _ = _
  rw [comes]
  rfl

/-- Inside a block, a list of declarations ends at a closing brace and at an end token. -/
theorem comes_endsBlock
    (inside : situation.In tokens)
    (next : situation.rest = token :: rest)
    (inBlock : 0 < situation.blockDepth)
    [Decidable (situation.EndsList token)] :
    Comes (endsBlock tokens) situation.cursor (.ok (decide (situation.EndsList token)))
      situation.cursor := by
  have stands := inside.stands
  rw [next] at stands
  refine (comes_check stands (by simp)).bind ?_
  by_cases isBrace : token.kind = .mark .rightBrace
  · have ends : situation.EndsList token := .inr ⟨isBrace, inBlock⟩
    simp only [isBrace, ends, decide_true, ↓reduceIte]
    rfl
  · have sameEnd : situation.EndsList token ↔ token.kind = .endOfInput := by
      simp [Situation.EndsList, isBrace]
    simp only [isBrace, sameEnd, decide_false, Bool.false_eq_true, ↓reduceIte]
    exact comes_isEnd stands

/-- Inside a block, declarations are read one after the other. -/
theorem readsList_blockRest
    (blockDepth : Nat) :
    ReadsList tokens (blockDepth + 1) (blockRest tokens) := by
  classical
  intro situation token rest done more outcome after last inside depth next goesOn settles settlesOn
  have inBlock : 0 < situation.blockDepth := depth ▸ Nat.succ_pos blockDepth
  refine .deeper (fun _ => rfl) ?_
  refine (comes_endsBlock inside next inBlock).bind_settles ?_
  simp only [goesOn, decide_false, Bool.false_eq_true, ↓reduceIte]
  exact settles.bind settlesOn

/-- Where its declarations end, a block must be closed. -/
theorem settles_blockRest_end
    (inside : situation.In tokens)
    (next : situation.rest = token :: rest)
    (inBlock : 0 < situation.blockDepth)
    (ends : situation.EndsList token)
    {done : List StmtNode}
    {outcome : Except GrammarError (List StmtNode)}
    {last : Cursor}
    (closes :
      Comes
        (do
          let _ ← expect tokens (.mark .rightBrace) .expectBraceAfterBlock
          pure done)
        situation.cursor outcome last) :
    Settles (blockRest tokens done) situation.cursor outcome last := by
  classical
  refine .deeper (fun _ => rfl) ?_
  refine (comes_endsBlock inside next inBlock).bind_settles ?_
  simp only [ends, decide_true, ↓reduceIte]
  exact .of_comes closes

/-- A reader fits into the block that it has opened. -/
theorem fits_opened
    {loopDepth blockDepth : Nat}
    {reader : Reader}
    (fits : reader.Fits loopDepth blockDepth) :
    reader.opened.Fits loopDepth (blockDepth + 1) where
  loops := by
    rw [inLoop_opened]
    exact fits.loops
  blocks := congrArg (· + 1) fits.blocks

/-- A block is read behind its opening brace. -/
theorem tracks_block
    (shorter : StatementTracks tokens size)
    (within : situation.rest.length ≤ size)
    (stands : situation.place = fun reader => reader.opened) :
    Tracks tokens (block tokens)
      (fun nodes later =>
        (∃ statements,
          nodes = Stmt.nodes statements ∧
            later.place = fun reader => reader.complete (.block statements)) ∧
          later.rest.length < situation.rest.length)
      situation := by
  intro inside
  let inner : Situation := { situation with blockDepth := situation.blockDepth + 1 }
  obtain ⟨noted, statements, gathered, token, rest, gathers, next, ends, goesOn⟩ :=
    exists_gathers shorter inner (readsList_blockRest situation.blockDepth) within
      ⟨inside.tokens_eq, inside.hasEnd⟩
  have gatheredIn : gathered.In tokens := gathers.isIn ⟨inside.tokens_eq, inside.hasEnd⟩
  have gatheredDepth : gathered.blockDepth = situation.blockDepth + 1 := gathers.blockDepth_eq
  let closing : Situation :=
    { gathered with
      blockDepth := situation.blockDepth
      place := fun reader => reader.opened.adding statements }
  have leads : situation.Leads noted closing := by
    refine ⟨⟨gathers.passed, gathers.loopDepth_eq, rfl, gathers.errors_eq⟩, fun reader fits => ?_⟩
    rw [stands]
    exact gathers.finds reader.opened (fits_opened fits) rfl
  have settles (outcome : Except GrammarError (List StmtNode)) (last : Cursor)
      (closes :
        Comes
          (do
            let _ ← expect tokens (.mark .rightBrace) .expectBraceAfterBlock
            pure (Stmt.nodes statements))
          gathered.cursor outcome last) :
      Settles (block tokens) situation.cursor outcome
        { last with blockDepth := last.blockDepth - 1 } :=
    settles_block (goesOn [] outcome last
      (settles_blockRest_end gatheredIn next (gatheredDepth ▸ Nat.succ_pos _) ends closes))
  have gatheredStands := gatheredIn.stands
  rw [next] at gatheredStands
  obtain ⟨passed, -, split, -⟩ := gathers.passed
  rcases ends with isEnd | ⟨isBrace, -⟩
  · have differs : token.kind ≠ .mark .rightBrace := by
      simp [isEnd]
    refine ⟨.error { token, fault := .expectBraceAfterBlock }, noted, closing, ?_, leads, ?_, ?_⟩
    · have sameCursor :
          { gathered.cursor with blockDepth := gathered.cursor.blockDepth - 1 } =
            closing.cursor := by
        simp [closing, Situation.cursor, gatheredDepth]
      rw [← sameCursor]
      exact settles _ _ ((comes_expect_not gatheredStands (by simp) differs _).bind_error _)
    · simp [closing, next]
    · intro reader _
      simp only [closing, next, rejecting, Reader.read, isEnd, ↓reduceIte]
      exact finish_opened reader statements isEnd
  · have notEnd : token.kind ≠ .endOfInput := by
      simp [isBrace]
    let closed := (closing.past token rest).seen fun reader => reader.complete (.block statements)
    have closes : closing.Leads [] closed := by
      have taken : closing.Leads [] (closing.past token rest) := Situation.leads_past next notEnd
      refine taken.trans (Situation.leads_seen fun reader _ => ?_)
      simp only [Situation.past, closing]
      rw [feed_rightBrace reader _ statements isBrace rfl]
    refine ⟨.ok (Stmt.nodes statements), noted, closed, ?_,
      List.append_nil noted ▸ leads.trans closes, ⟨statements, rfl, rfl⟩, ?_⟩
    · have sameCursor :
          { gathered.cursor.moved with blockDepth := gathered.cursor.moved.blockDepth - 1 } =
            closed.cursor := by
        simp [closed, closing, Situation.seen, Situation.past, Situation.cursor, Cursor.moved,
          gatheredDepth]
      rw [← sameCursor]
      exact settles _ _ ((comes_expect gatheredStands (by simp) isBrace _).bind rfl)
    · have lengths := congrArg List.length split
      simp only [inner, next, List.length_append, List.length_cons] at lengths
      simp only [closed, Situation.seen, Situation.past]
      omega

/-- Behind the token that begins a statement, the rest of the statement is read. -/
theorem tracks_begun
    {procedure : Nat → Descent StmtNode}
    {place : Reader → Reader}
    (stands : situation.place = fun reader => reader.inMode .statement)
    (next : situation.rest = token :: rest)
    (feeds : ∀ reader : Reader, reader.feedStatement token = place reader)
    (tracks :
      Tracks tokens procedure (HasCompleted .alone rest.length)
        ((situation.past token rest).seen place)) :
    Tracks tokens procedure (HasCompleted .alone situation.rest.length)
      (situation.past token rest) := by
  refine .fed stands (fun reader => (feed_statement reader token).trans (feeds reader))
    (tracks.mono fun node later completed => ⟨completed.laidOut, ?_⟩)
  rw [next]
  exact Nat.lt_succ_of_lt completed.shorter

/-- One more token ahead still lets a statement be tracked. -/
theorem statementTracks_succ
    (shorter : StatementTracks tokens size) :
    StatementTracks tokens (size + 1) := by
  intro situation within stands
  refine .deeper (fun _ => rfl) ?_
  refine .of_next fun token rest next => ?_
  have isShorter : rest.length ≤ size := by
    simpa [next] using within
  refine .accept (by simp) next (fun isFor => ?_) fun notFor => ?_
  · refine tracks_begun stands next (fun reader => ?_) (tracks_forStatement shorter isShorter rfl)
    simp [feedStatement, List.mem_singleton.mp isFor]
  refine .accept (by simp) next (fun isIf => ?_) fun notIf => ?_
  · refine tracks_begun stands next (fun reader => ?_) (tracks_ifStatement shorter isShorter rfl)
    simp [feedStatement, List.mem_singleton.mp isIf]
  refine .accept (by simp) next (fun isPrint => ?_) fun notPrint => ?_
  · refine tracks_begun stands next (fun reader => ?_) (tracks_printStatement rfl)
    simp [feedStatement, List.mem_singleton.mp isPrint]
  refine .accept (by simp) next (fun isWhile => ?_) fun notWhile => ?_
  · refine tracks_begun stands next (fun reader => ?_) (tracks_whileStatement shorter isShorter rfl)
    simp [feedStatement, List.mem_singleton.mp isWhile]
  refine .accept (by simp) next (fun isBreak => ?_) fun notBreak => ?_
  · exact tracks_begun stands next
      (fun reader => feedStatement_break reader (List.mem_singleton.mp isBreak))
      (tracks_leaveStatement rfl rfl)
  refine .accept (by simp) next (fun isBrace => ?_) fun notBrace => ?_
  · refine tracks_begun stands next
      (fun reader => feedStatement_leftBrace reader (List.mem_singleton.mp isBrace))
      (.bind ((tracks_block shorter isShorter rfl).mono ?_))
    rintro _ later ⟨⟨statements, rfl, laterStands⟩, laterShorter⟩
    exact .pure ⟨⟨.block statements, rfl, laterStands⟩, laterShorter⟩
  · have feeds (reader : Reader) :
        (reader.inMode .statement).feed token =
          (reader.inMode (.operand (.statement .alone) [])).feed token := by
      rw [feed_statement, feed_operand]
      unfold feedStatement
      split <;> simp_all
    exact .expecting _ stands next rfl rfl feeds (tracks_expressionStatement .alone rfl)

/-- Statements are tracked however many tokens are ahead. -/
theorem statementTracks
    (tokens : List Token)
    (size : Nat) :
    StatementTracks tokens size := by
  induction size with
  | zero =>
      intro situation within _ inside
      obtain ⟨token, rest, next⟩ := inside.exists_next
      simp [next] at within
  | succ size inductionHypothesis => exact statementTracks_succ inductionHypothesis

/-- Outside every block, declarations are read one after the other. -/
theorem readsList_program : ReadsList tokens 0 (Descent.program tokens) := by
  intro situation token rest done more outcome after last inside _ next goesOn settles settlesOn
  have stands := inside.stands
  rw [next] at stands
  have notEnd : token.kind ≠ .endOfInput := fun isEnd => goesOn (.inl isEnd)
  refine .deeper (fun _ => rfl) ?_
  refine (comes_isEnd stands).bind_settles ?_
  simp only [notEnd, decide_false, Bool.false_eq_true, ↓reduceIte]
  exact settles.bind settlesOn

end Tracked

/-- A program is complete at an end token. -/
theorem settles_program_end
    {tokens before rest : List Token}
    {cursor : Cursor}
    {token : Token}
    (stands : cursor.Stands tokens before (token :: rest))
    (isEnd : token.kind = .endOfInput)
    (done : List StmtNode) :
    Settles (Descent.program tokens done) cursor (.ok done) cursor := by
  refine .deeper (fun _ => rfl) ?_
  refine (comes_isEnd stands).bind_settles ?_
  simp only [isEnd, decide_true, ↓reduceIte]
  exact .of_comes rfl

/-- The cursor before the first token, outside every loop and block. -/
def Cursor.start : Cursor where
  position := 0
  loopDepth := 0
  blockDepth := 0
  errors := []

/-- The machine reads what the reader reads, and its cursor comes to rest at the first end token. -/
theorem exists_settles_program
    {tokens : List Token}
    (hasEnd : ∃ token ∈ tokens, token.kind = .endOfInput) :
    ∃ passed ending rest,
      tokens = passed ++ ending :: rest ∧
        (∀ token ∈ passed, token.kind ≠ .endOfInput) ∧
          ending.kind = .endOfInput ∧
            Settles (Descent.program tokens []) .start
              (.ok (Stmt.nodes (Program.ofTokens tokens).statements))
              { Cursor.start with
                position := passed.length
                errors := (Program.ofTokens tokens).errors } := by
  let start : Situation :=
    { before := [], rest := tokens, loopDepth := 0, blockDepth := 0, errors := [], place := id }
  have startIn : start.In tokens := ⟨rfl, hasEnd⟩
  obtain ⟨noted, statements, later, token, rest, gathers, next, ends, goesOn⟩ :=
    exists_gathers (statementTracks tokens tokens.length) start readsList_program
      (Nat.le_refl _) startIn
  have isEnd : token.kind = .endOfInput := by
    refine ends.resolve_right fun closes => ?_
    have isOpen := closes.2
    rw [gathers.blockDepth_eq] at isOpen
    cases isOpen
  have stands := (gathers.isIn startIn).stands
  rw [next] at stands
  have settles :
      Settles (Descent.program tokens []) start.cursor (.ok (Stmt.nodes statements))
        later.cursor :=
    goesOn [] _ _ (settles_program_end stands isEnd _)
  have found : Program.ofTokens tokens = { statements, errors := noted } := by
    calc
      Program.ofTokens tokens
          = (((Reader.start.noting noted).adding statements).inMode .declaration).read
              (token :: rest) := by
            rw [← next]
            exact gathers.finds Reader.start ⟨by simp [start, Reader.start, inLoop], rfl⟩ rfl
      _ = { statements, errors := noted } := by
          simp [Reader.read, isEnd, finish, endStatement, noting, adding, inMode, Reader.start,
            Reader.program, kept]
  obtain ⟨passed, before, split, inner⟩ := gathers.passed
  have lastCursor :
      later.cursor = { Cursor.start with position := passed.length, errors := noted } := by
    simp only [Situation.cursor, before, gathers.loopDepth_eq, gathers.blockDepth_eq,
      gathers.errors_eq, start, List.nil_append, Cursor.start]
  refine ⟨passed, token, rest, next ▸ split, inner, isEnd, ?_⟩
  rw [found, ← lastCursor]
  exact settles

/-- The machine reads the program that the reader reads, off every list with an end token. -/
theorem gives_parse
    {tokens : List Token}
    (hasEnd : ∃ token ∈ tokens, token.kind = .endOfInput) :
    Gives (parse tokens)
      (Stmt.nodes (Program.ofTokens tokens).statements, (Program.ofTokens tokens).errors) := by
  obtain ⟨_, _, _, _, _, _, settles⟩ := exists_settles_program hasEnd
  refine settles.imp fun fuel comes => ?_
  unfold Comes at comes
  change Option.bind ((Descent.program tokens [] fuel).run.run .start) _ = _
  rw [comes]
  rfl

-- Without an end token the machine looks behind the last one.
example : (parse [] 2).run = some (.error .beyondTokens) := rfl

end Machine

end BlockScript
