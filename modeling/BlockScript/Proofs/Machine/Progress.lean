import BlockScript.Proofs.Machine.Parsing
import BlockScript.Proofs.Reading.Language

namespace BlockScript.Machine

open Descent Grammar

/-!
# Every round moves on

The declarations of a program and of a block are read in rounds.  Recovery may pass
nothing and an end token is never passed, but a round as a whole moves the cursor
behind at least one token, and at most to the first end token.  Both loops therefore
end, the cursor comes to rest at the first end token, and nothing behind that token
is ever looked at.
-/

/--
A round of a list of declarations comes to an end.  It moves the cursor on, but not
behind the first end token, and leaves it in the same loops and blocks.
-/
def RoundMovesOn
    (tokens : List Token)
    (cursor : Cursor) :
    Prop :=
  ∃ statements after,
    Settles (declarationOrNone tokens) cursor (.ok statements) after ∧
      cursor.position < after.position ∧
        after.position ≤ (beforeEnd tokens).length ∧
          after.loopDepth = cursor.loopDepth ∧ after.blockDepth = cursor.blockDepth

/-- The situation in which a cursor stands, with any reader. -/
def Cursor.situation
    (tokens : List Token)
    (cursor : Cursor) :
    Situation where
  before := tokens.take cursor.position
  rest := tokens.drop cursor.position
  loopDepth := cursor.loopDepth
  blockDepth := cursor.blockDepth
  errors := cursor.errors
  place := id

/-- At or before the first end token, a cursor is that of its situation. -/
theorem cursor_situation
    {tokens : List Token}
    {cursor : Cursor}
    (within : cursor.position ≤ (beforeEnd tokens).length) :
    (cursor.situation tokens).cursor = cursor := by
  have shorter : (beforeEnd tokens).length ≤ tokens.length :=
    (List.takeWhile_sublist _).length_le
  have position : min cursor.position tokens.length = cursor.position :=
    Nat.min_eq_left (Nat.le_trans within shorter)
  simp only [Situation.cursor, Cursor.situation, List.length_take, position]

section Rounds

variable
  {tokens : List Token}
  (hasEnd : ∃ token ∈ tokens, token.kind = .endOfInput)
  {cursor : Cursor}
  (within : cursor.position ≤ (beforeEnd tokens).length)
include hasEnd within

/-- At or before the first end token, an end token is ahead. -/
theorem situation_in :
    (cursor.situation tokens).In tokens := by
  refine ⟨(List.take_append_drop cursor.position tokens).symm, ?_⟩
  obtain ⟨ending, rest, same, isEnding⟩ := exists_append_beforeEnd_of_mem hasEnd
  have ahead :
      tokens.drop cursor.position =
        (beforeEnd tokens).drop cursor.position ++ ending :: rest :=
    (congrArg (List.drop cursor.position) same).trans (List.drop_append_of_le_length within)
  exact ⟨ending, by simp [Cursor.situation, ahead], isEnding⟩

/-- No token behind the cursor is an end token. -/
theorem kind_ne_of_mem_take :
    ∀ token ∈ tokens.take cursor.position, token.kind ≠ .endOfInput := by
  obtain ⟨ending, rest, same, _⟩ := exists_append_beforeEnd_of_mem hasEnd
  have behind : tokens.take cursor.position = (beforeEnd tokens).take cursor.position :=
    (congrArg (List.take cursor.position) same).trans (List.take_append_of_le_length within)
  intro token isBehind
  rw [behind] at isBehind
  exact kind_ne_of_mem_beforeEnd token (List.mem_of_mem_take isBehind)

/-- Unless the list ends at the cursor, a round moves on. -/
theorem roundMovesOn_of_not_endsList
    {token : Token}
    {others : List Token}
    (next : (cursor.situation tokens).rest = token :: others)
    (goesOn : ¬(cursor.situation tokens).EndsList token) :
    RoundMovesOn tokens cursor := by
  have inside := situation_in hasEnd within
  have ahead : (cursor.situation tokens).rest.length ≤ tokens.length :=
    (List.drop_sublist _ _).length_le
  obtain ⟨noted, statements, later, settles, gathers, isShorter⟩ :=
    exists_settles_declarationOrNone (statementTracks tokens tokens.length) ahead inside next goesOn
  rw [cursor_situation within] at settles
  obtain ⟨passed, before, split, inner⟩ := gathers.passed
  refine ⟨_, later.cursor, settles, ?_, ?_, gathers.loopDepth_eq, gathers.blockDepth_eq⟩
  · have isBehind := congrArg Cursor.position (cursor_situation within)
    have lengths := congrArg List.length before
    have lengthsAhead := congrArg List.length split
    simp only [Situation.cursor, List.length_append] at isBehind lengths lengthsAhead ⊢
    omega
  · have laterInner : ∀ token ∈ later.before, token.kind ≠ .endOfInput := by
      rw [before, List.forall_mem_append]
      exact ⟨kind_ne_of_mem_take hasEnd within, inner⟩
    have cut : beforeEnd tokens = later.before ++ beforeEnd later.rest :=
      (congrArg beforeEnd (gathers.isIn inside).tokens_eq).trans
        (beforeEnd_append_inner laterInner later.rest)
    simp [cut, Situation.cursor]

/-- The loop of a program ends at the first end token, and every round before it moves on. -/
theorem program_round
    (outside : cursor.blockDepth = 0) :
    (Comes (isEnd tokens) cursor (.ok true) cursor ∧
        cursor.position = (beforeEnd tokens).length) ∨
      (Comes (isEnd tokens) cursor (.ok false) cursor ∧ RoundMovesOn tokens cursor) := by
  have inside := situation_in hasEnd within
  obtain ⟨token, others, next⟩ := inside.exists_next
  have stands := inside.stands
  rw [next, cursor_situation within] at stands
  have tested := comes_isEnd stands
  by_cases ends : token.kind = .endOfInput
  · have cut : beforeEnd tokens = (cursor.situation tokens).before :=
      (congrArg beforeEnd stands.tokens_eq).trans
        (beforeEnd_append (kind_ne_of_mem_take hasEnd within) ends)
    rw [decide_eq_true ends] at tested
    exact .inl ⟨tested, by rw [stands.position_eq, cut]⟩
  · have goesOn : ¬(cursor.situation tokens).EndsList token := by
      rintro (isEnd | ⟨-, isOpen⟩)
      · exact ends isEnd
      · exact absurd isOpen (by simp [Cursor.situation, outside])
    rw [decide_eq_false ends] at tested
    exact .inr ⟨tested, roundMovesOn_of_not_endsList hasEnd within next goesOn⟩

/-- The loop of a block ends at a closing brace or an end token, and every other round moves on. -/
theorem block_round
    (inBlock : 0 < cursor.blockDepth) :
    (Comes (endsBlock tokens) cursor (.ok true) cursor ∧
        ∃ token, tokens[cursor.position]? = some token ∧
          (token.kind = .mark .rightBrace ∨ token.kind = .endOfInput)) ∨
      (Comes (endsBlock tokens) cursor (.ok false) cursor ∧ RoundMovesOn tokens cursor) := by
  classical
  have inside := situation_in hasEnd within
  obtain ⟨token, others, next⟩ := inside.exists_next
  have tested := comes_endsBlock inside next inBlock
  rw [cursor_situation within] at tested
  by_cases ends : (cursor.situation tokens).EndsList token
  · have found : tokens[cursor.position]? = some token := by
      rw [← List.head?_drop]
      exact congrArg List.head? next
    rw [decide_eq_true ends] at tested
    exact .inl ⟨tested, token, found, ends.symm.imp_left And.left⟩
  · rw [decide_eq_false ends] at tested
    exact .inr ⟨tested, roundMovesOn_of_not_endsList hasEnd within next ends⟩

end Rounds

section Loops

variable {tokens : List Token} (hasEnd : ∃ token ∈ tokens, token.kind = .endOfInput)
include hasEnd

/-- A closing brace is passed, and at an end token the cursor stays. -/
theorem exists_comes_closing
    {cursor : Cursor}
    (within : cursor.position ≤ (beforeEnd tokens).length)
    (done : List StmtNode) :
    ∃ outcome after,
      Comes
          (do
            let _ ← expect tokens (.mark .rightBrace) .expectBraceAfterBlock
            pure done)
          cursor outcome after ∧
        cursor.position ≤ after.position ∧ after.position ≤ (beforeEnd tokens).length := by
  have inside := situation_in hasEnd within
  obtain ⟨token, others, next⟩ := inside.exists_next
  have stands := inside.stands
  rw [next, cursor_situation within] at stands
  by_cases isBrace : token.kind = .mark .rightBrace
  · refine ⟨.ok done, cursor.moved, (comes_expect stands (by simp) isBrace _).bind rfl,
      Nat.le_succ _, ?_⟩
    have movedInner :
        ∀ other ∈ (cursor.situation tokens).before ++ [token], other.kind ≠ .endOfInput := by
      rw [List.forall_mem_append]
      exact ⟨kind_ne_of_mem_take hasEnd within, by simp [isBrace]⟩
    have cut :
        beforeEnd tokens = (cursor.situation tokens).before ++ [token] ++ beforeEnd others :=
      (congrArg beforeEnd stands.moved.tokens_eq).trans (beforeEnd_append_inner movedInner others)
    rw [stands.moved.position_eq, cut]
    simp
  · exact ⟨_, cursor, (comes_expect_not stands (by simp) isBrace _).bind_error _,
      Nat.le_refl _, within⟩

/-- The declarations of a block come to an end wherever the cursor stands in it. -/
theorem exists_settles_blockRest
    {cursor : Cursor}
    (within : cursor.position ≤ (beforeEnd tokens).length)
    (inBlock : 0 < cursor.blockDepth)
    (done : List StmtNode) :
    ∃ outcome after,
      Settles (blockRest tokens done) cursor outcome after ∧
        cursor.position ≤ after.position ∧ after.position ≤ (beforeEnd tokens).length := by
  -- Every round moves on, so the induction is on what is ahead of the first end token.
  induction ahead : (beforeEnd tokens).length - cursor.position using Nat.strongRecOn
    generalizing cursor done with
  | ind ahead inductionHypothesis =>
      rcases block_round hasEnd within inBlock with ⟨ends, -⟩ | ⟨goesOn, movesOn⟩
      · obtain ⟨outcome, after, closes, notBack, notBeyond⟩ :=
          exists_comes_closing hasEnd within done
        exact ⟨outcome, after, .deeper (fun _ => rfl) (ends.bind_settles (.of_comes closes)),
          notBack, notBeyond⟩
      · obtain ⟨statements, later, round, further, laterWithin, -, sameBlocks⟩ := movesOn
        obtain ⟨outcome, after, settles, notBack, notBeyond⟩ :=
          inductionHypothesis _ (by omega) laterWithin (sameBlocks ▸ inBlock)
            (done ++ statements) rfl
        exact ⟨outcome, after, .deeper (fun _ => rfl) (goesOn.bind_settles (round.bind settles)),
          by omega, notBeyond⟩

/-- The cursor that goes through a program comes to rest at the first end token. -/
theorem settles_program :
    Settles (Descent.program tokens []) .start
      (.ok (Stmt.nodes (Program.ofTokens tokens).statements))
      { Cursor.start with
        position := (beforeEnd tokens).length
        errors := (Program.ofTokens tokens).errors } := by
  obtain ⟨passed, ending, rest, same, inner, isEnding, settles⟩ := exists_settles_program hasEnd
  have cut : beforeEnd tokens = passed := by
    rw [same]
    exact beforeEnd_append inner isEnding
  rw [cut]
  exact settles

/-- What is read off a list depends on its tokens up to the first end token only. -/
theorem ofTokens_eq_of_take_eq
    {others : List Token}
    (agrees :
      others.take ((beforeEnd tokens).length + 1) = tokens.take ((beforeEnd tokens).length + 1)) :
    (∃ token ∈ others, token.kind = .endOfInput) ∧
      Program.ofTokens others = Program.ofTokens tokens := by
  obtain ⟨ending, rest, same, isEnding⟩ := exists_append_beforeEnd_of_mem hasEnd
  have upToEnd : tokens.take ((beforeEnd tokens).length + 1) = beforeEnd tokens ++ [ending] :=
    (congrArg (List.take _) same).trans (List.take_length_add_append 1)
  have otherSplit :
      others = beforeEnd tokens ++ ending :: others.drop ((beforeEnd tokens).length + 1) := by
    conv => lhs; rw [← List.take_append_drop ((beforeEnd tokens).length + 1) others]
    rw [agrees, upToEnd, List.append_assoc, List.singleton_append]
  refine ⟨⟨ending, ?_, isEnding⟩, ?_⟩
  · rw [otherSplit]
    simp
  · rw [ofTokens_eq_finish same isEnding, Program.ofTokens]
    conv => lhs; rw [otherSplit]
    exact Reader.read_append isEnding _ _ kind_ne_of_mem_beforeEnd _

end Loops

/-- How the machine goes through a list of tokens up to its first end token. -/
structure EndsAtFirstEnd
    (tokens : List Token) :
    Prop where
  /-- The loop of a program comes to an end, with the cursor at the first end token. -/
  program :
    Settles (Descent.program tokens []) .start
      (.ok (Stmt.nodes (Program.ofTokens tokens).statements))
      { Cursor.start with
        position := (beforeEnd tokens).length
        errors := (Program.ofTokens tokens).errors }
  /-- Outside every block, the loop is over at the first end token or its round moves on. -/
  programRound :
    ∀ cursor : Cursor, cursor.position ≤ (beforeEnd tokens).length → cursor.blockDepth = 0 →
      (Comes (isEnd tokens) cursor (.ok true) cursor ∧
          cursor.position = (beforeEnd tokens).length) ∨
        (Comes (isEnd tokens) cursor (.ok false) cursor ∧ RoundMovesOn tokens cursor)
  /-- Inside a block, the loop is over at a closing brace or an end token or its round moves on. -/
  blockRound :
    ∀ cursor : Cursor, cursor.position ≤ (beforeEnd tokens).length → 0 < cursor.blockDepth →
      (Comes (endsBlock tokens) cursor (.ok true) cursor ∧
          ∃ token, tokens[cursor.position]? = some token ∧
            (token.kind = .mark .rightBrace ∨ token.kind = .endOfInput)) ∨
        (Comes (endsBlock tokens) cursor (.ok false) cursor ∧ RoundMovesOn tokens cursor)
  /-- The loop of a block comes to an end, wherever it is begun. -/
  block :
    ∀ (cursor : Cursor) (done : List StmtNode),
      cursor.position ≤ (beforeEnd tokens).length → 0 < cursor.blockDepth →
        ∃ outcome after,
          Settles (blockRest tokens done) cursor outcome after ∧
            cursor.position ≤ after.position ∧ after.position ≤ (beforeEnd tokens).length
  /-- The same is read off every list with the same tokens up to the first end token. -/
  agrees :
    ∀ others : List Token,
      others.take ((beforeEnd tokens).length + 1) =
          tokens.take ((beforeEnd tokens).length + 1) →
        Program.ofTokens others = Program.ofTokens tokens ∧
          Gives (parse others)
            (Stmt.nodes (Program.ofTokens tokens).statements, (Program.ofTokens tokens).errors)

/--
Reading always ends and never looks past the first end token, whatever the tokens
are: each round of both loops moves on or is the last, and even the list that is cut
off behind its first end token is read to the same program.
-/
theorem reading_ends_at_first_end
    {tokens : List Token}
    (hasEnd : ∃ token ∈ tokens, token.kind = .endOfInput) :
    EndsAtFirstEnd tokens where
  program := settles_program hasEnd
  programRound _ within outside := program_round hasEnd within outside
  blockRound _ within inBlock := block_round hasEnd within inBlock
  block _ done within inBlock := exists_settles_blockRest hasEnd within inBlock done
  agrees others agrees := by
    obtain ⟨alsoEnds, same⟩ := ofTokens_eq_of_take_eq hasEnd agrees
    exact ⟨same, same ▸ gives_parse alsoEnds⟩

/-- The kinds of the tokens in `{ ( } } 1`, and a brace behind the end of the input. -/
def strayBraces : List Kind :=
  [.mark .leftBrace, .mark .leftParen, .mark .rightBrace, .mark .rightBrace, .number,
    .endOfInput, .mark .leftBrace]

/-- A brace that closes nothing is passed over, and the one behind the end is not looked at. -/
theorem reading_ends_at_first_end_strayBraces :
    (∃ token ∈ tokensOfKinds strayBraces, token.kind = .endOfInput) ∧
      EndsAtFirstEnd (tokensOfKinds strayBraces) := by
  have hasEnd : ∃ token ∈ tokensOfKinds strayBraces, token.kind = .endOfInput := by
    decide
  exact ⟨hasEnd, reading_ends_at_first_end hasEnd⟩

end BlockScript.Machine
