import BlockScript.Proofs.Machine.Tracking

namespace BlockScript

/-!
# Descending through expressions

An expression of some level ends before a token that no operator of that level
or a tighter one can be.  Such a token also makes the reader fill the frames that
the operators of the level have left, so that behind an expression the reader
stands where it would behind a single operand.
-/

namespace Mode

/-- Whether the end of the input is taken as a token of the statement that has begun. -/
def isInside : Mode → Bool
  | .declaration => false
  | .skipping => false
  | .afterThen .. => false
  | _ => true

end Mode

namespace Reader

/-- Inside a statement the end of the input is fed like any token. -/
theorem endStatement_of_isInside
    {reader : Reader}
    (inside : reader.mode.isInside = true)
    (token : Token) :
    reader.endStatement token = reader.feed token := by
  unfold endStatement
  split <;> simp_all [Mode.isInside]

/-- Inside a statement only what the next token does matters. -/
theorem read_congr
    {first second : Reader}
    {token : Token}
    (firstInside : first.mode.isInside = true)
    (secondInside : second.mode.isInside = true)
    (same : first.feed token = second.feed token)
    (rest : List Token) :
    first.read (token :: rest) = second.read (token :: rest) := by
  simp only [read, finish, endStatement_of_isInside firstInside,
    endStatement_of_isInside secondInside, same]

/-- Behind the rejection of an end token nothing remains to be settled. -/
theorem finish_reject
    (reader : Reader)
    {token : Token}
    (ends : token.kind = .endOfInput)
    (fault : GrammarFault) :
    (reader.reject token fault).endStatement token = reader.reject token fault := by
  have expects : (reader.reject token fault).mode = .skipping := by
    simp [reject, closedBy?, ends]
  simp only [endStatement, expects]

/-- Inside a statement a token that is not taken is rejected, also at the end. -/
theorem read_of_reject
    {reader base : Reader}
    {token : Token}
    {fault : GrammarFault}
    (inside : reader.mode.isInside = true)
    (rejects : reader.feed token = base.reject token fault)
    (rest : List Token) :
    reader.read (token :: rest) = base.rejecting fault (token :: rest) := by
  by_cases ends : token.kind = .endOfInput
  · simp only [rejecting, read, ends, ↓reduceIte, finish, endStatement_of_isInside inside, rejects,
      finish_reject base ends fault]
  · simp only [rejecting, read, ends, ↓reduceIte, rejects]

end Reader

namespace Machine

open Descent Grammar Reader

/-- The level at which a token behind an operand is taken as an operator. -/
def takenAt?
    (kind : Kind) :
    Option Level :=
  match BinaryOperator.ofKind? kind with
  | some operator => some operator.level
  | none =>
      match kind with
      | .mark .question => some .conditional
      | .mark .equal => some .assignment
      | _ => none

/-- The next token is not taken as an operator of the given level or a tighter one. -/
def EndsAt
    (level : Level)
    (tokens : List Token) :
    Prop :=
  ∀ token ∈ tokens.head?, ∀ taken ∈ takenAt? token.kind, taken.rank < level.rank

/-- What an operator of the given level ends: a right operand may hold operators of its level. -/
def stopOf : Option Level → Level
  | none => .comma
  | some .assignment => .conditional
  | some .conditional => .equality
  | some level => level

/-- What a token ends depends on the level at which it is taken. -/
theorem stopLevel_eq_stopOf
    (kind : Kind) :
    stopLevel kind = stopOf (takenAt? kind) := by
  cases kind with
  | mark sign => cases sign <;> rfl
  | _ => rfl

/-- Behind an operand that a frame awaits, the next token ends the frame. -/
theorem EndsAt.isEndedBy
    {frame : Frame}
    {own : Level}
    (levelled : frame.level? = some own)
    {token : Token}
    {rest : List Token}
    (ends : EndsAt frame.awaited (token :: rest)) :
    frame.isEndedBy (stopLevel token.kind) = true := by
  have looser := ends token rfl
  rw [stopLevel_eq_stopOf]
  simp only [Frame.isEndedBy, levelled, decide_eq_true_eq]
  cases taken : takenAt? token.kind with
  | none => exact Nat.zero_le _
  | some level =>
      have below := looser level taken
      revert below
      cases frame with
      | group => cases levelled
      | choice => cases levelled
      | binary sign operator left =>
          cases levelled
          cases operator <;> cases level <;>
            simp [Frame.awaited, BinaryOperator.level, tighter, stopOf, Level.rank]
      | _ =>
          cases levelled
          cases level <;> simp [Frame.awaited, stopOf, Level.rank]

/-- A token that is taken at no level ends the innermost bracket or the whole expression. -/
theorem feed_closing
    (reader : Reader)
    (purpose : Purpose)
    {frames : List Frame}
    (bracket : ∀ frame ∈ frames.head?, frame.level? = none)
    (expr : Expr)
    {token : Token}
    {rest : List Token}
    (ends : EndsAt .comma (token :: rest)) :
    (reader.inMode (.operator purpose frames expr)).feed token =
      reader.feedClosing purpose expr token frames := by
  have untaken : takenAt? token.kind = none := by
    cases taken : takenAt? token.kind with
    | none => rfl
    | some level => exact absurd (ends token rfl level taken) (Nat.not_lt_zero _)
  rw [feed_operator_stop reader purpose expr]
  · revert untaken
    unfold takenAt? afterCollapse
    cases BinaryOperator.ofKind? token.kind with
    | some operator => intro taken; cases taken
    | none =>
        dsimp only
        split <;> simp
  · intro frame isInnermost
    simp [Frame.isEndedBy, bracket frame isInnermost]

/-- A procedure has read an expression of the given level, and the reader has too. -/
structure HasRead
    (level : Level)
    (purpose : Purpose)
    (frames : List Frame)
    (bound : Nat)
    (node : ExprNode)
    (later : Situation) :
    Prop where
  laidOut :
    ∃ expr : Expr,
      node = expr.node ∧
        later.place = fun reader => reader.inMode (.operator purpose frames expr)
  ends : EndsAt level later.rest
  shorter : later.rest.length < bound

/-- Expressions of a level are tracked while no more than the given number of tokens is ahead. -/
def ExpressionTracks
    (tokens : List Token)
    (size : Nat)
    (level : Level) :
    Prop :=
  ∀ (situation : Situation) (purpose : Purpose) (frames : List Frame),
    situation.rest.length ≤ size →
    Allows frames level →
    (situation.place = fun reader => reader.inMode (.operand purpose frames)) →
    Tracks tokens (expression tokens level)
      (HasRead level purpose frames situation.rest.length) situation

section Tracked

variable
  {α : Type} {tokens : List Token} {goal : α → Situation → Prop} {situation : Situation}
  {purpose : Purpose} {frames : List Frame} {size : Nat}

/-- Behind a token that was expected, the reader expects what the token makes it expect. -/
theorem Tracks.fed
    {procedure : Nat → Descent α}
    {mode : Mode}
    {token : Token}
    {rest : List Token}
    {place : Reader → Reader}
    (stands : situation.place = fun reader => reader.inMode mode)
    (feeds : ∀ reader : Reader, (reader.inMode mode).feed token = place reader)
    (tracks : Tracks tokens procedure goal ((situation.past token rest).seen place)) :
    Tracks tokens procedure goal (situation.past token rest) := by
  refine .seen (fun reader _ => ?_) tracks
  simp only [Situation.past, stands, feeds]

/-- Inside a statement, the reader may expect whatever the next token is taken as. -/
theorem Tracks.expecting
    {procedure : Nat → Descent α}
    {mode : Mode}
    {token : Token}
    {rest : List Token}
    (other : Mode)
    (stands : situation.place = fun reader => reader.inMode mode)
    (next : situation.rest = token :: rest)
    (inside : mode.isInside = true)
    (otherInside : other.isInside = true)
    (feeds :
      ∀ reader : Reader, (reader.inMode mode).feed token = (reader.inMode other).feed token)
    (tracks : Tracks tokens procedure goal (situation.seen fun reader => reader.inMode other)) :
    Tracks tokens procedure goal situation := by
  refine .seen (fun reader _ => ?_) tracks
  rw [next, stands]
  exact read_congr inside otherInside (feeds reader) rest

/-- A token that cannot stand where it does is rejected. -/
theorem finds_rejecting
    {mode : Mode}
    {token : Token}
    {rest : List Token}
    {fault : GrammarFault}
    (stands : situation.place = fun reader => reader.inMode mode)
    (next : situation.rest = token :: rest)
    (inside : mode.isInside = true)
    (feeds : ∀ reader : Reader, (reader.inMode mode).feed token = reader.reject token fault) :
    situation.Finds fun reader => reader.rejecting fault (token :: rest) := by
  intro reader _
  rw [next, stands]
  exact read_of_reject inside (feeds reader) rest

/-- Behind an operand that the innermost frame awaits, the frame may be filled. -/
theorem Tracks.fill
    {procedure : Nat → Descent α}
    {frame : Frame}
    {own : Level}
    {operand : Expr}
    (stands :
      situation.place = fun reader => reader.inMode (.operator purpose (frame :: frames) operand))
    (levelled : frame.level? = some own)
    (ends : EndsAt frame.awaited situation.rest)
    (tracks :
      Tracks tokens procedure goal
        (situation.seen fun reader =>
          (reader.noting frame.error?.toList).inMode
            (.operator purpose frames (frame.fill operand)))) :
    Tracks tokens procedure goal situation := by
  refine .of_next fun token rest next => ?_
  refine .seen (fun reader fits => ?_) tracks
  rw [next] at ends ⊢
  rw [stands]
  exact read_congr rfl rfl
    (feed_operator_fill reader purpose frame frames operand (ends.isEndedBy levelled)) rest

/-- Every token behind an operand ends the operand of a unary operator. -/
theorem endsAt_unary
    (rest : List Token) :
    EndsAt .unary rest := by
  intro token _ level taken
  revert taken
  unfold takenAt?
  split
  · rename_i operator _
    rintro ⟨⟩
    exact rank_level_lt_unary operator
  · split <;> rintro ⟨⟩ <;> decide

/-- A token that is an expression on its own is read as that expression. -/
theorem tracks_atom
    {token : Token}
    {rest : List Token}
    (expr : Expr)
    (stands : situation.place = fun reader => reader.inMode (.operand purpose frames))
    (next : situation.rest = token :: rest)
    (alone : exprOfToken? token = some expr) :
    Tracks tokens (fun _ => Pure.pure expr.node)
      (HasRead .unary purpose frames situation.rest.length) (situation.past token rest) := by
  have feeds (reader : Reader) :
      (reader.inMode (.operand purpose frames)).feed token =
        reader.inMode (.operator purpose frames expr) := by
    rw [feed_operand, feedOperand_of_exprOfToken? _ _ _ alone]
  refine .fed stands feeds (.pure ⟨⟨expr, rfl, rfl⟩, endsAt_unary _, ?_⟩)
  simp [next, Situation.seen, Situation.past]

/-- An expression in parentheses is read as a group. -/
theorem tracks_group
    (shorter : ExpressionTracks tokens size .comma)
    {token : Token}
    {rest : List Token}
    (stands : situation.place = fun reader => reader.inMode (.operand purpose frames))
    (next : situation.rest = token :: rest)
    (within : situation.rest.length ≤ size + 1)
    (opens : token.kind = .mark .leftParen) :
    Tracks tokens
      (fun fuel => do
        let inner ← expression tokens .comma fuel
        let _ ← expect tokens (.mark .rightParen) .expectParenAfterExpression
        Pure.pure (.group inner))
      (HasRead .unary purpose frames situation.rest.length) (situation.past token rest) := by
  have feeds (reader : Reader) :
      (reader.inMode (.operand purpose frames)).feed token =
        reader.inMode (.operand purpose (.group :: frames)) := by
    rw [feed_operand, feedOperand_leftParen _ _ _ opens]
  have restWithin : rest.length ≤ size := by
    simpa [next] using within
  refine .fed stands feeds (.bind ?_)
  refine (shorter _ purpose (.group :: frames) restWithin (allows_cons (Nat.le_refl _)) rfl).mono ?_
  rintro node later ⟨⟨inner, rfl, laterStands⟩, ends, isShorter⟩
  refine .of_next fun closing after laterNext => ?_
  rw [laterNext] at ends isShorter
  refine .bind (.expect (by simp) laterNext (fun closes => ?_) fun differs => ?_)
  · refine .fed laterStands (fun reader => feed_closingParen reader purpose frames inner closes) ?_
    refine .pure ⟨⟨.group inner, rfl, rfl⟩, endsAt_unary _, ?_⟩
    simp only [Situation.seen, Situation.past, next, List.length_cons] at isShorter ⊢
    omega
  · refine finds_rejecting laterStands laterNext rfl fun reader => ?_
    rw [feed_closing reader purpose (by simp [Frame.level?]) inner ends]
    simp [feedClosing, differs]

/-- An expression without operators outside parentheses is read as it stands. -/
theorem tracks_primary
    (shorter : ExpressionTracks tokens size .comma)
    {token : Token}
    {rest : List Token}
    (stands : situation.place = fun reader => reader.inMode (.operand purpose frames))
    (next : situation.rest = token :: rest)
    (within : situation.rest.length ≤ size + 1)
    (unsigned : UnaryOperator.ofKind? token.kind = none) :
    Tracks tokens (Descent.primary tokens)
      (HasRead .unary purpose frames situation.rest.length) situation := by
  refine .deeper (fun _ => rfl) ?_
  refine .accept (by simp) next (fun isFalse => ?_) fun notFalse => ?_
  · exact tracks_atom (.literal (.bool false)) stands next (by simp_all [exprOfToken?])
  refine .accept (by simp) next (fun isTrue => ?_) fun notTrue => ?_
  · exact tracks_atom (.literal (.bool true)) stands next (by simp_all [exprOfToken?])
  refine .accept (by simp) next (fun isNil => ?_) fun notNil => ?_
  · exact tracks_atom (.literal .nil) stands next (by simp_all [exprOfToken?])
  refine .accept (by simp) next (fun isLiteral => ?_) fun notLiteral => ?_
  · refine .bind (.prev rfl (tracks_atom (.literal token.literal) stands next ?_))
    simp only [List.mem_cons, List.not_mem_nil, or_false] at isLiteral
    rcases isLiteral with isNumber | isString
    · simp [exprOfToken?, isNumber]
    · simp [exprOfToken?, isString]
  refine .accept (by simp) next (fun isName => ?_) fun notName => ?_
  · refine .bind (.prev rfl (tracks_atom (.lookup token) stands next ?_))
    simp_all [exprOfToken?]
  refine .accept (by simp) next (fun opens => ?_) fun notParen => ?_
  · exact tracks_group shorter stands next within (by simpa using opens)
  · refine .blame next (finds_rejecting stands next rfl fun reader => ?_)
    rw [feed_operand, feedOperand_reject _ _ _ ?_ (by simpa using notParen) unsigned]
    unfold exprOfToken?
    split <;> simp_all

/-- Unary operators and their operand are read as they stand. -/
theorem tracks_unary
    (shorter : ∀ level, ExpressionTracks tokens size level) :
    ExpressionTracks tokens (size + 1) .unary := by
  intro situation purpose frames within allows stands
  refine .of_next fun token rest next => ?_
  have restWithin : rest.length ≤ size := by
    simpa [next] using within
  refine .deeper (fun _ => rfl) ?_
  refine .accept (by simp) next (fun isSign => ?_) fun notSign => ?_
  · obtain ⟨operator, signed⟩ : ∃ operator, UnaryOperator.ofKind? token.kind = some operator := by
      simp only [List.mem_cons, List.not_mem_nil, or_false] at isSign
      rcases isSign with isBang | isMinus
      · exact ⟨.not, by simp [isBang, UnaryOperator.ofKind?]⟩
      · exact ⟨.negate, by simp [isMinus, UnaryOperator.ofKind?]⟩
    have feeds (reader : Reader) :
        (reader.inMode (.operand purpose frames)).feed token =
          reader.inMode (.operand purpose (.unary token operator :: frames)) := by
      rw [feed_operand, feedOperand_unary _ _ _ signed]
    refine .bind (.prev rfl (.fed stands feeds (.bind ?_)))
    refine (shorter .unary _ purpose (.unary token operator :: frames) restWithin
      (allows_cons (Nat.le_refl _)) rfl).mono ?_
    rintro node later ⟨⟨operand, rfl, laterStands⟩, ends, isShorter⟩
    refine .fill laterStands rfl ends ?_
    rw [Expr.ofUnary_node signed]
    refine .pure ⟨⟨.unary token operator operand, rfl, rfl⟩, endsAt_unary _, ?_⟩
    simp only [Situation.seen, Situation.past, next, List.length_cons] at isShorter ⊢
    omega
  · refine tracks_primary (shorter .comma) stands next within ?_
    cases signed : UnaryOperator.ofKind? token.kind with
    | none => rfl
    | some operator =>
        unfold UnaryOperator.ofKind? at signed
        split at signed <;> simp_all

/-- The signs of a level are those of its operators. -/
theorem mem_signs_iff
    {kind : Kind}
    {level : Level} :
    kind ∈ (signs level).map Kind.mark ↔
      ∃ operator, BinaryOperator.ofKind? kind = some operator ∧ operator.level = level := by
  cases kind with
  | mark sign =>
      cases sign <;> cases level <;>
        simp [signs, BinaryOperator.ofKind?, BinaryOperator.level]
  | _ => simp [BinaryOperator.ofKind?]

/-- A level whose operators stand between two operands of the next tighter level. -/
def IsBinary
    (level : Level) :
    Prop :=
  signs level ≠ []

/-- At a level of binary operators only their signs are taken. -/
theorem mem_signs_of_takenAt?
    {kind : Kind}
    {level : Level}
    (binary : IsBinary level)
    (taken : takenAt? kind = some level) :
    kind ∈ (signs level).map Kind.mark := by
  rw [mem_signs_iff]
  unfold takenAt? at taken
  split at taken
  · rename_i operator signed
    exact ⟨operator, signed, Option.some.inj taken⟩
  · split at taken <;> cases taken <;> exact (binary rfl).elim

/-- At the level of conditional expressions only a question mark is taken. -/
theorem eq_question_of_takenAt?
    {kind : Kind}
    (taken : takenAt? kind = some .conditional) :
    kind = .mark .question := by
  revert taken
  cases kind with
  | mark sign => cases sign <;> simp [takenAt?, BinaryOperator.ofKind?, BinaryOperator.level]
  | _ => simp [takenAt?, BinaryOperator.ofKind?]

/-- At the level of assignments only an equals sign is taken. -/
theorem eq_equal_of_takenAt?
    {kind : Kind}
    (taken : takenAt? kind = some .assignment) :
    kind = .mark .equal := by
  revert taken
  cases kind with
  | mark sign => cases sign <;> simp [takenAt?, BinaryOperator.ofKind?, BinaryOperator.level]
  | _ => simp [takenAt?, BinaryOperator.ofKind?]

/-- A token behind an operand of the next tighter level that is not taken at the level. -/
theorem EndsAt.loosen
    {level : Level}
    (below : level.rank < Level.unary.rank)
    {token : Token}
    {rest : List Token}
    (ends : EndsAt (tighter level) (token :: rest))
    (other : takenAt? token.kind ≠ some level) :
    EndsAt level (token :: rest) := by
  rintro _ ⟨⟩ taken isTaken
  have atMost := ends token rfl taken isTaken
  rw [rank_tighter below] at atMost
  refine Nat.lt_of_le_of_ne (Nat.le_of_lt_succ atMost) fun same => other ?_
  rw [← rank_injective same]
  exact isTaken

/-- The operators of a level behind an operand are read from left to right. -/
theorem tracks_operations
    {level : Level}
    (binary : IsBinary level)
    (operand : ExpressionTracks tokens size (tighter level))
    {purpose : Purpose}
    {frames : List Frame}
    (allows : Allows frames level)
    (situation : Situation)
    (left : Expr)
    (within : situation.rest.length ≤ size + 1)
    (stands : situation.place = fun reader => reader.inMode (.operator purpose frames left))
    (ends : EndsAt (tighter level) situation.rest) :
    Tracks tokens (operations tokens level left.node)
      (HasRead level purpose frames (situation.rest.length + 1)) situation := by
  -- The loop ends because every round takes a sign.
  induction length : situation.rest.length using Nat.strongRecOn
    generalizing situation left with
  | _ length inductionHypothesis =>
      subst length
      refine .deeper (fun _ => rfl) ?_
      refine .of_next fun token rest next => ?_
      have restWithin : rest.length ≤ size := by
        simpa [next] using within
      refine .accept (by simp) next (fun isSign => ?_) fun notSign => ?_
      · obtain ⟨operator, signed, rfl⟩ := mem_signs_iff.mp isSign
        have feeds (reader : Reader) := feed_binary reader purpose left signed allows
        refine .bind (.prev rfl (.fed stands feeds (.bind ?_)))
        refine (operand _ purpose (.binary token operator left :: frames) restWithin
          (allows_cons (Nat.le_refl _)) rfl).mono ?_
        rintro node later ⟨⟨right, rfl, laterStands⟩, laterEnds, isShorter⟩
        simp only [Situation.seen, Situation.past] at isShorter
        refine .fill laterStands rfl laterEnds ?_
        rw [Expr.ofBinary_node signed]
        refine .bind (.pure ?_)
        refine (inductionHypothesis later.rest.length ?_ (later.seen _)
          (.binary token operator left right) ?_ rfl laterEnds rfl).mono ?_
        · simp only [next, List.length_cons]
          omega
        · simp only [Situation.seen]
          omega
        · rintro node last ⟨laidOut, lastEnds, lastShorter⟩
          refine ⟨laidOut, lastEnds, ?_⟩
          simp only [next, List.length_cons]
          omega
      · refine .pure ⟨⟨left, rfl, stands⟩, ?_, Nat.lt_succ_self _⟩
        rw [next] at ends ⊢
        refine ends.loosen ?_ fun taken => notSign (mem_signs_of_takenAt? binary taken)
        cases level <;> first | decide | exact (binary rfl).elim

/-- At a level of binary operators, an operand comes first and then the operators. -/
theorem expression_binary
    {level : Level}
    (binary : IsBinary level)
    (tokens : List Token)
    (fuel : Nat) :
    expression tokens level (fuel + 1) =
      (do
        let left ← expression tokens (tighter level) fuel
        operations tokens level left fuel) := by
  rw [expression]
  all_goals
    rintro rfl
    exact binary rfl

/-- Binary operators of one level are read from left to right. -/
theorem tracks_binary
    {level : Level}
    (binary : IsBinary level)
    (shorter : ∀ level, ExpressionTracks tokens size level)
    (operand : ExpressionTracks tokens (size + 1) (tighter level)) :
    ExpressionTracks tokens (size + 1) level := by
  intro situation purpose frames within allows stands
  refine .deeper (expression_binary binary tokens) ?_
  refine .bind ((operand situation purpose frames within
    (allows.tighten (rank_le_tighter level)) stands).mono ?_)
  rintro node later ⟨⟨left, rfl, laterStands⟩, ends, isShorter⟩
  refine (tracks_operations binary (shorter _) allows later left ?_ laterStands ends).mono ?_
  · omega
  · rintro node last ⟨laidOut, lastEnds, lastShorter⟩
    exact ⟨laidOut, lastEnds, by omega⟩

/-- A conditional expression is read with its alternative to the right. -/
theorem tracks_conditional
    (shorter : ∀ level, ExpressionTracks tokens size level)
    (operand : ExpressionTracks tokens (size + 1) .equality) :
    ExpressionTracks tokens (size + 1) .conditional := by
  intro situation purpose frames within allows stands
  refine .deeper (fun _ => rfl) ?_
  refine .bind ((operand situation purpose frames within
    (allows.tighten (by decide)) stands).mono ?_)
  rintro node later ⟨⟨condition, rfl, laterStands⟩, ends, isShorter⟩
  refine .of_next fun token rest next => ?_
  have restWithin : rest.length ≤ size := by
    simp only [next, List.length_cons] at isShorter
    omega
  refine .accept (by simp) next (fun asks => ?_) fun notQuestion => ?_
  · have feeds (reader : Reader) :=
      feed_question reader purpose condition (List.mem_singleton.mp asks) allows
    refine .fed laterStands feeds (.bind ?_)
    refine (shorter .comma _ purpose (.choice condition :: frames) restWithin
      (allows_cons (Nat.le_refl _)) rfl).mono ?_
    rintro node middle ⟨⟨thenValue, rfl, middleStands⟩, middleEnds, middleShorter⟩
    refine .of_next fun colon after middleNext => ?_
    rw [middleNext] at middleEnds middleShorter
    refine .bind (.expect (by simp) middleNext (fun separates => ?_) fun differs => ?_)
    · have feedsLast (reader : Reader) :=
        feed_colon reader purpose frames condition thenValue separates
      simp only [Situation.seen, Situation.past, List.length_cons] at middleShorter
      refine .fed middleStands feedsLast (.bind ?_)
      refine (shorter .conditional _ purpose (.otherwise condition thenValue :: frames) ?_
        (allows_cons (Nat.le_refl _)) rfl).mono ?_
      · simp only [Situation.seen, Situation.past]
        omega
      rintro node last ⟨⟨elseValue, rfl, lastStands⟩, lastEnds, lastShorter⟩
      simp only [Situation.seen, Situation.past] at lastShorter
      refine .fill lastStands rfl lastEnds ?_
      refine .pure ⟨⟨.conditional condition thenValue elseValue, rfl, rfl⟩, lastEnds, ?_⟩
      simp only [Situation.seen, next, List.length_cons] at isShorter ⊢
      omega
    · refine finds_rejecting middleStands middleNext rfl fun reader => ?_
      rw [feed_closing reader purpose (by simp [Frame.level?]) thenValue middleEnds]
      simp [feedClosing, differs]
  · refine .pure ⟨⟨condition, rfl, laterStands⟩, ?_, isShorter⟩
    rw [next] at ends ⊢
    exact EndsAt.loosen (by decide) ends fun taken =>
      notQuestion (List.mem_singleton.mpr (eq_question_of_takenAt? taken))

/-- The end of an assignment: what is not a name keeps its place, and is blamed. -/
theorem tracks_assigned
    {equals : Token}
    (target value : Expr)
    {bound : Nat}
    (stands :
      situation.place = fun reader =>
        reader.inMode (.operator purpose (.assign target equals :: frames) value))
    (ends : EndsAt .assignment situation.rest)
    (shorter : situation.rest.length < bound) :
    Tracks tokens (fun _ => assigned equals value.node target.node)
      (HasRead .assignment purpose frames bound) situation := by
  refine .fill stands rfl ends ?_
  cases target with
  | lookup name => exact .pure ⟨⟨.assign name value, rfl, rfl⟩, ends, shorter⟩
  | _ =>
      refine .bind (.note (fun reader => rfl) (.pure ⟨⟨_, rfl, rfl⟩, ends, shorter⟩))

/-- An assignment is read with its value to the right. -/
theorem tracks_assignment
    (shorter : ∀ level, ExpressionTracks tokens size level)
    (operand : ExpressionTracks tokens (size + 1) .conditional) :
    ExpressionTracks tokens (size + 1) .assignment := by
  intro situation purpose frames within allows stands
  refine .deeper (fun _ => rfl) ?_
  refine .bind ((operand situation purpose frames within
    (allows.tighten (by decide)) stands).mono ?_)
  rintro node later ⟨⟨target, rfl, laterStands⟩, ends, isShorter⟩
  refine .of_next fun token rest next => ?_
  have restWithin : rest.length ≤ size := by
    simp only [next, List.length_cons] at isShorter
    omega
  refine .accept (by simp) next (fun assigns => ?_) fun notEqual => ?_
  · have feeds (reader : Reader) :=
      feed_equals reader purpose target (List.mem_singleton.mp assigns) allows
    refine .bind (.prev rfl (.fed laterStands feeds (.bind ?_)))
    refine (shorter .assignment _ purpose (.assign target token :: frames) restWithin
      (allows_cons (Nat.le_refl _)) rfl).mono ?_
    rintro node last ⟨⟨value, rfl, lastStands⟩, lastEnds, lastShorter⟩
    refine tracks_assigned target value lastStands lastEnds ?_
    simp only [Situation.seen, Situation.past, next, List.length_cons] at isShorter lastShorter
    omega
  · refine .pure ⟨⟨target, rfl, laterStands⟩, ?_, isShorter⟩
    rw [next] at ends ⊢
    exact EndsAt.loosen (by decide) ends fun taken =>
      notEqual (List.mem_singleton.mpr (eq_equal_of_takenAt? taken))

/-- Every expression is read as it stands, whatever is ahead. -/
theorem expressionTracks
    (tokens : List Token)
    (size : Nat)
    (level : Level) :
    ExpressionTracks tokens size level := by
  induction size generalizing level with
  | zero =>
      intro situation purpose frames within allows stands
      refine .of_next fun token rest next => ?_
      simp [next] at within
  | succ size shorter =>
      have unary := tracks_unary shorter
      have multiplication : ExpressionTracks tokens (size + 1) .multiplication :=
        tracks_binary (by simp [IsBinary, signs]) shorter unary
      have addition : ExpressionTracks tokens (size + 1) .addition :=
        tracks_binary (by simp [IsBinary, signs]) shorter multiplication
      have comparison : ExpressionTracks tokens (size + 1) .comparison :=
        tracks_binary (by simp [IsBinary, signs]) shorter addition
      have equality : ExpressionTracks tokens (size + 1) .equality :=
        tracks_binary (by simp [IsBinary, signs]) shorter comparison
      have conditional := tracks_conditional shorter equality
      have assignment := tracks_assignment shorter conditional
      have comma : ExpressionTracks tokens (size + 1) .comma :=
        tracks_binary (by simp [IsBinary, signs]) shorter assignment
      cases level <;> assumption

end Tracked

end Machine

end BlockScript
