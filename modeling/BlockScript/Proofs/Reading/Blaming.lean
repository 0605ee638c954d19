import BlockScript.Proofs.Reading.Recovery
import Mathlib.Data.List.Perm.Subperm

namespace BlockScript

/-!
# No token is blamed twice

A token is blamed when it is taken, or later by the frame that it begins: that an
assignment has no variable on its left is said once its value has been read.  A
frame is filled once and is then gone, so that the errors found and the errors that
frames still hold never blame a token more often than it was taken.  The errors
that do not wait for a frame come in the order of the tokens, and those that blame
the end of the input come last, one for each open block and one for the statement
that was being read.
-/

/-- A frame only ever blames the equals sign of an assignment. -/
theorem Frame.fault_of_error?
    {frame : Frame}
    {error : GrammarError}
    (blames : frame.error? = some error) :
    error.fault = .invalidAssignmentTarget := by
  unfold Frame.error? at blames
  split at blames <;> cases blames
  rfl

/-- The errors that the waiting frames bring to light once they are filled, innermost first. -/
def Mode.pending
    (mode : Mode) :
    List GrammarError :=
  mode.frames.filterMap Frame.error?

/-- Without a frame no error is pending. -/
theorem Mode.pending_of_bare
    {mode : Mode}
    (bare : mode.frames = []) :
    mode.pending = [] := by
  rw [pending, bare]
  rfl

namespace Reader

open List

/--
What a token does to the errors found and to those pending.  Some pending errors
come to light, innermost first, and the others stay pending or are dropped.  The
token is blamed at once, or later once the frame that it begins is filled, or never.
-/
inductive Charges (reader : Reader) (token : Token) (later : Reader) : Prop where
  | intro
      (filled kept atOnce deferred : List GrammarError)
      (waited : reader.mode.pending = filled ++ kept)
      (errors : later.errors = atOnce.reverse ++ (filled.reverse ++ reader.errors))
      (waits : later.mode.pending <+ deferred ++ kept)
      (once : (atOnce ++ deferred).map GrammarError.token <+ [token])

variable {reader later : Reader} {token : Token}

/-- A token that is not blamed, behind the errors that filled frames brought to light. -/
theorem Charges.spare
    (filled : List GrammarError)
    {kept : List GrammarError}
    (waited : reader.mode.pending = filled ++ kept)
    (errors : later.errors = filled.reverse ++ reader.errors)
    (waits : later.mode.pending <+ kept) :
    Charges reader token later :=
  .intro filled kept [] [] waited errors waits (nil_sublist _)

/-- A token that is not blamed and leaves no frame. -/
theorem Charges.spareBare
    (filled : List GrammarError)
    {kept : List GrammarError}
    (waited : reader.mode.pending = filled ++ kept)
    (errors : later.errors = filled.reverse ++ reader.errors)
    (bare : later.mode.frames = []) :
    Charges reader token later := by
  refine .spare filled waited errors ?_
  rw [Mode.pending_of_bare bare]
  exact nil_sublist kept

/-- A token that is blamed at once and leaves no frame. -/
theorem Charges.blame
    (filled : List GrammarError)
    {kept : List GrammarError}
    (waited : reader.mode.pending = filled ++ kept)
    {fault : GrammarFault}
    (errors : later.errors = { token, fault } :: (filled.reverse ++ reader.errors))
    (bare : later.mode.frames = []) :
    Charges reader token later := by
  refine .intro filled kept [{ token, fault }] [] waited errors ?_ (Sublist.refl _)
  rw [Mode.pending_of_bare bare]
  exact nil_sublist kept

/-- A rejected token is blamed at once. -/
theorem charges_reject
    (filled : List GrammarError)
    {kept : List GrammarError}
    (waited : reader.mode.pending = filled ++ kept)
    (fault : GrammarFault) :
    Charges reader token ((reader.noting filled).reject token fault) :=
  .blame filled waited (errors_reject _ token fault) (frames_reject _ token fault)

/-- A token where an operand is expected. -/
theorem charges_feedOperand
    (purpose : Purpose)
    {frames : List Frame}
    (waiting : reader.mode.frames = frames) :
    Charges reader token (reader.feedOperand purpose frames token) := by
  have pending : reader.mode.pending = frames.filterMap Frame.error? := by
    rw [Mode.pending, waiting]
  have spared :
      ∀ mode : Mode, mode.pending = frames.filterMap Frame.error? →
        Charges reader token (reader.inMode mode) := by
    intro mode same
    refine .spare [] pending rfl ?_
    rw [← same]
    exact Sublist.refl _
  unfold feedOperand
  split
  case h_7 => exact spared (.operand purpose (.group :: frames)) rfl
  case h_8 =>
    split
    · rename_i operator _
      exact spared (.operand purpose (.unary token operator :: frames)) rfl
    · exact charges_reject [] rfl _
  all_goals exact spared (.operator purpose frames _) rfl

/-- Completing a part of a header or a statement leaves no frame. -/
theorem frames_completeAt
    (reader : Reader)
    (statement : Stmt)
    (place : Place) :
    (reader.completeAt statement place).mode.frames = [] := by
  cases place with
  | alone => exact frames_completeIn reader statement reader.clauses
  | loopHeader => rfl

section Filled

variable {filled : List GrammarError}

/-- A token behind an expression outside every bracket. -/
theorem charges_feedPurpose
    {kept : List GrammarError}
    (waited : reader.mode.pending = filled ++ kept)
    (expr : Expr)
    (purpose : Purpose) :
    Charges reader token ((reader.noting filled).feedPurpose expr token purpose) := by
  unfold feedPurpose
  split
  case h_1 =>
    exact .spareBare filled waited (errors_complete _ _) (frames_completeIn _ _ _)
  case h_2 =>
    exact .spareBare filled waited (errors_completeAt _ _ _) (frames_completeAt _ _ _)
  case h_3 =>
    exact .spareBare filled waited (errors_completeAt _ _ _) (frames_completeAt _ _ _)
  case h_8 => exact charges_reject filled waited _
  all_goals exact .spareBare filled waited rfl rfl

/-- A token that ends an expression. -/
theorem charges_feedClosing
    {outer : List Frame}
    (waited : reader.mode.pending = filled ++ outer.filterMap Frame.error?)
    (purpose : Purpose)
    (expr : Expr) :
    Charges reader token ((reader.noting filled).feedClosing purpose expr token outer) := by
  unfold feedClosing
  split
  · split
    · exact .spare filled waited rfl (Sublist.refl _)
    · exact charges_reject filled waited _
  · split
    · exact .spare filled waited rfl (Sublist.refl _)
    · exact charges_reject filled waited _
  · exact charges_feedPurpose waited expr purpose

end Filled

/-- The frame of an assignment holds at most the error that blames its equals sign. -/
theorem error?_assign_sublist
    (target : Expr)
    (equals : Token)
    (outer : List Frame) :
    (Frame.assign target equals :: outer).filterMap Frame.error? <+
      { token := equals, fault := .invalidAssignmentTarget } :: outer.filterMap Frame.error? := by
  cases target with
  | lookup name => exact sublist_cons_self _ _
  | _ => exact Sublist.refl _

/-- A token where an operator is expected. -/
theorem charges_feedOperator
    {purpose : Purpose}
    {frames : List Frame}
    {operand : Expr}
    (expects : reader.mode = .operator purpose frames operand) :
    Charges reader token (reader.feedOperator purpose frames operand token) := by
  obtain ⟨filled, split, found⟩ :=
    exists_filled_collapse (stopLevel token.kind) reader.errors operand frames
  rw [feedOperator_eq, collapseTo]
  generalize collapse (stopLevel token.kind) reader.errors operand frames = collapsed at *
  obtain ⟨expr, outer, errors⟩ := collapsed
  dsimp only at split found ⊢
  subst found
  have waited :
      reader.mode.pending =
        filled.filterMap Frame.error? ++ outer.filterMap Frame.error? := by
    rw [Mode.pending, expects, ← filterMap_append, ← split]
    rfl
  unfold afterCollapse
  split
  · exact .spare _ waited rfl (Sublist.refl _)
  · split
    · exact .spare _ waited rfl (Sublist.refl _)
    · exact .intro _ _ [] [{ token, fault := .invalidAssignmentTarget }] waited rfl
        (error?_assign_sublist expr token outer) (Sublist.refl _)
    · exact charges_feedClosing waited purpose expr

/-- The first token of a statement. -/
theorem charges_feedStatement
    (bare : reader.mode.frames = []) :
    Charges reader token (reader.feedStatement token) := by
  by_cases isBreak : token.kind = .keyword .breakWord
  · rw [feedStatement_break reader isBreak]
    cases inside : reader.inLoop with
    | true => exact .spareBare [] rfl rfl rfl
    | false => exact .blame [] rfl rfl rfl
  · unfold feedStatement
    split
    case h_5 begins => exact (isBreak begins).elim
    case h_7 => exact charges_feedOperand _ bare
    all_goals exact .spareBare [] rfl rfl rfl

/-- The first token of a declaration, or the end of a block. -/
theorem charges_feedDeclaration
    (bare : reader.mode.frames = []) :
    Charges reader token (reader.feedDeclaration token) := by
  unfold feedDeclaration
  split
  · rename_i closed closes
    exact .spareBare [] rfl (errors_closedBy? closes) (frames_closedBy? closes)
  · split
    · exact .spareBare [] rfl rfl rfl
    · exact charges_feedStatement bare

/-- A token while reading looks for the next statement. -/
theorem charges_feedSkipping
    (bare : reader.mode.frames = []) :
    Charges reader token (reader.feedSkipping token) := by
  unfold feedSkipping
  split
  · rename_i closed closes
    exact .spareBare [] rfl (errors_closedBy? closes) (frames_closedBy? closes)
  · split
    · exact charges_feedDeclaration bare
    · split
      · exact .spareBare [] rfl rfl rfl
      · exact .spareBare [] rfl rfl bare

/-- What settling a conditional leaves is charged as the reader before. -/
theorem Charges.of_settle
    {complete : Stmt}
    (bare : reader.mode.frames = [])
    (charges : Charges (reader.settle complete) token later) :
    Charges reader token later := by
  have noneWaited : (reader.settle complete).mode.pending = reader.mode.pending := by
    rw [Mode.pending_of_bare bare]
    rfl
  obtain ⟨filled, kept, atOnce, deferred, waited, errors, waits, once⟩ := charges
  exact .intro filled kept atOnce deferred (noneWaited ▸ waited) errors waits once

/-- What any token does to the errors found and to those pending. -/
theorem charges_feed
    (reader : Reader)
    (token : Token) :
    Charges reader token (reader.feed token) := by
  unfold feed
  cases expects : reader.mode with
  | declaration => exact charges_feedDeclaration (by rw [expects]; rfl)
  | statement => exact charges_feedStatement (by rw [expects]; rfl)
  | afterThen condition thenBranch =>
      dsimp only
      split
      · exact .spareBare [] rfl rfl rfl
      · exact .of_settle (by rw [expects]; rfl) (charges_feedDeclaration rfl)
  | header begun =>
      dsimp only
      split
      · cases begun <;> exact .spareBare [] rfl rfl rfl
      · exact charges_reject [] rfl _
  | name place =>
      dsimp only
      split
      · exact .spareBare [] rfl rfl rfl
      · exact charges_reject [] rfl _
  | afterName place name =>
      dsimp only
      split
      · exact .spareBare [] rfl rfl rfl
      · exact .spareBare [] rfl (errors_completeAt _ _ _) (frames_completeAt _ _ _)
      · exact charges_reject [] rfl _
  | forInitial =>
      dsimp only
      split
      · exact .spareBare [] rfl rfl rfl
      · exact .spareBare [] rfl rfl rfl
      · exact charges_feedOperand _ (by rw [expects]; rfl)
  | forCondition initial =>
      dsimp only
      split
      · exact .spareBare [] rfl rfl rfl
      · exact charges_feedOperand _ (by rw [expects]; rfl)
  | forStep initial condition =>
      dsimp only
      split
      · exact .spareBare [] rfl rfl rfl
      · exact charges_feedOperand _ (by rw [expects]; rfl)
  | leave word =>
      dsimp only
      split
      · exact .spareBare [] rfl (errors_complete _ _) (frames_completeIn _ _ _)
      · exact charges_reject [] rfl _
  | operand purpose frames => exact charges_feedOperand _ (by rw [expects]; rfl)
  | operator purpose frames operand => exact charges_feedOperator expects
  | skipping => exact charges_feedSkipping (by rw [expects]; rfl)

/-- The errors other than those about the left side of an assignment, in order. -/
def rejections
    (errors : List GrammarError) :
    List GrammarError :=
  errors.filter fun error => error.fault ≠ .invalidAssignmentTarget

/-- Errors that frames bring to light are not among the rejections. -/
theorem rejections_of_pending
    {mode : Mode}
    {filled kept : List GrammarError}
    (waited : mode.pending = filled ++ kept) :
    rejections filled = [] := by
  refine filter_eq_nil_iff.mpr fun error isFilled => ?_
  have isPending : error ∈ mode.pending := by
    rw [waited]
    exact mem_append_left kept isFilled
  obtain ⟨frame, _, blames⟩ := mem_filterMap.mp isPending
  simp [frame.fault_of_error? blames]

/--
The tokens blamed and those that pending errors blame are among the tokens taken, each
as often at most; rejections blame tokens in the order in which these were taken.
-/
structure Accounts
    (taken : List Token)
    (reader : Reader) :
    Prop where
  each : (reader.errors ++ reader.mode.pending).map GrammarError.token <+~ taken
  inOrder : (rejections reader.errors.reverse).map GrammarError.token <+ taken

/-- Nothing has been blamed before the first token. -/
theorem accounts_start :
    start.Accounts [] :=
  ⟨Subperm.refl [], Sublist.refl []⟩

/-- A token adds at most itself to the tokens that are blamed or will be. -/
theorem Charges.each
    (charges : Charges reader token later) :
    (later.errors ++ later.mode.pending).map GrammarError.token <+~
      (reader.errors ++ reader.mode.pending).map GrammarError.token ++ [token] := by
  obtain ⟨filled, kept, atOnce, deferred, waited, errors, waits, once⟩ := charges
  have fewer :
      later.errors ++ later.mode.pending <+
        atOnce.reverse ++ (filled.reverse ++ reader.errors) ++ (deferred ++ kept) := by
    rw [errors]
    exact (Sublist.refl _).append waits
  have same :
      atOnce.reverse ++ (filled.reverse ++ reader.errors) ++ (deferred ++ kept) ~
        reader.errors ++ reader.mode.pending ++ (atOnce ++ deferred) := by
    rw [waited, perm_iff_count]
    intro error
    simp only [count_append, count_reverse]
    omega
  have added :
      (reader.errors ++ reader.mode.pending ++ (atOnce ++ deferred)).map GrammarError.token <+
        (reader.errors ++ reader.mode.pending).map GrammarError.token ++ [token] := by
    rw [map_append]
    exact (Sublist.refl _).append once
  exact (fewer.map _).subperm.trans ((same.map _).subperm.trans added.subperm)

/-- A token adds at most itself to the tokens that rejections blame, behind all others. -/
theorem Charges.inOrder
    (charges : Charges reader token later) :
    (rejections later.errors.reverse).map GrammarError.token <+
      (rejections reader.errors.reverse).map GrammarError.token ++ [token] := by
  obtain ⟨filled, kept, atOnce, deferred, waited, errors, _, once⟩ := charges
  have split :
      rejections later.errors.reverse =
        rejections reader.errors.reverse ++ rejections atOnce := by
    have noneFilled := rejections_of_pending waited
    unfold rejections at noneFilled ⊢
    simp only [errors, reverse_append, reverse_reverse, filter_append, noneFilled, append_nil]
  have atMost : (rejections atOnce).map GrammarError.token <+ [token] := by
    rw [map_append] at once
    exact (filter_sublist.map _).trans ((sublist_append_left _ _).trans once)
  rw [split, map_append]
  exact (Sublist.refl _).append atMost

/-- A token taken keeps the account. -/
theorem Accounts.feed
    {taken : List Token}
    (accounts : reader.Accounts taken)
    (token : Token) :
    (reader.feed token).Accounts (taken ++ [token]) where
  each := (charges_feed reader token).each.trans ((subperm_append_right [token]).mpr accounts.each)
  inOrder := (charges_feed reader token).inOrder.trans (accounts.inOrder.append_right [token])

/-- Tokens taken keep the account. -/
theorem Accounts.feedAll
    {taken : List Token}
    (accounts : reader.Accounts taken)
    (tokens : List Token) :
    (reader.feedAll tokens).Accounts (taken ++ tokens) := by
  induction tokens generalizing reader taken with
  | nil =>
      rw [append_nil]
      exact accounts
  | cons token tokens inductionHypothesis =>
      rw [append_cons]
      exact inductionHypothesis (accounts.feed token)

/-- The end of the input is charged as any token is, though some modes pass it over. -/
theorem charges_endStatement
    (reader : Reader)
    (ending : Token) :
    Charges reader ending (reader.endStatement ending) := by
  unfold endStatement
  split
  · exact .spare [] rfl rfl (Sublist.refl _)
  · exact .spare [] rfl rfl (Sublist.refl _)
  · exact .spareBare [] rfl rfl rfl
  · exact charges_feed reader ending

/-- The end of the input closes no block. -/
theorem outer_endStatement
    (reader : Reader)
    {ending : Token}
    (isEnding : ending.kind = .endOfInput) :
    (reader.endStatement ending).outer = reader.outer := by
  unfold endStatement
  split
  · rfl
  · rfl
  · rfl
  · exact outer_feed_of_notBrace reader (by rw [isEnding]; rfl)

/--
The end of the input is blamed behind all other tokens: once for each open block, and
once more at most for the statement that was being read.
-/
theorem Accounts.finish
    {taken : List Token}
    (accounts : reader.Accounts taken)
    {ending : Token}
    (isEnding : ending.kind = .endOfInput) :
    ∃ inner atEnd,
      (reader.finish ending).errors = inner ++ atEnd ∧
        inner.map GrammarError.token <+~ taken ∧
          (rejections inner).map GrammarError.token <+ taken ∧
            (∀ error ∈ atEnd, error.token = ending) ∧
              atEnd.length ≤ reader.outer.length + 1 := by
  obtain ⟨filled, kept, atOnce, deferred, waited, errors, _, once⟩ :=
    charges_endStatement reader ending
  let unclosed : GrammarError := { token := ending, fault := .expectBraceAfterBlock }
  have blamesEnd : atOnce.map GrammarError.token <+ [ending] := by
    rw [map_append] at once
    exact (sublist_append_left _ _).trans once
  refine ⟨reader.errors.reverse ++ filled, atOnce ++ replicate reader.outer.length unclosed,
    ?_, ?_, ?_, ?_, ?_⟩
  · simp only [Reader.finish, Reader.program, errors, outer_endStatement reader isEnding,
      reverse_append, reverse_reverse, reverse_replicate, append_assoc, unclosed]
  · have among : reader.errors ++ filled <+ reader.errors ++ reader.mode.pending := by
      rw [waited, ← append_assoc]
      exact sublist_append_left _ _
    have same : reader.errors.reverse ++ filled ~ reader.errors ++ filled :=
      (reverse_perm _).append_right filled
    exact (same.map _).subperm.trans ((among.map _).subperm.trans accounts.each)
  · have noneFilled := rejections_of_pending waited
    have inOrder := accounts.inOrder
    unfold rejections at noneFilled inOrder ⊢
    rwa [filter_append, noneFilled, append_nil]
  · rw [forall_mem_append]
    constructor
    · intro error isBlamed
      exact mem_singleton.mp (blamesEnd.subset (mem_map_of_mem isBlamed))
    · intro error isUnclosed
      rw [(mem_replicate.mp isUnclosed).2]
  · have atMost := blamesEnd.length_le
    simp only [length_map, length_append, length_replicate, length_singleton] at atMost ⊢
    omega

end Reader

namespace Grammar

open List Reader

/-- No more blocks are open than opening braces were taken. -/
theorem length_outer_start_feedAll_le
    (tokens : List Token) :
    (start.feedAll tokens).outer.length ≤ openingBraces tokens := by
  have early :
      ∀ initial, initial <+: tokens →
        closingBraces initial ≤ openingBraces initial + closingBraces tokens := by
    intro initial isPrefix
    have fewer : closingBraces initial ≤ closingBraces tokens := isPrefix.sublist.countP_le
    omega
  have noneOpen : start.outer.length ≤ closingBraces tokens := Nat.zero_le _
  have bound := length_outer_feedAll_le noneOpen early
  omega

/-- Every error blames a token that was read. -/
theorem mem_of_mem_errors
    {tokens : List Token}
    {last : Token}
    (isLast : tokens.getLast? = some last)
    (ends : last.kind = .endOfInput)
    {error : GrammarError}
    (found : error ∈ (Program.ofTokens tokens).errors) :
    error.token ∈ tokens := by
  obtain ⟨ending, rest, same, isEnding⟩ := exists_append_beforeEnd isLast ends
  obtain ⟨inner, atEnd, split, each, _, blamesEnd, _⟩ :=
    (accounts_start.feedAll (beforeEnd tokens)).finish isEnding
  rw [ofTokens_eq_finish same isEnding, split] at found
  rw [same]
  rcases mem_append.mp found with isInner | isAtEnd
  · exact mem_append_left _ (each.subset (mem_map_of_mem isInner))
  · rw [blamesEnd error isAtEnd]
    exact mem_append_right _ mem_cons_self

/--
No token is blamed twice.  Tokens before the end are blamed at most as often as they
occur, those of the errors that reject a token in their order, and the end of the input
is blamed behind them, at most once more than there are opening braces.
-/
theorem no_token_is_blamed_twice
    {tokens : List Token}
    {last : Token}
    (isLast : tokens.getLast? = some last)
    (ends : last.kind = .endOfInput) :
    ∃ inner atEnd,
      (Program.ofTokens tokens).errors = inner ++ atEnd ∧
        (∀ error ∈ inner, error.token.kind ≠ .endOfInput) ∧
          (∀ error ∈ atEnd, error.token.kind = .endOfInput) ∧
            inner.map GrammarError.token <+~ beforeEnd tokens ∧
              (rejections inner).map GrammarError.token <+ beforeEnd tokens ∧
                atEnd.length ≤ openingBraces (beforeEnd tokens) + 1 := by
  obtain ⟨ending, rest, same, isEnding⟩ := exists_append_beforeEnd isLast ends
  obtain ⟨inner, atEnd, found, each, inOrder, blamesEnd, atMost⟩ :=
    (accounts_start.feedAll (beforeEnd tokens)).finish isEnding
  refine ⟨inner, atEnd, ?_, ?_, ?_, each, inOrder, ?_⟩
  · rw [ofTokens_eq_finish same isEnding, found]
  · intro error isInner
    exact kind_ne_of_mem_beforeEnd _ (each.subset (mem_map_of_mem isInner))
  · intro error isAtEnd
    rw [blamesEnd error isAtEnd, isEnding]
  · have opened := length_outer_start_feedAll_le (beforeEnd tokens)
    omega

/-- The kinds of the tokens in `{ break; 1 = 2 = 3; print ); { var`. -/
def crookedNest : List Kind :=
  [.mark .leftBrace, .keyword .breakWord, .mark .semicolon, .number, .mark .equal, .number,
    .mark .equal, .number, .mark .semicolon, .keyword .printWord, .mark .rightParen,
    .mark .semicolon, .mark .leftBrace, .keyword .varWord]

/-- Four tokens are blamed before the end, and the end once more than there are braces. -/
theorem no_token_is_blamed_twice_crookedNest :
    (Program.ofTokens (tokensOfKinds crookedNest)).errors.map (fun error => error.token.kind) =
        [.keyword .breakWord, .mark .equal, .mark .equal, .mark .rightParen, .endOfInput,
          .endOfInput, .endOfInput] ∧
      ∃ inner atEnd,
        (Program.ofTokens (tokensOfKinds crookedNest)).errors = inner ++ atEnd ∧
          (∀ error ∈ inner, error.token.kind ≠ .endOfInput) ∧
            (∀ error ∈ atEnd, error.token.kind = .endOfInput) ∧
              inner.map GrammarError.token <+~ beforeEnd (tokensOfKinds crookedNest) ∧
                (rejections inner).map GrammarError.token <+
                    beforeEnd (tokensOfKinds crookedNest) ∧
                  atEnd.length ≤ openingBraces (beforeEnd (tokensOfKinds crookedNest)) + 1 :=
  ⟨by decide, no_token_is_blamed_twice rfl rfl⟩

end Grammar

end BlockScript
