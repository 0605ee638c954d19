import BlockScript.Proofs.Reading.Boundaries
import BlockScript.Proofs.Reading.Effect
import Mathlib.Data.List.Infix

namespace BlockScript

/-!
# Errors inside a block

A closing brace always ends the innermost block, whatever is being read, and an
opening brace begins one only where a statement is expected; elsewhere it is
blamed or passed over, and the brace that belongs to it then ends a block too
many.  An error in a block with balanced braces therefore stays in that block
exactly when each of its opening braces begins a block.
-/

namespace Reader

/-- Completing a statement opens and closes no block. -/
@[simp]
theorem outer_completeIn
    (reader : Reader)
    (statement : Stmt)
    (clauses : List Clause) :
    (reader.completeIn statement clauses).outer = reader.outer := by
  induction clauses generalizing statement with
  | nil =>
      rfl
  | cons clause outer inductionHypothesis =>
      cases clause with
      | ifThen condition => rfl
      | _ => exact inductionHypothesis _

/-- Completing a statement opens and closes no block. -/
@[simp]
theorem outer_complete
    (reader : Reader)
    (statement : Stmt) :
    (reader.complete statement).outer = reader.outer :=
  outer_completeIn reader statement reader.clauses

/-- Settling a conditional opens and closes no block. -/
@[simp]
theorem outer_settled
    (reader : Reader) :
    reader.settled.outer = reader.outer := by
  unfold settled
  split <;> rfl

/-- A conditional that has been settled leaves a place for a statement. -/
theorem takesStatement_settled
    (reader : Reader) :
    reader.settled.takesStatement = reader.takesStatement := by
  cases expects : reader.mode <;> simp [settled, expects, takesStatement, settle]

/-- Only a closing brace ends a block. -/
theorem kind_of_closedBy?
    {reader closed : Reader}
    {token : Token}
    (ends : reader.closedBy? token = some closed) :
    token.kind = .mark .rightBrace := by
  unfold closedBy? at ends
  split at ends
  · assumption
  · cases ends

/-- The block that a closing brace ends is complete in what was around it. -/
theorem closedBy?_nested
    {reader : Reader}
    {block : OpenBlock}
    {outer : List OpenBlock}
    {token : Token}
    (nested : reader.outer = block :: outer)
    (closes : token.kind = .mark .rightBrace) :
    reader.closedBy? token =
      some
        ({ errors := reader.errors
           outer
           done := block.before
           clauses := block.clauses
           mode := .declaration : Reader }.complete (.block reader.done.reverse)) := by
  simp only [closedBy?, closes, nested]
  exact congrArg some
    (complete_inMode
      { errors := reader.errors
        outer
        done := block.before
        clauses := block.clauses
        mode := .declaration }
      reader.mode _)

/-- A token other than the brace that ends the innermost block leaves it open. -/
theorem outer_reject
    (reader : Reader)
    (token : Token)
    (fault : GrammarFault)
    (stays : token.kind ≠ .mark .rightBrace ∨ reader.outer = []) :
    (reader.reject token fault).outer = reader.outer := by
  have notClosed : (reader.record { token, fault }).closedBy? token = none := by
    rcases stays with notBrace | outside
    · unfold closedBy?
      split
      · rename_i closes _
        exact (notBrace closes).elim
      · rfl
    · exact closedBy?_of_outer_nil (reader.record { token, fault }) outside token
  simp only [reject, notClosed]
  rfl

variable {reader result : Reader} {token : Token}

/-- A token that is not a brace opens and closes no block. -/
theorem Effect.outer_of_notBrace
    (effect : Effect reader token result)
    (notBrace : token.kind.isBrace = false) :
    result.outer = reader.outer := by
  have notRight : token.kind ≠ .mark .rightBrace := by
    intro isRight
    rw [isRight] at notBrace
    cases notBrace
  cases effect with
  | expects => rfl
  | completes noted statement => exact outer_complete (reader.noting noted) statement
  | awaits => rfl
  | opens isBrace =>
      rw [isBrace] at notBrace
      cases notBrace
  | closes ends => exact (notRight (kind_of_closedBy? ends)).elim
  | rejects noted fault => exact outer_reject (reader.noting noted) token fault (.inl notRight)
  | skips => rfl

/-- An opening brace begins a block exactly where a statement is expected. -/
theorem Effect.outer_of_leftBrace
    (effect : Effect reader token result)
    (opens : token.kind = .mark .leftBrace) :
    (reader.takesStatement = true →
      result.outer = { before := reader.done, clauses := reader.clauses } :: reader.outer) ∧
    (reader.takesStatement = false → result.outer = reader.outer) := by
  have isBrace : token.kind.isBrace = true := by
    rw [opens]
    rfl
  have notRight : token.kind ≠ .mark .rightBrace := by
    rw [opens]
    decide
  cases effect with
  | expects _ _ notBrace => simp [isBrace] at notBrace
  | completes _ _ notBrace => simp [isBrace] at notBrace
  | awaits _ _ notBrace => simp [isBrace] at notBrace
  | opens _ taken => exact ⟨fun _ => rfl, fun notTaken => by simp [taken] at notTaken⟩
  | closes ends => exact (notRight (kind_of_closedBy? ends)).elim
  | rejects noted fault _ notTaken =>
      refine ⟨fun taken => by simp [notTaken opens] at taken, fun _ => ?_⟩
      exact outer_reject (reader.noting noted) token fault (.inl notRight)
  | skips skipping =>
      exact ⟨fun taken => by simp [takesStatement, skipping] at taken, fun _ => rfl⟩

/-- A closing brace completes the innermost block, whatever is being read. -/
theorem Effect.eq_complete_of_rightBrace
    (effect : Effect reader token result)
    (closes : token.kind = .mark .rightBrace)
    {block : OpenBlock}
    {outer : List OpenBlock}
    (nested : reader.outer = block :: outer) :
    ∃ errors statements,
      result =
        { errors, outer, done := block.before, clauses := block.clauses,
          mode := .declaration : Reader }.complete (.block statements) := by
  have isBrace : token.kind.isBrace = true := by
    rw [closes]
    rfl
  cases effect with
  | expects _ _ notBrace => simp [isBrace] at notBrace
  | completes _ _ notBrace => simp [isBrace] at notBrace
  | awaits _ _ notBrace => simp [isBrace] at notBrace
  | opens isLeft =>
      rw [isLeft] at closes
      cases closes
  | closes ends =>
      rw [closedBy?_nested nested closes] at ends
      exact ⟨_, _, (Option.some.inj ends).symm⟩
  | rejects noted fault =>
      have recorded :
          ((reader.noting noted).record { token, fault }).outer = block :: outer :=
        nested
      have ends := closedBy?_nested recorded closes
      refine ⟨{ token, fault } :: (reader.noting noted).errors, reader.done.reverse, ?_⟩
      simp only [Reader.reject, ends]
      rfl
  | skips _ notClosed =>
      rw [closedBy?_nested nested closes] at notClosed
      cases notClosed

/-- Outside every block a closing brace is blamed or passed over. -/
theorem Effect.skipping_of_rightBrace
    (effect : Effect reader token result)
    (closes : token.kind = .mark .rightBrace)
    (outside : reader.outer = []) :
    result.outer = [] ∧ result.mode = .skipping := by
  have isBrace : token.kind.isBrace = true := by
    rw [closes]
    rfl
  cases effect with
  | expects _ _ notBrace => simp [isBrace] at notBrace
  | completes _ _ notBrace => simp [isBrace] at notBrace
  | awaits _ _ notBrace => simp [isBrace] at notBrace
  | opens isLeft =>
      rw [isLeft] at closes
      cases closes
  | closes ends =>
      rw [closedBy?_of_outer_nil reader outside] at ends
      cases ends
  | rejects noted fault =>
      rw [reject_of_outer_nil (reader.noting noted) outside, closes]
      exact ⟨outside, rfl⟩
  | skips skipping => exact ⟨outside, skipping⟩

/-- A token that is not a brace opens and closes no block. -/
theorem outer_feed_of_notBrace
    (reader : Reader)
    {token : Token}
    (notBrace : token.kind.isBrace = false) :
    (reader.feed token).outer = reader.outer := by
  rcases effect_feed reader token with effect | effect
  · exact effect.outer_of_notBrace notBrace
  · exact (effect.outer_of_notBrace notBrace).trans (outer_settled reader)

/-- An opening brace where a statement is expected begins a block. -/
theorem exists_outer_feed_leftBrace
    (reader : Reader)
    {token : Token}
    (opens : token.kind = .mark .leftBrace)
    (taken : reader.takesStatement = true) :
    ∃ block, (reader.feed token).outer = block :: reader.outer := by
  rcases effect_feed reader token with effect | effect
  · exact ⟨_, (effect.outer_of_leftBrace opens).1 taken⟩
  · have begun :=
      (effect.outer_of_leftBrace opens).1 ((takesStatement_settled reader).trans taken)
    rw [outer_settled] at begun
    exact ⟨_, begun⟩

/-- An opening brace elsewhere begins none. -/
theorem outer_feed_leftBrace
    (reader : Reader)
    {token : Token}
    (opens : token.kind = .mark .leftBrace)
    (notTaken : reader.takesStatement = false) :
    (reader.feed token).outer = reader.outer := by
  rcases effect_feed reader token with effect | effect
  · exact (effect.outer_of_leftBrace opens).2 notTaken
  · have same :=
      (effect.outer_of_leftBrace opens).2 ((takesStatement_settled reader).trans notTaken)
    rwa [outer_settled] at same

/-- A closing brace completes the innermost block, whatever is being read. -/
theorem exists_feed_rightBrace
    {reader : Reader}
    {block : OpenBlock}
    {outer : List OpenBlock}
    (nested : reader.outer = block :: outer)
    {token : Token}
    (closes : token.kind = .mark .rightBrace) :
    ∃ errors statements,
      reader.feed token =
        { errors, outer, done := block.before, clauses := block.clauses,
          mode := .declaration : Reader }.complete (.block statements) := by
  rcases effect_feed reader token with effect | effect
  · exact effect.eq_complete_of_rightBrace closes nested
  · exact effect.eq_complete_of_rightBrace closes ((outer_settled reader).trans nested)

/-- Outside every block a closing brace is blamed or passed over. -/
theorem skipping_feed_rightBrace
    {reader : Reader}
    (outside : reader.outer = [])
    {token : Token}
    (closes : token.kind = .mark .rightBrace) :
    (reader.feed token).outer = [] ∧ (reader.feed token).mode = .skipping := by
  rcases effect_feed reader token with effect | effect
  · exact effect.skipping_of_rightBrace closes outside
  · exact effect.skipping_of_rightBrace closes ((outer_settled reader).trans outside)

/-- A closing brace ends at most the innermost block. -/
theorem outer_feed_rightBrace
    (reader : Reader)
    {token : Token}
    (closes : token.kind = .mark .rightBrace) :
    (reader.feed token).outer = reader.outer.tail := by
  cases nested : reader.outer with
  | nil => exact (skipping_feed_rightBrace nested closes).1
  | cons block outer =>
      obtain ⟨errors, statements, completed⟩ := exists_feed_rightBrace nested closes
      rw [completed, outer_complete]
      rfl

/-- Every error blames an allowed token, and so will those that the waiting frames hold. -/
structure BlamesOnly
    (allowed : Token → Prop)
    (reader : Reader) :
    Prop where
  errors : ∀ error ∈ reader.errors, allowed error.token
  frames : ∀ frame ∈ reader.mode.frames, ∀ error ∈ frame.error?, allowed error.token

/-- Completing a statement leaves no frame. -/
theorem frames_completeIn
    (reader : Reader)
    (statement : Stmt)
    (clauses : List Clause) :
    (reader.completeIn statement clauses).mode.frames = [] := by
  induction clauses generalizing statement with
  | nil =>
      rfl
  | cons clause outer inductionHypothesis =>
      cases clause with
      | ifThen condition => rfl
      | _ => exact inductionHypothesis _

/-- Closing a block leaves no frame. -/
theorem frames_closedBy?
    {reader closed : Reader}
    {token : Token}
    (ends : reader.closedBy? token = some closed) :
    closed.mode.frames = [] := by
  unfold closedBy? at ends
  split at ends
  · cases ends
    exact frames_completeIn _ _ _
  · cases ends

/-- A rejected token leaves no frame. -/
theorem frames_reject
    (reader : Reader)
    (token : Token)
    (fault : GrammarFault) :
    (reader.reject token fault).mode.frames = [] := by
  unfold reject
  dsimp only
  split
  · rename_i closed ends
    exact frames_closedBy? ends
  · dsimp only
    split <;> rfl

/-- A token brings to light errors that blame it or a frame that waited. -/
theorem Effect.blamesOnly
    {allowed : Token → Prop}
    (effect : Effect reader token result)
    (blames : reader.BlamesOnly allowed)
    (allows : allowed token) :
    result.BlamesOnly allowed := by
  have brought : ∀ error, reader.MayBlame token error → allowed error.token := by
    rintro error (isToken | ⟨frame, waits, isError⟩)
    · rw [isToken]
      exact allows
    · exact blames.frames frame waits error isError
  have noted :
      ∀ errors : List GrammarError, (∀ error ∈ errors, reader.MayBlame token error) →
        ∀ error ∈ (reader.noting errors).errors, allowed error.token := by
    intro errors mayBlame error found
    rcases List.mem_append.mp found with isNew | isOld
    · exact brought error (mayBlame error (List.mem_reverse.mp isNew))
    · exact blames.errors error isOld
  cases effect with
  | expects errors mode _ mayBlame waits =>
      exact ⟨noted errors mayBlame, fun frame found error isError =>
        brought error (waits frame found error isError)⟩
  | completes errors statement _ mayBlame =>
      refine ⟨?_, ?_⟩
      · rw [errors_complete]
        exact noted errors mayBlame
      · rw [complete, frames_completeIn]
        simp
  | awaits errors clause _ mayBlame => exact ⟨noted errors mayBlame, by simp [await, Mode.frames]⟩
  | opens => exact ⟨blames.errors, by simp [opened, Mode.frames]⟩
  | closes ends =>
      refine ⟨?_, by simp [frames_closedBy? ends]⟩
      rw [errors_closedBy? ends]
      exact blames.errors
  | rejects errors fault mayBlame =>
      refine ⟨?_, by simp [frames_reject]⟩
      rw [errors_reject, List.forall_mem_cons]
      exact ⟨allows, noted errors mayBlame⟩
  | skips => exact blames

/-- Settling a conditional finds no error. -/
theorem BlamesOnly.settled
    {allowed : Token → Prop}
    (blames : reader.BlamesOnly allowed) :
    reader.settled.BlamesOnly allowed := by
  unfold Reader.settled
  split
  · exact ⟨blames.errors, by simp [settle, Mode.frames]⟩
  · exact blames

/-- Tokens only bring to light errors that blame one of them. -/
theorem BlamesOnly.feedAll
    {allowed : Token → Prop}
    (blames : reader.BlamesOnly allowed)
    {tokens : List Token}
    (allows : ∀ token ∈ tokens, allowed token) :
    (reader.feedAll tokens).BlamesOnly allowed := by
  induction tokens generalizing reader with
  | nil =>
      exact blames
  | cons token tokens inductionHypothesis =>
      rw [List.forall_mem_cons] at allows
      have step : (reader.feed token).BlamesOnly allowed := by
        rcases effect_feed reader token with effect | effect
        · exact effect.blamesOnly blames allows.1
        · exact effect.blamesOnly blames.settled allows.1
      exact inductionHypothesis step allows.2

/-- Whether each opening brace among the next tokens begins a block. -/
def opensBlocks
    (reader : Reader) :
    List Token → Bool
  | [] => true
  | token :: rest =>
      (token.kind ≠ .mark .leftBrace || reader.takesStatement) &&
        (reader.feed token).opensBlocks rest

end Reader

namespace Grammar

/-- The number of opening braces. -/
def openingBraces
    (tokens : List Token) :
    Nat :=
  tokens.countP fun token => token.kind = .mark .leftBrace

/-- The number of closing braces. -/
def closingBraces
    (tokens : List Token) :
    Nat :=
  tokens.countP fun token => token.kind = .mark .rightBrace

/-- No closing brace comes too early, and none is missing. -/
structure Balanced
    (tokens : List Token) :
    Prop where
  early : ∀ initial, initial <+: tokens → closingBraces initial ≤ openingBraces initial
  total : openingBraces tokens = closingBraces tokens

/-- Whether the next token is an opening brace, a closing brace or neither. -/
theorem braces_cases
    (token : Token) :
    (token.kind = .mark .leftBrace ∧
      ∀ rest, openingBraces (token :: rest) = openingBraces rest + 1 ∧
        closingBraces (token :: rest) = closingBraces rest) ∨
    (token.kind = .mark .rightBrace ∧
      ∀ rest, openingBraces (token :: rest) = openingBraces rest ∧
        closingBraces (token :: rest) = closingBraces rest + 1) ∨
    (token.kind.isBrace = false ∧
      ∀ rest, openingBraces (token :: rest) = openingBraces rest ∧
        closingBraces (token :: rest) = closingBraces rest) := by
  by_cases opens : token.kind = .mark .leftBrace
  · exact .inl ⟨opens, by simp [openingBraces, closingBraces, opens]⟩
  · by_cases closes : token.kind = .mark .rightBrace
    · exact .inr (.inl ⟨closes, by simp [openingBraces, closingBraces, closes]⟩)
    · refine .inr (.inr ⟨?_, by simp [openingBraces, closingBraces, opens, closes]⟩)
      unfold Kind.isBrace
      split <;> simp_all

open Reader

/-- While every opening brace begins a block, the open blocks count the braces. -/
theorem exists_outer_feedAll
    {reader : Reader}
    {inner : List OpenBlock}
    {bottom : OpenBlock}
    (nested : reader.outer = inner ++ [bottom])
    {tokens : List Token}
    (early :
      ∀ initial, initial <+: tokens →
        closingBraces initial ≤ openingBraces initial + inner.length)
    (begins : reader.opensBlocks tokens = true) :
    ∃ left,
      (reader.feedAll tokens).outer = left ++ [bottom] ∧
        left.length + closingBraces tokens = inner.length + openingBraces tokens := by
  induction tokens generalizing reader inner with
  | nil =>
      exact ⟨inner, nested, by simp [openingBraces, closingBraces]⟩
  | cons token tokens inductionHypothesis =>
      simp only [opensBlocks, Bool.and_eq_true, Bool.or_eq_true, decide_eq_true_eq] at begins
      obtain ⟨takes, goesOn⟩ := begins
      have next : ∀ initial, initial <+: tokens → token :: initial <+: token :: tokens :=
        fun initial isPrefix => (List.prefix_cons_inj token).mpr isPrefix
      rcases braces_cases token with ⟨opens, counts⟩ | ⟨closes, counts⟩ | ⟨notBrace, counts⟩
      · have taken : reader.takesStatement = true := by
          rcases takes with notLeft | taken
          · exact (notLeft opens).elim
          · exact taken
        obtain ⟨block, begun⟩ := exists_outer_feed_leftBrace reader opens taken
        rw [nested, ← List.cons_append] at begun
        obtain ⟨left, reached, count⟩ :=
          inductionHypothesis begun
            (fun initial isPrefix => by
              have bound := early _ (next initial isPrefix)
              rw [(counts initial).1, (counts initial).2] at bound
              rw [List.length_cons]
              omega)
            goesOn
        refine ⟨left, reached, ?_⟩
        rw [(counts tokens).1, (counts tokens).2]
        rw [List.length_cons] at count
        omega
      · cases inner with
        | nil =>
            have bound := early [token] ((next [] (List.nil_prefix)))
            rw [(counts []).1, (counts []).2] at bound
            simp [openingBraces] at bound
        | cons block inner =>
            have ended : (reader.feed token).outer = inner ++ [bottom] := by
              rw [outer_feed_rightBrace reader closes, nested]
              rfl
            obtain ⟨left, reached, count⟩ :=
              inductionHypothesis ended
                (fun initial isPrefix => by
                  have bound := early _ (next initial isPrefix)
                  rw [(counts initial).1, (counts initial).2, List.length_cons] at bound
                  omega)
                goesOn
            refine ⟨left, reached, ?_⟩
            rw [(counts tokens).1, (counts tokens).2, List.length_cons]
            omega
      · obtain ⟨left, reached, count⟩ :=
          inductionHypothesis ((outer_feed_of_notBrace reader notBrace).trans nested)
            (fun initial isPrefix => by
              have bound := early _ (next initial isPrefix)
              rwa [(counts initial).1, (counts initial).2] at bound)
            goesOn
        refine ⟨left, reached, ?_⟩
        rw [(counts tokens).1, (counts tokens).2]
        exact count

/-- Once fewer blocks are open than braces, they stay fewer. -/
theorem length_outer_feedAll_le
    {reader : Reader}
    {limit : Nat}
    (fewer : reader.outer.length ≤ limit)
    {tokens : List Token}
    (early :
      ∀ initial, initial <+: tokens → closingBraces initial ≤ openingBraces initial + limit) :
    (reader.feedAll tokens).outer.length + closingBraces tokens ≤ limit + openingBraces tokens := by
  induction tokens generalizing reader limit with
  | nil =>
      simpa [openingBraces, closingBraces] using fewer
  | cons token tokens inductionHypothesis =>
      have next : ∀ initial, initial <+: tokens → token :: initial <+: token :: tokens :=
        fun initial isPrefix => (List.prefix_cons_inj token).mpr isPrefix
      rw [feedAll_cons]
      rcases braces_cases token with ⟨opens, counts⟩ | ⟨closes, counts⟩ | ⟨notBrace, counts⟩
      · have grown : (reader.feed token).outer.length ≤ limit + 1 := by
          cases taken : reader.takesStatement with
          | true =>
              obtain ⟨block, begun⟩ := exists_outer_feed_leftBrace reader opens taken
              rw [begun, List.length_cons]
              omega
          | false =>
              rw [outer_feed_leftBrace reader opens taken]
              omega
        have rest :=
          inductionHypothesis grown fun initial isPrefix => by
            have bound := early _ (next initial isPrefix)
            rw [(counts initial).1, (counts initial).2] at bound
            omega
        rw [(counts tokens).1, (counts tokens).2]
        omega
      · have positive : 1 ≤ limit := by
          have bound := early [token] (next [] List.nil_prefix)
          rw [(counts []).1, (counts []).2] at bound
          simp [openingBraces, closingBraces] at bound
          omega
        have shrunk : (reader.feed token).outer.length ≤ limit - 1 := by
          rw [outer_feed_rightBrace reader closes, List.length_tail]
          omega
        have rest :=
          inductionHypothesis shrunk fun initial isPrefix => by
            have bound := early _ (next initial isPrefix)
            rw [(counts initial).1, (counts initial).2] at bound
            omega
        rw [(counts tokens).1, (counts tokens).2]
        omega
      · rw [← outer_feed_of_notBrace reader notBrace] at fewer
        have rest :=
          inductionHypothesis fewer fun initial isPrefix => by
            have bound := early _ (next initial isPrefix)
            rwa [(counts initial).1, (counts initial).2] at bound
        rw [(counts tokens).1, (counts tokens).2]
        exact rest

/-- A block that begins at the front of a program. -/
theorem feed_start_leftBrace
    {opening : Token}
    (opens : opening.kind = .mark .leftBrace) :
    start.feed opening = start.opened := by
  rw [feed_declaration rfl, feedDeclaration_of_beginsStatement start (by rw [opens]; rfl),
    feedStatement_leftBrace start opens]

/--
Tokens in braces at the front of a program are kept as one block, whose errors
blame its own tokens, and what follows is read as a program of its own.
-/
def KeepsBlock
    (opening : Token)
    (body : List Token)
    (closing : Token)
    (rest : List Token)
    (ending : Token) :
    Prop :=
  ∃ statements errors,
    (Program.ofTokens (opening :: (body ++ closing :: (rest ++ [ending])))).statements =
        .block statements :: (Program.ofTokens (rest ++ [ending])).statements ∧
      (Program.ofTokens (opening :: (body ++ closing :: (rest ++ [ending])))).errors =
          errors ++ (Program.ofTokens (rest ++ [ending])).errors ∧
        ∀ error ∈ errors, error.token ∈ body ∨ error.token = closing

variable {opening closing ending : Token} {body rest : List Token}

/-- What is read of a program that begins with a block. -/
theorem ofTokens_block
    (opens : opening.kind = .mark .leftBrace)
    (closes : closing.kind = .mark .rightBrace)
    (ends : ending.kind = .endOfInput)
    (bodyInner : ∀ token ∈ body, token.kind ≠ .endOfInput)
    (restInner : ∀ token ∈ rest, token.kind ≠ .endOfInput) :
    Program.ofTokens (opening :: (body ++ closing :: (rest ++ [ending]))) =
      ((((start.opened.feedAll body).feed closing).feedAll rest).finish ending) := by
  have inner : ∀ token ∈ opening :: (body ++ closing :: rest), token.kind ≠ .endOfInput := by
    simp only [List.forall_mem_cons, List.forall_mem_append]
    refine ⟨by rw [opens]; decide, bodyInner, by rw [closes]; decide, restInner⟩
  have split :
      opening :: (body ++ closing :: (rest ++ [ending])) =
        (opening :: (body ++ closing :: rest)) ++ [ending] := by
    simp
  rw [split, Program.ofTokens, read_append ends _ _ inner, feedAll_cons, feed_start_leftBrace opens,
    feedAll_append, feedAll_cons]

/-- A block whose opening braces all begin blocks is kept, whatever follows it. -/
theorem keepsBlock_of_opensBlocks
    (opens : opening.kind = .mark .leftBrace)
    (closes : closing.kind = .mark .rightBrace)
    (ends : ending.kind = .endOfInput)
    (bodyInner : ∀ token ∈ body, token.kind ≠ .endOfInput)
    (restInner : ∀ token ∈ rest, token.kind ≠ .endOfInput)
    (balanced : Balanced body)
    (begins : start.opened.opensBlocks body = true) :
    KeepsBlock opening body closing rest ending := by
  have begun : start.opened.outer = [] ++ [{ before := [], clauses := [] }] := rfl
  obtain ⟨left, reached, count⟩ := exists_outer_feedAll begun balanced.early begins
  have noneLeft : left = [] := by
    have total := balanced.total
    rw [List.length_nil] at count
    exact List.length_eq_zero_iff.mp (by omega)
  rw [noneLeft, List.nil_append] at reached
  obtain ⟨errors, statements, completed⟩ := exists_feed_rightBrace reached closes
  have blames :
      ((start.opened.feedAll body).feed closing).BlamesOnly
        fun token => token ∈ body ∨ token = closing := by
    have nothing : start.opened.BlamesOnly fun token => token ∈ body ∨ token = closing :=
      ⟨by simp [opened, start], by simp [opened, Mode.frames]⟩
    have allowed : ∀ token ∈ body ++ [closing], token ∈ body ∨ token = closing := by
      simp
    have fed := nothing.feedAll allowed
    rwa [feedAll_append, feedAll_cons, feedAll_nil] at fed
  have behind :
      (start.opened.feedAll body).feed closing =
        start.after { statements := [.block statements], errors := errors.reverse } := by
    rw [completed]
    simp [complete, completeIn, start, after, outerAfter, doneAfter]
  have found : ((start.opened.feedAll body).feed closing).errors = errors := by
    rw [completed, errors_complete]
  have reads : (start.feedAll rest).finish ending = Program.ofTokens (rest ++ [ending]) := by
    rw [Program.ofTokens, read_append ends _ _ restInner]
  refine ⟨statements, errors.reverse, ?_, ?_, ?_⟩
  · rw [ofTokens_block opens closes ends bodyInner restInner, behind, feedAll_after, finish_after,
      reads]
    rfl
  · rw [ofTokens_block opens closes ends bodyInner restInner, behind, feedAll_after, finish_after,
      reads]
    rfl
  · intro error isError
    rw [List.mem_reverse, ← found] at isError
    exact blames.errors error isError

/-- An opening brace that begins no block leaves the closing one outside every block. -/
theorem outer_eq_nil_of_not_opensBlocks
    {reader : Reader}
    {limit : Nat}
    (nested : reader.outer.length ≤ limit + 1)
    {tokens : List Token}
    (early :
      ∀ initial, initial <+: tokens → closingBraces initial ≤ openingBraces initial + limit)
    (total : closingBraces tokens = openingBraces tokens + limit)
    (misses : reader.opensBlocks tokens = false) :
    (reader.feedAll tokens).outer = [] := by
  induction tokens generalizing reader limit with
  | nil =>
      cases misses
  | cons token tokens inductionHypothesis =>
      have next : ∀ initial, initial <+: tokens → token :: initial <+: token :: tokens :=
        fun initial isPrefix => (List.prefix_cons_inj token).mpr isPrefix
      rw [feedAll_cons]
      rcases braces_cases token with ⟨opens, counts⟩ | ⟨closes, counts⟩ | ⟨notBrace, counts⟩
      · have earlyRest :
            ∀ initial, initial <+: tokens →
              closingBraces initial ≤ openingBraces initial + (limit + 1) := by
          intro initial isPrefix
          have bound := early _ (next initial isPrefix)
          rw [(counts initial).1, (counts initial).2] at bound
          omega
        rw [(counts tokens).1, (counts tokens).2] at total
        cases taken : reader.takesStatement with
        | true =>
            obtain ⟨block, begun⟩ := exists_outer_feed_leftBrace reader opens taken
            have nestedNext : (reader.feed token).outer.length ≤ limit + 1 + 1 := by
              rw [begun, List.length_cons]
              omega
            have missesNext : (reader.feed token).opensBlocks tokens = false := by
              simpa [opensBlocks, taken] using misses
            exact inductionHypothesis nestedNext earlyRest (by omega) missesNext
        | false =>
            -- This brace is missed, so that fewer blocks are open than braces from here on.
            have fewer : (reader.feed token).outer.length ≤ limit + 1 := by
              rw [outer_feed_leftBrace reader opens taken]
              exact nested
            have bound := length_outer_feedAll_le fewer earlyRest
            exact List.length_eq_zero_iff.mp (by omega)
      · have positive : 1 ≤ limit := by
          have bound := early [token] (next [] List.nil_prefix)
          rw [(counts []).1, (counts []).2] at bound
          simp [openingBraces, closingBraces] at bound
          omega
        rw [(counts tokens).1, (counts tokens).2] at total
        have nestedNext : (reader.feed token).outer.length ≤ limit - 1 + 1 := by
          rw [outer_feed_rightBrace reader closes, List.length_tail]
          omega
        have missesNext : (reader.feed token).opensBlocks tokens = false := by
          simpa [opensBlocks, closes] using misses
        refine inductionHypothesis nestedNext ?_ (by omega) missesNext
        intro initial isPrefix
        have bound := early _ (next initial isPrefix)
        rw [(counts initial).1, (counts initial).2] at bound
        omega
      · rw [(counts tokens).1, (counts tokens).2] at total
        have notLeft : token.kind ≠ .mark .leftBrace := by
          intro isLeft
          rw [isLeft] at notBrace
          cases notBrace
        have missesNext : (reader.feed token).opensBlocks tokens = false := by
          simpa [opensBlocks, notLeft] using misses
        rw [← outer_feed_of_notBrace reader notBrace] at nested
        refine inductionHypothesis nested ?_ total missesNext
        intro initial isPrefix
        have bound := early _ (next initial isPrefix)
        rwa [(counts initial).1, (counts initial).2] at bound

/-- A reader that looks for the next statement passes over a statement without a word. -/
theorem statements_of_skipping
    {reader : Reader}
    (outside : reader.outer = [])
    (skipping : reader.mode = .skipping)
    {name semicolon : Token}
    (isName : name.kind = .identifier)
    (isSemicolon : semicolon.kind = .mark .semicolon)
    (ending : Token) :
    ((reader.feedAll [name, semicolon]).finish ending).statements =
      (reader.finish ending).statements := by
  have passed : reader.feed name = reader := by
    simp [Reader.feed, skipping, feedSkipping, closedBy?_of_outer_nil reader outside, isName,
      resumesAt]
  have resumed : reader.feed semicolon = { reader with mode := .declaration } := by
    simp [Reader.feed, skipping, feedSkipping, closedBy?_of_outer_nil reader outside, isSemicolon,
      resumesAt]
  rw [feedAll_cons, passed, feedAll_cons, resumed, feedAll_nil]
  simp [finish, endStatement, skipping, program, kept, outside]

/--
A block with balanced braces is kept whatever follows it exactly when each
opening brace in it begins a block.
-/
theorem keepsBlock_iff_opensBlocks
    (opens : opening.kind = .mark .leftBrace)
    (closes : closing.kind = .mark .rightBrace)
    (ends : ending.kind = .endOfInput)
    (inner : ∀ token ∈ body, token.kind ≠ .endOfInput)
    (balanced : Balanced body) :
    (∀ rest : List Token, (∀ token ∈ rest, token.kind ≠ .endOfInput) →
        KeepsBlock opening body closing rest ending) ↔
      start.opened.opensBlocks body = true := by
  constructor
  · intro kept
    by_contra misses
    rw [Bool.not_eq_true] at misses
    have outside : (start.opened.feedAll body).outer = [] :=
      outer_eq_nil_of_not_opensBlocks (Nat.le_refl 1) balanced.early balanced.total.symm misses
    obtain ⟨stillOutside, skipping⟩ := skipping_feed_rightBrace outside closes
    -- The closing brace is blamed or passed over, so that a statement behind it is lost.
    let name : Token := { kind := .identifier, lexeme := "", literal := .nil, line := 1 }
    let semicolon : Token := { kind := .mark .semicolon, lexeme := "", literal := .nil, line := 1 }
    have restInner : ∀ token ∈ [name, semicolon], token.kind ≠ .endOfInput := by
      simp [name, semicolon]
    have isStatement : BodyPhrase false [name, semicolon] [.expression (.lookup name)] [] :=
      .statement (.expression (ExprPhrase.atom rfl).loosest rfl) .nil
    have noStatement : BodyPhrase false [] [] [] := .nil
    obtain ⟨alone, _, ofNothing, _⟩ := kept [] (by simp)
    obtain ⟨block, _, ofStatement, _⟩ := kept [name, semicolon] restInner
    rw [ofTokens_block opens closes ends inner (by simp), feedAll_nil,
      noStatement.ofTokens_eq ends []] at ofNothing
    rw [ofTokens_block opens closes ends inner restInner,
      statements_of_skipping stillOutside skipping rfl rfl, ofNothing,
      isStatement.ofTokens_eq ends []] at ofStatement
    cases ofStatement
  · intro begins rest restInner
    exact keepsBlock_of_opensBlocks opens closes ends inner restInner balanced begins

/-- Braces are balanced when no list of first tokens has a closing brace too many. -/
theorem balanced_of_inits
    {tokens : List Token}
    (early : ∀ initial ∈ tokens.inits, closingBraces initial ≤ openingBraces initial)
    (total : openingBraces tokens = closingBraces tokens) :
    Balanced tokens :=
  ⟨fun initial isPrefix => early initial ((List.mem_inits initial tokens).mpr isPrefix), total⟩

/-- The tokens of `x ; { ) ; x } while ( x`, in which the brace stands before a statement. -/
def braceBeforeStatement : List Token :=
  [.identifier, .mark .semicolon, .mark .leftBrace, .mark .rightParen, .mark .semicolon,
    .identifier, .mark .rightBrace, .keyword .whileWord, .mark .leftParen,
    .identifier].map Program.bareToken

/-- The tokens of `1 + { x ; }`, in which the brace stands before an operand. -/
def braceBeforeOperand : List Token :=
  [.number, .mark .plus, .mark .leftBrace, .identifier, .mark .semicolon,
    .mark .rightBrace].map Program.bareToken

/-- The errors of a block stay in it when its brace stands before a statement, and may not else. -/
theorem keepsBlock_braceBeforeStatement :
    (∀ rest : List Token, (∀ token ∈ rest, token.kind ≠ .endOfInput) →
        KeepsBlock (Program.bareToken (.mark .leftBrace)) braceBeforeStatement
          (Program.bareToken (.mark .rightBrace)) rest (Program.bareToken .endOfInput)) ∧
      ¬∀ rest : List Token, (∀ token ∈ rest, token.kind ≠ .endOfInput) →
        KeepsBlock (Program.bareToken (.mark .leftBrace)) braceBeforeOperand
          (Program.bareToken (.mark .rightBrace)) rest (Program.bareToken .endOfInput) := by
  constructor
  · have balanced : Balanced braceBeforeStatement := balanced_of_inits (by decide) (by decide)
    exact (keepsBlock_iff_opensBlocks rfl rfl rfl (by decide) balanced).mpr (by decide)
  · have balanced : Balanced braceBeforeOperand := balanced_of_inits (by decide) (by decide)
    rw [keepsBlock_iff_opensBlocks rfl rfl rfl (by decide) balanced]
    decide

/-- The statement in `{ 1 + { x ; } } x ;` behind the outer braces is lost. -/
theorem not_keepsBlock_braceBeforeOperand :
    Balanced braceBeforeOperand ∧
      ¬KeepsBlock (Program.bareToken (.mark .leftBrace)) braceBeforeOperand
        (Program.bareToken (.mark .rightBrace))
        ([.identifier, .mark .semicolon].map Program.bareToken)
        (Program.bareToken .endOfInput) := by
  refine ⟨balanced_of_inits (by decide) (by decide), ?_⟩
  rintro ⟨statements, errors, kept, _⟩
  have lengths := congrArg List.length kept
  revert lengths
  rw [List.length_cons]
  decide

end Grammar

end BlockScript
