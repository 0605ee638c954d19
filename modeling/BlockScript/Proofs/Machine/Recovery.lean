import BlockScript.Proofs.Machine.Tracking

namespace BlockScript

/-!
# Recovering from an error

Behind an error the machine moves its cursor to where a statement may begin, and
the reader skips the tokens up to there.  Neither passes the brace that closes the
innermost block, and neither passes an end token.
-/

namespace Reader

/-- What is expected behind a token that was skipped. -/
def modeBehind
    (token : Token) :
    Mode :=
  if token.kind = .mark .semicolon then .declaration else .skipping

/-- The reader outside every clause, where a declaration is expected. -/
def resting
    (reader : Reader) :
    Reader :=
  { reader with clauses := [], mode := .declaration }

/-- A declaration is taken whatever was expected. -/
theorem feedDeclaration_inMode
    (reader : Reader)
    (mode : Mode)
    (token : Token) :
    (reader.inMode mode).feedDeclaration token = reader.feedDeclaration token := by
  unfold feedDeclaration
  rw [closedBy?_inMode, feedStatement_inMode]
  rfl

/-- A token closes no block unless it is a brace and a block is open. -/
theorem closedBy?_eq_none
    {reader : Reader}
    {token : Token}
    (stays : token.kind = .mark .rightBrace → reader.outer = []) :
    reader.closedBy? token = none := by
  unfold closedBy?
  split
  · rename_i block outer isBrace isOuter
    rw [stays isBrace] at isOuter
    cases isOuter
  · rfl

/-- The brace that closes a block does so wherever it is taken. -/
theorem closedBy?_resting
    (reader : Reader)
    (token : Token) :
    reader.resting.closedBy? token = reader.closedBy? token := by
  have sameClosing :
      { reader with clauses := [] }.closedBy? token = reader.closedBy? token := by
    unfold closedBy?
    rfl
  rw [← sameClosing]
  exact closedBy?_inMode { reader with clauses := [] } .declaration token

/-- A rejected token that closes no block drops the statement that was being read. -/
theorem reject_of_stays
    (reader : Reader)
    {token : Token}
    (stays : token.kind = .mark .rightBrace → reader.outer = [])
    (fault : GrammarFault) :
    reader.reject token fault =
      (reader.noting [{ token, fault }]).resting.inMode (modeBehind token) := by
  have unclosed : (reader.record { token, fault }).closedBy? token = none :=
    closedBy?_eq_none stays
  unfold reject
  dsimp only
  rw [unclosed]
  rfl

/-- The brace that closes a block closes it also when it is rejected. -/
theorem reject_closing
    (reader : Reader)
    {token : Token}
    (isBrace : token.kind = .mark .rightBrace)
    (isOpen : reader.outer ≠ [])
    (fault : GrammarFault) :
    reader.reject token fault = (reader.noting [{ token, fault }]).resting.feed token := by
  obtain ⟨block, outer, isOuter⟩ := List.exists_cons_of_ne_nil isOpen
  have closes :
      ∃ closed, (reader.noting [{ token, fault }]).closedBy? token = some closed := by
    simp [closedBy?, isBrace, isOuter, noting]
  obtain ⟨closed, isClosed⟩ := closes
  have taken : (reader.noting [{ token, fault }]).resting.feed token = closed := by
    change feedDeclaration _ token = closed
    simp only [feedDeclaration, closedBy?_resting, isClosed]
  have rejected : (reader.record { token, fault }).closedBy? token = some closed := isClosed
  rw [taken]
  unfold reject
  dsimp only
  rw [rejected]

/-- Where a statement may begin, skipping ends. -/
theorem feed_skipping_of_resumes
    (reader : Reader)
    {token : Token}
    (resumes :
      resumesAt token.kind = true ∨ (token.kind = .mark .rightBrace ∧ reader.outer ≠ [])) :
    (reader.inMode .skipping).feed token = (reader.inMode .declaration).feed token := by
  change (reader.inMode .skipping).feedSkipping token =
    (reader.inMode .declaration).feedDeclaration token
  rw [feedDeclaration_inMode]
  unfold feedSkipping
  rw [closedBy?_inMode, feedDeclaration_inMode]
  cases closes : reader.closedBy? token with
  | some closed => simp only [feedDeclaration, closes]
  | none =>
      rcases resumes with resumes | ⟨isBrace, isOpen⟩
      · simp only [resumes, ↓reduceIte]
      · obtain ⟨block, outer, isOuter⟩ := List.exists_cons_of_ne_nil isOpen
        simp [closedBy?, isBrace, isOuter] at closes

/-- Every other token is skipped. -/
theorem feed_skipping_of_stays
    (reader : Reader)
    {token : Token}
    (goesOn : resumesAt token.kind = false)
    (stays : token.kind = .mark .rightBrace → reader.outer = []) :
    (reader.inMode .skipping).feed token = reader.inMode (modeBehind token) := by
  change (reader.inMode .skipping).feedSkipping token = _
  unfold feedSkipping
  rw [closedBy?_inMode, closedBy?_eq_none stays]
  simp only [goesOn, Bool.false_eq_true, ↓reduceIte, modeBehind]
  by_cases ends : token.kind = .mark .semicolon
  · simp [ends, inMode]
  · simp [ends]

/-- At the end of the input nothing is left to skip. -/
theorem finish_modeBehind
    (reader : Reader)
    (passed token : Token) :
    (reader.inMode (modeBehind passed)).finish token =
      (reader.inMode .declaration).finish token := by
  unfold modeBehind
  split <;> rfl

end Reader

namespace Machine

open Descent Reader

variable {tokens : List Token}

/-- The cursor behind further tokens. -/
def Cursor.behind
    (cursor : Cursor)
    (passed : List Token) :
    Cursor :=
  { cursor with position := cursor.position + passed.length }

section Skip

variable {cursor : Cursor} {before rest : List Token} {passed token : Token}

/-- Skipping ends at an end token and behind a semicolon. -/
theorem settles_skip_done
    (stands : cursor.Stands tokens (before ++ [passed]) (token :: rest))
    (done : token.kind = .endOfInput ∨ passed.kind = .mark .semicolon) :
    Settles (skip tokens) cursor (.ok ()) cursor := by
  refine .deeper (fun _ => rfl) ?_
  refine (comes_isEnd stands).bind_settles ?_
  by_cases isEnd : token.kind = .endOfInput
  · simp only [isEnd, decide_true, ↓reduceIte]
    exact .of_comes rfl
  · simp only [isEnd, decide_false, Bool.false_eq_true, ↓reduceIte]
    refine (comes_prev stands).bind_settles ?_
    simp only [if_pos (done.resolve_left isEnd)]
    exact .of_comes rfl

/-- Skipping ends where a statement may begin, and before the brace that closes a block. -/
theorem settles_skip_resumes
    (stands : cursor.Stands tokens (before ++ [passed]) (token :: rest))
    (notEnd : token.kind ≠ .endOfInput)
    (notEnded : passed.kind ≠ .mark .semicolon)
    (resumes :
      resumesAt token.kind = true ∨ (token.kind = .mark .rightBrace ∧ 0 < cursor.blockDepth)) :
    Settles (skip tokens) cursor (.ok ()) cursor := by
  refine .deeper (fun _ => rfl) ?_
  refine (comes_isEnd stands).bind_settles ?_
  simp only [notEnd, decide_false, Bool.false_eq_true, ↓reduceIte]
  refine (comes_prev stands).bind_settles ?_
  simp only [if_neg notEnded]
  refine (comes_peek stands).bind_settles (Comes.bind_settles rfl ?_)
  by_cases begins : resumesAt token.kind = true
  · simp only [if_pos begins]
    exact .of_comes rfl
  · simp only [if_neg begins, if_pos (resumes.resolve_left begins)]
    exact .of_comes rfl

/-- Any other token is skipped. -/
theorem settles_skip_next
    (stands : cursor.Stands tokens (before ++ [passed]) (token :: rest))
    (notEnd : token.kind ≠ .endOfInput)
    (notEnded : passed.kind ≠ .mark .semicolon)
    (goesOn :
      ¬(resumesAt token.kind = true ∨ (token.kind = .mark .rightBrace ∧ 0 < cursor.blockDepth)))
    {after : Cursor}
    (skips : Settles (skip tokens) cursor.moved (.ok ()) after) :
    Settles (skip tokens) cursor (.ok ()) after := by
  rw [not_or] at goesOn
  refine .deeper (fun _ => rfl) ?_
  refine (comes_isEnd stands).bind_settles ?_
  simp only [notEnd, decide_false, Bool.false_eq_true, ↓reduceIte]
  refine (comes_prev stands).bind_settles ?_
  simp only [if_neg notEnded]
  refine (comes_peek stands).bind_settles (Comes.bind_settles rfl ?_)
  simp only [if_neg goesOn.1, if_neg goesOn.2]
  exact (comes_advance stands notEnd).bind_settles skips

/-- The machine and the reader skip the same tokens. -/
theorem exists_settles_skip
    (stands : cursor.Stands tokens (before ++ [passed]) rest)
    (hasEnd : ∃ token ∈ rest, token.kind = .endOfInput) :
    ∃ skipped later,
      Settles (skip tokens) cursor (.ok ()) (cursor.behind skipped) ∧
        rest = skipped ++ later ∧
          (∀ token ∈ skipped, token.kind ≠ .endOfInput) ∧
            ∀ reader : Reader, reader.outer.length = cursor.blockDepth →
              (reader.inMode (modeBehind passed)).read rest =
                (reader.inMode .declaration).read later := by
  induction rest generalizing cursor before passed with
  | nil =>
      obtain ⟨token, found, -⟩ := hasEnd
      cases found
  | cons token rest inductionHypothesis =>
      by_cases done : token.kind = .endOfInput ∨ passed.kind = .mark .semicolon
      · refine ⟨[], token :: rest, settles_skip_done stands done, rfl, by simp, fun reader _ => ?_⟩
        rcases done with isEnd | ended
        · simp only [Reader.read, isEnd, ↓reduceIte, finish_modeBehind]
        · simp only [modeBehind, ended, ↓reduceIte]
      obtain ⟨notEnd, notEnded⟩ := not_or.mp done
      have skipping : modeBehind passed = .skipping := by
        simp [modeBehind, notEnded]
      rw [skipping]
      by_cases resumes :
          resumesAt token.kind = true ∨ (token.kind = .mark .rightBrace ∧ 0 < cursor.blockDepth)
      · refine ⟨[], token :: rest, settles_skip_resumes stands notEnd notEnded resumes, rfl,
          by simp, fun reader blocks => ?_⟩
        have readerResumes :
            resumesAt token.kind = true ∨
              (token.kind = .mark .rightBrace ∧ reader.outer ≠ []) := by
          refine resumes.imp_right fun closes => ⟨closes.1, ?_⟩
          rw [← List.length_pos_iff, blocks]
          exact closes.2
        simp only [Reader.read, notEnd, ↓reduceIte, feed_skipping_of_resumes reader readerResumes]
      · obtain ⟨skipped, later, skips, split, inner, found⟩ :=
          inductionHypothesis stands.moved (by simpa [notEnd] using hasEnd)
        refine ⟨token :: skipped, later, ?_, by simp [split], by simpa [notEnd] using inner,
          fun reader blocks => ?_⟩
        · have together : cursor.moved.behind skipped = cursor.behind (token :: skipped) := by
            simp only [Cursor.behind, Cursor.moved, List.length_cons, Cursor.mk.injEq, and_true]
            omega
          exact together ▸ settles_skip_next stands notEnd notEnded resumes skips
        · have stays : token.kind = .mark .rightBrace → reader.outer = [] := by
            intro isBrace
            rw [not_or, not_and] at resumes
            have none := Nat.eq_zero_of_not_pos (resumes.2 isBrace)
            exact List.length_eq_zero_iff.mp (blocks.trans none)
          rw [← found reader blocks]
          simp only [Reader.read, notEnd, ↓reduceIte]
          rw [feed_skipping_of_stays reader (by simpa using (not_or.mp resumes).1) stays]

/-- Whether the next token closes the innermost block. -/
theorem comes_closesBlock
    (stands : cursor.Stands tokens before (token :: rest)) :
    Comes (closesBlock tokens) cursor
      (.ok (decide (token.kind = .mark .rightBrace ∧ 0 < cursor.blockDepth))) cursor := by
  refine Comes.bind rfl ?_
  by_cases isOpen : 0 < cursor.blockDepth
  · rw [if_pos isOpen]
    simpa only [isOpen, and_true] using comes_check stands (by simp)
  · rw [if_neg isOpen]
    simp only [isOpen, and_false, decide_false]
    rfl

/-- What recovery passes, and where the reader resumes behind a rejected token. -/
theorem exists_settles_recover
    (stands : cursor.Stands tokens before (token :: rest))
    (hasEnd : ∃ ending ∈ token :: rest, ending.kind = .endOfInput)
    (begun : token.kind = .endOfInput → before ≠ [])
    (fault : GrammarFault) :
    ∃ skipped later,
      Settles (recover tokens) cursor (.ok ()) (cursor.behind skipped) ∧
        token :: rest = skipped ++ later ∧
          (∀ token ∈ skipped, token.kind ≠ .endOfInput) ∧
            (skipped = [] →
              token.kind = .endOfInput ∨
                (token.kind = .mark .rightBrace ∧ 0 < cursor.blockDepth)) ∧
              ∀ reader : Reader, reader.outer.length = cursor.blockDepth →
                reader.rejecting fault (token :: rest) =
                  (reader.noting [{ token, fault }]).resting.read later := by
  by_cases closing : token.kind = .mark .rightBrace ∧ 0 < cursor.blockDepth
  · refine ⟨[], token :: rest, ?_, rfl, by simp, fun _ => .inr closing, fun reader blocks => ?_⟩
    · refine (comes_closesBlock stands).bind_settles ?_
      simp only [closing, and_self, decide_true, ↓reduceIte]
      exact .of_comes rfl
    · have isOpen : reader.outer ≠ [] := by
        rw [← List.length_pos_iff, blocks]
        exact closing.2
      have notEnd : token.kind ≠ .endOfInput := by
        simp [closing.1]
      simp only [rejecting, Reader.read, notEnd, ↓reduceIte,
        reject_closing reader closing.1 isOpen fault]
  have stays (reader : Reader) (blocks : reader.outer.length = cursor.blockDepth) :
      token.kind = .mark .rightBrace → reader.outer = [] := by
    intro isBrace
    rw [not_and] at closing
    exact List.length_eq_zero_iff.mp (blocks.trans (Nat.eq_zero_of_not_pos (closing isBrace)))
  have goesOn
      {after last : Cursor}
      {passed : Token}
      (advances : Comes (advance tokens) cursor (.ok passed) after)
      (skips : Settles (skip tokens) after (.ok ()) last) :
      Settles (recover tokens) cursor (.ok ()) last := by
    refine (comes_closesBlock stands).bind_settles ?_
    simp only [closing, decide_false, Bool.false_eq_true, ↓reduceIte]
    exact advances.bind_settles skips
  by_cases isEnd : token.kind = .endOfInput
  · obtain ⟨earlier, passed, rfl⟩ : ∃ earlier passed, before = earlier ++ [passed] :=
      ⟨_, _, (List.dropLast_concat_getLast (begun isEnd)).symm⟩
    refine ⟨[], token :: rest, ?_, rfl, by simp, fun _ => .inl isEnd, fun reader blocks => ?_⟩
    · exact goesOn (comes_advance_end stands isEnd) (settles_skip_done stands (.inl isEnd))
    · simp only [rejecting, Reader.read, isEnd, ↓reduceIte,
        reject_of_stays reader (stays reader blocks) fault, finish_modeBehind]
      rfl
  · obtain ⟨skipped, later, skips, split, inner, found⟩ :=
      exists_settles_skip stands.moved (by simpa [isEnd] using hasEnd)
    have together : cursor.moved.behind skipped = cursor.behind (token :: skipped) := by
      simp only [Cursor.behind, Cursor.moved, List.length_cons, Cursor.mk.injEq, and_true]
      omega
    refine ⟨token :: skipped, later, together ▸ goesOn (comes_advance stands isEnd) skips,
      by simp [split], by simpa [isEnd] using inner, by simp, fun reader blocks => ?_⟩
    simp only [rejecting, isEnd, ↓reduceIte, reject_of_stays reader (stays reader blocks) fault]
    exact found (reader.noting [{ token, fault }]).resting blocks

end Skip

end Machine

end BlockScript
