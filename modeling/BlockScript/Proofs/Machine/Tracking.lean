import BlockScript.Proofs.Machine.Descent
import BlockScript.Proofs.Reading.Bodies

namespace BlockScript

/-!
# Tracking the reader

While the machine descends, a reader could have taken the same tokens.  A
situation holds where the machine stands and what such a reader has become;
`Machine.Tracks` says that a procedure comes to an end without a misstep, and
that the reader finds what the procedure finds: the same errors on the way, and
then either what is wanted of the result or the rejection of the next token.

The rules below follow the procedures step by step, so that a procedure is
tracked by the rules of its parts.
-/

namespace Reader

/-- What reading gives when the next token is rejected; an end token is not passed over. -/
def rejecting
    (reader : Reader)
    (fault : GrammarFault) :
    List Token → Program
  | [] => reader.program
  | token :: rest =>
      (reader.reject token fault).read
        (if token.kind = .endOfInput then token :: rest else rest)

/-- The reader has as many loops and blocks around it as the machine counts. -/
structure Fits
    (loopDepth blockDepth : Nat)
    (reader : Reader) :
    Prop where
  loops : reader.inLoop = true ↔ 0 < loopDepth
  blocks : reader.outer.length = blockDepth

/-- Noting errors moves the reader into no block or loop. -/
theorem Fits.noting
    {loopDepth blockDepth : Nat}
    {reader : Reader}
    (fits : reader.Fits loopDepth blockDepth)
    (errors : List GrammarError) :
    (reader.noting errors).Fits loopDepth blockDepth :=
  ⟨fits.loops, fits.blocks⟩

end Reader

namespace Machine

open Descent

section Comes

variable {α β : Type} {tokens : List Token} {cursor after : Cursor}

/-- A procedure that gives a result goes on with it. -/
theorem Descent.Comes.bind
    {first : Descent α}
    {next : α → Descent β}
    {value : α}
    {last : Cursor}
    {outcome : Except GrammarError β}
    (begins : Comes first cursor (.ok value) after)
    (goesOn : Comes (next value) after outcome last) :
    Comes (first >>= next) cursor outcome last := by
  have opened :
      (first >>= next) cursor =
        Option.bind (first cursor)
          (ExceptT.bindCont fun state => ExceptT.bindCont next state.1 state.2) :=
    rfl
  have began : first cursor = some (.ok (.ok value, after)) := begins
  change (first >>= next) cursor = _
  rw [opened, began]
  exact goesOn

/-- A procedure that ends with an error goes no further. -/
theorem Descent.Comes.bind_error
    {first : Descent α}
    {error : GrammarError}
    (fails : Comes first cursor (.error error) after)
    (next : α → Descent β) :
    Comes (first >>= next) cursor (.error error) after := by
  have opened :
      (first >>= next) cursor =
        Option.bind (first cursor)
          (ExceptT.bindCont fun state => ExceptT.bindCont next state.1 state.2) :=
    rfl
  have failed : first cursor = some (.ok (.error error, after)) := fails
  change (first >>= next) cursor = _
  rw [opened, failed]
  rfl

namespace Descent.Settles

/-- A procedure that makes no calls comes to its end at any depth. -/
theorem of_comes
    {procedure : Descent α}
    {outcome : Except GrammarError α}
    (comes : Comes procedure cursor outcome after) :
    Settles (fun _ => procedure) cursor outcome after :=
  .of_forall fun _ => comes

/-- A procedure that gives a result goes on with it, as deep as both parts need. -/
theorem bind
    {first : Nat → Descent α}
    {next : Nat → α → Descent β}
    {value : α}
    {last : Cursor}
    {outcome : Except GrammarError β}
    (begins : Settles first cursor (.ok value) after)
    (goesOn : Settles (fun fuel => next fuel value) after outcome last) :
    Settles (fun fuel => first fuel >>= next fuel) cursor outcome last :=
  (begins.and goesOn).imp fun _ both => both.1.bind both.2

/-- A procedure that ends with an error goes no further. -/
theorem bind_error
    {first : Nat → Descent α}
    {error : GrammarError}
    (fails : Settles first cursor (.error error) after)
    (next : Nat → α → Descent β) :
    Settles (fun fuel => first fuel >>= next fuel) cursor (.error error) after :=
  fails.imp fun fuel failed => failed.bind_error (next fuel)

/-- A call needs one level more than what it does. -/
theorem deeper
    {procedure body : Nat → Descent α}
    {outcome : Except GrammarError α}
    (unfolds : ∀ fuel, procedure (fuel + 1) = body fuel)
    (settles : Settles body cursor outcome after) :
    Settles procedure cursor outcome after := by
  refine FromSomeDepth.deeper (settles.imp fun fuel comes => ?_)
  rw [unfolds]
  exact comes

end Descent.Settles

/-- A procedure that makes no calls is followed by one that may. -/
theorem Descent.Comes.bind_settles
    {first : Descent α}
    {next : Nat → α → Descent β}
    {value : α}
    {last : Cursor}
    {outcome : Except GrammarError β}
    (begins : Comes first cursor (.ok value) after)
    (goesOn : Settles (fun fuel => next fuel value) after outcome last) :
    Settles (fun fuel => first >>= next fuel) cursor outcome last :=
  (Settles.of_comes begins).bind goesOn

/-- The cursor stands between the tokens passed and those ahead. -/
structure Cursor.Stands
    (tokens before rest : List Token)
    (cursor : Cursor) :
    Prop where
  tokens_eq : tokens = before ++ rest
  position_eq : cursor.position = before.length

variable {before rest : List Token} {token : Token}

/-- There is a token at the cursor. -/
theorem comes_peek
    (stands : cursor.Stands tokens before (token :: rest)) :
    Comes (peek tokens) cursor (.ok token) cursor := by
  have found : tokens[cursor.position]? = some token := by
    rw [stands.position_eq, stands.tokens_eq]
    simp
  refine Comes.bind rfl ?_
  rw [found]
  rfl

/-- There is a token before the cursor once one has been passed. -/
theorem comes_prev
    (stands : cursor.Stands tokens (before ++ [token]) rest) :
    Comes (prev tokens) cursor (.ok token) cursor := by
  have position : cursor.position = before.length + 1 := by
    simp [stands.position_eq]
  have found : tokens[before.length]? = some token := by
    rw [stands.tokens_eq]
    simp
  refine Comes.bind rfl ?_
  rw [position]
  simp only [found]
  rfl

/-- Whether the cursor stands at an end token. -/
theorem comes_isEnd
    (stands : cursor.Stands tokens before (token :: rest)) :
    Comes (isEnd tokens) cursor (.ok (decide (token.kind = .endOfInput))) cursor :=
  (comes_peek stands).bind rfl

/-- Whether the cursor stands at a token of a kind other than the end. -/
theorem comes_check
    (stands : cursor.Stands tokens before (token :: rest))
    {kind : Kind}
    (inner : kind ≠ .endOfInput) :
    Comes (check tokens kind) cursor (.ok (decide (token.kind = kind))) cursor := by
  refine (comes_isEnd stands).bind ?_
  by_cases ends : token.kind = .endOfInput
  · have other : token.kind ≠ kind := fun same => inner (same.symm.trans ends)
    simp only [ends, decide_true, ↓reduceIte]
    rw [ends] at other
    simp only [other, decide_false]
    rfl
  · simp only [ends, decide_false, Bool.false_eq_true, ↓reduceIte]
    exact (comes_peek stands).bind rfl

/-- The cursor behind the next token. -/
def Cursor.moved
    (cursor : Cursor) :
    Cursor :=
  { cursor with position := cursor.position + 1 }

/-- Behind the next token, it is the one passed last. -/
theorem Cursor.Stands.moved
    (stands : cursor.Stands tokens before (token :: rest)) :
    cursor.moved.Stands tokens (before ++ [token]) rest :=
  ⟨by simp [stands.tokens_eq], by simp [Cursor.moved, stands.position_eq]⟩

/-- A token other than the end is passed. -/
theorem comes_advance
    (stands : cursor.Stands tokens before (token :: rest))
    (inner : token.kind ≠ .endOfInput) :
    Comes (advance tokens) cursor (.ok token) cursor.moved := by
  refine (comes_isEnd stands).bind ?_
  simp only [inner, decide_false, Bool.false_eq_true, ↓reduceIte]
  exact Comes.bind rfl (comes_prev stands.moved)

/-- An end token is not passed; a token must have been passed before it. -/
theorem comes_advance_end
    {passed : Token}
    (stands : cursor.Stands tokens (before ++ [passed]) (token :: rest))
    (ends : token.kind = .endOfInput) :
    Comes (advance tokens) cursor (.ok passed) cursor := by
  refine (comes_isEnd stands).bind ?_
  simp only [ends, decide_true, ↓reduceIte]
  exact comes_prev stands

/-- A token of a wanted kind is taken. -/
theorem comes_accept
    (stands : cursor.Stands tokens before (token :: rest))
    {kinds : List Kind}
    (inner : .endOfInput ∉ kinds)
    (wanted : token.kind ∈ kinds) :
    Comes (accept tokens kinds) cursor (.ok true) cursor.moved := by
  induction kinds with
  | nil => cases wanted
  | cons kind others inductionHypothesis =>
      simp only [List.mem_cons, not_or] at inner
      refine (comes_check stands (Ne.symm inner.1)).bind ?_
      by_cases same : token.kind = kind
      · simp only [same, decide_true, ↓reduceIte]
        have notEnd : token.kind ≠ .endOfInput := same ▸ Ne.symm inner.1
        exact (comes_advance stands notEnd).bind rfl
      · simp only [same, decide_false, Bool.false_eq_true, ↓reduceIte]
        exact inductionHypothesis inner.2 ((List.mem_cons.mp wanted).resolve_left same)

/-- A token of another kind is left. -/
theorem comes_accept_not
    (stands : cursor.Stands tokens before (token :: rest))
    {kinds : List Kind}
    (inner : .endOfInput ∉ kinds)
    (unwanted : token.kind ∉ kinds) :
    Comes (accept tokens kinds) cursor (.ok false) cursor := by
  induction kinds with
  | nil => rfl
  | cons kind others inductionHypothesis =>
      simp only [List.mem_cons, not_or] at inner unwanted
      refine (comes_check stands (Ne.symm inner.1)).bind ?_
      simp only [unwanted.1, decide_false, Bool.false_eq_true, ↓reduceIte]
      exact inductionHypothesis inner.2 unwanted.2

/-- An expected token is taken. -/
theorem comes_expect
    (stands : cursor.Stands tokens before (token :: rest))
    {kind : Kind}
    (inner : kind ≠ .endOfInput)
    (wanted : token.kind = kind)
    (fault : GrammarFault) :
    Comes (expect tokens kind fault) cursor (.ok token) cursor.moved := by
  refine (comes_check stands inner).bind ?_
  simp only [wanted, decide_true, ↓reduceIte]
  exact comes_advance stands (wanted ▸ inner)

/-- Another token than the expected one is blamed and left. -/
theorem comes_expect_not
    (stands : cursor.Stands tokens before (token :: rest))
    {kind : Kind}
    (inner : kind ≠ .endOfInput)
    (unwanted : token.kind ≠ kind)
    (fault : GrammarFault) :
    Comes (expect tokens kind fault) cursor (.error { token, fault }) cursor := by
  refine (comes_check stands inner).bind ?_
  simp only [unwanted, decide_false, Bool.false_eq_true, ↓reduceIte]
  exact (comes_peek stands).bind rfl

end Comes

/-- Where the machine stands, and what a reader becomes that has taken the same tokens. -/
structure Situation where
  before : List Token
  rest : List Token
  loopDepth : Nat
  blockDepth : Nat
  errors : List GrammarError
  place : Reader → Reader

namespace Situation

/-- The cursor of a situation. -/
def cursor
    (situation : Situation) :
    Cursor where
  position := situation.before.length
  loopDepth := situation.loopDepth
  blockDepth := situation.blockDepth
  errors := situation.errors

/-- The situation lies in a list of tokens, with an end token still ahead. -/
structure In
    (tokens : List Token)
    (situation : Situation) :
    Prop where
  tokens_eq : tokens = situation.before ++ situation.rest
  hasEnd : ∃ token ∈ situation.rest, token.kind = .endOfInput

/-- The reader of a situation gives the given program out of the tokens ahead. -/
def Finds
    (situation : Situation)
    (found : Reader → Program) :
    Prop :=
  ∀ reader : Reader,
    reader.Fits situation.loopDepth situation.blockDepth →
    (situation.place reader).read situation.rest = found reader

/-- A later situation, behind tokens in which errors were noted. -/
structure Moves
    (noted : List GrammarError)
    (situation later : Situation) :
    Prop where
  passed :
    ∃ passed,
      later.before = situation.before ++ passed ∧
        situation.rest = passed ++ later.rest ∧
          ∀ token ∈ passed, token.kind ≠ .endOfInput
  loopDepth_eq : later.loopDepth = situation.loopDepth
  blockDepth_eq : later.blockDepth = situation.blockDepth
  errors_eq : later.errors = situation.errors ++ noted

namespace Moves

variable {first second third : Situation} {firstNoted secondNoted : List GrammarError}

/-- Nothing is passed where the same tokens are ahead. -/
theorem of_eq
    (before : second.before = first.before)
    (rest : second.rest = first.rest)
    (loops : second.loopDepth = first.loopDepth)
    (blocks : second.blockDepth = first.blockDepth)
    (errors : second.errors = first.errors ++ firstNoted) :
    first.Moves firstNoted second :=
  ⟨⟨[], by simp [before], by simp [rest], by simp⟩, loops, blocks, errors⟩

/-- What is passed is passed together. -/
theorem trans
    (moves : first.Moves firstNoted second)
    (goesOn : second.Moves secondNoted third) :
    first.Moves (firstNoted ++ secondNoted) third where
  passed := by
    obtain ⟨passed, before, rest, inner⟩ := moves.passed
    obtain ⟨further, before', rest', inner'⟩ := goesOn.passed
    refine ⟨passed ++ further, by simp [before', before], by simp [rest, rest'], ?_⟩
    intro token found
    rcases List.mem_append.mp found with early | late
    · exact inner token early
    · exact inner' token late
  loopDepth_eq := goesOn.loopDepth_eq.trans moves.loopDepth_eq
  blockDepth_eq := goesOn.blockDepth_eq.trans moves.blockDepth_eq
  errors_eq := by
    simp [goesOn.errors_eq, moves.errors_eq]

/-- A later situation lies in the same tokens. -/
theorem isIn
    {tokens : List Token}
    (moves : first.Moves firstNoted second)
    (inside : first.In tokens) :
    second.In tokens := by
  obtain ⟨passed, before, rest, inner⟩ := moves.passed
  refine ⟨by simp [inside.tokens_eq, before, rest], ?_⟩
  obtain ⟨token, found, ends⟩ := inside.hasEnd
  rw [rest] at found
  rcases List.mem_append.mp found with early | late
  · exact (inner token early ends).elim
  · exact ⟨token, late, ends⟩

/-- Readers fit a later situation as they fit the earlier one. -/
theorem fits
    (moves : first.Moves firstNoted second)
    {reader : Reader}
    (fits : reader.Fits first.loopDepth first.blockDepth) :
    (reader.noting firstNoted).Fits second.loopDepth second.blockDepth := by
  rw [moves.loopDepth_eq, moves.blockDepth_eq]
  exact fits.noting firstNoted

end Moves

/-- A later situation whose reader finds what the earlier one's finds. -/
structure Leads
    (noted : List GrammarError)
    (situation later : Situation) :
    Prop extends situation.Moves noted later where
  finds : situation.Finds fun reader => (later.place (reader.noting noted)).read later.rest

namespace Leads

variable {first second third : Situation} {firstNoted secondNoted : List GrammarError}

/-- A situation leads to itself. -/
theorem refl
    (situation : Situation) :
    situation.Leads [] situation where
  toMoves := .of_eq rfl rfl rfl rfl (by simp)
  finds _ _ := rfl

/-- What leads on leads on together. -/
theorem trans
    (leads : first.Leads firstNoted second)
    (goesOn : second.Leads secondNoted third) :
    first.Leads (firstNoted ++ secondNoted) third where
  toMoves := leads.toMoves.trans goesOn.toMoves
  finds reader fits := by
    calc
      (first.place reader).read first.rest
          = (second.place (reader.noting firstNoted)).read second.rest := leads.finds reader fits
      _ = (third.place ((reader.noting firstNoted).noting secondNoted)).read third.rest :=
          goesOn.finds _ (leads.fits fits)
      _ = (third.place (reader.noting (firstNoted ++ secondNoted))).read third.rest := by
          rw [Reader.noting_noting]

end Leads

/-- The cursor of a situation stands where the situation does. -/
theorem In.stands
    {tokens : List Token}
    {situation : Situation}
    (inside : situation.In tokens) :
    situation.cursor.Stands tokens situation.before situation.rest :=
  ⟨inside.tokens_eq, rfl⟩

/-- There is always a token ahead. -/
theorem In.exists_next
    {tokens : List Token}
    {situation : Situation}
    (inside : situation.In tokens) :
    ∃ token rest, situation.rest = token :: rest := by
  obtain ⟨token, found, -⟩ := inside.hasEnd
  exact List.exists_cons_of_ne_nil (List.ne_nil_of_mem found)

/-- The situation behind the next token. -/
def past
    (situation : Situation)
    (token : Token)
    (rest : List Token) :
    Situation :=
  { situation with
    before := situation.before ++ [token]
    rest
    place := fun reader => (situation.place reader).feed token }

/-- A situation leads behind the next token. -/
theorem leads_past
    {situation : Situation}
    {token : Token}
    {rest : List Token}
    (next : situation.rest = token :: rest)
    (inner : token.kind ≠ .endOfInput) :
    situation.Leads [] (situation.past token rest) where
  toMoves := ⟨⟨[token], rfl, next, by simpa using inner⟩, rfl, rfl, by simp [past]⟩
  finds reader _ := by
    rw [next]
    simp [Reader.read, inner, past]

/-- The situation in which the reader is seen as another one. -/
def seen
    (situation : Situation)
    (place : Reader → Reader) :
    Situation :=
  { situation with place }

/-- A situation leads to itself with a reader that finds the same. -/
theorem leads_seen
    {situation : Situation}
    {place : Reader → Reader}
    (same : situation.Finds fun reader => (place reader).read situation.rest) :
    situation.Leads [] (situation.seen place) where
  toMoves := .of_eq rfl rfl rfl rfl (by simp [seen])
  finds reader fits := same reader fits

/-- The reader of a situation rejects the next token for the same reason. -/
structure Blames
    (error : GrammarError)
    (situation : Situation) :
    Prop where
  next : situation.rest.head? = some error.token
  finds : situation.Finds fun reader => reader.rejecting error.fault situation.rest

/-- What is wanted of a result, or the rejection that an error stands for. -/
def Ends
    {α : Type}
    (goal : α → Situation → Prop) :
    Except GrammarError α → Situation → Prop
  | .ok value, situation => goal value situation
  | .error error, situation => situation.Blames error

end Situation

/-- A procedure comes to an end, and the reader finds what the procedure finds. -/
def Tracks
    {α : Type}
    (tokens : List Token)
    (procedure : Nat → Descent α)
    (goal : α → Situation → Prop)
    (situation : Situation) :
    Prop :=
  situation.In tokens →
    ∃ outcome noted later,
      Settles procedure situation.cursor outcome later.cursor ∧
        situation.Leads noted later ∧ Situation.Ends goal outcome later

namespace Tracks

variable
  {α β : Type} {tokens rest : List Token} {goal : α → Situation → Prop}
  {situation : Situation} {token : Token}

/-- A result is given at once. -/
theorem pure
    {value : α}
    (reached : goal value situation) :
    Tracks tokens (fun _ => Pure.pure value) goal situation :=
  fun _ => ⟨.ok value, [], situation, .of_comes rfl, .refl situation, reached⟩

/-- A part is tracked where it stands, without moving. -/
theorem of_comes
    {procedure : Descent α}
    {value : α}
    (comes :
      situation.In tokens → Comes procedure situation.cursor (.ok value) situation.cursor)
    (reached : goal value situation) :
    Tracks tokens (fun _ => procedure) goal situation :=
  fun inside => ⟨.ok value, [], situation, .of_comes (comes inside), .refl situation, reached⟩

/-- A procedure goes on where its first part has led. -/
theorem bind
    {first : Nat → Descent β}
    {next : Nat → β → Descent α}
    (begins :
      Tracks tokens first
        (fun value later => Tracks tokens (fun fuel => next fuel value) goal later) situation) :
    Tracks tokens (fun fuel => first fuel >>= next fuel) goal situation := by
  intro inside
  obtain ⟨outcome, noted, later, comes, leads, ends⟩ := begins inside
  cases outcome with
  | error error =>
      exact ⟨.error error, noted, later, comes.bind_error next, leads, ends⟩
  | ok value =>
      obtain ⟨outcome, further, last, goesOn, leadsOn, reached⟩ := ends (leads.isIn inside)
      exact ⟨outcome, noted ++ further, last, comes.bind goesOn, leads.trans leadsOn, reached⟩

/-- A procedure is tracked as deep down as the calls that it makes. -/
theorem deeper
    {procedure body : Nat → Descent α}
    (unfolds : ∀ fuel, procedure (fuel + 1) = body fuel)
    (tracks : Tracks tokens body goal situation) :
    Tracks tokens procedure goal situation := by
  intro inside
  obtain ⟨outcome, noted, later, settles, leads, ends⟩ := tracks inside
  exact ⟨outcome, noted, later, settles.deeper unfolds, leads, ends⟩

/-- More may be wanted where less is given. -/
theorem mono
    {procedure : Nat → Descent α}
    {weaker : α → Situation → Prop}
    (tracks : Tracks tokens procedure goal situation)
    (weaken : ∀ value later, goal value later → weaker value later) :
    Tracks tokens procedure weaker situation := by
  intro inside
  obtain ⟨outcome, noted, later, comes, leads, ends⟩ := tracks inside
  refine ⟨outcome, noted, later, comes, leads, ?_⟩
  cases outcome with
  | error error => exact ends
  | ok value => exact weaken value later ends

/-- The reader may be seen as another one that finds the same. -/
theorem seen
    {procedure : Nat → Descent α}
    {place : Reader → Reader}
    (same : situation.Finds fun reader => (place reader).read situation.rest)
    (tracks : Tracks tokens procedure goal (situation.seen place)) :
    Tracks tokens procedure goal situation := by
  intro inside
  have leads := Situation.leads_seen same
  obtain ⟨outcome, noted, later, comes, leadsOn, ends⟩ := tracks (leads.isIn inside)
  exact ⟨outcome, noted, later, comes, leads.trans leadsOn, ends⟩

/-- The token ahead may be named. -/
theorem of_next
    {procedure : Nat → Descent α}
    (tracks :
      ∀ token rest, situation.rest = token :: rest → Tracks tokens procedure goal situation) :
    Tracks tokens procedure goal situation := by
  intro inside
  obtain ⟨token, rest, next⟩ := inside.exists_next
  exact tracks token rest next inside

/-- The token passed last. -/
theorem prev
    {before : List Token}
    {goal : Token → Situation → Prop}
    (passed : situation.before = before ++ [token])
    (reached : goal token situation) :
    Tracks tokens (fun _ => Descent.prev tokens) goal situation := by
  refine of_comes (fun inside => ?_) reached
  have stands := inside.stands
  rw [passed] at stands
  exact comes_prev stands

/-- Whether the next token is of a kind other than the end. -/
theorem check
    {kind : Kind}
    {goal : Bool → Situation → Prop}
    (inner : kind ≠ .endOfInput)
    (next : situation.rest = token :: rest)
    (reached : goal (decide (token.kind = kind)) situation) :
    Tracks tokens (fun _ => Descent.check tokens kind) goal situation := by
  refine of_comes (fun inside => ?_) reached
  have stands := inside.stands
  rw [next] at stands
  exact comes_check stands inner

/-- A choice by whether the next token is of a wanted kind, which is then taken. -/
theorem accept
    {kinds : List Kind}
    (inner : .endOfInput ∉ kinds)
    {taken left : Nat → Descent α}
    (next : situation.rest = token :: rest)
    (wanted : token.kind ∈ kinds → Tracks tokens taken goal (situation.past token rest))
    (unwanted : token.kind ∉ kinds → Tracks tokens left goal situation) :
    Tracks tokens
      (fun fuel => do if ← Descent.accept tokens kinds then taken fuel else left fuel)
      goal situation := by
  refine bind fun inside => ?_
  have stands := inside.stands
  rw [next] at stands
  by_cases isWanted : token.kind ∈ kinds
  · have notEnd : token.kind ≠ .endOfInput := fun ends => inner (ends ▸ isWanted)
    have moved : situation.cursor.moved = (situation.past token rest).cursor := by
      simp [Situation.cursor, Situation.past, Cursor.moved]
    refine ⟨.ok true, [], situation.past token rest, ?_, Situation.leads_past next notEnd, ?_⟩
    · rw [← moved]
      exact .of_comes (comes_accept stands inner isWanted)
    · simpa [Situation.Ends] using wanted isWanted
  · refine ⟨.ok false, [], situation, .of_comes (comes_accept_not stands inner isWanted),
      .refl _, ?_⟩
    simpa [Situation.Ends] using unwanted isWanted

/-- An expected token is taken, or the reader rejects the one in its place. -/
theorem expect
    {kind : Kind}
    {fault : GrammarFault}
    {goal : Token → Situation → Prop}
    (inner : kind ≠ .endOfInput)
    (next : situation.rest = token :: rest)
    (wanted : token.kind = kind → goal token (situation.past token rest))
    (unwanted :
      token.kind ≠ kind → situation.Finds fun reader => reader.rejecting fault (token :: rest)) :
    Tracks tokens (fun _ => Descent.expect tokens kind fault) goal situation := by
  intro inside
  have stands := inside.stands
  rw [next] at stands
  by_cases isWanted : token.kind = kind
  · have notEnd : token.kind ≠ .endOfInput := isWanted ▸ inner
    have moved : situation.cursor.moved = (situation.past token rest).cursor := by
      simp [Situation.cursor, Situation.past, Cursor.moved]
    refine ⟨.ok token, [], situation.past token rest, ?_, Situation.leads_past next notEnd,
      wanted isWanted⟩
    rw [← moved]
    exact .of_comes (comes_expect stands inner isWanted fault)
  · refine ⟨.error { token, fault }, [], situation,
      .of_comes (comes_expect_not stands inner isWanted fault), .refl _, by simp [next], ?_⟩
    rw [next]
    exact unwanted isWanted

/-- The next token is blamed, and the reader rejects it. -/
theorem blame
    {fault : GrammarFault}
    (next : situation.rest = token :: rest)
    (rejects : situation.Finds fun reader => reader.rejecting fault (token :: rest)) :
    Tracks tokens
      (fun _ => do
        let next ← Descent.peek tokens
        throw { token := next, fault })
      goal situation := by
  intro inside
  have stands := inside.stands
  rw [next] at stands
  refine ⟨.error { token, fault }, [], situation, .of_comes ((comes_peek stands).bind rfl),
    .refl _, by simp [next], ?_⟩
  rw [next]
  exact rejects

/-- An error is noted that the reader notes too. -/
theorem note
    {error : GrammarError}
    {goal : Unit → Situation → Prop}
    {place : Reader → Reader}
    (same : ∀ reader, situation.place reader = place (reader.noting [error]))
    (reached :
      goal () { situation with errors := situation.errors ++ [error], place }) :
    Tracks tokens (fun _ => Descent.note error) goal situation := by
  intro _
  refine ⟨.ok (), [error], { situation with errors := situation.errors ++ [error], place },
    .of_comes rfl, ⟨.of_eq rfl rfl rfl rfl rfl, ?_⟩, reached⟩
  intro reader _
  rw [same reader]

end Tracks

end Machine

end BlockScript
