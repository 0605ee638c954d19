import BlockScript.Proofs.Grammar.Derivation

namespace BlockScript.Grammar

/-!
# An `else` may follow any conditional

In a conditional with an alternative, the grammar wants a first branch that no
`else` could extend.  This settles to which `if` an `else` belongs and costs no
program: where the first branch ends in a conditional without an alternative,
that conditional takes the `else`, and the whole is still a conditional.
-/

namespace Nonterminal

/-- The same nonterminal in the body of a loop. -/
def looped : Nonterminal → Nonterminal
  | .declarations _ => .declarations true
  | .declaration _ => .declaration true
  | .statement _ ending => .statement true ending
  | .block _ => .block true
  | .breakStatement _ => .breakStatement true
  | .forStatement _ ending => .forStatement true ending
  | .ifStatement _ ending => .ifStatement true ending
  | .whileStatement _ ending => .whileStatement true ending
  | other => other

/-- Where a nonterminal for statements stands, and how what it derives ends. -/
def ending? : Nonterminal → Option (Bool × Ending)
  | .statement inLoop ending => some (inLoop, ending)
  | .forStatement inLoop ending => some (inLoop, ending)
  | .ifStatement inLoop ending => some (inLoop, ending)
  | .whileStatement inLoop ending => some (inLoop, ending)
  | _ => none

end Nonterminal

variable {checked : Bool}

/-- What is derived anywhere is derived in the body of a loop. -/
theorem Derives.looped
    {nonterminal : Nonterminal}
    {tokens : List Token}
    (derivation : Derives checked nonterminal tokens) :
    Derives checked nonterminal.looped tokens := by
  induction derivation with
  | program parts => exact .program parts
  | breakStatement begins ends _ => exact .breakStatement begins ends fun _ => rfl
  | _ => grind [Derives, Nonterminal.looped]

/-- A statement that ends in a conditional without an alternative takes one there. -/
theorem Derives.exists_extended
    {nonterminal : Nonterminal}
    {inLoop : Bool}
    {ending : Ending}
    {otherwise : Token}
    {tokens alternative : List Token}
    (derivation : Derives checked nonterminal tokens)
    (takes : nonterminal.ending? = some (inLoop, .extensible))
    (separates : otherwise.kind = .keyword .elseWord)
    (other : Derives checked (.statement inLoop ending) alternative) :
    ∃ result, Derives checked (.statement inLoop result) (tokens ++ otherwise :: alternative) := by
  induction derivation generalizing inLoop with
  | forIsStatement _ inductionHypothesis => exact inductionHypothesis takes other
  | ifIsStatement _ inductionHypothesis => exact inductionHypothesis takes other
  | whileIsStatement _ inductionHypothesis => exact inductionHypothesis takes other
  | @forStatement inLoop _ _ _ _ _ _ _ _ _ begins opens first second divides third closes _
      _ _ _ inductionHypothesis =>
      cases takes
      obtain ⟨result, extended⟩ := inductionHypothesis rfl other.looped
      have loop : Derives checked (.forStatement inLoop result) _ :=
        .forStatement begins opens first second divides third closes extended
      exact ⟨result, .forIsStatement (by simpa using loop)⟩
  | @whileStatement inLoop _ _ _ _ _ _ begins opens tested closes _ _ inductionHypothesis =>
      cases takes
      obtain ⟨result, extended⟩ := inductionHypothesis rfl other.looped
      have loop : Derives checked (.whileStatement inLoop result) _ :=
        .whileStatement begins opens tested closes extended
      exact ⟨result, .whileIsStatement (by simpa using loop)⟩
  | @ifStatement _ branchEnding _ _ _ _ _ begins opens tested closes chosen _
      inductionHypothesis =>
      cases takes
      -- The innermost conditional without an alternative is the one that takes it.
      cases branchEnding with
      | closed =>
          have conditional := ifElseStatement begins opens tested closes chosen separates other
          exact ⟨ending, .ifIsStatement (by simpa using conditional)⟩
      | extensible =>
          obtain ⟨result, extended⟩ := inductionHypothesis rfl other
          have conditional := ifStatement begins opens tested closes extended
          exact ⟨.extensible, .ifIsStatement (by simpa using conditional)⟩
  | ifElseStatement begins opens tested closes chosen divides _ _ _ inductionHypothesis =>
      cases takes
      obtain ⟨result, extended⟩ := inductionHypothesis rfl other
      have conditional := ifElseStatement begins opens tested closes chosen divides extended
      exact ⟨result, .ifIsStatement (by simpa using conditional)⟩
  | _ => cases takes

/-- Any statement is the first branch of a conditional with an alternative. -/
theorem Derives.exists_ifElse
    {inLoop : Bool}
    {chosenEnding otherEnding : Ending}
    {word opening closing otherwise : Token}
    {condition thenBranch elseBranch : List Token}
    (begins : word.kind = .keyword .ifWord)
    (opens : opening.kind = .mark .leftParen)
    (tested : Derives checked .expression condition)
    (closes : closing.kind = .mark .rightParen)
    (chosen : Derives checked (.statement inLoop chosenEnding) thenBranch)
    (separates : otherwise.kind = .keyword .elseWord)
    (alternative : Derives checked (.statement inLoop otherEnding) elseBranch) :
    ∃ ending,
      Derives checked (.statement inLoop ending)
        (word :: opening :: (condition ++ closing :: (thenBranch ++ otherwise :: elseBranch))) := by
  cases chosenEnding with
  | closed =>
      have conditional :=
        Derives.ifElseStatement begins opens tested closes chosen separates alternative
      exact ⟨otherEnding, .ifIsStatement conditional⟩
  | extensible =>
      obtain ⟨_, extended⟩ := chosen.exists_extended rfl separates alternative
      exact ⟨.extensible, .ifIsStatement (.ifStatement begins opens tested closes extended)⟩

end BlockScript.Grammar
