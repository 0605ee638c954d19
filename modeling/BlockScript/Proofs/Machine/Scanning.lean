import BlockScript.Proofs.Machine.Scan

namespace BlockScript

/-!
# Scanning

Behind every step of the scanner the two positions lie around a text of the
source.  What a character begins is passed and noted as the segment that is cut
there, so that scanning takes no misstep, comes to an end, and finds what
`Lexing.ofSource` finds.
-/

/-- The segments found before stand before those found next. -/
theorem Source.segmentsFrom_found
    (line : Nat)
    (found : List PlacedSegment)
    (source : List Char) :
    segmentsFrom line found source = found.reverse ++ segmentsFrom line [] source := by
  induction bound : source.length using Nat.strongRecOn generalizing line found source with
  | ind size inductionHypothesis =>
      cases source with
      | nil => simp [segmentsFrom]
      | cons first rest =>
          have shorter : (Segment.cut first rest).2.length < size := by
            rw [← bound]
            exact Nat.lt_succ_of_le (Segment.cut_rest_length_le first rest)
          rw [segmentsFrom, segmentsFrom, inductionHypothesis _ shorter _ _ _ rfl,
            inductionHypothesis _ shorter _ [_] _ rfl]
          simp

/-- The first segment is placed on the line where it ends, and the others go on from there. -/
theorem Source.segmentsFrom_cons
    (line : Nat)
    (first : Char)
    (rest : List Char) :
    segmentsFrom line [] (first :: rest) =
      { segment := (Segment.cut first rest).1,
        line := line + lineFeeds (Segment.cut first rest).1.text } ::
        segmentsFrom (line + lineFeeds (Segment.cut first rest).1.text) []
          (Segment.cut first rest).2 := by
  rw [segmentsFrom, segmentsFrom_found]
  rfl

namespace Machine

/-- The text of a string is what its ends say, wherever it is looked at. -/
theorem unquoted_eq
    (lexeme : String) :
    unquoted lexeme = .ok (Literal.ofQuoted lexeme) := by
  unfold unquoted Literal.ofQuoted
  dsimp only
  cases characters : lexeme.toList with
  | nil => rfl
  | cons first rest =>
      cases rest with
      | nil =>
          by_cases isQuote : first = '"'
          · subst isQuote
            rfl
          · simp [isQuote]
      | cons second rest =>
          have last :
              (first :: second :: rest)[(first :: second :: rest).length - 1]? =
                (second :: rest).getLast? := by
            simp [List.getLast?_eq_getElem?]
          obtain ⟨ending, isLast⟩ : ∃ ending, (second :: rest).getLast? = some ending :=
            ⟨_, List.getLast?_eq_some_getLast (List.cons_ne_nil second rest)⟩
          have notShort : ¬(first :: second :: rest).length < 2 := by
            simp
          rw [if_neg notShort, last, isLast]
          by_cases isQuote : first = '"'
          · subst isQuote
            by_cases ends : ending = '"'
            · simp [ends, isLast, List.dropLast_eq_take]
            · simp [ends, isLast]
          · simp [isQuote]

/-- The machine derives the values of tokens from their texts. -/
theorem literalOf_eq
    (kind : Kind)
    (lexeme : String) :
    literalOf kind lexeme = .ok (Literal.ofLexeme kind lexeme) := by
  cases kind with
  | string => exact unquoted_eq lexeme
  | _ => rfl

open Scan

section Comes

variable {α β : Type} {scanner after : Scanner}

/-- A procedure goes on with what its first part gives. -/
theorem Scan.Comes.bind
    {first : Scan α}
    {next : α → Scan β}
    {value : α}
    {result : β}
    {last : Scanner}
    (begins : Comes first scanner value after)
    (goesOn : Comes (next value) after result last) :
    Comes (first >>= next) scanner result last := by
  have began : first scanner = some (.ok (value, after)) := begins
  change Option.bind (first scanner) (ExceptT.bindCont fun state => next state.1 state.2) = _
  rw [began]
  exact goesOn

namespace Scan.Settles

/-- A procedure that makes no calls comes to its end at any depth. -/
theorem of_comes
    {procedure : Scan α}
    {value : α}
    (comes : Comes procedure scanner value after) :
    Settles (fun _ => procedure) scanner value after :=
  .of_forall fun _ => comes

/-- A procedure goes on with what its first part gives, as deep as both parts need. -/
theorem bind
    {first : Nat → Scan α}
    {next : Nat → α → Scan β}
    {value : α}
    {result : β}
    {last : Scanner}
    (begins : Settles first scanner value after)
    (goesOn : Settles (fun fuel => next fuel value) after result last) :
    Settles (fun fuel => first fuel >>= next fuel) scanner result last :=
  (begins.and goesOn).imp fun _ both => both.1.bind both.2

/-- A call needs one level more than what it does. -/
theorem deeper
    {procedure body : Nat → Scan α}
    {value : α}
    (unfolds : ∀ fuel, procedure (fuel + 1) = body fuel)
    (settles : Settles body scanner value after) :
    Settles procedure scanner value after := by
  refine FromSomeDepth.deeper (settles.imp fun fuel comes => ?_)
  rw [unfolds]
  exact comes

end Scan.Settles

/-- A procedure that makes no calls is followed by one that may. -/
theorem Scan.Comes.bind_settles
    {first : Scan α}
    {next : Nat → α → Scan β}
    {value : α}
    {result : β}
    {last : Scanner}
    (begins : Comes first scanner value after)
    (goesOn : Settles (fun fuel => next fuel value) after result last) :
    Settles (fun fuel => first >>= next fuel) scanner result last :=
  (Settles.of_comes begins).bind goesOn

/-- The positions lie around a text of the source. -/
structure Scanner.Stands
    (source before text rest : List Char)
    (scanner : Scanner) :
    Prop where
  source_eq : source = before ++ (text ++ rest)
  start_eq : scanner.start = before.length
  current_eq : scanner.current = before.length + text.length

/-- The scanner behind further characters. -/
def Scanner.passing
    (scanner : Scanner)
    (passed : List Char) :
    Scanner :=
  { scanner with
    current := scanner.current + passed.length
    line := scanner.line + Source.lineFeeds passed }

/-- What is passed is passed together. -/
theorem passing_passing
    (scanner : Scanner)
    (first second : List Char) :
    (scanner.passing first).passing second = scanner.passing (first ++ second) := by
  simp [Scanner.passing, Source.lineFeeds, Nat.add_assoc]

/-- The scanner on the line behind a character. -/
def Scanner.counting
    (scanner : Scanner)
    (char : Char) :
    Scanner :=
  { scanner with line := if char = '\n' then scanner.line + 1 else scanner.line }

/-- A character is passed by moving behind it and counting its line. -/
theorem passing_singleton
    (scanner : Scanner)
    (char : Char) :
    scanner.passing [char] =
      { scanner.counting char with current := scanner.current + 1 } := by
  by_cases isLineFeed : char = '\n' <;>
    simp [Scanner.passing, Scanner.counting, Source.lineFeeds, isLineFeed]

variable {source before text rest : List Char}

/-- What is passed belongs to the text. -/
theorem Scanner.Stands.passing
    {passed : List Char}
    (stands : scanner.Stands source before text (passed ++ rest)) :
    (scanner.passing passed).Stands source before (text ++ passed) rest :=
  ⟨by simp [stands.source_eq], stands.start_eq, by
    simp [Scanner.passing, stands.current_eq, Nat.add_assoc]⟩

/-- Whether the source goes on. -/
theorem scans_hasNext
    (stands : scanner.Stands source before text rest) :
    Comes (hasNext source) scanner (!rest.isEmpty) scanner := by
  have same : decide (scanner.current < source.length) = !rest.isEmpty := by
    rw [stands.current_eq, stands.source_eq]
    cases rest <;> simp
  rw [← same]
  rfl

/-- The character at a position in the source. -/
theorem scans_charAt
    {position : Nat}
    {char : Char}
    (found : source[position]? = some char) :
    Comes (charAt source position) scanner char scanner := by
  unfold charAt
  rw [found]
  rfl

/-- The next character stands at the second position. -/
theorem Scanner.Stands.getElem?_current
    (stands : scanner.Stands source before text rest) :
    source[scanner.current]? = rest.head? := by
  rw [stands.source_eq, stands.current_eq, ← List.append_assoc, ← List.length_append,
    List.getElem?_append_right (Nat.le_refl _), Nat.sub_self, List.head?_eq_getElem?]

/-- The next character is taken. -/
theorem scans_advance
    {char : Char}
    (stands : scanner.Stands source before text (char :: rest)) :
    Comes (advance source) scanner char { scanner with current := scanner.current + 1 } :=
  Comes.bind rfl ((scans_charAt stands.getElem?_current).bind (Comes.bind rfl rfl))

/-- A character that is not a line feed is passed. -/
theorem scans_advance_passing
    {char : Char}
    (stands : scanner.Stands source before text (char :: rest))
    (notLineFeed : char ≠ '\n') :
    Comes (advance source) scanner char (scanner.passing [char]) := by
  have same : scanner.counting char = scanner := by
    simp [Scanner.counting, notLineFeed]
  rw [passing_singleton, same]
  exact scans_advance stands

/-- The next character is looked at; at the end there is none. -/
theorem scans_peek
    (stands : scanner.Stands source before text rest) :
    Comes (peek source) scanner (rest.headD '\x00') scanner := by
  refine (scans_hasNext stands).bind ?_
  cases rest with
  | nil => rfl
  | cons char rest => exact Comes.bind rfl (scans_charAt stands.getElem?_current)

/-- The character behind the next one is looked at; near the end there is none. -/
theorem scans_peekNext
    {char : Char}
    (stands : scanner.Stands source before text (char :: rest)) :
    Comes (peekNext source) scanner (rest.headD '\x00') scanner := by
  refine Comes.bind rfl ?_
  have behind : source[scanner.current + 1]? = rest.head? := by
    have passed : scanner.Stands source before text ([char] ++ rest) := stands
    exact passed.passing.getElem?_current
  cases rest with
  | nil =>
      have ends : source.length ≤ scanner.current + 1 := by
        simp [stands.source_eq, stands.current_eq, Nat.add_assoc]
      rw [if_pos ends]
      rfl
  | cons second rest =>
      have goesOn : ¬source.length ≤ scanner.current + 1 := by
        simp [stands.source_eq, stands.current_eq]
        omega
      rw [if_neg goesOn]
      exact scans_charAt behind

/-- The text between the positions lies in the source. -/
theorem scans_lexeme
    (stands : scanner.Stands source before text rest) :
    Comes (lexeme source) scanner (String.ofList text) scanner := by
  refine Comes.bind rfl ?_
  have inside : scanner.start ≤ scanner.current ∧ scanner.current ≤ source.length := by
    simp only [stands.source_eq, stands.start_eq, stands.current_eq, List.length_append]
    omega
  have found : (source.take scanner.current).drop scanner.start = text := by
    simp [stands.source_eq, stands.start_eq, stands.current_eq, List.drop_take]
  rw [if_pos inside, found]
  rfl

/-- The next character is taken where it is the expected one. -/
theorem scans_accept
    {char : Char}
    (stands : scanner.Stands source before text (char :: rest))
    (notLineFeed : char ≠ '\n') :
    Comes (accept source char) scanner true (scanner.passing [char]) := by
  have same : scanner.counting char = scanner := by
    simp [Scanner.counting, notLineFeed]
  rw [passing_singleton, same]
  refine (scans_hasNext stands).bind (Comes.bind rfl ?_)
  refine (scans_charAt stands.getElem?_current).bind ?_
  rw [if_pos rfl]
  exact Comes.bind rfl rfl

/-- Another character than the expected one is left, and so is the end. -/
theorem scans_accept_not
    {expected : Char}
    (stands : scanner.Stands source before text rest)
    (differs : rest.head? ≠ some expected) :
    Comes (accept source expected) scanner false scanner := by
  refine (scans_hasNext stands).bind ?_
  cases rest with
  | nil => rfl
  | cons char rest =>
      refine Comes.bind rfl ((scans_charAt stands.getElem?_current).bind ?_)
      rw [if_neg fun same => differs (congrArg some same)]
      rfl

/-- The characters before a stop are passed, and their lines counted. -/
theorem scans_skipUntil
    (stop : Char)
    (stands : scanner.Stands source before text rest) :
    Settles (skipUntil source stop) scanner () (scanner.passing (rest.takeWhile (· != stop))) := by
  induction rest generalizing scanner text with
  | nil =>
      have stays : Comes (goesOnTo source stop) scanner false scanner := by
        refine (scans_peek stands).bind ?_
        split
        · rfl
        · exact scans_hasNext stands
      exact .deeper (fun _ => rfl) (stays.bind_settles (.of_comes rfl))
  | cons char rest inductionHypothesis =>
      have decides : Comes (goesOnTo source stop) scanner (char != stop) scanner := by
        refine (scans_peek stands).bind ?_
        by_cases isStop : char = stop
        · simp only [List.headD_cons, isStop, ↓reduceIte, bne_self_eq_false]
          rfl
        · simp only [List.headD_cons, isStop, ↓reduceIte, bne_iff_ne.mpr isStop]
          exact scans_hasNext stands
      refine .deeper (fun _ => rfl) (decides.bind_settles ?_)
      by_cases isStop : char = stop
      · simp only [isStop, bne_self_eq_false, Bool.false_eq_true, ↓reduceIte,
          List.takeWhile_cons]
        exact .of_comes rfl
      · simp only [bne_iff_ne.mpr isStop, ↓reduceIte, List.takeWhile_cons]
        have counted : (scanner.counting char).Stands source before text (char :: rest) :=
          ⟨stands.source_eq, stands.start_eq, stands.current_eq⟩
        have passed : scanner.Stands source before text ([char] ++ rest) := stands
        have goesOn := inductionHypothesis passed.passing
        rw [passing_passing, passing_singleton] at goesOn
        exact (scans_peek stands).bind_settles
          (Comes.bind_settles rfl ((scans_advance counted).bind_settles goesOn))

/-- The characters of a class are passed; the end of the source is in no class. -/
theorem scans_skipWhile
    (inClass : Char → Bool)
    (noEnd : inClass '\x00' = false)
    (noLineFeed : inClass '\n' = false)
    (stands : scanner.Stands source before text rest) :
    Settles (skipWhile source inClass) scanner () (scanner.passing (rest.takeWhile inClass)) := by
  induction rest generalizing scanner text with
  | nil =>
      refine .deeper (fun _ => rfl) ((scans_peek stands).bind_settles ?_)
      simp only [List.headD_nil, noEnd, Bool.false_eq_true, ↓reduceIte]
      exact .of_comes rfl
  | cons char rest inductionHypothesis =>
      refine .deeper (fun _ => rfl) ((scans_peek stands).bind_settles ?_)
      simp only [List.headD_cons, List.takeWhile_cons]
      by_cases isIn : inClass char = true
      · have notLineFeed : char ≠ '\n' := by
          rintro rfl
          simp [noLineFeed] at isIn
        have passed : scanner.Stands source before text ([char] ++ rest) := stands
        have goesOn := inductionHypothesis passed.passing
        rw [passing_passing] at goesOn
        simp only [isIn, ↓reduceIte]
        exact (scans_advance_passing stands notLineFeed).bind_settles goesOn
      · simp only [isIn, Bool.false_eq_true, ↓reduceIte]
        exact .of_comes rfl

/-- The scanner with one more error on its line. -/
def Scanner.noting
    (scanner : Scanner)
    (fault : LexicalFault) :
    Scanner :=
  { scanner with errors := scanner.errors ++ [{ line := scanner.line, fault }] }

/-- A block comment ends where its two closing characters are next. -/
theorem scans_closesComment
    (stands : scanner.Stands source before text ('*' :: '/' :: rest)) :
    Comes (closesComment source) scanner true scanner :=
  (scans_peek stands).bind ((scans_peekNext stands).bind rfl)

/-- Anywhere else a block comment goes on. -/
theorem scans_closesComment_not
    (stands : scanner.Stands source before text rest)
    (goesOn : ∀ after, rest ≠ '*' :: '/' :: after) :
    Comes (closesComment source) scanner false scanner := by
  refine (scans_peek stands).bind ?_
  cases rest with
  | nil => rfl
  | cons first rest =>
      rw [List.headD_cons]
      by_cases isStar : first = '*'
      · subst isStar
        have notSlash : rest.headD '\x00' ≠ '/' := by
          cases rest with
          | nil => decide
          | cons second rest =>
              rintro rfl
              exact goesOn rest rfl
        rw [if_pos rfl]
        refine (scans_peekNext stands).bind ?_
        simp only [notSlash, decide_false]
        rfl
      · rw [if_neg isStar]
        rfl

/-- Inside a block comment any other character is passed. -/
theorem scans_blockComment_next
    {char : Char}
    {last : Scanner}
    (stands : scanner.Stands source before text (char :: rest))
    (goesOn : ∀ after, char = '*' → rest ≠ '/' :: after)
    (settles : Settles (blockComment source) (scanner.passing [char]) () last) :
    Settles (blockComment source) scanner () last := by
  rw [passing_singleton] at settles
  refine .deeper (fun _ => rfl) ((scans_closesComment_not stands ?_).bind_settles
    ((scans_hasNext stands).bind_settles ?_))
  · rintro after same
    obtain ⟨isStar, isRest⟩ := List.cons.inj same
    exact goesOn after isStar isRest
  · exact (scans_advance stands).bind_settles (Comes.bind_settles rfl settles)

/-- A block comment is passed up to its end. -/
theorem scans_blockComment
    {done body after : List Char}
    (stands : scanner.Stands source before text rest)
    (found : Segment.splitComment? done rest = some (body, after)) :
    ∃ passed,
      body = done.reverse ++ passed ∧
        Settles (blockComment source) scanner () (scanner.passing passed) := by
  fun_induction Segment.splitComment? done rest generalizing scanner text with
  | case1 done rest =>
      simp only [Option.some.injEq, Prod.mk.injEq] at found
      have first : scanner.Stands source before text (['*'] ++ '/' :: rest) := stands
      refine ⟨['*', '/'], found.1.symm, ?_⟩
      refine .deeper (fun _ => rfl) ((scans_closesComment stands).bind_settles ?_)
      have closes := scans_advance_passing first.passing (by decide)
      rw [passing_passing] at closes
      exact (scans_advance_passing stands (by decide)).bind_settles
        (closes.bind_settles (.of_comes rfl))
  | case2 done char rest goesOn inductionHypothesis =>
      have passed : scanner.Stands source before text ([char] ++ rest) := stands
      obtain ⟨further, isBody, settles⟩ := inductionHypothesis passed.passing found
      rw [passing_passing] at settles
      exact ⟨char :: further, by simp [isBody], scans_blockComment_next stands goesOn settles⟩
  | case3 done => cases found

/-- A block comment without an end is passed to the end of the source, and noted. -/
theorem scans_blockComment_unterminated
    {done : List Char}
    (stands : scanner.Stands source before text rest)
    (notFound : Segment.splitComment? done rest = none) :
    Settles (blockComment source) scanner ()
      ((scanner.passing rest).noting .unterminatedComment) := by
  fun_induction Segment.splitComment? done rest generalizing scanner text with
  | case1 done rest => cases notFound
  | case2 done char rest goesOn inductionHypothesis =>
      have passed : scanner.Stands source before text ([char] ++ rest) := stands
      have settles := inductionHypothesis passed.passing notFound
      rw [passing_passing] at settles
      exact scans_blockComment_next stands goesOn settles
  | case3 done =>
      exact .deeper (fun _ => rfl)
        ((scans_closesComment_not stands (by simp)).bind_settles
          ((scans_hasNext stands).bind_settles (.of_comes rfl)))

/-- What the scanner becomes behind a segment that begins where the scanner stands. -/
def Scanner.placing
    (scanner : Scanner)
    (segment : Segment) :
    Scanner :=
  let placed : PlacedSegment :=
    { segment, line := scanner.line + Source.lineFeeds segment.text }
  { scanner.passing segment.text with
    tokens := scanner.tokens ++ placed.token?.toList
    errors := scanner.errors ++ placed.error?.toList }

/-- Blanks and comments are passed, and nothing is noted. -/
theorem placing_of_silent
    {segment : Segment}
    (silent : segment.role = .blank ∨ segment.role = .comment) :
    scanner.placing segment = scanner.passing segment.text := by
  rcases silent with isBlank | isComment
  · simp [Scanner.placing, PlacedSegment.token?, PlacedSegment.error?, Scanner.passing, isBlank]
  · simp [Scanner.placing, PlacedSegment.token?, PlacedSegment.error?, Scanner.passing, isComment]

/-- A token is noted where its text has been passed. -/
theorem scans_addToken
    {kind : Kind}
    (stands : (scanner.passing text).Stands source before text rest) :
    Comes (addToken source kind) (scanner.passing text) ()
      (scanner.placing { text, role := .token kind .nil }) := by
  refine (scans_lexeme stands).bind ?_
  simp only [Scanner.placing, PlacedSegment.token?, PlacedSegment.error?, Option.toList_some,
    Option.toList_none, List.append_nil]
  rfl

/-- A mark is noted where its characters have been passed. -/
theorem scans_addMark
    {mark : Mark}
    (spelled : mark.spelling.toList = text)
    (stands : (scanner.passing text).Stands source before text rest) :
    Comes (addToken source (.mark mark)) (scanner.passing text) ()
      (scanner.placing (Segment.ofMark mark)) := by
  have same : Segment.ofMark mark = { text, role := .token (.mark mark) .nil } := by
    simp [Segment.ofMark, spelled]
  rw [same]
  exact scans_addToken stands

/-- A token with a value is noted where its text has been passed, or the lack of one. -/
theorem scans_addLiteral
    {kind : Kind}
    (stands : (scanner.passing text).Stands source before text rest) :
    Comes (addLiteral source kind) (scanner.passing text) ()
      (scanner.placing (Segment.ofLiteral kind text)) := by
  refine (scans_lexeme stands).bind ?_
  rw [literalOf_eq]
  refine Comes.bind rfl ?_
  unfold Segment.ofLiteral
  cases Literal.ofLexeme kind (String.ofList text) <;>
    · simp only [Scanner.placing, Segment.roleOf, PlacedSegment.token?, PlacedSegment.error?,
        Option.toList_some, Option.toList_none, List.append_nil]
      rfl

/-- A fault counts on the line where its text ends. -/
theorem noting_passing
    (scanner : Scanner)
    (text : List Char)
    (fault : LexicalFault) :
    (scanner.passing text).noting fault = scanner.placing { text, role := .fault fault } := by
  simp only [Scanner.placing, PlacedSegment.token?, PlacedSegment.error?, Option.toList_some,
    Option.toList_none, List.append_nil]
  rfl

/-- A fault is noted where its text has been passed. -/
theorem scans_addError
    (scanner : Scanner)
    (text : List Char)
    (fault : LexicalFault) :
    Comes (addError fault) (scanner.passing text) ()
      (scanner.placing { text, role := .fault fault }) := by
  rw [← noting_passing]
  rfl

/-- Behind a text, the text goes on with what is passed next. -/
theorem Scanner.Stands.further
    {passed : List Char}
    (stands : (scanner.passing text).Stands source before text (passed ++ rest)) :
    (scanner.passing (text ++ passed)).Stands source before (text ++ passed) rest :=
  passing_passing scanner text passed ▸ stands.passing

/-- Behind a text, the text goes on with the characters of a class that follow. -/
theorem Scanner.Stands.takeWhile
    (inClass : Char → Bool)
    (stands : (scanner.passing text).Stands source before text rest) :
    (scanner.passing (text ++ rest.takeWhile inClass)).Stands source before
      (text ++ rest.takeWhile inClass) (rest.dropWhile inClass) := by
  have split : rest.takeWhile inClass ++ rest.dropWhile inClass = rest :=
    List.takeWhile_append_dropWhile
  rw [← split] at stands
  exact stands.further

/-- A mark is noted with the equals sign that may follow. -/
theorem scans_addEither
    {single double : Mark}
    {first : Char}
    (singleText : single.spelling.toList = [first])
    (doubleText : double.spelling.toList = [first, '='])
    (stands : (scanner.passing [first]).Stands source before [first] rest) :
    Comes (addEither source single double) (scanner.passing [first]) ()
      (scanner.placing (Segment.cutMark single double rest).1) := by
  unfold Segment.cutMark
  split
  · rename_i rest
    have passed : (scanner.passing [first]).Stands source before [first] (['='] ++ rest) := stands
    have accepts := scans_accept stands (by decide)
    rw [passing_passing] at accepts
    exact accepts.bind (scans_addMark doubleText passed.further)
  · rename_i differs
    refine (scans_accept_not stands ?_).bind (scans_addMark singleText stands)
    intro isEqual
    obtain ⟨after, same⟩ := List.head?_eq_some_iff.mp isEqual
    exact differs after same

/-- What a slash begins is passed and noted. -/
theorem scans_slash
    (stands : (scanner.passing ['/']).Stands source before ['/'] rest) :
    Settles (slash source) (scanner.passing ['/']) ()
      (scanner.placing (Segment.cutSlash rest).1) := by
  unfold Segment.cutSlash
  split
  · rename_i rest
    have passed : (scanner.passing ['/']).Stands source before ['/'] (['/'] ++ rest) := stands
    have accepts := scans_accept stands (by decide)
    have skips := scans_skipUntil '\n' passed.further
    rw [passing_passing] at accepts skips
    rw [placing_of_silent (.inr rfl)]
    exact accepts.bind_settles skips
  · rename_i rest
    have passed : (scanner.passing ['/']).Stands source before ['/'] (['*'] ++ rest) := stands
    have accepts := scans_accept stands (by decide)
    rw [passing_passing] at accepts
    refine (scans_accept_not stands (by simp)).bind_settles (accepts.bind_settles ?_)
    cases found : Segment.splitComment? [] rest with
    | none =>
        have noted := scans_blockComment_unterminated passed.further found
        rw [passing_passing, noting_passing] at noted
        exact noted
    | some split =>
        obtain ⟨body, after⟩ := split
        obtain ⟨closed, isBody, settles⟩ := scans_blockComment passed.further found
        rw [passing_passing] at settles
        rw [placing_of_silent (.inr rfl), isBody]
        exact settles
  · rename_i notLine notBlock
    refine (scans_accept_not stands ?_).bind_settles
      ((scans_accept_not stands ?_).bind_settles
        (.of_comes (scans_addMark (by decide) stands)))
    · intro isSlash
      obtain ⟨after, same⟩ := List.head?_eq_some_iff.mp isSlash
      exact notLine after same
    · intro isStar
      obtain ⟨after, same⟩ := List.head?_eq_some_iff.mp isStar
      exact notBlock after same

/-- What a quote begins is passed and noted. -/
theorem scans_string
    (stands : (scanner.passing ['"']).Stands source before ['"'] rest) :
    Settles (Scan.string source) (scanner.passing ['"']) ()
      (scanner.placing (Segment.cutString rest).1) := by
  have body := stands.takeWhile (· != '"')
  have skips := scans_skipUntil '"' stands
  rw [passing_passing] at skips
  unfold Segment.cutString
  refine skips.bind ((scans_hasNext body).bind_settles ?_)
  cases remaining : rest.dropWhile (· != '"') with
  | nil => exact .of_comes (scans_addError _ _ _)
  | cons quote after =>
      have isQuote : quote = '"' := by
        have stops := List.head?_dropWhile_not (· != '"') rest
        rw [remaining] at stops
        simpa using stops
      rw [remaining] at body
      have closing : (scanner.passing (['"'] ++ rest.takeWhile (· != '"'))).Stands source before
          (['"'] ++ rest.takeWhile (· != '"')) ([quote] ++ after) := body
      have advances := scans_advance_passing body (isQuote ▸ by decide)
      rw [passing_passing] at advances
      exact .of_comes (advances.bind (scans_addLiteral closing.further))

/-- A point belongs to a number if a digit follows it. -/
theorem scans_hasFraction
    {digit : Char}
    (stands : scanner.Stands source before text ('.' :: digit :: rest)) :
    Comes (hasFraction source) scanner (isDigit digit) scanner :=
  (scans_peek stands).bind ((scans_peekNext stands).bind rfl)

/-- Without a point and a character behind it there is no fraction. -/
theorem scans_hasFraction_not
    (stands : scanner.Stands source before text rest)
    (noPoint : ∀ digit after, rest ≠ '.' :: digit :: after) :
    Comes (hasFraction source) scanner false scanner := by
  refine (scans_peek stands).bind ?_
  cases rest with
  | nil => rfl
  | cons first rest =>
      by_cases isPoint : first = '.'
      · subst isPoint
        cases rest with
        | nil => exact (scans_peekNext stands).bind rfl
        | cons digit after => exact (noPoint digit after rfl).elim
      · rw [List.headD_cons, if_neg isPoint]
        rfl

/-- A point and the digits behind it are passed. -/
theorem scans_fraction
    {digit : Char}
    (digits : isDigit digit = true)
    (stands : (scanner.passing text).Stands source before text ('.' :: digit :: rest)) :
    Settles (fraction source) (scanner.passing text) ()
      (scanner.passing (text ++ '.' :: digit :: rest.takeWhile isDigit)) := by
  have point :
      (scanner.passing text).Stands source before text (['.'] ++ digit :: rest) := stands
  have advances := scans_advance_passing stands (by decide)
  have skips := scans_skipWhile isDigit (by decide) (by decide) point.further
  rw [passing_passing] at advances skips
  rw [List.takeWhile_cons_of_pos digits, List.append_assoc] at skips
  refine (scans_hasFraction stands).bind_settles ?_
  simp only [if_pos digits]
  exact advances.bind_settles skips

/-- What a digit begins is passed and noted. -/
theorem scans_number
    {first : Char}
    (stands : (scanner.passing [first]).Stands source before [first] rest) :
    Settles (number source) (scanner.passing [first]) ()
      (scanner.placing (Segment.cutNumber first rest).1) := by
  have whole := stands.takeWhile isDigit
  have skips := scans_skipWhile isDigit (by decide) (by decide) stands
  rw [passing_passing] at skips
  have noFraction
      (absent :
        Comes (hasFraction source) (scanner.passing ([first] ++ rest.takeWhile isDigit)) false
          (scanner.passing ([first] ++ rest.takeWhile isDigit))) :
      Settles (number source) (scanner.passing [first]) ()
        (scanner.placing (Segment.ofLiteral .number (first :: rest.takeWhile isDigit))) :=
    skips.bind
      (Settles.bind (absent.bind_settles (.of_comes rfl))
        (.of_comes (scans_addLiteral whole)))
  unfold Segment.cutNumber
  dsimp only
  split
  · rename_i digit after remaining
    rw [remaining] at whole
    by_cases digits : isDigit digit = true
    · have point :
          (scanner.passing ([first] ++ rest.takeWhile isDigit)).Stands source before
            ([first] ++ rest.takeWhile isDigit)
            (('.' :: digit :: after.takeWhile isDigit) ++ after.dropWhile isDigit) := by
        simpa [List.takeWhile_append_dropWhile] using whole
      rw [if_pos digits]
      exact skips.bind
        ((scans_fraction digits whole).bind (.of_comes (scans_addLiteral point.further)))
    · rw [if_neg digits]
      refine noFraction ?_
      have absent := scans_hasFraction whole
      rw [Bool.not_eq_true _ |>.mp digits] at absent
      exact absent
  · rename_i noPoint
    exact noFraction (scans_hasFraction_not whole fun digit after same => noPoint digit after same)

/-- What a letter begins is passed and noted. -/
theorem scans_name
    {first : Char}
    (stands : (scanner.passing [first]).Stands source before [first] rest) :
    Settles (name source) (scanner.passing [first]) ()
      (scanner.placing (Segment.cutName first rest).1) := by
  have whole := stands.takeWhile isNamePart
  have skips := scans_skipWhile isNamePart (by decide) (by decide) stands
  rw [passing_passing] at skips
  refine skips.bind (.of_comes ((scans_lexeme whole).bind ?_))
  unfold Segment.cutName Segment.ofName
  rw [List.singleton_append] at whole ⊢
  cases Keyword.ofSpelling? (String.ofList (first :: rest.takeWhile isNamePart)) with
  | some word => exact scans_addToken whole
  | none => exact scans_addToken whole

/-- What any character begins is passed and noted as the segment that is cut there. -/
theorem scans_dispatch
    {first : Char}
    (stands : scanner.Stands source before [] (first :: rest)) :
    Settles (dispatch source first) { scanner with current := scanner.current + 1 } ()
      (scanner.placing (Segment.cut first rest).1) := by
  have passed : scanner.Stands source before [] ([first] ++ rest) := stands
  have behind : (scanner.passing [first]).Stands source before [first] rest := passed.passing
  have moved (notLineFeed : first ≠ '\n') :
      { scanner with current := scanner.current + 1 } = scanner.passing [first] := by
    simp [passing_singleton, Scanner.counting, notLineFeed]
  have blank (isBlank : Segment.cut first rest = ({ text := [first], role := .blank }, rest)) :
      scanner.placing (Segment.cut first rest).1 = scanner.passing [first] := by
    rw [isBlank]
    exact placing_of_silent (.inl rfl)
  unfold dispatch
  split
  case h_1 =>
    rw [blank rfl, ← moved (by decide)]
    exact .of_comes rfl
  case h_2 =>
    rw [blank rfl, ← moved (by decide)]
    exact .of_comes rfl
  case h_3 =>
    rw [blank rfl, ← moved (by decide)]
    exact .of_comes rfl
  case h_4 =>
    rw [blank rfl, passing_singleton]
    exact .of_comes rfl
  case h_17 =>
    rw [moved (by decide)]
    exact .of_comes (scans_addEither (by decide) (by decide) behind)
  case h_18 =>
    rw [moved (by decide)]
    exact .of_comes (scans_addEither (by decide) (by decide) behind)
  case h_19 =>
    rw [moved (by decide)]
    exact .of_comes (scans_addEither (by decide) (by decide) behind)
  case h_20 =>
    rw [moved (by decide)]
    exact .of_comes (scans_addEither (by decide) (by decide) behind)
  case h_21 =>
    rw [moved (by decide)]
    exact scans_slash behind
  case h_22 =>
    rw [moved (by decide)]
    exact scans_string behind
  case h_23 =>
    have notBlank : isBlank first = false := by
      simp_all [isBlank]
    have plain :
        Segment.cut first rest =
          if isDigit first then Segment.cutNumber first rest
          else if isNameStart first then Segment.cutName first rest
          else ({ text := [first], role := .fault .unexpectedCharacter }, rest) := by
      unfold Segment.cut
      split
      case h_19 => simp [notBlank]
      all_goals contradiction
    rw [moved ‹_›, plain]
    by_cases digits : isDigit first = true
    · simpa only [digits, ↓reduceIte] using scans_number behind
    · by_cases names : isNameStart first = true
      · simpa only [digits, names, Bool.false_eq_true, ↓reduceIte] using scans_name behind
      · simpa only [digits, names, Bool.false_eq_true, ↓reduceIte]
          using Settles.of_comes (scans_addError scanner [first] _)
  all_goals
    rw [moved (by decide)]
    exact .of_comes (scans_addMark (by decide) behind)

/-- What a function picks out of a list begins with what it picks out of the first element. -/
theorem filterMap_cons_eq_append
    (pick : α → Option β)
    (first : α)
    (rest : List α) :
    (first :: rest).filterMap pick = (pick first).toList ++ rest.filterMap pick := by
  cases picked : pick first <;> simp [picked]

/-- A segment that was cut is passed. -/
theorem Scanner.Stands.placing
    {first : Char}
    (stands : scanner.Stands source before [] (first :: rest)) :
    (scanner.placing (Segment.cut first rest).1).Stands source before
      (Segment.cut first rest).1.text (Segment.cut first rest).2 := by
  rw [← Segment.cut_text first rest] at stands
  have passed := stands.passing
  exact ⟨passed.source_eq, passed.start_eq, passed.current_eq⟩

/-- The scanner reads on to the end of the source, segment by segment. -/
theorem exists_scans_toEnd
    (stands : scanner.Stands source before text rest) :
    ∃ after,
      Settles (toEnd source) scanner () after ∧
        after.line = scanner.line + Source.lineFeeds rest ∧
          after.tokens =
              scanner.tokens ++
                (Source.segmentsFrom scanner.line [] rest).filterMap PlacedSegment.token? ∧
            after.errors =
              scanner.errors ++
                (Source.segmentsFrom scanner.line [] rest).filterMap PlacedSegment.error? := by
  -- Each cut leaves a shorter rest, so the induction is on its length.
  induction bound : rest.length using Nat.strongRecOn
    generalizing scanner before text rest with
  | ind size inductionHypothesis =>
      cases rest with
      | nil =>
          have ends : Settles (toEnd source) scanner () scanner :=
            .deeper (fun _ => rfl)
              ((scans_hasNext stands).bind_settles (.of_comes rfl))
          refine ⟨scanner, ends, ?_, ?_, ?_⟩
          all_goals simp [Source.lineFeeds, Source.segmentsFrom]
      | cons first rest =>
          have begun :
              ({ scanner with start := scanner.current } : Scanner).Stands source
                (before ++ text) [] (first :: rest) :=
            ⟨by simp [stands.source_eq], by simp [stands.current_eq],
              by simp [stands.current_eq]⟩
          have shorter : (Segment.cut first rest).2.length < size := by
            rw [← bound]
            exact Nat.lt_succ_of_le (Segment.cut_rest_length_le first rest)
          obtain ⟨after, settles, line, tokens, errors⟩ :=
            inductionHypothesis _ shorter begun.placing rfl
          have goesOn : Settles (toEnd source) scanner () after :=
            .deeper (fun _ => rfl) ((scans_hasNext stands).bind_settles
              (Comes.bind_settles rfl ((scans_advance begun).bind_settles
                ((scans_dispatch begun).bind settles))))
          refine ⟨after, goesOn, ?_, ?_, ?_⟩
          · rw [line, ← Segment.cut_text first rest]
            simp [Scanner.placing, Scanner.passing, Source.lineFeeds, Nat.add_assoc]
          · rw [tokens, Source.segmentsFrom_cons, filterMap_cons_eq_append]
            simp only [Scanner.placing, Scanner.passing, List.append_assoc]
          · rw [errors, Source.segmentsFrom_cons, filterMap_cons_eq_append]
            simp only [Scanner.placing, Scanner.passing, List.append_assoc]

end Comes

/-- The machine finds the tokens and the lexical errors of every source. -/
theorem gives_lex
    (source : List Char) :
    Gives (lex source) (Lexing.ofSource source) := by
  let start : Scanner := { start := 0, current := 0, line := 1, tokens := [], errors := [] }
  have stands : start.Stands source [] [] source := ⟨rfl, rfl, rfl⟩
  obtain ⟨after, settles, line, tokens, errors⟩ := exists_scans_toEnd stands
  have found :
      Lexing.ofSource source =
        { tokens :=
            after.tokens ++
              [{ kind := .endOfInput, lexeme := "", literal := .nil, line := after.line }],
          errors := after.errors } := by
    rw [tokens, errors, line]
    rfl
  refine settles.imp fun fuel comes => ?_
  unfold Comes at comes
  change Option.bind ((toEnd source fuel).run start) _ = _
  rw [comes, found]
  rfl

end Machine

end BlockScript
