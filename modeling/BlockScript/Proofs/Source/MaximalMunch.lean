import BlockScript.Proofs.Source.Partition

namespace BlockScript.Lexical

/-!
# Cutting takes the segment that the grammar allows

Exactly one segment may stand at the front of a source that is not empty, and
cutting takes it.  A source therefore has exactly one partition.
-/

/-- A run with a property is taken off the front of a text that stops it. -/
theorem takeWhile_append_of_stopsAt
    {property : Char → Bool}
    {run rest : List Char}
    (all : ∀ c ∈ run, property c = true)
    (stops : StopsAt property rest) :
    (run ++ rest).takeWhile property = run ∧ (run ++ rest).dropWhile property = rest := by
  rw [List.takeWhile_append_of_pos all, List.dropWhile_append_of_pos all]
  cases rest with
  | nil =>
      simp
  | cons c others =>
      have stop : property c = false := stops c rfl
      simp [stop]

/-- What follows the longest run with a property stops it. -/
theorem stopsAt_dropWhile
    (property : Char → Bool)
    (text : List Char) :
    StopsAt property (text.dropWhile property) := by
  intro c isFirst
  have stops := List.head?_dropWhile_not property text
  rw [Option.mem_def.mp isFirst] at stops
  exact stops

/-- The characters of the longest run with a property have it. -/
theorem property_of_mem_takeWhile
    {property : Char → Bool}
    {text : List Char} :
    ∀ c ∈ text.takeWhile property, property c = true :=
  List.all_eq_true.mp List.all_takeWhile

/-- A character that a text lacks differs from all of its characters. -/
theorem bne_of_not_mem
    {c : Char}
    {text : List Char}
    (absent : c ∉ text) :
    ∀ d ∈ text, (d != c) = true := by
  intro d isMember
  rw [bne_iff_ne]
  rintro rfl
  exact absent isMember

/-- The blanks are the four listed characters. -/
theorem isBlank_iff
    {c : Char} :
    isBlank c = true ↔ c ∈ [' ', '\r', '\t', '\n'] := by
  simp [isBlank, or_assoc]

/-- A character of a class without blanks is not a blank. -/
theorem isBlank_eq_false
    {property : Char → Bool}
    {c : Char}
    (has : property c = true)
    (noBlank : [' ', '\r', '\t', '\n'].all (fun d => !property d) = true) :
    isBlank c = false := by
  refine Bool.eq_false_iff.mpr fun blank => ?_
  have lacks := List.all_eq_true.mp noBlank c (isBlank_iff.mp blank)
  simp [has] at lacks

/-- What begins a name is not a digit. -/
theorem isDigit_of_isNameStart
    {c : Char}
    (starts : isNameStart c = true) :
    isDigit c = false := by
  refine Bool.eq_false_iff.mpr fun digit => ?_
  simp only [isDigit, isNameStart, Bool.and_eq_true, Bool.or_eq_true, decide_eq_true_eq,
    beq_iff_eq, Char.le_def, UInt32.le_iff_toNat_le] at digit starts
  rcases starts with (small | large) | rfl
  · have above : 'a'.val.toNat = 97 ∧ '9'.val.toNat = 57 := by decide
    omega
  · have above : 'A'.val.toNat = 65 ∧ '9'.val.toNat = 57 := by decide
    omega
  · exact absurd digit (by decide)

/-- A digit begins a number. -/
theorem cut_of_isDigit
    {c : Char}
    (digit : isDigit c = true)
    (rest : List Char) :
    Segment.cut c rest = Segment.cutNumber c rest := by
  unfold Segment.cut
  split
  case h_19 => simp [isBlank_eq_false digit rfl, digit]
  all_goals exact absurd digit (by decide)

/-- A letter or an underscore begins a name. -/
theorem cut_of_isNameStart
    {c : Char}
    (starts : isNameStart c = true)
    (rest : List Char) :
    Segment.cut c rest = Segment.cutName c rest := by
  unfold Segment.cut
  split
  case h_19 => simp [isBlank_eq_false starts rfl, isDigit_of_isNameStart starts, starts]
  all_goals exact absurd starts (by decide)

/-- A text ends a comment at its front or behind its first character. -/
theorem ends_infix_cons_iff
    {c : Char}
    {rest : List Char} :
    ['*', '/'] <:+: c :: rest ↔ (c = '*' ∧ ['/'] <+: rest) ∨ ['*', '/'] <:+: rest := by
  rw [List.infix_cons_iff, List.cons_prefix_cons]
  constructor
  · rintro (⟨rfl, slash⟩ | later)
    · exact .inl ⟨rfl, slash⟩
    · exact .inr later
  · rintro (⟨rfl, slash⟩ | later)
    · exact .inl ⟨rfl, slash⟩
    · exact .inr later

/-- A split comment ends at the first `*/`. -/
theorem exists_of_splitComment?_eq_some
    {before source body after : List Char}
    (found : Segment.splitComment? before source = some (body, after)) :
    ∃ inner,
      body = before.reverse ++ (inner ++ ['*', '/']) ∧
        source = inner ++ '*' :: '/' :: after ∧ ¬['*', '/'] <:+: inner ++ ['*'] := by
  fun_induction Segment.splitComment? before source with
  | case1 before rest =>
      simp only [Option.some.injEq, Prod.mk.injEq] at found
      obtain ⟨rfl, rfl⟩ := found
      exact ⟨[], rfl, rfl, by decide⟩
  | case2 before c rest notEnd inductionHypothesis =>
      obtain ⟨inner, rfl, rfl, first⟩ := inductionHypothesis found
      refine ⟨c :: inner, by simp, rfl, ?_⟩
      rw [List.cons_append, ends_infix_cons_iff]
      rintro (⟨isStar, slash⟩ | later)
      · cases inner with
        | nil =>
            simp at slash
        | cons next others =>
            obtain ⟨rfl, _⟩ := List.cons_prefix_cons.mp slash
            exact notEnd _ isStar rfl
      · exact first later
  | case3 => cases found

/-- A text that is not split never ends a comment. -/
theorem not_infix_of_splitComment?_eq_none
    {before source : List Char}
    (missing : Segment.splitComment? before source = none) :
    ¬['*', '/'] <:+: source := by
  fun_induction Segment.splitComment? before source with
  | case1 => cases missing
  | case2 before c rest notEnd inductionHypothesis =>
      rw [ends_infix_cons_iff]
      rintro (⟨isStar, others, rfl⟩ | later)
      · exact notEnd others isStar rfl
      · exact inductionHypothesis missing later
  | case3 => decide

/-- A comment is split behind its first `*/`. -/
theorem splitComment?_append_ends
    {inner : List Char}
    (first : ¬['*', '/'] <:+: inner ++ ['*'])
    (before after : List Char) :
    Segment.splitComment? before (inner ++ '*' :: '/' :: after) =
      some (before.reverse ++ (inner ++ ['*', '/']), after) := by
  induction inner generalizing before with
  | nil =>
      rfl
  | cons c inner inductionHypothesis =>
      rw [List.cons_append, ends_infix_cons_iff, not_or] at first
      have goesOn :
          Segment.splitComment? before (c :: (inner ++ '*' :: '/' :: after)) =
            Segment.splitComment? (c :: before) (inner ++ '*' :: '/' :: after) := by
        rw [Segment.splitComment?]
        intro others isStar begins
        refine first.1 ⟨isStar, ?_⟩
        cases inner with
        | nil => simp at begins
        | cons next inner =>
            cases begins
            exact List.prefix_append ['/'] _
      rw [List.cons_append, goesOn, inductionHypothesis first.2]
      simp

/-- A text that never ends a comment is not split. -/
theorem splitComment?_eq_none
    {text : List Char}
    (never : ¬['*', '/'] <:+: text)
    (before : List Char) :
    Segment.splitComment? before text = none := by
  cases split : Segment.splitComment? before text with
  | none =>
      rfl
  | some parts =>
      obtain ⟨inner, _, rfl, _⟩ := exists_of_splitComment?_eq_some split
      exact absurd ⟨inner, parts.2, by simp⟩ never

/-- A quoted text is a token that carries what stands between its quotes. -/
theorem ofLiteral_string
    (body : List Char) :
    Segment.ofLiteral .string ('"' :: (body ++ ['"'])) =
      { text := '"' :: (body ++ ['"'])
        role := .token .string (.string (String.ofList body)) } := by
  simp [Segment.ofLiteral, Segment.roleOf, Literal.ofLexeme, Literal.ofQuoted]

/-- A written number has the role of the double that its magnitude rounds to. -/
theorem ofLiteral_number
    {text : List Char}
    {decimal : Decimal}
    (numeric : Literal.isNumeric text = true)
    (denotes : Decimal.ofText? text = some decimal) :
    Segment.ofLiteral .number text = { text, role := numberRole text decimal.toFloat? } := by
  have valued :
      Literal.ofLexeme .number (String.ofList text) =
        Literal.ofRounded (String.ofList text) decimal.toFloat? := by
    rw [Literal.ofLexeme, Literal.ofNumeric, String.toList_ofList, if_pos numeric, denotes]
  have role :
      ∀ rounded,
        Segment.roleOf .number (Literal.ofRounded (String.ofList text) rounded) =
          numberRole text rounded := by
    intro rounded
    cases rounded <;> rfl
  rw [Segment.ofLiteral, valued, role]

/-- A digit is not a point. -/
theorem ne_point_of_isDigit
    {c : Char}
    (digit : isDigit c = true) :
    c ≠ '.' := by
  rintro rfl
  exact absurd digit (by decide)

/-- Digits hold no point. -/
theorem IsDigits.ne_point
    {digits : List Char}
    (whole : IsDigits digits) :
    ∀ c ∈ digits, (c != '.') = true := by
  intro c isDigit
  simpa using ne_point_of_isDigit (whole.2 c isDigit)

/-- Digits and points between two digits are a number. -/
theorem isNumeric_of_ends
    {text : List Char}
    {first last : Char}
    (all : ∀ c ∈ text, (isDigit c || c == '.') = true)
    (isFirst : text.head? = some first)
    (isLast : text.getLast? = some last)
    (firstDigit : isDigit first = true)
    (lastDigit : isDigit last = true) :
    Literal.isNumeric text = true := by
  have firstNot := ne_point_of_isDigit firstDigit
  have lastNot := ne_point_of_isDigit lastDigit
  simp only [Literal.isNumeric, isFirst, isLast, Bool.and_eq_true, List.all_eq_true]
  exact ⟨⟨all, by simpa using firstNot⟩, by simpa using lastNot⟩

/-- A run of digits begins and ends with one. -/
theorem IsDigits.exists_ends
    {digits : List Char}
    (whole : IsDigits digits) :
    ∃ first last,
      digits.head? = some first ∧ digits.getLast? = some last ∧
        isDigit first = true ∧ isDigit last = true := by
  obtain ⟨notNil, all⟩ := whole
  refine ⟨digits.head notNil, digits.getLast notNil, List.head?_eq_some_head notNil,
    List.getLast?_eq_some_getLast notNil, ?_, ?_⟩
  · exact all _ (List.head_mem notNil)
  · exact all _ (List.getLast_mem notNil)

/-- A run of digits is a number without a fraction. -/
theorem ofLiteral_digits
    {digits : List Char}
    (whole : IsDigits digits) :
    Segment.ofLiteral .number digits =
      { text := digits, role := numberRole digits (Decimal.ofParts digits []).toFloat? } := by
  obtain ⟨first, last, isFirst, isLast, firstDigit, lastDigit⟩ := whole.exists_ends
  have nothing : StopsAt (· != '.') [] := by
    simp [StopsAt]
  have split := takeWhile_append_of_stopsAt whole.ne_point nothing
  have digitsOnly : digits.all isDigit = true := List.all_eq_true.mpr whole.2
  rw [List.append_nil] at split
  refine ofLiteral_number (isNumeric_of_ends ?_ isFirst isLast firstDigit lastDigit) ?_
  · intro c isMember
    simp [whole.2 c isMember]
  · simp [Decimal.ofText?, split.1, split.2, digitsOnly, whole.1]

/-- Two runs of digits with a point between them are a number with a fraction. -/
theorem ofLiteral_fraction
    {digits fraction : List Char}
    (whole : IsDigits digits)
    (part : IsDigits fraction) :
    Segment.ofLiteral .number (digits ++ '.' :: fraction) =
      { text := digits ++ '.' :: fraction
        role :=
          numberRole (digits ++ '.' :: fraction) (Decimal.ofParts digits fraction).toFloat? } := by
  obtain ⟨first, _, isFirst, _, firstDigit, _⟩ := whole.exists_ends
  obtain ⟨_, last, _, isLast, _, lastDigit⟩ := part.exists_ends
  have atPoint : StopsAt (· != '.') ('.' :: fraction) := by
    simp [StopsAt]
  have split := takeWhile_append_of_stopsAt whole.ne_point atPoint
  have digitsOnly : (digits ++ fraction).all isDigit = true := by
    simp only [List.all_append, Bool.and_eq_true, List.all_eq_true]
    exact ⟨whole.2, part.2⟩
  have begins : (digits ++ '.' :: fraction).head? = some first := by
    simp [isFirst]
  have ends : (digits ++ '.' :: fraction).getLast? = some last := by
    simp [List.getLast?_cons, isLast]
  refine ofLiteral_number (isNumeric_of_ends ?_ begins ends firstDigit lastDigit) ?_
  · intro c isMember
    simp only [List.mem_append, List.mem_cons] at isMember
    rcases isMember with inWhole | rfl | inFraction
    · simp [whole.2 c inWhole]
    · simp
    · simp [part.2 c inFraction]
  · simp [Decimal.ofText?, split.1, split.2, digitsOnly, whole.1]

/-- A reserved word is found by its spelling. -/
theorem ofName_spelling
    (word : Keyword) :
    Segment.ofName word.spelling.toList =
      { text := word.spelling.toList, role := .token (.keyword word) .nil } := by
  cases word <;> rfl

/-- A text that is the spelling of no reserved word is an identifier. -/
theorem ofName_identifier
    {text : List Char}
    (notReserved : ∀ word : Keyword, word.spelling.toList ≠ text) :
    Segment.ofName text = { text, role := .token .identifier .nil } := by
  have unknown : Keyword.ofSpelling? (String.ofList text) = none := by
    simp only [Keyword.ofSpelling?, List.find?_eq_none, beq_iff_eq]
    intro word _ same
    exact notReserved word (by rw [same, String.toList_ofList])
  simp [Segment.ofName, unknown]

/-- A single mark is cut where no equals sign follows. -/
theorem cutMark_of_stopsAt
    {rest : List Char}
    (longest : StopsAt ['='].contains rest)
    (single double : Mark) :
    Segment.cutMark single double rest = (Segment.ofMark single, rest) := by
  unfold Segment.cutMark
  split
  · exact absurd (longest '=' rfl) (by decide)
  · rfl

/-- A slash is cut where it begins no comment. -/
theorem cutSlash_of_stopsAt
    {rest : List Char}
    (longest : StopsAt ['/', '*'].contains rest) :
    Segment.cutSlash rest = (Segment.ofMark .slash, rest) := by
  unfold Segment.cutSlash
  split
  · exact absurd (longest '/' rfl) (by decide)
  · exact absurd (longest '*' rfl) (by decide)
  · rfl

/-- A mark is cut where nothing goes on with it. -/
theorem exists_cut_mark
    {sign : Mark}
    {rest : List Char}
    (longest : StopsAt (continuations sign).contains rest) :
    ∃ c others,
      sign.spelling.toList ++ rest = c :: others ∧
        Segment.cut c others = (Segment.ofMark sign, rest) := by
  cases sign with
  | bang => exact ⟨'!', rest, rfl, cutMark_of_stopsAt longest _ _⟩
  | equal => exact ⟨'=', rest, rfl, cutMark_of_stopsAt longest _ _⟩
  | less => exact ⟨'<', rest, rfl, cutMark_of_stopsAt longest _ _⟩
  | greater => exact ⟨'>', rest, rfl, cutMark_of_stopsAt longest _ _⟩
  | slash => exact ⟨'/', rest, rfl, cutSlash_of_stopsAt longest⟩
  | _ => exact ⟨_, _, rfl, rfl⟩

/-- Digits are cut as a number where neither a digit nor a fraction follows. -/
theorem exists_cut_wholeNumber
    {digits rest : List Char}
    (whole : IsDigits digits)
    (longest : StopsAt isDigit rest)
    (noFraction : ∀ others, rest = '.' :: others → StopsAt isDigit others) :
    ∃ c others,
      digits ++ rest = c :: others ∧
        Segment.cut c others =
          ({ text := digits, role := numberRole digits (Decimal.ofParts digits []).toFloat? },
            rest) := by
  rw [← ofLiteral_digits whole]
  obtain ⟨notNil, all⟩ := whole
  cases digits with
  | nil =>
      exact absurd rfl notNil
  | cons digit digits =>
      rw [List.forall_mem_cons] at all
      obtain ⟨taken, left⟩ := takeWhile_append_of_stopsAt all.2 longest
      refine ⟨digit, digits ++ rest, rfl, ?_⟩
      rw [cut_of_isDigit all.1, Segment.cutNumber, taken, left]
      split
      · rename_i next after
        have stops : isDigit next = false := noFraction (next :: after) rfl next rfl
        rw [if_neg (by simp [stops])]
      · rfl

/-- Two runs of digits with a point between them are cut as a number where no digit follows. -/
theorem exists_cut_fractionalNumber
    {digits fraction rest : List Char}
    (whole : IsDigits digits)
    (part : IsDigits fraction)
    (longest : StopsAt isDigit rest) :
    ∃ c others,
      (digits ++ '.' :: fraction) ++ rest = c :: others ∧
        Segment.cut c others =
          ({ text := digits ++ '.' :: fraction
             role :=
               numberRole (digits ++ '.' :: fraction)
                 (Decimal.ofParts digits fraction).toFloat? }, rest) := by
  rw [← ofLiteral_fraction whole part]
  obtain ⟨wholeNotNil, wholeAll⟩ := whole
  obtain ⟨partNotNil, partAll⟩ := part
  cases digits with
  | nil =>
      exact absurd rfl wholeNotNil
  | cons digit digits =>
      cases fraction with
      | nil =>
          exact absurd rfl partNotNil
      | cons next fraction =>
          rw [List.forall_mem_cons] at wholeAll partAll
          have atPoint : StopsAt isDigit ('.' :: next :: (fraction ++ rest)) := by
            simp [StopsAt, isDigit]
          obtain ⟨taken, left⟩ := takeWhile_append_of_stopsAt wholeAll.2 atPoint
          obtain ⟨partTaken, partLeft⟩ := takeWhile_append_of_stopsAt partAll.2 longest
          refine ⟨digit, digits ++ '.' :: next :: (fraction ++ rest), by simp, ?_⟩
          rw [cut_of_isDigit wholeAll.1, Segment.cutNumber, taken, left]
          simp [partAll.1, partTaken, partLeft]

/-- A reserved word is spelled like a name. -/
theorem exists_spelling
    (word : Keyword) :
    ∃ c others,
      word.spelling.toList = c :: others ∧ isNameStart c = true ∧
        ∀ d ∈ others, isNamePart d = true := by
  cases word <;> exact ⟨_, _, rfl, by decide, List.all_eq_true.mp (by decide)⟩

/-- A character that begins nothing is cut as a fault. -/
theorem cut_unexpected
    {c : Char}
    (notBlank : c ∉ [' ', '\r', '\t', '\n'])
    (notMark : ∀ sign : Mark, sign.spelling.toList.head? ≠ some c)
    (notQuote : c ≠ '"')
    (notDigit : isDigit c = false)
    (notName : isNameStart c = false)
    (rest : List Char) :
    Segment.cut c rest = ({ text := [c], role := .fault .unexpectedCharacter }, rest) := by
  have blankless : isBlank c = false := Bool.eq_false_iff.mpr fun blank =>
    notBlank (isBlank_iff.mp blank)
  have notListed : ∀ sign ∈ Mark.all, sign.spelling.toList.head? ≠ some c :=
    fun sign _ => notMark sign
  unfold Segment.cut
  split
  case h_18 => exact absurd rfl notQuote
  case h_19 => simp [blankless, notDigit, notName]
  all_goals exact absurd notListed (by decide)

/-- The segment that the grammar allows at the front of a source is cut. -/
theorem FirstSegment.exists_cut
    {segment : Segment}
    {rest : List Char}
    (first : FirstSegment segment rest) :
    ∃ c others, segment.text ++ rest = c :: others ∧ Segment.cut c others = (segment, rest) := by
  cases first with
  | @blank c _ listed =>
      simp only [List.mem_cons, List.not_mem_nil, or_false] at listed
      rcases listed with rfl | rfl | rfl | rfl <;> exact ⟨_, rest, rfl, rfl⟩
  | @lineComment body _ inLine ends =>
      have stops : StopsAt (· != '\n') rest := by
        rcases ends with rfl | ⟨others, rfl⟩ <;> simp [StopsAt]
      obtain ⟨taken, left⟩ := takeWhile_append_of_stopsAt (bne_of_not_mem inLine) stops
      refine ⟨'/', '/' :: (body ++ rest), rfl, ?_⟩
      simp only [Segment.cut, Segment.cutSlash, taken, left]
  | @blockComment body _ firstEnd =>
      refine ⟨'/', '*' :: (body ++ '*' :: '/' :: rest), by simp, ?_⟩
      simp [Segment.cut, Segment.cutSlash, splitComment?_append_ends firstEnd]
  | @unterminatedComment body never =>
      refine ⟨'/', '*' :: body, by simp, ?_⟩
      simp [Segment.cut, Segment.cutSlash, splitComment?_eq_none never]
  | mark longest =>
      exact exists_cut_mark longest
  | @string body _ firstQuote =>
      have stops : StopsAt (· != '"') ('"' :: rest) := by
        simp [StopsAt]
      obtain ⟨taken, left⟩ := takeWhile_append_of_stopsAt (bne_of_not_mem firstQuote) stops
      refine ⟨'"', body ++ '"' :: rest, by simp, ?_⟩
      simp [Segment.cut, Segment.cutString, taken, left, ofLiteral_string]
  | @unterminatedString body never =>
      have stops : StopsAt (· != '"') [] := by
        simp [StopsAt]
      obtain ⟨taken, left⟩ := takeWhile_append_of_stopsAt (bne_of_not_mem never) stops
      rw [List.append_nil] at taken left
      refine ⟨'"', body, by simp, ?_⟩
      simp [Segment.cut, Segment.cutString, taken, left]
  | wholeNumber whole longest noFraction =>
      exact exists_cut_wholeNumber whole longest noFraction
  | fractionalNumber whole part longest =>
      exact exists_cut_fractionalNumber whole part longest
  | @reservedWord word _ longest =>
      obtain ⟨c, others, spelled, starts, goesOn⟩ := exists_spelling word
      obtain ⟨taken, left⟩ := takeWhile_append_of_stopsAt goesOn longest
      refine ⟨c, others ++ rest, by rw [spelled]; rfl, ?_⟩
      rw [cut_of_isNameStart starts, Segment.cutName, taken, left, ← spelled, ofName_spelling]
  | @identifier c others _ starts goesOn notReserved longest =>
      obtain ⟨taken, left⟩ := takeWhile_append_of_stopsAt goesOn longest
      refine ⟨c, others ++ rest, rfl, ?_⟩
      rw [cut_of_isNameStart starts, Segment.cutName, taken, left, ofName_identifier notReserved]
  | unexpected notBlank notMark notQuote notDigit notName =>
      exact ⟨_, rest, rfl, cut_unexpected notBlank notMark notQuote notDigit notName rest⟩

/-- A mark with nothing to go on with it may stand anywhere. -/
theorem firstSegment_ofMark
    {sign : Mark}
    (complete : continuations sign = [])
    (rest : List Char) :
    FirstSegment (Segment.ofMark sign) rest := by
  refine .mark ?_
  intro c _
  rw [complete]
  rfl

/-- The longer of two marks is cut. -/
theorem firstSegment_cutMark
    {single double : Mark}
    (goesOn : continuations single = ['='])
    (complete : continuations double = [])
    (rest : List Char) :
    FirstSegment (Segment.cutMark single double rest).1
      (Segment.cutMark single double rest).2 := by
  unfold Segment.cutMark
  split
  · exact firstSegment_ofMark complete _
  · rename_i notEqual
    refine .mark ?_
    intro c isFirst
    rw [goesOn]
    refine Bool.eq_false_iff.mpr fun isEqual => ?_
    cases rest with
    | nil => cases isFirst
    | cons next others =>
        cases isFirst
        exact notEqual others (by simpa using isEqual)

/-- What a slash begins is cut as the grammar says. -/
theorem firstSegment_cutSlash
    (rest : List Char) :
    FirstSegment (Segment.cutSlash rest).1 (Segment.cutSlash rest).2 := by
  unfold Segment.cutSlash
  split
  · rename_i others
    refine .lineComment ?_ ?_
    · intro isMember
      exact absurd (property_of_mem_takeWhile _ isMember) (by decide)
    · cases left : others.dropWhile (· != '\n') with
      | nil => exact .inl rfl
      | cons c after =>
          have stops := stopsAt_dropWhile (· != '\n') others c (by rw [left]; rfl)
          have isFeed : c = '\n' := by simpa using stops
          exact .inr ⟨after, by rw [isFeed]⟩
  · split
    · rename_i body after found
      obtain ⟨inner, rfl, _, first⟩ := exists_of_splitComment?_eq_some found
      exact .blockComment first
    · rename_i missing
      exact .unterminatedComment (not_infix_of_splitComment?_eq_none missing)
  · rename_i notLine notBlock
    refine .mark ?_
    intro c isFirst
    refine Bool.eq_false_iff.mpr fun isNext => ?_
    cases rest with
    | nil => cases isFirst
    | cons next others =>
        cases isFirst
        simp only [continuations, List.contains_eq_mem, List.mem_cons, List.not_mem_nil, or_false,
          decide_eq_true_eq] at isNext
        rcases isNext with rfl | rfl
        · exact notLine others rfl
        · exact notBlock others rfl

/-- What a quote begins is cut as the grammar says. -/
theorem firstSegment_cutString
    (rest : List Char) :
    FirstSegment (Segment.cutString rest).1 (Segment.cutString rest).2 := by
  have absent : '"' ∉ rest.takeWhile (· != '"') := by
    intro isMember
    exact absurd (property_of_mem_takeWhile _ isMember) (by decide)
  cases left : rest.dropWhile (· != '"') with
  | nil =>
      simp only [Segment.cutString, left]
      exact .unterminatedString absent
  | cons c after =>
      have stops := stopsAt_dropWhile (· != '"') rest c (by rw [left]; rfl)
      have isQuote : c = '"' := by simpa using stops
      simp only [Segment.cutString, left, isQuote, List.cons_append]
      rw [ofLiteral_string]
      exact .string absent

/-- What a digit begins is cut as the grammar says. -/
theorem firstSegment_cutNumber
    {digit : Char}
    (isFirst : isDigit digit = true)
    (rest : List Char) :
    FirstSegment (Segment.cutNumber digit rest).1 (Segment.cutNumber digit rest).2 := by
  have whole : IsDigits (digit :: rest.takeWhile isDigit) :=
    ⟨by simp, List.forall_mem_cons.mpr ⟨isFirst, property_of_mem_takeWhile⟩⟩
  have stops := stopsAt_dropWhile isDigit rest
  unfold Segment.cutNumber
  dsimp only
  split
  · rename_i next after left
    rw [left] at stops
    by_cases isNext : isDigit next = true
    · have part : IsDigits (next :: after.takeWhile isDigit) :=
        ⟨by simp, List.forall_mem_cons.mpr ⟨isNext, property_of_mem_takeWhile⟩⟩
      rw [if_pos isNext, ofLiteral_fraction whole part]
      exact .fractionalNumber whole part (stopsAt_dropWhile isDigit after)
    · rw [if_neg isNext, ofLiteral_digits whole]
      refine .wholeNumber whole stops ?_
      rintro others ⟨⟩ c ⟨⟩
      exact Bool.eq_false_iff.mpr isNext
  · rename_i noFraction
    rw [ofLiteral_digits whole]
    refine .wholeNumber whole stops ?_
    intro others isPoint c isNext
    cases others with
    | nil => cases isNext
    | cons next after => exact absurd isPoint (noFraction next after)

/-- What a letter or an underscore begins is cut as the grammar says. -/
theorem firstSegment_cutName
    {first : Char}
    (starts : isNameStart first = true)
    (rest : List Char) :
    FirstSegment (Segment.cutName first rest).1 (Segment.cutName first rest).2 := by
  have stops := stopsAt_dropWhile isNamePart rest
  by_cases reserved :
      ∃ word : Keyword, word.spelling.toList = first :: rest.takeWhile isNamePart
  · obtain ⟨word, spelled⟩ := reserved
    rw [Segment.cutName, ← spelled, ofName_spelling]
    exact .reservedWord stops
  · have notReserved := not_exists.mp reserved
    rw [Segment.cutName, ofName_identifier notReserved]
    exact .identifier starts property_of_mem_takeWhile notReserved stops

/-- What is cut off a source may stand at its front. -/
theorem firstSegment_cut
    (c : Char)
    (rest : List Char) :
    FirstSegment (Segment.cut c rest).1 (Segment.cut c rest).2 := by
  unfold Segment.cut
  split
  case h_13 => exact firstSegment_cutMark rfl rfl rest
  case h_14 => exact firstSegment_cutMark rfl rfl rest
  case h_15 => exact firstSegment_cutMark rfl rfl rest
  case h_16 => exact firstSegment_cutMark rfl rfl rest
  case h_17 => exact firstSegment_cutSlash rest
  case h_18 => exact firstSegment_cutString rest
  case h_19 =>
    by_cases blank : isBlank c = true
    · rw [if_pos blank]
      exact .blank (isBlank_iff.mp blank)
    · by_cases digit : isDigit c = true
      · rw [if_neg blank, if_pos digit]
        exact firstSegment_cutNumber digit rest
      · by_cases starts : isNameStart c = true
        · rw [if_neg blank, if_neg digit, if_pos starts]
          exact firstSegment_cutName starts rest
        · rw [if_neg blank, if_neg digit, if_neg starts]
          refine .unexpected (fun listed => blank (isBlank_iff.mpr listed)) ?_ ?_
            (Bool.eq_false_iff.mpr digit) (Bool.eq_false_iff.mpr starts)
          · intro sign begins
            have isFirst := begins.symm
            cases sign <;> simp_all [Mark.spelling]
          · intro isQuote
            contradiction
  all_goals exact firstSegment_ofMark rfl rest

/-- A source has at most one partition. -/
theorem Partition.unique
    {source : List Char}
    {segments others : List Segment}
    (partition : Partition source segments)
    (another : Partition source others) :
    others = segments := by
  induction partition generalizing others with
  | nil =>
      generalize isEmpty : ([] : List Char) = source at another
      cases another with
      | nil => rfl
      | cons first _ =>
          obtain ⟨c, text, same, _⟩ := first.exists_cut
          rw [same] at isEmpty
          cases isEmpty
  | @cons segment segments rest first _ inductionHypothesis =>
      obtain ⟨c, text, same, cut⟩ := first.exists_cut
      generalize isSource : segment.text ++ rest = source at another
      cases another with
      | nil =>
          rw [same] at isSource
          cases isSource
      | cons otherFirst otherRest =>
          obtain ⟨otherC, otherText, otherSame, otherCut⟩ := otherFirst.exists_cut
          rw [same, otherSame] at isSource
          cases isSource
          rw [cut] at otherCut
          cases otherCut
          rw [inductionHypothesis otherRest]

/-- Cutting a source to its end places the segments of its partition behind those found before. -/
theorem exists_partition_segmentsFrom
    (line : Nat)
    (found : List PlacedSegment)
    (source : List Char) :
    ∃ segments,
      Partition source segments ∧
        Source.segmentsFrom line found source = found.reverse ++ placedFrom line segments := by
  fun_induction Source.segmentsFrom line found source with
  | case1 line found =>
      exact ⟨[], .nil, by simp [placedFrom]⟩
  | case2 line found first rest cut ending inductionHypothesis =>
      obtain ⟨segments, partition, placed⟩ := inductionHypothesis
      refine ⟨cut.1 :: segments, ?_, ?_⟩
      · rw [← Segment.cut_text first rest]
        exact .cons (firstSegment_cut first rest) partition
      · rw [placed]
        simp [placedFrom, ending]

/-- The segments of a source are those of its partition, each on the line on which it ends. -/
theorem Partition.segments_eq
    {source : List Char}
    {segments : List Segment}
    (partition : Partition source segments) :
    Source.segments source = placedFrom 1 segments := by
  obtain ⟨others, another, placed⟩ := exists_partition_segmentsFrom 1 [] source
  rw [partition.unique another] at placed
  exact placed

/-- The tokens and the errors of placed segments are those that the segments give. -/
theorem gives_placedFrom
    (line : Nat)
    (segments : List Segment) :
    let lastLine := line + Source.lineFeeds (segments.flatMap Segment.text)
    Gives line segments
      ((placedFrom line segments).filterMap PlacedSegment.token? ++
        [{ kind := .endOfInput, lexeme := "", literal := .nil, line := lastLine }])
      ((placedFrom line segments).filterMap PlacedSegment.error?) := by
  induction segments generalizing line with
  | nil => exact .finished
  | cons segment segments inductionHypothesis =>
      have others := inductionHypothesis (line + Source.lineFeeds segment.text)
      have lastLine :
          line + Source.lineFeeds segment.text +
              Source.lineFeeds (segments.flatMap Segment.text) =
            line + Source.lineFeeds ((segment :: segments).flatMap Segment.text) := by
        simp [Source.lineFeeds, Nat.add_assoc]
      rw [lastLine] at others
      simp only [placedFrom, List.filterMap_cons, PlacedSegment.token?, PlacedSegment.error?]
      cases role : segment.role with
      | blank => exact .skipped (.inl role) others
      | comment => exact .skipped (.inr role) others
      | token kind literal => exact .token role others
      | fault fault => exact .fault role others

/--
Every source has exactly one partition into the segments of the lexical grammar.
The tokens and the lexical errors of the source are those that these segments give
from the first line on: each token segment gives one token with its text as lexeme
and each faulty segment one error, in order, and the end of the input is the last
token.
-/
theorem ofSource_eq_of_partition
    (source : List Char) :
    ∃ segments,
      Partition source segments ∧
        (∀ others, Partition source others → others = segments) ∧
          segments.flatMap Segment.text = source ∧
            Gives 1 segments (Lexing.ofSource source).tokens (Lexing.ofSource source).errors := by
  obtain ⟨segments, partition, _⟩ := exists_partition_segmentsFrom 1 [] source
  refine ⟨segments, partition, fun others another => partition.unique another,
    partition.flatMap_text, ?_⟩
  have given := gives_placedFrom 1 segments
  rw [partition.flatMap_text] at given
  rw [Lexing.ofSource, partition.segments_eq]
  exact given

end BlockScript.Lexical
