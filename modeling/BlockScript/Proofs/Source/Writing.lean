import Mathlib.Data.List.Forall2
import BlockScript.Proofs.Source.Joining

namespace BlockScript

open Source

/-!
# Writing tokens out

Tokens are written out by their lexemes with a blank behind each of them, or at
least behind all but the last; further blanks and comments may follow a blank or
stand in front.  Reading such a text gives back exactly what was written.  Every
token of any source has a lexeme that can be written so, and therefore a source
can be written anew with single spaces.
-/

namespace Lexical

/-- A text is the lexeme of tokens of a kind. -/
inductive IsLexeme : Kind → List Char → Prop where
  | mark
      (sign : Mark) :
      IsLexeme (.mark sign) sign.spelling.toList
  | reservedWord
      (word : Keyword) :
      IsLexeme (.keyword word) word.spelling.toList
  | identifier
      {first : Char}
      {others : List Char}
      (starts : isNameStart first = true)
      (goesOn : ∀ c ∈ others, isNamePart c = true)
      (notReserved : ∀ word : Keyword, word.spelling.toList ≠ first :: others) :
      IsLexeme .identifier (first :: others)
  | string
      {body : List Char}
      (noQuote : '"' ∉ body) :
      IsLexeme .string ('"' :: (body ++ ['"']))
  | wholeNumber
      {digits : List Char}
      (whole : IsDigits digits)
      (inRange : (Decimal.ofParts digits []).toFloat? ≠ none) :
      IsLexeme .number digits
  | fractionalNumber
      {digits fraction : List Char}
      (whole : IsDigits digits)
      (part : IsDigits fraction)
      (inRange : (Decimal.ofParts digits fraction).toFloat? ≠ none) :
      IsLexeme .number (digits ++ '.' :: fraction)

/-- A lexeme with its kind. -/
structure Lexeme where
  kind : Kind
  text : List Char
  isLexeme : IsLexeme kind text

/-- Any mix of blanks, closed block comments and comments up to the end of their line. -/
inductive IsFiller : List Char → Prop where
  | nil :
      IsFiller []
  | blank
      {c : Char}
      {rest : List Char}
      (listed : c ∈ [' ', '\r', '\t', '\n'])
      (others : IsFiller rest) :
      IsFiller (c :: rest)
  | blockComment
      {body rest : List Char}
      (closedOnce : ¬['*', '/'] <:+: body ++ ['*'])
      (others : IsFiller rest) :
      IsFiller ('/' :: '*' :: (body ++ ['*', '/']) ++ rest)
  | lineComment
      {body rest : List Char}
      (inLine : '\n' ∉ body)
      (others : IsFiller rest) :
      IsFiller ('/' :: '/' :: body ++ '\n' :: rest)

/-- A mix of blanks and comments. -/
structure Filler where
  text : List Char
  isFiller : IsFiller text

/-- What stands between two lexemes: a blank, and then any mix of blanks and comments. -/
structure Separator where
  blank : Char
  filler : Filler
  listed : blank ∈ [' ', '\r', '\t', '\n']

/-- The text of a separator. -/
def Separator.text
    (separator : Separator) :
    List Char :=
  separator.blank :: separator.filler.text

/-- Lexemes written out with separators behind them; the last one may stand at the end. -/
structure Writing where
  front : Filler
  separated : List (Lexeme × Separator)
  last : Option Lexeme

namespace Writing

/-- The lexemes that are written, in order. -/
def lexemes
    (writing : Writing) :
    List Lexeme :=
  writing.separated.map Prod.fst ++ writing.last.toList

/-- The text that is written. -/
def text
    (writing : Writing) :
    List Char :=
  writing.front.text ++
    (writing.separated.flatMap (fun piece => piece.1.text ++ piece.2.text) ++
      writing.last.toList.flatMap Lexeme.text)

end Writing

/-- A token has the kind and the text of a lexeme, and the value that both determine. -/
structure Spells
    (token : Token)
    (lexeme : Lexeme) :
    Prop where
  sameKind : token.kind = lexeme.kind
  sameText : token.lexeme = String.ofList lexeme.text
  valued : Literal.ofLexeme lexeme.kind (String.ofList lexeme.text) = .ok token.literal

/-! ## Lexemes as segments -/

/-- A text ends, or goes on with a blank. -/
def BlankFollows
    (rest : List Char) :
    Prop :=
  ∀ c ∈ rest.head?, c ∈ [' ', '\r', '\t', '\n']

/-- Nothing goes on at the end. -/
theorem blankFollows_nil :
    BlankFollows [] := by
  intro c isFirst
  cases isFirst

/-- A blank stops a text that no blank goes on with. -/
theorem BlankFollows.stopsAt
    {property : Char → Bool}
    {rest : List Char}
    (follows : BlankFollows rest)
    (noBlank : [' ', '\r', '\t', '\n'].all (fun c => !property c) = true) :
    StopsAt property rest := by
  intro c isFirst
  have lacks := List.all_eq_true.mp noBlank c (follows c isFirst)
  simpa using lacks

/-- A text has the role of a token exactly when it has the value of that token. -/
theorem roleOf_eq_token_iff
    {kind : Kind}
    {valued : Except LiteralFault Value}
    {literal : Value} :
    Segment.roleOf kind valued = .token kind literal ↔ valued = .ok literal := by
  cases valued <;> simp [Segment.roleOf]

/-- A number in range is a token, and carries the value that its text determines. -/
theorem exists_literal_of_inRange
    {text : List Char}
    {rounded : Option Float}
    (segment :
      Segment.ofLiteral .number text = { text, role := numberRole text rounded })
    (inRange : rounded ≠ none) :
    ∃ literal,
      Literal.ofLexeme .number (String.ofList text) = .ok literal ∧
        numberRole text rounded = .token .number literal := by
  obtain ⟨number, rfl⟩ := Option.ne_none_iff_exists'.mp inRange
  refine ⟨.number number, ?_, rfl⟩
  exact roleOf_eq_token_iff.mp (congrArg Segment.role segment)

/-- A lexeme before a blank or the end is a segment, with the value that it determines. -/
theorem IsLexeme.exists_firstSegment
    {kind : Kind}
    {text rest : List Char}
    (isLexeme : IsLexeme kind text)
    (follows : BlankFollows rest) :
    ∃ literal,
      Literal.ofLexeme kind (String.ofList text) = .ok literal ∧
        FirstSegment { text, role := .token kind literal } rest := by
  cases isLexeme with
  | mark sign =>
      exact ⟨.nil, rfl, .mark (follows.stopsAt (by cases sign <;> rfl))⟩
  | reservedWord word =>
      exact ⟨.nil, rfl, .reservedWord (follows.stopsAt rfl)⟩
  | identifier starts goesOn notReserved =>
      exact ⟨.nil, rfl, .identifier starts goesOn notReserved (follows.stopsAt rfl)⟩
  | @string body noQuote =>
      refine ⟨.string (String.ofList body), ?_, .string noQuote⟩
      exact roleOf_eq_token_iff.mp (congrArg Segment.role (ofLiteral_string body))
  | wholeNumber whole inRange =>
      obtain ⟨literal, valued, role⟩ := exists_literal_of_inRange (ofLiteral_digits whole) inRange
      refine ⟨literal, valued, ?_⟩
      rw [← role]
      apply FirstSegment.wholeNumber whole (follows.stopsAt rfl)
      rintro others rfl
      exact absurd (follows '.' rfl) (by decide)
  | fractionalNumber whole part inRange =>
      obtain ⟨literal, valued, role⟩ :=
        exists_literal_of_inRange (ofLiteral_fraction whole part) inRange
      refine ⟨literal, valued, ?_⟩
      rw [← role]
      exact .fractionalNumber whole part (follows.stopsAt rfl)

/-- A segment that is a token has a lexeme as its text, and the value that it determines. -/
theorem FirstSegment.isLexeme
    {segment : Segment}
    {rest : List Char}
    {kind : Kind}
    {literal : Value}
    (first : FirstSegment segment rest)
    (isToken : segment.role = .token kind literal) :
    IsLexeme kind segment.text ∧
      Literal.ofLexeme kind (String.ofList segment.text) = .ok literal := by
  cases first with
  | blank => cases isToken
  | lineComment => cases isToken
  | blockComment => cases isToken
  | unterminatedComment => cases isToken
  | unterminatedString => cases isToken
  | unexpected => cases isToken
  | mark =>
      cases isToken
      exact ⟨.mark _, rfl⟩
  | reservedWord =>
      cases isToken
      exact ⟨.reservedWord _, rfl⟩
  | identifier starts goesOn notReserved =>
      cases isToken
      exact ⟨.identifier starts goesOn notReserved, rfl⟩
  | @string body _ noQuote =>
      cases isToken
      exact ⟨.string noQuote,
        roleOf_eq_token_iff.mp (congrArg Segment.role (ofLiteral_string body))⟩
  | @wholeNumber digits _ whole =>
      have segment := ofLiteral_digits whole
      dsimp only at isToken ⊢
      generalize inRange : (Decimal.ofParts digits []).toFloat? = rounded at isToken segment
      cases rounded with
      | none => cases isToken
      | some number =>
          cases isToken
          exact ⟨.wholeNumber whole (by simp [inRange]),
            roleOf_eq_token_iff.mp (congrArg Segment.role segment)⟩
  | @fractionalNumber digits fraction _ whole part =>
      have segment := ofLiteral_fraction whole part
      dsimp only at isToken ⊢
      generalize inRange : (Decimal.ofParts digits fraction).toFloat? = rounded at isToken segment
      cases rounded with
      | none => cases isToken
      | some number =>
          cases isToken
          exact ⟨.fractionalNumber whole part (by simp [inRange]),
            roleOf_eq_token_iff.mp (congrArg Segment.role segment)⟩

/-- A text is the lexeme of one kind at most. -/
theorem IsLexeme.kind_unique
    {kind other : Kind}
    {text : List Char}
    (isLexeme : IsLexeme kind text)
    (alsoLexeme : IsLexeme other text) :
    other = kind := by
  obtain ⟨literal, _, first⟩ := isLexeme.exists_firstSegment blankFollows_nil
  obtain ⟨otherLiteral, _, otherFirst⟩ := alsoLexeme.exists_firstSegment blankFollows_nil
  have partition : Partition (text ++ []) [_] := .cons first .nil
  have another : Partition (text ++ []) [_] := .cons otherFirst .nil
  cases partition.unique another
  rfl

/-! ## Reading what was written -/

/-- Segments that hold lexemes in order, and else only blanks and comments. -/
inductive Spelling : List Segment → List Lexeme → Prop where
  | nil :
      Spelling [] []
  | filler
      {segment : Segment}
      {segments : List Segment}
      {lexemes : List Lexeme}
      (silent : segment.role = .blank ∨ segment.role = .comment)
      (others : Spelling segments lexemes) :
      Spelling (segment :: segments) lexemes
  | lexeme
      {lexeme : Lexeme}
      {literal : Value}
      {segments : List Segment}
      {lexemes : List Lexeme}
      (valued : Literal.ofLexeme lexeme.kind (String.ofList lexeme.text) = .ok literal)
      (others : Spelling segments lexemes) :
      Spelling ({ text := lexeme.text, role := .token lexeme.kind literal } :: segments)
        (lexeme :: lexemes)

/-- Lexemes, blanks and comments are no faults. -/
theorem Spelling.role_ne_fault
    {segments : List Segment}
    {lexemes : List Lexeme}
    (spelling : Spelling segments lexemes) :
    ∀ segment ∈ segments, ∀ fault, segment.role ≠ .fault fault := by
  induction spelling with
  | nil =>
      simp
  | filler silent _ inductionHypothesis =>
      rw [List.forall_mem_cons]
      refine ⟨fun fault isFault => ?_, inductionHypothesis⟩
      rcases silent with blank | comment
      · rw [blank] at isFault
        cases isFault
      · rw [comment] at isFault
        cases isFault
  | lexeme _ _ inductionHypothesis =>
      rw [List.forall_mem_cons]
      refine ⟨fun fault isFault => ?_, inductionHypothesis⟩
      cases isFault

/-- A segment that is a token comes before the tokens behind it. -/
theorem tokens_placedFrom_cons
    {segment : Segment}
    {kind : Kind}
    {literal : Value}
    (isToken : segment.role = .token kind literal)
    (line : Nat)
    (segments : List Segment) :
    ∃ ending : Int,
      (placedFrom line (segment :: segments)).filterMap PlacedSegment.token? =
        { kind, lexeme := String.ofList segment.text, literal, line := ending } ::
          (placedFrom (line + lineFeeds segment.text) segments).filterMap PlacedSegment.token? := by
  refine ⟨(line + lineFeeds segment.text : Nat), ?_⟩
  rw [placedFrom]
  exact List.filterMap_cons_some (by simp only [PlacedSegment.token?, isToken])

/-- A segment that is no token leaves the tokens behind it. -/
theorem tokens_placedFrom_cons_of_not_token
    {segment : Segment}
    (notToken : ∀ kind literal, segment.role ≠ .token kind literal)
    (line : Nat)
    (segments : List Segment) :
    (placedFrom line (segment :: segments)).filterMap PlacedSegment.token? =
      (placedFrom (line + lineFeeds segment.text) segments).filterMap PlacedSegment.token? := by
  rw [placedFrom]
  apply List.filterMap_cons_none
  cases role : segment.role with
  | token kind literal => exact absurd role (notToken kind literal)
  | _ => simp only [PlacedSegment.token?, role]

/-- The tokens of such segments spell the lexemes, wherever they are placed. -/
theorem Spelling.tokens
    {segments : List Segment}
    {lexemes : List Lexeme}
    (spelling : Spelling segments lexemes)
    (line : Nat) :
    List.Forall₂ Spells ((placedFrom line segments).filterMap PlacedSegment.token?) lexemes := by
  induction spelling generalizing line with
  | nil =>
      exact .nil
  | filler silent _ inductionHypothesis =>
      rw [tokens_placedFrom_cons_of_not_token]
      · exact inductionHypothesis _
      · intro kind literal isToken
        rcases silent with blank | comment
        · rw [blank] at isToken
          cases isToken
        · rw [comment] at isToken
          cases isToken
  | @lexeme lexeme literal segments _ valued _ inductionHypothesis =>
      have isToken :
          Segment.role { text := lexeme.text, role := .token lexeme.kind literal } =
            .token lexeme.kind literal :=
        rfl
      obtain ⟨_, tokens⟩ := tokens_placedFrom_cons isToken line segments
      rw [tokens]
      exact .cons ⟨rfl, rfl, valued⟩ (inductionHypothesis _)

/-- A mix of blanks and comments before a partition adds only blanks and comments to it. -/
theorem IsFiller.exists_partition
    {filler rest : List Char}
    {segments : List Segment}
    {lexemes : List Lexeme}
    (isFiller : IsFiller filler)
    (partition : Partition rest segments)
    (spelling : Spelling segments lexemes) :
    ∃ longer, Partition (filler ++ rest) longer ∧ Spelling longer lexemes := by
  induction isFiller with
  | nil =>
      exact ⟨segments, partition, spelling⟩
  | blank listed _ inductionHypothesis =>
      obtain ⟨longer, behind, spells⟩ := inductionHypothesis
      exact ⟨_, behind.cons (.blank listed), spells.filler (.inl rfl)⟩
  | @blockComment body following closedOnce _ inductionHypothesis =>
      obtain ⟨longer, behind, spells⟩ := inductionHypothesis
      rw [List.append_assoc]
      exact ⟨_, behind.cons (.blockComment closedOnce), spells.filler (.inr rfl)⟩
  | @lineComment body following inLine _ inductionHypothesis =>
      -- The line feed is no part of the comment: it is a blank of its own behind it.
      obtain ⟨longer, behind, spells⟩ := inductionHypothesis
      have feed : FirstSegment lineFeedSegment (following ++ rest) := .blank (by simp)
      have comment :
          FirstSegment { text := '/' :: '/' :: body, role := .comment }
            ('\n' :: (following ++ rest)) :=
        .lineComment inLine (.inr ⟨_, rfl⟩)
      rw [List.append_assoc]
      exact ⟨_, (behind.cons feed).cons comment,
        (spells.filler (.inl rfl)).filler (.inr rfl)⟩

/-- A separator begins with a blank. -/
theorem Separator.blankFollows
    (separator : Separator)
    (rest : List Char) :
    BlankFollows (separator.blank :: rest) := by
  intro c isFirst
  cases isFirst
  exact separator.listed

/-- Lexemes with separators behind them before the last one are cut as they were written. -/
theorem exists_partition_separated
    (separated : List (Lexeme × Separator))
    (last : Option Lexeme) :
    ∃ segments,
      Partition
          (separated.flatMap (fun piece => piece.1.text ++ piece.2.text) ++
            last.toList.flatMap Lexeme.text) segments ∧
        Spelling segments (separated.map Prod.fst ++ last.toList) := by
  induction separated with
  | nil =>
      cases last with
      | none => exact ⟨[], .nil, .nil⟩
      | some lexeme =>
          obtain ⟨literal, valued, first⟩ :=
            lexeme.isLexeme.exists_firstSegment blankFollows_nil
          refine ⟨_, ?_, Spelling.nil.lexeme valued⟩
          simpa using Partition.nil.cons first
  | cons piece separated inductionHypothesis =>
      obtain ⟨segments, partition, spelling⟩ := inductionHypothesis
      obtain ⟨lexeme, separator⟩ := piece
      obtain ⟨filled, behind, spells⟩ :=
        separator.filler.isFiller.exists_partition partition spelling
      have withBlank := behind.cons (.blank separator.listed)
      have spelledBehind :
          Spelling ({ text := [separator.blank], role := .blank } :: filled) _ :=
        spells.filler (.inl rfl)
      obtain ⟨literal, valued, first⟩ :=
        lexeme.isLexeme.exists_firstSegment (separator.blankFollows _)
      refine ⟨_, ?_, spelledBehind.lexeme valued⟩
      simpa [Separator.text] using withBlank.cons first

/-- A text that was written is read without errors, as the lexemes that were written. -/
theorem Writing.reads
    (writing : Writing) :
    (Lexing.ofSource writing.text).errors = [] ∧
      List.Forall₂ Spells (tokensBeforeEnd writing.text) writing.lexemes := by
  obtain ⟨_, partition, spelling⟩ :=
    exists_partition_separated writing.separated writing.last
  obtain ⟨segments, whole, spells⟩ :=
    writing.front.isFiller.exists_partition partition spelling
  have located : Source.segments writing.text = placedFrom 1 segments := whole.segments_eq
  constructor
  · rw [Lexing.ofSource, located]
    exact errors_placedFrom_eq_nil_iff.mpr spells.role_ne_fault
  · rw [tokensBeforeEnd, located]
    exact spells.tokens 1

/-! ## Writing anew what was read -/

/-- The tokens of any partition spell lexemes. -/
theorem Partition.exists_lexemes
    {source : List Char}
    {segments : List Segment}
    (partition : Partition source segments)
    (line : Nat) :
    ∃ lexemes,
      List.Forall₂ Spells ((placedFrom line segments).filterMap PlacedSegment.token?) lexemes := by
  induction partition generalizing line with
  | nil =>
      exact ⟨[], .nil⟩
  | @cons segment segments rest first _ inductionHypothesis =>
      obtain ⟨lexemes, spells⟩ := inductionHypothesis (line + lineFeeds segment.text)
      cases role : segment.role with
      | token kind literal =>
          obtain ⟨isLexeme, valued⟩ := first.isLexeme role
          obtain ⟨_, tokens⟩ := tokens_placedFrom_cons role line segments
          rw [tokens]
          exact ⟨{ kind, text := segment.text, isLexeme } :: lexemes,
            .cons ⟨rfl, rfl, valued⟩ spells⟩
      | _ =>
          rw [tokens_placedFrom_cons_of_not_token (by simp [role])]
          exact ⟨lexemes, spells⟩

/-- A single space. -/
def Separator.space : Separator where
  blank := ' '
  filler := { text := [], isFiller := .nil }
  listed := by decide

/-- Lexemes written out with single spaces between them. -/
def Writing.spaced
    (lexemes : List Lexeme) :
    Writing where
  front := { text := [], isFiller := .nil }
  separated := lexemes.dropLast.map fun lexeme => (lexeme, .space)
  last := lexemes.getLast?

/-- The lexemes written out with single spaces are those given. -/
theorem Writing.lexemes_spaced
    (lexemes : List Lexeme) :
    (Writing.spaced lexemes).lexemes = lexemes := by
  have together : lexemes.dropLast ++ lexemes.getLast?.toList = lexemes := by
    cases lexemes with
    | nil => rfl
    | cons first rest =>
        rw [List.getLast?_eq_some_getLast (List.cons_ne_nil first rest)]
        exact List.dropLast_append_getLast (List.cons_ne_nil first rest)
  simpa [Writing.lexemes, Writing.spaced, Function.comp_def] using together

/-- The text written out with single spaces. -/
theorem Writing.text_spaced
    (lexemes : List Lexeme) :
    (Writing.spaced lexemes).text = [' '].intercalate (lexemes.map Lexeme.text) := by
  induction lexemes with
  | nil =>
      rfl
  | cons first rest inductionHypothesis =>
      cases rest with
      | nil =>
          simp [Writing.text, Writing.spaced]
      | cons next others =>
          rw [List.map_cons, List.intercalate_cons_of_ne_nil (by simp), ← inductionHypothesis]
          simp [Writing.text, Writing.spaced, Separator.text, Separator.space]

/-- What a token is apart from its line. -/
def content
    (token : Token) :
    Kind × String × Value :=
  (token.kind, token.lexeme, token.literal)

/-- Tokens that spell the same lexemes differ at most by their lines. -/
theorem map_content_eq
    {tokens others : List Token}
    {lexemes : List Lexeme}
    (spells : List.Forall₂ Spells tokens lexemes)
    (alsoSpells : List.Forall₂ Spells others lexemes) :
    others.map content = tokens.map content := by
  induction spells generalizing others with
  | nil =>
      cases alsoSpells
      rfl
  | cons first _ inductionHypothesis =>
      cases alsoSpells with
      | cons otherFirst otherRest =>
          have sameLiteral := otherFirst.valued.symm.trans first.valued
          rw [List.map_cons, List.map_cons, inductionHypothesis otherRest]
          simp only [content, first.sameKind, first.sameText, otherFirst.sameKind,
            otherFirst.sameText,
            Except.ok.inj sameLiteral]

/-- Each of the tokens that spell lexemes spells one of them. -/
theorem exists_spells_of_mem
    {tokens : List Token}
    {lexemes : List Lexeme}
    (spells : List.Forall₂ Spells tokens lexemes) :
    ∀ token ∈ tokens, ∃ lexeme, Spells token lexeme := by
  induction spells with
  | nil =>
      simp
  | cons first _ inductionHypothesis =>
      rw [List.forall_mem_cons]
      exact ⟨⟨_, first⟩, inductionHypothesis⟩

/-- Tokens that spell lexemes have the kinds of these. -/
theorem map_kind_eq
    {tokens : List Token}
    {lexemes : List Lexeme}
    (spells : List.Forall₂ Spells tokens lexemes) :
    tokens.map Token.kind = lexemes.map Lexeme.kind := by
  induction spells with
  | nil =>
      rfl
  | cons first _ inductionHypothesis =>
      simp [first.sameKind, inductionHypothesis]

/-- The texts of tokens that spell lexemes are the texts of these. -/
theorem map_lexeme_eq
    {tokens : List Token}
    {lexemes : List Lexeme}
    (spells : List.Forall₂ Spells tokens lexemes) :
    tokens.map (fun token => token.lexeme.toList) = lexemes.map Lexeme.text := by
  induction spells with
  | nil =>
      rfl
  | cons first _ inductionHypothesis =>
      simp [first.sameText, inductionHypothesis]

/--
Reading undoes writing.  A text in which lexemes are written out is read without
errors, as just these lexemes with the kinds and the values that they determine,
and the end.  Every token of any source has such a lexeme, so that writing its
tokens out with single spaces and reading them again changes only their lines.
-/
theorem lexing_undoes_writing :
    (∀ writing : Writing,
      (Lexing.ofSource writing.text).errors = [] ∧
        ∃ tokens,
          (Lexing.ofSource writing.text).tokens = tokens ++ [endToken writing.text] ∧
            List.Forall₂ Spells tokens writing.lexemes) ∧
      (∀ lexeme other : Lexeme, other.text = lexeme.text → other.kind = lexeme.kind) ∧
        ∀ source : List Char,
          (∀ token ∈ (Lexing.ofSource source).tokens,
            token.kind ≠ .endOfInput → ∃ lexeme, Spells token lexeme) ∧
            let anew := [' '].intercalate
              ((tokensBeforeEnd source).map fun token => token.lexeme.toList)
            (Lexing.ofSource anew).errors = [] ∧
              (Lexing.ofSource anew).tokens.map content =
                (Lexing.ofSource source).tokens.map content := by
  refine ⟨fun writing => ⟨writing.reads.1, _, rfl, writing.reads.2⟩, ?_, fun source => ?_⟩
  · rintro ⟨kind, text, isLexeme⟩ ⟨other, _, alsoLexeme⟩ rfl
    exact isLexeme.kind_unique alsoLexeme
  · obtain ⟨segments, partition, _⟩ := exists_partition_segmentsFrom 1 [] source
    obtain ⟨lexemes, spells⟩ := partition.exists_lexemes 1
    rw [← partition.segments_eq] at spells
    constructor
    · intro token isToken notEnd
      rw [tokens_ofSource, List.mem_append, List.mem_singleton] at isToken
      rcases isToken with inner | rfl
      · exact exists_spells_of_mem spells token inner
      · exact absurd rfl notEnd
    · intro anew
      obtain ⟨noErrors, again⟩ := (Writing.spaced lexemes).reads
      have sameText : (Writing.spaced lexemes).text = anew := by
        rw [Writing.text_spaced, ← map_lexeme_eq spells]
        rfl
      rw [Writing.lexemes_spaced, sameText] at again
      rw [sameText] at noErrors
      refine ⟨noErrors, ?_⟩
      rw [tokens_ofSource, tokens_ofSource, List.map_append, List.map_append,
        map_content_eq spells again]
      rfl

/-- A mark as a lexeme. -/
def Lexeme.ofMark
    (sign : Mark) :
    Lexeme where
  kind := .mark sign
  text := sign.spelling.toList
  isLexeme := .mark sign

/-- The number three as a lexeme. -/
def Lexeme.three : Lexeme where
  kind := .number
  text := ['3']
  isLexeme := .wholeNumber (by simp [IsDigits, isDigit]) (by decide +kernel)

/-- A space and an empty block comment. -/
def Separator.spaceComment : Separator where
  blank := ' '
  filler :=
    { text := ['/', '*', '*', '/']
      isFiller := @IsFiller.blockComment [] [] (by decide) .nil }
  listed := by decide

/-- Lexemes that would run together without what stands between them. -/
def runningTogether : Writing where
  front := { text := [], isFiller := .nil }
  separated :=
    [(.ofMark .equal, .space), (.ofMark .equal, .spaceComment), (.ofMark .slash, .spaceComment),
      (.ofMark .star, .space), (.three, .space), (.ofMark .dot, .space)]
  last := some .three

/-- Two equals signs, a slash before a star and a point between digits stay apart. -/
theorem lexing_undoes_writing_runningTogether :
    (Lexing.ofSource "= = /**// /**/* 3 . 3".toList).errors = [] ∧
      (Lexing.ofSource "= = /**// /**/* 3 . 3".toList).tokens.map Token.kind =
        [.mark .equal, .mark .equal, .mark .slash, .mark .star, .number, .mark .dot, .number,
          .endOfInput] := by
  obtain ⟨noErrors, tokens, isAll, spells⟩ := lexing_undoes_writing.1 runningTogether
  have isText : runningTogether.text = "= = /**// /**/* 3 . 3".toList := by decide
  rw [isText] at noErrors isAll
  refine ⟨noErrors, ?_⟩
  rw [isAll, List.map_append, map_kind_eq spells]
  rfl

end Lexical

end BlockScript
