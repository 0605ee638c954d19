import Mathlib.Data.List.InsertIdx
import BlockScript.CommandLine.Painting
import BlockScript.CommandLine.Running
import BlockScript.Proofs.Session.Gate
import BlockScript.Proofs.Source.Writing

namespace BlockScript

open Source

/-!
# The lines of a prompt session

A prompt session runs the lines of its input one after another, and the log is
clear before each of them.  So a line is executed exactly when its own text has
no errors, and a line that has some changes nothing that later lines can see: the
session goes on as if the line were not there.
-/

namespace CommandLine

/-! ## The lines of an input -/

/-- Lines of which the first begins with the given octets. -/
def extendFirst
    (begun : List UInt8) :
    List (List UInt8) → List (List UInt8)
  | [] => [begun]
  | line :: lines => (begun ++ line) :: lines

/-- The lines of octets without their line feeds; what is behind the last of these is a line. -/
def linesOf : List UInt8 → List (List UInt8)
  | [] => []
  | octet :: rest =>
      if octet = 10 then [] :: linesOf rest else extendFirst [octet] (linesOf rest)

/-- A line without a carriage return at its end. -/
def withoutReturn
    (line : List UInt8) :
    List UInt8 :=
  if line.getLast? = some 13 then line.dropLast else line

/-- Octets without the line of the given number, counted from zero, and its line feed. -/
def withoutLine : Nat → List UInt8 → List UInt8
  | _, [] => []
  | 0, octet :: rest => if octet = 10 then rest else withoutLine 0 rest
  | number + 1, octet :: rest =>
      octet :: withoutLine (if octet = 10 then number else number + 1) rest

/-- The input that holds the given octets. -/
def inputOf
    (octets : List UInt8) :
    ByteArray :=
  ⟨octets.toArray⟩

/-- The units that an input stands for, one for each of its lines. -/
def unitsOf
    (input : ByteArray) :
    List (List Char) :=
  (linesOf input.toList).map fun line => unitOf (inputOf (withoutReturn line))

/-- The octets of an array are listed from a place on behind those found. -/
theorem toList_loop_eq
    (input : ByteArray)
    (place : Nat)
    (found : List UInt8) :
    ByteArray.toList.loop input place found =
      found.reverse ++ input.data.toList.drop place := by
  fun_induction ByteArray.toList.loop input place found with
  | case1 place found within inductionHypothesis =>
      have inside : place < input.data.toList.length := within
      have atPlace : input.get! place = input.data.toList[place] :=
        getElem!_pos input.data place within
      rw [inductionHypothesis, List.drop_eq_getElem_cons inside, atPlace]
      simp
  | case2 place found beyond =>
      rw [List.drop_of_length_le (Nat.not_lt.mp beyond), List.append_nil]

/-- An input holds the octets that it is made of. -/
@[simp]
theorem toList_inputOf
    (octets : List UInt8) :
    (inputOf octets).toList = octets := by
  rw [ByteArray.toList, toList_loop_eq]
  rfl

/-- A line ends at its line feed. -/
theorem linesOf_lineFeed
    (rest : List UInt8) :
    linesOf (10 :: rest) = [] :: linesOf rest := by
  simp [linesOf]

/-- Any other octet begins the line behind it. -/
theorem linesOf_cons
    {octet : UInt8}
    (inLine : octet ≠ 10)
    (rest : List UInt8) :
    linesOf (octet :: rest) = extendFirst [octet] (linesOf rest) := by
  simp [linesOf, inLine]

/-- Octets without a line feed and the line feed behind them are one line. -/
theorem linesOf_append_lineFeed
    {line : List UInt8}
    (inLine : 10 ∉ line)
    (rest : List UInt8) :
    linesOf (line ++ 10 :: rest) = line :: linesOf rest := by
  induction line with
  | nil =>
      exact linesOf_lineFeed rest
  | cons octet line inductionHypothesis =>
      rw [List.mem_cons, not_or] at inLine
      rw [List.cons_append, linesOf_cons (Ne.symm inLine.1), inductionHypothesis inLine.2]
      rfl

/-- Octets without a line feed are one line, unless there are none. -/
theorem linesOf_eq_singleton
    {line : List UInt8}
    (begun : line ≠ [])
    (inLine : 10 ∉ line) :
    linesOf line = [line] := by
  induction line with
  | nil =>
      exact absurd rfl begun
  | cons octet line inductionHypothesis =>
      rw [List.mem_cons, not_or] at inLine
      rw [linesOf_cons (Ne.symm inLine.1)]
      cases line with
      | nil => rfl
      | cons next line =>
          rw [inductionHypothesis (List.cons_ne_nil _ _) inLine.2]
          rfl

/-- Beginning a first line leaves the lines behind it. -/
theorem eraseIdx_extendFirst_succ
    (begun : List UInt8)
    (lines : List (List UInt8))
    (number : Nat) :
    (extendFirst begun lines).eraseIdx (number + 1) =
      extendFirst begun (lines.eraseIdx (number + 1)) := by
  cases lines <;> rfl

/-- Deleting a line leaves the other lines. -/
theorem linesOf_withoutLine
    (number : Nat)
    (octets : List UInt8) :
    linesOf (withoutLine number octets) = (linesOf octets).eraseIdx number := by
  induction octets generalizing number with
  | nil =>
      simp [withoutLine, linesOf]
  | cons octet rest inductionHypothesis =>
      by_cases ends : octet = 10
      · subst ends
        rw [linesOf_lineFeed]
        cases number with
        | zero => rfl
        | succ number =>
            simp only [withoutLine, ↓reduceIte, linesOf_lineFeed, inductionHypothesis,
              List.eraseIdx_cons_succ]
      · rw [linesOf_cons ends]
        cases number with
        | zero =>
            simp only [withoutLine, ends, ↓reduceIte, inductionHypothesis]
            cases linesOf rest <;> rfl
        | succ number =>
            simp only [withoutLine, ends, ↓reduceIte, linesOf_cons ends, inductionHypothesis,
              eraseIdx_extendFirst_succ]

/-- Deleting a line deletes its unit. -/
theorem unitsOf_withoutLine
    (number : Nat)
    (input : ByteArray) :
    unitsOf (inputOf (withoutLine number input.toList)) = (unitsOf input).eraseIdx number := by
  simp only [unitsOf, toList_inputOf, linesOf_withoutLine, List.eraseIdx_map]

/-! ## The lines as they are taken -/

/-- An input is split at its line feeds. -/
theorem split_eq
    (found : List InputLine)
    {begun : List UInt8}
    (inLine : 10 ∉ begun)
    (octets : List UInt8) :
    InputLine.split found begun octets =
      found.reverse ++
        (linesOf (begun.reverse ++ octets)).map
          fun line => InputLine.ofReversed line.reverse := by
  fun_induction InputLine.split found begun octets with
  | case1 found =>
      simp [linesOf]
  | case2 found begun isBegun =>
      have inReverse : 10 ∉ begun.reverse := by simpa using inLine
      have someOctets : begun.reverse ≠ [] := fun none =>
        isBegun (List.reverse_eq_nil_iff.mp none)
      have one := linesOf_eq_singleton someOctets inReverse
      rw [List.append_nil, one]
      simp
  | case3 found begun rest inductionHypothesis =>
      have inReverse : 10 ∉ begun.reverse := by simpa using inLine
      rw [inductionHypothesis List.not_mem_nil, linesOf_append_lineFeed inReverse]
      simp
  | case4 found begun octet rest notFeed inductionHypothesis =>
      have goesOn : 10 ∉ octet :: begun := by
        rw [List.mem_cons, not_or]
        exact ⟨fun isFeed => notFeed isFeed.symm, inLine⟩
      rw [inductionHypothesis goesOn, List.reverse_cons, List.append_assoc]
      rfl

/-- An input is split into its lines. -/
theorem split_nil
    (octets : List UInt8) :
    InputLine.split [] [] octets =
      (linesOf octets).map fun line => InputLine.ofReversed line.reverse :=
  split_eq [] List.not_mem_nil octets

/-- A line that is short enough is taken without a carriage return at its end. -/
theorem ofReversed_reverse
    {line : List UInt8}
    (short : line.length < lineLimit) :
    InputLine.ofReversed line.reverse = .octets (inputOf (withoutReturn line)) := by
  have fits : ¬lineLimit ≤ line.reverse.length := by simpa using short
  unfold InputLine.ofReversed
  rw [if_neg fits]
  split
  case h_1 _ others returns =>
    rw [List.reverse_eq_cons_iff] at returns
    simp [returns, withoutReturn, inputOf]
  case h_2 _ noReturn =>
    have otherwise : line.getLast? ≠ some 13 := by
      intro returns
      obtain ⟨others, rfl⟩ := List.getLast?_eq_some_iff.mp returns
      exact noReturn others.reverse (by simp)
    simp [withoutReturn, otherwise, inputOf]

/-- A line that is not short enough is refused, with the carriage return at its end counted. -/
theorem ofReversed_of_long
    {reversed : List UInt8}
    (long : lineLimit ≤ reversed.length) :
    InputLine.ofReversed reversed = .tooLong :=
  if_pos long

/-- The lines of an input are taken as units when they are short enough. -/
theorem split_of_short
    {input : ByteArray}
    (short : ∀ line ∈ linesOf input.toList, line.length < lineLimit) :
    InputLine.split [] [] input.toList =
      (linesOf input.toList).map fun line => .octets (inputOf (withoutReturn line)) := by
  rw [split_nil]
  exact List.map_congr_left fun line isLine => ofReversed_reverse (short line isLine)

/-! ## Running the lines -/

/-- What running a line did: the session before it, its record and the session behind it. -/
structure LineRun where
  unit : List Char
  before : Session
  record : UnitRecord
  after : Session

/-- Run a line and clear the log. -/
def LineRun.ofUnit
    (policy : Policy)
    (session : Session)
    (unit : List Char) :
    LineRun where
  unit := unit
  before := session
  record := (session.run policy unit).1
  after := (session.run policy unit).2.reset

/-- The runs of lines one after another. -/
def lineRuns
    (policy : Policy) :
    Session → List (List Char) → List LineRun
  | _, [] => []
  | session, unit :: units =>
      let run := LineRun.ofUnit policy session unit
      run :: lineRuns policy run.after units

/-- The session behind the last of the runs. -/
def sessionBehind
    (session : Session)
    (runs : List LineRun) :
    Session :=
  runs.foldl (fun _ run => run.after) session

/-- A prompt and the output of a line, for each line in order. -/
def promptedOutput
    (settings : Settings)
    (runs : List LineRun) :
    String :=
  String.join (runs.map fun run => settings.prompt ++ run.record.output)

/-- The errors of each line in order. -/
def promptedErrors
    (paint : String → String)
    (settings : Settings)
    (terminal : Bool)
    (runs : List LineRun) :
    String :=
  String.join (runs.map fun run => unitErrors paint settings terminal run.record)

/-- How the lines of a prompt session are run. -/
def promptPolicy
    (settings : Settings)
    (rounds : Nat) :
    Policy where
  echo := settings.echo
  rounds := rounds

/-- A prompt session writes what its lines write behind their prompts. -/
theorem runLines_octets
    (paint : String → String)
    (settings : Settings)
    (terminal : Bool)
    (rounds : Nat)
    (session : Session)
    (written : Transcript)
    (lines : List ByteArray) :
    runLines paint settings terminal rounds session written (lines.map .octets) =
      let runs := lineRuns (promptPolicy settings rounds) session (lines.map unitOf)
      ({ output := written.output ++ promptedOutput settings runs ++ settings.prompt
         errors := written.errors ++ promptedErrors paint settings terminal runs
         status := written.status }, sessionBehind session runs) := by
  induction lines generalizing session written with
  | nil =>
      simp [runLines, lineRuns, promptedOutput, promptedErrors, sessionBehind]
  | cons line lines inductionHypothesis =>
      simp only [List.map_cons, runLines, inductionHypothesis]
      simp [lineRuns, promptedOutput, promptedErrors, sessionBehind, LineRun.ofUnit, runLine,
        promptPolicy, String.append_assoc]

/-- A prompt session whose lines are short enough is made up of the runs of its lines. -/
theorem runPrompt_of_short
    (paint : String → String)
    (settings : Settings)
    (terminal : Bool)
    (rounds : Nat)
    {input : ByteArray}
    {runs : List LineRun}
    (short : ∀ line ∈ linesOf input.toList, line.length < lineLimit)
    (ran : lineRuns (promptPolicy settings rounds) {} (unitsOf input) = runs) :
    runPrompt paint settings terminal rounds input =
      ({ output := promptedOutput settings runs ++ settings.prompt
         errors := promptedErrors paint settings terminal runs
         status := 0 }, sessionBehind {} runs) := by
  have taken := runLines_octets paint settings terminal rounds {} {}
    ((linesOf input.toList).map fun line => inputOf (withoutReturn line))
  rw [List.map_map, List.map_map] at taken
  rw [runPrompt, split_of_short short]
  refine taken.trans ?_
  simp [← ran, unitsOf, Function.comp_def]

/-! ## Lines that are not executed -/

/-- What a line may do, as its own text decides. -/
structure LineRun.IsGated
    (policy : Policy)
    (run : LineRun) :
    Prop where
  /-- A line without errors is executed in the globals that it finds. -/
  executed :
    IsClean run.unit →
      ∃ execution,
        run.record = .ofExecution run.unit (some execution) ∧
          Executes policy run.before.globals (statements run.unit) execution run.after.globals
  /-- A line with errors is read only, and the session goes on as it was. -/
  unexecuted :
    ¬IsClean run.unit →
      run.record = .ofExecution run.unit none ∧ run.after = run.before
  /-- The log is clear behind the line. -/
  cleared :
    run.after.log = .clear

/-- A line that is run with a clear log is gated by its own text. -/
theorem LineRun.isGated_ofUnit
    (policy : Policy)
    {session : Session}
    (clear : session.log = .clear)
    (unit : List Char) :
    (LineRun.ofUnit policy session unit).IsGated policy := by
  refine ⟨?_, ?_, rfl⟩
  · intro (clean : IsClean unit)
    obtain ⟨execution, after, runs⟩ :=
      exists_executes policy session.globals (statements unit)
    have noError : session.log.hadError = false := by
      rw [clear]
      rfl
    have ran := Session.run_of_isClean noError clean runs
    refine ⟨execution, ?_, ?_⟩
    · exact congrArg Prod.fst ran
    · simpa only [LineRun.ofUnit, ran, Session.reset] using runs
  · intro (unclean : ¬IsClean unit)
    have ran : session.run policy unit = _ := Session.run_of_not_isClean policy unclean
    refine ⟨congrArg Prod.fst ran, ?_⟩
    simp only [LineRun.ofUnit, ran, Session.reset, ← clear]

/-- Every line is gated by its own text. -/
theorem isGated_of_mem_lineRuns
    {policy : Policy}
    {session : Session}
    {units : List (List Char)}
    {run : LineRun}
    (clear : session.log = .clear)
    (isRun : run ∈ lineRuns policy session units) :
    run.IsGated policy := by
  induction units generalizing session with
  | nil =>
      exact absurd isRun List.not_mem_nil
  | cons unit units inductionHypothesis =>
      have first := LineRun.isGated_ofUnit policy clear unit
      rcases List.mem_cons.mp isRun with rfl | later
      · exact first
      · exact inductionHypothesis first.cleared later

/-- Every line is run once, in order. -/
theorem map_unit_lineRuns
    (policy : Policy)
    (session : Session)
    (units : List (List Char)) :
    (lineRuns policy session units).map LineRun.unit = units := by
  induction units generalizing session with
  | nil =>
      rfl
  | cons unit units inductionHypothesis =>
      rw [lineRuns, List.map_cons, inductionHypothesis]
      rfl

/-- The log is clear behind all lines. -/
theorem log_sessionBehind
    (policy : Policy)
    {session : Session}
    (clear : session.log = .clear)
    (units : List (List Char)) :
    (sessionBehind session (lineRuns policy session units)).log = .clear := by
  induction units generalizing session with
  | nil =>
      exact clear
  | cons unit units inductionHypothesis =>
      exact inductionHypothesis (LineRun.isGated_ofUnit policy clear unit).cleared

/-- The other lines run alike without a line that is not executed, up to the same session. -/
theorem lineRuns_eraseIdx
    (policy : Policy)
    {session : Session}
    {units : List (List Char)}
    {number : Nat}
    {unit : List Char}
    (clear : session.log = .clear)
    (there : units[number]? = some unit)
    (unclean : ¬IsClean unit) :
    let runs := lineRuns policy session units
    lineRuns policy session (units.eraseIdx number) = runs.eraseIdx number ∧
      sessionBehind session (runs.eraseIdx number) = sessionBehind session runs := by
  induction units generalizing session number with
  | nil =>
      cases there
  | cons first units inductionHypothesis =>
      have gated := LineRun.isGated_ofUnit policy clear first
      cases number with
      | zero =>
          cases there
          -- The log that the line finds is clear as well as the one that it leaves.
          have unchanged : (LineRun.ofUnit policy session unit).after = session :=
            (gated.unexecuted unclean).2
          simp only [lineRuns, unchanged, sessionBehind, List.eraseIdx_zero, List.tail_cons,
            List.foldl_cons, and_self]
      | succ number =>
          rw [List.getElem?_cons_succ] at there
          obtain ⟨sameRuns, sameSession⟩ := inductionHypothesis gated.cleared there
          refine ⟨?_, sameSession⟩
          simp only [List.eraseIdx_cons_succ, lineRuns, sameRuns]

/-- What reading a unit writes: its lexical errors, its tokens if asked for, its grammar errors. -/
def readingErrors
    (paint : String → String)
    (settings : Settings)
    (terminal : Bool)
    (unit : List Char) :
    String :=
  let lexing := Lexing.ofSource unit
  let written := Diagnostic.shownAll (painter? paint settings terminal)
  written (lexing.errors.map LexicalError.diagnostic) ++
    (if settings.listings.tokens then
      String.join (lexing.tokens.map fun token => token.listed ++ "\n")
    else
      "") ++
    written ((Program.ofTokens lexing.tokens).errors.map GrammarError.diagnostic)

/-- A unit that is only read writes nothing but what reading it writes. -/
theorem unitErrors_unexecuted
    (paint : String → String)
    (settings : Settings)
    (terminal : Bool)
    (unit : List Char) :
    unitErrors paint settings terminal (.ofExecution unit none) =
      readingErrors paint settings terminal unit := by
  have noTree : (UnitRecord.ofExecution unit none).treeListing = "" := rfl
  have noFailure : (UnitRecord.ofExecution unit none).runtimeDiagnostics = [] := rfl
  have nothingWritten (paint? : Option (String → String)) : Diagnostic.shownAll paint? [] = "" :=
    rfl
  simp only [unitErrors, noTree, noFailure, nothingWritten, ite_self, String.append_empty]
  rfl

/--
A prompt session in which every line, with the carriage return at its end, is
short enough writes a prompt and the output of each line in order and one last
prompt; its status is 0 and its log is clear.  A line is executed exactly when
its own text has no errors.  Without a line that has some, the session writes and
does the same, less the prompt of that line and what reading it writes.
-/
theorem prompt_lines_stand_alone
    (paint : String → String)
    (settings : Settings)
    (terminal : Bool)
    (rounds : Nat)
    {input : ByteArray}
    (short : ∀ line ∈ linesOf input.toList, line.length < lineLimit) :
    let policy := promptPolicy settings rounds
    let runs := lineRuns policy {} (unitsOf input)
    let session := sessionBehind {} runs
    runPrompt paint settings terminal rounds input =
        ({ output := promptedOutput settings runs ++ settings.prompt
           errors := promptedErrors paint settings terminal runs
           status := 0 }, session) ∧
      session.log = .clear ∧
        runs.map LineRun.unit = unitsOf input ∧
          (∀ run ∈ runs, run.IsGated policy) ∧
            ∀ (number : Nat) (run : LineRun),
              runs[number]? = some run →
              ¬IsClean run.unit →
              let shorter := inputOf (withoutLine number input.toList)
              let others := runs.eraseIdx number
              run.record.output = "" ∧
                unitErrors paint settings terminal run.record =
                    readingErrors paint settings terminal run.unit ∧
                  lineRuns policy {} (unitsOf shorter) = others ∧
                    runPrompt paint settings terminal rounds shorter =
                      ({ output := promptedOutput settings others ++ settings.prompt
                         errors := promptedErrors paint settings terminal others
                         status := 0 }, session) := by
  intro policy runs session
  have startsClear : ({} : Session).log = .clear := rfl
  have gated : ∀ run ∈ runs, run.IsGated policy := fun run isRun =>
    isGated_of_mem_lineRuns startsClear isRun
  have inOrder : runs.map LineRun.unit = unitsOf input := map_unit_lineRuns policy {} _
  have endsClear : session.log = .clear := log_sessionBehind policy startsClear _
  have whole := runPrompt_of_short paint settings terminal rounds short rfl
  refine ⟨whole, endsClear, inOrder, gated, ?_⟩
  intro number run there unclean shorter others
  have onlyRead := ((gated run (List.mem_of_getElem? there)).unexecuted unclean).1
  have unitThere : (unitsOf input)[number]? = some run.unit := by
    rw [← inOrder, List.getElem?_map, there]
    rfl
  have stillShort : ∀ line ∈ linesOf shorter.toList, line.length < lineLimit := by
    intro line isLine
    rw [toList_inputOf, linesOf_withoutLine] at isLine
    exact short line (List.mem_of_mem_eraseIdx isLine)
  obtain ⟨sameRuns, sameSession⟩ := lineRuns_eraseIdx policy startsClear unitThere unclean
  rw [← unitsOf_withoutLine] at sameRuns
  refine ⟨?_, ?_, sameRuns, ?_⟩
  · rw [onlyRead]
    rfl
  · rw [onlyRead]
    exact unitErrors_unexecuted paint settings terminal run.unit
  · rw [runPrompt_of_short paint settings terminal rounds stillShort sameRuns, sameSession]

/-- An input of four lines: one fails when it is executed, the next has an error of its source. -/
def troubledInput : ByteArray :=
  inputOf "var a = \"x\";\r\n-a;\nprint ;\nprint a;".toUTF8.toList

/-- The last line prints what the first declared, with the third line as without it. -/
theorem prompt_lines_stand_alone_troubledInput :
    let shorter := inputOf (withoutLine 2 troubledInput.toList)
    (∀ line ∈ linesOf troubledInput.toList, line.length < lineLimit) ∧
      (runPrompt Diagnostic.inRed {} false 1 troubledInput).1.output = "> > > > x\n> " ∧
        (runPrompt Diagnostic.inRed {} false 1 shorter).1.output = "> > > x\n> " ∧
          (runPrompt Diagnostic.inRed {} false 1 shorter).2 =
            (runPrompt Diagnostic.inRed {} false 1 troubledInput).2 := by
  intro shorter
  have short : ∀ line ∈ linesOf troubledInput.toList, line.length < lineLimit := by
    decide +kernel
  have third : (unitsOf troubledInput)[2]? = some "print ;".toList := by
    decide +kernel
  obtain ⟨whole, _, inOrder, _, without⟩ :=
    prompt_lines_stand_alone Diagnostic.inRed {} false 1 short
  rw [← inOrder, List.getElem?_map, Option.map_eq_some_iff] at third
  obtain ⟨run, there, isThird⟩ := third
  have unclean : ¬IsClean run.unit := by
    rw [isThird]
    exact fun clean => absurd clean.grammatical (by decide +kernel)
  obtain ⟨_, _, _, others⟩ := without 2 run there unclean
  refine ⟨short, by decide +kernel, by decide +kernel, ?_⟩
  rw [others, whole]

/-! ## The limit of a line -/

/-- Spaces are decoded to spaces. -/
theorem unitOf_replicate
    (number : Nat) :
    unitOf (inputOf (List.replicate number 32)) = List.replicate number ' ' := by
  have decoded (found : List Char) :
      Text.decodeFrom found (List.replicate number 32) =
        found.reverse ++ List.replicate number ' ' := by
    induction number generalizing found with
    | zero =>
        simp [Text.decodeFrom]
    | succ number inductionHypothesis =>
        have first : Text.decodeFrom found (32 :: List.replicate number 32) =
            Text.decodeFrom (' ' :: found) (List.replicate number 32) := by
          -- The matches on the octets behind it are part of every equation for one octet.
          rw [Text.decodeFrom.eq_def]
          rfl
        rw [List.replicate_succ, first, inductionHypothesis]
        simp [List.replicate_succ]
  simp [unitOf, Text.decode, decoded]

/-- Spaces are a program without statements. -/
theorem isClean_replicate_space
    (number : Nat) :
    IsClean (List.replicate number ' ') ∧ statements (List.replicate number ' ') = [] := by
  have isFiller : Lexical.IsFiller (List.replicate number ' ') := by
    induction number with
    | zero => exact .nil
    | succ number inductionHypothesis => exact .blank (by simp) inductionHypothesis
  let writing : Lexical.Writing := { front := ⟨_, isFiller⟩, separated := [], last := none }
  have sameText : writing.text = List.replicate number ' ' := by
    simp [writing, Lexical.Writing.text]
  obtain ⟨noErrors, spells⟩ := writing.reads
  rw [sameText] at noErrors spells
  exact isClean_of_no_tokens noErrors (List.forall₂_nil_right_iff.mp spells)

/-- An input of one line of spaces that ends with a carriage return. -/
def paddedInput
    (number : Nat) :
    ByteArray :=
  inputOf (List.replicate number 32 ++ [13, 10])

/-- The line of spaces keeps its carriage return until it is taken. -/
theorem linesOf_paddedInput
    (number : Nat) :
    linesOf (paddedInput number).toList = [List.replicate number 32 ++ [13]] := by
  have inLine : 10 ∉ List.replicate number (32 : UInt8) ++ [13] := by
    simp [List.mem_replicate]
  have lines := linesOf_append_lineFeed inLine []
  rw [List.append_assoc] at lines
  rw [paddedInput, toList_inputOf]
  exact lines

/-- The carriage return is dropped. -/
theorem withoutReturn_append
    (line : List UInt8) :
    withoutReturn (line ++ [13]) = line := by
  simp [withoutReturn]

/-- A line of spaces halts. -/
theorem halts_paddedInput
    (policy : Policy)
    (number : Nat) :
    ∀ run ∈ lineRuns policy {} (unitsOf (paddedInput number)),
      run.record.outcome? ≠ some .exhausted := by
  intro run isRun
  have startsClear : ({} : Session).log = .clear := rfl
  have units : unitsOf (paddedInput number) = [List.replicate number ' '] := by
    rw [unitsOf, linesOf_paddedInput, List.map_singleton, withoutReturn_append, unitOf_replicate]
  have gated := isGated_of_mem_lineRuns startsClear isRun
  rw [units] at isRun
  obtain rfl := List.mem_singleton.mp isRun
  obtain ⟨clean, nothing⟩ := isClean_replicate_space number
  obtain ⟨execution, recorded, runs⟩ := gated.executed clean
  have ends : execution.outcome = .normal := by
    have ran : Executes policy _ (statements (List.replicate number ' ')) execution _ := runs
    rw [nothing] at ran
    exact (congrArg Prod.fst ran).symm
  rw [recorded]
  simp [UnitRecord.ofExecution, UnitRecord.outcome?, ends]

/-- A line of one octet less than the limit ends the session when a carriage return is behind it. -/
theorem lineLimit_counts_return :
    (∀ line ∈ linesOf (paddedInput 65535).toList, (withoutReturn line).length < lineLimit) ∧
      (∀ run ∈ lineRuns (promptPolicy {} roundLimit) {} (unitsOf (paddedInput 65535)),
        run.record.outcome? ≠ some .exhausted) ∧
        (runPrompt Diagnostic.inRed {} false roundLimit (paddedInput 65535)).1 =
          { output := "> ", errors := "bufio.Scanner: token too long\n", status := 74 } := by
  refine ⟨?_, halts_paddedInput _ _, ?_⟩
  · intro line isLine
    rw [linesOf_paddedInput, List.mem_singleton] at isLine
    rw [isLine, withoutReturn_append, List.length_replicate]
    decide
  · have tooLong : lineLimit ≤ (List.replicate 65535 (32 : UInt8) ++ [13]).reverse.length := by
      rw [List.length_reverse, List.length_append, List.length_replicate]
      decide
    rw [runPrompt, split_nil, linesOf_paddedInput, List.map_singleton, ofReversed_of_long tooLong]
    rfl

end CommandLine

end BlockScript
