import BlockScript.Reading.Step

namespace BlockScript

/-!
# Programs

A program is read off a list of tokens up to its first end token.  What was read
without an error is kept: a statement that holds an error is dropped as a whole,
and a block only loses the statements that hold one.
-/

/-- The statements kept and the errors found, both in order. -/
structure Program where
  statements : List Stmt
  errors : List GrammarError
  deriving Repr

namespace Reader

/-- The statements completed outside every open block, the last one first. -/
def kept
    (reader : Reader) :
    List Stmt :=
  match reader.outer.getLast? with
  | some outermost => outermost.before
  | none => reader.done

/-- The statements kept and the errors found so far. -/
def program
    (reader : Reader) :
    Program where
  statements :=
    reader.kept.reverse
  errors :=
    reader.errors.reverse

/-- Settle what the end of the input leaves open in the statement that was being read. -/
def endStatement
    (reader : Reader)
    (token : Token) :
    Reader :=
  match reader.mode with
  | .declaration => reader
  | .skipping => reader
  | .afterThen condition thenBranch => reader.settle (.ifThen condition thenBranch)
  | _ => reader.feed token

/-- The end of the input: the blocks that are still open are missing their braces. -/
def finish
    (reader : Reader)
    (token : Token) :
    Program :=
  let ended := reader.endStatement token
  let unclosed : GrammarError := { token, fault := .expectBraceAfterBlock }
  { ended with
    errors := List.replicate ended.outer.length unclosed ++ ended.errors }.program

/-- Read tokens up to the first end token; without one, what has been read so far counts. -/
def read
    (reader : Reader) :
    List Token → Program
  | [] => reader.program
  | token :: rest =>
      if token.kind = .endOfInput then
        reader.finish token
      else
        (reader.feed token).read rest

end Reader

namespace Program

/-- Read a program off its tokens. -/
def ofTokens
    (tokens : List Token) :
    Program :=
  Reader.start.read tokens

end Program

end BlockScript
