import BlockScript.Main
import BlockScript.Scope.Forest
import BlockScript.Proofs.Grammar.Phrase
import BlockScript.Proofs.Grammar.Agreement
import BlockScript.Proofs.Reading.Feeding
import BlockScript.Proofs.Reading.Phrases
import BlockScript.Proofs.Reading.Bodies
import BlockScript.Proofs.Reading.Errors
import BlockScript.Proofs.Reading.Holding
import BlockScript.Proofs.Reading.Expressions
import BlockScript.Proofs.Reading.Soundness
import BlockScript.Proofs.Reading.Language
import BlockScript.Proofs.Flattening.Basic
import BlockScript.Proofs.Flattening.RoundTrip
import BlockScript.Proofs.Source.MaximalMunch
import BlockScript.Proofs.Source.Joining
import BlockScript.Proofs.Reading.Shifting
import BlockScript.Proofs.Execution.Shifting
import BlockScript.Proofs.Session.Joining
import BlockScript.Proofs.Reading.Boundaries
import BlockScript.Proofs.Reading.Effect
import BlockScript.Proofs.Reading.Recovery
import BlockScript.Proofs.Reading.Blaming
import BlockScript.Proofs.Scoping.Lexical
import BlockScript.Proofs.Machine.Running
import BlockScript.Proofs.Machine.Progress
import BlockScript.Proofs.Reading.Leaving
import BlockScript.Proofs.Reading.Viability
import BlockScript.Proofs.Session.Observers
import BlockScript.Proofs.Session.Gate
import BlockScript.Proofs.Session.Lines
import BlockScript.Proofs.Source.Writing
import BlockScript.Proofs.Scoping.Growth
import BlockScript.Proofs.Session.Globals
import BlockScript.Proofs.CommandLine.Script
import BlockScript.Proofs.CommandLine.Prompt
import BlockScript.Proofs.Execution.Counting
import BlockScript.Proofs.Scoping.Coincidence
import BlockScript.Proofs.Scoping.Shadowing
import BlockScript.Proofs.Scoping.Restoring
import BlockScript.Proofs.Text.Ordering
import BlockScript.Proofs.Source.Literals
import BlockScript.Proofs.Execution.Numerals
import BlockScript.Proofs.Tree.Unambiguity
import BlockScript.Proofs.Settings.Overlaying
