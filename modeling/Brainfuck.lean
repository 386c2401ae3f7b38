import Brainfuck.CommandLine.Directory
import Brainfuck.CommandLine.Session
import Brainfuck.Console
import Brainfuck.Event
import Brainfuck.Execution
import Brainfuck.Machine
import Brainfuck.Main
import Brainfuck.Program.Listing
import Brainfuck.Program.Parser
import Brainfuck.Program.Tree
import Brainfuck.Progress
import Brainfuck.Proofs.BracketErrors
import Brainfuck.Proofs.Brackets
import Brainfuck.Proofs.C.Listing
import Brainfuck.Proofs.C.Reading
import Brainfuck.Proofs.C.Run
import Brainfuck.Proofs.C.Syntax
import Brainfuck.Proofs.C.Translation
import Brainfuck.Proofs.Counts
import Brainfuck.Proofs.Draft
import Brainfuck.Proofs.Folding
import Brainfuck.Proofs.Parsing
import Brainfuck.Proofs.Placed
import Brainfuck.Proofs.ProgramText
import Brainfuck.Proofs.Refinement
import Brainfuck.Proofs.Repetition
import Brainfuck.Proofs.Requests
import Brainfuck.Proofs.Simulation
import Brainfuck.Proofs.Stopping
import Brainfuck.Proofs.Streams
import Brainfuck.Proofs.TextRun
import Brainfuck.Proofs.Upcoming
import Brainfuck.Source.Bytes
import Brainfuck.Source.Text
import Brainfuck.Tape
import Brainfuck.Token.Stream
import Brainfuck.Proofs.Segments
import Brainfuck.Proofs.Alike
import Brainfuck.Proofs.Cursor
import Brainfuck.Proofs.Encoded
import Brainfuck.Proofs.CallOrder
import Brainfuck.Proofs.Delivery
import Brainfuck.Proofs.OtherStreams
import Brainfuck.Proofs.FailingOutput
import Brainfuck.Proofs.InterruptedRuns
import Brainfuck.Proofs.FailingCalls
import Brainfuck.Proofs.C.ReadBack
import Brainfuck.Proofs.Drawings
import Brainfuck.Proofs.Recording
import Brainfuck.Proofs.ParseLog
import Brainfuck.Proofs.Pointer
import Brainfuck.Proofs.WrittenCells
import Brainfuck.Proofs.Exhaustion
import Brainfuck.Proofs.CommandLine.WholePrograms
import Brainfuck.Proofs.CommandLine.Stages
import Brainfuck.Proofs.Layout
import Brainfuck.Proofs.Congruence
import Brainfuck.Proofs.StraightLine
import Brainfuck.Proofs.Joining
import Brainfuck.Proofs.Pieces
import Brainfuck.Proofs.DeadLoops
import Brainfuck.Proofs.Unread
import Brainfuck.Proofs.Nesting
import Brainfuck.Proofs.Indentation
import Brainfuck.Proofs.Edges
import Brainfuck.Proofs.Demand
import Brainfuck.Proofs.SourceRequests
import Brainfuck.Proofs.CommandLine.ReadFailures
