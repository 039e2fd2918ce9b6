import Noughts.Artifacts
import Noughts.Counter.Workers
import Noughts.Game
import Noughts.Main
import Noughts.Phase.Schedule
import Noughts.Search.Calls
import Noughts.Search.Writes
import Noughts.Proofs.Backtracking
import Noughts.Proofs.GameTree
import Noughts.Proofs.GameTree.Cutoffs
import Noughts.Proofs.GameTree.Effort
import Noughts.Proofs.OwnedLines
import Noughts.Proofs.SearchTree
import Noughts.Proofs.Faults
import Noughts.Proofs.LineTest
import Noughts.Proofs.Scores
import Noughts.Proofs.Pruning
import Noughts.Proofs.Effort
import Noughts.Proofs.BestPlay
import Noughts.Proofs.Runs
import Noughts.Proofs.SymmetricSearch
import Noughts.Proofs.SharedCounter
import Noughts.Proofs.Tallies
import Noughts.Proofs.Schedules
import Noughts.Proofs.ParallelPhases
import Noughts.Proofs.Benchmarks
import Noughts.Proofs.CallTree
import Noughts.Proofs.PackedBoards
import Noughts.Proofs.Openings
import Noughts.Proofs.Trails
import Noughts.Proofs.Occupancy
import Noughts.Proofs.SymmetricBoards
import Noughts.Proofs.CallBounds
import Noughts.Proofs.BoardText
import Noughts.Proofs.Commits
import Noughts.Proofs.Surveys
import Noughts.Proofs.Commands
import Noughts.Proofs.BenchmarkLogs
import Noughts.Proofs.CommandLines
import Noughts.Proofs.Counts
import Noughts.Proofs.Summaries
import Noughts.Proofs.Checkouts
import Noughts.Proofs.TrackedRuns
