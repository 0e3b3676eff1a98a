import Labyrinth.Main
import Labyrinth.Session.Action
import Labyrinth.Proofs.Displacement
import Labyrinth.Proofs.Walk
import Labyrinth.Proofs.Lines
import Labyrinth.Proofs.Replay
import Labyrinth.Proofs.Json.Reader
import Labyrinth.Proofs.Json.RoundTrip
import Labyrinth.Proofs.Search.Rank
import Labyrinth.Proofs.Search.Survey
import Labyrinth.Proofs.Search.Shortest
import Labyrinth.Proofs.Maze.OpenCells
import Labyrinth.Proofs.Maze.Openings
import Labyrinth.Proofs.Maze.Views
import Labyrinth.Proofs.Maze.Text
import Labyrinth.Proofs.Maze.Perfect
import Labyrinth.Proofs.Drawing
import Labyrinth.Proofs.Drawing.Trail
import Labyrinth.Proofs.Random.Hash
import Labyrinth.Proofs.Random.Period
import Labyrinth.Proofs.Random.Shuffle
import Labyrinth.Proofs.Carving.Recursion
import Labyrinth.Proofs.Carving.Lattice
import Labyrinth.Proofs.Carving.Growth
import Labyrinth.Proofs.Carving.Coverage
import Labyrinth.Proofs.Carving.Shape
import Labyrinth.Proofs.Carving.Account
import Labyrinth.Proofs.Puzzle.Generation
import Labyrinth.Proofs.Puzzle.SeedClass
import Labyrinth.Proofs.Puzzle.Goal
import Labyrinth.Proofs.Puzzle.Layout
import Labyrinth.Proofs.Program.Edits
import Labyrinth.Proofs.Program.History
import Labyrinth.Proofs.Program.UndoRedo
import Labyrinth.Proofs.Program.InPlace
import Labyrinth.Proofs.Program.Moving
import Labyrinth.Proofs.Execution.Stepping
import Labyrinth.Proofs.Execution.Requests
import Labyrinth.Proofs.Execution.Resuming
import Labyrinth.Proofs.Execution.Verdict
import Labyrinth.Proofs.Execution.Continuing
import Labyrinth.Proofs.Execution.Solving
import Labyrinth.Proofs.Execution.Retracing
import Labyrinth.Proofs.Execution.Opening
import Labyrinth.Proofs.Session.Effects
import Labyrinth.Proofs.Session.Coherence
import Labyrinth.Proofs.Session.Playback
import Labyrinth.Proofs.Session.Trail
import Labyrinth.Proofs.Session.Picture
import Labyrinth.Proofs.Session.InPlace
import Labyrinth.Proofs.Session.Refusal
import Labyrinth.Proofs.Session.Renewal
import Labyrinth.Proofs.Session.StepCount
import Labyrinth.Proofs.CommandLine.Launch
import Labyrinth.Proofs.CommandLine.Animation
import Labyrinth.Proofs.CommandLine.Status
import Labyrinth.Proofs.CommandLine.Reading
import Labyrinth.Proofs.CommandLine.Solution
