import Fleet.CommandLine
import Fleet.Files.Tree
import Fleet.Json.Reader
import Fleet.Json.Writer
import Fleet.Main
import Fleet.Proofs.Coherence
import Fleet.Proofs.Faults
import Fleet.Proofs.Hysteresis
import Fleet.Proofs.PlanSize
import Fleet.Proofs.Tick
import Fleet.Rehearsal.Loop
import Fleet.Proofs.PlanLaws
import Fleet.Proofs.Interleaving
import Fleet.Proofs.DecisionLog
import Fleet.Proofs.Disturbance
import Fleet.Proofs.Nesting
import Fleet.Proofs.Idleness
import Fleet.Proofs.SteadyTick
import Fleet.Proofs.Naming
import Fleet.Proofs.Replay
import Fleet.Proofs.Simulation
import Fleet.Proofs.BrokenOff
import Fleet.Proofs.ClosingOrder
import Fleet.Proofs.Protocol
import Fleet.Proofs.Settling
import Fleet.Proofs.GroupRetirement
import Fleet.Proofs.Provisioning
import Fleet.Proofs.UniqueNames
import Fleet.Proofs.Launches
import Fleet.Proofs.StaleRecords
import Fleet.Proofs.Tidying
import Fleet.Proofs.Estimates
import Fleet.Proofs.LaunchGroups
import Fleet.Proofs.LoopCourse
import Fleet.Proofs.ClockGrid
import Fleet.Proofs.Loading
import Fleet.Proofs.ConstantLoad
import Fleet.Proofs.Levels
import Fleet.Proofs.Churn
import Fleet.Proofs.Resizing
import Fleet.Proofs.Selection
import Fleet.Proofs.WireForms
import Fleet.Proofs.Pacing
import Fleet.Proofs.Shrinking
import Fleet.Proofs.DrainWindow
import Fleet.Proofs.QueueLaws
import Fleet.Proofs.Doubling
import Fleet.Proofs.HalfRemoval
import Fleet.Proofs.Validation
import Fleet.Proofs.WrittenSpans
import Fleet.Proofs.Schedule
