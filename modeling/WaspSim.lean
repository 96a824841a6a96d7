import WaspSim.Core.Checked
import WaspSim.Core.Fifo
import WaspSim.Core.Ring
import WaspSim.Core.Run
import WaspSim.Core.Capacity
import WaspSim.Queue.Operations
import WaspSim.Queue.Representation
import WaspSim.Queue.Refinement
import WaspSim.Queue.Session
import WaspSim.Queue.Table
import WaspSim.Shader.Config
import WaspSim.Core.Related
import WaspSim.Shader.Instruction
import WaspSim.Shader.Decode
import WaspSim.Shader.Key
import WaspSim.Shader.Pairing
import WaspSim.Shader.Queues
import WaspSim.Shader.Issue
import WaspSim.Shader.LoadStore
import WaspSim.Shader.Machine
import WaspSim.Correctness.Log
import WaspSim.Shader.Inflight
import WaspSim.Correctness.IssueEffect
import WaspSim.Correctness.LoadStoreEffect
import WaspSim.Correctness.AccessStep
import WaspSim.Correctness.Provenance
import WaspSim.Correctness.QueueStep
import WaspSim.Correctness.Tracks
import WaspSim.Correctness.Settled
import WaspSim.Correctness.Runs
import WaspSim.Correctness.Delivery
import WaspSim.Correctness.Completion
import WaspSim.Correctness.Instances
import WaspSim.Correctness.Residency
import WaspSim.Correctness.StaleToken
import WaspSim.Correctness.Tokens
import WaspSim.Correctness.Creation
import WaspSim.Correctness.Program
import WaspSim.Correctness.Progress
import WaspSim.Occupancy.Footprint
import WaspSim.Occupancy.MaxCta
import WaspSim.Occupancy.Storage
import WaspSim.Queue.Invariant
import WaspSim.Correctness.Ledger
import WaspSim.Correctness.Bookkeeping
import WaspSim.Correctness.Accounting
import WaspSim.Correctness.Twin
import WaspSim.Correctness.Bisimulation
import WaspSim.Correctness.Masks
import WaspSim.Core.FirstFit
import WaspSim.Occupancy.Allocation
import WaspSim.Occupancy.Admission
import WaspSim.Occupancy.Conservation
import WaspSim.Occupancy.Layout
import WaspSim.Core.Barrier
import WaspSim.Kernel.Handoff
import WaspSim.Kernel.Output
import WaspSim.Kernel.Completion
import WaspSim.Scheduler.Instruction
import WaspSim.Scheduler.State
import WaspSim.Scheduler.Issue
import WaspSim.Scheduler.Stats
import WaspSim.Scheduler.Coissue
import WaspSim.Scheduler.Cycle
import WaspSim.Scheduler.Settled
import WaspSim.Scheduler.Candidates
import WaspSim.Scheduler.Passes
import WaspSim.Scheduler.Fallback
import WaspSim.Scheduler.Transparency
import WaspSim.Scheduler.Accounting
import WaspSim.Scheduler.UnitChoice
import WaspSim.Scheduler.Order
import WaspSim.Scheduler.RoundRobin
import WaspSim.Scheduler.Issued
import WaspSim.Scheduler.Eligible
import WaspSim.Scheduler.EligibleFraction
import WaspSim.Occupancy.Geometry
import WaspSim.Core.FloatRound
import WaspSim.Occupancy.CarveOut
import WaspSim.Shader.Routing
import WaspSim.Ptx.Operand
import WaspSim.Ptx.Execute
import WaspSim.Ptx.Hazards
import WaspSim.Ptx.Payload
import WaspSim.Core.Text
import WaspSim.Shader.Metadata
import WaspSim.Kernel.PairGather
import WaspSim.Scheduler.QueueHead
import WaspSim.Scheduler.Alone
import WaspSim.Scheduler.PairSearch
import WaspSim.Scheduler.Beside
import WaspSim.Scheduler.PairIssue
import WaspSim.Core.Digits
import WaspSim.Ptx.QueueOperand
import WaspSim.Kernel.Analytic
import WaspSim.Kernel.AnalyticOccupancy
import WaspSim.Kernel.AnalyticBounds
import WaspSim.Scheduler.PairSound
import WaspSim.Core.Sweep
import WaspSim.Core.Dominance
import WaspSim.Ptx.Assembly
import WaspSim.Ptx.Layout
import WaspSim.Ptx.BasicBlocks
import WaspSim.Ptx.Partition
import WaspSim.Ptx.ControlFlow
import WaspSim.Ptx.Dominators
import WaspSim.Ptx.Links
import WaspSim.Ptx.Reconvergence
import WaspSim.Core.Meets
import WaspSim.Collector.State
import WaspSim.Collector.Step
import WaspSim.Collector.Arbiter
import WaspSim.Collector.Operands
import WaspSim.Collector.Invariant
import WaspSim.Collector.Dispatch
import WaspSim.Collector.Reads
import WaspSim.Collector.Occupy
import WaspSim.Collector.Runs
import WaspSim.Collector.Banks
import WaspSim.Collector.SubCore
import WaspSim.Core.Range
import WaspSim.Dispatch.Grid
import WaspSim.Dispatch.Threads
import WaspSim.Dispatch.Gpu
import WaspSim.Dispatch.Spread
import WaspSim.Dispatch.Cores
import WaspSim.Dispatch.Invariant
import WaspSim.Dispatch.Select
import WaspSim.Dispatch.Issue
import WaspSim.Dispatch.Exit
import WaspSim.Dispatch.Launch
import WaspSim.Dispatch.Runs
import WaspSim.Dispatch.Placement
import WaspSim.Barrier.Invariant
import WaspSim.Barrier.Step
import WaspSim.Barrier.Group
import WaspSim.Barrier.Runs
import WaspSim.Barrier.Functional
import WaspSim.Dispatch.Barriers
import WaspSim.Dispatch.BarrierRuns
import WaspSim.Dispatch.HostedCore
