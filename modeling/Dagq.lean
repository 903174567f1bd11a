import Dagq.Lib.Txn
import Dagq.Lib.Table
import Dagq.Lib.Graph
import Dagq.Lib.Machine
import Dagq.Lib.Search
import Dagq.Lib.Walk
import Dagq.Domain.Task
import Dagq.Domain.Goal
import Dagq.Domain.Event
import Dagq.Domain.Proposal
import Dagq.Domain.Scope
import Dagq.Domain.Recovery
import Dagq.Store.State
import Dagq.Store.Tasks
import Dagq.Store.Runs
import Dagq.Store.Claims
import Dagq.Store.DependencyGraph
import Dagq.Store.Proposals
import Dagq.Store.PlanReviews
import Dagq.Queue.Op
import Dagq.Queue.Board
import Dagq.Queue.Promises
import Dagq.Queue.Refine
import Dagq.Queue.Steps
import Dagq.Queue.Invariants
import Dagq.Queue.Fencing
import Dagq.Queue.Plans
import Dagq.Queue.PlanAnswers
import Dagq.Queue.Aside
import Dagq.Queue.Waiting
import Dagq.Queue.Closures
import Dagq.Queue.Duplicates
import Dagq.Queue.Answers
import Dagq.Queue.Resumes
import Dagq.Queue.Listing
import Dagq.Supervise.ClaimDefer
import Dagq.Supervise.Deferrals
import Dagq.Supervise.Claims
import Dagq.Queue.PlanJobs
import Dagq.Queue.PlanVerdicts
import Dagq.Queue.PlanTouches
import Dagq.Queue.DraftPlanners
import Dagq.Supervise.ExitOnce
import Dagq.Supervise.ReviewGate
import Dagq.Domain.Transcript
import Dagq.Sessions.Turns
import Dagq.Stats.LandPhases
import Dagq.Stats.Reader
import Dagq.Sessions.Places
import Dagq.Landing.Atomic
import Dagq.Landing.Retries
import Dagq.Store.Unblocks
import Dagq.Store.Lint
import Dagq.Landing.Renumber
import Dagq.Domain.Time
import Dagq.Kpi.Periods
import Dagq.Kpi.Targets
import Dagq.Landing.FollowUpsOnce
import Dagq.Sessions.Work
import Dagq.Domain.Search
import Dagq.Stats.Cursors
import Dagq.Queue.Findings
import Dagq.Supervise.Holds
import Dagq.Store.SchemaSound
import Dagq.Store.SchemaMisread
import Dagq.Supervise.WaitRuns
import Dagq.Supervise.WaitLimits
import Dagq.Stats.Timeline
import Dagq.Supervise.UpdateAsks
