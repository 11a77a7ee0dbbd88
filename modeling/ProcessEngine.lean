import ProcessEngine.Binary64.Layout
import ProcessEngine.Binary64.Parts
import ProcessEngine.Binary64.Reading
import ProcessEngine.Binary64.Remainder
import ProcessEngine.Binary64.Shortest
import ProcessEngine.Closure
import ProcessEngine.CommandLine.Arguments
import ProcessEngine.CommandLine.Command
import ProcessEngine.Compensation.Coordinator
import ProcessEngine.Compensation.Json
import ProcessEngine.Compensation.Plan
import ProcessEngine.Compensation.Record
import ProcessEngine.Compensation.RetryPolicy
import ProcessEngine.Config.Basic
import ProcessEngine.Config.Reading
import ProcessEngine.Definition.Basic
import ProcessEngine.Definition.Json
import ProcessEngine.Definition.Reachability
import ProcessEngine.Definition.Validation
import ProcessEngine.Engine.Basic
import ProcessEngine.Engine.Lifecycle
import ProcessEngine.Engine.Run
import ProcessEngine.Engine.Traversal
import ProcessEngine.Error
import ProcessEngine.Event.Basic
import ProcessEngine.Event.Bus
import ProcessEngine.Event.Json
import ProcessEngine.Expression.Basic
import ProcessEngine.Expression.Evaluation
import ProcessEngine.Expression.Grammar
import ProcessEngine.Expression.Source
import ProcessEngine.Frame
import ProcessEngine.Gateway.Activation
import ProcessEngine.Gateway.Routing
import ProcessEngine.GatewayState.Basic
import ProcessEngine.GatewayState.Json
import ProcessEngine.GatewayState.Store
import ProcessEngine.Instance.Basic
import ProcessEngine.Instance.Json
import ProcessEngine.Instant
import ProcessEngine.Json.Reader
import ProcessEngine.Json.Record
import ProcessEngine.Json.Writer
import ProcessEngine.Main
import ProcessEngine.Proofs.Action
import ProcessEngine.Proofs.Binary64.Nearest
import ProcessEngine.Proofs.Binary64.Value
import ProcessEngine.Proofs.Closure
import ProcessEngine.Proofs.Compensation.Attempts
import ProcessEngine.Proofs.Compensation.Backoff
import ProcessEngine.Proofs.Compensation.OldPlans
import ProcessEngine.Proofs.Compensation.Operations
import ProcessEngine.Proofs.Compensation.Records
import ProcessEngine.Proofs.Compensation.RetryAccounts
import ProcessEngine.Proofs.Compensation.Scopes
import ProcessEngine.Proofs.Compensation.Selection
import ProcessEngine.Proofs.Definition.Elements
import ProcessEngine.Proofs.Definition.Reachability
import ProcessEngine.Proofs.Definition.RoundTrip
import ProcessEngine.Proofs.Definition.Valid
import ProcessEngine.Proofs.Engine.Additions
import ProcessEngine.Proofs.Engine.Bookkeeping
import ProcessEngine.Proofs.Engine.BusinessKey
import ProcessEngine.Proofs.Engine.CarriedForks
import ProcessEngine.Proofs.Engine.CompensationLog
import ProcessEngine.Proofs.Engine.Conservation
import ProcessEngine.Proofs.Engine.CutWalks
import ProcessEngine.Proofs.Engine.Ending
import ProcessEngine.Proofs.Engine.EventLifecycle
import ProcessEngine.Proofs.Engine.ExclusiveChoice
import ProcessEngine.Proofs.Engine.FailedCall
import ProcessEngine.Proofs.Engine.Failures
import ProcessEngine.Proofs.Engine.ForkJoin
import ProcessEngine.Proofs.Engine.HistoryLog
import ProcessEngine.Proofs.Engine.Kept
import ProcessEngine.Proofs.Engine.Lasting
import ProcessEngine.Proofs.Engine.ParkedTokens
import ProcessEngine.Proofs.Engine.Reachable
import ProcessEngine.Proofs.Engine.ReachedElements
import ProcessEngine.Proofs.Engine.Runs
import ProcessEngine.Proofs.Engine.SelectedBranches
import ProcessEngine.Proofs.Engine.Sound
import ProcessEngine.Proofs.Engine.Stages
import ProcessEngine.Proofs.Engine.StepCount
import ProcessEngine.Proofs.Engine.StepLimit
import ProcessEngine.Proofs.Engine.Successes
import ProcessEngine.Proofs.Engine.Suspension
import ProcessEngine.Proofs.Engine.TokenChoice
import ProcessEngine.Proofs.Engine.Turns
import ProcessEngine.Proofs.Engine.ValidRuns
import ProcessEngine.Proofs.Engine.Visit
import ProcessEngine.Proofs.Engine.Walk
import ProcessEngine.Proofs.Event.RoundTrip
import ProcessEngine.Proofs.Event.Shape
import ProcessEngine.Proofs.Expression.Consumption
import ProcessEngine.Proofs.Expression.ExactIntegers
import ProcessEngine.Proofs.Expression.Operands
import ProcessEngine.Proofs.Expression.Pieces
import ProcessEngine.Proofs.Expression.PureReferences
import ProcessEngine.Proofs.Expression.ReadBack
import ProcessEngine.Proofs.Expression.ReadPaths
import ProcessEngine.Proofs.Expression.References
import ProcessEngine.Proofs.Expression.Rendering
import ProcessEngine.Proofs.Expression.Spacing
import ProcessEngine.Proofs.Expression.Tails
import ProcessEngine.Proofs.Expression.TokenTails
import ProcessEngine.Proofs.Expression.Tokens
import ProcessEngine.Proofs.Fields
import ProcessEngine.Proofs.Frame.Branches
import ProcessEngine.Proofs.Frame.Common
import ProcessEngine.Proofs.Frame.Merge
import ProcessEngine.Proofs.Gateway.ActiveJoins
import ProcessEngine.Proofs.Gateway.Closing
import ProcessEngine.Proofs.Gateway.Counting
import ProcessEngine.Proofs.Gateway.Course
import ProcessEngine.Proofs.Gateway.Effect
import ProcessEngine.Proofs.Gateway.Family
import ProcessEngine.Proofs.Gateway.GuardedRouting
import ProcessEngine.Proofs.Gateway.Inclusive
import ProcessEngine.Proofs.Gateway.Interrupted
import ProcessEngine.Proofs.Gateway.Join
import ProcessEngine.Proofs.Gateway.Outlets
import ProcessEngine.Proofs.Gateway.ParallelFork
import ProcessEngine.Proofs.Gateway.ParallelJoin
import ProcessEngine.Proofs.Gateway.Places
import ProcessEngine.Proofs.Gateway.Ready
import ProcessEngine.Proofs.Gateway.Rounds
import ProcessEngine.Proofs.Gateway.Selection
import ProcessEngine.Proofs.Gateway.Sound
import ProcessEngine.Proofs.Gateway.Stacks
import ProcessEngine.Proofs.Isolation.Calls
import ProcessEngine.Proofs.Isolation.Coordinators
import ProcessEngine.Proofs.Isolation.Desks
import ProcessEngine.Proofs.Isolation.Gateways
import ProcessEngine.Proofs.Isolation.Runs
import ProcessEngine.Proofs.Isolation.Sessions
import ProcessEngine.Proofs.Isolation.Stores
import ProcessEngine.Proofs.Json.Record
import ProcessEngine.Proofs.Lists
import ProcessEngine.Proofs.Renaming.Calls
import ProcessEngine.Proofs.Renaming.Concurrence
import ProcessEngine.Proofs.Renaming.Engines
import ProcessEngine.Proofs.Renaming.Gateway
import ProcessEngine.Proofs.Renaming.Runs
import ProcessEngine.Proofs.Renaming.States
import ProcessEngine.Proofs.Renaming.Walk
import ProcessEngine.Proofs.Store.Arrivals
import ProcessEngine.Proofs.Store.Coherent
import ProcessEngine.Proofs.Store.Operations
import ProcessEngine.Proofs.Store.Snapshot
import ProcessEngine.Proofs.Store.States
import ProcessEngine.Proofs.Store.Tables
import ProcessEngine.Proofs.Supply
import ProcessEngine.Supply
import ProcessEngine.Text.Blank
import ProcessEngine.Text.Digits
import ProcessEngine.Text.Split
import ProcessEngine.Token
import ProcessEngine.Uid
import ProcessEngine.Value
import ProcessEngine.Workspace
import ProcessEngine.Yaml.Cursor
import ProcessEngine.Yaml.Document
import ProcessEngine.Yaml.Node
import ProcessEngine.Yaml.Scalar
import ProcessEngine.Yaml.Scalar.Block
import ProcessEngine.Yaml.Scalar.Gap
import ProcessEngine.Yaml.Scalar.Plain
import ProcessEngine.Yaml.Scalar.Quoted
import ProcessEngine.Yaml.Tag
import ProcessEngine.Yaml.Token
