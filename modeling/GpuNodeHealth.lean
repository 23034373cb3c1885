import GpuNodeHealth.Interaction.Program
import GpuNodeHealth.Interaction.Method
import GpuNodeHealth.Interaction.Calls
import GpuNodeHealth.Interaction.Processes
import GpuNodeHealth.Interaction.Contract
import GpuNodeHealth.Interaction.Clocked
import GpuNodeHealth.Calendar.Gregorian
import GpuNodeHealth.RateLimit.Packing
import GpuNodeHealth.RateLimit.SlidingWindow
import GpuNodeHealth.Debounce.Streak
import GpuNodeHealth.Cluster.Time
import GpuNodeHealth.Cluster.Objects
import GpuNodeHealth.Guard.Policy
import GpuNodeHealth.Guard.Conditions
import GpuNodeHealth.Guard.Decisions
import GpuNodeHealth.Guard.Capacity
import GpuNodeHealth.Guard.Guardrails
import GpuNodeHealth.Guard.Masking
import GpuNodeHealth.Guard.Config
import GpuNodeHealth.Guard.Client
import GpuNodeHealth.Guard.Leader
import GpuNodeHealth.Guard.Supervisor
import GpuNodeHealth.Guard.Main
import GpuNodeHealth.Guard.NodePass
import GpuNodeHealth.Guard.NodeRuns
import GpuNodeHealth.Guard.ExporterPass
import GpuNodeHealth.RateLimit.Cooldown
import GpuNodeHealth.Guard.Supervision
import GpuNodeHealth.Guard.LoopRequests
import GpuNodeHealth.Guard.LoopPass
import GpuNodeHealth.Guard.IdleFleet
import GpuNodeHealth.Guard.Publishing
import GpuNodeHealth.Replicas.LeaseServer
import GpuNodeHealth.Replicas.LeaseContract
import GpuNodeHealth.Replicas.Exclusion
import GpuNodeHealth.Replicas.Guards
import GpuNodeHealth.Replicas.StaleLeader
import GpuNodeHealth.Replicas.FleetLimit
import GpuNodeHealth.Text.Pattern
import GpuNodeHealth.Text.Lines
import GpuNodeHealth.Window.Baseline
import GpuNodeHealth.Files.FileSystem
import GpuNodeHealth.Files.Unread
import GpuNodeHealth.Agent.Rules
import GpuNodeHealth.Agent.Evaluator
import GpuNodeHealth.Agent.WindowLaw
import GpuNodeHealth.Agent.KernelLog
import GpuNodeHealth.Agent.LinesRead
import GpuNodeHealth.Agent.LogRuns
import GpuNodeHealth.Agent.Following
import GpuNodeHealth.Agent.Recurrence
import GpuNodeHealth.Agent.Publisher
import GpuNodeHealth.Agent.Transitions
import GpuNodeHealth.Agent.Dwell
import GpuNodeHealth.Agent.Collector
import GpuNodeHealth.Agent.Heartbeats
import GpuNodeHealth.Guard.ExporterRuns
import GpuNodeHealth.Guard.Coherence
import GpuNodeHealth.Guard.LostCordons
import GpuNodeHealth.Guard.Budget
import GpuNodeHealth.Guard.BlindCapacity
import GpuNodeHealth.Guard.Draining
import GpuNodeHealth.Guard.DryRun
import GpuNodeHealth.Guard.Degradation
import GpuNodeHealth.Guard.NodeTurns
import GpuNodeHealth.Guard.Witnessing
import GpuNodeHealth.Guard.RateLimitRefusals
import GpuNodeHealth.Replicas.Punctuality
import GpuNodeHealth.Window.Sightings
import GpuNodeHealth.Agent.DState
import GpuNodeHealth.Agent.Deployment
import GpuNodeHealth.Agent.Census
import GpuNodeHealth.Agent.HiddenTasks
import GpuNodeHealth.Agent.Freshness
import GpuNodeHealth.Text.Cuts
import GpuNodeHealth.Text.Format
import GpuNodeHealth.Agent.Chunks
import GpuNodeHealth.Agent.PatchLines
import GpuNodeHealth.Agent.StatLine
import GpuNodeHealth.Agent.Floats
import GpuNodeHealth.Cluster.StrictTime
import GpuNodeHealth.Text.Splitlines
import GpuNodeHealth.Agent.Evidence
import GpuNodeHealth.Agent.Exporter
import GpuNodeHealth.Agent.Samples
import GpuNodeHealth.Agent.Exposition
import GpuNodeHealth.Agent.MissingCards
import GpuNodeHealth.Agent.Attribution
import GpuNodeHealth.Agent.Resolver
import GpuNodeHealth.Agent.ProbeRuns
import GpuNodeHealth.Window.ClockSteps
import GpuNodeHealth.Agent.ClockSteps
import GpuNodeHealth.Text.Search
import GpuNodeHealth.Metrics.Doubles
import GpuNodeHealth.Metrics.Decimals
import GpuNodeHealth.Metrics.Numbers
import GpuNodeHealth.Metrics.Format
import GpuNodeHealth.Metrics.Registry
import GpuNodeHealth.Metrics.Reading
import GpuNodeHealth.Guard.Metrics
import GpuNodeHealth.Guard.MetricsRoundTrip
import GpuNodeHealth.Metrics.Groups
import GpuNodeHealth.Guard.MetricsGroups
import GpuNodeHealth.Agent.Metrics
import GpuNodeHealth.Agent.MetricsGroups
import GpuNodeHealth.Metrics.Lookup
import GpuNodeHealth.Tools.Recorder
import GpuNodeHealth.Tools.ReadBack
import GpuNodeHealth.Environment.Variables
import GpuNodeHealth.Guard.Environment
import GpuNodeHealth.Agent.MetricsRoundTrip
import GpuNodeHealth.Alerts.Queries
import GpuNodeHealth.Alerts.Firing
import GpuNodeHealth.Alerts.Values
import GpuNodeHealth.Alerts.Scraping
import GpuNodeHealth.Alerts.Rules
import GpuNodeHealth.Alerts.GuardPages
import GpuNodeHealth.Alerts.Refusals
import GpuNodeHealth.Guard.LastPass
import GpuNodeHealth.Alerts.Silence
import GpuNodeHealth.Alerts.AgentPages
import GpuNodeHealth.Alerts.AgentSilence
import GpuNodeHealth.Agent.Grounds
import GpuNodeHealth.Agent.Reporting
