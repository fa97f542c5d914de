import LaunchAuditor.Proofs.Inclusion
import LaunchAuditor.Proofs.AnchoredOnce
import LaunchAuditor.Proofs.Recording
import LaunchAuditor.Proofs.LogChain
import LaunchAuditor.Proofs.Verifier
import LaunchAuditor.Proofs.RoundTrip
import LaunchAuditor.Proofs.Gate
import LaunchAuditor.Proofs.Spend
import LaunchAuditor.Proofs.DailyCap
import LaunchAuditor.Proofs.Halt
import LaunchAuditor.Proofs.Phantom
import LaunchAuditor.Proofs.Pause
import LaunchAuditor.Proofs.Housekeeping
import LaunchAuditor.Proofs.Conservation
import LaunchAuditor.Proofs.ActivationCap
import LaunchAuditor.Proofs.Scheduling
import LaunchAuditor.Proofs.Transparency
import LaunchAuditor.Proofs.Panel
import LaunchAuditor.Proofs.InsiderExit
import LaunchAuditor.Proofs.Replay
import LaunchAuditor.Proofs.Measurement
import LaunchAuditor.Proofs.HistoryFree
import LaunchAuditor.Proofs.PollerSafety
import LaunchAuditor.Proofs.Enqueue
import LaunchAuditor.Proofs.LookAhead
import LaunchAuditor.Proofs.Baselines
import LaunchAuditor.Report.Assess
import LaunchAuditor.Watcher.Creator
import LaunchAuditor.Watcher.Holders
import LaunchAuditor.Watcher.PoolActivity
import LaunchAuditor.Proofs.Completion
import LaunchAuditor.Proofs.Duplicates
import LaunchAuditor.Proofs.PriorExits
import LaunchAuditor.Proofs.PoolChoice
import LaunchAuditor.Api.VerifyReceipt
import LaunchAuditor.Proofs.ReceiptClasses
import LaunchAuditor.Proofs.Independence
import LaunchAuditor.Proofs.MinSample
import LaunchAuditor.Proofs.ClaimGate
import LaunchAuditor.Proofs.Accounting
import LaunchAuditor.Proofs.Quota
import LaunchAuditor.Proofs.Artifacts
import LaunchAuditor.Leaderboard.Statistics
import LaunchAuditor.Lib.Tally
import LaunchAuditor.Commit.Artifacts
import LaunchAuditor.Proofs.FeedPages
import LaunchAuditor.Proofs.Decision
import LaunchAuditor.Proofs.EntryChain
import LaunchAuditor.Lib.Rounding
import LaunchAuditor.Proofs.Reconciled
import LaunchAuditor.Contracts.CommitRegistry
import LaunchAuditor.Proofs.Registry
import LaunchAuditor.Proofs.Trades
import LaunchAuditor.Outcomes.Loop
import LaunchAuditor.Lib.Pieces
import LaunchAuditor.Api.Funding
import LaunchAuditor.Proofs.Funding
import LaunchAuditor.Lib.Decimal
import LaunchAuditor.Lib.Floating
import LaunchAuditor.Lib.JsonString
import LaunchAuditor.Lib.JsonRoundTrip
import LaunchAuditor.Metabolism.SessionSeed
import LaunchAuditor.Proofs.Seeding
import LaunchAuditor.Proofs.BudgetTerms
import LaunchAuditor.Proofs.ScanStart
import LaunchAuditor.Proofs.TokenRate
import LaunchAuditor.Proofs.LogRetrieval
import LaunchAuditor.Proofs.InsiderOrder
import LaunchAuditor.Proofs.PairwiseAuroc
import LaunchAuditor.Proofs.BlockSearch
import LaunchAuditor.Proofs.Impairment
import LaunchAuditor.Proofs.DrawdownRounding
import LaunchAuditor.Proofs.MostTraded
import LaunchAuditor.Proofs.Posts
import LaunchAuditor.Proofs.SweepRuns
import LaunchAuditor.Proofs.Sweeps
import LaunchAuditor.Lib.JsonValue
import LaunchAuditor.Proofs.DeLongVariance
import LaunchAuditor.Proofs.AveragePrecision
import LaunchAuditor.Proofs.SearchBounds
import LaunchAuditor.Proofs.HolderShares
import LaunchAuditor.Alerts
import LaunchAuditor.Proofs.AlertMemory
import LaunchAuditor.Proofs.CleanCall
import LaunchAuditor.Proofs.DevBuy
import LaunchAuditor.Watcher.SellFacts
import LaunchAuditor.Proofs.SellEvidence
import LaunchAuditor.Proofs.ScanSignals
import LaunchAuditor.Proofs.TaxUnits
import LaunchAuditor.Lib.RoundRobin
import LaunchAuditor.Proofs.FairSelection
import LaunchAuditor.Deepdive.OpenRouter
import LaunchAuditor.Proofs.ReportedCosts
import LaunchAuditor.Lib.HanleyMcNeil
import LaunchAuditor.Proofs.StandardError
import LaunchAuditor.Proofs.ServedReceipts
import LaunchAuditor.Proofs.OAuthStore
import LaunchAuditor.Proofs.Investigation
import LaunchAuditor.Proofs.ArtifactRepair
import LaunchAuditor.Proofs.QueueDrains
import LaunchAuditor.Proofs.Snapshot
