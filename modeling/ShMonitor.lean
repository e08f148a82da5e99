import ShMonitor.Workflow.Filed
import ShMonitor.Workflow.PartialBaseline
import ShMonitor.Workflow.History
import ShMonitor.Detection.Execution
import ShMonitor.Detection.ParseShSim
import ShMonitor.Detection.ParseDejagnu
import ShMonitor.Bisect.Freshness
import ShMonitor.Bisect.Blame
import ShMonitor.Bisect.ShSim
import ShMonitor.Bisect.ShSimExact
import ShMonitor.Bisect.Metric
import ShMonitor.Bisect.Csibe
import ShMonitor.Shell.Strict
import ShMonitor.Bisect.BuildGcc
import ShMonitor.Bisect.OwnSums
import ShMonitor.Bisect.BuildShElf
import ShMonitor.Texts.Table
import ShMonitor.Dashboard.Data
import ShMonitor.Texts.Places
import ShMonitor.Dashboard.Migrate
import ShMonitor.Dashboard.Trend
import ShMonitor.Dashboard.Retired
import ShMonitor.Dashboard.Charts
import ShMonitor.Dashboard.Publish
import ShMonitor.Dashboard.Days
import ShMonitor.Ranking
import ShMonitor.Sizes.DiffTotals
import ShMonitor.Texts.Fields
import ShMonitor.Sizes.NmSizes
import ShMonitor.Sizes.SizeSysv
import ShMonitor.Lra.Corpus
import ShMonitor.Texts.Substitute
import ShMonitor.Lra.LevelCompiled
import ShMonitor.Lra.M4Pass
import ShMonitor.Lra.Directive
import ShMonitor.Bisect.Session
import ShMonitor.Bisect.Driver
import ShMonitor.Workflow.Sync
import ShMonitor.Dashboard.Lanes
import ShMonitor.Dashboard.Badges
import ShMonitor.Dashboard.Site
import ShMonitor.Workflow.IssueText
import ShMonitor.Workflow.Bisected
import ShMonitor.Lra.Published
import ShMonitor.Merging
import ShMonitor.Sizes.Density
import ShMonitor.Workflow.Lifecycle
import ShMonitor.Concurrency
import ShMonitor.Workflow.Pipeline
import ShMonitor.Calendar
import ShMonitor.Dashboard.RangeChoice
