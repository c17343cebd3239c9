import Rebuilderd.Daemon.Exclusive
import Rebuilderd.Daemon.Assignees
import Rebuilderd.Daemon.Atomicity
import Rebuilderd.Daemon.Forgotten
import Rebuilderd.Daemon.Limits
import Rebuilderd.Daemon.SeenBinaries
import Rebuilderd.Daemon.Reclaim
import Rebuilderd.Daemon.LatestRebuild
import Rebuilderd.Daemon.Provenance
import Rebuilderd.Tools.Skipped
import Rebuilderd.Daemon.Compat
import Rebuilderd.Worker.Coherent
import Rebuilderd.Worker.Supported
import Rebuilderd.Daemon.QueueListing
import Rebuilderd.Daemon.SourceListing
import Rebuilderd.Daemon.Backoff
import Rebuilderd.Daemon.RetryDelay
import Rebuilderd.Daemon.PeerRaces
import Rebuilderd.Daemon.BinaryFilters
import Rebuilderd.Daemon.ArtifactLogs
import Rebuilderd.Daemon.Visible
import Rebuilderd.Daemon.BulkRequeue
import Rebuilderd.Daemon.Written
import Rebuilderd.Daemon.CompatStatus
import Rebuilderd.Daemon.Search
import Rebuilderd.Daemon.PeerFetch
import Rebuilderd.Daemon.Meta
import Rebuilderd.Daemon.Authentication
import Rebuilderd.Daemon.CompatDashboard
import Rebuilderd.Daemon.QueueEntries
import Rebuilderd.Daemon.Delays
import Rebuilderd.Daemon.Conditional
import Rebuilderd.Daemon.Resubmitted
import Rebuilderd.Migrations.Preserved
import Rebuilderd.Tools.SourcesRoundTrip
import Rebuilderd.Tools.SourceVersions
import Rebuilderd.Tools.Panics
import Rebuilderd.Tools.DebianArtifacts
import Rebuilderd.Common.Config
import Rebuilderd.Daemon.StatsHistory
import Rebuilderd.Daemon.Signing
import Rebuilderd.Daemon.PeerAnswers
import Rebuilderd.Worker.CaptureLimits
import Rebuilderd.Worker.CompareBuffers
import Rebuilderd.Tools.MirrorUrl
import Rebuilderd.Tools.Descriptions
import Rebuilderd.Tools.FreeBsdOrder
import Rebuilderd.Daemon.Rounds
import Rebuilderd.Worker.ProcessOutput
import Rebuilderd.Worker.Signals
import Rebuilderd.Worker.Deadline
import Rebuilderd.Migrations.Upgrade
import Rebuilderd.Daemon.Integrity
import Rebuilderd.Common.KeyFile
import Rebuilderd.Daemon.Holders
import Rebuilderd.Daemon.KeptJobs
import Rebuilderd.Tools.Mirrored
import Rebuilderd.Daemon.GoodArtifacts
import Rebuilderd.Daemon.Offers
import Rebuilderd.Worker.Reproduced
