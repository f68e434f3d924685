import OxidHome.Library.Machine
import OxidHome.Library.Gaps
import OxidHome.Projection.DeltaPoll
import OxidHome.Projection.History
import OxidHome.Projection.SlotCaps
import OxidHome.Host.Capability
import OxidHome.Host.DeviceIds
import OxidHome.Audit.Pagination
import OxidHome.Audit.Coverage
import OxidHome.Api.RateWindow
import OxidHome.Api.ResponseCap
import OxidHome.Api.McpOutcomes
import OxidHome.History.LogReadBack
import OxidHome.Api.AllDevicesState
import OxidHome.Api.SnapshotPage
import OxidHome.Api.Resync
import OxidHome.Events.Isolation
import OxidHome.Events.Wake
import OxidHome.Services.Accounting
import OxidHome.Lifecycle.Discipline
import OxidHome.Auth.TokenText
import OxidHome.Api.ResourceUri
import OxidHome.Dispatch.Deadlock
import OxidHome.Dispatch.Authorized
import OxidHome.Uninstall.Uninstalled
import OxidHome.History.Pagination
import OxidHome.History.Tail
import OxidHome.Storage.KvQuota
import OxidHome.Storage.BlobReads
import OxidHome.Installed.Table
import OxidHome.Manifest.Capabilities
import OxidHome.Installed.Coherence
import OxidHome.Installed.DevLoad
import OxidHome.Installed.Recovery
import OxidHome.Installed.Identity
import OxidHome.Api.SessionAccounting
import OxidHome.Engine.Exclusivity
import OxidHome.Engine.Drain
import OxidHome.History.LogFlush
import OxidHome.Storage.DashboardAddresses
import OxidHome.Host.LiveOrder
import OxidHome.Projection.AdmittedWrites
import OxidHome.Storage.KvReads
import OxidHome.Storage.PrefixListing
import OxidHome.Manifest.NetworkRule
import OxidHome.Manifest.NetworkText
import OxidHome.Manifest.NetworkGrammar
import OxidHome.Manifest.Config
import OxidHome.Manifest.ConfigMerge
import OxidHome.Host.ConfigListing
import OxidHome.Installed.DigestBinding
import OxidHome.Storage.BootSweep
import OxidHome.Api.TicketUrl
import OxidHome.Host.Refusals
import OxidHome.Api.Confinement
