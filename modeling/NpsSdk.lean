import NpsSdk.Nip.Ca.Sessions
import NpsSdk.Nip.Ca.SessionScope
import NpsSdk.Nip.Ca.CascadeComplete
import NpsSdk.Nip.Ca.RevokedSerials
import NpsSdk.Nip.Ca.StoreAgreement
import NpsSdk.Nip.Ca.DecidedOnce
import NpsSdk.Nip.Ca.IssuedFrames
import NpsSdk.Nip.X509.ChainTrust
import NpsSdk.Nip.Acme.Statuses
import NpsSdk.Core.HeaderLayouts
import NpsSdk.Ncp.StreamLimit
import NpsSdk.Ncp.StreamWindow
import NpsSdk.Ncp.VersionAgreement
import NpsSdk.Ncp.SameSession
import NpsSdk.Nwp.EpochLiveness
import NpsSdk.Ndp.AnnounceCoverage
import NpsSdk.Alpha20.AdmissionReplay
import NpsSdk.Nwp.ContextLimit
import NpsSdk.Nwp.ContextTranscripts
import NpsSdk.Nwp.ContextIsolation
import NpsSdk.Nwp.ActionStreams
import NpsSdk.Nwp.TaskCancellation
import NpsSdk.Nwp.LlmStreams
import NpsSdk.Nwp.TopologyStream
import NpsSdk.Nop.ClusterDelegation
import NpsSdk.Nwp.NativeAvailability
import NpsSdk.Nwp.Reputation
import NpsSdk.Nwp.Inbound.Resources
import NpsSdk.Nwp.Inbound.SkillNames
import NpsSdk.Wire.RoundTrip
import NpsSdk.Nwp.GraphExpansion
import NpsSdk.Core.AnchorFreshness
import NpsSdk.Core.ContentAddressing
import NpsSdk.Ncp.SocketFraming
import NpsSdk.Core.VectorRoundTrip
import NpsSdk.Core.CodecStream
import NpsSdk.Nop.SchedulingDiscipline
import NpsSdk.Nip.SigningSerialisers
import NpsSdk.Nwp.ChildUrls
import NpsSdk.Nop.PortableLease
import NpsSdk.Nop.ConditionMeaning
import NpsSdk.Nop.PortableCompensation
import NpsSdk.Nip.AttestedLists
import NpsSdk.Nip.StapleFreshness
import NpsSdk.Nop.StreamIntegrity
import NpsSdk.Nwp.Query.WellFormedSql
import NpsSdk.Core.VectorBounds
import NpsSdk.Nip.RevocationClosed
import NpsSdk.Ndp.TargetResolution
import NpsSdk.Nwp.LimitClamping
import NpsSdk.Nwp.Query.PageBounds
import NpsSdk.Nwp.Query.Projection
import NpsSdk.Ndp.AnnounceRelay
import NpsSdk.Ncp.FailoverConnector
