import Hy2Link.AccountRoundTrip
import Hy2Link.Admin.ClientAddress
import Hy2Link.Admin.LoginLimit
import Hy2Link.Admin.PasswordChange
import Hy2Link.BusyReport
import Hy2Link.CandidateAgreement
import Hy2Link.Client.BusyLadder
import Hy2Link.Client.DirectFrames
import Hy2Link.Client.ForcedRetry
import Hy2Link.Client.PathCap
import Hy2Link.Client.PinnedFingerprint
import Hy2Link.Client.RelayOnly
import Hy2Link.Client.SessionBudget
import Hy2Link.Client.SessionRelease
import Hy2Link.Client.SignalMatching
import Hy2Link.Client.StandbyHysteresis
import Hy2Link.Client.TrialRounds
import Hy2Link.Client.TriggerDrops
import Hy2Link.Congestion.QUICDC
import Hy2Link.PeerAgreement
import Hy2Link.PortPrediction
import Hy2Link.Server.BanPersistence
import Hy2Link.Server.Charging
import Hy2Link.Server.Ownership
import Hy2Link.Server.PeerAttribution
import Hy2Link.Server.PinnedLeases
import Hy2Link.Server.PunchAtomicity
import Hy2Link.Server.PunchDelivery
import Hy2Link.Server.PushIsolation
import Hy2Link.Server.QuotaSweep
import Hy2Link.Server.Replacement
import Hy2Link.Server.ResponderCapacity
import Hy2Link.Server.Revocation
import Hy2Link.Server.SourceIntegrity
import Hy2Link.Server.StunLimiter
import Hy2Link.Server.Takeover
import Hy2Link.Store.ErrorAtomicity
import Hy2Link.Store.Reopen
import Hy2Link.UdpPlanes
