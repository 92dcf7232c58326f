import ZNC.MessageType
import ZNC.AltNick
import ZNC.HttpRequest
import ZNC.CapBookkeeping
import ZNC.ISupportTables
import ZNC.ChanModes
import ZNC.OwnStatus
import ZNC.FloodBurst
import ZNC.Playback
import ZNC.FanOut
import ZNC.LoginOnce
import ZNC.SaslGuard
import ZNC.SaslChunks
import ZNC.JoinLines
import ZNC.Broadcast
import ZNC.ForwardedFor
import ZNC.BufferBound
import ZNC.PrefixDowngrade
import ZNC.ConnectQueue
import ZNC.DnsConnect
import ZNC.WebUsers
import ZNC.RouteIsolation
import ZNC.Traffic
import ZNC.TemplateLoop
import ZNC.SaslPause
import ZNC.ServerDependentCaps
import ZNC.FileLines
import ZNC.FloodDetach
import ZNC.AutoOp
import ZNC.AutoOpSaved
import ZNC.StickyChan
import ZNC.AutoVoice
import ZNC.AnonLimit
import ZNC.HookDispatch
import ZNC.IdentFile
import ZNC.ThreadPoolJobs
import ZNC.GlobalRestart
import ZNC.Base64Wrap
import ZNC.ParamSlices
import ZNC.StripControls
import ZNC.BounceDcc
import ZNC.ChgHost
import ZNC.CtcpFlood
import ZNC.ExpandFile
import ZNC.CsrfToken
import ZNC.AliasImprint
import ZNC.FormatTime
import ZNC.ValidIf
import ZNC.CidrMatch
import ZNC.DebugFilter
import ZNC.CryptRoundTrip
import ZNC.Unban
import ZNC.CapReplies
import ZNC.NamesReplay
import ZNC.DelServer
import ZNC.DccSend
import ZNC.Perform
import ZNC.AutoAttach
import ZNC.Watch
import ZNC.AwayStore
import ZNC.SHA256
import ZNC.SSLVerifyHost
import ZNC.CheckPass
