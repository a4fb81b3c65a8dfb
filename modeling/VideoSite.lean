import VideoSite.Lib.Program
import VideoSite.Lib.Interleaving
import VideoSite.Lib.Protocol
import VideoSite.Lib.Serial
import VideoSite.Lib.FixedWindow
import VideoSite.Lib.Dict
import VideoSite.Lib.Url
import VideoSite.Lib.Separators
import VideoSite.Lib.PythonText
import VideoSite.Lib.Growth
import VideoSite.Lib.Rbac
import VideoSite.Lib.CookieJar
import VideoSite.Users.TokenLiveness
import VideoSite.Users.VerifiedEmail
import VideoSite.Users.Lineage
import VideoSite.Users.CacheRoundTrip
import VideoSite.Users.AuthCache
import VideoSite.Users.Lockout
import VideoSite.Users.RefreshOnce
import VideoSite.Users.Atomicity
import VideoSite.Users.RedeemOnce
import VideoSite.Users.CacheRace
import VideoSite.Users.AccountRace
import VideoSite.Users.LockoutRace
import VideoSite.Users.LimiterCrash
import VideoSite.Users.LockoutExact
import VideoSite.Users.ResetLinks
import VideoSite.Users.NewestLink
import VideoSite.Users.Activity
import VideoSite.Users.Isolation
import VideoSite.Users.PasswordStore
import VideoSite.Users.Enumeration
import VideoSite.Users.Conflicts
import VideoSite.Users.SignOuts
import VideoSite.Users.AuditTruth
import VideoSite.Users.ProfileEdits
import VideoSite.Users.SessionRace
import VideoSite.Users.DefaultRole
import VideoSite.Users.ColumnLengths
import VideoSite.Users.Csrf
import VideoSite.Users.StoredHashes
import VideoSite.Users.Lifetime
import VideoSite.Users.Inventory
import VideoSite.Users.MailedLinks
import VideoSite.Users.AuditLog
import VideoSite.Users.Commits
import VideoSite.Users.Doors
import VideoSite.Users.Rights
import VideoSite.Users.Staleness
import VideoSite.Users.Seed
import VideoSite.Users.Devices
import VideoSite.Users.BrowserCookies
import VideoSite.Users.Browser
import VideoSite.Gateway.ForwardedHeaders
import VideoSite.Gateway.EndToEnd
import VideoSite.Gateway.ClientAddress
import VideoSite.Gateway.Paths
import VideoSite.Gateway.SharedClient
import VideoSite.Gateway.AnnouncedRights
import VideoSite.Gateway.Routing
import VideoSite.Gateway.Site
import VideoSite.Gateway.Front
