import OciJanus.Audit.Analytics
import OciJanus.Audit.ExportDrain
import OciJanus.Audit.NotificationWebhooks
import OciJanus.Audit.RepositoryViews
import OciJanus.Audit.Retention
import OciJanus.Audit.ScheduledNotifications
import OciJanus.Audit.SyslogExport
import OciJanus.Auth.DisableUser.Revocation
import OciJanus.Auth.KeyCache
import OciJanus.Auth.MfaCodes
import OciJanus.Auth.MfaLogin
import OciJanus.Auth.RemoteIP
import OciJanus.Auth.SessionLifetime
import OciJanus.Auth.Staleness
import OciJanus.Auth.TokenPolicies
import OciJanus.Auth.WorkloadExchange
import OciJanus.Core.Confinement
import OciJanus.Core.CvssAdmission
import OciJanus.Core.ManifestRoundTrip
import OciJanus.Core.ProtectedTags
import OciJanus.Core.Quarantine
import OciJanus.Core.Quota
import OciJanus.Core.Routes
import OciJanus.Crypto.Rekey
import OciJanus.Egress.Webhooks
import OciJanus.Gc.BlobAccounting
import OciJanus.Gc.GraceWindow
import OciJanus.Gc.QueuedSweep
import OciJanus.Gc.Reachability
import OciJanus.Gc.RunHistory
import OciJanus.Gc.TagsResolve
import OciJanus.Management.AdminGates
import OciJanus.Management.CompareTags
import OciJanus.Management.RepoGrants
import OciJanus.Management.RepositoryList
import OciJanus.Messaging.Confirms
import OciJanus.Messaging.Retries
import OciJanus.Metadata.PrMerge
import OciJanus.Metadata.PrRegistry
import OciJanus.Metadata.Remediations
import OciJanus.Metadata.RetentionPreview
import OciJanus.Metadata.RetentionRules
import OciJanus.Proxy.Blobs
import OciJanus.Proxy.CachePages
import OciJanus.Proxy.Challenge
import OciJanus.Proxy.Manifests
import OciJanus.Proxy.TokenCache
import OciJanus.Scanner.CachedImages
import OciJanus.Scanner.Exemptions
import OciJanus.Scanner.ReportDocument
import OciJanus.Storage.BlobStream
import OciJanus.Storage.Drivers
import OciJanus.Webhook.FanOut
import OciJanus.Webhook.RetrySchedule
