import Zt.SubscriptionRuns
import Zt.RouterSync
import Zt.ChangeSets
import Zt.AccessSections
import Zt.IdentityCounts
import Zt.CheckCounts
import Zt.SenderStates
import Zt.RebuildRuns
import Zt.RecoveryCodes
import Zt.AuthRequests
import Zt.EnrollmentReplicas
import Zt.CertLogins
import Zt.ProcessAgreement
import Zt.RouteUpdates
import Zt.CircuitCounts
import Zt.RerouteRuns
import Zt.LinkAccounts
import Zt.DnsNames
import Zt.AddressPool
import Zt.PostureSweeps
import Zt.PolicyUpdates
import Zt.RouterTunnels
import Zt.MfaDeadlines
import Zt.PostureInstances
import Zt.LinkMetrics
import Zt.LinkDuplicates
import Zt.UdpConns
import Zt.SessionRemovals
import Zt.Reestablishing
