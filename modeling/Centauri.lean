import Centauri.Machine
import Centauri.Strings
import Centauri.Texts
import Centauri.LeadingBits
import Centauri.Framing
import Centauri.NetUrl
import Centauri.NetLocation
import Centauri.Expiring
import Centauri.Details
import Centauri.Store
import Centauri.JsonStore
import Centauri.RedisStore
import Centauri.StoreSimulation
import Centauri.RedisSaves
import Centauri.RedisLock
import Centauri.RedisLockSafety
import Centauri.RedisLockExclusion
import Centauri.RedisLockLease
import Centauri.CertificateManager
import Centauri.RenewalWindow
import Centauri.CertificatePaths
import Centauri.NullEntries
import Centauri.ProxyManager
import Centauri.RouteRenewal
import Centauri.JsonLocks
import Centauri.JsonLocksSafety
import Centauri.JsonLocksRaces
import Centauri.RouteFaults
import Centauri.ProviderIsolation
import Centauri.RouteTable
import Centauri.RouteSwaps
import Centauri.RouteSwapsServing
import Centauri.ManagerRules
import Centauri.RenewalOrders
import Centauri.RenewalHorizon
import Centauri.StoreRestarts
import Centauri.Suppliers
import Centauri.AcmeAccount
import Centauri.ServedNames
import Centauri.Stapling
import Centauri.RouteSwapsCalls
import Centauri.RouteLookup
import Centauri.Wildcards
import Centauri.RouteServing
import Centauri.RouteContinuity
import Centauri.Rewriter
import Centauri.Addresses
import Centauri.HttpHeader
import Centauri.Decorators
import Centauri.TrustedRanges
import Centauri.ErrorPages
import Centauri.ReverseProxy
import Centauri.HeaderValues
import Centauri.ErrorDelivery
import Centauri.InFlight
import Centauri.Recorder
import Centauri.Redirector
import Centauri.Metering
import Centauri.ConfigParser
import Centauri.ConfigBlocks
import Centauri.ConfigText
import Centauri.ConfigWriting
import Centauri.ErrorTargets
import Centauri.HttpsRedirect
import Centauri.FileSource
import Centauri.ReloadQueue
import Centauri.Lifecycle
import Centauri.NetworkSource
import Centauri.NetworkLoop
import Centauri.NetworkServing
import Centauri.Issuance
import Centauri.IssuanceCalls
import Centauri.IssuanceStore
import Centauri.IssuanceSafety
