import RefinetPillars.PillarStakingFees
import RefinetPillars.PillarStakingLiveness
import RefinetPillars.PillarStakingExemption
import RefinetPillars.PillarStakingReregistration
import RefinetPillars.PillarStakingRecordOrder
import RefinetPillars.PillarStakingWithdrawal
import RefinetPillars.StakingReaderDirectory
import RefinetPillars.LivenessMonitorCursor
import RefinetPillars.LivenessMonitorCoverage
import RefinetPillars.KeyRecoveryFingerprint
import RefinetPillars.KeyRecoverySecrecy
import RefinetPillars.EncryptedChannelNonces
import RefinetPillars.EncryptedChannelReplay
import RefinetPillars.NonceRegistryInterleaving
import RefinetPillars.AuditLogInterleaving
import RefinetPillars.AuditLogEvidence
import RefinetPillars.SiweSessionOrigin
import RefinetPillars.ResponseTrailerSoundness
import RefinetPillars.SigningPurposes
import RefinetPillars.GopherholeReplication
import RefinetPillars.GopherholeConvergence
import RefinetPillars.HttpGatewayAnswers
import RefinetPillars.GopherTransports
import RefinetPillars.StaticFiles
import RefinetPillars.AdmissionFreshness
import RefinetPillars.BindingCreation
import RefinetPillars.WellKnownAgreement
import RefinetPillars.PeerListenerAddresses
import RefinetPillars.ChainDiscoveryIsolation
import RefinetPillars.GopherholeIsolation
import RefinetPillars.ServiceReceiptsOnce
import RefinetPillars.PidFileCrashes
import RefinetPillars.VaultOwners
import RefinetPillars.ArchiveTotals
import RefinetPillars.OnboardingBinding
import RefinetPillars.StoreGrowthBounds
import RefinetPillars.ExtensionAnswers
import RefinetPillars.ForwardProxyConnections
import RefinetPillars.StakingAbiCodec
import RefinetPillars.PeerAdmissionCompleteness
import RefinetPillars.StakingStatusOrder
import RefinetPillars.WalletBindingLink
import RefinetPillars.RemoteBrowsing
import RefinetPillars.GopherholeNamespaces
import RefinetPillars.SignedJson
import RefinetPillars.LivenessSubmissions
import RefinetPillars.LivenessDryRun
import RefinetPillars.LivenessRounds
import RefinetPillars.LivenessOffline
import RefinetPillars.SiweFields
import RefinetPillars.WatchdogAudit
import RefinetPillars.OrderedDict
import RefinetPillars.RateLimiter
import RefinetPillars.Profiles
import RefinetPillars.RegularExpressions
import RefinetPillars.DomainNames
import RefinetPillars.AnnouncementReplay
import RefinetPillars.GatewayRequests
import RefinetPillars.ForwardedFor
import RefinetPillars.ServingCounters
import RefinetPillars.TransportAgreement
import RefinetPillars.GopherClient
import RefinetPillars.PillarClient
import RefinetPillars.BridgeOrigins
import RefinetPillars.TransactionBroadcast
import RefinetPillars.GopherUrls
import RefinetPillars.DocumentVerifiers
import RefinetPillars.ProofSubmissions
import RefinetPillars.GopherMenus
import RefinetPillars.StakeStatusSdk
import RefinetPillars.StakeReadersAgreement
import RefinetPillars.NewestWrite
import RefinetPillars.PillarStakingAuthority
import RefinetPillars.PillarStakingCustody
import RefinetPillars.ContractStandings
import RefinetPillars.SessionLifecycle
import RefinetPillars.PeerBook
import RefinetPillars.PeerHealth
import RefinetPillars.RestartBudget
import RefinetPillars.TorManager
import RefinetPillars.KeyPossession
import RefinetPillars.DictUpdates
import RefinetPillars.Configuration
import RefinetPillars.HeadedBlocks
import RefinetPillars.DAppDefinitions
import RefinetPillars.DirectoryBrowsing
import RefinetPillars.ArchiveRetention
import RefinetPillars.DecimalFractions
import RefinetPillars.MoneyAmounts
