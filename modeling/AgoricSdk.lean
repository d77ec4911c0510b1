import AgoricSdk.SwingSet.TerminationCache
import AgoricSdk.ERTP.LedgerSystem
import AgoricSdk.Zoe.OfferSafety
import AgoricSdk.BundleInstall.Chain
import AgoricSdk.AddressHooks.Agreement
import AgoricSdk.Vstorage.Fifo
import AgoricSdk.VatTP.ExactlyOnce
import AgoricSdk.FastUsdc.TransactionFeed
import AgoricSdk.Portfolio.Reservation
import AgoricSdk.Portfolio.PartialFailure
import AgoricSdk.CosmicSwingset.CrashConsistency
import AgoricSdk.Portfolio.DelegationSafety
import AgoricSdk.Portfolio.PlanSettlement
import AgoricSdk.SwingSet.RefcountCompleteness
import AgoricSdk.Orchestration.TransferSafety
import AgoricSdk.Liveslots.VatSlotGrammar
import AgoricSdk.AsyncFlow.ReplayRuns
import AgoricSdk.AsyncFlow.WakeAll
import AgoricSdk.Liveslots.ExportRuns
import AgoricSdk.FastUsdc.PoolFairness
import AgoricSdk.Zoe.LiquidityPool
import AgoricSdk.FastUsdc.SettlementExactness
import AgoricSdk.AsyncFlow.Bijection
import AgoricSdk.Vstorage.Export
import AgoricSdk.Zoe.Rearrangement
import AgoricSdk.ERTP.RecoverySets
import AgoricSdk.Comms.WireFormat
import AgoricSdk.Storage.ReadCaching
import AgoricSdk.Fees.BeanConservation
import AgoricSdk.Timer.Notifier
import AgoricSdk.Vbank.RewardRuns
import AgoricSdk.Vbank.NewestBalance
import AgoricSdk.Portfolio.JobOutcomes
import AgoricSdk.Portfolio.FundedSteps
import AgoricSdk.Portfolio.MessageReplay
import AgoricSdk.Portfolio.TransferSafety
import AgoricSdk.Governance.VoteCounting
import AgoricSdk.Vow.RetryOutcome
import AgoricSdk.Vow.CombinedOutcome
import AgoricSdk.Inbound.QueueLimit
import AgoricSdk.Internal.RegisteredSenders
import AgoricSdk.Internal.NaturalOrder
import AgoricSdk.Internal.NetstringStream
import AgoricSdk.Vats.NameHubRuns
import AgoricSdk.SwingSet.VatstoreIsolation
import AgoricSdk.SmartWallet.OfferTracking
import AgoricSdk.Internal.WithQueue
