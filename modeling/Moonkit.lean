import Moonkit.Proofs.PaidOnce
import Moonkit.Base.TypedData
import Moonkit.Base.Counter
import Moonkit.Precompiles
import Moonkit.PrecompilesMock
import Moonkit.CallPermit
import Moonkit.Eip2612
import Moonkit.Erc20Balances
import Moonkit.Proofs.Allowances
import Moonkit.Erc20Assets
import Moonkit.Proofs.Permits
import Moonkit.Batch
import Moonkit.Proofs.PermitReplay
import Moonkit.Proofs.WriteOnce
import Moonkit.Proofs.Availability
import Moonkit.Proofs.Authorship
import Moonkit.AsyncBacking
import Moonkit.RandomnessMock
import Moonkit.Proofs.Velocity
import Moonkit.Proofs.SlotDurations
import Moonkit.Proofs.VrfAuthor
import Moonkit.Migrations
import Moonkit.Proofs.MigrateOnce
import Moonkit.MaintenanceMode
import Moonkit.Proofs.Maintenance
import Moonkit.AuthorMapping
import Moonkit.Proofs.Registrations
import Moonkit.Proofs.Deposits
import Moonkit.Proofs.Ownership
import Moonkit.Proofs.WeightAccounting
import Moonkit.Base.Window
import Moonkit.Proofs.StorageRoots
import Moonkit.RelayStorageRoots
import Moonkit.AuthorSlotFilter
import Moonkit.Proofs.EligibleAuthors
import Moonkit.Base.Inverse
import Moonkit.ForeignAssetCreator
import Moonkit.Proofs.ForeignAssets
import Moonkit.BlockBuilder
import Moonkit.Proofs.CoreClaims
import Moonkit.Proofs.BatchModes
import Moonkit.Proofs.Spending
import Moonkit.Proofs.Refusals
import Moonkit.EmergencyParaXcm
import Moonkit.Proofs.Approvals
import Moonkit.Proofs.BatchGas
import Moonkit.Proofs.Capacity
import Moonkit.Proofs.EmergencyPause
import Moonkit.Base.LastWrite
import Moonkit.Proofs.GenesisRegistrations
import Moonkit.Base.WalkBack
import Moonkit.Proofs.RelayParents
import Moonkit.BasicCollator
import Moonkit.Proofs.RelayForks
import Moonkit.Base.Multiples
import Moonkit.SlotTimer
import Moonkit.Proofs.ProductionInstants
import Moonkit.Proofs.ReportedSlots
import Moonkit.Proofs.AuthoringDeadline
import Moonkit.Proofs.MigrationHooks
import Moonkit.TemplateRuntime
import Moonkit.Proofs.Prediction
import Moonkit.Proofs.EligibleKeys
import Moonkit.SlotClaims
import Moonkit.Proofs.ClaimedBlocks
import Moonkit.Lookahead
import Moonkit.Proofs.LookaheadSubmissions
import Moonkit.Proofs.LookaheadBlocks
import Moonkit.Base.Queue
import Moonkit.SlotBasedCollator
import Moonkit.Proofs.CollationDelivery
import Moonkit.Proofs.CollatedBlocks
import Moonkit.AuraStyleFilter
import Moonkit.Base.Rotation
import Moonkit.Proofs.RoundRobin
import Moonkit.Base.Grants
import Moonkit.ProxyPrecompile
import Moonkit.Proofs.ProxiedCalls
import Moonkit.Base.Holdings
import Moonkit.Proofs.TokenRefinement
import Moonkit.Proofs.AssetTokens
import Moonkit.Base.Basket
import Moonkit.XcmPrimitives
import Moonkit.PalletXcmPrecompile
import Moonkit.Proofs.AssetTransfers
