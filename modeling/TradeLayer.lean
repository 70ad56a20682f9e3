import TradeLayer.ClearingRuns
import TradeLayer.ConsensusContent
import TradeLayer.ConsensusOffers
import TradeLayer.ContractFeeBooks
import TradeLayer.ContractPriority
import TradeLayer.ContractRecords
import TradeLayer.ContractRefund
import TradeLayer.ContractReturns
import TradeLayer.DerivativePayload
import TradeLayer.DexInstallments
import TradeLayer.DexOfferLifetime
import TradeLayer.Extraction
import TradeLayer.FeatureHistory
import TradeLayer.FeeHistory
import TradeLayer.FeeRollback
import TradeLayer.FeeSettlement
import TradeLayer.FormatAmounts
import TradeLayer.GhostSettlement
import TradeLayer.Issuance
import TradeLayer.LoadState
import TradeLayer.MetaDExCancel
import TradeLayer.MetaDExShutdown
import TradeLayer.OrderLimits
import TradeLayer.PayloadBounds
import TradeLayer.PeggedReversal
import TradeLayer.Pending
import TradeLayer.Rejection
import TradeLayer.RestartBalances
import TradeLayer.RestartBooks
import TradeLayer.RestartChannels
import TradeLayer.RestartDex
import TradeLayer.RestartFeatures
import TradeLayer.RestartFreeze
import TradeLayer.SendAll
import TradeLayer.SpBlocks
import TradeLayer.StoSplit
import TradeLayer.SumUpnls
import TradeLayer.SupplyRuns
import TradeLayer.TallyAccounting
import TradeLayer.TokenSends
import TradeLayer.TxList
import TradeLayer.Utf8
import TradeLayer.WalletPayload
