import BrandSniper.Analytics.AskCfo
import BrandSniper.Analytics.BuildBaselines
import BrandSniper.Analytics.BuilderRuns
import BrandSniper.Analytics.CfoCalibration
import BrandSniper.Analytics.ChooseThreshold
import BrandSniper.Analytics.ComparableSales
import BrandSniper.Analytics.DecisionLog
import BrandSniper.Analytics.DmarketSales
import BrandSniper.Analytics.EvaluateFolds
import BrandSniper.Analytics.FinalLabels
import BrandSniper.Analytics.LabelRanges
import BrandSniper.Analytics.LabelRuns
import BrandSniper.Analytics.LabelStore
import BrandSniper.Analytics.LookAhead
import BrandSniper.Analytics.MovingFeed
import BrandSniper.Analytics.OutcomeLabels
import BrandSniper.Analytics.PurchaseRule
import BrandSniper.Analytics.SalesRuns
import BrandSniper.Analytics.Scorecard
import BrandSniper.Analytics.SplitThresholds
import BrandSniper.Analytics.SweepReplays
import BrandSniper.Analytics.ThresholdSweep
import BrandSniper.Analytics.TrainModel
import BrandSniper.Analytics.VerdictLog
import BrandSniper.Analytics.VerdictRuns
import BrandSniper.Analytics.WalkForward
import BrandSniper.Backend.BulkIngest
import BrandSniper.Backend.BulkPayload
import BrandSniper.Backend.ItemCache
import BrandSniper.Backend.TradeRequests
import BrandSniper.Backend.Trades
import BrandSniper.Backtest.Harness
import BrandSniper.Backtest.Lockstep
import BrandSniper.Backtest.Replay
import BrandSniper.Backtest.Shadow
import BrandSniper.Backtest.Sources
import BrandSniper.Backtest.Store
import BrandSniper.Backtest.WindowSelection
import BrandSniper.Dmarket.Accounts
import BrandSniper.Dmarket.Client
import BrandSniper.Dmarket.Coverage
import BrandSniper.Dmarket.Entries
import BrandSniper.Dmarket.Poller
import BrandSniper.Dmarket.RawListings
import BrandSniper.Dmarket.Resume
import BrandSniper.Dmarket.SaleKeys
import BrandSniper.Dmarket.Scraper
import BrandSniper.Dmarket.ScraperSafety
import BrandSniper.Dmarket.StoredFees
import BrandSniper.Kit.AwareMoments
import BrandSniper.Kit.Base64
import BrandSniper.Kit.Binary64
import BrandSniper.Kit.BoundedQueue
import BrandSniper.Kit.Calendar
import BrandSniper.Kit.Chat
import BrandSniper.Kit.Conversions
import BrandSniper.Kit.Deciders
import BrandSniper.Kit.Decimals
import BrandSniper.Kit.Doubles
import BrandSniper.Kit.Expiry
import BrandSniper.Kit.Greatest
import BrandSniper.Kit.Json
import BrandSniper.Kit.JsonLines
import BrandSniper.Kit.JsonObjects
import BrandSniper.Kit.KeyedHashes
import BrandSniper.Kit.Merge
import BrandSniper.Kit.NearestGrid
import BrandSniper.Kit.Occurrences
import BrandSniper.Kit.OrderedDict
import BrandSniper.Kit.Pages
import BrandSniper.Kit.Ranked
import BrandSniper.Kit.ReadCommitted
import BrandSniper.Kit.Results
import BrandSniper.Kit.Runs
import BrandSniper.Kit.SortedSet
import BrandSniper.Kit.Text
import BrandSniper.Kit.Timeline
import BrandSniper.Listener.AlertDispatch
import BrandSniper.Listener.AlertLane
import BrandSniper.Listener.AlertPool
import BrandSniper.Listener.AlertRate
import BrandSniper.Listener.AlertSafety
import BrandSniper.Listener.BaselineSafety
import BrandSniper.Listener.BaselineStore
import BrandSniper.Listener.BatchDelivery
import BrandSniper.Listener.BatchRecords
import BrandSniper.Listener.Consumer
import BrandSniper.Listener.DeliveryInvariant
import BrandSniper.Listener.DeliverySafety
import BrandSniper.Listener.Detection
import BrandSniper.Listener.EdgeCache
import BrandSniper.Listener.Executor
import BrandSniper.Listener.GracefulShutdown
import BrandSniper.Listener.ListingDedup
import BrandSniper.Listener.ListingFilter
import BrandSniper.Listener.Models
import BrandSniper.Listener.PriceWindow
import BrandSniper.Listener.Recording
import BrandSniper.Listener.RecordsKept
import BrandSniper.Listener.ResaleRefresh
import BrandSniper.Listener.RulesEngine
import BrandSniper.Listener.ScoreSafety
import BrandSniper.Listener.ShutdownCompletes
import BrandSniper.Listener.StoredBatches
import BrandSniper.Listener.StreamAdoption
import BrandSniper.Listener.StreamEngine
import BrandSniper.Listener.StreamFlow
import BrandSniper.Listener.StreamIteration
import BrandSniper.Listener.TaskSupervisor
import BrandSniper.Listener.ZScore
import BrandSniper.Shared.Baselines
import BrandSniper.Shared.ItemClassifier
import BrandSniper.Shared.ListingRates
import BrandSniper.Shared.Margins
import BrandSniper.Shared.Pnl
import BrandSniper.Shared.Purchases
import BrandSniper.Skinport.Polling
import BrandSniper.Waxpeer.Malformed
import BrandSniper.Waxpeer.RecordingFilter
import BrandSniper.Waxpeer.RecordingRule
