import StockQuant.SortedList
import StockQuant.KeyedTable
import StockQuant.Statistics
import StockQuant.BacktestUpload
import StockQuant.LoginLimits
import StockQuant.VersionRace
import StockQuant.ResetAtomicity
import StockQuant.TokenHandlers
import StockQuant.SnapshotRace
import StockQuant.PresentedTokens
import StockQuant.SessionTokens
import StockQuant.ForgotOracle
import StockQuant.PasswordRuns
import StockQuant.SnapshotRuns
import StockQuant.PriceIngest
import StockQuant.PriceRace
import StockQuant.LinkRace
import StockQuant.MailLimits
import StockQuant.RecordRuns
import StockQuant.MailMarkup
import StockQuant.DetailTies
import StockQuant.PositiveReturns
import StockQuant.BacktestRequests
import StockQuant.SnapshotListing
import StockQuant.LimiterThreads
import StockQuant.RetryAfter
import StockQuant.ForwardedFor
import StockQuant.LimiterMemory
import StockQuant.PriceLookup
import StockQuant.SnapshotDownloads
import StockQuant.RecordWorkbook
import StockQuant.SnapshotWorkbooks
import StockQuant.RegisterRace
import StockQuant.RecordRace
import StockQuant.MarketHistory
import StockQuant.WorkbookAnswers
import StockQuant.DownloadMoments
import StockQuant.SessionEntitlement
import StockQuant.ServiceRuns
import StockQuant.MarketOrder
import StockQuant.IngestCoverage
import StockQuant.BacktestSplit
import StockQuant.MailDelivery
import StockQuant.RangeMoments
import StockQuant.EmailUpgrade
import StockQuant.AuthTraces
