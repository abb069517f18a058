import StockQuant.CoverageSessions
import StockQuant.MarketRuns
import StockQuant.SnapshotWorkbooks

/-! A backtest statement by statement, with the range that its request may leave open. -/

namespace StockQuant

open ReadCommitted Spreadsheet

/-- What the requests take from libraries and the database: how texts are ordered, written to a
cell and made of dates, how a whole number is read and a text quoted, and the order in which a
backtest comes to the dates it wants. -/
structure MarketEnv (L : Type) [LinearOrder L] where
  collation : String ↪ L
  bind : String → Option CellValue
  strftime : String → Date → String
  int : String → Option Int
  repr : String → String
  arrange : List CloseQuery → List CloseQuery
  arrange_perm : ∀ queries, (arrange queries).Perm queries

def checkParams (params : BacktestParams) : Except String (DetailSort × List Int) :=
  match detailSortKeys.lookup params.detailSort with
  | none => .error ("排序欄位需為 ('trade_date', 'symbol', 'entry_price', 'exit_date', " ++
      "'exit_price', 'change', 'return_pct') 其中之一。")
  | some key =>
    if params.detailOrder ∉ ["asc", "desc"] then .error "排序方向需為 asc 或 desc。"
    else (normalizeHorizons params.horizons).map (key, ·)

def closeQueries (wanted : WantedPrices) : List CloseQuery :=
  wanted.entries.flatMap fun pair =>
    (slices symbolChunk (SortedList.distinct (pair.2.filter (· ≠ "")))).map (pair.1, ·)

def askCloses (prices : PriceTable) (found : ClosePrices) (query : CloseQuery) : ClosePrices :=
  loadChunk prices query.1 found query.2

/-- What a request has read once it knows the entries and the calendar. -/
structure BacktestReads where
  key : DetailSort
  horizons : List Int
  rows : List (Date × ScreenSnapshotItem)
  calendar : List Date
  deriving DecidableEq

namespace BacktestReads

def entries (reads : BacktestReads) : List Entry := collectEntries reads.rows

def exits (reads : BacktestReads) : ExitDays :=
  exitDays reads.calendar (reads.entries.map (·.tradeDate)).dedup reads.horizons

def wanted (reads : BacktestReads) (mode : Mode) : WantedPrices :=
  wantedPrices mode reads.exits reads.horizons reads.entries

/-- The response once the closes are loaded as well. -/
def response (reads : BacktestReads) (params : BacktestParams) (found : ClosePrices) :
    BacktestResponse :=
  let detailN := pickDetailN reads.horizons params.detailN
  let entries := reads.entries
  let empty : BacktestResponse :=
    { mode := params.mode
      session := modeSession params.mode
      start := params.start
      stop := params.stop
      horizons := reads.horizons
      entries := entries.length
      tradingDays := (entries.map (·.tradeDate)).dedup.length
      summary := reads.horizons.map fun n => { n, missing := entries.length }
      detailN
      detailSort := params.detailSort
      detailOrder := params.detailOrder }
  if entries = [] then { empty with warning := some .noEntries }
  else if reads.calendar = [] then { empty with warning := some .noPrices }
  else
    let ledger :=
      entries.foldl (settleEntry params.mode reads.exits found reads.horizons detailN) {}
    let detail := sortDetail reads.key (params.detailOrder = "desc") ledger.detail
    { empty with
      summary := reads.horizons.map fun n => summarize n (ledger.returns n) (ledger.missing n)
      detailTotal := detail.length
      detail := cutDetail params.detailLimit detail
      warning := coverageWarning entries reads.calendar reads.horizons ledger.missing }

end BacktestReads

inductive BacktestPoint where
  | entries
  | calendar (key : DetailSort) (horizons : List Int) (rows : List (Date × ScreenSnapshotItem))
  | load (reads : BacktestReads) (todo : List CloseQuery) (found : ClosePrices)
  | finished (result : Except String BacktestResponse)
  deriving DecidableEq

/-- What a request for a backtest does before it runs one: an end of the range that is left open
is filled in from the snapshots. -/
inductive QueryPoint where
  | start
  | range (mode : Mode) (point : DaysPoint)
  | run (params : BacktestParams) (point : BacktestPoint)
  | finished (result : Except String BacktestResponse)
  deriving DecidableEq

section Actions

variable {L : Type} [LinearOrder L] (env : MarketEnv L)

def backtestAction (params : BacktestParams) : BacktestPoint → Action MarketTables BacktestPoint
  | .entries =>
    match checkParams params with
    | .error message => .work (.finished (.error message))
    | .ok (key, horizons) => .read fun tables =>
        .calendar key horizons (listSnapshotEntries tables.store params.start params.stop
          (modeSession params.mode))
  | .calendar key horizons rows => .read fun tables =>
      let reads : BacktestReads :=
        { key, horizons, rows, calendar := listPriceTradingDays tables.prices }
      if rows = [] ∨ reads.calendar = [] then .finished (.ok (reads.response params ∅))
      else .load reads (env.arrange (closeQueries (reads.wanted params.mode))) ∅
  | .load reads [] found => .work (.finished (.ok (reads.response params found)))
  | .load reads (query :: todo) found => .read fun tables =>
      .load reads todo (askCloses tables.prices found query)
  | .finished result => .work (.finished result)

/-- The checks of `_run` once both ends of the range are known. -/
def overRange (query : BacktestQuery) (mode : Mode) (start stop : Date) : QueryPoint :=
  if stop < start then .finished (.error startAfterEnd)
  else if maxRangeDays < stop - start then .finished (.error rangeTooLong)
  else
    match parseHorizons env.int env.repr query.horizons with
    | .error message => .finished (.error message)
    | .ok horizons =>
      if mode = .closeToClose ∧ horizons.any (· < 1) then
        .finished (.error "收盤價 → 收盤價 模式的 N 需 ≥ 1（N=0 等於自己比自己）。")
      else
        .run
          { mode, start, stop, horizons, detailN := query.detailN
            detailLimit := query.detailLimit, detailSort := query.detailSort
            detailOrder := query.detailOrder } .entries

def afterRange (today : Date) (query : BacktestQuery) (mode : Mode) : DaysPoint → QueryPoint
  | .finished (minDate, maxDate, _, _) =>
    overRange env query mode ((query.start.or minDate).getD today)
      ((query.stop.or maxDate).getD today)
  | point => .range mode point

def afterRun (params : BacktestParams) : BacktestPoint → QueryPoint
  | .finished result => .finished result
  | point => .run params point

/-- `_run` of the backtest endpoints. -/
def queryAction (today : Date) (query : BacktestQuery) :
    QueryPoint → Action MarketTables QueryPoint
  | .start =>
    match validatedMode query.mode with
    | .error message => .work (.finished (.error message))
    | .ok mode =>
      match query.start, query.stop with
      | some start, some stop => .work (overRange env query mode start stop)
      | _, _ => .work (.range mode .total)
  | .range mode point => (daysAction snapshotDays point).map (afterRange env today query mode)
  | .run params point => (backtestAction env params point).map (afterRun params)
  | .finished result => .work (.finished result)

end Actions

section Steps

variable {L : Type} [LinearOrder L]

theorem perform_backtest (env : MarketEnv L) (params : BacktestParams) (point : BacktestPoint)
    (tables : MarketTables) :
    ((backtestAction env params point).perform tables).1 = tables := by
  cases point with
  | entries =>
    unfold backtestAction
    cases checkParams params <;> rfl
  | calendar key horizons rows => rfl
  | load reads todo found => cases todo <;> rfl
  | finished result => rfl

theorem perform_query (env : MarketEnv L) (today : Date) (query : BacktestQuery)
    (point : QueryPoint) (tables : MarketTables) :
    ((queryAction env today query point).perform tables).1 = tables := by
  cases point with
  | start =>
    unfold queryAction
    cases validatedMode query.mode with
    | error message => rfl
    | ok mode => cases query.start <;> cases query.stop <;> rfl
  | range mode point => exact (congrArg Prod.fst (perform_map _ _ _)).trans (perform_days _ _ _)
  | run params point =>
    exact (congrArg Prod.fst (perform_map _ _ _)).trans (perform_backtest _ _ _ _)
  | finished result => rfl

end Steps

end StockQuant
