import Mathlib.Data.Prod.Lex
import StockQuant.Snapshots
import StockQuant.TradingCalendar

/-! The forward-return backtest: the tables it prefetches, the loop over entries
and horizons, and the response. -/

namespace StockQuant

open Statistics

inductive Mode where
  | intradayToClose
  | closeToClose
  deriving DecidableEq

def modeSession : Mode → String
  | .intradayToClose => sessionIntraday1300
  | .closeToClose => sessionEod

structure Entry where
  tradeDate : Date
  symbol : String
  name : String
  market : String
  marketCode : String
  entryPrice : Option ℚ
  deriving DecidableEq

def toEntry (row : Date × ScreenSnapshotItem) : Entry where
  tradeDate := row.1
  symbol := row.2.symbol
  name := row.2.name
  market := row.2.market
  marketCode := row.2.marketCode
  entryPrice := row.2.close

def collectEntries (rows : List (Date × ScreenSnapshotItem)) : List Entry := rows.map toEntry

structure BacktestHorizonStat where
  n : Int
  samples : Nat := 0
  missing : Nat := 0
  wins : Nat := 0
  losses : Nat := 0
  flat : Nat := 0
  winRate : Option ℚ := none
  avgReturnPct : Option ℚ := none
  medianReturnPct : Option ℚ := none
  bestReturnPct : Option ℚ := none
  worstReturnPct : Option ℚ := none
  deriving DecidableEq

def summarize (n : Int) (returns : List ℚ) (missing : Nat) : BacktestHorizonStat :=
  if returns = [] then { n, samples := 0, missing }
  else
    let wins := returns.countP (0 < ·)
    let losses := returns.countP (· < 0)
    let flat := returns.length - wins - losses
    { n, samples := returns.length, missing, wins, losses, flat
      winRate := some (roundTo 6 (wins / returns.length))
      avgReturnPct := some (roundTo 4 (mean returns))
      medianReturnPct := some (roundTo 4 (median returns))
      bestReturnPct := some (roundTo 4 (best returns))
      worstReturnPct := some (roundTo 4 (worst returns)) }

structure BacktestDetailRow where
  tradeDate : Date
  symbol : String
  name : String
  market : String
  marketCode : String
  entryPrice : ℚ
  exitDate : Date
  exitPrice : ℚ
  change : ℚ
  returnPct : ℚ
  deriving DecidableEq

abbrev ExitDays := AList (fun _ : Date × Int => Date)

def addExitDay (calendar : List Date) (day : Date) (exits : ExitDays) (n : Int) : ExitDays :=
  match nthTradingDay calendar day n with
  | none => exits
  | some target => exits.insert (day, n) target

def exitDays (calendar days : List Date) (horizons : List Int) : ExitDays :=
  days.foldl (fun exits day => horizons.foldl (addExitDay calendar day) exits) ∅

def addWanted (symbol : String) (wanted : WantedPrices) (day : Date) : WantedPrices :=
  wanted.insert day (((wanted.lookup day).getD []).insert symbol)

def wantExit (exits : ExitDays) (entry : Entry) (wanted : WantedPrices) (n : Int) :
    WantedPrices :=
  match exits.lookup (entry.tradeDate, n) with
  | none => wanted
  | some exitDay => addWanted entry.symbol wanted exitDay

def wantEntry (mode : Mode) (exits : ExitDays) (horizons : List Int) (wanted : WantedPrices)
    (entry : Entry) : WantedPrices :=
  let wanted := horizons.foldl (wantExit exits entry) wanted
  if mode = .closeToClose ∧ entry.entryPrice = none then
    addWanted entry.symbol wanted entry.tradeDate
  else wanted

def wantedPrices (mode : Mode) (exits : ExitDays) (horizons : List Int) (entries : List Entry) :
    WantedPrices :=
  entries.foldl (wantEntry mode exits horizons) ∅

structure Ledger where
  returns : Int → List ℚ := fun _ => []
  missing : Int → Nat := fun _ => 0
  detail : List BacktestDetailRow := []

def Ledger.miss (ledger : Ledger) (n : Int) : Ledger :=
  { ledger with missing := Function.update ledger.missing n (ledger.missing n + 1) }

def resolveEntryPrice (mode : Mode) (prices : ClosePrices) (entry : Entry) : Option ℚ :=
  if entry.entryPrice = none ∧ mode = .closeToClose then
    prices.lookup (entry.symbol, entry.tradeDate)
  else entry.entryPrice

def settleHorizon (exits : ExitDays) (prices : ClosePrices) (detailN : Int) (entry : Entry)
    (entryPrice : ℚ) (ledger : Ledger) (n : Int) : Ledger :=
  match exits.lookup (entry.tradeDate, n) with
  | none => ledger.miss n
  | some exitDay =>
    match prices.lookup (entry.symbol, exitDay) with
    | none => ledger.miss n
    | some exitPrice =>
      let change := exitPrice - entryPrice
      let pct := change / entryPrice * 100
      { ledger with
        returns := Function.update ledger.returns n (ledger.returns n ++ [pct])
        detail :=
          if n = detailN then
            ledger.detail ++ [{
              tradeDate := entry.tradeDate
              symbol := entry.symbol
              name := entry.name
              market := entry.market
              marketCode := entry.marketCode
              entryPrice := roundTo 4 entryPrice
              exitDate := exitDay
              exitPrice := roundTo 4 exitPrice
              change := roundTo 4 change
              returnPct := roundTo 4 pct }]
          else ledger.detail }

def settleEntry (mode : Mode) (exits : ExitDays) (prices : ClosePrices) (horizons : List Int)
    (detailN : Int) (ledger : Ledger) (entry : Entry) : Ledger :=
  match resolveEntryPrice mode prices entry with
  | none => horizons.foldl Ledger.miss ledger
  | some entryPrice =>
    if entryPrice ≤ 0 then horizons.foldl Ledger.miss ledger
    else horizons.foldl (settleHorizon exits prices detailN entry entryPrice) ledger

inductive DetailSort where
  | tradeDate
  | symbol
  | entryPrice
  | exitDate
  | exitPrice
  | change
  | returnPct
  deriving DecidableEq

def detailSortKeys : List (String × DetailSort) :=
  [("trade_date", .tradeDate), ("symbol", .symbol), ("entry_price", .entryPrice),
    ("exit_date", .exitDate), ("exit_price", .exitPrice), ("change", .change),
    ("return_pct", .returnPct)]

def detailLe (key : DetailSort) (a b : BacktestDetailRow) : Bool :=
  match key with
  | .tradeDate => toLex (a.tradeDate, a.symbol) ≤ toLex (b.tradeDate, b.symbol)
  | .symbol => toLex (a.symbol, a.tradeDate) ≤ toLex (b.symbol, b.tradeDate)
  | .exitDate => toLex (a.exitDate, toLex (a.tradeDate, a.symbol)) ≤
      toLex (b.exitDate, toLex (b.tradeDate, b.symbol))
  | .entryPrice => toLex (a.entryPrice, toLex (a.tradeDate, a.symbol)) ≤
      toLex (b.entryPrice, toLex (b.tradeDate, b.symbol))
  | .exitPrice => toLex (a.exitPrice, toLex (a.tradeDate, a.symbol)) ≤
      toLex (b.exitPrice, toLex (b.tradeDate, b.symbol))
  | .change => toLex (a.change, toLex (a.tradeDate, a.symbol)) ≤
      toLex (b.change, toLex (b.tradeDate, b.symbol))
  | .returnPct => toLex (a.returnPct, toLex (a.tradeDate, a.symbol)) ≤
      toLex (b.returnPct, toLex (b.tradeDate, b.symbol))

def sortDetail (key : DetailSort) (descending : Bool) (detail : List BacktestDetailRow) :
    List BacktestDetailRow :=
  if descending then detail.insertionSort (fun a b => detailLe key b a = true)
  else detail.insertionSort (fun a b => detailLe key a b = true)

/-- A negative limit keeps every row. -/
def cutDetail (limit : Int) (detail : List BacktestDetailRow) : List BacktestDetailRow :=
  if 0 ≤ limit then detail.take limit.toNat else detail

inductive Warning where
  | noEntries
  | noPrices
  | notElapsed (lastPriceDay : Date) (biggest : Int)
  | notBackfilled (worst : Nat)
  deriving DecidableEq

def coverageWarning (entries : List Entry) (calendar : List Date) (horizons : List Int)
    (missing : Int → Nat) : Option Warning :=
  let lastEntryDay := (entries.map (·.tradeDate)).max?.getD 0
  let lastPriceDay := calendar.getLast?.getD 0
  let biggest := horizons.max?.getD 0
  if nthTradingDay calendar lastEntryDay biggest = none then some (.notElapsed lastPriceDay biggest)
  else
    let worst := (horizons.map missing).max?.getD 0
    if worst ≠ 0 ∧ (entries.length : ℚ) / 5 ≤ worst then some (.notBackfilled worst) else none

structure BacktestResponse where
  mode : Mode
  session : String
  start : Date
  stop : Date
  horizons : List Int
  entries : Nat
  tradingDays : Nat
  summary : List BacktestHorizonStat
  detailN : Int
  detailTotal : Nat := 0
  detailSort : String
  detailOrder : String
  detail : List BacktestDetailRow := []
  warning : Option Warning := none
  deriving DecidableEq

structure BacktestParams where
  mode : Mode
  start : Date
  stop : Date
  horizons : List Int
  detailN : Option Int := none
  detailLimit : Int := 500
  detailSort : String := "trade_date"
  detailOrder : String := "desc"
  deriving DecidableEq

def pickDetailN (horizons : List Int) (detailN : Option Int) : Int :=
  match detailN with
  | none => horizons.headD 0
  | some n => if n ∈ horizons then n else horizons.headD 0

def settleAll (mode : Mode) (prices : PriceTable) (horizons : List Int) (detailN : Int)
    (entries : List Entry) : Ledger :=
  let calendar := listPriceTradingDays prices
  let exits := exitDays calendar (entries.map (·.tradeDate)).dedup horizons
  let found := loadClosePrices prices (wantedPrices mode exits horizons entries)
  entries.foldl (settleEntry mode exits found horizons detailN) {}

/-- The response for accepted parameters: `horizons` are the normalized ones and
`rows` is what the snapshot query returned. -/
def backtestResponse (params : BacktestParams) (key : DetailSort) (horizons : List Int)
    (rows : List (Date × ScreenSnapshotItem)) (prices : PriceTable) : BacktestResponse :=
  let detailN := pickDetailN horizons params.detailN
  let entries := collectEntries rows
  let calendar := listPriceTradingDays prices
  let empty : BacktestResponse :=
    { mode := params.mode
      session := modeSession params.mode
      start := params.start
      stop := params.stop
      horizons
      entries := entries.length
      tradingDays := (entries.map (·.tradeDate)).dedup.length
      summary := horizons.map fun n => { n, missing := entries.length }
      detailN
      detailSort := params.detailSort
      detailOrder := params.detailOrder }
  if entries = [] then { empty with warning := some .noEntries }
  else if calendar = [] then { empty with warning := some .noPrices }
  else
    let ledger := settleAll params.mode prices horizons detailN entries
    let detail := sortDetail key (params.detailOrder = "desc") ledger.detail
    { empty with
      summary := horizons.map fun n => summarize n (ledger.returns n) (ledger.missing n)
      detailTotal := detail.length
      detail := cutDetail params.detailLimit detail
      warning := coverageWarning entries calendar horizons ledger.missing }

def runBacktestOn (params : BacktestParams) (rows : List (Date × ScreenSnapshotItem))
    (prices : PriceTable) : Except String BacktestResponse :=
  match detailSortKeys.lookup params.detailSort with
  | none => .error ("排序欄位需為 ('trade_date', 'symbol', 'entry_price', 'exit_date', " ++
      "'exit_price', 'change', 'return_pct') 其中之一。")
  | some key =>
    if params.detailOrder ∉ ["asc", "desc"] then .error "排序方向需為 asc 或 desc。"
    else
      match normalizeHorizons params.horizons with
      | .error message => .error message
      | .ok horizons => .ok (backtestResponse params key horizons rows prices)

theorem runBacktestOn_accepted {params : BacktestParams} {key : DetailSort} {horizons : List Int}
    (hsort : detailSortKeys.lookup params.detailSort = some key)
    (horder : params.detailOrder ∈ ["asc", "desc"])
    (hhorizons : normalizeHorizons params.horizons = .ok horizons)
    (rows : List (Date × ScreenSnapshotItem)) (prices : PriceTable) :
    runBacktestOn params rows prices =
      .ok (backtestResponse params key horizons rows prices) := by
  unfold runBacktestOn
  rw [hsort, hhorizons]
  exact if_neg (not_not.mpr horder)

def runBacktest (store : SnapshotStore) (prices : PriceTable) (params : BacktestParams) :
    Except String BacktestResponse :=
  runBacktestOn params
    (listSnapshotEntries store params.start params.stop (modeSession params.mode)) prices

end StockQuant
