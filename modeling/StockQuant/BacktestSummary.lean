import StockQuant.BacktestPrefetch

/-! The summary of a backtest is that of a naive reference, which settles every
screened item at every horizon straight from the stored rows. -/

namespace StockQuant

open Statistics

def HasClose (listed : String → Prop) (prices : PriceTable) (symbol : String) (day : Date)
    (close : ℚ) : Prop :=
  listed symbol ∧
    ∃ row ∈ prices.rows, row.tradeDate = day ∧ row.symbol = symbol ∧ row.close = close

structure Settles (listed : String → Prop) (mode : Mode) (prices : PriceTable) (day : Date)
    (item : ScreenSnapshotItem) (n : Int) (t : Trade) : Prop where
  entry : item.close = some t.entryPrice ∨
    (mode = .closeToClose ∧ item.close = none ∧
      HasClose listed prices item.symbol day t.entryPrice)
  positive : 0 < t.entryPrice
  exitDay : IsNthTradingDay (listPriceTradingDays prices) day n t.exitDay
  exitPrice : HasClose listed prices item.symbol t.exitDay t.exitPrice

def referenceStat (n : Int) (outcomes : List (Option Trade)) : BacktestHorizonStat :=
  let samples := outcomes.countP (·.isSome)
  let returns := outcomes.filterMap fun outcome => outcome.map Trade.pct
  let wins := outcomes.countP fun outcome => outcome.any (0 < ·.pct)
  let settled (value : ℚ) : Option ℚ := if samples = 0 then none else some value
  { n
    samples
    missing := outcomes.countP (· = none)
    wins
    losses := outcomes.countP fun outcome => outcome.any (·.pct < 0)
    flat := outcomes.countP fun outcome => outcome.any (·.pct = 0)
    winRate := settled (roundTo 6 (wins / samples))
    avgReturnPct := settled (roundTo 4 (mean returns))
    medianReturnPct := settled (roundTo 4 (median returns))
    bestReturnPct := settled (roundTo 4 (best returns))
    worstReturnPct := settled (roundTo 4 (worst returns)) }

/-- `summary` is the one the naive reference computes from the stored rows, where
only the price rows of listed symbols count. -/
structure IsReferenceSummary (listed : String → Prop) (params : BacktestParams)
    (store : SnapshotStore) (prices : PriceTable) (summary : List BacktestHorizonStat) : Prop where
  ascending : (summary.map (·.n)).Pairwise (· < ·)
  horizons : ∀ n, n ∈ summary.map (·.n) ↔ n ∈ params.horizons
  stats : ∃ outcome : Date × ScreenSnapshotItem → Int → Option Trade,
    (∀ pair n t, outcome pair n = some t ↔
      Settles listed params.mode prices pair.1 pair.2 n t) ∧
    ∀ stat ∈ summary, stat = referenceStat stat.n
      ((itemsInRange store params.start params.stop (modeSession params.mode)).map
        (outcome · stat.n))

theorem referenceStat_counts (n : Int) (outcomes : List (Option Trade)) :
    let stat := referenceStat n outcomes
    stat.samples + stat.missing = outcomes.length ∧
      stat.wins + stat.losses + stat.flat = stat.samples := by
  simp only [referenceStat]
  induction outcomes with
  | nil => simp
  | cons outcome outcomes ih =>
    obtain ⟨htotal, hsettled⟩ := ih
    simp only [List.countP_cons, List.length_cons]
    cases outcome with
    | none =>
      simp only [Option.isSome_none, Option.any_none]
      exact ⟨by simp; omega, by simpa using hsettled⟩
    | some t =>
      simp only [Option.isSome_some, Option.any_some]
      refine ⟨by simp; omega, ?_⟩
      rcases lt_trichotomy t.pct 0 with hneg | hzero | hpos
      · simp [hneg, hneg.not_gt, hneg.ne]
        omega
      · simp [hzero]
        omega
      · simp [hpos, hpos.not_gt, hpos.ne']
        omega

theorem summarize_eq_referenceStat (n : Int) (outcomes : List (Option Trade)) :
    summarize n (outcomes.filterMap fun outcome => outcome.map Trade.pct)
      (outcomes.countP (· = none)) = referenceStat n outcomes := by
  have hcount (p : ℚ → Bool) :
      (outcomes.filterMap fun outcome => outcome.map Trade.pct).countP p =
        outcomes.countP fun outcome => outcome.any (p ·.pct) := by
    rw [List.countP_filterMap]
    refine List.countP_congr fun outcome _ => ?_
    cases outcome <;> simp
  have hlength : (outcomes.filterMap fun outcome => outcome.map Trade.pct).length =
      outcomes.countP (·.isSome) := by
    simp [List.length_filterMap_eq_countP]
  obtain ⟨_, hsettled⟩ := referenceStat_counts n outcomes
  simp only [referenceStat] at hsettled
  unfold summarize referenceStat
  split_ifs with hnil
  · have hzero : outcomes.countP (·.isSome) = 0 := by rw [← hlength, hnil, List.length_nil]
    simp only [hzero, if_true] at hsettled ⊢
    simp
    omega
  · have hpos : outcomes.countP (·.isSome) ≠ 0 := by
      rw [← hlength]
      exact fun h => hnil (List.length_eq_zero_iff.mp h)
    simp only [hcount, hlength, if_neg hpos]
    simp
    omega

theorem referenceStat_perm {n : Int} {outcomes outcomes' : List (Option Trade)}
    (h : outcomes.Perm outcomes') : referenceStat n outcomes = referenceStat n outcomes' := by
  have hr := h.filterMap fun outcome => outcome.map Trade.pct
  simp only [referenceStat, h.countP_eq, mean_perm hr, median_perm hr, best_perm hr,
    worst_perm hr]

def rowTrade (mode : Mode) (prices : PriceTable) (row : Date × ScreenSnapshotItem) (n : Int) :
    Option Trade :=
  tradeFrom mode (nthTradingDay (listPriceTradingDays prices)) (quoteOf prices) (toEntry row) n

theorem quoteOf_eq_some_iff {prices : PriceTable} {symbol : String} {day : Date} {close : ℚ} :
    quoteOf prices symbol day = some close ↔ HasClose (· ≠ "") prices symbol day close := by
  unfold quoteOf HasClose
  by_cases hs : symbol = ""
  · simp [hs]
  · simp [hs, closeOn_eq_some_iff]

theorem rowTrade_eq_some_iff {mode : Mode} {prices : PriceTable}
    {row : Date × ScreenSnapshotItem} {n : Int} {t : Trade} :
    rowTrade mode prices row n = some t ↔
      Settles (· ≠ "") mode prices row.1 row.2 n t := by
  have hentry : entryPriceFrom mode (quoteOf prices) (toEntry row) = some t.entryPrice ↔
      row.2.close = some t.entryPrice ∨
        (mode = .closeToClose ∧ row.2.close = none ∧
          HasClose (· ≠ "") prices row.2.symbol row.1 t.entryPrice) := by
    rw [← quoteOf_eq_some_iff]
    unfold entryPriceFrom toEntry
    dsimp only
    split_ifs with h
    · simp [h.1, h.2]
    · grind
  unfold rowTrade
  rw [tradeFrom_eq_some_iff, hentry, nthTradingDay_eq_some_iff (listPriceTradingDays_pairwise _),
    quoteOf_eq_some_iff]
  exact ⟨fun ⟨h₁, h₂, h₃, h₄⟩ => ⟨h₁, h₂, h₃, h₄⟩, fun ⟨h₁, h₂, h₃, h₄⟩ => ⟨h₁, h₂, h₃, h₄⟩⟩

theorem referenceStat_none {n : Int} {outcomes : List (Option Trade)}
    (h : ∀ outcome ∈ outcomes, outcome = none) :
    referenceStat n outcomes = { n, missing := outcomes.length } := by
  have hrep : outcomes = List.replicate outcomes.length none := List.eq_replicate_of_mem h
  have hmap : (outcomes.filterMap fun outcome => outcome.map Trade.pct) = [] := by
    rw [hrep]
    simp
  have hcount : outcomes.countP (· = none) = outcomes.length := by
    rw [List.countP_eq_length]
    simpa using h
  rw [← summarize_eq_referenceStat, hmap, hcount]
  rfl

theorem rowTrade_of_calendar_nil {mode : Mode} {prices : PriceTable}
    (h : listPriceTradingDays prices = []) (row : Date × ScreenSnapshotItem) (n : Int) :
    rowTrade mode prices row n = none := by
  refine Option.eq_none_iff_forall_ne_some.mpr fun t ht => ?_
  have hexit := (rowTrade_eq_some_iff.mp ht).exitDay
  simp [IsNthTradingDay, h] at hexit

theorem backtestResponse_summary (params : BacktestParams) (key : DetailSort)
    {horizons : List Int} (hnd : horizons.Nodup) (rows : List (Date × ScreenSnapshotItem))
    (prices : PriceTable) :
    (backtestResponse params key horizons rows prices).summary =
      horizons.map fun n => referenceStat n (rows.map (rowTrade params.mode prices · n)) := by
  unfold backtestResponse
  dsimp only
  split_ifs with hentries hcalendar
  · have hrows : rows = [] := by simpa [collectEntries] using hentries
    simp [hrows, collectEntries, referenceStat]
  · refine List.map_congr_left fun n _ => ?_
    rw [referenceStat_none]
    · simp [collectEntries]
    · simp [rowTrade_of_calendar_nil hcalendar]
  · refine List.map_congr_left fun n hn => ?_
    have hspec := settleAll_spec params.mode prices hnd
      (pickDetailN horizons params.detailN) (collectEntries rows)
    have houtcomes : (collectEntries rows).map
        (reportedTrade params.mode prices horizons (collectEntries rows) · n) =
        rows.map (rowTrade params.mode prices · n) :=
      List.map_map.trans (List.map_congr_left fun row hrow =>
        reportedTrade_eq (List.mem_map.mpr ⟨row, hrow, rfl⟩) hn)
    rw [hspec.1 n hn, hspec.2.1 n hn, ← houtcomes, ← summarize_eq_referenceStat,
      List.filterMap_map, List.countP_map]
    rfl

theorem backtestResponse_entries (params : BacktestParams) (key : DetailSort)
    (horizons : List Int) (rows : List (Date × ScreenSnapshotItem)) (prices : PriceTable) :
    (backtestResponse params key horizons rows prices).entries = rows.length := by
  unfold backtestResponse
  dsimp only
  split_ifs <;> simp [collectEntries]

/-- Whatever order the database returns tied rows in, the backtest answers with
the summary of the naive reference over the price rows of nonempty symbols. -/
theorem runBacktestOn_summary {store : SnapshotStore} {prices : PriceTable}
    {params : BacktestParams} {rows : List (Date × ScreenSnapshotItem)} {key : DetailSort}
    {horizons : List Int}
    (hrows : IsSnapshotEntries store params.start params.stop (modeSession params.mode) rows)
    (hsort : detailSortKeys.lookup params.detailSort = some key)
    (horder : params.detailOrder ∈ ["asc", "desc"])
    (hhorizons : normalizeHorizons params.horizons = .ok horizons) :
    ∃ response, runBacktestOn params rows prices = .ok response ∧
      IsReferenceSummary (· ≠ "") params store prices response.summary ∧
      ∀ stat ∈ response.summary, stat.samples + stat.missing = response.entries ∧
        stat.wins + stat.losses + stat.flat = stat.samples := by
  obtain rfl : horizons = SortedList.distinct params.horizons := normalizeHorizons_ok hhorizons
  have hascending := SortedList.distinct_pairwise params.horizons
  have hnd := normalizeHorizons_nodup hhorizons
  have hsummary := backtestResponse_summary params key hnd rows prices
  have hns : ((backtestResponse params key (SortedList.distinct params.horizons) rows
      prices).summary.map (·.n)) = SortedList.distinct params.horizons := by
    simp [hsummary, Function.comp_def, referenceStat]
  refine ⟨backtestResponse params key (SortedList.distinct params.horizons) rows prices, ?_,
    ⟨?_, ?_, rowTrade params.mode prices, fun pair n t => rowTrade_eq_some_iff, ?_⟩, ?_⟩
  · exact runBacktestOn_accepted hsort horder hhorizons rows prices
  · rwa [hns]
  · intro n
    rw [hns, SortedList.mem_distinct]
  · rw [hsummary]
    intro stat hstat
    obtain ⟨n, _, rfl⟩ := List.mem_map.mp hstat
    exact referenceStat_perm (hrows.perm_items.map _)
  · rw [hsummary, backtestResponse_entries]
    intro stat hstat
    obtain ⟨n, _, rfl⟩ := List.mem_map.mp hstat
    simpa using referenceStat_counts n (rows.map (rowTrade params.mode prices · n))

/-- A screening of one item on day 10, and closes of its symbol two days apart. -/
def oneItemStore (symbol : String) : SnapshotStore where
  snapshots :=
    [{ id := 1, tradeDate := 10, session := "intraday_1300", generatedAt := 0, itemCount := 1 }]
  items := [{ id := 1, snapshotId := 1, rank := 1, symbol, close := some 100 }]
  ids_nodup := by simp
  itemIds_nodup := by simp
  keys_nodup := by simp
  items_owned := by simp

def twoPrices (symbol : String) : PriceTable where
  rows := [{ tradeDate := 10, symbol, close := 100 }, { tradeDate := 12, symbol, close := 110 }]
  nodup := by simp [DailyPrice.key]

def nextDay : BacktestParams where
  mode := .intradayToClose
  start := 10
  stop := 10
  horizons := [1]

/-- Two screenings a day apart. One trading day later 2330 and 2317 have closed ten percent higher,
2454 lower, and 1101 has no price; the second screening has no second trading day. -/
def watchStore : SnapshotStore where
  snapshots :=
    [{ id := 1, tradeDate := 10, session := "intraday_1300", generatedAt := 0, itemCount := 3 },
      { id := 2, tradeDate := 11, session := "intraday_1300", generatedAt := 0, itemCount := 2 }]
  items :=
    [{ id := 1, snapshotId := 1, rank := 1, symbol := "2330", name := "台積電", market := "上市"
       close := some 100 },
      { id := 2, snapshotId := 1, rank := 2, symbol := "2317", name := "鴻海", close := some 50 },
      { id := 3, snapshotId := 1, rank := 3, symbol := "1101", close := some 40 },
      { id := 4, snapshotId := 2, rank := 1, symbol := "2330", name := "台積電", market := "上市"
        close := some 110 },
      { id := 5, snapshotId := 2, rank := 2, symbol := "2454", close := some 80 }]
  ids_nodup := by simp
  itemIds_nodup := by simp
  keys_nodup := by decide
  items_owned := by simp

def watchPrices : PriceTable where
  rows :=
    [{ tradeDate := 11, symbol := "2330", close := 110 },
      { tradeDate := 11, symbol := "2317", close := 55 },
      { tradeDate := 12, symbol := "2330", close := 121 },
      { tradeDate := 12, symbol := "2317", close := 45 },
      { tradeDate := 12, symbol := "1101", close := 44 },
      { tradeDate := 12, symbol := "2454", close := 72 }]
  nodup := by simp [DailyPrice.key]

/-- The worst two of the next day's trades. -/
def watchParams : BacktestParams where
  mode := .intradayToClose
  start := 10
  stop := 11
  horizons := [2, 1]
  detailN := some 1
  detailLimit := 2
  detailSort := "return_pct"
  detailOrder := "asc"

def watchRows : List (Date × ScreenSnapshotItem) :=
  listSnapshotEntries watchStore 10 11 sessionIntraday1300

theorem runBacktestOn_summary_watched :
    ∃ response, runBacktestOn watchParams watchRows watchPrices = .ok response ∧
      response.summary.map (fun stat => (stat.n, stat.samples, stat.wins, stat.missing)) =
        [(1, 4, 3, 1), (2, 3, 2, 2)] ∧
      IsReferenceSummary (· ≠ "") watchParams watchStore watchPrices response.summary ∧
      ∀ stat ∈ response.summary, stat.samples + stat.missing = response.entries ∧
        stat.wins + stat.losses + stat.flat = stat.samples := by
  obtain ⟨response, hresponse, hsummary⟩ := @runBacktestOn_summary watchStore watchPrices watchParams
    watchRows _ _ (listSnapshotEntries_isSnapshotEntries _ _ _ _)
    (show _ = some DetailSort.returnPct by decide) (by decide)
    (show normalizeHorizons [2, 1] = .ok [1, 2] by decide)
  have hcounts : (runBacktestOn watchParams watchRows watchPrices).toOption.map
      (·.summary.map fun stat => (stat.n, stat.samples, stat.wins, stat.missing)) =
        some [(1, 4, 3, 1), (2, 3, 2, 2)] := by decide +kernel
  rw [hresponse] at hcounts
  exact ⟨response, hresponse, Option.some.inj hcounts, hsummary⟩

/-- The price lookup drops the empty symbol, so a row that is stored under it does
not settle the item. -/
theorem runBacktest_empty_symbol :
    ∃ response, runBacktest (oneItemStore "") (twoPrices "") nextDay = .ok response ∧
      ¬ IsReferenceSummary (fun _ => True) nextDay (oneItemStore "") (twoPrices "")
        response.summary := by
  refine ⟨_, rfl, fun h => ?_⟩
  obtain ⟨outcome, hout, hstats⟩ := h.stats
  have hitems : itemsInRange (oneItemStore "") 10 10 sessionIntraday1300 =
      [(10, { id := 1, snapshotId := 1, rank := 1, symbol := "", close := some 100 })] := by
    decide +kernel
  have hsettles := (hout
    (10, { id := 1, snapshotId := 1, rank := 1, symbol := "", close := some 100 }) 1
    { entryPrice := 100, exitDay := 12, exitPrice := 110 }).mpr
      { entry := Or.inl rfl
        positive := by norm_num
        exitDay := (nthTradingDay_eq_some_iff (listPriceTradingDays_pairwise _)).mp
          (by decide +kernel)
        exitPrice := ⟨trivial, { tradeDate := 12, symbol := "", close := 110 },
          by simp [twoPrices], rfl, rfl, rfl⟩ }
  have hstat := hstats { n := 1, missing := 1 } (by decide +kernel)
  have hsamples := congrArg BacktestHorizonStat.samples
    (hstat.trans (congrArg (fun items => referenceStat 1 (items.map (outcome · 1))) hitems))
  simp [referenceStat, hsettles] at hsamples

end StockQuant
