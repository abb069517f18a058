import StockQuant.DetailAgreement
import StockQuant.MarketRuns

/-! Which outcomes are between two prices above zero. The backtest checks the price that an
entry starts from, not the close it exits at. -/

namespace StockQuant

open Statistics

theorem halfEven_gt_iff (x : ℚ) : -1000000 < halfEven x ↔ -1999999 / 2 < x := by
  constructor
  · intro h
    by_contra hle
    have hmono := halfEven_mono (not_lt.mp hle)
    rw [show halfEven (-1999999 / 2) = -1000000 by decide +kernel] at hmono
    omega
  · intro h
    by_contra hle
    have hround : (halfEven x : ℚ) ≤ -1000000 := by exact_mod_cast not_lt.mp hle
    have hnear := le_halfEven x
    linarith

/-- A return is reported as a total loss as soon as less than a two millionth is left. -/
theorem reported_gt_iff {t : Trade} (h : 0 < t.entryPrice) :
    -100 < roundTo 4 t.pct ↔ t.entryPrice < 2000000 * t.exitPrice := by
  have hscaled : -100 < roundTo 4 t.pct ↔ -1000000 < halfEven (t.pct * 10 ^ 4) := by
    rw [roundTo, lt_div_iff₀ (by positivity)]
    norm_num
    exact_mod_cast Iff.rfl
  have hpct : t.pct * 10 ^ 4 = 1000000 * (t.exitPrice / t.entryPrice) - 1000000 := by
    rw [Trade.pct, sub_div, div_self h.ne']
    ring
  rw [hscaled, halfEven_gt_iff, hpct, ← sub_pos]
  have hratio : 1000000 * (t.exitPrice / t.entryPrice) - 1000000 - -1999999 / 2 =
      (2000000 * t.exitPrice - t.entryPrice) / (2 * t.entryPrice) := by
    field_simp
    ring
  rw [hratio, div_pos_iff_of_pos_right (by positivity), sub_pos]

theorem pct_gt {t : Trade} (hentry : 0 < t.entryPrice) (hexit : 0 < t.exitPrice) :
    -100 < t.pct := by
  have hratio : 0 < t.exitPrice / t.entryPrice := div_pos hexit hentry
  rw [Trade.pct, sub_div, div_self hentry.ne']
  linarith

def BacktestHorizonStat.reported (stat : BacktestHorizonStat) : List (Option ℚ) :=
  [stat.bestReturnPct, stat.worstReturnPct, stat.medianReturnPct, stat.avgReturnPct]

/-- The figures of these returns, before they are rounded. -/
def unrounded (trades : List SettledTrade) : List ℚ :=
  [best (trades.map (·.2.pct)), worst (trades.map (·.2.pct)), median (trades.map (·.2.pct)),
    mean (trades.map (·.2.pct))]

/-- The samples are the trades that settled, both ends of each are above zero, and so every
return is above a loss of everything, as are the figures that are rounded for the report. -/
structure PositiveReturns (settled : Int → List SettledTrade) (response : BacktestResponse) :
    Prop where
  samples : ∀ stat ∈ response.summary, stat.samples = (settled stat.n).length ∧
    stat.samples + stat.missing = response.entries
  positive : ∀ stat ∈ response.summary, ∀ p ∈ settled stat.n,
    0 < p.2.entryPrice ∧ 0 < p.2.exitPrice ∧ -100 < p.2.pct
  reported : ∀ stat ∈ response.summary, ∀ pct, some pct ∈ stat.reported →
    ∃ value ∈ unrounded (settled stat.n), pct = roundTo 4 value ∧ -100 < value
  detail : ∀ row ∈ response.detail, ∃ p ∈ settled response.detailN, row = p.row ∧ -100 < p.2.pct

/-- Each stored close at which an item exits is above zero. -/
def ExitsPositive (mode : Mode) (prices : PriceTable) (items : List (Date × ScreenSnapshotItem))
    (horizons : List Int) : Prop :=
  ∀ pair ∈ items, ∀ n ∈ horizons, ∀ t, Settles (· ≠ "") mode prices pair.1 pair.2 n t →
    0 < t.exitPrice

/-- A loss of everything is shown only for what settled at a two millionth or less. -/
structure LossesShown (settled : Int → List SettledTrade) (response : BacktestResponse) :
    Prop where
  figures : ∀ stat ∈ response.summary, ∀ pct, some pct ∈ stat.reported → -100 ≤ pct ∧
    (pct = -100 → ∃ p ∈ settled stat.n, 2000000 * p.2.exitPrice ≤ p.2.entryPrice)
  detail : ∀ row ∈ response.detail, -100 ≤ row.returnPct ∧ (row.returnPct = -100 →
    ∃ p ∈ settled response.detailN, row = p.row ∧ 2000000 * p.2.exitPrice ≤ p.2.entryPrice)

/-- The rounding of a figure that is at least the return of some trade. -/
theorem shown_loss {t : Trade} (hentry : 0 < t.entryPrice) (hexit : 0 < t.exitPrice) {value : ℚ}
    (hle : t.pct ≤ value) : -100 ≤ roundTo 4 value ∧
      (roundTo 4 value = -100 → 2000000 * t.exitPrice ≤ t.entryPrice) := by
  have hfloor : roundTo 4 (-100) = -100 := by decide +kernel
  constructor
  · rw [← hfloor]
    exact roundTo_mono 4 ((pct_gt hentry hexit).le.trans hle)
  · intro htotal
    refine not_lt.mp fun hlt => ?_
    have hgt := (reported_gt_iff hentry).mpr hlt
    have hleast : roundTo 4 t.pct ≤ roundTo 4 value := roundTo_mono 4 hle
    linarith

section Response

variable {mode : Mode} {prices : PriceTable} {n : Int} {rows : List (Date × ScreenSnapshotItem)}

theorem settledTrades_entry_pos {p : SettledTrade} (h : p ∈ settledTrades mode prices n rows) :
    0 < p.2.entryPrice := by
  obtain ⟨row, -, -, hsettles⟩ := mem_settledTrades.mp h
  exact hsettles.positive

/-- The figures lie above the least return. -/
theorem exists_le_unrounded {trades : List SettledTrade} (hne : trades ≠ []) {value : ℚ}
    (h : value ∈ unrounded trades) : ∃ p ∈ trades, p.2.pct ≤ value := by
  have hreturns : trades.map (·.2.pct) ≠ [] := by simpa using hne
  have hle : worst (trades.map (·.2.pct)) ≤ value := by
    simp only [unrounded, List.mem_cons, List.not_mem_nil, or_false] at h
    rcases h with rfl | rfl | rfl | rfl
    · exact worst_le (best_mem hreturns)
    · exact le_rfl
    · exact (median_bounds hreturns).1
    · exact (mean_bounds hreturns).1
  obtain ⟨p, hp, hpct⟩ := List.mem_map.mp (worst_mem hreturns)
  exact ⟨p, hp, hpct ▸ hle⟩

/-- Each of the four returns of a stat is the rounding of such a figure, and there is some trade. -/
theorem exists_unrounded {pct : ℚ}
    (h : some pct ∈ (referenceStat n (rows.map (rowTrade mode prices · n))).reported) :
    settledTrades mode prices n rows ≠ [] ∧
      ∃ value ∈ unrounded (settledTrades mode prices n rows), pct = roundTo 4 value := by
  have hreturns := @map_pct_settledTrades mode prices n rows
  have hcount : (rows.map (rowTrade mode prices · n)).countP (·.isSome) =
      (settledTrades mode prices n rows).length := by
    rw [← List.length_map (·.2.pct), hreturns, List.length_filterMap_eq_countP]
    simp
  by_cases hnil : settledTrades mode prices n rows = []
  · rw [hnil] at hcount
    simp [BacktestHorizonStat.reported, referenceStat, hcount] at h
  have hpos : (rows.map (rowTrade mode prices · n)).countP (·.isSome) ≠ 0 := by
    rw [hcount]
    exact fun hzero => hnil (List.length_eq_zero_iff.mp hzero)
  refine ⟨hnil, ?_⟩
  simp only [BacktestHorizonStat.reported, referenceStat, if_neg hpos, ← hreturns,
    List.mem_cons, Option.some.injEq, List.not_mem_nil, or_false] at h
  rcases h with rfl | rfl | rfl | rfl
  all_goals exact ⟨_, by simp [unrounded], rfl⟩

/-- The rows of the detail are trades at its horizon. -/
theorem mem_detail {params : BacktestParams} {key : DetailSort} {horizons : List Int}
    (hnd : horizons.Nodup) (hne : horizons ≠ []) {row : BacktestDetailRow}
    (h : row ∈ (backtestResponse params key horizons rows prices).detail) :
    ∃ p ∈ settledTrades params.mode prices (pickDetailN horizons params.detailN) rows,
      row = p.row := by
  rw [backtestResponse_detail params key rows prices hnd hne] at h
  have hsettled : row ∈ settledRows params.mode prices
      (pickDetailN horizons params.detailN) rows := by
    refine (sortDetail_perm key (params.detailOrder = "desc") _).mem_iff.mp ?_
    unfold cutDetail at h
    split_ifs at h
    · exact List.mem_of_mem_take h
    · exact h
  rw [← map_settledTrades] at hsettled
  obtain ⟨p, hp, rfl⟩ := List.mem_map.mp hsettled
  exact ⟨p, hp, rfl⟩

theorem backtestResponse_positive_iff {params : BacktestParams} {key : DetailSort}
    {horizons : List Int} (hnd : horizons.Nodup) (hne : horizons ≠ []) :
    PositiveReturns (settledTrades params.mode prices · rows)
        (backtestResponse params key horizons rows prices) ↔
      ∀ n ∈ horizons, ∀ p ∈ settledTrades params.mode prices n rows, 0 < p.2.exitPrice := by
  have hsummary := backtestResponse_summary params key hnd rows prices
  constructor
  · intro h n hn p hp
    have hstat : referenceStat n (rows.map (rowTrade params.mode prices · n)) ∈
        (backtestResponse params key horizons rows prices).summary := by
      rw [hsummary]
      exact List.mem_map_of_mem hn
    exact (h.positive _ hstat p hp).2.1
  · intro h
    have hgt {n : Int} (hn : n ∈ horizons) {p : SettledTrade}
        (hp : p ∈ settledTrades params.mode prices n rows) : -100 < p.2.pct :=
      pct_gt (settledTrades_entry_pos hp) (h n hn p hp)
    refine ⟨?_, ?_, ?_, ?_⟩
    · rw [hsummary, backtestResponse_entries]
      intro stat hstat
      obtain ⟨n, -, rfl⟩ := List.mem_map.mp hstat
      have hcounts := (referenceStat_counts n (rows.map (rowTrade params.mode prices · n))).1
      rw [List.length_map] at hcounts
      have hagrees := referenceStat_agrees
        (List.Perm.refl (settledTrades params.mode prices n rows))
      exact ⟨hagrees.samples.trans (List.length_map _), hcounts⟩
    · rw [hsummary]
      intro stat hstat p hp
      obtain ⟨n, hn, rfl⟩ := List.mem_map.mp hstat
      exact ⟨settledTrades_entry_pos hp, h n hn p hp, hgt hn hp⟩
    · rw [hsummary]
      intro stat hstat pct hpct
      obtain ⟨n, hn, rfl⟩ := List.mem_map.mp hstat
      obtain ⟨hsome, value, hvalue, hround⟩ := exists_unrounded hpct
      obtain ⟨p, hp, hle⟩ := exists_le_unrounded hsome hvalue
      exact ⟨value, hvalue, hround, (hgt hn hp).trans_le hle⟩
    · intro row hrow
      obtain ⟨p, hp, rfl⟩ := mem_detail hnd hne hrow
      rw [backtestResponse_detailN]
      exact ⟨p, hp, rfl, hgt (pickDetailN_mem hne params.detailN) hp⟩

/-- The rounding, with every exit above zero. -/
theorem backtestResponse_lossesShown {params : BacktestParams} {key : DetailSort}
    {horizons : List Int} (hnd : horizons.Nodup) (hne : horizons ≠ [])
    (h : ∀ n ∈ horizons, ∀ p ∈ settledTrades params.mode prices n rows, 0 < p.2.exitPrice) :
    LossesShown (settledTrades params.mode prices · rows)
      (backtestResponse params key horizons rows prices) := by
  constructor
  · rw [backtestResponse_summary params key hnd rows prices]
    intro stat hstat pct hpct
    obtain ⟨n, hn, rfl⟩ := List.mem_map.mp hstat
    obtain ⟨hsome, value, hvalue, rfl⟩ := exists_unrounded hpct
    obtain ⟨p, hp, hle⟩ := exists_le_unrounded hsome hvalue
    obtain ⟨hleast, htotal⟩ := shown_loss (settledTrades_entry_pos hp) (h n hn p hp) hle
    exact ⟨hleast, fun heq => ⟨p, hp, htotal heq⟩⟩
  · intro row hrow
    obtain ⟨p, hp, rfl⟩ := mem_detail hnd hne hrow
    rw [backtestResponse_detailN]
    obtain ⟨hleast, htotal⟩ := shown_loss (settledTrades_entry_pos hp)
      (h _ (pickDetailN_mem hne params.detailN) p hp) le_rfl
    exact ⟨hleast, fun heq => ⟨p, hp, rfl, htotal heq⟩⟩

end Response

/-- Every close that was uploaded is above zero as it is stored. -/
def UploadsPositive (ingests : List MarketIngest) : Prop :=
  ∀ body, MarketIngest.prices body ∈ ingests → ∀ item ∈ body.items, ∀ close stored,
    item.close = some close → numeric 12 4 close = some stored → 0 < stored

theorem runMarket_close_pos {ingests : List MarketIngest} (h : UploadsPositive ingests)
    {row : DailyPrice} (hrow : row ∈ (runMarket ingests).prices.rows) : 0 < row.close := by
  obtain ⟨body, hbody, item, hitem, close, hclose, -, -, hstored⟩ :=
    (runMarket_sourced ingests).brought row hrow
  exact h body hbody item hitem close row.close hclose hstored

theorem exitsPositive_of_uploads {ingests : List MarketIngest} (h : UploadsPositive ingests)
    (mode : Mode) (items : List (Date × ScreenSnapshotItem)) (horizons : List Int) :
    ExitsPositive mode (runMarket ingests).prices items horizons := by
  intro pair _ n _ t hsettles
  obtain ⟨-, exitRow, hexitRow, -, -, hexit⟩ := hsettles.exitPrice
  exact hexit ▸ runMarket_close_pos h hexitRow

/-- On the tables that any run of ingests leaves, a backtest settles between two real prices
exactly when no close at zero or below is settled at, as where none was uploaded, and a loss of
everything is then left to the rounding. -/
theorem runMarket_positive_iff (ingests : List MarketIngest) {params : BacktestParams}
    {rows : List (Date × ScreenSnapshotItem)} {key : DetailSort} {horizons : List Int}
    (hrows : IsSnapshotEntries (runMarket ingests).store params.start params.stop
      (modeSession params.mode) rows)
    (hsort : detailSortKeys.lookup params.detailSort = some key)
    (horder : params.detailOrder ∈ ["asc", "desc"])
    (hhorizons : normalizeHorizons params.horizons = .ok horizons) :
    ∃ response, runBacktestOn params rows (runMarket ingests).prices = .ok response ∧
      (PositiveReturns (settledTrades params.mode (runMarket ingests).prices · rows) response ↔
        ExitsPositive params.mode (runMarket ingests).prices
          (itemsInRange (runMarket ingests).store params.start params.stop
            (modeSession params.mode)) params.horizons) ∧
      (ExitsPositive params.mode (runMarket ingests).prices
          (itemsInRange (runMarket ingests).store params.start params.stop
            (modeSession params.mode)) params.horizons →
        LossesShown (settledTrades params.mode (runMarket ingests).prices · rows) response) ∧
      (UploadsPositive ingests →
        PositiveReturns (settledTrades params.mode (runMarket ingests).prices · rows) response) := by
  have hne := normalizeHorizons_ne_nil hhorizons
  have hnd := normalizeHorizons_nodup hhorizons
  have hmem (n : Int) : n ∈ horizons ↔ n ∈ params.horizons := mem_normalizeHorizons hhorizons
  have hperm := hrows.perm_items
  have hexits : (∀ n ∈ horizons, ∀ p ∈ settledTrades params.mode (runMarket ingests).prices n rows,
      0 < p.2.exitPrice) ↔ ExitsPositive params.mode (runMarket ingests).prices
        (itemsInRange (runMarket ingests).store params.start params.stop
          (modeSession params.mode)) params.horizons := by
    constructor
    · intro h pair hpair n hn t ht
      have hrow : pair ∈ rows := hperm.mem_iff.mpr hpair
      exact h n ((hmem n).mpr hn) (toEntry pair, t) (mem_settledTrades.mpr ⟨pair, hrow, rfl, ht⟩)
    · intro h n hn p hp
      obtain ⟨row, hrow, -, hsettles⟩ := mem_settledTrades.mp hp
      exact h row (hperm.mem_iff.mp hrow) n ((hmem n).mp hn) p.2 hsettles
  have hiff := (@backtestResponse_positive_iff (runMarket ingests).prices rows params key _ hnd
    hne).trans hexits
  refine ⟨_, runBacktestOn_accepted hsort horder hhorizons rows _, hiff, fun h => ?_, fun h => ?_⟩
  · exact backtestResponse_lossesShown hnd hne (hexits.mpr h)
  · exact hiff.mpr (exitsPositive_of_uploads h _ _ _)

def screening (items : List SnapshotItemIn) : MarketIngest :=
  .snapshot
    { body := { tradeDate := 10, session := sessionIntraday1300, generatedAt := 0, items }
      ids := { snapshotId := 1, itemId := fun i => i + 1 } }

/-- Of three screened stocks one falls to the smallest price there is and one has no closes. -/
def fallenCloses : List DailyPricesIngestBody :=
  [{ tradeDate := 12, items := [{ symbol := "2330", close := some (1 / 10000) },
      { symbol := "2454", close := some 55 }] },
    { tradeDate := 13, items := [{ symbol := "2330", close := some 190 },
      { symbol := "2454", close := some 48 }] }]

def fallen : List MarketIngest :=
  screening [{ symbol := "2330", close := some 200 }, { symbol := "2317", close := some 100 },
    { symbol := "2454", close := some 50 }] :: fallenCloses.map .prices

def nextTwoDays : BacktestParams := { nextDay with horizons := [2, 1] }

theorem runMarket_positive_iff_fallen :
    let rows := listSnapshotEntries (runMarket fallen).store 10 10 sessionIntraday1300
    ∃ response, runBacktestOn nextTwoDays rows (runMarket fallen).prices = .ok response ∧
      response.summary.map (fun stat => (stat.n, stat.samples, stat.missing)) =
        [(1, 2, 1), (2, 2, 1)] ∧
      PositiveReturns (settledTrades .intradayToClose (runMarket fallen).prices · rows) response ∧
      LossesShown (settledTrades .intradayToClose (runMarket fallen).prices · rows) response := by
  intro rows
  obtain ⟨response, hresponse, hiff, hlosses, huploads⟩ :=
    @runMarket_positive_iff fallen nextTwoDays rows _ _
      (listSnapshotEntries_isSnapshotEntries _ _ _ _)
      (show _ = some DetailSort.tradeDate by decide) (by decide)
      (show normalizeHorizons [2, 1] = .ok [1, 2] by decide)
  have hchecked : ∀ body ∈ fallenCloses, ∀ item ∈ body.items, ∀ close ∈ item.close,
      ∀ stored ∈ numeric 12 4 close, 0 < stored := by decide +kernel
  have hpositive : UploadsPositive fallen := by
    intro body hbody item hitem close stored hclose hstored
    refine hchecked body ?_ item hitem close hclose stored hstored
    simpa [fallen, screening] using hbody
  have hsummary : ∃ response, runBacktestOn nextTwoDays rows (runMarket fallen).prices =
      .ok response ∧ response.summary.map (fun stat => (stat.n, stat.samples, stat.missing)) =
        [(1, 2, 1), (2, 2, 1)] := ⟨_, rfl, by decide +kernel⟩
  obtain ⟨response', hresponse', hsummary⟩ := hsummary
  obtain rfl := Except.ok.inj (hresponse.symm.trans hresponse')
  have hreturns := huploads hpositive
  exact ⟨response, hresponse, hsummary, hreturns, hlosses (hiff.mp hreturns)⟩

/-- A stock screened at 100 whose next close is uploaded as zero. -/
def zeroClosed : List MarketIngest :=
  [screening [{ symbol := "2330", close := some 100 }],
    .prices { tradeDate := 12, items := [{ symbol := "2330", close := some 0 }] }]

theorem runMarket_total_loss :
    let rows := listSnapshotEntries (runMarket zeroClosed).store 10 10 sessionIntraday1300
    ∃ response, runBacktest (runMarket zeroClosed).store (runMarket zeroClosed).prices nextDay =
        .ok response ∧
      response.summary.map (fun stat => (stat.n, stat.samples, stat.missing, stat.losses)) =
        [(1, 1, 0, 1)] ∧
      response.detail.map (·.returnPct) = [-100] ∧
      ¬ PositiveReturns (settledTrades .intradayToClose (runMarket zeroClosed).prices · rows)
        response := by
  intro rows
  have hloss : ∃ response, runBacktest (runMarket zeroClosed).store (runMarket zeroClosed).prices
      nextDay = .ok response ∧
      response.summary.map (fun stat => (stat.n, stat.samples, stat.missing, stat.losses)) =
        [(1, 1, 0, 1)] ∧
      response.detail.map (·.returnPct) = [-100] :=
    ⟨_, rfl, by decide +kernel, by decide +kernel⟩
  have hexits : (settledTrades .intradayToClose (runMarket zeroClosed).prices 1 rows).map
      (·.2.exitPrice) = [0] := by decide +kernel
  obtain ⟨response, hresponse, hsummary, hdetail⟩ := hloss
  refine ⟨response, hresponse, hsummary, hdetail, fun h => ?_⟩
  obtain ⟨stat, hstat, hn⟩ := List.mem_map.mp (hsummary ▸ List.mem_singleton_self _)
  obtain ⟨p, hp, hzero⟩ := List.mem_map.mp (hexits ▸ List.mem_singleton_self (0 : ℚ))
  have hpositive := h.positive stat hstat p ((Prod.mk.inj hn).1 ▸ hp)
  exact hpositive.2.1.ne' hzero

end StockQuant
