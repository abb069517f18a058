import StockQuant.DetailOrder

/-! The detail table and the summary of its horizon are two views of the same outcomes. -/

namespace StockQuant

open Statistics StableSort

abbrev SettledTrade := Entry × Trade

abbrev SettledTrade.row (p : SettledTrade) : BacktestDetailRow := p.2.row p.1

def settledTrades (mode : Mode) (prices : PriceTable) (n : Int)
    (rows : List (Date × ScreenSnapshotItem)) : List SettledTrade :=
  rows.filterMap fun row => (rowTrade mode prices row n).map (toEntry row, ·)

section Trades

variable {mode : Mode} {prices : PriceTable} {n : Int} {rows : List (Date × ScreenSnapshotItem)}

theorem map_settledTrades : (settledTrades mode prices n rows).map SettledTrade.row =
    settledRows mode prices n rows := by
  unfold settledTrades settledRows
  rw [List.map_filterMap]
  refine List.filterMap_congr fun row _ => ?_
  rw [Option.map_map]
  rfl

theorem mem_settledTrades {p : SettledTrade} :
    p ∈ settledTrades mode prices n rows ↔
      ∃ row ∈ rows, toEntry row = p.1 ∧ Settles (· ≠ "") mode prices row.1 row.2 n p.2 := by
  unfold settledTrades
  simp only [List.mem_filterMap, Option.map_eq_some_iff, rowTrade_eq_some_iff]
  constructor
  · rintro ⟨row, hrow, t, ht, rfl⟩
    exact ⟨row, hrow, rfl, ht⟩
  · rintro ⟨row, hrow, hentry, ht⟩
    exact ⟨row, hrow, p.2, ht, Prod.ext hentry rfl⟩

theorem countP_settledTrades (p : ℚ → Bool) :
    (settledTrades mode prices n rows).countP (p ·.2.pct) =
      (rows.map (rowTrade mode prices · n)).countP fun outcome => outcome.any (p ·.pct) := by
  unfold settledTrades
  rw [List.countP_filterMap, List.countP_map]
  refine List.countP_congr fun row _ => ?_
  cases htrade : rowTrade mode prices row n <;> simp [htrade]

theorem map_pct_settledTrades : (settledTrades mode prices n rows).map (·.2.pct) =
    (rows.map (rowTrade mode prices · n)).filterMap fun outcome => outcome.map Trade.pct := by
  unfold settledTrades
  rw [List.map_filterMap, List.filterMap_map]
  refine List.filterMap_congr fun row _ => ?_
  rw [Option.map_map]
  rfl

end Trades

/-- The stat of a horizon and a detail of all its rows, which are those of the trades that
settled. -/
structure Agrees (settled : List SettledTrade) (stat : BacktestHorizonStat)
    (detail : List BacktestDetailRow) : Prop where
  samples : stat.samples = detail.length
  best : stat.bestReturnPct = (detail.map (·.returnPct)).max?
  worst : stat.worstReturnPct = (detail.map (·.returnPct)).min?
  counted : ∃ trades : List SettledTrade, trades.Perm settled ∧
    detail = trades.map SettledTrade.row ∧
    stat.wins = trades.countP (0 < ·.2.pct) ∧ stat.losses = trades.countP (·.2.pct < 0) ∧
    ∀ p ∈ trades, (0 < p.row.returnPct → 0 < p.2.pct) ∧ (p.row.returnPct < 0 → p.2.pct < 0)
  between : ∀ worst best, stat.worstReturnPct = some worst → stat.bestReturnPct = some best →
    (∃ median, stat.medianReturnPct = some median ∧ worst ≤ median ∧ median ≤ best) ∧
    ∃ average, stat.avgReturnPct = some average ∧ worst ≤ average ∧ average ≤ best

section Trades

variable {mode : Mode} {prices : PriceTable} {n : Int} {rows : List (Date × ScreenSnapshotItem)}

theorem referenceStat_agrees {trades : List SettledTrade}
    (h : trades.Perm (settledTrades mode prices n rows)) :
    Agrees (settledTrades mode prices n rows)
      (referenceStat n (rows.map (rowTrade mode prices · n))) (trades.map SettledTrade.row) := by
  have hcount (p : ℚ → Bool) := (h.countP_eq (p ·.2.pct)).trans (countP_settledTrades p)
  have hreturns : (trades.map (·.2.pct)).Perm
      ((rows.map (rowTrade mode prices · n)).filterMap fun outcome => outcome.map Trade.pct) := by
    rw [← map_pct_settledTrades]
    exact h.map _
  have hsamples : (rows.map (rowTrade mode prices · n)).countP (·.isSome) = trades.length := by
    have hlength := hreturns.length_eq
    rw [List.length_map, List.length_filterMap_eq_countP] at hlength
    simpa using hlength.symm
  have hrounded : (trades.map SettledTrade.row).map (·.returnPct) =
      (trades.map (·.2.pct)).map (roundTo 4) := by
    rw [List.map_map, List.map_map]
    rfl
  have hcounted : ∃ trades' : List SettledTrade, trades'.Perm (settledTrades mode prices n rows) ∧
      trades.map SettledTrade.row = trades'.map SettledTrade.row ∧
      (referenceStat n (rows.map (rowTrade mode prices · n))).wins = trades'.countP (0 < ·.2.pct) ∧
      (referenceStat n (rows.map (rowTrade mode prices · n))).losses =
        trades'.countP (·.2.pct < 0) ∧
      ∀ p ∈ trades', (0 < p.row.returnPct → 0 < p.2.pct) ∧ (p.row.returnPct < 0 → p.2.pct < 0) :=
    ⟨trades, h, rfl, (hcount (0 < ·)).symm, (hcount (· < 0)).symm, fun _ _ =>
      ⟨pos_of_roundTo_pos, neg_of_roundTo_neg⟩⟩
  by_cases hnil : trades = []
  · subst hnil
    have hzero : (rows.map (rowTrade mode prices · n)).countP (·.isSome) = 0 := hsamples
    refine ⟨hsamples, if_pos hzero, if_pos hzero, hcounted, fun worst best hworst => ?_⟩
    cases (if_pos hzero).symm.trans hworst
  · have hpos : (rows.map (rowTrade mode prices · n)).countP (·.isSome) ≠ 0 := by
      rw [hsamples]
      exact fun hzero => hnil (List.length_eq_zero_iff.mp hzero)
    have hne : trades.map (·.2.pct) ≠ [] := by simpa using hnil
    have hmean := mean_bounds hne
    have hmedian := median_bounds hne
    have hmono := roundTo_mono 4
    refine ⟨hsamples.trans (List.length_map _).symm, ?_, ?_, hcounted,
      fun worst best hworst hbest => ?_⟩
    · rw [hrounded, max?_eq_best (by simpa using hne), best_map hmono hne, best_perm hreturns]
      exact if_neg hpos
    · rw [hrounded, min?_eq_worst (by simpa using hne), worst_map hmono hne, worst_perm hreturns]
      exact if_neg hpos
    · simp only [referenceStat, if_neg hpos, Option.some.injEq, ← best_perm hreturns,
        ← worst_perm hreturns, ← mean_perm hreturns, ← median_perm hreturns] at hworst hbest ⊢
      subst hworst hbest
      exact ⟨⟨_, rfl, hmono hmedian.1, hmono hmedian.2⟩, ⟨_, rfl, hmono hmean.1, hmono hmean.2⟩⟩

end Trades

/-- Where the limit does not cut, the summary has one stat at the horizon of the detail, and
it is that of the rows shown. -/
theorem runBacktestOn_agrees {prices : PriceTable} {params : BacktestParams}
    {rows : List (Date × ScreenSnapshotItem)} {key : DetailSort} {horizons : List Int}
    (hsort : detailSortKeys.lookup params.detailSort = some key)
    (horder : params.detailOrder ∈ ["asc", "desc"])
    (hhorizons : normalizeHorizons params.horizons = .ok horizons) :
    ∃ response, runBacktestOn params rows prices = .ok response ∧
      ((response.detailTotal : Int) ≤ params.detailLimit →
        response.detailTotal = response.detail.length ∧
        ∃ stat, (∀ stat' ∈ response.summary, stat'.n = response.detailN ↔ stat' = stat) ∧
          stat ∈ response.summary ∧
          Agrees (settledTrades params.mode prices response.detailN rows) stat response.detail) := by
  have hne := normalizeHorizons_ne_nil hhorizons
  have hnd := normalizeHorizons_nodup hhorizons
  let n := pickDetailN horizons params.detailN
  have hsummary := backtestResponse_summary params key hnd rows prices
  have htotal := backtestResponse_detailTotal params key rows prices hnd hne
  have hn := backtestResponse_detailN params key rows prices horizons
  refine ⟨_, runBacktestOn_accepted hsort horder hhorizons rows prices, fun hlimit => ?_⟩
  obtain ⟨trades, hperm, hsorted⟩ : ∃ trades : List SettledTrade,
      trades.Perm (settledTrades params.mode prices n rows) ∧
      sortDetail key (params.detailOrder = "desc") (settledRows params.mode prices n rows) =
        trades.map SettledTrade.row :=
    ⟨_, List.perm_insertionSort _ _, by rw [← map_settledTrades, sortDetail_map]⟩
  have hlength := congrArg List.length hsorted
  rw [(sortDetail_perm _ _ _).length_eq] at hlength
  have hdetail : (backtestResponse params key horizons rows prices).detail =
      trades.map SettledTrade.row := by
    rw [htotal] at hlimit
    rw [backtestResponse_detail params key rows prices hnd hne, cutDetail, if_pos (by omega),
      List.take_of_length_le, hsorted]
    rw [(sortDetail_perm _ _ _).length_eq]
    omega
  refine ⟨?_, referenceStat n (rows.map (rowTrade params.mode prices · n)), ?_, ?_, ?_⟩
  · rw [htotal, hdetail, hlength]
  · rw [hsummary, hn]
    intro stat hstat
    obtain ⟨m, -, rfl⟩ := List.mem_map.mp hstat
    constructor
    · intro hm
      have hm : m = n := hm
      rw [hm]
    · intro hm
      exact congrArg BacktestHorizonStat.n hm
  · rw [hsummary]
    exact List.mem_map_of_mem (pickDetailN_mem hne params.detailN)
  · rw [hdetail, hn]
    exact referenceStat_agrees hperm

theorem runBacktestOn_agrees_watched :
    let params := { watchParams with detailLimit := 4 }
    ∃ response, runBacktestOn params watchRows watchPrices = .ok response ∧
      response.detailTotal = 4 ∧ response.detail.length = 4 ∧
        ∃ stat, (∀ stat' ∈ response.summary, stat'.n = response.detailN ↔ stat' = stat) ∧
          stat ∈ response.summary ∧
          Agrees (settledTrades .intradayToClose watchPrices response.detailN watchRows) stat
            response.detail := by
  intro params
  obtain ⟨response, hresponse, hagrees⟩ := @runBacktestOn_agrees watchPrices params watchRows _ _
    (show _ = some DetailSort.returnPct by decide) (by decide)
    (show normalizeHorizons [2, 1] = .ok [1, 2] by decide)
  have htotal : (runBacktestOn params watchRows watchPrices).toOption.map (·.detailTotal) =
      some 4 := by decide +kernel
  rw [hresponse] at htotal
  have htotal : response.detailTotal = 4 := Option.some.inj htotal
  obtain ⟨hlength, hstat⟩ := hagrees (by rw [htotal]; decide)
  exact ⟨response, hresponse, htotal, hlength.symm.trans htotal, hstat⟩

end StockQuant
