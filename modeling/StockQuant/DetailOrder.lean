import StockQuant.BacktestSummary
import StockQuant.StableSort

/-! The detail table: the settled rows of one horizon, ordered as a whole and cut after
that. -/

namespace StockQuant

def DetailSort.columnLt : DetailSort → BacktestDetailRow → BacktestDetailRow → Prop
  | .tradeDate, a, b => a.tradeDate < b.tradeDate
  | .symbol, a, b => a.symbol < b.symbol
  | .entryPrice, a, b => a.entryPrice < b.entryPrice
  | .exitDate, a, b => a.exitDate < b.exitDate
  | .exitPrice, a, b => a.exitPrice < b.exitPrice
  | .change, a, b => a.change < b.change
  | .returnPct, a, b => a.returnPct < b.returnPct

instance (key : DetailSort) : DecidableRel key.columnLt := fun a b =>
  match key with
  | .tradeDate => inferInstanceAs (Decidable (a.tradeDate < b.tradeDate))
  | .symbol => inferInstanceAs (Decidable (a.symbol < b.symbol))
  | .entryPrice => inferInstanceAs (Decidable (a.entryPrice < b.entryPrice))
  | .exitDate => inferInstanceAs (Decidable (a.exitDate < b.exitDate))
  | .exitPrice => inferInstanceAs (Decidable (a.exitPrice < b.exitPrice))
  | .change => inferInstanceAs (Decidable (a.change < b.change))
  | .returnPct => inferInstanceAs (Decidable (a.returnPct < b.returnPct))

def DetailSort.Below (key : DetailSort) (a b : BacktestDetailRow) : Prop :=
  key.columnLt a b ∨ (¬ key.columnLt b a ∧
    (a.tradeDate < b.tradeDate ∨ (a.tradeDate = b.tradeDate ∧ a.symbol < b.symbol)))

instance (key : DetailSort) : DecidableRel key.Below := fun a b =>
  inferInstanceAs (Decidable (key.columnLt a b ∨ (¬ key.columnLt b a ∧
    (a.tradeDate < b.tradeDate ∨ (a.tradeDate = b.tradeDate ∧ a.symbol < b.symbol)))))

/-- One row ranks before another by the sort column, then by date, then by symbol, each the
other way round in a descending table. -/
def RanksBefore (key : DetailSort) (descending : Bool) (a b : BacktestDetailRow) : Prop :=
  if descending then key.Below b a else key.Below a b

instance (key : DetailSort) (descending : Bool) : DecidableRel (RanksBefore key descending) :=
  fun a b => inferInstanceAs (Decidable (if descending then key.Below b a else key.Below a b))

theorem detailLe_iff {key : DetailSort} {a b : BacktestDetailRow} :
    detailLe key a b = true ↔ ¬ key.Below b a := by
  unfold detailLe DetailSort.Below DetailSort.columnLt
  cases key <;> simp only [decide_eq_true_eq, Prod.Lex.toLex_le_toLex] <;> grind

section Below

variable {key : DetailSort} {descending : Bool} {a b c : BacktestDetailRow}

theorem DetailSort.Below.asymm (h : key.Below a b) : ¬ key.Below b a := by
  unfold DetailSort.Below DetailSort.columnLt at *
  cases key <;> grind

theorem DetailSort.Below.trans_not (h : ¬ key.Below b a) (h' : ¬ key.Below c b) :
    ¬ key.Below c a := by
  unfold DetailSort.Below DetailSort.columnLt at *
  cases key <;> grind

/-- Rows that tie are of one date and symbol. -/
theorem DetailSort.tie (h : ¬ key.Below a b) (h' : ¬ key.Below b a) :
    a.tradeDate = b.tradeDate ∧ a.symbol = b.symbol := by
  unfold DetailSort.Below DetailSort.columnLt at *
  cases key <;> grind

end Below

def detailOrder (key : DetailSort) (descending : Bool) (a b : BacktestDetailRow) : Prop :=
  ¬ RanksBefore key descending b a

instance (key : DetailSort) (descending : Bool) : DecidableRel (detailOrder key descending) :=
  fun a b => inferInstanceAs (Decidable (¬ RanksBefore key descending b a))

instance (key : DetailSort) (descending : Bool) : Std.Total (detailOrder key descending) where
  total a b := by
    unfold detailOrder RanksBefore
    cases descending
    · by_cases h : key.Below b a
      · exact Or.inr h.asymm
      · exact Or.inl h
    · by_cases h : key.Below a b
      · exact Or.inr h.asymm
      · exact Or.inl h

instance (key : DetailSort) (descending : Bool) :
    IsTrans BacktestDetailRow (detailOrder key descending) where
  trans a b c hab hbc := by
    unfold detailOrder RanksBefore at *
    cases descending
    · exact DetailSort.Below.trans_not hab hbc
    · exact DetailSort.Below.trans_not hbc hab

theorem sortDetail_eq (key : DetailSort) (descending : Bool) (detail : List BacktestDetailRow) :
    sortDetail key descending detail = detail.insertionSort (detailOrder key descending) := by
  have hsame (r : BacktestDetailRow → BacktestDetailRow → Prop) [DecidableRel r]
      (hr : ∀ a b, r a b ↔ detailOrder key descending a b) :
      detail.insertionSort r = detail.insertionSort (detailOrder key descending) := by
    simpa using List.map_insertionSort r (detailOrder key descending) id detail fun a _ b _ => hr a b
  unfold sortDetail
  cases descending
  · exact hsame (fun a b => detailLe key a b = true) fun _ _ => detailLe_iff
  · exact hsame (fun a b => detailLe key b a = true) fun _ _ => detailLe_iff

/-- What the rows are made from is sorted with them. -/
theorem sortDetail_map {α : Type} (key : DetailSort) (descending : Bool)
    (row : α → BacktestDetailRow) (l : List α) :
    sortDetail key descending (l.map row) =
      (l.insertionSort fun a b => detailOrder key descending (row a) (row b)).map row := by
  rw [sortDetail_eq]
  exact (List.map_insertionSort _ _ row l fun _ _ _ _ => Iff.rfl).symm

theorem sortDetail_perm (key : DetailSort) (descending : Bool) (detail : List BacktestDetailRow) :
    (sortDetail key descending detail).Perm detail := by
  rw [sortDetail_eq]
  exact List.perm_insertionSort _ _

theorem sortDetail_pairwise (key : DetailSort) (descending : Bool)
    (detail : List BacktestDetailRow) :
    (sortDetail key descending detail).Pairwise (detailOrder key descending) := by
  rw [sortDetail_eq]
  exact List.pairwise_insertionSort _ _

def settledRow (mode : Mode) (prices : PriceTable) (n : Int) (row : Date × ScreenSnapshotItem) :
    Option BacktestDetailRow :=
  (rowTrade mode prices row n).map (Trade.row (toEntry row))

def settledRows (mode : Mode) (prices : PriceTable) (n : Int)
    (rows : List (Date × ScreenSnapshotItem)) : List BacktestDetailRow :=
  rows.filterMap (settledRow mode prices n)

theorem pickDetailN_mem {horizons : List Int} (h : horizons ≠ []) (detailN : Option Int) :
    pickDetailN horizons detailN ∈ horizons := by
  have hhead : horizons.headD 0 ∈ horizons := by
    cases horizons with
    | nil => exact absurd rfl h
    | cons n horizons => exact List.mem_cons_self
  unfold pickDetailN
  cases detailN with
  | none => exact hhead
  | some n =>
    dsimp only
    split_ifs with hn
    · exact hn
    · exact hhead

section Response

variable (params : BacktestParams) (key : DetailSort) {horizons : List Int}
  (rows : List (Date × ScreenSnapshotItem)) (prices : PriceTable)

theorem settleAll_detail (hnd : horizons.Nodup) (hne : horizons ≠ []) :
    (settleAll params.mode prices horizons (pickDetailN horizons params.detailN)
      (collectEntries rows)).detail =
      settledRows params.mode prices (pickDetailN horizons params.detailN) rows := by
  have hn := pickDetailN_mem hne params.detailN
  rw [(settleAll_spec params.mode prices hnd _ _).2.2 hn]
  unfold collectEntries settledRows
  rw [List.filterMap_map]
  refine List.filterMap_congr fun row hrow => ?_
  have hentry : toEntry row ∈ rows.map toEntry := List.mem_map_of_mem hrow
  rw [Function.comp_apply, reportedTrade_eq hentry hn]
  rfl

theorem sortDetail_nil (descending : Bool) : sortDetail key descending [] = [] := by
  unfold sortDetail
  split_ifs <;> rfl

theorem cutDetail_nil (limit : Int) : cutDetail limit [] = [] := by
  unfold cutDetail
  split_ifs
  · exact List.take_nil
  · rfl

theorem settledRows_eq_nil (n : Int)
    (h : collectEntries rows = [] ∨ listPriceTradingDays prices = []) :
    settledRows params.mode prices n rows = [] := by
  rcases h with hentries | hcalendar
  · have hrows : rows = [] := by simpa [collectEntries] using hentries
    rw [hrows]
    rfl
  · refine List.filterMap_eq_nil_iff.mpr fun row _ => ?_
    rw [settledRow, rowTrade_of_calendar_nil hcalendar, Option.map_none]

theorem backtestResponse_detailN (horizons : List Int) :
    (backtestResponse params key horizons rows prices).detailN =
      pickDetailN horizons params.detailN := by
  unfold backtestResponse
  dsimp only
  split_ifs <;> rfl

theorem backtestResponse_detailTotal (hnd : horizons.Nodup) (hne : horizons ≠ []) :
    (backtestResponse params key horizons rows prices).detailTotal =
      (settledRows params.mode prices (pickDetailN horizons params.detailN) rows).length := by
  unfold backtestResponse
  dsimp only
  split_ifs with hentries hcalendar
  · rw [settledRows_eq_nil _ _ _ _ (Or.inl hentries)]
    rfl
  · rw [settledRows_eq_nil _ _ _ _ (Or.inr hcalendar)]
    rfl
  · rw [(sortDetail_perm _ _ _).length_eq, settleAll_detail params rows prices hnd hne]

/-- The rows are ordered as a whole and cut after that. -/
theorem backtestResponse_detail (hnd : horizons.Nodup) (hne : horizons ≠ []) :
    (backtestResponse params key horizons rows prices).detail =
      cutDetail params.detailLimit (sortDetail key (params.detailOrder = "desc")
        (settledRows params.mode prices (pickDetailN horizons params.detailN) rows)) := by
  unfold backtestResponse
  dsimp only
  split_ifs with hentries hcalendar
  · rw [settledRows_eq_nil _ _ _ _ (Or.inl hentries), sortDetail_nil, cutDetail_nil]
  · rw [settledRows_eq_nil _ _ _ _ (Or.inr hcalendar), sortDetail_nil, cutDetail_nil]
  · rw [settleAll_detail params rows prices hnd hne]

/-- The limit is for the cut alone. -/
theorem backtestResponse_limit (horizons : List Int) (limit : Int) :
    let limited := backtestResponse { params with detailLimit := limit } key horizons rows prices
    limited =
      { backtestResponse params key horizons rows prices with detail := limited.detail } := by
  intro limited
  unfold limited backtestResponse
  dsimp only
  split_ifs <;> rfl

end Response

/-- The horizon that the detail is for: the one asked for where it is among the horizons,
and the smallest otherwise. -/
def IsDetailN (params : BacktestParams) (n : Int) : Prop :=
  n ∈ params.horizons ∧
    (params.detailN = some n ∨
      ((∀ m, params.detailN = some m → m ∉ params.horizons) ∧ ∀ m ∈ params.horizons, n ≤ m))

/-- `ranked` has a row for each item that settles at `n`, and none of them before one that
ranks before it. -/
structure IsRankedDetail (params : BacktestParams) (store : SnapshotStore) (prices : PriceTable)
    (key : DetailSort) (n : Int) (ranked : List BacktestDetailRow) : Prop where
  settled : ∃ outcome : Date × ScreenSnapshotItem → Option Trade,
    (∀ pair t, outcome pair = some t ↔
      Settles (· ≠ "") params.mode prices pair.1 pair.2 n t) ∧
    ranked.Perm ((itemsInRange store params.start params.stop (modeSession params.mode)).filterMap
      fun pair => (outcome pair).map (Trade.row (toEntry pair)))
  ordered : ranked.Pairwise fun a b => ¬ RanksBefore key (params.detailOrder = "desc") b a

theorem isDetailN_pickDetailN {params : BacktestParams} {horizons : List Int}
    (h : normalizeHorizons params.horizons = .ok horizons) :
    IsDetailN params (pickDetailN horizons params.detailN) := by
  have hne := normalizeHorizons_ne_nil h
  obtain rfl := normalizeHorizons_ok h
  have hpick := pickDetailN_mem hne params.detailN
  refine ⟨SortedList.mem_distinct.mp hpick, ?_⟩
  have hsmallest : ∀ m ∈ params.horizons, (SortedList.distinct params.horizons).headD 0 ≤ m := by
    intro m hm
    have hascending := SortedList.distinct_pairwise params.horizons
    rw [← SortedList.mem_distinct] at hm
    cases hdistinct : SortedList.distinct params.horizons with
    | nil => exact absurd hdistinct hne
    | cons n rest =>
      rw [hdistinct] at hm hascending
      rcases List.mem_cons.mp hm with rfl | hm
      · exact le_rfl
      · exact ((List.pairwise_cons.mp hascending).1 m hm).le
  unfold pickDetailN
  cases hn : params.detailN with
  | none => exact Or.inr ⟨by simp, hsmallest⟩
  | some n =>
    dsimp only
    split_ifs with hmem
    · exact Or.inl rfl
    · refine Or.inr ⟨fun m hm => ?_, hsmallest⟩
      obtain rfl := Option.some.inj hm
      rwa [SortedList.mem_distinct] at hmem

theorem settledRows_ranked {params : BacktestParams} {store : SnapshotStore} {prices : PriceTable}
    {rows : List (Date × ScreenSnapshotItem)} (key : DetailSort) (n : Int)
    (hrows : IsSnapshotEntries store params.start params.stop (modeSession params.mode) rows) :
    IsRankedDetail params store prices key n
      (sortDetail key (params.detailOrder = "desc") (settledRows params.mode prices n rows)) := by
  refine ⟨⟨(rowTrade params.mode prices · n), fun _ _ => rowTrade_eq_some_iff, ?_⟩,
    sortDetail_pairwise _ _ _⟩
  exact (sortDetail_perm _ _ _).trans (hrows.perm_items.filterMap _)

/-- The detail is the first rows of all the settled ones in order, and another limit gives
the same response but for a shorter or longer piece of that order. -/
theorem runBacktestOn_detail {store : SnapshotStore} {prices : PriceTable}
    {params : BacktestParams} {rows : List (Date × ScreenSnapshotItem)} {key : DetailSort}
    {horizons : List Int}
    (hrows : IsSnapshotEntries store params.start params.stop (modeSession params.mode) rows)
    (hsort : detailSortKeys.lookup params.detailSort = some key)
    (horder : params.detailOrder ∈ ["asc", "desc"])
    (hhorizons : normalizeHorizons params.horizons = .ok horizons)
    (hlimit : 0 ≤ params.detailLimit) :
    ∃ response ranked, runBacktestOn params rows prices = .ok response ∧
      IsDetailN params response.detailN ∧
      IsRankedDetail params store prices key response.detailN ranked ∧
      response.detailTotal = ranked.length ∧
      response.detail = ranked.take params.detailLimit.toNat ∧
      (∀ a ∈ response.detail, ∀ b ∈ ranked.drop params.detailLimit.toNat,
        ¬ RanksBefore key (params.detailOrder = "desc") b a) ∧
      ∀ limit, 0 ≤ limit →
        ∃ detail, runBacktestOn { params with detailLimit := limit } rows prices =
            .ok { response with detail } ∧
          detail = ranked.take limit.toNat ∧
          (params.detailLimit ≤ limit → response.detail <+: detail) := by
  have hne := normalizeHorizons_ne_nil hhorizons
  have hnd := normalizeHorizons_nodup hhorizons
  let ranked := sortDetail key (params.detailOrder = "desc")
    (settledRows params.mode prices (pickDetailN horizons params.detailN) rows)
  have hn := backtestResponse_detailN params key rows prices horizons
  have hranked : IsRankedDetail params store prices key
      (backtestResponse params key horizons rows prices).detailN ranked := by
    rw [hn]
    exact settledRows_ranked key _ hrows
  have hcut (limit : Int) (h : 0 ≤ limit) :
      backtestResponse { params with detailLimit := limit } key horizons rows prices =
        { backtestResponse params key horizons rows prices with
          detail := ranked.take limit.toNat } := by
    have hdetail := backtestResponse_detail { params with detailLimit := limit } key rows prices
      hnd hne
    rw [cutDetail, if_pos h] at hdetail
    rw [backtestResponse_limit, hdetail]
  have hdetail : (backtestResponse params key horizons rows prices).detail =
      ranked.take params.detailLimit.toNat :=
    congrArg BacktestResponse.detail (hcut params.detailLimit hlimit)
  refine ⟨_, ranked, runBacktestOn_accepted hsort horder hhorizons rows prices, ?_, hranked, ?_,
    hdetail, ?_, fun limit h => ⟨ranked.take limit.toNat, ?_, rfl, fun hle => ?_⟩⟩
  · rw [hn]
    exact isDetailN_pickDetailN hhorizons
  · rw [backtestResponse_detailTotal params key rows prices hnd hne,
      (sortDetail_perm _ _ _).length_eq]
  · intro a ha b hb
    rw [hdetail] at ha
    have hordered := hranked.ordered
    rw [← List.take_append_drop params.detailLimit.toNat ranked] at hordered
    exact (List.pairwise_append.mp hordered).2.2 a ha b hb
  · rw [← hcut limit h]
    exact @runBacktestOn_accepted { params with detailLimit := limit } _ _ hsort horder hhorizons
      rows prices
  · rw [hdetail]
    exact List.take_prefix_take_left (by omega)

/-- The limit cuts in the middle of three trades with the same return. -/
theorem runBacktestOn_detail_watched :
    ∃ response ranked, runBacktestOn watchParams watchRows watchPrices = .ok response ∧
      response.detail.map (fun row => (row.symbol, row.tradeDate, row.returnPct)) =
        [("2454", 11, -10), ("2317", 10, 10)] ∧
      IsDetailN watchParams response.detailN ∧
      IsRankedDetail watchParams watchStore watchPrices .returnPct response.detailN ranked ∧
      response.detailTotal = ranked.length ∧
      response.detail = ranked.take watchParams.detailLimit.toNat ∧
      (∀ a ∈ response.detail, ∀ b ∈ ranked.drop watchParams.detailLimit.toNat,
        ¬ RanksBefore .returnPct (watchParams.detailOrder = "desc") b a) ∧
      (ranked.drop watchParams.detailLimit.toNat).map
          (fun row => (row.symbol, row.tradeDate, row.returnPct)) =
        [("2330", 10, 10), ("2330", 11, 10)] ∧
      ∀ limit, 0 ≤ limit →
        ∃ detail, runBacktestOn { watchParams with detailLimit := limit } watchRows watchPrices =
            .ok { response with detail } ∧
          detail = ranked.take limit.toNat ∧
          (watchParams.detailLimit ≤ limit → response.detail <+: detail) := by
  obtain ⟨response, ranked, hresponse, hn, hranked, htotal, hdetail, hordered, hlimits⟩ :=
    @runBacktestOn_detail watchStore watchPrices watchParams watchRows _ _
      (listSnapshotEntries_isSnapshotEntries _ _ _ _)
      (show _ = some DetailSort.returnPct by decide) (by decide)
      (show normalizeHorizons [2, 1] = .ok [1, 2] by decide) (by decide)
  let seen (row : BacktestDetailRow) := (row.symbol, row.tradeDate, row.returnPct)
  have hseen (limit : Int) (hlimit : 0 ≤ limit) :
      (runBacktestOn { watchParams with detailLimit := limit } watchRows watchPrices).toOption.map
        (·.detail.map seen) = some ((ranked.take limit.toNat).map seen) := by
    obtain ⟨detail, hrun, rfl, -⟩ := hlimits limit hlimit
    rw [hrun]
    rfl
  have hall : (ranked.take 5).map seen =
      [("2454", 11, -10), ("2317", 10, 10), ("2330", 10, 10), ("2330", 11, 10)] :=
    Option.some.inj ((hseen 5 (by decide)).symm.trans (by decide +kernel))
  have hfour : ranked.length = 4 := by
    have hlength := congrArg List.length hall
    simp only [List.length_map, List.length_take, List.length_cons, List.length_nil] at hlength
    omega
  rw [List.take_of_length_le (by omega)] at hall
  refine ⟨response, ranked, hresponse, ?_, hn, hranked, htotal, hdetail, hordered, ?_, hlimits⟩
  · rw [hdetail, List.map_take, hall]
    rfl
  · rw [List.map_drop, hall]
    rfl

end StockQuant
