import StockQuant.DetailOrder

/-! The note on an incomplete backtest, and which of its two causes it names. -/

namespace StockQuant

open SortedList

theorem nthTradingDay_eq_none_iff {calendar : List Date} (h : calendar.Pairwise (· < ·))
    {day : Date} {n : Int} (hn : 1 ≤ n) :
    nthTradingDay calendar day n = none ↔ (calendar.countP (day < ·) : Int) < n := by
  have hrest := congrArg List.length (drop_bisectRight h day)
  rw [List.length_drop, ← List.countP_eq_length_filter] at hrest
  have hle : bisectRight calendar day ≤ calendar.length := (List.takeWhile_sublist _).length_le
  unfold nthTradingDay
  rw [if_neg (by omega), if_neg (by omega), List.getElem?_eq_none_iff]
  omega

theorem nthTradingDay_zero_eq_none_iff {calendar : List Date} (h : calendar.Pairwise (· < ·))
    {day : Date} : nthTradingDay calendar day 0 = none ↔ day ∉ calendar := by
  unfold nthTradingDay
  simp [getElem?_bisectLeft h]

/-- Too few trading days have passed since the newest screening day. -/
def NotElapsed (calendar : List Date) (newest : Date) (biggest : Int) : Prop :=
  if biggest = 0 then ∀ day ∈ calendar, day < newest
  else (calendar.countP (newest < ·) : Int) < biggest

theorem nthTradingDay_eq_none_iff_notElapsed {calendar : List Date}
    (h : calendar.Pairwise (· < ·)) {newest : Date} {biggest : Int} (hpos : 0 ≤ biggest) :
    nthTradingDay calendar newest biggest = none ↔
      NotElapsed calendar newest biggest ∨
        (biggest = 0 ∧ newest ∉ calendar ∧ ∃ day ∈ calendar, newest < day) := by
  unfold NotElapsed
  split_ifs with hzero
  · subst hzero
    rw [nthTradingDay_zero_eq_none_iff h]
    constructor
    · intro hnot
      by_cases hlater : ∃ day ∈ calendar, newest < day
      · exact Or.inr ⟨rfl, hnot, hlater⟩
      · refine Or.inl fun day hday => lt_of_le_of_ne ?_ fun heq => hnot (heq ▸ hday)
        exact not_lt.mp fun hlt => hlater ⟨day, hday, hlt⟩
    · rintro (hall | ⟨-, hnot, -⟩)
      · exact fun hmem => lt_irrefl _ (hall newest hmem)
      · exact hnot
  · rw [nthTradingDay_eq_none_iff h (by omega)]
    simp [hzero]

/-- The entries that a horizon misses. -/
def missingCount (mode : Mode) (prices : PriceTable) (rows : List (Date × ScreenSnapshotItem))
    (n : Int) : Nat := rows.countP (rowTrade mode prices · n = none)

theorem coverageWarning_congr {entries entries' : List Entry} {calendar : List Date}
    {horizons : List Int} {missing missing' : Int → Nat}
    (hentries : (entries.map (·.tradeDate)).Perm (entries'.map (·.tradeDate)))
    (hmissing : ∀ n ∈ horizons, missing n = missing' n) :
    coverageWarning entries calendar horizons missing =
      coverageWarning entries' calendar horizons missing' := by
  have hnewest : (entries.map (·.tradeDate)).max? = (entries'.map (·.tradeDate)).max? := by
    ext day
    simp only [List.max?_eq_some_iff, hentries.mem_iff]
  have hlength : entries.length = entries'.length := by simpa using hentries.length_eq
  unfold coverageWarning
  rw [hnewest, hlength, List.map_congr_left hmissing]

theorem backtestResponse_warning (params : BacktestParams) (key : DetailSort)
    {horizons : List Int} (hnd : horizons.Nodup) (rows : List (Date × ScreenSnapshotItem))
    (prices : PriceTable) :
    (backtestResponse params key horizons rows prices).warning =
      if rows = [] then some .noEntries
      else if listPriceTradingDays prices = [] then some .noPrices
      else coverageWarning (collectEntries rows) (listPriceTradingDays prices) horizons
        (missingCount params.mode prices rows) := by
  have hempty : collectEntries rows = [] ↔ rows = [] := List.map_eq_nil_iff
  unfold backtestResponse
  simp only [hempty]
  split_ifs with hrows hcalendar
  · rfl
  · rfl
  · refine coverageWarning_congr (List.Perm.refl _) fun n hn => ?_
    rw [(settleAll_spec params.mode prices hnd _ _).2.1 n hn]
    unfold missingCount collectEntries
    rw [List.countP_map]
    refine List.countP_congr fun row hrow => ?_
    have hentry : toEntry row ∈ rows.map toEntry := List.mem_map_of_mem hrow
    rw [Function.comp_apply, reportedTrade_eq hentry hn]
    rfl

theorem max?_getD_of_isGreatest {α : Type} [LinearOrder α] {l : List α} {x d : α}
    (h : IsGreatest {a | a ∈ l} x) : l.max?.getD d = x := by
  rw [List.max?_eq_some_iff.mpr ⟨h.1, fun b hb => h.2 hb⟩, Option.getD_some]

/-- The note blames the calendar exactly when it is too short, and otherwise a fifth of the
entries without an outcome makes it the note on prices that were not uploaded. -/
structure BlamesCause (calendar : List Date) (newest : Date) (biggest : Int) (entries : Nat)
    (summary : List BacktestHorizonStat) (warning : Option Warning) : Prop where
  elapsed : (∃ lastPriceDay n, warning = some (.notElapsed lastPriceDay n)) ↔
    NotElapsed calendar newest biggest
  backfill : ¬ NotElapsed calendar newest biggest →
    (∃ stat ∈ summary, (entries : ℚ) / 5 ≤ stat.missing) →
    ∃ worst, warning = some (.notBackfilled worst)

section Cause

variable {rows : List (Date × ScreenSnapshotItem)} {prices : PriceTable} {horizons : List Int}
  {newest : Date} {biggest : Int}

theorem coverageWarning_of_none {calendar : List Date} {missing : Int → Nat}
    (hnewest : IsGreatest {day | day ∈ rows.map Prod.fst} newest)
    (hbiggest : IsGreatest {n | n ∈ horizons} biggest)
    (h : nthTradingDay calendar newest biggest = none) :
    coverageWarning (collectEntries rows) calendar horizons missing =
      some (.notElapsed (calendar.getLast?.getD 0) biggest) := by
  have hdays : (collectEntries rows).map (·.tradeDate) = rows.map Prod.fst := List.map_map
  unfold coverageWarning
  rw [hdays, max?_getD_of_isGreatest hnewest, max?_getD_of_isGreatest hbiggest]
  exact if_pos h

theorem coverageWarning_of_some {calendar : List Date} {missing : Int → Nat}
    (hnewest : IsGreatest {day | day ∈ rows.map Prod.fst} newest)
    (hbiggest : IsGreatest {n | n ∈ horizons} biggest)
    (h : nthTradingDay calendar newest biggest ≠ none) :
    (∀ lastPriceDay n, coverageWarning (collectEntries rows) calendar horizons missing ≠
        some (.notElapsed lastPriceDay n)) ∧
      ((∃ n ∈ horizons, (rows.length : ℚ) / 5 ≤ missing n) →
        ∃ worst, coverageWarning (collectEntries rows) calendar horizons missing =
          some (.notBackfilled worst)) := by
  have hdays : (collectEntries rows).map (·.tradeDate) = rows.map Prod.fst := List.map_map
  have hlength : (collectEntries rows).length = rows.length := List.length_map _
  unfold coverageWarning
  rw [hdays, hlength, max?_getD_of_isGreatest hnewest, max?_getD_of_isGreatest hbiggest]
  simp only [if_neg h]
  constructor
  · intro lastPriceDay n
    split_ifs <;> simp
  · rintro ⟨n, hn, hfifth⟩
    obtain ⟨worst, hworst⟩ : ∃ worst, (horizons.map missing).max? = some worst :=
      Option.isSome_iff_exists.mp (List.isSome_max?_of_mem (List.mem_map_of_mem hn))
    have hle : missing n ≤ worst :=
      (List.max?_eq_some_iff.mp hworst).2 _ (List.mem_map_of_mem hn)
    have hrows : 0 < (rows.length : ℚ) / 5 := by
      have hpos := List.length_pos_of_mem hnewest.1
      rw [List.length_map] at hpos
      have : (0 : ℚ) < rows.length := by exact_mod_cast hpos
      positivity
    have hle' : (missing n : ℚ) ≤ worst := by exact_mod_cast hle
    have hpos : worst ≠ 0 := by
      rintro rfl
      simp only [Nat.cast_zero] at hle'
      linarith
    rw [hworst, Option.getD_some, if_pos ⟨hpos, hfifth.trans hle'⟩]
    exact ⟨worst, rfl⟩

/-- The note names the right cause unless the same day is the only horizon, the newest
screening day has no prices, and a later day has: it then asks to wait for a day that is
already over. -/
theorem runBacktestOn_warning_iff {params : BacktestParams} {key : DetailSort}
    (hsort : detailSortKeys.lookup params.detailSort = some key)
    (horder : params.detailOrder ∈ ["asc", "desc"])
    (hhorizons : normalizeHorizons params.horizons = .ok horizons)
    (hcalendar : listPriceTradingDays prices ≠ [])
    (hnewest : IsGreatest {day | day ∈ rows.map Prod.fst} newest)
    (hbiggest : IsGreatest {n | n ∈ params.horizons} biggest) :
    ∃ response, runBacktestOn params rows prices = .ok response ∧
      (BlamesCause (listPriceTradingDays prices) newest biggest response.entries response.summary
          response.warning ↔
        ¬ (biggest = 0 ∧ newest ∉ listPriceTradingDays prices ∧
          ∃ day ∈ listPriceTradingDays prices, newest < day)) := by
  have hnd := normalizeHorizons_nodup hhorizons
  have hgreatest : IsGreatest {n | n ∈ horizons} biggest := by
    simpa only [mem_normalizeHorizons hhorizons] using hbiggest
  have hpos := normalizeHorizons_nonneg hhorizons hgreatest.1
  have hrows : rows ≠ [] := List.ne_nil_of_mem (List.mem_map.mp hnewest.1).choose_spec.1
  have hcause : nthTradingDay (listPriceTradingDays prices) newest biggest = none ↔ _ :=
    nthTradingDay_eq_none_iff_notElapsed (listPriceTradingDays_pairwise prices) hpos
  refine ⟨_, runBacktestOn_accepted hsort horder hhorizons rows prices, ?_⟩
  rw [backtestResponse_warning params key hnd, if_neg hrows, if_neg hcalendar,
    backtestResponse_entries, backtestResponse_summary params key hnd]
  by_cases hnth : nthTradingDay (listPriceTradingDays prices) newest biggest = none
  · rw [coverageWarning_of_none hnewest hgreatest hnth]
    constructor
    · rintro ⟨helapsed, -⟩ ⟨rfl, -, day, hday, hlater⟩
      have hall := helapsed.mp ⟨_, _, rfl⟩
      unfold NotElapsed at hall
      rw [if_pos rfl] at hall
      exact lt_asymm hlater (hall day hday)
    · intro hgap
      have helapsed := (hcause.mp hnth).resolve_right hgap
      exact ⟨⟨fun _ => helapsed, fun _ => ⟨_, _, rfl⟩⟩, fun hnot => absurd helapsed hnot⟩
  · obtain ⟨hnone, hbackfill⟩ := coverageWarning_of_some hnewest hgreatest hnth
    have hnot : ¬ NotElapsed (listPriceTradingDays prices) newest biggest :=
      fun helapsed => hnth (hcause.mpr (Or.inl helapsed))
    refine iff_of_true ⟨⟨?_, fun helapsed => absurd helapsed hnot⟩, fun _ hmissing => ?_⟩
      fun hgap => hnth (hcause.mpr (Or.inr hgap))
    · rintro ⟨lastPriceDay, n, hwarning⟩
      exact absurd hwarning (hnone lastPriceDay n)
    · obtain ⟨stat, hstat, hfifth⟩ := hmissing
      obtain ⟨n, hn, rfl⟩ := List.mem_map.mp hstat
      refine hbackfill ⟨n, hn, ?_⟩
      simpa [referenceStat, missingCount, List.countP_map, Function.comp_def] using hfifth

end Cause

/-- One item of day 10 marked to the close of its own day, which was not uploaded. -/
def sameDay : BacktestParams := { nextDay with horizons := [0] }

def laterPrice : PriceTable where
  rows := [{ tradeDate := 12, symbol := "2330", close := 110 }]
  nodup := by simp

def oneItem : Date × ScreenSnapshotItem :=
  (10, { id := 1, snapshotId := 1, rank := 1, symbol := "2330", close := some 100 })

theorem runBacktestOn_warning_iff_nextDay :
    ∃ response, runBacktestOn nextDay [oneItem] (twoPrices "2330") = .ok response ∧
      (BlamesCause (listPriceTradingDays (twoPrices "2330")) 10 1 response.entries
          response.summary response.warning ↔
        ¬ ((1 : Int) = 0 ∧ 10 ∉ listPriceTradingDays (twoPrices "2330") ∧
          ∃ day ∈ listPriceTradingDays (twoPrices "2330"), 10 < day)) :=
  runBacktestOn_warning_iff (show _ = some DetailSort.tradeDate by decide) (by decide)
    (show normalizeHorizons [1] = .ok [1] from rfl) (by decide +kernel)
    (by simp [oneItem]) (by simp [nextDay])

theorem runBacktest_blames_wait :
    ∃ response, runBacktest (oneItemStore "2330") laterPrice sameDay = .ok response ∧
      response.warning = some (.notElapsed 12 0) ∧
      ¬ BlamesCause (listPriceTradingDays laterPrice) 10 0 response.entries response.summary
        response.warning := by
  refine ⟨_, rfl, by decide +kernel, fun h => ?_⟩
  have hall : ∀ day ∈ listPriceTradingDays laterPrice, day < 10 :=
    h.elapsed.mp ⟨12, 0, by decide +kernel⟩
  exact absurd hall (by decide +kernel)

end StockQuant
