import StockQuant.BacktestSummary

/-! What a later upload of prices does to the outcomes already reported. -/

namespace StockQuant

open KeyedTable

theorem upsertItem_updated {tradeDate : Date} {acc : PriceUpsert} {item : DailyPriceIn}
    (h : (upsertItem tradeDate acc item).updated = 0) :
    acc.updated = 0 ∧ (upsertItem tradeDate acc item).existing = acc.existing := by
  unfold upsertItem at h ⊢
  cases hc : item.close with
  | none => simpa [hc] using h
  | some close =>
    simp only [hc] at h ⊢
    by_cases hs : acc.existing.any (·.symbol = item.symbol)
    · simp [hs] at h
    · simp only [hs] at h ⊢
      exact ⟨h, rfl⟩

def AddsOnly (tradeDate : Date) (acc : PriceUpsert) : Prop :=
  (∀ row ∈ acc.added, row.tradeDate = tradeDate) ∧ acc.inserted = acc.added.length

theorem upsertItem_added {tradeDate : Date} {acc : PriceUpsert} (item : DailyPriceIn)
    (h : AddsOnly tradeDate acc) : AddsOnly tradeDate (upsertItem tradeDate acc item) := by
  unfold upsertItem
  cases item.close with
  | none => exact h
  | some close =>
    dsimp only
    split_ifs
    · exact h
    · refine ⟨fun row hrow => ?_, by simp [h.2]⟩
      rcases List.mem_append.mp hrow with hrow | hrow
      · exact h.1 row hrow
      · obtain rfl := List.mem_singleton.mp hrow
        rfl

theorem upsertItems_updated {tradeDate : Date} {items : List DailyPriceIn} {acc : PriceUpsert}
    (h : (items.foldl (upsertItem tradeDate) acc).updated = 0) :
    acc.updated = 0 ∧ (items.foldl (upsertItem tradeDate) acc).existing = acc.existing := by
  induction items generalizing acc with
  | nil => exact ⟨h, rfl⟩
  | cons item items ih =>
    obtain ⟨hu, he⟩ := ih h
    obtain ⟨hu', he'⟩ := upsertItem_updated hu
    exact ⟨hu', he.trans he'⟩

theorem upsertItems_added {tradeDate : Date} (items : List DailyPriceIn) {acc : PriceUpsert}
    (h : AddsOnly tradeDate acc) :
    AddsOnly tradeDate (items.foldl (upsertItem tradeDate) acc) := by
  induction items generalizing acc with
  | nil => exact h
  | cons item items ih => exact ih (upsertItem_added item h)

theorem flushStored_eq {prices : PriceTable} {row : DailyPrice} (hrow : row ∈ prices.rows)
    (p : DailyPrice → Bool) : flushStored (prices.rows.filter p) row = some row := by
  unfold flushStored
  split
  · rfl
  · next draft hd =>
    have hkey : draft.key = row.key := by simpa using List.find?_some hd
    have hmem := (List.mem_filter.mp (List.mem_of_find?_eq_some hd)).1
    rw [if_pos (Table.eq_of_key hmem hrow hkey)]

theorem DailyPrice.flush_tradeDate {row written : DailyPrice} (h : row.flush = some written) :
    written.tradeDate = row.tradeDate := by
  simp only [DailyPrice.flush, Option.bind_eq_bind, Option.bind_eq_some_iff] at h
  obtain ⟨_, _, _, _, _, _, _, _, _, _, _, _, _, _, _, _, h⟩ := h
  cases h
  rfl

theorem mapM_eq_self {α : Type} {f : α → Option α} {l : List α}
    (hf : ∀ x ∈ l, f x = some x) : l.mapM f = some l := by
  induction l with
  | nil => rfl
  | cons x l ih =>
    simp [List.mapM_cons, hf x (by simp), ih fun y hy => hf y (by simp [hy])]

theorem exists_of_mem_mapM {α β : Type} {f : α → Option β} {l : List α} {l' : List β}
    (h : l.mapM f = some l') {y : β} (hy : y ∈ l') : ∃ x ∈ l, f x = some y := by
  induction l generalizing l' with
  | nil =>
    cases h
    simp at hy
  | cons x l ih =>
    simp only [List.mapM_cons, Option.bind_eq_bind, Option.bind_eq_some_iff] at h
    obtain ⟨z, hz, rest, hrest, h⟩ := h
    cases h
    rcases List.mem_cons.mp hy with rfl | hy
    · exact ⟨x, by simp, hz⟩
    · obtain ⟨w, hw, hf⟩ := ih hrest hy
      exact ⟨w, by simp [hw], hf⟩

theorem length_of_mapM {α β : Type} {f : α → Option β} {l : List α} {l' : List β}
    (h : l.mapM f = some l') : l'.length = l.length := by
  induction l generalizing l' with
  | nil =>
    cases h
    rfl
  | cons x l ih =>
    simp only [List.mapM_cons, Option.bind_eq_bind, Option.bind_eq_some_iff] at h
    obtain ⟨z, _, rest, hrest, h⟩ := h
    cases h
    simp [ih hrest]

theorem upsertDailyPrices_insert_only {prices prices' : PriceTable} {body : DailyPricesIngestBody}
    {inserted : Nat} (h : upsertDailyPrices prices body = some (prices', inserted, 0)) :
    ∃ added, prices'.rows = prices.rows ++ added ∧ added.length = inserted ∧
      ∀ row ∈ added, row.tradeDate = body.tradeDate := by
  simp only [upsertDailyPrices, Option.bind_eq_bind, Option.bind_eq_some_iff] at h
  obtain ⟨rows, hrows, added, hadded, table, htable, h⟩ := h
  simp only [Option.some.injEq, Prod.mk.injEq] at h
  obtain ⟨rfl, hinserted, hupdated⟩ := h
  obtain ⟨_, hexisting⟩ := upsertItems_updated hupdated
  rw [hexisting, mapM_eq_self fun row hrow => flushStored_eq hrow _] at hrows
  cases hrows
  have hstart : AddsOnly body.tradeDate
      { existing := prices.rows.filter (·.tradeDate = body.tradeDate) } := ⟨by simp, rfl⟩
  have hadds := upsertItems_added body.items hstart
  refine ⟨added, Table.ofRows?_eq_some_iff.mp htable, ?_, fun row hrow => ?_⟩
  · rw [length_of_mapM hadded, ← hadds.2, hinserted]
  · obtain ⟨draft, hdraft, hflush⟩ := exists_of_mem_mapM hadded hrow
    rw [DailyPrice.flush_tradeDate hflush]
    exact hadds.1 draft hdraft

theorem mem_listPriceTradingDays_upload {prices prices' : PriceTable}
    {body : DailyPricesIngestBody} {inserted : Nat}
    (h : upsertDailyPrices prices body = some (prices', inserted, 0)) {day : Date} :
    day ∈ listPriceTradingDays prices' ↔
      day ∈ listPriceTradingDays prices ∨ (day = body.tradeDate ∧ inserted ≠ 0) := by
  obtain ⟨added, hrows, hlen, hdays⟩ := upsertDailyPrices_insert_only h
  simp only [mem_listPriceTradingDays, hrows, List.mem_append, or_and_right, exists_or]
  refine or_congr_right ⟨?_, ?_⟩
  · rintro ⟨row, hrow, rfl⟩
    exact ⟨hdays row hrow, by rw [← hlen]; exact (List.length_pos_of_mem hrow).ne'⟩
  · rintro ⟨rfl, hne⟩
    obtain ⟨row, hrow⟩ := List.exists_mem_of_length_pos (l := added) (by omega)
    exact ⟨row, hrow, hdays row hrow⟩

section Extension

variable {prices prices' : PriceTable} (hrows : prices.rows ⊆ prices'.rows)

include hrows

theorem closeOn_extend {symbol : String} {day : Date} {close : ℚ}
    (h : closeOn prices symbol day = some close) : closeOn prices' symbol day = some close := by
  obtain ⟨row, hrow, hkey⟩ := closeOn_eq_some_iff.mp h
  exact closeOn_eq_some_iff.mpr ⟨row, hrows hrow, hkey⟩

theorem quoteOf_extend {symbol : String} {day : Date} {close : ℚ}
    (h : quoteOf prices symbol day = some close) : quoteOf prices' symbol day = some close := by
  unfold quoteOf at h ⊢
  split_ifs at h ⊢
  exact closeOn_extend hrows h

theorem listPriceTradingDays_extend : listPriceTradingDays prices ⊆ listPriceTradingDays prices' := by
  intro day hday
  obtain ⟨row, hrow, hd⟩ := mem_listPriceTradingDays.mp hday
  exact mem_listPriceTradingDays.mpr ⟨row, hrows hrow, hd⟩

theorem entryPriceFrom_extend {mode : Mode} {entry : Entry} {price : ℚ}
    (h : entryPriceFrom mode (quoteOf prices) entry = some price) :
    entryPriceFrom mode (quoteOf prices') entry = some price := by
  unfold entryPriceFrom at h ⊢
  split_ifs at h ⊢
  · exact quoteOf_extend hrows h
  · exact h

end Extension

/-- After rows were added a settled outcome is found again exactly when no day
between its screening day and its exit day entered the calendar with them. -/
theorem tradeFrom_extend_iff {prices prices' : PriceTable} (hrows : prices.rows ⊆ prices'.rows)
    {mode : Mode} {entry : Entry} {n : Int} {t : Trade}
    (ht : tradeFrom mode (nthTradingDay (listPriceTradingDays prices)) (quoteOf prices) entry n =
      some t) :
    (∃ t', tradeFrom mode (nthTradingDay (listPriceTradingDays prices')) (quoteOf prices') entry n =
        some t' ∧ t'.exitDay = t.exitDay ∧ t'.pct = t.pct) ↔
      ∀ day ∈ listPriceTradingDays prices', entry.tradeDate < day → day < t.exitDay →
        day ∈ listPriceTradingDays prices := by
  obtain ⟨hentry, hpos, hexit, hquote⟩ := tradeFrom_eq_some_iff.mp ht
  have hcal := listPriceTradingDays_pairwise prices
  have hcal' := listPriceTradingDays_pairwise prices'
  have hsub := listPriceTradingDays_extend hrows
  rw [← ((nthTradingDay_eq_some_iff hcal).mp hexit).extend_iff hcal hcal' hsub]
  constructor
  · rintro ⟨t', ht', hday, _⟩
    rw [← hday]
    exact (nthTradingDay_eq_some_iff hcal').mp (tradeFrom_eq_some_iff.mp ht').2.2.1
  · intro hnth
    exact ⟨t, tradeFrom_eq_some_iff.mpr ⟨entryPriceFrom_extend hrows hentry, hpos,
      (nthTradingDay_eq_some_iff hcal').mpr hnth, quoteOf_extend hrows hquote⟩, rfl, rfl⟩

/-- An upload that only inserts keeps a settled outcome, exit day and return,
unless it is the first of its day and that day lies between the screening day and
the exit day. Even then the exit day does not move to a later one. -/
theorem reportedTrade_upload_iff {prices prices' : PriceTable} {body : DailyPricesIngestBody}
    {inserted : Nat} (hupload : upsertDailyPrices prices body = some (prices', inserted, 0))
    {mode : Mode} {horizons : List Int} {entries entries' : List Entry} {entry : Entry} {n : Int}
    {t : Trade} (he : entry ∈ entries) (he' : entry ∈ entries') (hn : n ∈ horizons)
    (ht : reportedTrade mode prices horizons entries entry n = some t) :
    ((∃ t', reportedTrade mode prices' horizons entries' entry n = some t' ∧
        t'.exitDay = t.exitDay ∧ t'.pct = t.pct) ↔
      ¬ (inserted ≠ 0 ∧ body.tradeDate ∉ listPriceTradingDays prices ∧
        entry.tradeDate < body.tradeDate ∧ body.tradeDate < t.exitDay)) ∧
      ∃ d ≤ t.exitDay, nthTradingDay (listPriceTradingDays prices') entry.tradeDate n = some d := by
  obtain ⟨added, hadded, _⟩ := upsertDailyPrices_insert_only hupload
  have hrows : prices.rows ⊆ prices'.rows := by simp [hadded]
  have hcal := listPriceTradingDays_pairwise prices
  have hcal' := listPriceTradingDays_pairwise prices'
  rw [reportedTrade_eq he hn] at ht
  rw [reportedTrade_eq he' hn, tradeFrom_extend_iff hrows ht]
  constructor
  · simp only [mem_listPriceTradingDays_upload hupload]
    grind
  · have hnth := (nthTradingDay_eq_some_iff hcal).mp (tradeFrom_eq_some_iff.mp ht).2.2.1
    by_cases hsame : IsNthTradingDay (listPriceTradingDays prices') entry.tradeDate n t.exitDay
    · exact ⟨t.exitDay, le_rfl, (nthTradingDay_eq_some_iff hcal').mpr hsame⟩
    · obtain ⟨d, hd, hnth'⟩ :=
        hnth.earlier hcal hcal' (listPriceTradingDays_extend hrows) hsame
      exact ⟨d, hd.le, (nthTradingDay_eq_some_iff hcal').mpr hnth'⟩

def oneEntry : Entry :=
  { tradeDate := 10, symbol := "2330", name := "", market := "", marketCode := "",
    entryPrice := some 100 }

def upload (day : Date) (close : ℚ) : DailyPricesIngestBody where
  tradeDate := day
  items := [{ symbol := "2330", close := some close }]

def threePrices : PriceTable where
  rows := (twoPrices "2330").rows ++ [{ tradeDate := 11, symbol := "2330", close := 90 }]
  nodup := by simp [twoPrices, DailyPrice.key]

theorem reportedTrade_upload_iff_gap :
    ((∃ t', reportedTrade .intradayToClose threePrices [1] [oneEntry] oneEntry 1 = some t' ∧
        t'.exitDay = 12 ∧ t'.pct = 10) ↔
      ¬ (1 ≠ 0 ∧ 11 ∉ listPriceTradingDays (twoPrices "2330") ∧ 10 < 11 ∧ 11 < 12)) ∧
      ∃ d ≤ 12, nthTradingDay (listPriceTradingDays threePrices) 10 1 = some d := by
  have hpct : (10 : ℚ) = Trade.pct { entryPrice := 100, exitDay := 12, exitPrice := 110 } := by
    decide +kernel
  rw [hpct]
  exact reportedTrade_upload_iff (show upsertDailyPrices (twoPrices "2330") (upload 11 90) =
    some (threePrices, 1, 0) by decide +kernel) (List.mem_singleton_self _)
    (List.mem_singleton_self _) (List.mem_singleton_self _)
    (show reportedTrade .intradayToClose (twoPrices "2330") [1] [oneEntry] oneEntry 1 =
      some { entryPrice := 100, exitDay := 12, exitPrice := 110 } by decide +kernel)

theorem reportedTrade_upload_gap :
    upsertDailyPrices (twoPrices "2330") (upload 11 90) = some (threePrices, 1, 0) ∧
    reportedTrade .intradayToClose (twoPrices "2330") [1] [oneEntry] oneEntry 1 =
      some { entryPrice := 100, exitDay := 12, exitPrice := 110 } ∧
    reportedTrade .intradayToClose threePrices [1] [oneEntry] oneEntry 1 =
      some { entryPrice := 100, exitDay := 11, exitPrice := 90 } := by
  decide +kernel

end StockQuant
