import StockQuant.BacktestUpload
import StockQuant.DownloadMoments
import StockQuant.GrowingKeys

/-! The coverage endpoint while ingests commit: every statement sees the tables of its own
moment. -/

namespace StockQuant

open GrowingKeys ReadCommitted

def snapshotKeys (store : SnapshotStore) : List (Date × String) :=
  store.snapshots.map ScreenSnapshot.key

def priceKeys (prices : PriceTable) : List (Date × String) :=
  prices.rows.map DailyPrice.key

theorem HeadersKept.snapshotKeys {store store' : SnapshotStore} (h : HeadersKept store store') :
    snapshotKeys store ⊆ snapshotKeys store' := by
  intro key hkey
  obtain ⟨s, hs, rfl⟩ := List.mem_map.mp hkey
  obtain ⟨s', hs', -, hsame⟩ := h s hs
  exact List.mem_map.mpr ⟨s', hs', hsame⟩

structure TablesKept (tables tables' : MarketTables) : Prop where
  headers : HeadersKept tables.store tables'.store
  prices : priceKeys tables.prices ⊆ priceKeys tables'.prices

theorem TablesKept.refl (tables : MarketTables) : TablesKept tables tables :=
  ⟨HeadersKept.refl _, List.Subset.refl _⟩

theorem TablesKept.trans {tables tables' tables'' : MarketTables} (h : TablesKept tables tables')
    (h' : TablesKept tables' tables'') : TablesKept tables tables'' :=
  ⟨h.headers.trans h'.headers, List.Subset.trans h.prices h'.prices⟩

theorem priceKeys_commit {body : DailyPricesIngestBody} {loaded : List DailyPrice}
    {prices prices' : PriceTable} {inserted updated : Nat}
    (h : commitPrices body loaded prices = some (prices', inserted, updated)) :
    priceKeys prices ⊆ priceKeys prices' := by
  obtain ⟨rows, added, hrows, hadded, htable, -⟩ := commitPrices_eq_some_iff.mp h
  unfold priceKeys
  rw [htable, keys_of_commit hrows hadded]
  exact List.subset_append_left _ _

section Steps

variable {L ι : Type} [LinearOrder L] [DecidableEq ι] (env : MarketEnv L)
  (requests : ι → MarketRequest)

theorem tablesKept_step (c : Config ι MarketTables MarketPoint) (i : ι) (x : Unit) :
    TablesKept c.store (step (marketProgram env requests) c i x).store where
  headers := headersKept_step env requests c i x
  prices := by
    rcases step_prices env requests c i x with
      hsame | ⟨body, loaded, inserted, updated, -, -, hcommit⟩
    · rw [hsame]
      exact List.Subset.refl _
    · exact priceKeys_commit hcommit

end Steps

/-- The figures so far, on keys that were there when the table was first asked and keys that are
there now. -/
def KnowsDays (asked now : List (Date × String)) : DaysPoint → Prop
  | .total => False
  | .least total => asked ≠ [] ∧ total = asked.length ∧ asked ⊆ now
  | .greatest total least => asked ≠ [] ∧ total = asked.length ∧
    ∃ at₁, asked ⊆ at₁ ∧ at₁ ⊆ now ∧ least = (at₁.map Prod.fst).min?
  | .days total least greatest => asked ≠ [] ∧ total = asked.length ∧
    ∃ at₁, asked ⊆ at₁ ∧ least = (at₁.map Prod.fst).min? ∧
    ∃ at₂, at₁ ⊆ at₂ ∧ at₂ ⊆ now ∧ greatest = (at₂.map Prod.fst).max?
  | .finished coverage =>
    Between asked now coverage.1 coverage.2.1 coverage.2.2.1 coverage.2.2.2

section Days

variable {asked now now' : List (Date × String)} {point : DaysPoint}

theorem KnowsDays.later (h : KnowsDays asked now point) (hsub : now ⊆ now') :
    KnowsDays asked now' point := by
  cases point with
  | total => exact h
  | least total => exact ⟨h.1, h.2.1, List.Subset.trans h.2.2 hsub⟩
  | greatest total least =>
    obtain ⟨hne, htotal, at₁, h₁, hnow, hleast⟩ := h
    exact ⟨hne, htotal, at₁, h₁, List.Subset.trans hnow hsub, hleast⟩
  | days total least greatest =>
    obtain ⟨hne, htotal, at₁, h₁, hleast, at₂, h₂, hnow, hgreatest⟩ := h
    exact ⟨hne, htotal, at₁, h₁, hleast, at₂, h₂, List.Subset.trans hnow hsub, hgreatest⟩
  | finished coverage => exact Between.later h hsub

variable {S : Type} {dates : S → List Date} (keys : S → List (Date × String))
  (hdates : ∀ s, dates s = (keys s).map Prod.fst)
include hdates

theorem days_first (s : S) :
    KnowsDays (keys s) (keys s) ((daysAction dates .total).perform s).2 := by
  have hlength : (dates s).length = (keys s).length := by rw [hdates, List.length_map]
  unfold daysAction
  rw [perform_read, hlength]
  split_ifs with hempty
  · exact Between.empty (List.length_eq_zero_iff.mp hempty) _
  · exact ⟨hempty ∘ List.length_eq_zero_iff.mpr, rfl, List.Subset.refl _⟩

theorem days_next {s : S} (hnodup : asked.Nodup) (h : KnowsDays asked (keys s) point) :
    KnowsDays asked (keys s) ((daysAction dates point).perform s).2 := by
  cases point with
  | total => cases h
  | least total =>
    exact ⟨h.1, h.2.1, keys s, h.2.2, List.Subset.refl _, congrArg List.min? (hdates s)⟩
  | greatest total least =>
    obtain ⟨hne, htotal, at₁, h₁, hnow, hleast⟩ := h
    exact ⟨hne, htotal, at₁, h₁, hleast, keys s, hnow, List.Subset.refl _,
      congrArg List.max? (hdates s)⟩
  | days total least greatest =>
    obtain ⟨hne, rfl, at₁, h₁, rfl, at₂, h₂, hnow, rfl⟩ := h
    have htaken := Between.taken hne hnodup h₁ h₂ hnow (List.Subset.refl (keys s))
    rw [← hdates s] at htaken
    exact htaken
  | finished coverage => exact h

end Days

theorem snapshotDays_eq (tables : MarketTables) :
    snapshotDays tables = (snapshotKeys tables.store).map Prod.fst := by
  rw [snapshotKeys, List.map_map]
  rfl

theorem priceDays_eq (tables : MarketTables) :
    priceDays tables = (priceKeys tables.prices).map Prod.fst := by
  rw [priceKeys, List.map_map]
  rfl

/-- Every day that was stored when the coverage was asked for is within the range that it reports,
both ends of the range are days that are stored in the end, and no count is below the first or
above the last. -/
structure CoverageBetween (asked last : MarketTables) (coverage : BacktestCoverage) : Prop where
  snapshots : Between (snapshotKeys asked.store) (snapshotKeys last.store)
    coverage.snapshots.minDate coverage.snapshots.maxDate coverage.snapshots.tradingDays
    coverage.snapshots.totalSnapshots
  prices : Between (priceKeys asked.prices) (priceKeys last.prices) coverage.prices.minDate
    coverage.prices.maxDate coverage.prices.tradingDays coverage.prices.totalRows
  symbols : CountedBetween ((priceKeys asked.prices).map Prod.snd)
    ((priceKeys last.prices).map Prod.snd) coverage.prices.symbols

theorem CoverageBetween.later {asked last last' : MarketTables} {coverage : BacktestCoverage}
    (h : CoverageBetween asked last coverage) (hkept : TablesKept last last') :
    CoverageBetween asked last' coverage where
  snapshots := h.snapshots.later hkept.headers.snapshotKeys
  prices := h.prices.later hkept.prices
  symbols := h.symbols.later (List.map_subset Prod.snd hkept.prices)

/-- What a request for the coverage knows once it has asked. -/
def KnowsCoverage (asked now : MarketTables) : CoveragePoint → Prop
  | .snapshots point => KnowsDays (snapshotKeys asked.store) (snapshotKeys now.store) point
  | .prices snapshots point =>
    KnowsDays (snapshotKeys asked.store) (snapshotKeys now.store) (.finished snapshots) ∧
    (point = .total ∨ ∃ asked', priceKeys asked.prices ⊆ asked' ∧ asked'.Nodup ∧
      KnowsDays asked' (priceKeys now.prices) point)
  | .symbols snapshots prices =>
    KnowsDays (snapshotKeys asked.store) (snapshotKeys now.store) (.finished snapshots) ∧
    KnowsDays (priceKeys asked.prices) (priceKeys now.prices) (.finished prices)
  | .finished coverage => CoverageBetween asked now coverage

section Coverage

variable {asked now now' : MarketTables} {dbSizeBytes : Option Int} {point : CoveragePoint}

theorem KnowsCoverage.later (h : KnowsCoverage asked now point) (hkept : TablesKept now now') :
    KnowsCoverage asked now' point := by
  have hsnapshots := hkept.headers.snapshotKeys
  cases point with
  | snapshots point => exact KnowsDays.later h hsnapshots
  | prices snapshots point =>
    refine ⟨h.1.later hsnapshots, h.2.imp_right ?_⟩
    rintro ⟨asked', hasked, hnodup, hpoint⟩
    exact ⟨asked', hasked, hnodup, hpoint.later hkept.prices⟩
  | symbols snapshots prices => exact ⟨h.1.later hsnapshots, h.2.later hkept.prices⟩
  | finished coverage => exact CoverageBetween.later h hkept

theorem knowsCoverage_afterSnapshots {point : DaysPoint}
    (h : KnowsDays (snapshotKeys asked.store) (snapshotKeys now.store) point) :
    KnowsCoverage asked now (afterSnapshots point) := by
  cases point with
  | finished coverage => exact ⟨h, Or.inl rfl⟩
  | total | least | greatest | days => exact h

theorem knowsCoverage_afterPrices {snapshots : Option Date × Option Date × Nat × Nat}
    {point : DaysPoint} {asked' : List (Date × String)} (hasked : priceKeys asked.prices ⊆ asked')
    (hnodup : asked'.Nodup)
    (hsnapshots : KnowsDays (snapshotKeys asked.store) (snapshotKeys now.store)
      (.finished snapshots))
    (h : KnowsDays asked' (priceKeys now.prices) point) :
    KnowsCoverage asked now (afterPrices dbSizeBytes snapshots point) := by
  cases point with
  | finished coverage =>
    have hprices : KnowsDays (priceKeys asked.prices) (priceKeys now.prices) (.finished coverage) :=
      Between.earlier h hasked
    unfold afterPrices
    dsimp only
    split_ifs with hempty
    · refine ⟨hsnapshots, hprices, ?_⟩
      have hnone : (priceKeys asked.prices).dedup.length = 0 := by
        have hle := (Between.total hprices).1
        rw [hempty] at hle
        exact_mod_cast hle.antisymm (Int.natCast_nonneg _)
      have hnil : priceKeys asked.prices = [] :=
        (List.dedup_eq_nil _).mp (List.length_eq_zero_iff.mp hnone)
      simp [CountedBetween, hnil, coverageOf]
    · exact ⟨hsnapshots, hprices⟩
  | total | least | greatest | days => exact ⟨hsnapshots, Or.inr ⟨asked', hasked, hnodup, h⟩⟩

theorem knowsCoverage_first (tables : MarketTables) :
    KnowsCoverage tables tables
      ((coverageAction dbSizeBytes (.snapshots .total)).perform tables).2 := by
  rw [perform_coverage_snapshots]
  exact knowsCoverage_afterSnapshots
    (days_first (snapshotKeys ∘ MarketTables.store) snapshotDays_eq tables)

theorem knowsCoverage_next (hkept : TablesKept asked now) (h : KnowsCoverage asked now point) :
    KnowsCoverage asked now ((coverageAction dbSizeBytes point).perform now).2 := by
  cases point with
  | snapshots point =>
    have hnodup : (snapshotKeys asked.store).Nodup := asked.store.keys_nodup
    rw [perform_coverage_snapshots]
    exact knowsCoverage_afterSnapshots
      (days_next (snapshotKeys ∘ MarketTables.store) snapshotDays_eq hnodup h)
  | prices snapshots point =>
    rw [perform_coverage_prices]
    obtain ⟨hsnapshots, rfl | ⟨asked', hasked, hnodup, hpoint⟩⟩ := h
    · exact knowsCoverage_afterPrices hkept.prices now.prices.nodup hsnapshots
        (days_first (priceKeys ∘ MarketTables.prices) priceDays_eq now)
    · exact knowsCoverage_afterPrices hasked hnodup hsnapshots
        (days_next (priceKeys ∘ MarketTables.prices) priceDays_eq hnodup hpoint)
  | symbols snapshots prices =>
    obtain ⟨hsnapshots, hprices⟩ := h
    refine ⟨hsnapshots, hprices, ?_⟩
    have hsymbols : now.prices.rows.map (·.symbol) = (priceKeys now.prices).map Prod.snd := by
      rw [priceKeys, List.map_map]
      rfl
    show CountedBetween _ _ ((now.prices.rows.map (·.symbol)).dedup.length : Int)
    rw [hsymbols]
    exact CountedBetween.taken (List.map_subset Prod.snd hkept.prices) (List.Subset.refl _)
  | finished coverage => exact h

end Coverage

section Session

variable {L ι : Type} [LinearOrder L] [DecidableEq ι] {env : MarketEnv L}
  {requests : ι → MarketRequest} {start : Config ι MarketTables MarketPoint} {j : ι}
  {dbSizeBytes : Option Int} {schedule : List (ι × Unit)}

/-- What the coverage endpoint reports while ingests commit lies between the tables that its first
statement finds and those at the end of the run, although no two of the figures need be of one
moment. -/
theorem backtestCoverage_between (hrequest : requests j = .coverage dbSizeBytes)
    (hstart : start.session j = .coverage (.snapshots .total)) {coverage : BacktestCoverage}
    (hreply : (run (marketProgram env requests) start schedule).session j =
      .coverage (.finished coverage)) :
    ∃ asked, FindsAt (marketProgram env requests) start schedule j 0 asked ∧
      CoverageBetween asked (run (marketProgram env requests) start schedule).store coverage := by
  suffices hknows : ∃ point, (run (marketProgram env requests) start schedule).session j =
      .coverage point ∧ ((stepCount j schedule = 0 ∧ point = .snapshots .total) ∨
        ∃ asked, FindsAt (marketProgram env requests) start schedule j 0 asked ∧
          TablesKept asked (run (marketProgram env requests) start schedule).store ∧
          KnowsCoverage asked (run (marketProgram env requests) start schedule).store point) by
    obtain ⟨point, hpoint, hknows⟩ := hknows
    rw [hreply] at hpoint
    cases hpoint
    obtain ⟨-, hpoint⟩ | ⟨asked, hfound, -, hknows⟩ := hknows
    · cases hpoint
    · exact ⟨asked, hfound, hknows⟩
  refine session_invariant (fun schedule tables place => ∃ point, place = .coverage point ∧
    ((stepCount j schedule = 0 ∧ point = .snapshots .total) ∨
      ∃ asked, FindsAt (marketProgram env requests) start schedule j 0 asked ∧
        TablesKept asked tables ∧ KnowsCoverage asked tables point)) ?_ ?_ ?_
    (follows_all start schedule)
  · exact ⟨_, hstart, Or.inl ⟨rfl, rfl⟩⟩
  · rintro schedule x now ⟨point, hpoint, hknows⟩
    rw [marketProgram, hrequest, hpoint, marketAction, perform_map, perform_coverage]
    refine ⟨_, rfl, Or.inr ?_⟩
    obtain ⟨hcount, rfl⟩ | ⟨asked, hfound, hkept, hknows⟩ := hknows
    · exact ⟨_, hcount ▸ findsAt_last _ start schedule j x, TablesKept.refl _,
        knowsCoverage_first _⟩
    · exact ⟨asked, hfound.later _, hkept, knowsCoverage_next hkept hknows⟩
  · rintro schedule i x now hi - ⟨point, hpoint, hknows⟩
    refine ⟨point, hpoint, ?_⟩
    obtain ⟨hcount, hpoint⟩ | ⟨asked, hfound, hkept, hknows⟩ := hknows
    · exact Or.inl ⟨(stepCount_snoc_of_ne hi schedule x).trans hcount, hpoint⟩
    · have hstep := tablesKept_step env requests now i x
      exact Or.inr ⟨asked, hfound.later _, hkept.trans hstep, hknows.later hstep⟩

end Session

/-- Prices of a later day that are uploaded while the coverage is asked for. -/
def coverageAndUpload : Bool → MarketRequest
  | true => .coverage (some 8192)
  | false => .prices (upload 13 120)

/-- The rows are counted before the upload commits, the days afterwards. -/
def uploadBehind : List (Bool × Unit) :=
  List.replicate 3 (true, ()) ++ [(false, ())] ++ List.replicate 3 (true, ()) ++ [(false, ())] ++
    List.replicate 3 (true, ())

def watchTables : MarketTables where
  store := watchStore
  prices := watchPrices

theorem backtestCoverage_between_upload :
    let program := marketProgram plainMarket coverageAndUpload
    let start := marketStarted watchTables coverageAndUpload
    let coverage := coverageOf (some 8192) (some 10, some 11, 2, 2) (some 11, some 13, 3, 6) 4
    (run program start uploadBehind).session true = .coverage (.finished coverage) ∧
      ∃ asked, FindsAt program start uploadBehind true 0 asked ∧
        CoverageBetween asked (run program start uploadBehind).store coverage := by
  intro program start coverage
  have hreply : (run program start uploadBehind).session true = .coverage (.finished coverage) := by
    decide +kernel
  exact ⟨hreply, backtestCoverage_between
    (show coverageAndUpload true = .coverage (some 8192) from rfl) rfl hreply⟩

end StockQuant
