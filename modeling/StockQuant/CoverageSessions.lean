import StockQuant.IngestCoverage
import StockQuant.ReadCommitted

/-! The coverage of the tables statement by statement. -/

namespace StockQuant

open ReadCommitted

/-- What `get_snapshot_coverage` and `get_price_coverage` know on their way: the number of rows, the
first of their days, the last one and how many days there are. -/
inductive DaysPoint where
  | total
  | least (total : Nat)
  | greatest (total : Nat) (least : Option Date)
  | days (total : Nat) (least greatest : Option Date)
  | finished (coverage : Option Date × Option Date × Nat × Nat)
  deriving DecidableEq

/-- `dates` are the days of the rows of the table; an empty table is not asked further. -/
def daysAction {S : Type} (dates : S → List Date) : DaysPoint → Action S DaysPoint
  | .total => .read fun s =>
      if (dates s).length = 0 then .finished (none, none, 0, 0) else .least (dates s).length
  | .least total => .read fun s => .greatest total (dates s).min?
  | .greatest total least => .read fun s => .days total least (dates s).max?
  | .days total least greatest => .read fun s =>
      .finished (least, greatest, (dates s).dedup.length, total)
  | .finished coverage => .work (.finished coverage)

/-- What there is to know of the days of a table. -/
def figuresOf (days : List Date) : Option Date × Option Date × Nat × Nat :=
  if days.length = 0 then (none, none, 0, 0)
  else (days.min?, days.max?, days.dedup.length, days.length)

def snapshotDays (tables : MarketTables) : List Date := tables.store.snapshots.map (·.tradeDate)

def priceDays (tables : MarketTables) : List Date := tables.prices.rows.map (·.tradeDate)

def coverageOf (dbSizeBytes : Option Int) (snapshots prices : Option Date × Option Date × Nat × Nat)
    (symbols : Nat) : BacktestCoverage :=
  let (sMin, sMax, sDays, sTotal) := snapshots
  let (pMin, pMax, pDays, pRows) := prices
  { snapshots :=
      { minDate := sMin, maxDate := sMax, tradingDays := sDays, totalSnapshots := sTotal,
        dbSizeBytes }
    prices :=
      { minDate := pMin, maxDate := pMax, tradingDays := pDays, totalRows := pRows, symbols } }

inductive CoveragePoint where
  | snapshots (point : DaysPoint)
  | prices (snapshots : Option Date × Option Date × Nat × Nat) (point : DaysPoint)
  | symbols (snapshots prices : Option Date × Option Date × Nat × Nat)
  | finished (coverage : BacktestCoverage)
  deriving DecidableEq

/-- The prices are asked for after the snapshots. -/
def afterSnapshots : DaysPoint → CoveragePoint
  | .finished coverage => .prices coverage .total
  | point => .snapshots point

/-- The symbols are counted where there are prices. -/
def afterPrices (dbSizeBytes : Option Int) (snapshots : Option Date × Option Date × Nat × Nat) :
    DaysPoint → CoveragePoint
  | .finished coverage =>
    if coverage.2.2.2 = 0 then .finished (coverageOf dbSizeBytes snapshots coverage 0)
    else .symbols snapshots coverage
  | point => .prices snapshots point

/-- `backtest_coverage`; what the database says of the size of its files is not in the tables. -/
def coverageAction (dbSizeBytes : Option Int) : CoveragePoint → Action MarketTables CoveragePoint
  | .snapshots point => (daysAction snapshotDays point).map afterSnapshots
  | .prices snapshots point =>
    (daysAction priceDays point).map (afterPrices dbSizeBytes snapshots)
  | .symbols snapshots prices => .read fun tables =>
      .finished (coverageOf dbSizeBytes snapshots prices
        (tables.prices.rows.map (·.symbol)).dedup.length)
  | .finished coverage => .work (.finished coverage)

theorem perform_days {S : Type} (dates : S → List Date) (point : DaysPoint) (s : S) :
    ((daysAction dates point).perform s).1 = s := by
  cases point <;> rfl

section Points

variable (dbSizeBytes : Option Int) (tables : MarketTables)

theorem perform_coverage_snapshots (point : DaysPoint) :
    ((coverageAction dbSizeBytes (.snapshots point)).perform tables).2 =
      afterSnapshots ((daysAction snapshotDays point).perform tables).2 := by
  rw [coverageAction, perform_map]

theorem perform_coverage_prices (snapshots : Option Date × Option Date × Nat × Nat)
    (point : DaysPoint) :
    ((coverageAction dbSizeBytes (.prices snapshots point)).perform tables).2 =
      afterPrices dbSizeBytes snapshots ((daysAction priceDays point).perform tables).2 := by
  rw [coverageAction, perform_map]

end Points

theorem perform_coverage (dbSizeBytes : Option Int) (point : CoveragePoint)
    (tables : MarketTables) : ((coverageAction dbSizeBytes point).perform tables).1 = tables := by
  cases point with
  | snapshots point => exact (congrArg Prod.fst (perform_map _ _ _)).trans (perform_days _ _ _)
  | prices snapshots point =>
    exact (congrArg Prod.fst (perform_map _ _ _)).trans (perform_days _ _ _)
  | symbols snapshots prices => rfl
  | finished coverage => rfl

theorem days_comesTo {S : Type} (dates : S → List Date) (s : S) :
    ComesTo (daysAction dates) s .total (.finished (figuresOf (dates s))) := by
  have hasked : (daysAction dates .total).perform s =
      (s, if (dates s).length = 0 then .finished (none, none, 0, 0)
        else .least (dates s).length) := rfl
  unfold figuresOf
  split_ifs at hasked ⊢
  · exact Relation.ReflTransGen.single hasked
  · exact Relation.ReflTransGen.head hasked
      (Relation.ReflTransGen.head rfl (Relation.ReflTransGen.head rfl
        (Relation.ReflTransGen.single rfl)))

theorem getSnapshotCoverage_eq (tables : MarketTables) :
    getSnapshotCoverage tables.store = figuresOf (snapshotDays tables) := by
  rw [getSnapshotCoverage, figuresOf, snapshotDays, List.length_map]

theorem coverage_comesTo (dbSizeBytes : Option Int) (tables : MarketTables) :
    ComesTo (coverageAction dbSizeBytes) tables (.snapshots .total)
      (.finished (backtestCoverage dbSizeBytes tables)) := by
  have hsnapshots : ComesTo (coverageAction dbSizeBytes) tables (.snapshots .total)
      (.prices (figuresOf (snapshotDays tables)) .total) := by
    refine (days_comesTo snapshotDays tables).goOn afterSnapshots fun point => ?_
    cases point with
    | finished coverage => exact Or.inl rfl
    | total | least | greatest | days => exact Or.inr rfl
  have hprices (snapshots : Option Date × Option Date × Nat × Nat) :
      ComesTo (coverageAction dbSizeBytes) tables (.prices snapshots .total)
        (afterPrices dbSizeBytes snapshots (.finished (figuresOf (priceDays tables)))) := by
    refine (days_comesTo priceDays tables).goOn (afterPrices dbSizeBytes snapshots) fun point => ?_
    cases point with
    | finished coverage => exact Or.inl rfl
    | total | least | greatest | days => exact Or.inr rfl
  refine (hsnapshots.trans (hprices _)).trans ?_
  have hlength : (priceDays tables).length = tables.prices.rows.length := List.length_map _
  unfold backtestCoverage getPriceCoverage afterPrices
  rw [getSnapshotCoverage_eq, figuresOf, hlength]
  by_cases hempty : tables.prices.rows.length = 0
  · simp only [if_pos hempty]
    exact Relation.ReflTransGen.refl
  · simp only [if_neg hempty]
    exact Relation.ReflTransGen.single rfl

/-- With the tables to itself the request reports what `backtestCoverage` does. -/
theorem coverage_alone (dbSizeBytes : Option Int) (tables : MarketTables) :
    ∃ n, ∀ m, n ≤ m →
      alone (fun _ : Unit => coverageAction dbSizeBytes) (fun _ => ())
        (tables, .snapshots .total) m =
          (tables, .finished (backtestCoverage dbSizeBytes tables)) :=
  (coverage_comesTo dbSizeBytes tables).stays rfl

end StockQuant
