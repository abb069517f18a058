import StockQuant.BacktestSummary
import StockQuant.RateLimit

/-! A backtest request with an end of its range left open: the range that is filled in, and
the items that the request then considers. -/

namespace StockQuant

def backtestModes : List (String × Mode) :=
  [("intraday_to_close", .intradayToClose), ("close_to_close", .closeToClose)]

def validatedMode (mode : String) : Except String Mode :=
  match backtestModes.lookup mode with
  | none => .error "mode 需為 ('intraday_to_close', 'close_to_close') 其中之一。"
  | some mode => .ok mode

def getSnapshotCoverage (store : SnapshotStore) : Option Date × Option Date × Nat × Nat :=
  let days := store.snapshots.map (·.tradeDate)
  let total := store.snapshots.length
  if total = 0 then (none, none, 0, 0) else (days.min?, days.max?, days.dedup.length, total)

def maxRangeDays : Nat := 366 * 5

def startAfterEnd : String := "起始日期不可晚於結束日期。"

def rangeTooLong : String := "查詢區間過長（最多 1830 天）。"

def resolveRange (store : SnapshotStore) (today : Date) (start stop : Option Date) :
    Except String (Date × Date) :=
  let (start, stop) :=
    match start, stop with
    | some start, some stop => (start, stop)
    | _, _ =>
      let (minDate, maxDate, _, _) := getSnapshotCoverage store
      ((start.or minDate).getD today, (stop.or maxDate).getD today)
  if stop < start then .error startAfterEnd
  else if maxRangeDays < stop - start then .error rangeTooLong
  else .ok (start, stop)

def defaultHorizons : List Int := [1, 2, 3, 5, 10, 20]

structure BacktestQuery where
  mode : String := "close_to_close"
  start : Option Date := none
  stop : Option Date := none
  horizons : Option String := none
  detailN : Option Int := none
  detailLimit : Int := 500
  detailSort : String := "trade_date"
  detailOrder : String := "desc"

section Request

-- `int` reads a whole number where the text is one, and `repr` quotes a text.
variable (int : String → Option Int) (repr : String → String)

def parseHorizon (part : String) : Except String Int :=
  match int part with
  | none => .error ("N 需為整數，收到 " ++ repr part ++ "。")
  | some n => .ok n

def parseHorizons (raw : Option String) : Except String (List Int) :=
  match raw with
  | none => .ok defaultHorizons
  | some raw =>
    if strip raw = "" then .ok defaultHorizons
    else
      let parts := (raw.toList.splitOn ',').map (strip ∘ String.ofList)
      match (parts.filter (· ≠ "")).mapM (parseHorizon int repr) with
      | .error message => .error message
      | .ok values => if values = [] then .error "至少需要一個 N 值。" else .ok values

/-- What `_run` does once the range is known, on the rows that the snapshot query returns. -/
def runOver (prices : PriceTable) (query : BacktestQuery) (mode : Mode) (start stop : Date)
    (rows : List (Date × ScreenSnapshotItem)) : Except String BacktestResponse :=
  match parseHorizons int repr query.horizons with
  | .error message => .error message
  | .ok horizons =>
    if mode = .closeToClose ∧ horizons.any (· < 1) then
      .error "收盤價 → 收盤價 模式的 N 需 ≥ 1（N=0 等於自己比自己）。"
    else
      runBacktestOn
        { mode, start, stop, horizons, detailN := query.detailN, detailLimit := query.detailLimit
          detailSort := query.detailSort, detailOrder := query.detailOrder } rows prices

def runQuery (store : SnapshotStore) (prices : PriceTable) (today : Date) (query : BacktestQuery) :
    Except String BacktestResponse :=
  match validatedMode query.mode with
  | .error message => .error message
  | .ok mode =>
    match resolveRange store today query.start query.stop with
    | .error message => .error message
    | .ok (start, stop) =>
      runOver int repr prices query mode start stop
        (listSnapshotEntries store start stop (modeSession mode))

end Request

/-- The items of a session that satisfy the ends that are given. -/
def itemsWithin (store : SnapshotStore) (start stop : Option Date) (session : String) :
    List (Date × ScreenSnapshotItem) :=
  store.items.filterMap fun item =>
    ((snapshotOf store item).filter fun s =>
      start.all (· ≤ s.tradeDate) && stop.all (s.tradeDate ≤ ·) && s.session == session).map
        (·.tradeDate, item)

theorem itemsWithin_eq {store : SnapshotStore} {start stop : Option Date} {lo hi : Date}
    (hlo : ∀ s ∈ store.snapshots, lo ≤ s.tradeDate ↔ start.all (· ≤ s.tradeDate))
    (hhi : ∀ s ∈ store.snapshots, s.tradeDate ≤ hi ↔ stop.all (s.tradeDate ≤ ·))
    (session : String) : itemsInRange store lo hi session = itemsWithin store start stop session := by
  refine List.filterMap_congr fun item _ => ?_
  cases hsnapshot : snapshotOf store item with
  | none => rfl
  | some s =>
    have hs : s ∈ store.snapshots := List.mem_of_find?_eq_some hsnapshot
    have hsame : inRange lo hi session s = (start.all (· ≤ s.tradeDate) &&
        stop.all (s.tradeDate ≤ ·) && s.session == session) := by
      unfold inRange
      rw [Bool.eq_iff_iff]
      simp only [Bool.and_eq_true, decide_eq_true_eq, hlo s hs, hhi s hs]
    simp only [Option.filter_some, hsame]

/-- The first and the last day with a snapshot of either session. -/
structure IsCoverage (store : SnapshotStore) (minDate maxDate : Date) : Prop where
  first : IsLeast {day | day ∈ store.snapshots.map (·.tradeDate)} minDate
  last : IsGreatest {day | day ∈ store.snapshots.map (·.tradeDate)} maxDate

theorem getSnapshotCoverage_spec (store : SnapshotStore) :
    (store.snapshots = [] ∧ getSnapshotCoverage store = (none, none, 0, 0)) ∨
      ∃ minDate maxDate days, IsCoverage store minDate maxDate ∧
        getSnapshotCoverage store =
          (some minDate, some maxDate, days, store.snapshots.length) := by
  by_cases hnil : store.snapshots = []
  · exact Or.inl ⟨hnil, by simp [getSnapshotCoverage, hnil]⟩
  · obtain ⟨s, hs⟩ := List.exists_mem_of_ne_nil _ hnil
    have hday : s.tradeDate ∈ store.snapshots.map (·.tradeDate) := List.mem_map_of_mem hs
    obtain ⟨minDate, hmin⟩ := Option.isSome_iff_exists.mp (List.isSome_min?_of_mem hday)
    obtain ⟨maxDate, hmax⟩ := Option.isSome_iff_exists.mp (List.isSome_max?_of_mem hday)
    refine Or.inr ⟨minDate, maxDate, (store.snapshots.map (·.tradeDate)).dedup.length, ⟨?_, ?_⟩, ?_⟩
    · exact ⟨(List.min?_eq_some_iff.mp hmin).1, fun day => (List.min?_eq_some_iff.mp hmin).2 day⟩
    · exact ⟨(List.max?_eq_some_iff.mp hmax).1, fun day => (List.max?_eq_some_iff.mp hmax).2 day⟩
    · unfold getSnapshotCoverage
      simp only [List.length_eq_zero_iff, hnil, if_false, hmin, hmax]

def firstDay (store : SnapshotStore) (today : Date) (start : Option Date) : Date :=
  (start.or (getSnapshotCoverage store).1).getD today

def lastDay (store : SnapshotStore) (today : Date) (stop : Option Date) : Date :=
  (stop.or (getSnapshotCoverage store).2.1).getD today

theorem resolveRange_eq (store : SnapshotStore) (today : Date) (start stop : Option Date) :
    resolveRange store today start stop =
      if lastDay store today stop < firstDay store today start then .error startAfterEnd
      else if maxRangeDays < lastDay store today stop - firstDay store today start then
        .error rangeTooLong
      else .ok (firstDay store today start, lastDay store today stop) := by
  cases start <;> cases stop <;> rfl

theorem resolveRange_ok_iff {store : SnapshotStore} {today : Date} {start stop : Option Date} :
    (∀ message, resolveRange store today start stop ≠ .error message) ↔
      firstDay store today start ≤ lastDay store today stop ∧
        lastDay store today stop ≤ firstDay store today start + maxRangeDays := by
  rw [resolveRange_eq]
  split_ifs with hlate hlong
  · refine iff_of_false (fun h => h _ rfl) fun h => absurd h.1 (not_le.mpr hlate)
  · exact iff_of_false (fun h => h _ rfl) fun h => absurd h.2 (not_le.mpr (lt_tsub_iff_left.mp hlong))
  · refine iff_of_true (fun message h => by cases h) ?_
    exact ⟨not_lt.mp hlate, tsub_le_iff_left.mp (not_lt.mp hlong)⟩

/-- Whether the ends that are filled in pass the checks: the days that the range reaches from
the end that is given, or from any snapshot where none is, are not more than five years apart,
and a snapshot lies on the right side of the end that is given. -/
def InReach (store : SnapshotStore) (today : Date) (start stop : Option Date) : Prop :=
  match start, stop with
  | none, none =>
    ∀ s ∈ store.snapshots, ∀ s' ∈ store.snapshots, s'.tradeDate ≤ s.tradeDate + maxRangeDays
  | some start, none =>
    if store.snapshots = [] then start ≤ today ∧ today ≤ start + maxRangeDays
    else (∃ s ∈ store.snapshots, start ≤ s.tradeDate) ∧
      ∀ s ∈ store.snapshots, s.tradeDate ≤ start + maxRangeDays
  | none, some stop =>
    if store.snapshots = [] then today ≤ stop ∧ stop ≤ today + maxRangeDays
    else (∃ s ∈ store.snapshots, s.tradeDate ≤ stop) ∧
      ∀ s ∈ store.snapshots, stop ≤ s.tradeDate + maxRangeDays
  | some start, some stop => start ≤ stop ∧ stop ≤ start + maxRangeDays

theorem inReach_iff {store : SnapshotStore} {today : Date} {start stop : Option Date} :
    InReach store today start stop ↔
      firstDay store today start ≤ lastDay store today stop ∧
        lastDay store today stop ≤ firstDay store today start + maxRangeDays := by
  unfold firstDay lastDay InReach
  rcases getSnapshotCoverage_spec store with ⟨hnil, hcoverage⟩ | ⟨lo, hi, days, hcover, hcoverage⟩
  · rw [hcoverage]
    cases start <;> cases stop <;> simp [hnil]
  · have hne : store.snapshots ≠ [] := by
      rintro hnil
      simpa [hnil] using hcover.first.1
    rw [hcoverage]
    obtain ⟨first, hfirst, rfl⟩ := List.mem_map.mp hcover.first.1
    obtain ⟨last, hlast, rfl⟩ := List.mem_map.mp hcover.last.1
    have hlo (s : ScreenSnapshot) (hs : s ∈ store.snapshots) : first.tradeDate ≤ s.tradeDate :=
      hcover.first.2 (List.mem_map_of_mem hs)
    have hhi (s : ScreenSnapshot) (hs : s ∈ store.snapshots) : s.tradeDate ≤ last.tradeDate :=
      hcover.last.2 (List.mem_map_of_mem hs)
    have hspan := hlo last hlast
    cases start with
    | none =>
      cases stop with
      | none =>
        simp only [Option.none_or, Option.getD_some]
        constructor
        · intro h
          exact ⟨hspan, h first hfirst last hlast⟩
        · rintro ⟨-, h⟩ s hs s' hs'
          exact ((hhi s' hs').trans h).trans (Nat.add_le_add_right (hlo s hs) _)
      | some stop =>
        simp only [Option.none_or, Option.some_or, Option.getD_some, if_neg hne]
        constructor
        · rintro ⟨⟨s, hs, hle⟩, h⟩
          exact ⟨(hlo s hs).trans hle, h first hfirst⟩
        · rintro ⟨hle, h⟩
          exact ⟨⟨first, hfirst, hle⟩, fun s hs => h.trans (Nat.add_le_add_right (hlo s hs) _)⟩
    | some start =>
      cases stop with
      | none =>
        simp only [Option.none_or, Option.some_or, Option.getD_some, if_neg hne]
        constructor
        · rintro ⟨⟨s, hs, hle⟩, h⟩
          exact ⟨hle.trans (hhi s hs), h last hlast⟩
        · rintro ⟨hle, h⟩
          exact ⟨⟨last, hlast, hle⟩, fun s hs => (hhi s hs).trans h⟩
      | some stop => simp

/-- An open end leaves out no item. -/
theorem itemsInRange_open (store : SnapshotStore) (today : Date) (start stop : Option Date)
    (session : String) :
    itemsInRange store (firstDay store today start) (lastDay store today stop) session =
      itemsWithin store start stop session := by
  have hcover (s : ScreenSnapshot) (hs : s ∈ store.snapshots) :
      ∃ lo hi days total, getSnapshotCoverage store = (some lo, some hi, days, total) ∧
        lo ≤ s.tradeDate ∧ s.tradeDate ≤ hi := by
    rcases getSnapshotCoverage_spec store with ⟨hnil, -⟩ | ⟨lo, hi, days, hcover, hcoverage⟩
    · rw [hnil] at hs
      cases hs
    · have hday : s.tradeDate ∈ store.snapshots.map (·.tradeDate) := List.mem_map_of_mem hs
      exact ⟨lo, hi, days, _, hcoverage, hcover.first.2 hday, hcover.last.2 hday⟩
  refine itemsWithin_eq (fun s hs => ?_) (fun s hs => ?_) session
  · obtain ⟨lo, hi, days, total, hcoverage, hlo, -⟩ := hcover s hs
    unfold firstDay
    rw [hcoverage]
    cases start <;> simp [hlo]
  · obtain ⟨lo, hi, days, total, hcoverage, -, hhi⟩ := hcover s hs
    unfold lastDay
    rw [hcoverage]
    cases stop <;> simp [hhi]

section Request

variable (int : String → Option Int) (repr : String → String)

/-- The range is not refused, and the request is a backtest of just the items that satisfy
the ends that are given. -/
structure ConsidersOpen (store : SnapshotStore) (prices : PriceTable) (today : Date)
    (query : BacktestQuery) (mode : Mode) : Prop where
  accepted : ∀ message, resolveRange store today query.start query.stop ≠ .error message
  considered : ∃ start stop rows,
    rows.Perm (itemsWithin store query.start query.stop (modeSession mode)) ∧
    runQuery int repr store prices today query =
      runOver int repr prices query mode start stop rows

theorem runQuery_open_iff (store : SnapshotStore) (prices : PriceTable) (today : Date)
    {query : BacktestQuery} {mode : Mode} (hmode : validatedMode query.mode = .ok mode) :
    ConsidersOpen int repr store prices today query mode ↔
      InReach store today query.start query.stop := by
  rw [inReach_iff, ← resolveRange_ok_iff]
  refine ⟨ConsidersOpen.accepted, fun haccepted => ⟨haccepted, ?_⟩⟩
  obtain ⟨hle, hspan⟩ := resolveRange_ok_iff.mp haccepted
  refine ⟨firstDay store today query.start, lastDay store today query.stop,
    listSnapshotEntries store (firstDay store today query.start)
      (lastDay store today query.stop) (modeSession mode), ?_, ?_⟩
  · rw [← itemsInRange_open store today]
    exact (listSnapshotEntries_isSnapshotEntries _ _ _ _).perm_items
  · have hresolved : resolveRange store today query.start query.stop =
        .ok (firstDay store today query.start, lastDay store today query.stop) := by
      rw [resolveRange_eq, if_neg (not_lt.mpr hle), if_neg (not_lt.mpr (tsub_le_iff_left.mpr hspan))]
    unfold runQuery
    rw [hmode, hresolved]

end Request

theorem runQuery_open_iff_newest :
    ConsidersOpen String.toInt? id (oneItemStore "2330") ∅ 20
        { mode := "intraday_to_close", start := some 10 } .intradayToClose ↔
      InReach (oneItemStore "2330") 20 (some 10) none :=
  runQuery_open_iff String.toInt? id (oneItemStore "2330") ∅ 20
    (show validatedMode "intraday_to_close" = .ok .intradayToClose from rfl)

/-- Snapshots of the first day and of one more than five years later. -/
def longHistory : SnapshotStore where
  snapshots :=
    [{ id := 1, tradeDate := 10, session := "eod", generatedAt := 0 },
      { id := 2, tradeDate := 1841, session := "eod", generatedAt := 0 }]
  items := []
  ids_nodup := by decide
  itemIds_nodup := List.nodup_nil
  keys_nodup := by decide
  items_owned := by decide

theorem runQuery_long_history :
    runQuery String.toInt? id longHistory ∅ 1841 {} = .error rangeTooLong ∧
      runQuery String.toInt? id longHistory ∅ 1900 { start := some 1842 } =
        .error startAfterEnd ∧
      ¬ ConsidersOpen String.toInt? id longHistory ∅ 1841 {} .closeToClose ∧
      ¬ ConsidersOpen String.toInt? id longHistory ∅ 1900 { start := some 1842 } .closeToClose :=
  ⟨rfl, rfl, fun h => h.accepted _ rfl, fun h => h.accepted _ rfl⟩

end StockQuant
