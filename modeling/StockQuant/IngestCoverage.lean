import StockQuant.BacktestRequests
import StockQuant.IngestService

/-! What the coverage endpoints report, against what the ingests were answered. -/

namespace StockQuant

open KeyedTable

structure SnapshotCoverage where
  minDate : Option Date := none
  maxDate : Option Date := none
  tradingDays : Int := 0
  totalSnapshots : Int := 0
  dbSizeBytes : Option Int := none
  deriving DecidableEq

structure PriceCoverage where
  minDate : Option Date := none
  maxDate : Option Date := none
  tradingDays : Int := 0
  totalRows : Int := 0
  symbols : Int := 0
  deriving DecidableEq

structure BacktestCoverage where
  snapshots : SnapshotCoverage
  prices : PriceCoverage
  deriving DecidableEq

def getPriceCoverage (prices : PriceTable) : Option Date × Option Date × Nat × Nat × Nat :=
  let days := prices.rows.map (·.tradeDate)
  let total := prices.rows.length
  if total = 0 then (none, none, 0, 0, 0)
  else
    (days.min?, days.max?, days.dedup.length, total,
      (prices.rows.map (·.symbol)).dedup.length)

/-- The endpoint of the backtest module; `dbSizeBytes` is what the database says of its files. -/
def backtestCoverage (dbSizeBytes : Option Int) (tables : MarketTables) : BacktestCoverage :=
  let (sMin, sMax, sDays, sTotal) := getSnapshotCoverage tables.store
  let (pMin, pMax, pDays, pRows, pSymbols) := getPriceCoverage tables.prices
  { snapshots :=
      { minDate := sMin, maxDate := sMax, tradingDays := sDays, totalSnapshots := sTotal,
        dbSizeBytes }
    prices :=
      { minDate := pMin, maxDate := pMax, tradingDays := pDays, totalRows := pRows,
        symbols := pSymbols } }

abbrev IngestLog := List (IngestCall × Except Failure IngestReply)

/-- The snapshots that were answered as stored. -/
def snapshotAcks (log : IngestLog) : List IngestResult :=
  log.filterMap fun entry =>
    match entry.2 with
    | .ok (.snapshot result) => some result
    | _ => none

/-- The uploads that were answered as stored, with what they sent. -/
def priceAcks (log : IngestLog) : List (DailyPricesIngestBody × DailyPricesIngestResult) :=
  log.filterMap fun entry =>
    match entry.1.ingest, entry.2 with
    | .prices body, .ok (.prices result) => some (body, result)
    | _, _ => none

/-- The days of which an upload was answered to have stored a price. -/
def pricedDays (log : IngestLog) : List Date :=
  ((priceAcks log).filter fun ack => ack.2.inserted + ack.2.updated ≠ 0).map (·.2.tradeDate)

def pricedSymbols (log : IngestLog) : List String :=
  (priceAcks log).flatMap fun ack => (closed ack.1.items).map (·.1.symbol)

section Lists

variable {α : Type} [LinearOrder α] {l l' : List α}

theorem min?_congr (h : ∀ x, x ∈ l ↔ x ∈ l') : l.min? = l'.min? := by
  refine Option.ext fun x => ?_
  simp only [List.min?_eq_some_iff, h]

theorem max?_congr (h : ∀ x, x ∈ l ↔ x ∈ l') : l.max? = l'.max? := by
  refine Option.ext fun x => ?_
  simp only [List.max?_eq_some_iff, h]

theorem length_dedup_congr (h : ∀ x, x ∈ l ↔ x ∈ l') : l.dedup.length = l'.dedup.length := by
  refine ((List.perm_ext_iff_of_nodup (List.nodup_dedup l) (List.nodup_dedup l')).mpr
    fun x => ?_).length_eq
  rw [List.mem_dedup, List.mem_dedup, h]

end Lists

theorem ingestSnapshot_key {r : Ingest} {store : SnapshotStore} {result : IngestResult}
    (h : (ingestSnapshot r store).2 = some result) :
    (result.tradeDate, result.session) = r.body.key := by
  unfold ingestSnapshot at h
  split_ifs at h
  · rcases upsert_cases r store with ⟨-, hpoint, -⟩ | ⟨store', s, -, hfind, hdone⟩
    · split at h
      · next store' s replaced heq => exact absurd (congrArg Prod.snd heq) (hpoint s replaced)
      · cases h
    · rw [hdone] at h
      obtain rfl := Option.some.inj h
      exact (findSnapshot_eq_some_iff.mp hfind).2

theorem mem_keys_iff {store : SnapshotStore} {key : Date × String} :
    key ∈ store.snapshots.map ScreenSnapshot.key ↔ (findSnapshot store key).isSome := by
  rw [Option.isSome_iff_exists]
  simp only [findSnapshot_eq_some_iff, List.mem_map]

theorem Written.mem_keys {body : SnapshotIngestBody} {store store' : SnapshotStore}
    (h : Written body store store') (key : Date × String) :
    key ∈ store'.snapshots.map ScreenSnapshot.key ↔
      key = body.key ∨ key ∈ store.snapshots.map ScreenSnapshot.key := by
  rw [mem_keys_iff, mem_keys_iff]
  by_cases hkey : key = body.key
  · obtain ⟨_, _, -, -, hfind, -⟩ := h.stored
    simp [hkey, hfind]
  · rw [(h.others key hkey).1]
    simp [hkey]

/-- A snapshot that replaces none is one more. -/
theorem Written.length_snapshots {body : SnapshotIngestBody} {store store' : SnapshotStore}
    (h : Written body store store') :
    store'.snapshots.length =
      store.snapshots.length + if (findSnapshot store body.key).isSome then 0 else 1 := by
  have hlength (store : SnapshotStore) :
      store.snapshots.length = (store.snapshots.map ScreenSnapshot.key).length := by simp
  rw [hlength store', hlength store]
  split_ifs with hreplaces
  · refine ((List.perm_ext_iff_of_nodup store'.keys_nodup store.keys_nodup).mpr
      fun key => ?_).length_eq
    rw [h.mem_keys, or_iff_right_of_imp]
    rintro rfl
    exact mem_keys_iff.mpr hreplaces
  · have hnew : (body.key :: store.snapshots.map ScreenSnapshot.key).Nodup :=
      List.nodup_cons.mpr ⟨fun hmem => hreplaces (mem_keys_iff.mp hmem), store.keys_nodup⟩
    refine ((List.perm_ext_iff_of_nodup store'.keys_nodup hnew).mpr fun key => ?_).length_eq
    rw [h.mem_keys, List.mem_cons]

/-- The rows that an upload adds, by their keys. -/
theorem ingestPrices_keys {prices prices' : PriceTable} {body : DailyPricesIngestBody}
    {result : DailyPricesIngestResult} (h : ingestPrices prices body = some (prices', result)) :
    result.tradeDate = body.tradeDate ∧
    result.inserted + result.updated = (closed body.items).length ∧
    (prices'.rows.length : Int) = prices.rows.length + result.inserted ∧
    ∀ key, key ∈ prices'.rows.map DailyPrice.key ↔
      key ∈ prices.rows.map DailyPrice.key ∨
        key.1 = body.tradeDate ∧ key.2 ∈ (closed body.items).map (·.1.symbol) := by
  unfold ingestPrices at h
  obtain ⟨⟨uploaded, inserted, updated⟩, hupsert, h⟩ := Option.bind_eq_some_iff.mp h
  obtain ⟨rfl, rfl⟩ := Prod.mk.inj (Option.some.inj h)
  have hcounts := (length_newBars hupsert).2
  rw [upsertDailyPrices_eq] at hupsert
  obtain ⟨rows, added, hrows, hadded, htable, rfl, -⟩ := commitPrices_eq_some_iff.mp hupsert
  have hkeys := keys_of_commit hrows hadded
  rw [← htable] at hkeys
  have hlength := congrArg List.length hkeys
  simp only [List.length_map, List.length_append] at hlength
  dsimp only
  refine ⟨rfl, by exact_mod_cast hcounts, by exact_mod_cast hlength, fun key => ?_⟩
  rw [hkeys, List.mem_append]
  constructor
  · rintro (hold | hnew)
    · exact Or.inl hold
    · obtain ⟨bar, hbar, rfl⟩ := List.mem_map.mp hnew
      exact Or.inr ⟨rfl, List.mem_map.mpr ⟨bar, (List.mem_filter.mp hbar).1, rfl⟩⟩
  · rintro (hold | ⟨hday, hsymbol⟩)
    · exact Or.inl hold
    · obtain ⟨day, symbol⟩ := key
      obtain rfl : day = body.tradeDate := hday
      obtain ⟨bar, hbar, rfl⟩ := List.mem_map.mp hsymbol
      cases hrow : prices.get? (body.tradeDate, bar.1.symbol) with
      | some row =>
        obtain ⟨hmem, hkey⟩ := Table.get?_eq_some_iff.mp hrow
        exact Or.inl (List.mem_map.mpr ⟨row, hmem, hkey⟩)
      | none =>
        have hown : bar ∈ barsOf body.items bar.1.symbol :=
          List.mem_filter.mpr ⟨hbar, decide_eq_true rfl⟩
        exact Or.inr (List.mem_map.mpr ⟨bar, mem_newBars.mpr ⟨hown, hrow⟩, rfl⟩)

/-- The keys and the rows of the tables, as they were answered. -/
structure Acknowledged (tables : MarketTables) (log : IngestLog) : Prop where
  screened : ∀ key, key ∈ tables.store.snapshots.map ScreenSnapshot.key ↔
    ∃ result ∈ snapshotAcks log, (result.tradeDate, result.session) = key
  created : tables.store.snapshots.length = (snapshotAcks log).countP (·.replaced = false)
  priced : ∀ key, key ∈ tables.prices.rows.map DailyPrice.key ↔
    ∃ ack ∈ priceAcks log, key.1 = ack.1.tradeDate ∧
      key.2 ∈ (closed ack.1.items).map (·.1.symbol)
  inserted : (tables.prices.rows.length : Int) = ((priceAcks log).map (·.2.inserted)).sum
  answers : ∀ ack ∈ priceAcks log, ack.2.tradeDate = ack.1.tradeDate ∧
    ack.2.inserted + ack.2.updated = (closed ack.1.items).length

section Runs

variable {repr : String → String} {configured : String} {tables : MarketTables} {log : IngestLog}

theorem Acknowledged.failed (h : Acknowledged tables log) (call : IngestCall) (failure : Failure) :
    Acknowledged tables (log ++ [(call, .error failure)]) := by
  have hsnapshots : snapshotAcks (log ++ [(call, .error failure)]) = snapshotAcks log := by
    simp [snapshotAcks]
  have hprices : priceAcks (log ++ [(call, .error failure)]) = priceAcks log := by
    simp [priceAcks]
  exact ⟨hsnapshots ▸ h.screened, hsnapshots ▸ h.created, hprices ▸ h.priced,
    hprices ▸ h.inserted, hprices ▸ h.answers⟩

theorem Acknowledged.snapshot (h : Acknowledged tables log) {r : Ingest} {result : IngestResult}
    (hresult : (ingestSnapshot r tables.store).2 = some result) (call : IngestCall) :
    Acknowledged { tables with store := (ingestSnapshot r tables.store).1 }
      (log ++ [(call, .ok (.snapshot result))]) := by
  have hstep := ingestSnapshot_step r tables.store
  have hwritten := hstep.succeeded (by simp [hresult])
  have hkey := ingestSnapshot_key hresult
  have hacks : snapshotAcks (log ++ [(call, .ok (.snapshot result))]) =
      snapshotAcks log ++ [result] := by simp [snapshotAcks]
  have hprices : priceAcks (log ++ [(call, .ok (.snapshot result))]) = priceAcks log := by
    simp [priceAcks]
  refine ⟨fun key => ?_, ?_, hprices ▸ h.priced, hprices ▸ h.inserted, hprices ▸ h.answers⟩
  · rw [hwritten.mem_keys, h.screened, hacks]
    simp only [List.mem_append, List.mem_singleton, or_and_right, exists_or, exists_eq_left, hkey]
    exact or_comm.trans (or_congr_right eq_comm)
  · rw [hwritten.length_snapshots, h.created, hacks, List.countP_append, List.countP_singleton]
    have hreplaced := hstep.replaced result hresult
    cases hflag : result.replaced with
    | true => simp [hreplaced.mp hflag]
    | false =>
      rw [hflag] at hreplaced
      simp [show (findSnapshot tables.store r.body.key).isSome = false by simpa using hreplaced]

theorem Acknowledged.prices (h : Acknowledged tables log) {body : DailyPricesIngestBody}
    {prices' : PriceTable} {result : DailyPricesIngestResult}
    (hresult : ingestPrices tables.prices body = some (prices', result)) {call : IngestCall}
    (hcall : call.ingest = .prices body) :
    Acknowledged { tables with prices := prices' } (log ++ [(call, .ok (.prices result))]) := by
  obtain ⟨hday, hcounts, hlength, hkeys⟩ := ingestPrices_keys hresult
  have hacks : priceAcks (log ++ [(call, .ok (.prices result))]) =
      priceAcks log ++ [(body, result)] := by simp [priceAcks, hcall]
  have hsnapshots : snapshotAcks (log ++ [(call, .ok (.prices result))]) = snapshotAcks log := by
    simp [snapshotAcks]
  refine ⟨hsnapshots ▸ h.screened, hsnapshots ▸ h.created, fun key => ?_, ?_, fun ack hack => ?_⟩
  · rw [hkeys, h.priced, hacks]
    simp only [List.mem_append, List.mem_singleton, or_and_right, exists_or, exists_eq_left]
  · rw [hacks, List.map_append, List.sum_append, ← h.inserted, hlength]
    simp
  · rw [hacks] at hack
    rcases List.mem_append.mp hack with hack | hack
    · exact h.answers ack hack
    · obtain rfl := List.mem_singleton.mp hack
      exact ⟨hday, hcounts⟩

theorem acknowledged_run (calls : List IngestCall) :
    Acknowledged (runIngestService repr configured calls).tables
      (runIngestService repr configured calls).log := by
  induction calls using List.reverseRecOn with
  | nil =>
    refine ⟨fun key => ?_, rfl, fun key => ?_, rfl, fun ack hack => absurd hack List.not_mem_nil⟩
    · simp [runIngestService, snapshotAcks, emptySnapshots]
    · simp [runIngestService, priceAcks, EmptyCollection.emptyCollection]
  | append_singleton calls call ih =>
    rw [runIngestService_snoc]
    unfold IngestService.handle handleIngest
    dsimp only
    cases requireIngestToken configured call.token with
    | error failure => exact ih.failed call failure
    | ok =>
      dsimp only
      cases hingest : call.ingest with
      | snapshot r =>
        unfold answerIngest
        dsimp only
        split_ifs with hsession
        · rcases hanswer : ingestSnapshot r (runIngestService repr configured calls).tables.store
            with ⟨store', _ | result⟩
          · have hstep := ingestSnapshot_step r (runIngestService repr configured calls).tables.store
            rw [hanswer] at hstep
            obtain rfl := hstep.failed rfl
            exact ih.failed call _
          · have hdone := ih.snapshot (congrArg Prod.snd hanswer) call
            rw [hanswer] at hdone
            exact hdone
        · exact ih.failed call _
      | prices body =>
        unfold answerIngest
        dsimp only
        cases hanswer : ingestPrices (runIngestService repr configured calls).tables.prices body with
        | none => exact ih.failed call _
        | some uploaded => exact ih.prices hanswer hingest

theorem Acknowledged.mem_days (h : Acknowledged tables log) (day : Date) :
    day ∈ tables.store.snapshots.map (·.tradeDate) ↔
      day ∈ (snapshotAcks log).map (·.tradeDate) := by
  have hday : day ∈ tables.store.snapshots.map (·.tradeDate) ↔
      ∃ session, (day, session) ∈ tables.store.snapshots.map ScreenSnapshot.key := by
    simp only [List.mem_map, ScreenSnapshot.key, Prod.mk.injEq]
    exact ⟨fun ⟨s, hs, hday⟩ => ⟨s.session, s, hs, hday, rfl⟩,
      fun ⟨_, s, hs, hday, _⟩ => ⟨s, hs, hday⟩⟩
  rw [hday, List.mem_map]
  simp only [h.screened, Prod.mk.injEq]
  exact ⟨fun ⟨_, result, hresult, hday, _⟩ => ⟨result, hresult, hday⟩,
    fun ⟨result, hresult, hday⟩ => ⟨result.session, result, hresult, hday, rfl⟩⟩

theorem Acknowledged.mem_row (h : Acknowledged tables log) (day : Date) (symbol : String) :
    (∃ row ∈ tables.prices.rows, row.tradeDate = day ∧ row.symbol = symbol) ↔
      ∃ ack ∈ priceAcks log, ack.2.tradeDate = day ∧
        symbol ∈ (closed ack.1.items).map (·.1.symbol) := by
  have hpriced := h.priced (day, symbol)
  simp only [List.mem_map, DailyPrice.key, Prod.mk.injEq] at hpriced ⊢
  rw [hpriced]
  refine exists_congr fun ack => and_congr_right fun hack => and_congr_left fun _ => ?_
  rw [(h.answers ack hack).1]
  exact eq_comm

theorem Acknowledged.mem_pricedDays (h : Acknowledged tables log) (day : Date) :
    day ∈ tables.prices.rows.map (·.tradeDate) ↔ day ∈ pricedDays log := by
  have hday : day ∈ tables.prices.rows.map (·.tradeDate) ↔
      ∃ symbol, ∃ row ∈ tables.prices.rows, row.tradeDate = day ∧ row.symbol = symbol := by
    rw [List.mem_map]
    exact ⟨fun ⟨row, hrow, hday⟩ => ⟨row.symbol, row, hrow, hday, rfl⟩,
      fun ⟨_, row, hrow, hday, _⟩ => ⟨row, hrow, hday⟩⟩
  have hstored (ack : DailyPricesIngestBody × DailyPricesIngestResult) (hack : ack ∈ priceAcks log) :
      (∃ symbol, symbol ∈ (closed ack.1.items).map (·.1.symbol)) ↔
        ack.2.inserted + ack.2.updated ≠ 0 := by
    rw [(h.answers ack hack).2]
    cases closed ack.1.items with
    | nil => simp
    | cons bar bars => exact iff_of_true ⟨bar.1.symbol, by simp⟩ (by rw [List.length_cons]; omega)
  rw [hday]
  simp only [h.mem_row]
  unfold pricedDays
  simp only [List.mem_map, List.mem_filter, decide_eq_true_eq]
  constructor
  · rintro ⟨symbol, ack, hack, hday, hsymbol⟩
    exact ⟨ack, ⟨hack, (hstored ack hack).mp ⟨symbol, List.mem_map.mpr hsymbol⟩⟩, hday⟩
  · rintro ⟨ack, ⟨hack, hcount⟩, hday⟩
    obtain ⟨symbol, hsymbol⟩ := (hstored ack hack).mpr hcount
    exact ⟨symbol, ack, hack, hday, List.mem_map.mp hsymbol⟩

theorem Acknowledged.mem_pricedSymbols (h : Acknowledged tables log) (symbol : String) :
    symbol ∈ tables.prices.rows.map (·.symbol) ↔ symbol ∈ pricedSymbols log := by
  have hsymbol : symbol ∈ tables.prices.rows.map (·.symbol) ↔
      ∃ day, ∃ row ∈ tables.prices.rows, row.tradeDate = day ∧ row.symbol = symbol := by
    rw [List.mem_map]
    exact ⟨fun ⟨row, hrow, hsymbol⟩ => ⟨row.tradeDate, row, hrow, rfl, hsymbol⟩,
      fun ⟨_, row, hrow, _, hsymbol⟩ => ⟨row, hrow, hsymbol⟩⟩
  rw [hsymbol]
  simp only [h.mem_row]
  unfold pricedSymbols
  rw [List.mem_flatMap]
  exact ⟨fun ⟨_, ack, hack, _, hsymbol⟩ => ⟨ack, hack, hsymbol⟩,
    fun ⟨ack, hack, hsymbol⟩ => ⟨ack.2.tradeDate, ack, hack, rfl, hsymbol⟩⟩

theorem eq_nil_congr {α : Type} {l l' : List α} (h : ∀ x, x ∈ l ↔ x ∈ l') : l = [] ↔ l' = [] := by
  simp only [List.eq_nil_iff_forall_not_mem, h]

theorem Acknowledged.getSnapshotCoverage (h : Acknowledged tables log) :
    let days := (snapshotAcks log).map (·.tradeDate)
    getSnapshotCoverage tables.store = (days.min?, days.max?, days.dedup.length,
      (snapshotAcks log).countP (·.replaced = false)) := by
  intro days
  unfold StockQuant.getSnapshotCoverage
  dsimp only
  rw [min?_congr h.mem_days, max?_congr h.mem_days, length_dedup_congr h.mem_days, ← h.created]
  split_ifs with hempty
  · have hnone : days = [] := (eq_nil_congr h.mem_days).mp
      (List.map_eq_nil_iff.mpr (List.length_eq_zero_iff.mp hempty))
    simp [days, hnone, hempty]
  · rfl

theorem Acknowledged.getPriceCoverage (h : Acknowledged tables log) :
    let days := pricedDays log
    getPriceCoverage tables.prices = (days.min?, days.max?, days.dedup.length,
      tables.prices.rows.length, (pricedSymbols log).dedup.length) := by
  intro days
  unfold StockQuant.getPriceCoverage
  dsimp only
  rw [min?_congr h.mem_pricedDays, max?_congr h.mem_pricedDays,
    length_dedup_congr h.mem_pricedDays, length_dedup_congr h.mem_pricedSymbols]
  split_ifs with hempty
  · have hrows := List.length_eq_zero_iff.mp hempty
    have hdays : days = [] := (eq_nil_congr h.mem_pricedDays).mp (by simp [hrows])
    have hsymbols := (eq_nil_congr h.mem_pricedSymbols).mp (by simp [hrows])
    simp [days, hdays, hsymbols, hempty]
  · rfl

end Runs

/-- Only calls that bring the secret act on the tables, and what the coverage endpoint then reports
can be told from the answers alone: a snapshot that did not replace one is one more, an upload has
added as many rows as it says, and the days are those that were answered. -/
theorem runIngestService_coverage (repr : String → String) (configured : String)
    (calls : List IngestCall) (dbSizeBytes : Option Int) :
    let s := runIngestService repr configured calls
    let screened := (snapshotAcks s.log).map (·.tradeDate)
    let priced := pricedDays s.log
    s.tables = runMarket ((calls.filter fun call => Opens configured call.token).map
      IngestCall.ingest) ∧
    backtestCoverage dbSizeBytes s.tables =
      { snapshots :=
          { minDate := screened.min?
            maxDate := screened.max?
            tradingDays := screened.dedup.length
            totalSnapshots := (snapshotAcks s.log).countP (·.replaced = false)
            dbSizeBytes }
        prices :=
          { minDate := priced.min?
            maxDate := priced.max?
            tradingDays := priced.dedup.length
            totalRows := ((priceAcks s.log).map (·.2.inserted)).sum
            symbols := (pricedSymbols s.log).dedup.length } } := by
  intro s screened priced
  have hacks : Acknowledged s.tables s.log := acknowledged_run calls
  refine ⟨runIngestService_tables calls, ?_⟩
  unfold backtestCoverage
  rw [hacks.getSnapshotCoverage, hacks.getPriceCoverage, ← hacks.inserted]

end StockQuant
