import StockQuant.BacktestSessions
import StockQuant.PriceRace

/-! The requests on the market tables statement by statement: the ingests, the backtest, the
coverage and the downloads of snapshots, any number of each at the same time. -/

namespace StockQuant

open ReadCommitted Spreadsheet

inductive DayPoint where
  | header
  | items (snapshot : ScreenSnapshot)
  | finished (reply : XlsxReply)
  deriving DecidableEq

inductive RangePoint where
  | headers
  | items (snapshots todo : List ScreenSnapshot)
      (rows : List (ScreenSnapshot × List ScreenSnapshotItem))
  | finished (reply : XlsxReply)
  deriving DecidableEq

def dayFile (strftime : String → Date → String) (date : Date) (session : String) : String :=
  "screen_" ++ strftime "%Y%m%d" date ++ "_" ++ session ++ ".xlsx"

def rangeFile (strftime : String → Date → String) (start stop : Date) (session : String) :
    String :=
  "screen_" ++ strftime "%Y%m%d" start ++ "_" ++ strftime "%Y%m%d" stop ++ "_" ++ session ++ ".xlsx"

def askItems (store : SnapshotStore) (rows : List (ScreenSnapshot × List ScreenSnapshotItem))
    (s : ScreenSnapshot) : List (ScreenSnapshot × List ScreenSnapshotItem) :=
  rows ++ [(s, getSnapshotItems store s.id)]

inductive MarketRequest where
  | snapshot (body : SnapshotIngestBody) (ids : SnapshotIds)
  | prices (body : DailyPricesIngestBody)
  | backtest (params : BacktestParams)
  | day (date : Date) (session : String)
  | range (start stop : Date) (session : String)
  | coverage (dbSizeBytes : Option Int)
  | query (today : Date) (query : BacktestQuery)

inductive MarketPoint where
  | snapshot (point : UpsertPoint)
  | prices (point : UploadPoint)
  | backtest (point : BacktestPoint)
  | day (point : DayPoint)
  | range (point : RangePoint)
  | coverage (point : CoveragePoint)
  | query (point : QueryPoint)
  deriving DecidableEq

def MarketRequest.start : MarketRequest → MarketPoint
  | .snapshot _ _ => .snapshot .select
  | .prices _ => .prices .select
  | .backtest _ => .backtest .entries
  | .day _ _ => .day .header
  | .range _ _ _ => .range .headers
  | .coverage _ => .coverage (.snapshots .total)
  | .query _ _ => .query .start

def MarketTables.setStore (tables : MarketTables) (store : SnapshotStore) : MarketTables :=
  { tables with store }

def MarketTables.setPrices (tables : MarketTables) (prices : PriceTable) : MarketTables :=
  { tables with prices }

section Actions

variable {L : Type} [LinearOrder L] (env : MarketEnv L)

def dayAction (date : Date) (session : String) : DayPoint → Action SnapshotStore DayPoint
  | .header =>
    if session ∉ sessions then .work (.finished (.refused unknownSession))
    else .read fun store =>
      match getSnapshot store date session with
      | none => .finished (xlsxResponse
          (emptySnapshotXlsx env.bind (dateLabel env.strftime date) session)
          (dayFile env.strftime date session))
      | some snap => .items snap
  | .items snap => .read fun store => .finished (xlsxResponse
      (snapshotToXlsx env.bind env.strftime snap (getSnapshotItems store snap.id))
      (dayFile env.strftime date session))
  | .finished reply => .work (.finished reply)

def rangeAction (start stop : Date) (session : String) :
    RangePoint → Action SnapshotStore RangePoint
  | .headers =>
    if session ∉ sessions then .work (.finished (.refused unknownSession))
    else if stop < start then .work (.finished (.refused "start must not be after end."))
    else if Download.maxRangeDays < stop - start then
      .work (.finished (.refused
        ("range too large (max " ++ toString Download.maxRangeDays ++ " days).")))
    else .read fun store =>
      let snaps := listSnapshotsInRange env.collation store start stop (some session)
      if snaps = [] then .finished (xlsxResponse
        (emptySnapshotsRangeXlsx env.bind (dateLabel env.strftime start)
          (dateLabel env.strftime stop) session)
        (rangeFile env.strftime start stop session))
      else .items snaps snaps []
  | .items _ [] rows => .work (.finished (xlsxResponse
      (snapshotsRangeToXlsx env.bind env.strftime rows (dateLabel env.strftime start)
        (dateLabel env.strftime stop) session)
      (rangeFile env.strftime start stop session)))
  | .items snaps (s :: todo) rows => .read fun store => .items snaps todo (askItems store rows s)
  | .finished reply => .work (.finished reply)

def marketAction : MarketRequest → MarketPoint → Action MarketTables MarketPoint
  | .snapshot body ids, .snapshot point =>
    ((upsertAction body ids point).onPart MarketTables.store MarketTables.setStore).map .snapshot
  | .prices body, .prices point =>
    ((uploadAction body point).onPart MarketTables.prices MarketTables.setPrices).map .prices
  | .backtest params, .backtest point => (backtestAction env params point).map .backtest
  | .day date session, .day point =>
    ((dayAction env date session point).onPart MarketTables.store MarketTables.setStore).map .day
  | .range start stop session, .range point =>
    ((rangeAction env start stop session point).onPart MarketTables.store
      MarketTables.setStore).map .range
  | .coverage dbSizeBytes, .coverage point => (coverageAction dbSizeBytes point).map .coverage
  | .query today query, .query point => (queryAction env today query point).map .query
  | _, point => .work point

def marketProgram {ι : Type} (requests : ι → MarketRequest) (i : ι) (_ : Unit) :
    MarketPoint → Action MarketTables MarketPoint := marketAction env (requests i)

end Actions

section Steps

variable {L ι : Type} [LinearOrder L]

theorem perform_day (env : MarketEnv L) (date : Date) (session : String) (point : DayPoint)
    (store : SnapshotStore) : ((dayAction env date session point).perform store).1 = store := by
  cases point with
  | header =>
    unfold dayAction
    dsimp only
    split_ifs <;> rfl
  | items snap => rfl
  | finished reply => rfl

theorem perform_range (env : MarketEnv L) (start stop : Date) (session : String)
    (point : RangePoint) (store : SnapshotStore) :
    ((rangeAction env start stop session point).perform store).1 = store := by
  cases point with
  | headers =>
    unfold rangeAction
    dsimp only
    split_ifs <;> rfl
  | items snaps todo rows => cases todo <;> rfl
  | finished reply => rfl

variable [DecidableEq ι]

/-- A request that only reads the tables. -/
def MarketPoint.reading : MarketPoint → Bool
  | .snapshot _ | .prices _ => false
  | .backtest _ | .day _ | .range _ | .coverage _ | .query _ => true

/-- What one step does: an ingest acts on its own table, and any other request on none. -/
inductive MarketStep (requests : ι → MarketRequest) (i : ι)
    (c c' : Config ι MarketTables MarketPoint) : Prop where
  | snapshot (body : SnapshotIngestBody) (ids : SnapshotIds) (point next : UpsertPoint)
      (hrequest : requests i = .snapshot body ids) (hsession : c.session i = .snapshot point)
      (hperform : (upsertAction body ids point).perform c.store.store = (c'.store.store, next))
      (hprices : c'.store.prices = c.store.prices) (hnext : c'.session i = .snapshot next)
  | prices (body : DailyPricesIngestBody) (point next : UploadPoint)
      (hrequest : requests i = .prices body) (hsession : c.session i = .prices point)
      (hperform : (uploadAction body point).perform c.store.prices = (c'.store.prices, next))
      (hstore : c'.store.store = c.store.store) (hnext : c'.session i = .prices next)
  | reads (htables : c'.store = c.store)
      (hnext : (c'.session i).reading ∨ c'.session i = c.session i)

theorem marketStep (env : MarketEnv L) (requests : ι → MarketRequest)
    (c : Config ι MarketTables MarketPoint) (i : ι) (x : Unit) :
    MarketStep requests i c (step (marketProgram env requests) c i x) := by
  have hstep := @step_eq_perform _ _ _ _ _ (marketProgram env requests) c i x
  generalize step (marketProgram env requests) c i x = c' at hstep ⊢
  unfold marketProgram marketAction at hstep
  split at hstep
  · next body ids point hrequest hsession =>
    rw [perform_map, perform_onPart fun _ => rfl] at hstep
    obtain ⟨hstore, hnext⟩ := Prod.mk.inj hstep
    refine .snapshot body ids point _ hrequest hsession ?_ ?_ hnext
    · rw [hstore]
      rfl
    · rw [hstore]
      rfl
  · next body point hrequest hsession =>
    rw [perform_map, perform_onPart fun _ => rfl] at hstep
    obtain ⟨hstore, hnext⟩ := Prod.mk.inj hstep
    refine .prices body point _ hrequest hsession ?_ ?_ hnext
    · rw [hstore]
      rfl
    · rw [hstore]
      rfl
  · rw [perform_map, perform_backtest] at hstep
    obtain ⟨hstore, hnext⟩ := Prod.mk.inj hstep
    exact .reads hstore (Or.inl (by rw [hnext]; rfl))
  · rw [perform_map, perform_onPart fun _ => rfl, perform_day] at hstep
    obtain ⟨hstore, hnext⟩ := Prod.mk.inj hstep
    exact .reads hstore (Or.inl (by rw [hnext]; rfl))
  · rw [perform_map, perform_onPart fun _ => rfl, perform_range] at hstep
    obtain ⟨hstore, hnext⟩ := Prod.mk.inj hstep
    exact .reads hstore (Or.inl (by rw [hnext]; rfl))
  · rw [perform_map, perform_coverage] at hstep
    obtain ⟨hstore, hnext⟩ := Prod.mk.inj hstep
    exact .reads hstore (Or.inl (by rw [hnext]; rfl))
  · rw [perform_map, perform_query] at hstep
    obtain ⟨hstore, hnext⟩ := Prod.mk.inj hstep
    exact .reads hstore (Or.inl (by rw [hnext]; rfl))
  · obtain ⟨hstore, hnext⟩ := Prod.mk.inj hstep
    exact .reads hstore (Or.inr hnext)

/-- What one step does to the prices. -/
theorem step_prices (env : MarketEnv L) (requests : ι → MarketRequest)
    (c : Config ι MarketTables MarketPoint) (i : ι) (x : Unit) :
    (step (marketProgram env requests) c i x).store.prices = c.store.prices ∨
      ∃ body loaded inserted updated, requests i = .prices body ∧
        c.session i = .prices (.commit loaded) ∧
        commitPrices body loaded c.store.prices =
          some ((step (marketProgram env requests) c i x).store.prices, inserted, updated) := by
  cases marketStep env requests c i x with
  | snapshot body ids point next hrequest hsession hperform hprices hnext => exact Or.inl hprices
  | prices body point next hrequest hsession hperform hstore hnext =>
    cases point with
    | commit loaded =>
      cases hcommit : commitPrices body loaded c.store.prices with
      | none =>
        simp only [uploadAction, Action.perform, hcommit, Option.map_none, Prod.mk.injEq]
          at hperform
        exact Or.inl hperform.1.symm
      | some result =>
        obtain ⟨prices', inserted, updated⟩ := result
        simp only [uploadAction, Action.perform, hcommit, Option.map_some, Prod.mk.injEq]
          at hperform
        refine Or.inr ⟨body, loaded, inserted, updated, hrequest, hsession, ?_⟩
        rw [hcommit, ← hperform.1]
    | select | finished | failed => exact Or.inl (Prod.mk.inj hperform).1.symm
  | reads htables hnext => exact Or.inl (congrArg MarketTables.prices htables)

/-- What one step does to the snapshots. -/
theorem step_snapshots (env : MarketEnv L) (requests : ι → MarketRequest)
    (c : Config ι MarketTables MarketPoint) (i : ι) (x : Unit) :
    (step (marketProgram env requests) c i x).store.store = c.store.store ∨
      ∃ body ids, requests i = .snapshot body ids ∧
        ((∃ existing deleted, c.session i = .snapshot (.replace existing deleted) ∧
          body.replace ids existing deleted c.store.store =
            some (step (marketProgram env requests) c i x).store.store) ∨
        body.create ids c.store.store =
          some (step (marketProgram env requests) c i x).store.store) := by
  cases marketStep env requests c i x with
  | snapshot body ids point next hrequest hsession hperform hprices hnext =>
    cases point with
    | replace existing deleted =>
      cases hwrite : body.replace ids existing deleted c.store.store with
      | none =>
        simp only [upsertAction, Action.perform, hwrite, Prod.mk.injEq] at hperform
        exact Or.inl hperform.1.symm
      | some store' =>
        simp only [upsertAction, Action.perform, hwrite, Prod.mk.injEq] at hperform
        refine Or.inr ⟨body, ids, hrequest, Or.inl ⟨existing, deleted, hsession, ?_⟩⟩
        rw [hwrite, ← hperform.1]
    | create =>
      cases hwrite : body.create ids c.store.store with
      | none =>
        simp only [upsertAction, Action.perform, hwrite, Prod.mk.injEq] at hperform
        exact Or.inl hperform.1.symm
      | some store' =>
        simp only [upsertAction, Action.perform, hwrite, Prod.mk.injEq] at hperform
        refine Or.inr ⟨body, ids, hrequest, Or.inr ?_⟩
        rw [hwrite, ← hperform.1]
    | select | delete | refresh | finished | failed =>
      exact Or.inl (Prod.mk.inj hperform).1.symm
  | prices body point next hrequest hsession hperform hstore hnext => exact Or.inl hstore
  | reads htables hnext => exact Or.inl (congrArg MarketTables.store htables)

end Steps

def marketStarted {ι : Type} (tables : MarketTables) (requests : ι → MarketRequest) :
    Config ι MarketTables MarketPoint where
  store := tables
  session i := (requests i).start

/-- A day of the first January. -/
def januaryDay (format : String) (day : Date) : String :=
  (if format = "%Y%m%d" then "101" else "1-01-") ++ (if day < 10 then "0" else "") ++ toString day

def plainMarket : MarketEnv String where
  collation := Function.Embedding.refl String
  bind := bindText
  strftime := januaryDay
  int := String.toInt?
  repr := id
  arrange := id
  arrange_perm _ := List.Perm.refl _

end StockQuant
