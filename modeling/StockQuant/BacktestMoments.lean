import StockQuant.BacktestUpload
import StockQuant.Lookups
import StockQuant.MarketSessions

/-! A backtest that runs while ingests commit: it sees the snapshots of one moment and the prices
of one moment, unless an upload commits for a day that it has yet to look up. -/

namespace StockQuant

open Lookups Prefetch ReadCommitted

theorem loadClosePrices_eq_foldl (prices : PriceTable) (wanted : WantedPrices) :
    loadClosePrices prices wanted = (closeQueries wanted).foldl (askCloses prices) ∅ := by
  unfold loadClosePrices closeQueries
  rw [List.foldl_flatMap]
  simp only [List.foldl_map]
  rfl

theorem answers_askCloses (prices : PriceTable) (queries : List CloseQuery) :
    Prefetch.Answers (closeOf prices) (queries.foldl (askCloses prices) ∅)
      (fun pair => False ∨ ∃ query ∈ queries, pair.2 = query.1 ∧ pair.1 ∈ query.2) := by
  refine (answers_empty (closeOf prices)).foldl _ queries fun query _ out asked h => ?_
  have hchunk : askCloses prices out query =
      (loadChunkBy (matching prices) query.1 (out, []) query.2).1 := rfl
  rw [hchunk]
  exact answers_loadChunkBy (fetches_matching prices) h query.1 query.2

/-- The order of the statements does not show in what is found. -/
theorem lookup_of_perm {queries queries' : List CloseQuery} (h : queries.Perm queries')
    (prices : PriceTable) (pair : String × Date) :
    (queries.foldl (askCloses prices) ∅).lookup pair =
      (queries'.foldl (askCloses prices) ∅).lookup pair := by
  refine Option.ext fun close => ?_
  rw [answers_askCloses prices queries pair close, answers_askCloses prices queries' pair close]
  simp only [h.mem_iff]

theorem askCloses_congr {prices prices' : PriceTable} {query : CloseQuery}
    (h : dayRows prices' query.1 = dayRows prices query.1) (found : ClosePrices) :
    askCloses prices' found query = askCloses prices found query := by
  have hmatching (prices : PriceTable) : (prices.rows.filter fun row =>
      row.tradeDate = query.1 ∧ row.symbol ∈ query.2) =
        (dayRows prices query.1).filter (·.symbol ∈ query.2) := by
    unfold dayRows
    rw [List.filter_filter]
    refine List.filter_congr fun row _ => ?_
    rw [Bool.decide_and, Bool.and_comm]
  unfold askCloses loadChunk
  rw [hmatching, hmatching, h]

theorem response_congr (reads : BacktestReads) (params : BacktestParams)
    {found found' : ClosePrices} (h : ∀ pair, found.lookup pair = found'.lookup pair) :
    reads.response params found = reads.response params found' := by
  have hloop : settleEntry params.mode reads.exits found reads.horizons =
      settleEntry params.mode reads.exits found' reads.horizons := by
    funext detailN ledger entry
    rw [settleEntry_eq_record, settleEntry_eq_record, prefetchedTrade, prefetchedTrade]
    simp only [h]
  unfold BacktestReads.response
  rw [hloop]

theorem response_of_nothing {reads : BacktestReads} (h : reads.rows = [] ∨ reads.calendar = [])
    (params : BacktestParams) (found found' : ClosePrices) :
    reads.response params found = reads.response params found' := by
  unfold BacktestReads.response
  by_cases hentries : reads.entries = []
  · simp [hentries]
  · have hrows : reads.rows ≠ [] := fun hnil => hentries (by simp [BacktestReads.entries,
      collectEntries, hnil])
    simp [h.resolve_left hrows]

theorem runBacktestOn_eq (params : BacktestParams) (rows : List (Date × ScreenSnapshotItem))
    (prices : PriceTable) :
    runBacktestOn params rows prices = (checkParams params).map fun checked =>
      backtestResponse params checked.1 checked.2 rows prices := by
  unfold runBacktestOn checkParams
  cases detailSortKeys.lookup params.detailSort with
  | none => rfl
  | some key =>
    dsimp only
    split_ifs
    · cases normalizeHorizons params.horizons <;> rfl
    · rfl

theorem filter_of_mapM {α : Type} {f : α → Option α} {p : α → Bool}
    (hf : ∀ a b, f a = some b → p b = p a ∧ (p a = true → b = a)) {l r : List α}
    (h : l.mapM f = some r) : r.filter p = l.filter p := by
  have hall := forall₂_of_mapM h
  clear h
  induction hall with
  | nil => rfl
  | @cons a b l r hab _ ih =>
    obtain ⟨hp, hsame⟩ := hf a b hab
    cases ha : p a with
    | false => rw [List.filter_cons_of_neg (by simp [hp, ha]), List.filter_cons_of_neg (by simp [ha]),
        ih]
    | true => rw [hsame ha, List.filter_cons_of_pos ha, List.filter_cons_of_pos ha, ih]

theorem dayRows_commit {body : DailyPricesIngestBody} {loaded : List DailyPrice}
    {prices prices' : PriceTable} {inserted updated : Nat}
    (hloaded : ∀ row ∈ loaded, row.tradeDate = body.tradeDate)
    (h : commitPrices body loaded prices = some (prices', inserted, updated)) {day : Date}
    (hday : day ≠ body.tradeDate) : dayRows prices' day = dayRows prices day := by
  obtain ⟨rows, added, hrows, hadded, htable, -⟩ := commitPrices_eq_some_iff.mp h
  have hnone : added.filter (·.tradeDate = day) = [] := by
    refine List.filter_eq_nil_iff.mpr fun row hrow => ?_
    obtain ⟨bar, -, hflush⟩ := (mem_of_mapM hadded row).mp hrow
    have hdate : row.tradeDate = body.tradeDate := congrArg Prod.fst (flush_key hflush)
    simpa [hdate] using hday.symm
  unfold dayRows
  rw [htable, List.filter_append, hnone, List.append_nil]
  refine filter_of_mapM (fun row row' hafter => ?_) hrows
  have hdate : row'.tradeDate = row.tradeDate := congrArg Prod.fst (rowAfter_key hafter)
  refine ⟨by rw [hdate], fun hrow => ?_⟩
  have hunread : loaded.find? (·.key = row.key) = none := by
    refine List.find?_eq_none.mpr fun old hold hkey => hday ?_
    have hkey := congrArg Prod.fst (of_decide_eq_true hkey)
    exact (of_decide_eq_true hrow).symm.trans (hkey.symm.trans (hloaded old hold))
  rw [rowAfter, hunread] at hafter
  exact (Option.some.inj hafter).symm

section Steps

variable {L ι : Type} [LinearOrder L] [DecidableEq ι] {env : MarketEnv L}
  {requests : ι → MarketRequest} {c : Config ι MarketTables MarketPoint} {i j : ι}

/-- An upload that is about to commit has read rows of its own day. -/
def LoadedDays (requests : ι → MarketRequest) (c : Config ι MarketTables MarketPoint) : Prop :=
  ∀ i body loaded, requests i = .prices body → c.session i = .prices (.commit loaded) →
    ∀ row ∈ loaded, row.tradeDate = body.tradeDate

omit [DecidableEq ι] in
theorem loadedDays_start (hstart : ∀ i, c.session i = (requests i).start) :
    LoadedDays requests c := by
  intro i body loaded hrequest hsession
  rw [hstart, hrequest] at hsession
  cases hsession

theorem LoadedDays.step (h : LoadedDays requests c) (i : ι) (x : Unit) :
    LoadedDays requests (step (marketProgram env requests) c i x) := by
  intro k body loaded hrequest hsession
  by_cases hk : k = i
  · subst hk
    cases marketStep env requests c k x with
    | snapshot body' ids point next hrequest' hbefore hperform hprices hnext =>
      rw [hnext] at hsession
      cases hsession
    | prices body' point next hrequest' hbefore hperform hstore hnext =>
      obtain rfl := MarketRequest.prices.inj (hrequest.symm.trans hrequest')
      obtain rfl := MarketPoint.prices.inj (hnext.symm.trans hsession)
      cases point with
      | select =>
        cases (Prod.mk.inj hperform).2
        exact fun row hrow => of_decide_eq_true (List.mem_filter.mp hrow).2
      | commit read =>
        simp only [uploadAction, Action.perform] at hperform
        split at hperform <;> cases (Prod.mk.inj hperform).2
      | finished | failed => cases (Prod.mk.inj hperform).2
    | reads htables hnext =>
      rcases hnext with hreading | hsame
      · rw [hsession] at hreading
        cases hreading
      · exact h k body loaded hrequest (hsame.symm.trans hsession)
  · rw [step_session_of_ne c hk] at hsession
    exact h k body loaded hrequest hsession

def MarketPoint.pendingCloses : MarketPoint → List CloseQuery
  | .backtest (.load _ todo _) => todo
  | _ => []

/-- No upload commits for a day of which the backtest has yet to look up closes. -/
def SparesCloses (requests : ι → MarketRequest) (j : ι) (c : Config ι MarketTables MarketPoint)
    (i : ι) (_ : Unit) : Prop :=
  match requests i, c.session i with
  | .prices body, .prices (.commit _) =>
    ∀ query ∈ (c.session j).pendingCloses, query.1 ≠ body.tradeDate
  | _, _ => True

instance (requests : ι → MarketRequest) (j : ι) (c : Config ι MarketTables MarketPoint) (i : ι)
    (x : Unit) : Decidable (SparesCloses requests j c i x) := by
  unfold SparesCloses
  split <;> infer_instance

theorem dayRows_step (hloaded : LoadedDays requests c) {x : Unit}
    (hspares : SparesCloses requests j c i x) {query : CloseQuery}
    (hquery : query ∈ (c.session j).pendingCloses) :
    dayRows (step (marketProgram env requests) c i x).store.prices query.1 =
      dayRows c.store.prices query.1 := by
  rcases step_prices env requests c i x with
    hsame | ⟨body, loaded, inserted, updated, hrequest, hsession, hcommit⟩
  · rw [hsame]
  · unfold SparesCloses at hspares
    rw [hrequest, hsession] at hspares
    exact dayRows_commit (hloaded i body loaded hrequest hsession) hcommit (hspares query hquery)

end Steps

section Moments

variable {L ι : Type} [LinearOrder L] [DecidableEq ι]

/-- What the request answers on the snapshots that its first statement finds and the prices that
its second one finds. -/
def OfTwoMoments (env : MarketEnv L) (requests : ι → MarketRequest)
    (start : Config ι MarketTables MarketPoint) (j : ι) (params : BacktestParams)
    (schedule : List (ι × Unit)) (result : Except String BacktestResponse) : Prop :=
  ∃ first, FindsAt (marketProgram env requests) start schedule j 0 first ∧
    ∃ n ≤ 1, ∃ second, FindsAt (marketProgram env requests) start schedule j n second ∧
      result = runBacktestOn params (listSnapshotEntries first.store params.start params.stop
        (modeSession params.mode)) second.prices

/-- What a backtest knows on its way. -/
def Knows (env : MarketEnv L) (requests : ι → MarketRequest)
    (start : Config ι MarketTables MarketPoint) (j : ι) (params : BacktestParams)
    (schedule : List (ι × Unit)) (now : PriceTable) : BacktestPoint → Prop
  | .entries => stepCount j schedule = 0
  | .calendar key horizons rows => stepCount j schedule = 1 ∧
    checkParams params = .ok (key, horizons) ∧
    ∃ first, FindsAt (marketProgram env requests) start schedule j 0 first ∧
      rows = listSnapshotEntries first.store params.start params.stop (modeSession params.mode)
  | .load reads todo found => checkParams params = .ok (reads.key, reads.horizons) ∧
    ∃ first, FindsAt (marketProgram env requests) start schedule j 0 first ∧
      reads.rows =
        listSnapshotEntries first.store params.start params.stop (modeSession params.mode) ∧
    ∃ second, FindsAt (marketProgram env requests) start schedule j 1 second ∧
      reads.calendar = listPriceTradingDays second.prices ∧
      AsOf askCloses second.prices (env.arrange (closeQueries (reads.wanted params.mode))) ∅ now
        todo found
  | .finished result => OfTwoMoments env requests start j params schedule result

variable {env : MarketEnv L} {requests : ι → MarketRequest}
  {start : Config ι MarketTables MarketPoint} {j : ι} {params : BacktestParams}
  {schedule : List (ι × Unit)}

theorem OfTwoMoments.later {result : Except String BacktestResponse}
    (h : OfTwoMoments env requests start j params schedule result) (event : ι × Unit) :
    OfTwoMoments env requests start j params (schedule ++ [event]) result := by
  obtain ⟨first, hfirst, n, hn, second, hsecond, hresult⟩ := h
  exact ⟨first, hfirst.later event, n, hn, second, hsecond.later event, hresult⟩

/-- The steps of the other requests. -/
theorem Knows.other {now now' : PriceTable} {point : BacktestPoint}
    (h : Knows env requests start j params schedule now point)
    (hspared : ∀ query ∈ (MarketPoint.backtest point).pendingCloses,
      dayRows now' query.1 = dayRows now query.1) {i : ι} (hi : i ≠ j) (x : Unit) :
    Knows env requests start j params (schedule ++ [(i, x)]) now' point := by
  have hcount := stepCount_snoc_of_ne hi schedule x
  cases point with
  | entries => exact hcount.trans h
  | calendar key horizons rows =>
    obtain ⟨hone, hchecked, first, hfirst, hrows⟩ := h
    exact ⟨hcount.trans hone, hchecked, first, hfirst.later _, hrows⟩
  | load reads todo found =>
    obtain ⟨hchecked, first, hfirst, hrows, second, hsecond, hcalendar, hasOf⟩ := h
    refine ⟨hchecked, first, hfirst.later _, hrows, second, hsecond.later _, hcalendar, ?_⟩
    exact hasOf.change fun query hquery => askCloses_congr (hspared query hquery)
  | finished result => exact OfTwoMoments.later h (i, x)

theorem response_of_reads (env : MarketEnv L) {key : DetailSort} {horizons : List Int}
    {rows : List (Date × ScreenSnapshotItem)} {prices : PriceTable} {found : ClosePrices}
    (hchecked : checkParams params = .ok (key, horizons))
    (hfound : rows = [] ∨ listPriceTradingDays prices = [] ∨
      found = (env.arrange (closeQueries (BacktestReads.wanted
        { key, horizons, rows, calendar := listPriceTradingDays prices } params.mode))).foldl
          (askCloses prices) ∅) :
    Except.ok (BacktestReads.response
      { key, horizons, rows, calendar := listPriceTradingDays prices } params found) =
      runBacktestOn params rows prices := by
  rw [runBacktestOn_eq, hchecked]
  refine congrArg Except.ok (Eq.trans ?_ (show BacktestReads.response
    { key, horizons, rows, calendar := listPriceTradingDays prices } params
      (loadClosePrices prices (BacktestReads.wanted
        { key, horizons, rows, calendar := listPriceTradingDays prices } params.mode)) =
    backtestResponse params key horizons rows prices from rfl))
  rcases hfound with hrows | hcalendar | rfl
  · exact response_of_nothing (Or.inl hrows) params _ _
  · exact response_of_nothing (Or.inr hcalendar) params _ _
  · refine response_congr _ params fun pair => ?_
    rw [loadClosePrices_eq_foldl]
    exact lookup_of_perm (env.arrange_perm _) prices pair

/-- A step of the backtest itself. -/
theorem Knows.own {point : BacktestPoint} {tables : MarketTables}
    (htables : (run (marketProgram env requests) start schedule).store = tables)
    (h : Knows env requests start j params schedule tables.prices point) (x : Unit) :
    Knows env requests start j params (schedule ++ [(j, x)]) tables.prices
      ((backtestAction env params point).perform tables).2 := by
  subst htables
  have hlast := findsAt_last (marketProgram env requests) start schedule j x
  cases point with
  | entries =>
    have hcount : stepCount j schedule = 0 := h
    rw [hcount] at hlast
    unfold backtestAction
    cases hchecked : checkParams params with
    | error message =>
      refine ⟨_, hlast, 0, zero_le_one, _, hlast, ?_⟩
      rw [runBacktestOn_eq, hchecked]
      rfl
    | ok checked =>
      obtain ⟨key, horizons⟩ := checked
      exact ⟨by rw [stepCount_snoc_self, hcount], hchecked, _, hlast, rfl⟩
  | calendar key horizons rows =>
    obtain ⟨hcount, hchecked, first, hfirst, hrows⟩ := h
    rw [hcount] at hlast
    unfold backtestAction
    dsimp only [perform_read]
    split_ifs with hnothing
    · refine ⟨first, hfirst.later _, 1, le_rfl, _, hlast, ?_⟩
      rw [← hrows]
      exact response_of_reads env hchecked (or_assoc.mp (Or.inl hnothing))
    · exact ⟨hchecked, first, hfirst.later _, hrows, _, hlast, rfl, AsOf.refl _ _ _ _⟩
  | load reads todo found =>
    obtain ⟨hchecked, first, hfirst, hrows, second, hsecond, hcalendar, hasOf⟩ := h
    cases todo with
    | nil =>
      refine ⟨first, hfirst.later _, 1, le_rfl, second, hsecond.later _, ?_⟩
      obtain ⟨key, horizons, rows, calendar⟩ := reads
      dsimp only at hrows hcalendar hchecked
      subst hcalendar
      rw [← hrows]
      exact response_of_reads env hchecked (Or.inr (Or.inr hasOf.finish))
    | cons query todo =>
      exact ⟨hchecked, first, hfirst.later _, hrows, second, hsecond.later _, hcalendar, hasOf.next⟩
  | finished result => exact OfTwoMoments.later h (j, x)

/-- With any number of ingests and other requests under way, a backtest answers as if it had the
snapshots of one moment and the prices of one moment to itself, if no upload commits for a day
that it has yet to look up. -/
theorem backtest_ofTwoMoments (hrequest : requests j = .backtest params)
    (hstart : ∀ i, start.session i = (requests i).start)
    (hschedule : Follows (marketProgram env requests) (SparesCloses requests j) start schedule)
    {result : Except String BacktestResponse}
    (hresult : (run (marketProgram env requests) start schedule).session j =
      .backtest (.finished result)) :
    OfTwoMoments env requests start j params schedule result := by
  have hloaded (schedule : List (ι × Unit)) :
      LoadedDays requests (run (marketProgram env requests) start schedule) :=
    run_invariant (LoadedDays requests) (fun _ i x h => h.step i x) schedule
      (loadedDays_start hstart)
  suffices hknows : ∃ point, (run (marketProgram env requests) start schedule).session j =
      .backtest point ∧ Knows env requests start j params schedule
        (run (marketProgram env requests) start schedule).store.prices point by
    obtain ⟨point, hpoint, hknows⟩ := hknows
    rw [hresult] at hpoint
    cases hpoint
    exact hknows
  refine session_invariant (fun schedule tables place => ∃ point, place = .backtest point ∧
    Knows env requests start j params schedule tables.prices point) ?_ ?_ ?_ hschedule
  · exact ⟨.entries, by rw [hstart, hrequest, MarketRequest.start], rfl⟩
  · rintro schedule x now ⟨point, hpoint, hknows⟩
    rw [marketProgram, hrequest, hpoint, marketAction, perform_map, perform_backtest]
    exact ⟨_, rfl, hknows.own rfl x⟩
  · rintro schedule i x now hi hspares ⟨point, hpoint, hknows⟩
    refine ⟨point, hpoint, hknows.other (fun query hquery => ?_) hi x⟩
    exact dayRows_step (hloaded schedule) hspares (by rw [hpoint]; exact hquery)

end Moments

/-- An upload for a later day that commits between two statements of a backtest. -/
def backtestAndUpload : Bool → MarketRequest
  | true => .backtest nextDay
  | false => .prices (upload 13 120)

def uploadBetween : List (Bool × Unit) :=
  [(true, ()), (false, ()), (true, ()), (false, ()), (true, ()), (true, ())]

theorem backtest_ofTwoMoments_upload :
    OfTwoMoments plainMarket backtestAndUpload
      (marketStarted { store := oneItemStore "2330", prices := twoPrices "2330" }
        backtestAndUpload) true nextDay uploadBetween
      (runBacktestOn nextDay (listSnapshotEntries (oneItemStore "2330") 10 10 sessionIntraday1300)
        (twoPrices "2330")) :=
  backtest_ofTwoMoments (show backtestAndUpload true = .backtest nextDay from rfl)
    (fun _ => rfl) (by decide +kernel) (by decide +kernel)

end StockQuant
