import StockQuant.BacktestMoments
import StockQuant.DetailTies
import StockQuant.MarketRuns

/-! What the ingests of later days do to a backtest that was run before them: every trade that
had settled stays as it was. -/

namespace StockQuant

open KeyedTable Statistics

/-- No row was lost or changed, and what came since is of a day after all of them. -/
structure LaterPrices (prices prices' : PriceTable) : Prop where
  kept : prices.rows ⊆ prices'.rows
  later : ∀ row ∈ prices'.rows,
    row ∈ prices.rows ∨ ∀ old ∈ prices.rows, old.tradeDate < row.tradeDate

theorem LaterPrices.refl (prices : PriceTable) : LaterPrices prices prices :=
  ⟨fun _ h => h, fun _ h => Or.inl h⟩

theorem LaterPrices.upload {prices prices' : PriceTable} (h : LaterPrices prices prices')
    (hstored : PricesStored prices') {body : DailyPricesIngestBody}
    (hday : ∀ row ∈ prices.rows, row.tradeDate < body.tradeDate) :
    LaterPrices prices (uploadPrices prices' body) := by
  constructor
  · intro row hrow
    rw [uploadPrices_eq]
    cases hupsert : upsertDailyPrices prices' body with
    | none => exact h.kept hrow
    | some uploaded =>
      have hkept := (uploaded_of_upsert hstored hupsert).kept row.key fun hsame =>
        absurd hsame (hday row hrow).ne
      rw [Table.get?_of_mem (h.kept hrow)] at hkept
      exact (Table.get?_eq_some_iff.mp hkept).1
  · intro row hrow
    rcases brings_of_upload hstored hrow with hold | hbrings
    · exact h.later row hold
    · obtain ⟨_, _, _, _, _, hsame, _⟩ := hbrings
      exact Or.inr fun old hold => hsame ▸ hday old hold

theorem LaterPrices.rowTrade {prices prices' : PriceTable} (h : LaterPrices prices prices')
    {mode : Mode} {row : Date × ScreenSnapshotItem} {n : Int} {t : Trade}
    (ht : rowTrade mode prices row n = some t) : rowTrade mode prices' row n = some t := by
  have hcal := listPriceTradingDays_pairwise prices
  have hcal' := listPriceTradingDays_pairwise prices'
  obtain ⟨hentry, hpos, hexit, hquote⟩ := tradeFrom_eq_some_iff.mp ht
  refine tradeFrom_eq_some_iff.mpr ⟨entryPriceFrom_extend h.kept hentry, hpos, ?_,
    quoteOf_extend h.kept hquote⟩
  have hnth := (nthTradingDay_eq_some_iff hcal).mp hexit
  refine (nthTradingDay_eq_some_iff hcal').mpr ((hnth.extend_iff hcal hcal'
    (listPriceTradingDays_extend h.kept)).mpr fun day hday _ hbefore => ?_)
  obtain ⟨new, hnew, rfl⟩ := mem_listPriceTradingDays.mp hday
  rcases h.later new hnew with hold | hafter
  · exact mem_listPriceTradingDays.mpr ⟨new, hold, rfl⟩
  · -- the exit day is the day of a stored row, and a new row is later than all of these
    obtain ⟨_, old, hold, hexitDay, _⟩ := quoteOf_eq_some_iff.mp hquote
    exact absurd (hafter old hold) (hexitDay ▸ hbefore.asymm)

/-- The tables hold the same snapshots of a session in a range of days. -/
def SameScreenings (start stop : Date) (session : String) (store store' : SnapshotStore) : Prop :=
  ∀ key : Date × String, start ≤ key.1 → key.1 ≤ stop → key.2 = session →
    findSnapshot store' key = findSnapshot store key ∧
      ∀ s, findSnapshot store key = some s → itemsOf store' s.id = itemsOf store s.id

section Screenings

variable {start stop : Date} {session : String} {store store' : SnapshotStore}

theorem SameScreenings.refl (store : SnapshotStore) : SameScreenings start stop session store store :=
  fun _ _ _ _ => ⟨rfl, fun _ _ => rfl⟩

theorem SameScreenings.ingest (h : SameScreenings start stop session store store') {r : Ingest}
    (hother : ¬ (start ≤ r.body.tradeDate ∧ r.body.tradeDate ≤ stop ∧ r.body.session = session)) :
    SameScreenings start stop session store (ingestSnapshot r store').1 := by
  have hstep := ingestSnapshot_step r store'
  by_cases hresult : (ingestSnapshot r store').2 = none
  · rw [hstep.failed hresult]
    exact h
  · intro key hstart hstop hsession
    have hne : key ≠ r.body.key := by
      rintro rfl
      exact hother ⟨hstart, hstop, hsession⟩
    obtain ⟨hfind, hitems⟩ := h key hstart hstop hsession
    obtain ⟨hfind', hitems'⟩ := (hstep.succeeded hresult).others key hne
    exact ⟨hfind'.trans hfind, fun s hs => (hitems' s (hfind.trans hs)).trans (hitems s hs)⟩

theorem inRange_iff {s : ScreenSnapshot} : inRange start stop session s = true ↔
    start ≤ s.key.1 ∧ s.key.1 ≤ stop ∧ s.key.2 = session := by
  simp [inRange, ScreenSnapshot.key, and_assoc]

theorem SameScreenings.snapshots_perm (h : SameScreenings start stop session store store') :
    (store'.snapshots.filter (inRange start stop session)).Perm
      (store.snapshots.filter (inRange start stop session)) := by
  have hnodup (store : SnapshotStore) : store.snapshots.Nodup := store.ids_nodup.of_map _
  refine (List.perm_ext_iff_of_nodup ((hnodup store').filter _) ((hnodup store).filter _)).mpr
    fun s => ?_
  simp only [List.mem_filter, inRange_iff]
  refine and_congr_left fun ⟨hstart, hstop, hsession⟩ => ?_
  have hmem (store : SnapshotStore) : s ∈ store.snapshots ↔ findSnapshot store s.key = some s := by
    simp [findSnapshot_eq_some_iff]
  rw [hmem store', hmem store, (h s.key hstart hstop hsession).1]

theorem SameScreenings.rows_perm (h : SameScreenings start stop session store store') :
    (snapshotEntryRows store' start stop session).Perm
      (snapshotEntryRows store start stop session) := by
  refine (h.snapshots_perm.flatMap_right _).trans (List.Perm.of_eq (List.flatMap_congr fun s hs => ?_))
  obtain ⟨hs, hin⟩ := List.mem_filter.mp hs
  obtain ⟨hstart, hstop, hsession⟩ := inRange_iff.mp hin
  exact congrArg (List.map _) ((h s.key hstart hstop hsession).2 s
    (findSnapshot_eq_some_iff.mpr ⟨hs, rfl⟩))

end Screenings

/-- What the stat reported stands, and more outcomes may have settled since. -/
structure Stands (before after : BacktestHorizonStat) : Prop where
  n : after.n = before.n
  total : after.samples + after.missing = before.samples + before.missing
  samples : before.samples ≤ after.samples
  wins : before.wins ≤ after.wins
  losses : before.losses ≤ after.losses
  flat : before.flat ≤ after.flat
  best : ∀ best, before.bestReturnPct = some best →
    ∃ best', after.bestReturnPct = some best' ∧ best ≤ best'
  worst : ∀ worst, before.worstReturnPct = some worst →
    ∃ worst', after.worstReturnPct = some worst' ∧ worst' ≤ worst

theorem referenceStat_stands {α : Type} {f g : α → Option Trade}
    (h : ∀ x t, f x = some t → g x = some t) (n : Int) (l : List α) :
    Stands (referenceStat n (l.map f)) (referenceStat n (l.map g)) := by
  have hcount (p : Option Trade → Bool) (hp : p none = false) :
      (l.map f).countP p ≤ (l.map g).countP p := by
    rw [List.countP_map, List.countP_map]
    refine List.countP_mono_left fun x _ hx => ?_
    dsimp only [Function.comp_apply] at hx ⊢
    cases hfx : f x with
    | none => simp [hfx, hp] at hx
    | some t => rwa [h x t hfx, ← hfx]
  have hreturns : (l.map f).filterMap (fun outcome => outcome.map Trade.pct) ⊆
      (l.map g).filterMap fun outcome => outcome.map Trade.pct := by
    intro pct hpct
    simp only [List.mem_filterMap, List.mem_map, exists_exists_and_eq_and,
      Option.map_eq_some_iff] at hpct ⊢
    obtain ⟨x, hx, t, ht, rfl⟩ := hpct
    exact ⟨x, hx, t, h x t ht, rfl⟩
  have hsettled {outcomes : List (Option Trade)} (hne : outcomes.countP (·.isSome) ≠ 0) :
      (outcomes.filterMap fun outcome => outcome.map Trade.pct) ≠ [] := by
    rw [← List.length_pos_iff, List.length_filterMap_eq_countP]
    simpa [Nat.pos_iff_ne_zero] using hne
  have htotal (outcomes : List (Option Trade)) := (referenceStat_counts n outcomes).1
  have hsamples := hcount (·.isSome) rfl
  refine ⟨rfl, (htotal _).trans (Eq.trans (by simp) (htotal _).symm), hsamples, hcount _ rfl,
    hcount _ rfl, hcount _ rfl, fun best hbest => ?_, fun worst hworst => ?_⟩
  · simp only [referenceStat] at hbest ⊢
    split_ifs at hbest with hnone
    obtain rfl := Option.some.inj hbest
    rw [if_neg (by omega)]
    exact ⟨_, rfl, roundTo_mono 4 (le_best (hreturns (best_mem (hsettled hnone))))⟩
  · simp only [referenceStat] at hworst ⊢
    split_ifs at hworst with hnone
    obtain rfl := Option.some.inj hworst
    rw [if_neg (by omega)]
    exact ⟨_, rfl, roundTo_mono 4 (worst_le (hreturns (worst_mem (hsettled hnone))))⟩

/-- A row that was on the page is on it again, unless the page is cut and full of rows that do not
rank behind it. -/
structure HistoryKept (before after : BacktestResponse) : Prop where
  asked : after.horizons = before.horizons ∧ after.detailN = before.detailN
  entries : after.entries = before.entries
  tradingDays : after.tradingDays = before.tradingDays
  summary : List.Forall₂ Stands before.summary after.summary
  detailTotal : before.detailTotal ≤ after.detailTotal
  detail : after.detail.length = after.detailTotal → before.detail.Subperm after.detail
  displaced : ∀ key, detailSortKeys.lookup after.detailSort = some key →
    ∀ row ∈ before.detail, row ∉ after.detail → ∀ shown ∈ after.detail,
      ¬ RanksBefore key (after.detailOrder = "desc") row shown

theorem runBacktestOn_ok {params : BacktestParams} {rows : List (Date × ScreenSnapshotItem)}
    {prices : PriceTable} {response : BacktestResponse}
    (h : runBacktestOn params rows prices = .ok response) :
    ∃ key horizons, detailSortKeys.lookup params.detailSort = some key ∧
      horizons.Nodup ∧ horizons ≠ [] ∧
      response = backtestResponse params key horizons rows prices ∧
      ∀ rows prices, runBacktestOn params rows prices =
        .ok (backtestResponse params key horizons rows prices) := by
  cases hsort : detailSortKeys.lookup params.detailSort with
  | none => simp [runBacktestOn, hsort] at h
  | some key =>
    by_cases horder : params.detailOrder ∈ ["asc", "desc"]
    · cases hhorizons : normalizeHorizons params.horizons with
      | error message => simp [runBacktestOn, hsort, horder, hhorizons] at h
      | ok horizons =>
        have hall := runBacktestOn_accepted hsort horder hhorizons
        rw [hall] at h
        exact ⟨key, horizons, rfl, normalizeHorizons_nodup hhorizons,
          normalizeHorizons_ne_nil hhorizons, (Except.ok.inj h).symm, hall⟩
    · simp [runBacktestOn, hsort, horder] at h

theorem filterMap_sublist {α β : Type} {f g : α → Option β} (h : ∀ x y, f x = some y → g x = some y)
    (l : List α) : (l.filterMap f).Sublist (l.filterMap g) := by
  induction l with
  | nil => exact List.Sublist.refl _
  | cons x l ih =>
    cases hfx : f x with
    | some y =>
      rw [List.filterMap_cons_some hfx, List.filterMap_cons_some (h x y hfx)]
      exact ih.cons_cons _
    | none =>
      rw [List.filterMap_cons_none hfx, List.filterMap_cons]
      split
      · exact ih
      · exact ih.cons _

theorem LaterPrices.settledRows {prices prices' : PriceTable} (h : LaterPrices prices prices')
    (mode : Mode) (n : Int) (rows : List (Date × ScreenSnapshotItem)) :
    (settledRows mode prices n rows).Sublist (settledRows mode prices' n rows) := by
  refine filterMap_sublist (fun row settled hsettled => ?_) rows
  obtain ⟨t, ht, rfl⟩ := Option.map_eq_some_iff.mp hsettled
  exact Option.map_eq_some_iff.mpr ⟨t, h.rowTrade ht, rfl⟩

theorem cutDetail_sublist (limit : Int) (detail : List BacktestDetailRow) :
    (cutDetail limit detail).Sublist detail := by
  unfold cutDetail
  split_ifs
  · exact List.take_sublist _ _
  · exact List.Sublist.refl _

/-- Of rows in order, those behind the cut are not before those that are shown. -/
theorem cutDetail_before {r : BacktestDetailRow → BacktestDetailRow → Prop} {limit : Int}
    {detail : List BacktestDetailRow} (hordered : detail.Pairwise r)
    {row shown : BacktestDetailRow} (hrow : row ∈ detail) (hcut : row ∉ cutDetail limit detail)
    (hshown : shown ∈ cutDetail limit detail) : r shown row := by
  unfold cutDetail at hcut hshown
  split_ifs at hcut hshown
  · rw [← List.take_append_drop limit.toNat detail] at hordered hrow
    have hdropped := (List.mem_append.mp hrow).resolve_left hcut
    exact (List.pairwise_append.mp hordered).2.2 shown hshown row hdropped
  · exact absurd hrow hcut

theorem backtestResponse_historyKept {params : BacktestParams} {key : DetailSort}
    {horizons : List Int} (hkey : detailSortKeys.lookup params.detailSort = some key)
    (hnd : horizons.Nodup) (hne : horizons ≠ [])
    {prices prices' : PriceTable} (h : LaterPrices prices prices')
    {rows rows' : List (Date × ScreenSnapshotItem)} (hperm : rows'.Perm rows) :
    HistoryKept (backtestResponse params key horizons rows prices)
      (backtestResponse params key horizons rows' prices') := by
  let n := pickDetailN horizons params.detailN
  have hsettled := h.settledRows params.mode n rows
  have htotal := backtestResponse_detailTotal params key rows prices hnd hne
  have htotal' := (congrArg BacktestResponse.detailTotal
    (backtestResponse_perm params key prices' hnd hne hperm)).trans
    (backtestResponse_detailTotal params key rows prices' hnd hne)
  have hfields : backtestResponse params key horizons rows prices = _ :=
    backtestResponse_fields params key prices rows
  have hfields' : backtestResponse params key horizons rows' prices' = _ :=
    backtestResponse_fields params key prices' rows'
  have hdetail := backtestResponse_detail params key rows prices hnd hne
  have hdetail' := backtestResponse_detail params key rows' prices' hnd hne
  have hall : (settledRows params.mode prices' n rows').Perm
      (settledRows params.mode prices' n rows) := hperm.filterMap _
  have hagain : (backtestResponse params key horizons rows prices).detail.Subperm
      (sortDetail key (params.detailOrder = "desc") (settledRows params.mode prices' n rows')) := by
    rw [hdetail]
    refine (cutDetail_sublist _ _).subperm.trans ((sortDetail_perm _ _ _).subperm.trans ?_)
    exact hsettled.subperm.trans (hall.symm.subperm.trans (sortDetail_perm _ _ _).symm.subperm)
  refine ⟨⟨?_, ?_⟩, ?_, ?_, ?_, ?_, fun huncut => ?_, fun key' hkey' row hrow hgone => ?_⟩
  · rw [hfields, hfields']
  · rw [hfields, hfields']
  · rw [hfields, hfields']
    exact hperm.length_eq
  · rw [hfields, hfields']
    exact (hperm.map Prod.fst).dedup.length_eq
  · rw [backtestResponse_summary params key hnd, backtestResponse_summary params key hnd,
      List.forall₂_map_left_iff, List.forall₂_map_right_iff, List.forall₂_same]
    intro n _
    rw [referenceStat_perm (hperm.map _)]
    exact referenceStat_stands (fun _ _ => h.rowTrade) n rows
  · rw [htotal, htotal']
    exact hsettled.length_le
  · have hwhole := (cutDetail_sublist params.detailLimit (sortDetail key
      (params.detailOrder = "desc") (settledRows params.mode prices' n rows'))).eq_of_length (by
        rw [← hdetail', huncut, htotal', (sortDetail_perm _ _ _).length_eq, hall.length_eq])
    rw [hdetail', hwhole]
    exact hagain
  · have hsort : (backtestResponse params key horizons rows' prices').detailSort =
        params.detailSort := by rw [hfields']
    have horder : (backtestResponse params key horizons rows' prices').detailOrder =
        params.detailOrder := by rw [hfields']
    rw [hsort, hkey] at hkey'
    obtain rfl := Option.some.inj hkey'
    rw [horder]
    rw [hdetail'] at hgone ⊢
    exact fun shown => cutDetail_before (sortDetail_pairwise _ _ _) (hagain.subset hrow) hgone

theorem runMarket_laterPrices {past future : List MarketIngest}
    (hlater : ∀ body, MarketIngest.prices body ∈ future →
      ∀ row ∈ (runMarket past).prices.rows, row.tradeDate < body.tradeDate) :
    LaterPrices (runMarket past).prices (runMarket (past ++ future)).prices := by
  induction future using List.reverseRecOn with
  | nil =>
    rw [List.append_nil]
    exact LaterPrices.refl _
  | append_singleton future r ih =>
    have hkept := ih fun body hbody => hlater body (List.mem_append_left _ hbody)
    rw [← List.append_assoc, runMarket_snoc]
    cases r with
    | snapshot r => exact hkept
    | prices body =>
      exact hkept.upload (runMarket_sourced _).stored
        (hlater body (List.mem_append_right _ (List.mem_singleton_self _)))

theorem runMarket_sameScreenings {start stop : Date} {session : String}
    {past future : List MarketIngest}
    (hother : ∀ r, MarketIngest.snapshot r ∈ future →
      ¬ (start ≤ r.body.tradeDate ∧ r.body.tradeDate ≤ stop ∧ r.body.session = session)) :
    SameScreenings start stop session (runMarket past).store (runMarket (past ++ future)).store := by
  induction future using List.reverseRecOn with
  | nil =>
    rw [List.append_nil]
    exact SameScreenings.refl _
  | append_singleton future r ih =>
    have hsame := ih fun r hr => hother r (List.mem_append_left _ hr)
    rw [← List.append_assoc, runMarket_snoc]
    cases r with
    | snapshot r =>
      exact hsame.ingest (hother r (List.mem_append_right _ (List.mem_singleton_self _)))
    | prices body => exact hsame

/-- Once a backtest has answered, prices of days after all those stored and screenings of other
days or of the other session leave what it reported: trades that had settled stay as they were,
and those that were missing may settle. -/
theorem runMarket_historyKept {past future : List MarketIngest} {params : BacktestParams}
    {rows rows' : List (Date × ScreenSnapshotItem)} {before : BacktestResponse}
    (hlater : ∀ body, MarketIngest.prices body ∈ future →
      ∀ row ∈ (runMarket past).prices.rows, row.tradeDate < body.tradeDate)
    (hother : ∀ r, MarketIngest.snapshot r ∈ future →
      ¬ (params.start ≤ r.body.tradeDate ∧ r.body.tradeDate ≤ params.stop ∧
        r.body.session = modeSession params.mode))
    (hrows : IsSnapshotEntries (runMarket past).store params.start params.stop
      (modeSession params.mode) rows)
    (hrows' : IsSnapshotEntries (runMarket (past ++ future)).store params.start params.stop
      (modeSession params.mode) rows')
    (hbefore : runBacktestOn params rows (runMarket past).prices = .ok before) :
    ∃ after, runBacktestOn params rows' (runMarket (past ++ future)).prices = .ok after ∧
      HistoryKept before after := by
  obtain ⟨key, horizons, hkey, hnd, hne, rfl, hall⟩ := runBacktestOn_ok hbefore
  refine ⟨_, hall rows' _, backtestResponse_historyKept hkey hnd hne (runMarket_laterPrices hlater) ?_⟩
  exact (hrows'.perm.trans (runMarket_sameScreenings hother).rows_perm).trans hrows.perm.symm

def dayScreening (day : Date) : MarketIngest := .snapshot
  { body :=
      { tradeDate := day, session := sessionIntraday1300, generatedAt := 0
        items := [{ rank := 1, symbol := "2330", close := some 100 }] }
    ids := { snapshotId := day, itemId := fun k => day + k } }

def screenedDay : List MarketIngest :=
  [dayScreening 10, .prices (upload 10 100), .prices (upload 12 110)]

def laterDays : List MarketIngest := [.prices (upload 13 90), dayScreening 13]

def twoDays : BacktestParams := { nextDay with horizons := [1, 2] }

/-- The latest of the trades, of two screenings of which the second has yet to settle. -/
def latestTrade : BacktestParams := { twoDays with stop := 12, detailLimit := 1 }

def screenedDays : List MarketIngest := screenedDay ++ [dayScreening 12]

theorem runMarket_historyKept_laterDays :
    ∃ before, runBacktest (runMarket screenedDays).store (runMarket screenedDays).prices latestTrade =
        .ok before ∧ before.detail.map (·.tradeDate) = [10] ∧
      ∃ after, runBacktest (runMarket (screenedDays ++ laterDays)).store
          (runMarket (screenedDays ++ laterDays)).prices latestTrade = .ok after ∧
        after.detail.map (·.tradeDate) = [12] ∧ HistoryKept before after := by
  have hbefore := runBacktestOn_accepted
    (show detailSortKeys.lookup latestTrade.detailSort = some DetailSort.tradeDate by decide)
    (by decide) (show normalizeHorizons [1, 2] = .ok [1, 2] by decide)
    (listSnapshotEntries (runMarket screenedDays).store 10 12 sessionIntraday1300)
    (runMarket screenedDays).prices
  obtain ⟨after, hafter, hkept⟩ := @runMarket_historyKept screenedDays laterDays latestTrade _ _ _
    (by simp only [laterDays, dayScreening, List.mem_cons, List.not_mem_nil, or_false, reduceCtorEq,
          MarketIngest.prices.injEq, forall_eq]; decide +kernel)
    (by simp only [laterDays, dayScreening, List.mem_cons, List.not_mem_nil, or_false, reduceCtorEq,
          false_or, MarketIngest.snapshot.injEq, forall_eq]; decide +kernel)
    (listSnapshotEntries_isSnapshotEntries _ _ _ _)
    (listSnapshotEntries_isSnapshotEntries _ _ _ _) hbefore
  have hpage : (runBacktest (runMarket (screenedDays ++ laterDays)).store
      (runMarket (screenedDays ++ laterDays)).prices latestTrade).toOption.map
        (·.detail.map (·.tradeDate)) = some [12] := by decide +kernel
  rw [show runBacktest _ _ _ = _ from hafter] at hpage
  exact ⟨_, hbefore, by decide +kernel, after, hafter, Option.some.inj hpage, hkept⟩

end StockQuant
