import StockQuant.BacktestUpload
import StockQuant.CoverageWarning
import StockQuant.SnapshotRuns

/-! Two results that the database may return for one query, and what the backtest makes of
each. -/

namespace StockQuant

open StableSort

section Response

variable (params : BacktestParams) (key : DetailSort) {horizons : List Int}
  {rows rows' : List (Date × ScreenSnapshotItem)} (prices : PriceTable)

theorem backtestResponse_fields (rows : List (Date × ScreenSnapshotItem)) :
    let response := backtestResponse params key horizons rows prices
    response =
      { mode := params.mode
        session := modeSession params.mode
        start := params.start
        stop := params.stop
        horizons
        entries := rows.length
        tradingDays := (rows.map Prod.fst).dedup.length
        summary := response.summary
        detailN := pickDetailN horizons params.detailN
        detailTotal := response.detailTotal
        detailSort := params.detailSort
        detailOrder := params.detailOrder
        detail := response.detail
        warning := response.warning } := by
  have hlength : (collectEntries rows).length = rows.length := List.length_map _
  have hdays : (collectEntries rows).map (·.tradeDate) = rows.map Prod.fst := List.map_map
  unfold backtestResponse
  rw [← hlength, ← hdays]
  dsimp only
  split_ifs <;> rfl

/-- The order of the rows is the order of equal rows in the detail, and nothing else. -/
theorem backtestResponse_perm (hnd : horizons.Nodup) (hne : horizons ≠ [])
    (hperm : rows.Perm rows') :
    backtestResponse params key horizons rows prices =
      { backtestResponse params key horizons rows' prices with
        detail := (backtestResponse params key horizons rows prices).detail } := by
  have hdays : (rows.map Prod.fst).dedup.length = (rows'.map Prod.fst).dedup.length :=
    (hperm.map Prod.fst).dedup.length_eq
  have hsummary : (backtestResponse params key horizons rows prices).summary =
      (backtestResponse params key horizons rows' prices).summary := by
    rw [backtestResponse_summary params key hnd rows, backtestResponse_summary params key hnd rows']
    exact List.map_congr_left fun n _ => referenceStat_perm (hperm.map _)
  have htotal : (backtestResponse params key horizons rows prices).detailTotal =
      (backtestResponse params key horizons rows' prices).detailTotal := by
    rw [backtestResponse_detailTotal params key rows prices hnd hne,
      backtestResponse_detailTotal params key rows' prices hnd hne]
    exact (hperm.filterMap _).length_eq
  have hwarning : (backtestResponse params key horizons rows prices).warning =
      (backtestResponse params key horizons rows' prices).warning := by
    have hempty : rows = [] ↔ rows' = [] := by
      rw [← List.length_eq_zero_iff, hperm.length_eq, List.length_eq_zero_iff]
    rw [backtestResponse_warning params key hnd, backtestResponse_warning params key hnd]
    simp only [hempty]
    congr 2
    exact coverageWarning_congr ((hperm.map toEntry).map _) fun n _ => hperm.countP_eq _
  rw [backtestResponse_fields params key prices rows, hperm.length_eq, hdays, hsummary, htotal,
    hwarning]
  conv_rhs => rw [backtestResponse_fields params key prices rows']

end Response

abbrev SettledItem := (Date × ScreenSnapshotItem) × BacktestDetailRow

def settledItems (mode : Mode) (prices : PriceTable) (n : Int)
    (rows : List (Date × ScreenSnapshotItem)) : List SettledItem :=
  rows.filterMap fun row => (settledRow mode prices n row).map (row, ·)

/-- One item is ahead of another in the detail by the order of the rows, and where the rows
tie by the rank of the screening. -/
def Ahead (key : DetailSort) (descending : Bool) (x y : SettledItem) : Prop :=
  RanksBefore key descending x.2 y.2 ∨
    (¬ RanksBefore key descending y.2 x.2 ∧ x.1.2.rank < y.1.2.rank)

instance (key : DetailSort) (descending : Bool) : DecidableRel (Ahead key descending) :=
  fun x y => inferInstanceAs (Decidable (RanksBefore key descending x.2 y.2 ∨
    (¬ RanksBefore key descending y.2 x.2 ∧ x.1.2.rank < y.1.2.rank)))

def itemOrder (key : DetailSort) (descending : Bool) (x y : SettledItem) : Prop :=
  ¬ Ahead key descending y x

instance (key : DetailSort) (descending : Bool) : DecidableRel (itemOrder key descending) :=
  fun x y => inferInstanceAs (Decidable (¬ Ahead key descending y x))

theorem itemOrder_iff {key : DetailSort} {descending : Bool} {x y : SettledItem} :
    itemOrder key descending x y ↔ detailOrder key descending x.2 y.2 ∧
      (detailOrder key descending y.2 x.2 → x.1.2.rank ≤ y.1.2.rank) := by
  unfold itemOrder Ahead detailOrder
  rw [not_or, not_and, not_lt]

instance (key : DetailSort) (descending : Bool) : Std.Total (itemOrder key descending) where
  total x y := by
    simp only [itemOrder_iff]
    rcases Std.Total.total (r := detailOrder key descending) x.2 y.2 with h | h <;> grind

instance (key : DetailSort) (descending : Bool) :
    IsTrans SettledItem (itemOrder key descending) where
  trans x y z hxy hyz := by
    rw [itemOrder_iff] at *
    have htrans {a b c : BacktestDetailRow} (hab : detailOrder key descending a b)
        (hbc : detailOrder key descending b c) : detailOrder key descending a c :=
      IsTrans.trans a b c hab hbc
    refine ⟨htrans hxy.1 hyz.1, fun hzx => ?_⟩
    exact (hxy.2 (htrans hyz.1 hzx)).trans (hyz.2 (htrans hzx hxy.1))

theorem detailOrder_tie {key : DetailSort} {descending : Bool} {a b : BacktestDetailRow}
    (h : detailOrder key descending a b) (h' : detailOrder key descending b a) :
    a.tradeDate = b.tradeDate ∧ a.symbol = b.symbol := by
  unfold detailOrder RanksBefore at h h'
  cases descending
  · exact DetailSort.tie h' h
  · exact DetailSort.tie h h'

section Items

variable {mode : Mode} {prices : PriceTable} {n : Int}
  {rows : List (Date × ScreenSnapshotItem)} {key : DetailSort} {descending : Bool}

theorem mem_settledItems {x : SettledItem} :
    x ∈ settledItems mode prices n rows ↔ x.1 ∈ rows ∧ settledRow mode prices n x.1 = some x.2 := by
  unfold settledItems
  simp only [List.mem_filterMap, Option.map_eq_some_iff]
  constructor
  · rintro ⟨row, hrow, settled, hsettled, rfl⟩
    exact ⟨hrow, hsettled⟩
  · rintro ⟨hrow, hsettled⟩
    exact ⟨x.1, hrow, x.2, hsettled, rfl⟩

theorem map_settledItems : (settledItems mode prices n rows).map Prod.snd =
    settledRows mode prices n rows := by
  unfold settledItems settledRows
  rw [List.map_filterMap]
  refine List.filterMap_congr fun row _ => ?_
  rw [Option.map_map]
  exact Option.map_id'

theorem settledRow_tradeDate {row : Date × ScreenSnapshotItem} {settled : BacktestDetailRow}
    (h : settledRow mode prices n row = some settled) : settled.tradeDate = row.1 := by
  obtain ⟨t, -, rfl⟩ := Option.map_eq_some_iff.mp h
  rfl

def sortItems (key : DetailSort) (descending : Bool) (items : List SettledItem) :
    List SettledItem :=
  items.insertionSort fun x y => detailOrder key descending x.2 y.2

theorem map_sortItems (items : List SettledItem) :
    (sortItems key descending items).map Prod.snd =
      sortDetail key descending (items.map Prod.snd) :=
  (sortDetail_map key descending Prod.snd items).symm

theorem sortItems_perm (items : List SettledItem) :
    (sortItems key descending items).Perm items := List.perm_insertionSort _ _

/-- What holds of any two rows in their order in the result of the query decides the ties. -/
theorem sortItems_pairwise {s : Date × ScreenSnapshotItem → Date × ScreenSnapshotItem → Prop}
    (h : rows.Pairwise s) :
    (sortItems key descending (settledItems mode prices n rows)).Pairwise fun x y =>
      detailOrder key descending x.2 y.2 ∧
        (detailOrder key descending y.2 x.2 → x.1.1 = y.1.1 ∧ s x.1 y.1) := by
  have hitems : (settledItems mode prices n rows).Pairwise fun x y => s x.1 y.1 := by
    refine h.filterMap _ fun row row' hs x hx y hy => ?_
    obtain ⟨settled, -, rfl⟩ := Option.map_eq_some_iff.mp hx
    obtain ⟨settled', -, rfl⟩ := Option.map_eq_some_iff.mp hy
    exact hs
  have : Std.Total fun x y : SettledItem => detailOrder key descending x.2 y.2 :=
    ⟨fun x y => Std.Total.total x.2 y.2⟩
  have : IsTrans SettledItem fun x y => detailOrder key descending x.2 y.2 :=
    ⟨fun x y z => IsTrans.trans x.2 y.2 z.2⟩
  refine (pairwise_insertionSort hitems).imp_of_mem fun {x y} hx hy hxy => ⟨hxy.1, fun hyx => ?_⟩
  obtain ⟨-, hx⟩ := mem_settledItems.mp ((sortItems_perm _).mem_iff.mp hx)
  obtain ⟨-, hy⟩ := mem_settledItems.mp ((sortItems_perm _).mem_iff.mp hy)
  refine ⟨?_, hxy.2 hyx⟩
  rw [← settledRow_tradeDate hx, ← settledRow_tradeDate hy]
  exact (detailOrder_tie hxy.1 hyx).1

theorem entryOrder_of_day {a b : Date × ScreenSnapshotItem} (h : a.1 = b.1) :
    entryOrder a b ↔ a.2.rank ≤ b.2.rank := by
  unfold entryOrder
  simp [h]

theorem itemOrder_of_entryOrder (h : rows.Pairwise entryOrder) :
    (sortItems key descending (settledItems mode prices n rows)).Pairwise
      (itemOrder key descending) := by
  refine (sortItems_pairwise h).imp fun {x y} hxy => itemOrder_iff.mpr ⟨hxy.1, fun hyx => ?_⟩
  obtain ⟨hday, horder⟩ := hxy.2 hyx
  exact (entryOrder_of_day hday).mp horder

end Items

/-- Whether a row with so many rows ahead of it is within the limit. -/
def Shown (limit : Int) (ahead : Nat) : Prop := limit < 0 ∨ (ahead : Int) < limit

instance (limit : Int) (ahead : Nat) : Decidable (Shown limit ahead) :=
  inferInstanceAs (Decidable (limit < 0 ∨ (ahead : Int) < limit))

theorem getElem?_cutDetail (limit : Int) (detail : List BacktestDetailRow) (i : Nat) :
    (cutDetail limit detail)[i]? = if Shown limit i then detail[i]? else none := by
  unfold cutDetail
  by_cases hlimit : 0 ≤ limit
  · have hiff : i < limit.toNat ↔ Shown limit i := by
      unfold Shown
      omega
    rw [if_pos hlimit, List.getElem?_take]
    simp only [hiff]
  · have hshown : Shown limit i := Or.inl (not_le.mp hlimit)
    rw [if_neg hlimit, if_pos hshown]

/-- The items that tie in the detail and in the screening, and are not cut off, settle into
the same row. -/
def TiesAgree (key : DetailSort) (descending : Bool) (limit : Int) (items : List SettledItem) :
    Prop :=
  ∀ x ∈ items, ∀ y ∈ items, ¬ Ahead key descending x y → ¬ Ahead key descending y x →
    Shown limit (items.countP (Ahead key descending · x)) → x.2 = y.2

theorem cutDetail_eq_of_tiesAgree {key : DetailSort} {descending : Bool} {limit : Int}
    {items l l' : List SettledItem} (h : TiesAgree key descending limit items)
    (hl : l.Pairwise (itemOrder key descending)) (hl' : l'.Pairwise (itemOrder key descending))
    (hperm : l.Perm items) (hperm' : l'.Perm items) :
    cutDetail limit (l.map Prod.snd) = cutDetail limit (l'.map Prod.snd) := by
  have hlength : l.length = l'.length := (hperm.trans hperm'.symm).length_eq
  refine List.ext_getElem? fun i => ?_
  rw [getElem?_cutDetail, getElem?_cutDetail]
  split_ifs with hshown
  · by_cases hi : i < l.length
    · have hi' : i < l'.length := hlength ▸ hi
      have hahead := countP_ahead_le hl hi (Std.Refl.refl _)
      simp only [itemOrder, not_not] at hahead
      rw [hperm.countP_eq] at hahead
      have hsame := h l[i] (hperm.mem_iff.mp (List.getElem_mem hi)) l'[i]
        (hperm'.mem_iff.mp (List.getElem_mem hi'))
        (rel_getElem hl' hl (hperm'.trans hperm.symm) hi' hi)
        (rel_getElem hl hl' (hperm.trans hperm'.symm) hi hi')
        (by unfold Shown at *; omega)
      rw [List.getElem?_map, List.getElem?_map, List.getElem?_eq_getElem hi,
        List.getElem?_eq_getElem hi', Option.map_some, Option.map_some, hsame]
    · rw [List.getElem?_eq_none (by simpa using hi),
        List.getElem?_eq_none (by simpa [← hlength] using hi)]
  · rfl

theorem snapshotEntryRows_nodup (store : SnapshotStore) (start stop : Date) (session : String) :
    (snapshotEntryRows store start stop session).Nodup := by
  rw [(snapshotEntryRows_perm store start stop session).nodup_iff]
  refine (List.Nodup.of_map _ store.itemIds_nodup).filterMap fun item item' pair h h' => ?_
  obtain ⟨s, -, rfl⟩ := Option.map_eq_some_iff.mp h
  obtain ⟨s', -, heq⟩ := Option.map_eq_some_iff.mp h'
  exact (congrArg Prod.snd heq).symm

/-- The database may return any row before all those that the `ORDER BY` leaves equal to it. -/
theorem exists_first {store : SnapshotStore} {start stop : Date} {session : String}
    {row : Date × ScreenSnapshotItem} (hrow : row ∈ snapshotEntryRows store start stop session) :
    ∃ rows, IsSnapshotEntries store start stop session rows ∧
      rows.Pairwise fun a b => entryOrder a b ∧ (entryOrder b a → b ≠ row) := by
  have hnodup := snapshotEntryRows_nodup store start stop session
  have hperm := List.perm_cons_erase hrow
  have hfirst : (row :: (snapshotEntryRows store start stop session).erase row).Pairwise
      fun _ b => b ≠ row := by
    have hrest : ∀ b ∈ (snapshotEntryRows store start stop session).erase row, b ≠ row :=
      fun b hb => (hnodup.mem_erase_iff.mp hb).1
    exact List.pairwise_cons.mpr ⟨hrest, List.pairwise_of_forall_mem_list fun _ _ b hb => hrest b hb⟩
  refine ⟨_, ⟨(List.perm_insertionSort entryOrder _).trans hperm.symm,
    List.pairwise_insertionSort entryOrder _⟩, pairwise_insertionSort hfirst⟩

theorem getElem?_sortItems_first {mode : Mode} {prices : PriceTable} {n : Int}
    {rows : List (Date × ScreenSnapshotItem)} {key : DetailSort} {descending : Bool}
    {x : SettledItem} (hx : x ∈ settledItems mode prices n rows)
    (h : rows.Pairwise fun a b => entryOrder a b ∧ (entryOrder b a → b ≠ x.1)) :
    (sortItems key descending (settledItems mode prices n rows))[
      (settledItems mode prices n rows).countP (Ahead key descending · x)]? = some x := by
  have hpairwise : (sortItems key descending (settledItems mode prices n rows)).Pairwise
      fun a b => itemOrder key descending a b ∧ (b = x → ¬ itemOrder key descending b a) := by
    refine (sortItems_pairwise h).imp fun {a b} hab => ⟨itemOrder_iff.mpr ⟨hab.1, fun hba => ?_⟩, ?_⟩
    · obtain ⟨hday, horder, -⟩ := hab.2 hba
      exact (entryOrder_of_day hday).mp horder
    · rintro rfl hba
      obtain ⟨htie, hrank⟩ := itemOrder_iff.mp hba
      obtain ⟨hday, -, hne⟩ := hab.2 htie
      exact hne ((entryOrder_of_day hday.symm).mpr (hrank hab.1)) rfl
  have hget := getElem?_first hpairwise (Std.Refl.refl _) ((sortItems_perm _).mem_iff.mpr hx)
  simp only [itemOrder, not_not, (sortItems_perm _).countP_eq] at hget
  exact hget

theorem countP_ahead_of_tie {key : DetailSort} {descending : Bool} {x y : SettledItem}
    (hxy : ¬ Ahead key descending x y) (hyx : ¬ Ahead key descending y x)
    {items : List SettledItem} :
    items.countP (Ahead key descending · x) = items.countP (Ahead key descending · y) := by
  refine List.countP_congr fun a _ => ?_
  have hiff : itemOrder key descending x a ↔ itemOrder key descending y a :=
    ⟨IsTrans.trans (r := itemOrder key descending) y x a hxy,
      IsTrans.trans (r := itemOrder key descending) x y a hyx⟩
  simpa only [decide_eq_true_eq] using not_iff_not.mp hiff

section Orders

variable {store : SnapshotStore} {start stop : Date} {session : String} {mode : Mode}
  {prices : PriceTable} {n : Int} {key : DetailSort} {descending : Bool} {limit : Int}
  {rows : List (Date × ScreenSnapshotItem)}

theorem settledItems_perm (h : IsSnapshotEntries store start stop session rows) :
    (settledItems mode prices n rows).Perm
      (settledItems mode prices n (itemsInRange store start stop session)) :=
  h.perm_items.filterMap _

/-- An item may come right behind those that are ahead of it. -/
theorem exists_getElem?_sortItems {x : SettledItem}
    (hx : x ∈ settledItems mode prices n (itemsInRange store start stop session)) :
    ∃ rows, IsSnapshotEntries store start stop session rows ∧
      (sortItems key descending (settledItems mode prices n rows))[
        (settledItems mode prices n (itemsInRange store start stop session)).countP
          (Ahead key descending · x)]? = some x := by
  obtain ⟨rows, h, hfirst⟩ := exists_first
    ((snapshotEntryRows_perm _ _ _ _).mem_iff.mpr (mem_settledItems.mp hx).1)
  refine ⟨rows, h, ?_⟩
  rw [← (settledItems_perm h).countP_eq]
  exact getElem?_sortItems_first ((settledItems_perm h).mem_iff.mpr hx) hfirst

theorem tiesAgree_of_cuts (h : ∀ rows rows', IsSnapshotEntries store start stop session rows →
      IsSnapshotEntries store start stop session rows' →
      cutDetail limit ((sortItems key descending (settledItems mode prices n rows)).map Prod.snd) =
        cutDetail limit
          ((sortItems key descending (settledItems mode prices n rows')).map Prod.snd)) :
    TiesAgree key descending limit
      (settledItems mode prices n (itemsInRange store start stop session)) := by
  intro x hx y hy hxy hyx hshown
  obtain ⟨rows, hrows, hgetx⟩ := exists_getElem?_sortItems hx
  obtain ⟨rows', hrows', hgety⟩ := exists_getElem?_sortItems hy
  rw [← countP_ahead_of_tie hxy hyx] at hgety
  have hsame := congrArg (·[(settledItems mode prices n
    (itemsInRange store start stop session)).countP (Ahead key descending · x)]?)
      (h rows rows' hrows hrows')
  simp only [getElem?_cutDetail, if_pos hshown, List.getElem?_map] at hsame
  rw [hgetx, hgety] at hsame
  exact Option.some.inj hsame

end Orders

/-- The answer does not depend on how the database orders tied rows exactly when no two items
of one day, symbol and rank tie in the detail with different rows within the limit. -/
theorem runBacktestOn_order_iff {store : SnapshotStore} {prices : PriceTable}
    {params : BacktestParams} {key : DetailSort} {horizons : List Int}
    (hsort : detailSortKeys.lookup params.detailSort = some key)
    (horder : params.detailOrder ∈ ["asc", "desc"])
    (hhorizons : normalizeHorizons params.horizons = .ok horizons) :
    (∀ rows rows',
        IsSnapshotEntries store params.start params.stop (modeSession params.mode) rows →
        IsSnapshotEntries store params.start params.stop (modeSession params.mode) rows' →
        runBacktestOn params rows prices = runBacktestOn params rows' prices) ↔
      TiesAgree key (params.detailOrder = "desc") params.detailLimit
        (settledItems params.mode prices (pickDetailN horizons params.detailN)
          (itemsInRange store params.start params.stop (modeSession params.mode))) := by
  have hne := normalizeHorizons_ne_nil hhorizons
  have hnd := normalizeHorizons_nodup hhorizons
  have hrun (rows) := runBacktestOn_accepted hsort horder hhorizons rows prices
  have hdetail (rows) : (backtestResponse params key horizons rows prices).detail =
      cutDetail params.detailLimit ((sortItems key (params.detailOrder = "desc")
        (settledItems params.mode prices (pickDetailN horizons params.detailN) rows)).map
          Prod.snd) := by
    rw [map_sortItems, map_settledItems]
    exact backtestResponse_detail params key rows prices hnd hne
  constructor
  · intro hall
    refine tiesAgree_of_cuts fun rows rows' h h' => ?_
    have hsame := hall rows rows' h h'
    rw [hrun, hrun] at hsame
    rw [← hdetail, ← hdetail, Except.ok.inj hsame]
  · intro hties rows rows' h h'
    rw [hrun, hrun, backtestResponse_perm params key prices hnd hne (h.perm.trans h'.perm.symm)]
    have hsame := cutDetail_eq_of_tiesAgree hties (itemOrder_of_entryOrder h.ordered)
      (itemOrder_of_entryOrder h'.ordered) ((sortItems_perm _).trans (settledItems_perm h))
      ((sortItems_perm _).trans (settledItems_perm h'))
    rw [← hdetail, ← hdetail] at hsame
    rw [hsame]

/-- One symbol screened twice on one day at the default rank, with two prices. -/
def screenedTwice : Ingest where
  body :=
    { tradeDate := 10
      session := sessionIntraday1300
      generatedAt := 0
      items := [{ symbol := "2330", close := some 100 }, { symbol := "2330", close := some 110 }] }
  ids := { snapshotId := 1, itemId := fun k => k }

def screenedTwiceRows : List (Date × ScreenSnapshotItem) :=
  listSnapshotEntries (runIngests [screenedTwice]).store 10 10 sessionIntraday1300

theorem runBacktestOn_order_iff_nextDay :
    (∀ rows rows', IsSnapshotEntries (runIngests [screenedTwice]).store 10 10 sessionIntraday1300 rows →
        IsSnapshotEntries (runIngests [screenedTwice]).store 10 10 sessionIntraday1300 rows' →
        runBacktestOn nextDay rows laterPrice = runBacktestOn nextDay rows' laterPrice) ↔
      TiesAgree .tradeDate (nextDay.detailOrder = "desc") nextDay.detailLimit
        (settledItems .intradayToClose laterPrice (pickDetailN [1] nextDay.detailN)
          (itemsInRange (runIngests [screenedTwice]).store 10 10 sessionIntraday1300)) :=
  @runBacktestOn_order_iff _ _ nextDay _ _ (show _ = some DetailSort.tradeDate by decide)
    (by decide) (show normalizeHorizons [1] = .ok [1] from rfl)

theorem runBacktestOn_order_differs :
    upsertDailyPrices ∅ (upload 12 110) = some (laterPrice, 1, 0) ∧
      ∃ rows rows',
        IsSnapshotEntries (runIngests [screenedTwice]).store 10 10 sessionIntraday1300 rows ∧
        IsSnapshotEntries (runIngests [screenedTwice]).store 10 10 sessionIntraday1300 rows' ∧
        runBacktestOn nextDay rows laterPrice ≠ runBacktestOn nextDay rows' laterPrice := by
  have hdetail : (runBacktestOn nextDay screenedTwiceRows laterPrice).toOption.map (·.detail) ≠
      (runBacktestOn nextDay screenedTwiceRows.reverse laterPrice).toOption.map (·.detail) := by
    decide +kernel
  refine ⟨by decide +kernel, screenedTwiceRows, screenedTwiceRows.reverse,
    listSnapshotEntries_isSnapshotEntries _ _ _ _, ⟨?_, by decide +kernel⟩, fun hsame => ?_⟩
  · exact (List.reverse_perm _).trans (List.perm_insertionSort _ _)
  · exact hdetail (congrArg (fun answer => answer.toOption.map (·.detail)) hsame)

end StockQuant
