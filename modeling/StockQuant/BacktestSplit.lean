import StockQuant.BacktestRequests
import StockQuant.DetailTies
import StockQuant.PooledStatistics
import StockQuant.StableMerge

/-! A backtest over a range that is cut in two: what the answer over the whole says is told by
the answers over the two parts. -/

namespace StockQuant

open Statistics StableSort

/-- Where one part has no value the other one's is the whole's, and otherwise the whole's lies
between those of the parts. -/
def Pools (part part' whole : Option ℚ) : Prop :=
  match part, part' with
  | none, _ => whole = part'
  | some _, none => whole = part
  | some x, some y => ∃ z ∈ Set.uIcc x y, whole = some z

structure PoolsStat (part part' whole : BacktestHorizonStat) : Prop where
  samples : whole.samples = part.samples + part'.samples
  missing : whole.missing = part.missing + part'.missing
  wins : whole.wins = part.wins + part'.wins
  losses : whole.losses = part.losses + part'.losses
  flat : whole.flat = part.flat + part'.flat
  winRate : Pools part.winRate part'.winRate whole.winRate
  average : Pools part.avgReturnPct part'.avgReturnPct whole.avgReturnPct
  median : Pools part.medianReturnPct part'.medianReturnPct whole.medianReturnPct
  best : whole.bestReturnPct = Option.merge max part.bestReturnPct part'.bestReturnPct
  worst : whole.worstReturnPct = Option.merge min part.worstReturnPct part'.worstReturnPct

/-- The page of the whole is cut from the pages of the parts, and the whole is in order where
both parts are. -/
structure PoolsResponse (key : DetailSort) (descending : Bool) (limit : Int)
    (part part' whole : BacktestResponse) : Prop where
  entries : whole.entries = part.entries + part'.entries
  tradingDays : whole.tradingDays = part.tradingDays + part'.tradingDays
  horizons : whole.horizons = part.horizons ∧ whole.horizons = part'.horizons
  stats : ∀ n ∈ whole.horizons, ∃ s ∈ part.summary, ∃ s' ∈ part'.summary, ∃ t ∈ whole.summary,
    s.n = n ∧ s'.n = n ∧ t.n = n ∧ PoolsStat s s' t
  detailTotal : whole.detailTotal = part.detailTotal + part'.detailTotal
  detail : whole.detail =
    cutDetail limit (sortDetail key descending (part.detail ++ part'.detail))
  warning : part.warning = none → part'.warning = none → whole.warning = none

theorem Pools.map {part part' whole : Option ℚ} (h : Pools part part' whole) {f : ℚ → ℚ}
    (hf : Monotone f) : Pools (part.map f) (part'.map f) (whole.map f) := by
  match part, part', h with
  | none, _, h => exact congrArg (Option.map f) h
  | some x, none, h => exact congrArg (Option.map f) h
  | some x, some y, ⟨z, hz, h⟩ => exact ⟨f z, hf.mapsTo_uIcc hz, congrArg (Option.map f) h⟩

/-- The value of a list that is not empty. -/
def ofSome (value : List ℚ → ℚ) (l : List ℚ) : Option ℚ := if l = [] then none else some (value l)

theorem pools_ofSome {value : List ℚ → ℚ} {l l' : List ℚ}
    (h : l ≠ [] → l' ≠ [] → value (l ++ l') ∈ Set.uIcc (value l) (value l')) :
    Pools (ofSome value l) (ofSome value l') (ofSome value (l ++ l')) := by
  unfold ofSome
  by_cases hl : l = []
  · subst hl
    rw [List.nil_append, if_pos rfl]
    rfl
  · by_cases hl' : l' = []
    · subst hl'
      rw [List.append_nil, if_pos rfl, if_neg hl]
      rfl
    · rw [if_neg hl, if_neg hl', if_neg (List.append_ne_nil_of_left_ne_nil hl l')]
      exact ⟨_, h hl hl', rfl⟩

theorem merge_ofSome {value : List ℚ → ℚ} {op : ℚ → ℚ → ℚ} {l l' : List ℚ}
    (h : l ≠ [] → l' ≠ [] → value (l ++ l') = op (value l) (value l')) :
    ofSome value (l ++ l') = Option.merge op (ofSome value l) (ofSome value l') := by
  unfold ofSome
  by_cases hl : l = []
  · subst hl
    rw [List.nil_append, if_pos rfl]
    split_ifs <;> rfl
  · by_cases hl' : l' = []
    · subst hl'
      rw [List.append_nil, if_pos rfl, if_neg hl]
      rfl
    · rw [if_neg hl, if_neg hl', if_neg (List.append_ne_nil_of_left_ne_nil hl l'), h hl hl']
      rfl

/-- The share of the returns that are gains. -/
def winShare (returns : List ℚ) : ℚ := returns.countP (0 < ·) / returns.length

theorem summarize_eq (n : Int) (returns : List ℚ) (missing : Nat) :
    summarize n returns missing =
      { n
        samples := returns.length
        missing
        wins := returns.countP (0 < ·)
        losses := returns.countP (· < 0)
        flat := returns.length - returns.countP (0 < ·) - returns.countP (· < 0)
        winRate := (ofSome winShare returns).map (roundTo 6)
        avgReturnPct := (ofSome mean returns).map (roundTo 4)
        medianReturnPct := (ofSome median returns).map (roundTo 4)
        bestReturnPct := (ofSome best returns).map (roundTo 4)
        worstReturnPct := (ofSome worst returns).map (roundTo 4) } := by
  unfold summarize ofSome
  split_ifs with hnil
  · subst hnil
    rfl
  · rfl

theorem summarize_n (n : Int) (returns : List ℚ) (missing : Nat) :
    (summarize n returns missing).n = n := by
  rw [summarize_eq]

theorem winShare_append_mem {l l' : List ℚ} (h : l ≠ []) (h' : l' ≠ []) :
    winShare (l ++ l') ∈ Set.uIcc (winShare l) (winShare l') := by
  have hpos : (0 : ℚ) < l.length := by exact_mod_cast List.length_pos_iff.mpr h
  have hpos' : (0 : ℚ) < l'.length := by exact_mod_cast List.length_pos_iff.mpr h'
  unfold winShare
  rw [List.countP_append, List.length_append, Nat.cast_add, Nat.cast_add]
  exact pooled_mem hpos hpos'

theorem countP_signs_le (l : List ℚ) : l.countP (0 < ·) + l.countP (· < 0) ≤ l.length := by
  induction l with
  | nil => exact le_rfl
  | cons x l ih =>
    rw [List.countP_cons, List.countP_cons, List.length_cons]
    rcases lt_trichotomy x 0 with hx | rfl | hx
    · simp [hx, hx.not_gt]
      omega
    · simp
      omega
    · simp [hx, hx.not_gt]
      omega

theorem merge_map_max (f : ℚ → ℚ) (hf : Monotone f) (x y : Option ℚ) :
    (Option.merge max x y).map f = Option.merge max (x.map f) (y.map f) := by
  cases x <;> cases y <;> simp [Option.merge, hf.map_max]

theorem merge_map_min (f : ℚ → ℚ) (hf : Monotone f) (x y : Option ℚ) :
    (Option.merge min x y).map f = Option.merge min (x.map f) (y.map f) := by
  cases x <;> cases y <;> simp [Option.merge, hf.map_min]

theorem summarize_pools (n : Int) (returns returns' : List ℚ) (missing missing' : Nat) :
    PoolsStat (summarize n returns missing) (summarize n returns' missing')
      (summarize n (returns ++ returns') (missing + missing')) := by
  have hround (digits : Nat) := roundTo_mono digits
  simp only [summarize_eq]
  exact
    { samples := List.length_append
      missing := rfl
      wins := List.countP_append
      losses := List.countP_append
      flat := by
        have hle := countP_signs_le returns
        have hle' := countP_signs_le returns'
        simp only [List.length_append, List.countP_append]
        omega
      winRate := (pools_ofSome winShare_append_mem).map (hround 6)
      average := (pools_ofSome mean_append_mem).map (hround 4)
      median := (pools_ofSome median_append_mem).map (hround 4)
      best := by rw [merge_ofSome best_append, merge_map_max _ (hround 4)]
      worst := by rw [merge_ofSome worst_append, merge_map_min _ (hround 4)] }

theorem cutDetail_append (key : DetailSort) (descending : Bool) (limit : Int)
    (l l' : List BacktestDetailRow) :
    cutDetail limit (sortDetail key descending (l ++ l')) =
      cutDetail limit (sortDetail key descending
        (cutDetail limit (sortDetail key descending l) ++
          cutDetail limit (sortDetail key descending l'))) := by
  simp only [sortDetail_eq]
  unfold cutDetail
  split_ifs
  · exact take_insertionSort_append _ l l'
  · -- Without a limit every row is among the first.
    have hall := take_insertionSort_append (r := detailOrder key descending) (l ++ l').length l l'
    rwa [List.take_of_length_le (by simp), List.take_of_length_le (by simp),
      List.take_of_length_le (by simp), List.take_of_length_le (by simp)] at hall

theorem coverageWarning_eq_none_iff {rows : List (Date × ScreenSnapshotItem)}
    {calendar : List Date} {horizons : List Int} {missing : Int → Nat} {newest : Date}
    {biggest : Int} (hnewest : IsGreatest {day | day ∈ rows.map Prod.fst} newest)
    (hbiggest : IsGreatest {n | n ∈ horizons} biggest) :
    coverageWarning (collectEntries rows) calendar horizons missing = none ↔
      nthTradingDay calendar newest biggest ≠ none ∧
        ∀ n ∈ horizons, missing n = 0 ∨ (missing n : ℚ) < (rows.length : ℚ) / 5 := by
  have hdays : (collectEntries rows).map (·.tradeDate) = rows.map Prod.fst := List.map_map
  have hlength : (collectEntries rows).length = rows.length := List.length_map _
  obtain ⟨worst, hworst⟩ : ∃ worst, (horizons.map missing).max? = some worst :=
    Option.isSome_iff_exists.mp (List.isSome_max?_of_mem (List.mem_map_of_mem hbiggest.1))
  obtain ⟨hattained, hbound⟩ := List.max?_eq_some_iff.mp hworst
  unfold coverageWarning
  rw [hdays, hlength, max?_getD_of_isGreatest hnewest, max?_getD_of_isGreatest hbiggest, hworst,
    Option.getD_some]
  dsimp only
  split_ifs with hnth hmissed
  · simp [hnth]
  · obtain ⟨n, hn, rfl⟩ := List.mem_map.mp hattained
    refine iff_of_false (by simp) fun h => ?_
    rcases h.2 n hn with hzero | hfew
    · exact hmissed.1 hzero
    · exact absurd hmissed.2 (not_le.mpr hfew)
  · refine iff_of_true rfl ⟨hnth, fun n hn => ?_⟩
    have hle : missing n ≤ worst := hbound _ (List.mem_map_of_mem hn)
    by_cases hzero : worst = 0
    · exact Or.inl (by omega)
    · have hfew : (worst : ℚ) < (rows.length : ℚ) / 5 := by
        by_contra hmany
        exact hmissed ⟨hzero, not_lt.mp hmany⟩
      exact Or.inr (lt_of_le_of_lt (by exact_mod_cast hle) hfew)

theorem exists_isGreatest {α : Type} [LinearOrder α] {l : List α} (h : l ≠ []) :
    ∃ x, IsGreatest {a | a ∈ l} x := by
  obtain ⟨x, hx⟩ := List.exists_mem_of_ne_nil l h
  obtain ⟨greatest, hgreatest⟩ := Option.isSome_iff_exists.mp (List.isSome_max?_of_mem hx)
  obtain ⟨hmem, hle⟩ := List.max?_eq_some_iff.mp hgreatest
  exact ⟨greatest, hmem, fun a ha => hle a ha⟩

/-- The newest day of the whole is that of the later part, and the shares that the parts miss
are averaged. -/
theorem coverageWarning_append {rows rows' : List (Date × ScreenSnapshotItem)}
    {calendar : List Date} {horizons : List Int} {missing missing' : Int → Nat}
    (hne : horizons ≠ []) (hrows : rows ≠ []) (hrows' : rows' ≠ [])
    (hdays : ∀ a ∈ rows, ∀ b ∈ rows', a.1 < b.1)
    (h : coverageWarning (collectEntries rows) calendar horizons missing = none)
    (h' : coverageWarning (collectEntries rows') calendar horizons missing' = none) :
    coverageWarning (collectEntries (rows ++ rows')) calendar horizons
      (fun n => missing n + missing' n) = none := by
  obtain ⟨biggest, hbiggest⟩ := exists_isGreatest hne
  obtain ⟨newest, hnewest⟩ := exists_isGreatest (l := rows.map Prod.fst) (by simpa using hrows)
  obtain ⟨newest', hnewest'⟩ := exists_isGreatest (l := rows'.map Prod.fst) (by simpa using hrows')
  have hwhole : IsGreatest {day | day ∈ (rows ++ rows').map Prod.fst} newest' := by
    refine ⟨?_, fun day hday => ?_⟩
    · rw [Set.mem_ofPred, List.map_append]
      exact List.mem_append_right _ hnewest'.1
    · rw [Set.mem_ofPred, List.map_append, List.mem_append] at hday
      rcases hday with hday | hday
      · obtain ⟨a, ha, rfl⟩ := List.mem_map.mp hday
        obtain ⟨b, hb, hb'⟩ := List.mem_map.mp hnewest'.1
        exact hb' ▸ (hdays a ha b hb).le
      · exact hnewest'.2 hday
  obtain ⟨-, hfew⟩ := (coverageWarning_eq_none_iff hnewest hbiggest).mp h
  obtain ⟨hnth, hfew'⟩ := (coverageWarning_eq_none_iff hnewest' hbiggest).mp h'
  refine (coverageWarning_eq_none_iff hwhole hbiggest).mpr ⟨hnth, fun n hn => ?_⟩
  have hpos : (0 : ℚ) < rows.length := by exact_mod_cast List.length_pos_iff.mpr hrows
  have hpos' : (0 : ℚ) < rows'.length := by exact_mod_cast List.length_pos_iff.mpr hrows'
  rw [List.length_append, Nat.cast_add, Nat.cast_add]
  rcases hfew n hn with hzero | hfew <;> rcases hfew' n hn with hzero' | hfew'
  · exact Or.inl (by omega)
  · refine Or.inr ?_
    rw [hzero, Nat.cast_zero]
    linarith
  · refine Or.inr ?_
    rw [hzero', Nat.cast_zero]
    linarith
  · exact Or.inr (by linarith)

section Response

variable {params : BacktestParams} {key : DetailSort} {horizons : List Int} {prices : PriceTable}
  {rows rows' : List (Date × ScreenSnapshotItem)}

theorem backtestResponse_stats (hnd : horizons.Nodup) {n : Int} (hn : n ∈ horizons) :
    summarize n (rows.filterMap fun row => (rowTrade params.mode prices row n).map Trade.pct)
        (missingCount params.mode prices rows n) ∈
      (backtestResponse params key horizons rows prices).summary := by
  rw [backtestResponse_summary params key hnd]
  refine List.mem_map.mpr ⟨n, hn, ?_⟩
  rw [← summarize_eq_referenceStat, List.filterMap_map, List.countP_map]
  rfl

theorem backtestResponse_tradingDays :
    (backtestResponse params key horizons rows prices).tradingDays =
      (rows.map Prod.fst).dedup.length :=
  congrArg BacktestResponse.tradingDays (backtestResponse_fields params key prices rows)

theorem backtestResponse_horizons :
    (backtestResponse params key horizons rows prices).horizons = horizons :=
  congrArg BacktestResponse.horizons (backtestResponse_fields params key prices rows)

theorem days_disjoint (hdays : ∀ a ∈ rows, ∀ b ∈ rows', a.1 < b.1) :
    List.Disjoint (rows.map Prod.fst) (rows'.map Prod.fst) := by
  intro day hday hday'
  obtain ⟨a, ha, rfl⟩ := List.mem_map.mp hday
  obtain ⟨b, hb, hsame⟩ := List.mem_map.mp hday'
  exact absurd hsame (hdays a ha b hb).ne'

theorem missingCount_append (mode : Mode) (n : Int) :
    missingCount mode prices (rows ++ rows') n =
      missingCount mode prices rows n + missingCount mode prices rows' n :=
  List.countP_append

/-- A part that is in order has entries, and prices to settle them. -/
theorem backtestResponse_inOrder_iff (hnd : horizons.Nodup) :
    (backtestResponse params key horizons rows prices).warning = none ↔
      rows ≠ [] ∧ listPriceTradingDays prices ≠ [] ∧
        coverageWarning (collectEntries rows) (listPriceTradingDays prices) horizons
          (missingCount params.mode prices rows) = none := by
  rw [backtestResponse_warning params key hnd]
  split_ifs with hrows hcalendar <;> simp [*]

theorem backtestResponse_pools (hnd : horizons.Nodup) (hne : horizons ≠ [])
    (hdays : ∀ a ∈ rows, ∀ b ∈ rows', a.1 < b.1) (mid next : Date) :
    PoolsResponse key (params.detailOrder = "desc") params.detailLimit
      (backtestResponse { params with stop := mid } key horizons rows prices)
      (backtestResponse { params with start := next } key horizons rows' prices)
      (backtestResponse params key horizons (rows ++ rows') prices) where
  entries := by
    simp only [backtestResponse_entries, List.length_append]
  tradingDays := by
    simp only [backtestResponse_tradingDays]
    rw [List.map_append, (days_disjoint hdays).dedup_append, List.length_append]
  horizons := by
    simp only [backtestResponse_horizons, and_self]
  stats := by
    intro n hn
    rw [backtestResponse_horizons] at hn
    have hpools := summarize_pools n
      (rows.filterMap fun row => (rowTrade params.mode prices row n).map Trade.pct)
      (rows'.filterMap fun row => (rowTrade params.mode prices row n).map Trade.pct)
      (missingCount params.mode prices rows n) (missingCount params.mode prices rows' n)
    rw [← List.filterMap_append, ← missingCount_append] at hpools
    exact ⟨_, backtestResponse_stats hnd hn, _, backtestResponse_stats hnd hn, _,
      backtestResponse_stats hnd hn, summarize_n _ _ _, summarize_n _ _ _, summarize_n _ _ _,
      hpools⟩
  detailTotal := by
    simp only [backtestResponse_detailTotal _ _ _ _ hnd hne]
    unfold settledRows
    rw [List.filterMap_append, List.length_append]
  detail := by
    simp only [backtestResponse_detail _ _ _ _ hnd hne]
    unfold settledRows
    rw [List.filterMap_append]
    exact cutDetail_append _ _ _ _ _
  warning := by
    intro h h'
    obtain ⟨hrows, hcalendar, hcovered⟩ := (backtestResponse_inOrder_iff hnd).mp h
    obtain ⟨hrows', -, hcovered'⟩ := (backtestResponse_inOrder_iff hnd).mp h'
    refine (backtestResponse_inOrder_iff hnd).mpr
      ⟨List.append_ne_nil_of_left_ne_nil hrows rows', hcalendar, ?_⟩
    rw [show missingCount params.mode prices (rows ++ rows') = _ from
      funext (missingCount_append params.mode)]
    exact coverageWarning_append hne hrows hrows' hdays hcovered hcovered'

end Response

section Ranges

variable {store : SnapshotStore} {start mid stop : Date} {session : String}
  {rows rows' : List (Date × ScreenSnapshotItem)}

theorem IsSnapshotEntries.day_mem (h : IsSnapshotEntries store start stop session rows)
    {row : Date × ScreenSnapshotItem} (hrow : row ∈ rows) : start ≤ row.1 ∧ row.1 ≤ stop := by
  obtain ⟨s, hs, hitem⟩ := List.mem_flatMap.mp (h.perm.mem_iff.mp hrow)
  obtain ⟨item, -, rfl⟩ := List.mem_map.mp hitem
  have hrange := (List.mem_filter.mp hs).2
  unfold inRange at hrange
  simp only [Bool.and_eq_true, decide_eq_true_eq] at hrange
  exact hrange.1

theorem snapshotEntryRows_split (hstart : start ≤ mid) (hstop : mid < stop) :
    (snapshotEntryRows store start mid session ++
        snapshotEntryRows store (mid + 1) stop session).Perm
      (snapshotEntryRows store start stop session) := by
  have hearly : store.snapshots.filter (inRange start mid session) =
      (store.snapshots.filter (inRange start stop session)).filter (·.tradeDate ≤ mid) := by
    rw [List.filter_filter]
    refine List.filter_congr fun s _ => ?_
    unfold inRange
    grind
  have hlate : store.snapshots.filter (inRange (mid + 1) stop session) =
      (store.snapshots.filter (inRange start stop session)).filter
        fun s => !decide (s.tradeDate ≤ mid) := by
    rw [List.filter_filter]
    refine List.filter_congr fun s _ => ?_
    unfold inRange
    grind
  unfold snapshotEntryRows
  rw [← List.flatMap_append, hearly, hlate]
  exact (List.filter_append_perm _ _).flatMap_right _

/-- A result for each part makes one for the whole. -/
theorem IsSnapshotEntries.append (hstart : start ≤ mid) (hstop : mid < stop)
    (h : IsSnapshotEntries store start mid session rows)
    (h' : IsSnapshotEntries store (mid + 1) stop session rows') :
    IsSnapshotEntries store start stop session (rows ++ rows') where
  perm := (h.perm.append h'.perm).trans (snapshotEntryRows_split hstart hstop)
  ordered := by
    refine List.pairwise_append.mpr ⟨h.ordered, h'.ordered, fun a ha b hb => Or.inl ?_⟩
    exact (h.day_mem ha).2.trans_lt (Nat.lt_of_succ_le (h'.day_mem hb).1)

theorem resolveRange_given_iff {today : Date} :
    resolveRange store today (some start) (some stop) = .ok (start, stop) ↔
      start ≤ stop ∧ stop ≤ start + maxRangeDays := by
  rw [resolveRange_eq]
  have hfirst : firstDay store today (some start) = start := rfl
  have hlast : lastDay store today (some stop) = stop := rfl
  rw [hfirst, hlast]
  split_ifs with hlate hlong
  · exact iff_of_false (by simp) fun h => absurd h.1 (not_le.mpr hlate)
  · exact iff_of_false (by simp) fun h => absurd h.2 (not_le.mpr (lt_tsub_iff_left.mp hlong))
  · exact iff_of_true rfl ⟨not_lt.mp hlate, tsub_le_iff_left.mp (not_lt.mp hlong)⟩

end Ranges

/-- Whether the parameters are refused does not depend on the range. -/
theorem runBacktestOn_split {params : BacktestParams} {prices : PriceTable}
    {rows rows' : List (Date × ScreenSnapshotItem)} (hdays : ∀ a ∈ rows, ∀ b ∈ rows', a.1 < b.1)
    (mid next : Date) :
    (∃ message, runBacktestOn params (rows ++ rows') prices = .error message ∧
        runBacktestOn { params with stop := mid } rows prices = .error message ∧
        runBacktestOn { params with start := next } rows' prices = .error message) ∨
      ∃ key whole part part', detailSortKeys.lookup params.detailSort = some key ∧
        runBacktestOn params (rows ++ rows') prices = .ok whole ∧
        runBacktestOn { params with stop := mid } rows prices = .ok part ∧
        runBacktestOn { params with start := next } rows' prices = .ok part' ∧
        PoolsResponse key (params.detailOrder = "desc") params.detailLimit part part' whole := by
  cases hsort : detailSortKeys.lookup params.detailSort with
  | none =>
    left
    simp only [runBacktestOn, hsort]
    exact ⟨_, rfl, rfl, rfl⟩
  | some key =>
    by_cases horder : params.detailOrder ∈ ["asc", "desc"]
    · cases hhorizons : normalizeHorizons params.horizons with
      | error message =>
        left
        simp only [runBacktestOn, hsort, if_neg (not_not.mpr horder), hhorizons]
        exact ⟨_, rfl, rfl, rfl⟩
      | ok horizons =>
        have haccepted (start stop : Date) (rows : List (Date × ScreenSnapshotItem)) :
            runBacktestOn { params with start, stop } rows prices =
              .ok (backtestResponse { params with start, stop } key horizons rows prices) := by
          simp only [runBacktestOn, hsort, if_neg (not_not.mpr horder), hhorizons]
        exact Or.inr ⟨key, _, _, _, rfl, haccepted params.start params.stop _,
          haccepted params.start mid _, haccepted next params.stop _,
          backtestResponse_pools (normalizeHorizons_nodup hhorizons)
            (normalizeHorizons_ne_nil hhorizons) hdays mid next⟩
    · left
      simp only [runBacktestOn, hsort, if_pos horder]
      exact ⟨_, rfl, rfl, rfl⟩

/-- One query over a range and over its two parts: where it is accepted, so are the others, and
all three refuse the rest of it alike. -/
theorem runOver_split {int : String → Option Int} {repr : String → String}
    {store : SnapshotStore} {prices : PriceTable} {query : BacktestQuery} {mode : Mode}
    {start mid stop : Date} {rows rows' : List (Date × ScreenSnapshotItem)}
    (hstart : start ≤ mid) (hstop : mid < stop)
    (hrows : IsSnapshotEntries store start mid (modeSession mode) rows)
    (hrows' : IsSnapshotEntries store (mid + 1) stop (modeSession mode) rows') :
    IsSnapshotEntries store start stop (modeSession mode) (rows ++ rows') ∧
      (∀ today, resolveRange store today (some start) (some stop) = .ok (start, stop) →
        resolveRange store today (some start) (some mid) = .ok (start, mid) ∧
          resolveRange store today (some (mid + 1)) (some stop) = .ok (mid + 1, stop)) ∧
      ((∃ message, runOver int repr prices query mode start stop (rows ++ rows') = .error message ∧
          runOver int repr prices query mode start mid rows = .error message ∧
          runOver int repr prices query mode (mid + 1) stop rows' = .error message) ∨
        ∃ key whole part part', detailSortKeys.lookup query.detailSort = some key ∧
          runOver int repr prices query mode start stop (rows ++ rows') = .ok whole ∧
          runOver int repr prices query mode start mid rows = .ok part ∧
          runOver int repr prices query mode (mid + 1) stop rows' = .ok part' ∧
          PoolsResponse key (query.detailOrder = "desc") query.detailLimit part part' whole) := by
  have hdays : ∀ a ∈ rows, ∀ b ∈ rows', a.1 < b.1 := fun a ha b hb =>
    (hrows.day_mem ha).2.trans_lt (Nat.lt_of_succ_le (hrows'.day_mem hb).1)
  have hlater : start ≤ mid + 1 := hstart.trans (Nat.le_succ mid)
  refine ⟨hrows.append hstart hstop hrows', fun today hwhole => ?_, ?_⟩
  · have hlong := (resolveRange_given_iff.mp hwhole).2
    exact ⟨resolveRange_given_iff.mpr ⟨hstart, hstop.le.trans hlong⟩,
      resolveRange_given_iff.mpr ⟨hstop, hlong.trans (Nat.add_le_add_right hlater _)⟩⟩
  · unfold runOver
    cases parseHorizons int repr query.horizons with
    | error message => exact Or.inl ⟨message, rfl, rfl, rfl⟩
    | ok horizons =>
      by_cases hzero : mode = .closeToClose ∧ horizons.any (· < 1)
      · simp only [if_pos hzero]
        exact Or.inl ⟨_, rfl, rfl, rfl⟩
      · simp only [if_neg hzero]
        exact runBacktestOn_split hdays mid (mid + 1)

/-- The same symbol screened on two days in a row, which both settle on day 12. -/
def twoDayStore : SnapshotStore where
  snapshots :=
    [{ id := 1, tradeDate := 10, session := "intraday_1300", generatedAt := 0, itemCount := 1 },
      { id := 2, tradeDate := 11, session := "intraday_1300", generatedAt := 0, itemCount := 1 }]
  items :=
    [{ id := 1, snapshotId := 1, rank := 1, symbol := "2330", close := some 100 },
      { id := 2, snapshotId := 2, rank := 1, symbol := "2330", close := some 120 }]
  ids_nodup := by simp
  itemIds_nodup := by simp
  keys_nodup := by decide
  items_owned := by simp

def overDays (start stop : Date) : Except String BacktestResponse :=
  runOver (fun _ => none) id (twoPrices "2330") {} .intradayToClose start stop
    (listSnapshotEntries twoDayStore start stop sessionIntraday1300)

theorem runOver_split_twoDays :
    ∃ key whole part part', detailSortKeys.lookup "trade_date" = some key ∧
      overDays 10 11 = .ok whole ∧ overDays 10 10 = .ok part ∧ overDays 11 11 = .ok part' ∧
      PoolsResponse key true 500 part part' whole := by
  have hjoined : listSnapshotEntries twoDayStore 10 11 sessionIntraday1300 =
      listSnapshotEntries twoDayStore 10 10 sessionIntraday1300 ++
        listSnapshotEntries twoDayStore 11 11 sessionIntraday1300 := by
    decide +kernel
  have hok : (overDays 10 10).toOption.isSome := by decide +kernel
  obtain ⟨-, -, ⟨message, -, herror, -⟩ | hsplit⟩ :=
    @runOver_split (fun _ => none) id twoDayStore (twoPrices "2330") {} .intradayToClose 10 10 11
      _ _ (by decide) (by decide) (listSnapshotEntries_isSnapshotEntries _ _ _ _)
      (listSnapshotEntries_isSnapshotEntries _ _ _ _)
  · have hrefused : overDays 10 10 = .error message := herror
    rw [hrefused] at hok
    cases hok
  · unfold overDays
    rw [hjoined]
    exact hsplit

end StockQuant
