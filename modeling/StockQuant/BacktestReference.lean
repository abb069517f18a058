import StockQuant.Backtest

/-! The main loop settles one entry at one horizon at a time: what it accumulates
is the list of the outcomes. -/

namespace StockQuant

open Statistics

structure Trade where
  entryPrice : ℚ
  exitDay : Date
  exitPrice : ℚ
  deriving DecidableEq

def Trade.pct (t : Trade) : ℚ := (t.exitPrice - t.entryPrice) / t.entryPrice * 100

def Trade.row (entry : Entry) (t : Trade) : BacktestDetailRow where
  tradeDate := entry.tradeDate
  symbol := entry.symbol
  name := entry.name
  market := entry.market
  marketCode := entry.marketCode
  entryPrice := roundTo 4 t.entryPrice
  exitDate := t.exitDay
  exitPrice := roundTo 4 t.exitPrice
  change := roundTo 4 (t.exitPrice - t.entryPrice)
  returnPct := roundTo 4 t.pct

def entryPriceFrom (mode : Mode) (quote : String → Date → Option ℚ) (entry : Entry) : Option ℚ :=
  if entry.entryPrice = none ∧ mode = .closeToClose then quote entry.symbol entry.tradeDate
  else entry.entryPrice

def tradeFrom (mode : Mode) (exit : Date → Int → Option Date) (quote : String → Date → Option ℚ)
    (entry : Entry) (n : Int) : Option Trade :=
  (entryPriceFrom mode quote entry).bind fun entryPrice =>
    if entryPrice ≤ 0 then none
    else (exit entry.tradeDate n).bind fun exitDay =>
      (quote entry.symbol exitDay).map fun exitPrice => { entryPrice, exitDay, exitPrice }

theorem tradeFrom_eq_some_iff {mode : Mode} {exit : Date → Int → Option Date}
    {quote : String → Date → Option ℚ} {entry : Entry} {n : Int} {t : Trade} :
    tradeFrom mode exit quote entry n = some t ↔
      entryPriceFrom mode quote entry = some t.entryPrice ∧ 0 < t.entryPrice ∧
      exit entry.tradeDate n = some t.exitDay ∧
      quote entry.symbol t.exitDay = some t.exitPrice := by
  obtain ⟨entryPrice, exitDay, exitPrice⟩ := t
  simp only [tradeFrom, Option.bind_eq_some_iff]
  constructor
  · rintro ⟨p, hp, h⟩
    split_ifs at h with hpos
    obtain ⟨d, hd, h⟩ := Option.bind_eq_some_iff.mp h
    obtain ⟨q, hq, h⟩ := Option.map_eq_some_iff.mp h
    cases h
    exact ⟨hp, not_le.mp hpos, hd, hq⟩
  · rintro ⟨hp, hpos, hd, hq⟩
    exact ⟨entryPrice, hp, by simp [not_le.mpr hpos, hd, hq]⟩

def Ledger.record (detailN : Int) (entry : Entry) (trade : Int → Option Trade) (ledger : Ledger)
    (n : Int) : Ledger :=
  match trade n with
  | none => ledger.miss n
  | some t =>
    { ledger with
      returns := Function.update ledger.returns n (ledger.returns n ++ [t.pct])
      detail := if n = detailN then ledger.detail ++ [t.row entry] else ledger.detail }

abbrev prefetchedTrade (mode : Mode) (exits : ExitDays) (found : ClosePrices) :
    Entry → Int → Option Trade :=
  tradeFrom mode (fun day n => exits.lookup (day, n)) (fun symbol day => found.lookup (symbol, day))

theorem settleEntry_eq_record (mode : Mode) (exits : ExitDays) (found : ClosePrices)
    (horizons : List Int) (detailN : Int) (ledger : Ledger) (entry : Entry) :
    settleEntry mode exits found horizons detailN ledger entry =
      horizons.foldl (Ledger.record detailN entry (prefetchedTrade mode exits found entry))
        ledger := by
  have hres : resolveEntryPrice mode found entry =
      entryPriceFrom mode (fun symbol day => found.lookup (symbol, day)) entry := rfl
  unfold settleEntry
  rw [hres]
  cases hp : entryPriceFrom mode (fun symbol day => found.lookup (symbol, day)) entry with
  | none =>
    refine List.foldl_ext _ _ _ fun ledger n _ => ?_
    simp [Ledger.record, prefetchedTrade, tradeFrom, hp]
  | some entryPrice =>
    by_cases hpos : entryPrice ≤ 0
    · simp only [hpos, if_true]
      refine List.foldl_ext _ _ _ fun ledger n _ => ?_
      simp [Ledger.record, prefetchedTrade, tradeFrom, hp, hpos]
    · simp only [hpos, if_false]
      refine List.foldl_ext _ _ _ fun ledger n _ => ?_
      cases hd : exits.lookup (entry.tradeDate, n) with
      | none => simp [settleHorizon, Ledger.record, prefetchedTrade, tradeFrom, hp, hd]
      | some exitDay =>
        cases hq : found.lookup (entry.symbol, exitDay) with
        | none => simp [settleHorizon, Ledger.record, prefetchedTrade, tradeFrom, hp, hd, hq]
        | some exitPrice =>
          simp [settleHorizon, Ledger.record, prefetchedTrade, tradeFrom, hp, hpos, hd, hq,
            Trade.row, Trade.pct]

theorem record_horizons {horizons : List Int} (hnd : horizons.Nodup) (detailN : Int)
    (entry : Entry) (trade : Int → Option Trade) (ledger : Ledger) :
    let after := horizons.foldl (Ledger.record detailN entry trade) ledger
    (∀ n, after.returns n = ledger.returns n ++
      if n ∈ horizons then ((trade n).map Trade.pct).toList else []) ∧
    (∀ n, after.missing n = ledger.missing n +
      if n ∈ horizons ∧ trade n = none then 1 else 0) ∧
    after.detail = ledger.detail ++
      if detailN ∈ horizons then ((trade detailN).map (Trade.row entry)).toList else [] := by
  induction horizons generalizing ledger with
  | nil => simp
  | cons m horizons ih =>
    obtain ⟨hm, hnd⟩ := List.nodup_cons.mp hnd
    obtain ⟨hr, hmiss, hdet⟩ := ih hnd (Ledger.record detailN entry trade ledger m)
    simp only [List.foldl_cons]
    refine ⟨fun n => ?_, fun n => ?_, ?_⟩
    · rw [hr n]
      by_cases hn : n = m
      · subst n
        cases ht : trade m <;> simp [Ledger.record, Ledger.miss, ht, hm]
      · cases ht : trade m <;> simp [Ledger.record, Ledger.miss, ht, hn]
    · rw [hmiss n]
      by_cases hn : n = m
      · subst n
        cases ht : trade m <;> simp [Ledger.record, Ledger.miss, ht, hm]
      · cases ht : trade m <;> simp [Ledger.record, Ledger.miss, ht, hn]
    · rw [hdet]
      by_cases hn : detailN = m
      · subst detailN
        cases ht : trade m <;> simp [Ledger.record, Ledger.miss, ht, hm]
      · cases ht : trade m <;> simp [Ledger.record, Ledger.miss, ht, hn, Ne.symm hn]

theorem record_entries {horizons : List Int} (hnd : horizons.Nodup) (mode : Mode)
    (exits : ExitDays) (found : ClosePrices) (detailN : Int) (entries : List Entry)
    (ledger : Ledger) :
    let after := entries.foldl (settleEntry mode exits found horizons detailN) ledger
    let trade := prefetchedTrade mode exits found
    (∀ n ∈ horizons, after.returns n =
      ledger.returns n ++ entries.filterMap fun e => (trade e n).map Trade.pct) ∧
    (∀ n ∈ horizons, after.missing n =
      ledger.missing n + entries.countP fun e => trade e n = none) ∧
    (detailN ∈ horizons → after.detail =
      ledger.detail ++ entries.filterMap fun e => (trade e detailN).map (Trade.row e)) := by
  induction entries generalizing ledger with
  | nil => simp
  | cons e entries ih =>
    obtain ⟨hr, hmiss, hdet⟩ := ih (settleEntry mode exits found horizons detailN ledger e)
    obtain ⟨hr', hmiss', hdet'⟩ := record_horizons hnd detailN e
      (prefetchedTrade mode exits found e) ledger
    simp only [List.foldl_cons]
    refine ⟨fun n hn => ?_, fun n hn => ?_, fun hn => ?_⟩
    · rw [hr n hn, settleEntry_eq_record, hr' n, if_pos hn, List.append_assoc, List.filterMap_cons]
      cases prefetchedTrade mode exits found e n <;> simp
    · rw [hmiss n hn, settleEntry_eq_record, hmiss' n, List.countP_cons]
      by_cases ht : prefetchedTrade mode exits found e n = none
      · simp [hn, ht]
        omega
      · simp [ht]
    · rw [hdet hn, settleEntry_eq_record, hdet', if_pos hn, List.append_assoc,
        List.filterMap_cons]
      cases prefetchedTrade mode exits found e detailN <;> simp

def reportedTrade (mode : Mode) (prices : PriceTable) (horizons : List Int) (entries : List Entry) :
    Entry → Int → Option Trade :=
  let exits := exitDays (listPriceTradingDays prices) (entries.map (·.tradeDate)).dedup horizons
  prefetchedTrade mode exits (loadClosePrices prices (wantedPrices mode exits horizons entries))

theorem settleAll_spec (mode : Mode) (prices : PriceTable) {horizons : List Int}
    (hnd : horizons.Nodup) (detailN : Int) (entries : List Entry) :
    let ledger := settleAll mode prices horizons detailN entries
    let trade := reportedTrade mode prices horizons entries
    (∀ n ∈ horizons, ledger.returns n = entries.filterMap fun e => (trade e n).map Trade.pct) ∧
      (∀ n ∈ horizons, ledger.missing n = entries.countP fun e => trade e n = none) ∧
      (detailN ∈ horizons →
        ledger.detail = entries.filterMap fun e => (trade e detailN).map (Trade.row e)) := by
  obtain ⟨hr, hmiss, hdet⟩ := record_entries hnd mode
    (exitDays (listPriceTradingDays prices) (entries.map (·.tradeDate)).dedup horizons)
    (loadClosePrices prices (wantedPrices mode
      (exitDays (listPriceTradingDays prices) (entries.map (·.tradeDate)).dedup horizons)
      horizons entries)) detailN entries {}
  exact ⟨fun n hn => (hr n hn).trans (List.nil_append _),
    fun n hn => (hmiss n hn).trans (Nat.zero_add _),
    fun hn => (hdet hn).trans (List.nil_append _)⟩

end StockQuant
