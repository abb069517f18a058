import StockQuant.BacktestReference

/-! The tables prefetched for the main loop hold what it asks of them. -/

namespace StockQuant

open Prefetch

theorem tradeFrom_congr {mode : Mode} {exit exit' : Date → Int → Option Date}
    {quote quote' : String → Date → Option ℚ} {entry : Entry} {n : Int}
    (hprice : entryPriceFrom mode quote entry = entryPriceFrom mode quote' entry)
    (hexit : exit entry.tradeDate n = exit' entry.tradeDate n)
    (hquote : ∀ d, exit' entry.tradeDate n = some d →
      quote entry.symbol d = quote' entry.symbol d) :
    tradeFrom mode exit quote entry n = tradeFrom mode exit' quote' entry n := by
  unfold tradeFrom
  rw [hprice, hexit]
  cases hd : exit' entry.tradeDate n with
  | none => rfl
  | some d => simp [hquote d hd]

theorem answers_addExitDay {calendar : List Date} {exits : ExitDays} {asked : Date × Int → Prop}
    (h : Answers (fun k => nthTradingDay calendar k.1 k.2) exits asked) (day : Date) (n : Int) :
    Answers (fun k => nthTradingDay calendar k.1 k.2) (addExitDay calendar day exits n)
      (fun k => asked k ∨ k = (day, n)) := by
  unfold addExitDay
  cases hd : nthTradingDay calendar day n with
  | none => exact h.skip hd
  | some target => exact h.insert hd

theorem answers_exitDays (calendar days : List Date) (horizons : List Int) :
    Answers (fun k => nthTradingDay calendar k.1 k.2) (exitDays calendar days horizons)
      (fun k => k.1 ∈ days ∧ k.2 ∈ horizons) := by
  refine ((answers_empty _).foldl _ days fun day _ _ _ h =>
    h.foldl _ horizons fun n _ _ _ h => answers_addExitDay h day n).congr fun k _ => ?_
  obtain ⟨day, n⟩ := k
  simp [and_comm]

theorem wants_addWanted {symbol s : String} {wanted : WantedPrices} {d day : Date} :
    Wants (addWanted s wanted d) symbol day ↔
      Wants wanted symbol day ∨ (symbol = s ∧ day = d) := by
  unfold Wants addWanted
  by_cases hd : day = d
  · subst hd
    simp [AList.lookup_insert, or_comm]
  · simp [AList.lookup_insert_ne hd, hd]

def Asks (mode : Mode) (exits : ExitDays) (horizons : List Int) (symbol : String) (day : Date)
    (entry : Entry) : Prop :=
  symbol = entry.symbol ∧
    ((∃ n ∈ horizons, exits.lookup (entry.tradeDate, n) = some day) ∨
      (mode = .closeToClose ∧ entry.entryPrice = none ∧ day = entry.tradeDate))

theorem wants_wantExit {exits : ExitDays} {entry : Entry} {wanted : WantedPrices} {n : Int}
    {symbol : String} {day : Date} :
    Wants (wantExit exits entry wanted n) symbol day ↔
      Wants wanted symbol day ∨
        (symbol = entry.symbol ∧ exits.lookup (entry.tradeDate, n) = some day) := by
  unfold wantExit
  cases hd : exits.lookup (entry.tradeDate, n) with
  | none => simp
  | some d => simp [wants_addWanted, eq_comm]

theorem wants_wantEntry {mode : Mode} {exits : ExitDays} {horizons : List Int}
    {wanted : WantedPrices} {entry : Entry} {symbol : String} {day : Date} :
    Wants (wantEntry mode exits horizons wanted entry) symbol day ↔
      Wants wanted symbol day ∨ Asks mode exits horizons symbol day entry := by
  have hexit := foldl_iff_exists (wantExit exits entry) (Wants · symbol day)
    (fun _ _ => wants_wantExit) horizons wanted
  unfold wantEntry Asks
  dsimp only
  split_ifs with hfallback
  · rw [wants_addWanted, hexit]
    grind
  · rw [hexit]
    grind

theorem wants_wantedPrices {mode : Mode} {exits : ExitDays} {horizons : List Int}
    {entries : List Entry} {symbol : String} {day : Date} :
    Wants (wantedPrices mode exits horizons entries) symbol day ↔
      ∃ entry ∈ entries, Asks mode exits horizons symbol day entry := by
  have hnone : ¬ Wants ∅ symbol day := by simp [Wants]
  have hall := foldl_iff_exists (wantEntry mode exits horizons) (Wants · symbol day)
    (fun _ _ => wants_wantEntry) entries ∅
  rwa [or_iff_right hnone] at hall

/-- The stored close of a symbol that is not empty. -/
def quoteOf (prices : PriceTable) (symbol : String) (day : Date) : Option ℚ :=
  if symbol = "" then none else closeOn prices symbol day

theorem lookup_loadClosePrices {prices : PriceTable} {wanted : WantedPrices} {symbol : String}
    {day : Date} (h : Wants wanted symbol day) :
    (loadClosePrices prices wanted).lookup (symbol, day) = quoteOf prices symbol day := by
  refine Option.ext fun close => ?_
  rw [answers_loadClosePrices prices wanted (symbol, day) close]
  unfold quoteOf
  by_cases hs : symbol = ""
  · simp [hs]
  · simp [hs, h]

theorem reportedTrade_eq {mode : Mode} {prices : PriceTable} {horizons : List Int}
    {entries : List Entry} {entry : Entry} {n : Int} (he : entry ∈ entries) (hn : n ∈ horizons) :
    reportedTrade mode prices horizons entries entry n =
      tradeFrom mode (nthTradingDay (listPriceTradingDays prices)) (quoteOf prices) entry n := by
  have hexit : (exitDays (listPriceTradingDays prices) (entries.map (·.tradeDate)).dedup
      horizons).lookup (entry.tradeDate, n) =
      nthTradingDay (listPriceTradingDays prices) entry.tradeDate n :=
    (answers_exitDays (listPriceTradingDays prices) _ horizons).lookup_eq
      ⟨List.mem_dedup.mpr (List.mem_map.mpr ⟨entry, he, rfl⟩), hn⟩
  unfold reportedTrade prefetchedTrade
  refine tradeFrom_congr ?_ hexit fun d hd => ?_
  · unfold entryPriceFrom
    split_ifs with hfallback
    · refine lookup_loadClosePrices (wants_wantedPrices.mpr ⟨entry, he, rfl, ?_⟩)
      exact Or.inr ⟨hfallback.2, hfallback.1, rfl⟩
    · rfl
  · refine lookup_loadClosePrices (wants_wantedPrices.mpr ⟨entry, he, rfl, ?_⟩)
    exact Or.inl ⟨n, hn, hexit.trans hd⟩

end StockQuant
