import StockQuant.Prices

/-! The chunked lookup of closing prices: what it returns and the statements that it sends, for
any chunk size and in whatever order the database answers. -/

namespace StockQuant

open KeyedTable Prefetch

theorem length_of_mem_slices {α : Type} {size : Nat} {l slice : List α}
    (h : slice ∈ slices size l) : slice.length ≤ size := by
  obtain ⟨i, -, rfl⟩ := List.mem_map.mp h
  exact List.length_take_le size _

theorem foldl_sent {σ α β : Type} {step : σ × List β → α → σ × List β} {sends : α → List β}
    (hstep : ∀ acc x, (step acc x).2 = acc.2 ++ sends x) (l : List α) (acc : σ × List β) :
    (l.foldl step acc).2 = acc.2 ++ l.flatMap sends := by
  induction l generalizing acc with
  | nil => simp
  | cons x l ih => rw [List.foldl_cons, ih, hstep, List.append_assoc, List.flatMap_cons]

/-- Each date sends one statement for each slice of its symbols. -/
theorem loadClosePricesBy_queries (fetch : Date → List String → List DailyPrice) (size : Nat)
    (wanted : WantedPrices) :
    (loadClosePricesBy fetch size wanted).2 = wanted.entries.flatMap fun pair =>
      (slices size (SortedList.distinct (pair.2.filter (· ≠ "")))).flatMap
        fun chunk => [(pair.1, chunk)] := by
  have hdate (acc : ClosePrices × List CloseQuery) (pair : (_ : Date) × List String) :
      (loadDateBy fetch size acc (pair.1, pair.2)).2 = acc.2 ++
        (slices size (SortedList.distinct (pair.2.filter (· ≠ "")))).flatMap
          fun chunk => [(pair.1, chunk)] :=
    foldl_sent (fun _ _ => rfl) _ acc
  exact (foldl_sent hdate wanted.entries (∅, [])).trans (List.nil_append _)

theorem loadClosePricesBy_exact {prices : PriceTable}
    {fetch : Date → List String → List DailyPrice} (hfetch : Fetches prices fetch) {size : Nat}
    (hsize : 0 < size) (wanted : WantedPrices) :
    let result := loadClosePricesBy fetch size wanted
    (∀ symbol day close, ⟨(symbol, day), close⟩ ∈ result.1.entries ↔
      symbol ≠ "" ∧ Wants wanted symbol day ∧ closeOn prices symbol day = some close) ∧
    result.1.keys.Nodup ∧
    (∀ query ∈ result.2, query.2.length ≤ size) ∧
    ∀ fetch' size' wanted', Fetches prices fetch' → 0 < size' →
      (∀ symbol day, symbol ≠ "" → (Wants wanted symbol day ↔ Wants wanted' symbol day)) →
      result.1.entries.Perm (loadClosePricesBy fetch' size' wanted').1.entries := by
  have hanswers := answers_loadClosePricesBy hfetch hsize wanted
  refine ⟨fun symbol day close => ?_, AList.keys_nodup _, fun query hquery => ?_, ?_⟩
  · rw [← AList.mem_lookup_iff, Option.mem_def, hanswers (symbol, day) close, and_assoc]
  · rw [loadClosePricesBy_queries, List.mem_flatMap] at hquery
    obtain ⟨pair, -, hquery⟩ := hquery
    obtain ⟨slice, hslice, hquery⟩ := List.mem_flatMap.mp hquery
    rw [List.mem_singleton.mp hquery]
    exact length_of_mem_slices hslice
  · intro fetch' size' wanted' hfetch' hsize' hwanted
    have hanswers' := answers_loadClosePricesBy hfetch' hsize' wanted'
    refine List.lookup_ext (AList.nodupKeys _) (AList.nodupKeys _) fun pair close => ?_
    refine (hanswers pair close).trans (Iff.trans ?_ (hanswers' pair close).symm)
    exact and_congr_left fun _ => and_congr_right fun hne => hwanted pair.1 pair.2 hne

/-- One stored close, asked for twice beside an empty symbol. -/
theorem loadClosePricesBy_exact_one :
    let prices : PriceTable :=
      { rows := [{ tradeDate := 1, symbol := "2330", close := 600 }], nodup := by decide }
    let wanted : WantedPrices := AList.insert 1 ["2330", "", "2330", "2317"] ∅
    let result := loadClosePricesBy (matching prices) 1 wanted
    (∀ symbol day close, ⟨(symbol, day), close⟩ ∈ result.1.entries ↔
      symbol ≠ "" ∧ Wants wanted symbol day ∧ closeOn prices symbol day = some close) ∧
    result.1.keys.Nodup ∧
    (∀ query ∈ result.2, query.2.length ≤ 1) ∧
    ∀ fetch' size' wanted', Fetches prices fetch' → 0 < size' →
      (∀ symbol day, symbol ≠ "" → (Wants wanted symbol day ↔ Wants wanted' symbol day)) →
      result.1.entries.Perm (loadClosePricesBy fetch' size' wanted').1.entries :=
  loadClosePricesBy_exact (fetches_matching _) Nat.one_pos _

end StockQuant
