import StockQuant.PriceOrder
import StockQuant.SnapshotRuns

/-! Runs of both ingest endpoints from empty tables, and where the closes that are stored
come from. -/

namespace StockQuant

open KeyedTable

inductive MarketIngest where
  | snapshot (r : Ingest)
  | prices (body : DailyPricesIngestBody)

structure MarketTables where
  store : SnapshotStore := emptySnapshots
  prices : PriceTable := ∅

def MarketTables.ingest (tables : MarketTables) : MarketIngest → MarketTables
  | .snapshot r => { tables with store := (ingestSnapshot r tables.store).1 }
  | .prices body => { tables with prices := uploadPrices tables.prices body }

def runMarket (ingests : List MarketIngest) : MarketTables := ingests.foldl MarketTables.ingest {}

theorem runMarket_snoc (ingests : List MarketIngest) (r : MarketIngest) :
    runMarket (ingests ++ [r]) = (runMarket ingests).ingest r := by
  simp [runMarket]

/-- The body brought the close of the row, as the column rounds it. -/
def Brings (body : DailyPricesIngestBody) (row : DailyPrice) : Prop :=
  ∃ item ∈ body.items, ∃ close, item.close = some close ∧ item.symbol = row.symbol ∧
    body.tradeDate = row.tradeDate ∧ numeric 12 4 close = some row.close

theorem brings_of_upsert {prices prices' : PriceTable} {body : DailyPricesIngestBody}
    {inserted updated : Nat} (hstored : PricesStored prices)
    (h : upsertDailyPrices prices body = some (prices', inserted, updated)) {row : DailyPrice}
    (hrow : row ∈ prices'.rows) : row ∈ prices.rows ∨ Brings body row := by
  have huploaded := uploaded_of_upsert hstored h
  by_cases hkept : row.tradeDate = body.tradeDate → barsOf body.items row.symbol = []
  · have hsame := huploaded.kept row.key hkept
    rw [Table.get?_of_mem hrow] at hsame
    exact Or.inl (Table.get?_eq_some_iff.mp hsame.symm).1
  · obtain ⟨hday, hbars⟩ := Classical.not_imp.mp hkept
    obtain ⟨bars, ⟨item, close⟩, hlast⟩ := (List.eq_nil_or_concat _).resolve_left hbars
    rw [List.concat_eq_append] at hlast
    obtain ⟨carried, hget, hcarries⟩ := huploaded.carried row.symbol bars item close hlast
    rw [← hday, show (row.tradeDate, row.symbol) = row.key from rfl, Table.get?_of_mem hrow] at hget
    obtain rfl := Option.some.inj hget
    have hbar : (item, close) ∈ barsOf body.items row.symbol := by simp [hlast]
    obtain ⟨hclosed, hsymbol⟩ := List.mem_filter.mp hbar
    obtain ⟨item', hitem', hclose⟩ := List.mem_filterMap.mp hclosed
    obtain ⟨close', hclose', heq⟩ := Option.map_eq_some_iff.mp hclose
    obtain ⟨rfl, rfl⟩ := Prod.mk.inj heq
    exact Or.inr ⟨item', hitem', close', hclose', of_decide_eq_true hsymbol, hday.symm,
      hcarries.close⟩

theorem brings_of_upload {prices : PriceTable} {body : DailyPricesIngestBody}
    (hstored : PricesStored prices) {row : DailyPrice}
    (hrow : row ∈ (uploadPrices prices body).rows) : row ∈ prices.rows ∨ Brings body row := by
  rw [uploadPrices_eq] at hrow
  cases h : upsertDailyPrices prices body with
  | none =>
    rw [h] at hrow
    exact Or.inl hrow
  | some uploaded =>
    rw [h] at hrow
    exact brings_of_upsert hstored h hrow

/-- The stored prices are such as the columns hold, and each close was uploaded. -/
structure Sourced (ingests : List MarketIngest) (prices : PriceTable) : Prop where
  stored : PricesStored prices
  brought : ∀ row ∈ prices.rows, ∃ body, MarketIngest.prices body ∈ ingests ∧ Brings body row

theorem runMarket_sourced (ingests : List MarketIngest) :
    Sourced ingests (runMarket ingests).prices := by
  induction ingests using List.reverseRecOn with
  | nil => exact ⟨fun row hrow => absurd hrow List.not_mem_nil,
      fun row hrow => absurd hrow List.not_mem_nil⟩
  | append_singleton ingests r ih =>
    rw [runMarket_snoc]
    have hkeep : Sourced (ingests ++ [r]) (runMarket ingests).prices :=
      ⟨ih.stored, fun row hrow =>
        (ih.brought row hrow).imp fun body h => ⟨List.mem_append_left _ h.1, h.2⟩⟩
    cases r with
    | snapshot r => exact hkeep
    | prices body =>
      refine ⟨uploadPrices_stored ih.stored body, fun row hrow => ?_⟩
      rcases brings_of_upload ih.stored hrow with hold | hbrings
      · exact hkeep.brought row hold
      · exact ⟨body, List.mem_append_right _ (List.mem_singleton_self _), hbrings⟩

end StockQuant
