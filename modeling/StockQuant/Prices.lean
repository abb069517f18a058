import Mathlib.Data.String.Basic
import StockQuant.Models
import StockQuant.Prefetch
import StockQuant.SortedList

/-! The daily price table: uploads, the trading calendar it implies, and the
chunked lookup of closing prices. -/

namespace StockQuant

open KeyedTable Prefetch

structure DailyPriceIn where
  symbol : String
  name : String := ""
  marketCode : String := ""
  «open» : Option ℚ := none
  high : Option ℚ := none
  low : Option ℚ := none
  close : Option ℚ := none
  volume : Option Int := none
  deriving DecidableEq

structure DailyPricesIngestBody where
  tradeDate : Date
  source : String := ""
  items : List DailyPriceIn := []
  deriving DecidableEq

def DailyPriceIn.assign (item : DailyPriceIn) (close : ℚ) (row : DailyPrice) : DailyPrice :=
  { row with
    name := if item.name ≠ "" then item.name else row.name
    marketCode := if item.marketCode ≠ "" then item.marketCode else row.marketCode
    «open» := item.open
    high := item.high
    low := item.low
    close := close
    volume := item.volume }

def newDailyPrice (tradeDate : Date) (symbol : String) : DailyPrice :=
  { tradeDate, symbol, close := 0 }

def DailyPrice.flush (row : DailyPrice) : Option DailyPrice := do
  let symbol ← varchar 16 row.symbol
  let name ← text row.name
  let marketCode ← text row.marketCode
  let «open» ← row.open.mapM (numeric 12 4)
  let high ← row.high.mapM (numeric 12 4)
  let low ← row.low.mapM (numeric 12 4)
  let close ← numeric 12 4 row.close
  let volume ← row.volume.mapM (integer 64)
  some { row with symbol, name, marketCode, «open», high, low, close, volume }

/-- The loop state of an upload: the day's stored rows as the session has
changed them, and the rows it has added. -/
structure PriceUpsert where
  existing : List DailyPrice
  added : List DailyPrice := []
  inserted : Nat := 0
  updated : Nat := 0

def upsertItem (tradeDate : Date) (acc : PriceUpsert) (item : DailyPriceIn) : PriceUpsert :=
  match item.close with
  | none => acc
  | some close =>
    if acc.existing.any (·.symbol = item.symbol) then
      { acc with
        existing := acc.existing.map fun row =>
          if row.symbol = item.symbol then item.assign close row else row
        updated := acc.updated + 1 }
    else
      -- The new row is not entered in `existing`, so a repeated symbol adds a second row.
      { acc with
        added := acc.added ++ [item.assign close (newDailyPrice tradeDate item.symbol)]
        inserted := acc.inserted + 1 }

def flushStored (drafts : List DailyPrice) (row : DailyPrice) : Option DailyPrice :=
  match drafts.find? (·.key = row.key) with
  | none => some row
  | some draft => if draft = row then some row else draft.flush

/-- `none` is a database error, which leaves the table as it was. -/
def upsertDailyPrices (prices : PriceTable) (body : DailyPricesIngestBody) :
    Option (PriceTable × Nat × Nat) := do
  let stored := prices.rows.filter (·.tradeDate = body.tradeDate)
  let acc := body.items.foldl (upsertItem body.tradeDate) { existing := stored }
  let rows ← prices.rows.mapM (flushStored acc.existing)
  let added ← acc.added.mapM DailyPrice.flush
  let prices : PriceTable ← Table.ofRows? (rows ++ added)
  some (prices, acc.inserted, acc.updated)

def listPriceTradingDays (prices : PriceTable) : List Date :=
  SortedList.distinct (prices.rows.map (·.tradeDate))

theorem listPriceTradingDays_pairwise (prices : PriceTable) :
    (listPriceTradingDays prices).Pairwise (· < ·) := SortedList.distinct_pairwise _

theorem mem_listPriceTradingDays {prices : PriceTable} {day : Date} :
    day ∈ listPriceTradingDays prices ↔ ∃ row ∈ prices.rows, row.tradeDate = day := by
  simp [listPriceTradingDays, SortedList.mem_distinct]

def closeOn (prices : PriceTable) (symbol : String) (day : Date) : Option ℚ :=
  (prices.get? (day, symbol)).map (·.close)

theorem closeOn_eq_some_iff {prices : PriceTable} {symbol : String} {day : Date} {close : ℚ} :
    closeOn prices symbol day = some close ↔
      ∃ row ∈ prices.rows, row.tradeDate = day ∧ row.symbol = symbol ∧ row.close = close := by
  simp only [closeOn, Option.map_eq_some_iff, Table.get?_eq_some_iff, DailyPrice.key,
    Prod.mk.injEq, and_assoc]

def symbolChunk : Nat := 500

def slices {α : Type} (size : Nat) (l : List α) : List (List α) :=
  (List.range' 0 ((l.length + size - 1) / size) size).map fun i => (l.drop i).take size

theorem mem_slices {α : Type} {size : Nat} (hsize : 0 < size) (l : List α) (x : α) :
    (∃ slice ∈ slices size l, x ∈ slice) ↔ x ∈ l := by
  constructor
  · rintro ⟨slice, hs, hx⟩
    obtain ⟨i, _, rfl⟩ := List.mem_map.mp hs
    exact List.mem_of_mem_drop (List.mem_of_mem_take hx)
  · intro hx
    obtain ⟨j, hj, rfl⟩ := List.getElem_of_mem hx
    have hdm := Nat.div_add_mod j size
    have hlt := Nat.mod_lt j hsize
    refine ⟨(l.drop (size * (j / size))).take size,
      List.mem_map.mpr ⟨size * (j / size), List.mem_range'.mpr ⟨j / size, ?_, by simp⟩, rfl⟩, ?_⟩
    · have hceil := Nat.div_add_mod (l.length + size - 1) size
      have hrest := Nat.mod_lt (l.length + size - 1) hsize
      rw [Nat.div_lt_iff_lt_mul hsize, Nat.mul_comm]
      omega
    · refine List.mem_iff_getElem.mpr ⟨j % size, by simp; omega, ?_⟩
      simp [hdm]

abbrev ClosePrices := AList (fun _ : String × Date => ℚ)

def loadChunk (prices : PriceTable) (tradeDate : Date) (out : ClosePrices) (chunk : List String) :
    ClosePrices :=
  (prices.rows.filter fun row => row.tradeDate = tradeDate ∧ row.symbol ∈ chunk).foldl
    (fun out row => out.insert (row.symbol, tradeDate) row.close) out

def loadDate (prices : PriceTable) (out : ClosePrices) (wanted : Date × List String) :
    ClosePrices :=
  let unique := SortedList.distinct (wanted.2.filter (· ≠ ""))
  (slices symbolChunk unique).foldl (loadChunk prices wanted.1) out

abbrev WantedPrices := AList (fun _ : Date => List String)

def loadClosePrices (prices : PriceTable) (wanted : WantedPrices) : ClosePrices :=
  wanted.entries.foldl (fun out pair => loadDate prices out (pair.1, pair.2)) ∅

abbrev closeOf (prices : PriceTable) (pair : String × Date) : Option ℚ :=
  closeOn prices pair.1 pair.2

def Wants (wanted : WantedPrices) (symbol : String) (day : Date) : Prop :=
  symbol ∈ (wanted.lookup day).getD []

-- The same loop for any chunk size and any order in which the database answers a statement, with
-- the statements that it sends.
abbrev CloseQuery := Date × List String

def loadChunkBy (fetch : Date → List String → List DailyPrice) (tradeDate : Date)
    (acc : ClosePrices × List CloseQuery) (chunk : List String) : ClosePrices × List CloseQuery :=
  ((fetch tradeDate chunk).foldl (fun out row => out.insert (row.symbol, tradeDate) row.close)
      acc.1,
    acc.2 ++ [(tradeDate, chunk)])

def loadDateBy (fetch : Date → List String → List DailyPrice) (size : Nat)
    (acc : ClosePrices × List CloseQuery) (wanted : Date × List String) :
    ClosePrices × List CloseQuery :=
  let unique := SortedList.distinct (wanted.2.filter (· ≠ ""))
  (slices size unique).foldl (loadChunkBy fetch wanted.1) acc

def loadClosePricesBy (fetch : Date → List String → List DailyPrice) (size : Nat)
    (wanted : WantedPrices) : ClosePrices × List CloseQuery :=
  wanted.entries.foldl (fun acc pair => loadDateBy fetch size acc (pair.1, pair.2)) (∅, [])

def matching (prices : PriceTable) (tradeDate : Date) (chunk : List String) : List DailyPrice :=
  prices.rows.filter fun row => row.tradeDate = tradeDate ∧ row.symbol ∈ chunk

/-- A statement answers with the rows that match it, in whatever order. -/
def Fetches (prices : PriceTable) (fetch : Date → List String → List DailyPrice) : Prop :=
  ∀ tradeDate chunk, (fetch tradeDate chunk).Perm (matching prices tradeDate chunk)

theorem fetches_matching (prices : PriceTable) : Fetches prices (matching prices) :=
  fun _ _ => List.Perm.refl _

theorem loadClosePricesBy_matching (prices : PriceTable) (wanted : WantedPrices) :
    (loadClosePricesBy (matching prices) symbolChunk wanted).1 = loadClosePrices prices wanted := by
  have hdate (acc : ClosePrices × List CloseQuery) (pair : Date × List String) :
      loadDate prices acc.1 pair = (loadDateBy (matching prices) symbolChunk acc pair).1 :=
    List.foldl_hom Prod.fst fun _ _ => rfl
  exact (List.foldl_hom Prod.fst fun acc pair => hdate acc (pair.1, pair.2)).symm

section Fetch

variable {prices : PriceTable} {fetch : Date → List String → List DailyPrice}
  (hfetch : Fetches prices fetch) {acc : ClosePrices × List CloseQuery}
  {asked : String × Date → Prop}
include hfetch

theorem mem_fetch {tradeDate : Date} {chunk : List String} {row : DailyPrice} :
    row ∈ fetch tradeDate chunk ↔
      row ∈ prices.rows ∧ row.tradeDate = tradeDate ∧ row.symbol ∈ chunk := by
  rw [(hfetch tradeDate chunk).mem_iff, matching, List.mem_filter, decide_eq_true_iff]

theorem answers_loadChunkBy (h : Answers (closeOf prices) acc.1 asked) (tradeDate : Date)
    (chunk : List String) :
    Answers (closeOf prices) (loadChunkBy fetch tradeDate acc chunk).1
      (fun pair => asked pair ∨ (pair.2 = tradeDate ∧ pair.1 ∈ chunk)) := by
  refine (h.foldl (fun row pair => pair = (row.symbol, row.tradeDate)) _
    fun row hr out asked h => ?_).congr fun pair hsome => ?_
  · obtain ⟨hrow, hday, -⟩ := (mem_fetch hfetch).mp hr
    have hclose : closeOf prices (row.symbol, tradeDate) = some row.close :=
      closeOn_eq_some_iff.mpr ⟨row, hrow, hday, rfl, rfl⟩
    simpa only [hday] using h.insert hclose
  · obtain ⟨symbol, day⟩ := pair
    obtain ⟨close, hc⟩ := Option.isSome_iff_exists.mp hsome
    obtain ⟨row, hrow, hday, hsym, _⟩ := closeOn_eq_some_iff.mp hc
    refine or_congr_right ⟨?_, ?_⟩
    · rintro ⟨r, hr, heq⟩
      obtain ⟨rfl, rfl⟩ := Prod.mk.inj heq
      exact ((mem_fetch hfetch).mp hr).2
    · rintro ⟨hd, hm⟩
      have hd : day = tradeDate := hd
      have hm : symbol ∈ chunk := hm
      refine ⟨row, (mem_fetch hfetch).mpr ⟨hrow, hday.trans hd, ?_⟩, Prod.ext hsym.symm hday.symm⟩
      rwa [hsym]

theorem answers_loadDateBy {size : Nat} (hsize : 0 < size)
    (h : Answers (closeOf prices) acc.1 asked) (wanted : Date × List String) :
    Answers (closeOf prices) (loadDateBy fetch size acc wanted).1
      (fun pair => asked pair ∨ (pair.2 = wanted.1 ∧ pair.1 ≠ "" ∧ pair.1 ∈ wanted.2)) := by
  refine (Answers.foldl_view Prod.fst _ _
    (fun chunk _ _ _ h => answers_loadChunkBy hfetch h wanted.1 chunk) h).congr
    fun pair _ => or_congr_right ?_
  have hm := mem_slices hsize (SortedList.distinct (wanted.2.filter (· ≠ ""))) pair.1
  rw [SortedList.mem_distinct, List.mem_filter, decide_eq_true_eq] at hm
  rw [← and_comm (a := pair.1 ∈ wanted.2), ← hm]
  constructor
  · rintro ⟨chunk, hc, hday, hs⟩
    exact ⟨hday, chunk, hc, hs⟩
  · rintro ⟨hday, chunk, hc, hs⟩
    exact ⟨chunk, hc, hday, hs⟩

/-- The lookup returns the stored close of every pair asked for with a symbol
that is not empty, and nothing else. -/
theorem answers_loadClosePricesBy {size : Nat} (hsize : 0 < size) (wanted : WantedPrices) :
    Answers (closeOf prices) (loadClosePricesBy fetch size wanted).1
      (fun pair => pair.1 ≠ "" ∧ Wants wanted pair.1 pair.2) := by
  refine (Answers.foldl_view Prod.fst _ wanted.entries
    (fun entry _ _ _ h => answers_loadDateBy hfetch hsize h (entry.1, entry.2))
    (answers_empty (closeOf prices))).congr fun pair _ => ?_
  obtain ⟨symbol, day⟩ := pair
  rw [false_or]
  constructor
  · rintro ⟨⟨d, symbols⟩, hm, hd, hne, hs⟩
    obtain rfl : day = d := hd
    have hl : wanted.lookup day = some symbols := AList.mem_lookup_iff.mpr hm
    refine ⟨hne, ?_⟩
    simpa [Wants, hl] using hs
  · rintro ⟨hne, hs⟩
    unfold Wants at hs
    cases hl : wanted.lookup day with
    | none => simp [hl] at hs
    | some symbols =>
      rw [hl, Option.getD_some] at hs
      exact ⟨⟨day, symbols⟩, AList.mem_lookup_iff.mp hl, rfl, hne, hs⟩

end Fetch

theorem answers_loadClosePrices (prices : PriceTable) (wanted : WantedPrices) :
    Answers (closeOf prices) (loadClosePrices prices wanted)
      (fun pair => pair.1 ≠ "" ∧ Wants wanted pair.1 pair.2) := by
  rw [← loadClosePricesBy_matching]
  exact answers_loadClosePricesBy (fetches_matching prices) (by decide) wanted

end StockQuant
