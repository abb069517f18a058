import Mathlib.Data.List.Induction
import StockQuant.Prices

/-! The loop of `upsert_daily_prices`: what the items of a body make of the rows that the
session has read, and the rows that they add. -/

namespace StockQuant

abbrev Bar := DailyPriceIn × ℚ

/-- The items with a close. -/
def closed (items : List DailyPriceIn) : List Bar :=
  items.filterMap fun item => item.close.map (item, ·)

def barsOf (items : List DailyPriceIn) (symbol : String) : List Bar :=
  (closed items).filter (·.1.symbol = symbol)

def draft (bars : List Bar) (row : DailyPrice) : DailyPrice :=
  bars.foldl (fun row bar => bar.1.assign bar.2 row) row

def lastText (texts : List String) (old : String) : String :=
  (texts.filter (· ≠ "")).getLast?.getD old

/-- The numbers of the last bar under the last texts that are not empty. -/
def barRow (bars : List Bar) (row : DailyPrice) : DailyPrice :=
  match bars.getLast? with
  | none => row
  | some (item, close) =>
    { row with
      name := lastText (bars.map (·.1.name)) row.name
      marketCode := lastText (bars.map (·.1.marketCode)) row.marketCode
      «open» := item.open
      high := item.high
      low := item.low
      close
      volume := item.volume }

@[simp] theorem closed_snoc (items : List DailyPriceIn) (item : DailyPriceIn) :
    closed (items ++ [item]) = closed items ++ (item.close.map (item, ·)).toList := by
  unfold closed
  rw [List.filterMap_append]
  cases hclose : item.close <;> simp [hclose]

theorem draft_snoc (bars : List Bar) (bar : Bar) (row : DailyPrice) :
    draft (bars ++ [bar]) row = bar.1.assign bar.2 (draft bars row) := by
  simp [draft]

theorem draft_key (bars : List Bar) (row : DailyPrice) : (draft bars row).key = row.key := by
  induction bars using List.reverseRecOn with
  | nil => rfl
  | append_singleton bars bar ih => rw [draft_snoc, ← ih]; rfl

theorem draft_symbol (bars : List Bar) (row : DailyPrice) :
    (draft bars row).symbol = row.symbol := congrArg Prod.snd (draft_key bars row)

theorem lastText_snoc (texts : List String) (s old : String) :
    lastText (texts ++ [s]) old = if s ≠ "" then s else lastText texts old := by
  unfold lastText
  rw [List.filter_append]
  by_cases hs : s = "" <;> simp [hs]

theorem draft_texts (bars : List Bar) (row : DailyPrice) :
    (draft bars row).name = lastText (bars.map (·.1.name)) row.name ∧
      (draft bars row).marketCode = lastText (bars.map (·.1.marketCode)) row.marketCode := by
  induction bars using List.reverseRecOn with
  | nil => exact ⟨rfl, rfl⟩
  | append_singleton bars bar ih =>
    obtain ⟨hname, hcode⟩ := ih
    rw [draft_snoc, List.map_append, List.map_append, List.map_singleton, List.map_singleton,
      lastText_snoc, lastText_snoc, ← hname, ← hcode]
    exact ⟨rfl, rfl⟩

theorem draft_eq_barRow (bars : List Bar) (row : DailyPrice) : draft bars row = barRow bars row := by
  induction bars using List.reverseRecOn with
  | nil => rfl
  | append_singleton bars bar _ =>
    obtain ⟨hname, hcode⟩ := draft_texts (bars ++ [bar]) row
    obtain ⟨hdate, hsymbol⟩ := Prod.mk.inj (draft_key (bars ++ [bar]) row)
    have hlast : (bars ++ [bar]).getLast? = some bar := List.getLast?_concat
    unfold barRow
    rw [hlast]
    dsimp only
    rw [← hname, ← hcode, ← hdate, ← hsymbol, draft_snoc]
    rfl

def newBars (loaded : List DailyPrice) (items : List DailyPriceIn) : List Bar :=
  (closed items).filter (·.1.symbol ∉ loaded.map (·.symbol))

theorem length_newBars_le (loaded : List DailyPrice) (items : List DailyPriceIn) :
    (newBars loaded items).length ≤ (closed items).length := List.length_filter_le _ _

def loopOf (tradeDate : Date) (loaded : List DailyPrice) (items : List DailyPriceIn) :
    PriceUpsert where
  existing := loaded.map fun row => draft (barsOf items row.symbol) row
  added := (newBars loaded items).map fun bar =>
    bar.1.assign bar.2 (newDailyPrice tradeDate bar.1.symbol)
  inserted := (newBars loaded items).length
  updated := (closed items).length - (newBars loaded items).length

theorem any_existing (tradeDate : Date) (loaded : List DailyPrice) (items : List DailyPriceIn)
    (symbol : String) :
    (loopOf tradeDate loaded items).existing.any (·.symbol = symbol) =
      decide (symbol ∈ loaded.map (·.symbol)) := by
  unfold loopOf
  rw [List.any_map, Bool.eq_iff_iff]
  simp [draft_symbol]

theorem upsertItem_loopOf (tradeDate : Date) (loaded : List DailyPrice)
    (items : List DailyPriceIn) (item : DailyPriceIn) :
    upsertItem tradeDate (loopOf tradeDate loaded items) item =
      loopOf tradeDate loaded (items ++ [item]) := by
  unfold upsertItem
  rw [any_existing]
  cases hclose : item.close with
  | none =>
    have hsame : closed (items ++ [item]) = closed items := by simp [hclose]
    simp only [loopOf, newBars, barsOf, hsame]
  | some close =>
    have hmore : closed (items ++ [item]) = closed items ++ [(item, close)] := by simp [hclose]
    have hbars (symbol : String) : barsOf (items ++ [item]) symbol =
        barsOf items symbol ++ if item.symbol = symbol then [(item, close)] else [] := by
      unfold barsOf
      rw [hmore, List.filter_append]
      by_cases hs : item.symbol = symbol <;> simp [hs]
    have hlength := length_newBars_le loaded items
    by_cases hin : item.symbol ∈ loaded.map (·.symbol)
    · have hnew : newBars loaded (items ++ [item]) = newBars loaded items := by
        unfold newBars
        rw [hmore, List.filter_append]
        simpa using hin
      simp only [hin, decide_true, if_true]
      simp only [loopOf, hnew, hmore, List.length_append, List.length_singleton, List.map_map]
      refine congrArg₂ (fun existing updated => PriceUpsert.mk existing _ _ updated) ?_ (by omega)
      refine List.map_congr_left fun row _ => ?_
      dsimp only [Function.comp_apply]
      rw [hbars, draft_symbol]
      by_cases hs : row.symbol = item.symbol
      · rw [if_pos hs, if_pos hs.symm, draft_snoc]
      · rw [if_neg hs, if_neg (Ne.symm hs), List.append_nil]
    · have hnew : newBars loaded (items ++ [item]) = newBars loaded items ++ [(item, close)] := by
        unfold newBars
        rw [hmore, List.filter_append]
        simpa using hin
      simp only [hin, decide_false, Bool.false_eq_true, if_false]
      simp only [loopOf, hnew, hmore, List.length_append, List.length_singleton, List.map_append,
        List.map_singleton]
      refine congrArg₂ (fun existing updated => PriceUpsert.mk existing _ _ updated) ?_ (by omega)
      refine List.map_congr_left fun row hrow => ?_
      have hs : item.symbol ≠ row.symbol := fun hs => hin (List.mem_map.mpr ⟨row, hrow, hs.symm⟩)
      rw [hbars, if_neg hs, List.append_nil]

theorem foldl_upsertItem (tradeDate : Date) (loaded : List DailyPrice)
    (items : List DailyPriceIn) :
    items.foldl (upsertItem tradeDate) { existing := loaded } = loopOf tradeDate loaded items := by
  induction items using List.reverseRecOn with
  | nil => simp [loopOf, closed, newBars, barsOf, draft]
  | append_singleton items item ih =>
    rw [List.foldl_append, ih, List.foldl_cons, List.foldl_nil, upsertItem_loopOf]

end StockQuant
