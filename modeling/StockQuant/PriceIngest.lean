import StockQuant.PriceCommit

/-! One upload of prices on its own: when it goes through, and what it leaves. -/

namespace StockQuant

open KeyedTable

structure DailyPricesIngestResult where
  tradeDate : Date
  received : Int
  inserted : Int
  updated : Int
  skipped : Int
  deriving DecidableEq

def ingestPrices (prices : PriceTable) (body : DailyPricesIngestBody) :
    Option (PriceTable × DailyPricesIngestResult) := do
  let (prices, inserted, updated) ← upsertDailyPrices prices body
  let received : Int := body.items.length
  some (prices,
    { tradeDate := body.tradeDate, received, inserted, updated,
      skipped := received - inserted - updated })

/-- The rows are such as the columns hold. -/
def PricesStored (prices : PriceTable) : Prop := ∀ row ∈ prices.rows, row.flush = some row

def rowBefore (prices : PriceTable) (day : Date) (symbol : String) : DailyPrice :=
  (prices.get? (day, symbol)).getD (newDailyPrice day symbol)

/-- No symbol that is new for the day has two bars, and the columns take the last bar of
each symbol. -/
structure Uploadable (prices : PriceTable) (body : DailyPricesIngestBody) : Prop where
  once : ∀ symbol, prices.get? (body.tradeDate, symbol) = none →
    (barsOf body.items symbol).length ≤ 1
  accepted : ∀ symbol, barsOf body.items symbol ≠ [] →
    (barRow (barsOf body.items symbol) (rowBefore prices body.tradeDate symbol)).flush.isSome

structure Carries (item : DailyPriceIn) (close : ℚ) (row : DailyPrice) : Prop where
  «open» : item.open.mapM (numeric 12 4) = some row.open
  high : item.high.mapM (numeric 12 4) = some row.high
  low : item.low.mapM (numeric 12 4) = some row.low
  close : numeric 12 4 close = some row.close
  volume : item.volume.mapM (integer 64) = some row.volume

structure Uploaded (prices : PriceTable) (body : DailyPricesIngestBody) (prices' : PriceTable)
    (result : DailyPricesIngestResult) : Prop where
  carried : ∀ symbol bars item close, barsOf body.items symbol = bars ++ [(item, close)] →
    ∃ row, prices'.get? (body.tradeDate, symbol) = some row ∧ Carries item close row
  kept : ∀ key, (key.1 = body.tradeDate → barsOf body.items key.2 = []) →
    prices'.get? key = prices.get? key
  inserted : result.inserted = ((closed body.items).map (·.1.symbol)).dedup.countP
    (fun symbol => prices.get? (body.tradeDate, symbol) = none)
  total : result.inserted + result.updated + result.skipped = result.received
  skipped : result.skipped = body.items.countP (·.close = none)

theorem patch_self {row new : DailyPrice} (h : new.key = row.key) : row.patch row new = new := by
  obtain ⟨hdate, hsymbol⟩ := Prod.mk.inj h
  unfold DailyPrice.patch
  simp only [sent_self, ← hdate, ← hsymbol]

section Day

variable {prices : PriceTable} {body : DailyPricesIngestBody} {day : Date}

theorem find?_dayRows {row : DailyPrice} (hrow : row ∈ prices.rows) :
    (dayRows prices day).find? (·.key = row.key) = if row.tradeDate = day then some row else none := by
  split_ifs with hday
  · cases hfind : (dayRows prices day).find? (·.key = row.key) with
    | none =>
      have hmem : row ∈ dayRows prices day := List.mem_filter.mpr ⟨hrow, decide_eq_true hday⟩
      simpa using List.find?_eq_none.mp hfind row hmem
    | some other =>
      have hother := (List.mem_filter.mp (List.mem_of_find?_eq_some hfind)).1
      rw [Table.eq_of_key hother hrow (by simpa using List.find?_some hfind)]
  · refine List.find?_eq_none.mpr fun other hother => ?_
    have hdate : other.tradeDate = day := of_decide_eq_true (List.mem_filter.mp hother).2
    simp only [decide_eq_true_eq]
    exact fun hkey => hday ((congrArg Prod.fst hkey).symm.trans hdate)

theorem mapM_congr_mem {α β : Type} {f g : α → Option β} {l : List α} (h : ∀ a ∈ l, f a = g a) :
    l.mapM f = l.mapM g := by
  induction l with
  | nil => rfl
  | cons a l ih =>
    obtain ⟨ha, hl⟩ := List.forall_mem_cons.mp h
    rw [List.mapM_cons, List.mapM_cons, ha, ih hl]

theorem upsertDailyPrices_eq (prices : PriceTable) (body : DailyPricesIngestBody) :
    upsertDailyPrices prices body =
      commitPrices body (dayRows prices body.tradeDate) prices := by
  have hflush : prices.rows.mapM (flushStored (loopOf body.tradeDate
        (dayRows prices body.tradeDate) body.items).existing) =
      prices.rows.mapM (flushLoaded (dayRows prices body.tradeDate) (loopOf body.tradeDate
        (dayRows prices body.tradeDate) body.items).existing) := by
    refine mapM_congr_mem fun row hrow => ?_
    unfold flushStored flushLoaded
    rw [find?_loopOf, find?_dayRows hrow]
    split_ifs with hday
    · simp only [Option.map_some]
      rw [patch_self (draft_key _ row)]
    · rfl
  unfold upsertDailyPrices commitPrices
  simp only [foldl_upsertItem]
  unfold dayRows at hflush ⊢
  rw [hflush]

theorem rowAfter_dayRows (hstored : PricesStored prices) {row : DailyPrice}
    (hrow : row ∈ prices.rows) :
    rowAfter body (dayRows prices body.tradeDate) row =
      if row.tradeDate = body.tradeDate then (barRow (barsOf body.items row.symbol) row).flush
      else some row := by
  unfold rowAfter
  rw [find?_dayRows hrow]
  split_ifs with hday
  · dsimp only
    rw [patch_self (draft_key _ row), ← draft_eq_barRow]
    split_ifs with hsame
    · rw [hsame, hstored row hrow]
    · rfl
  · rfl

theorem mem_dayRows_symbols {symbol : String} :
    symbol ∈ (dayRows prices day).map (·.symbol) ↔ prices.get? (day, symbol) ≠ none := by
  rw [← Option.isSome_iff_ne_none, Option.isSome_iff_exists, List.mem_map]
  constructor
  · rintro ⟨row, hrow, rfl⟩
    obtain ⟨hrow, hday⟩ := List.mem_filter.mp hrow
    exact ⟨row, Table.get?_eq_some_iff.mpr ⟨hrow, Prod.ext (of_decide_eq_true hday) rfl⟩⟩
  · rintro ⟨row, hrow⟩
    obtain ⟨hrow, hkey⟩ := Table.get?_eq_some_iff.mp hrow
    obtain ⟨hday, hsymbol⟩ := Prod.mk.inj hkey
    exact ⟨row, List.mem_filter.mpr ⟨hrow, decide_eq_true hday⟩, hsymbol⟩

theorem mem_newBars {bar : Bar} :
    bar ∈ newBars (dayRows prices body.tradeDate) body.items ↔
      bar ∈ barsOf body.items bar.1.symbol ∧ prices.get? (body.tradeDate, bar.1.symbol) = none := by
  unfold newBars barsOf
  rw [List.mem_filter, List.mem_filter]
  simp only [mem_dayRows_symbols, decide_eq_true_eq, not_not, and_true]

theorem newBars_filter {symbol : String} (h : prices.get? (body.tradeDate, symbol) = none) :
    (newBars (dayRows prices body.tradeDate) body.items).filter (·.1.symbol = symbol) =
      barsOf body.items symbol := by
  unfold newBars barsOf
  rw [List.filter_filter]
  refine List.filter_congr fun bar _ => ?_
  by_cases hs : bar.1.symbol = symbol
  · have hnew : symbol ∉ (dayRows prices body.tradeDate).map (·.symbol) :=
      fun hmem => mem_dayRows_symbols.mp hmem h
    simp only [hs, hnew, decide_true, not_false_eq_true, Bool.and_self]
  · simp [hs]

theorem nodup_map_iff_filter {α β : Type} [DecidableEq β] {f : α → β} {l : List α} :
    (l.map f).Nodup ↔ ∀ b, (l.filter (f · = b)).length ≤ 1 := by
  rw [List.nodup_iff_count_le_one]
  refine forall_congr' fun b => ?_
  rw [List.count, List.countP_map, List.countP_eq_length_filter]
  have hfilter : l.filter ((· == b) ∘ f) = l.filter (f · = b) :=
    List.filter_congr fun a _ => beq_eq_decide _ _
  rw [hfilter]

theorem eq_singleton_of_mem {α : Type} {l : List α} {a : α} (hlength : l.length ≤ 1) (ha : a ∈ l) :
    l = [a] := by
  obtain ⟨b, rfl⟩ := List.length_eq_one_iff.mp (le_antisymm hlength (List.length_pos_of_mem ha))
  rw [List.mem_singleton.mp ha]

theorem newRow_eq {bar : Bar} {bars : List Bar} {symbol : String} (hbars : bars = [bar])
    (hsymbol : bar.1.symbol = symbol) (day : Date) :
    newRow day bar = barRow bars (newDailyPrice day symbol) := by
  subst hbars hsymbol
  rw [← draft_eq_barRow]
  rfl

theorem rowBefore_of_mem {row : DailyPrice} (hrow : row ∈ prices.rows) (hday : row.tradeDate = day) :
    rowBefore prices day row.symbol = row := by
  have hkey : row.key = (day, row.symbol) := Prod.ext hday rfl
  unfold rowBefore
  rw [Table.get?_eq_some_iff.mpr ⟨hrow, hkey⟩, Option.getD_some]

theorem rowBefore_of_none {symbol : String} (h : prices.get? (day, symbol) = none) :
    rowBefore prices day symbol = newDailyPrice day symbol := by
  unfold rowBefore
  rw [h, Option.getD_none]

theorem isSome_upsertDailyPrices_iff (hstored : PricesStored prices) :
    (upsertDailyPrices prices body).isSome ↔ Uploadable prices body := by
  rw [upsertDailyPrices_eq, isSome_commitPrices_iff]
  constructor
  · rintro ⟨hrows, hflush, hnodup, -⟩
    have honce (symbol : String) (hnone : prices.get? (body.tradeDate, symbol) = none) :
        (barsOf body.items symbol).length ≤ 1 := by
      rw [← newBars_filter hnone]
      exact nodup_map_iff_filter.mp hnodup symbol
    refine ⟨honce, fun symbol hbars => ?_⟩
    cases hrow : prices.get? (body.tradeDate, symbol) with
    | some row =>
      obtain ⟨hmem, hkey⟩ := Table.get?_eq_some_iff.mp hrow
      obtain ⟨hday, rfl⟩ := Prod.mk.inj hkey
      have hafter := hrows row hmem
      rw [rowBefore_of_mem hmem hday]
      rwa [rowAfter_dayRows hstored hmem, if_pos hday] at hafter
    | none =>
      obtain ⟨bar, hbar⟩ := List.exists_mem_of_ne_nil _ hbars
      have hsymbol : bar.1.symbol = symbol := of_decide_eq_true (List.mem_filter.mp hbar).2
      have hone := eq_singleton_of_mem (honce symbol hrow) hbar
      rw [rowBefore_of_none hrow, ← newRow_eq hone hsymbol]
      exact hflush bar (mem_newBars.mpr (by rw [hsymbol]; exact ⟨hbar, hrow⟩))
  · rintro ⟨honce, haccepted⟩
    refine ⟨fun row hrow => ?_, fun bar hbar => ?_, nodup_map_iff_filter.mpr fun symbol => ?_,
      fun bar hbar hmem => ?_⟩
    · rw [rowAfter_dayRows hstored hrow]
      split_ifs with hday
      · by_cases hbars : barsOf body.items row.symbol = []
        · rw [hbars]
          exact Option.isSome_of_eq_some (hstored row hrow)
        · have hrow' := haccepted row.symbol hbars
          rwa [rowBefore_of_mem hrow hday] at hrow'
      · rfl
    · obtain ⟨hbars, hnone⟩ := mem_newBars.mp hbar
      have hone := eq_singleton_of_mem (honce _ hnone) hbars
      rw [newRow_eq hone rfl, ← rowBefore_of_none hnone]
      exact haccepted _ (List.ne_nil_of_mem hbars)
    · cases hrow : prices.get? (body.tradeDate, symbol) with
      | none =>
        rw [newBars_filter hrow]
        exact honce symbol hrow
      | some row =>
        have hnil : (newBars (dayRows prices body.tradeDate) body.items).filter
            (·.1.symbol = symbol) = [] := by
          refine List.filter_eq_nil_iff.mpr fun bar hbar hs => ?_
          have hnone := (mem_newBars.mp hbar).2
          rw [of_decide_eq_true hs, hrow] at hnone
          cases hnone
        rw [hnil]
        exact Nat.zero_le 1
    · obtain ⟨row, hrow, hkey⟩ := List.mem_map.mp hmem
      have hnone := (mem_newBars.mp hbar).2
      rw [Table.get?_eq_some_iff.mpr ⟨hrow, hkey⟩] at hnone
      cases hnone

variable {prices' : PriceTable} {inserted updated : Nat}

theorem upsertDailyPrices_get? (hstored : PricesStored prices)
    (h : upsertDailyPrices prices body = some (prices', inserted, updated)) {symbol : String}
    (hbars : barsOf body.items symbol ≠ []) :
    prices'.get? (body.tradeDate, symbol) =
      (barRow (barsOf body.items symbol) (rowBefore prices body.tradeDate symbol)).flush := by
  have hload := (isSome_upsertDailyPrices_iff hstored).mp (Option.isSome_of_eq_some h)
  obtain ⟨row', hrow'⟩ := Option.isSome_iff_exists.mp (hload.accepted symbol hbars)
  rw [upsertDailyPrices_eq] at h
  rw [hrow', commitPrices_get? h]
  cases hrow : prices.get? (body.tradeDate, symbol) with
  | some row =>
    obtain ⟨hmem, hkey⟩ := Table.get?_eq_some_iff.mp hrow
    obtain ⟨hday, rfl⟩ := Prod.mk.inj hkey
    refine Or.inl ⟨row, rfl, ?_⟩
    rw [rowAfter_dayRows hstored hmem, if_pos hday]
    rwa [rowBefore_of_mem hmem hday] at hrow'
  | none =>
    obtain ⟨bar, hbar⟩ := List.exists_mem_of_ne_nil _ hbars
    obtain rfl : bar.1.symbol = symbol := of_decide_eq_true (List.mem_filter.mp hbar).2
    refine Or.inr ⟨bar, mem_newBars.mpr ⟨hbar, hrow⟩, rfl, ?_⟩
    rw [newRow_eq (eq_singleton_of_mem (hload.once _ hrow) hbar) rfl]
    rwa [rowBefore_of_none hrow] at hrow'

theorem upsertDailyPrices_get?_of_nil (hstored : PricesStored prices)
    (h : upsertDailyPrices prices body = some (prices', inserted, updated)) {key : Date × String}
    (hbars : key.1 = body.tradeDate → barsOf body.items key.2 = []) :
    prices'.get? key = prices.get? key := by
  rw [upsertDailyPrices_eq] at h
  ext row'
  rw [commitPrices_get? h]
  constructor
  · rintro (⟨row, hrow, hafter⟩ | ⟨bar, hbar, rfl, -⟩)
    · obtain ⟨hmem, rfl⟩ := Table.get?_eq_some_iff.mp hrow
      rw [rowAfter_dayRows hstored hmem] at hafter
      split_ifs at hafter with hday
      · rw [show barsOf body.items row.symbol = [] from hbars hday] at hafter
        rwa [← (hstored row hmem).symm.trans hafter]
      · rwa [← hafter]
    · exact absurd (hbars rfl) (List.ne_nil_of_mem (mem_newBars.mp hbar).1)
  · intro hrow
    obtain ⟨hmem, rfl⟩ := Table.get?_eq_some_iff.mp hrow
    refine Or.inl ⟨row', hrow, ?_⟩
    rw [rowAfter_dayRows hstored hmem]
    split_ifs with hday
    · rw [show barsOf body.items row'.symbol = [] from hbars hday]
      exact hstored row' hmem
    · rfl

theorem countP_dedup {α : Type} [DecidableEq α] {p : α → Bool} {l : List α}
    (h : (l.filter p).Nodup) : l.dedup.countP p = (l.filter p).length := by
  rw [List.countP_eq_length_filter]
  refine List.Perm.length_eq ?_
  rw [List.perm_ext_iff_of_nodup ((List.nodup_dedup l).filter p) h]
  simp

theorem length_newBars (h : upsertDailyPrices prices body = some (prices', inserted, updated)) :
    inserted = ((closed body.items).map (·.1.symbol)).dedup.countP
        (fun symbol => prices.get? (body.tradeDate, symbol) = none) ∧
      inserted + updated = (closed body.items).length := by
  rw [upsertDailyPrices_eq] at h
  obtain ⟨-, -, hnodup, -⟩ := isSome_commitPrices_iff.mp (Option.isSome_of_eq_some h)
  obtain ⟨rows, added, -, -, -, rfl, rfl⟩ := commitPrices_eq_some_iff.mp h
  have hnew : (newBars (dayRows prices body.tradeDate) body.items).map (·.1.symbol) =
      ((closed body.items).map (·.1.symbol)).filter
        (fun symbol => prices.get? (body.tradeDate, symbol) = none) := by
    unfold newBars
    rw [List.filter_map]
    refine congrArg _ (List.filter_congr fun bar _ => ?_)
    simp only [Function.comp_apply, mem_dayRows_symbols, not_not]
  constructor
  · rw [hnew] at hnodup
    rw [countP_dedup hnodup, ← hnew, List.length_map]
  · exact Nat.add_sub_cancel' (length_newBars_le _ _)

theorem length_closed (items : List DailyPriceIn) :
    (closed items).length + items.countP (·.close = none) = items.length := by
  induction items with
  | nil => rfl
  | cons item items ih =>
    cases hclose : item.close with
    | none => simp [closed, hclose] at ih ⊢; omega
    | some close => simp [closed, hclose] at ih ⊢; omega

theorem uploaded_of_upsert (hstored : PricesStored prices)
    (h : upsertDailyPrices prices body = some (prices', inserted, updated)) :
    Uploaded prices body prices'
      { tradeDate := body.tradeDate, received := body.items.length, inserted, updated,
        skipped := body.items.length - inserted - updated } := by
  obtain ⟨hinserted, hsum⟩ := length_newBars h
  have hlength := length_closed body.items
  refine ⟨fun symbol bars item close hlast => ?_, fun key hbars => ?_, ?_, ?_, ?_⟩
  · have hbars : barsOf body.items symbol ≠ [] := by simp [hlast]
    have hload := (isSome_upsertDailyPrices_iff hstored).mp (Option.isSome_of_eq_some h)
    obtain ⟨row', hrow'⟩ := Option.isSome_iff_exists.mp (hload.accepted symbol hbars)
    have hflush := flush_eq_some_iff.mp hrow'
    rw [hlast, ← draft_eq_barRow, draft_snoc] at hflush
    exact ⟨row', (upsertDailyPrices_get? hstored h hbars).trans hrow',
      ⟨hflush.open, hflush.high, hflush.low, hflush.close, hflush.volume⟩⟩
  · exact upsertDailyPrices_get?_of_nil hstored h hbars
  · exact congrArg Nat.cast hinserted
  · dsimp only
    omega
  · dsimp only
    omega

end Day

/-- An upload goes through, and leaves the last bar of each symbol and nothing else changed,
exactly when the columns take those bars and no symbol that is new for the day has two. -/
theorem ingestPrices_iff {prices : PriceTable} {body : DailyPricesIngestBody}
    (hstored : PricesStored prices) :
    (∃ prices' result, ingestPrices prices body = some (prices', result) ∧
      Uploaded prices body prices' result) ↔ Uploadable prices body := by
  rw [← isSome_upsertDailyPrices_iff hstored]
  constructor
  · rintro ⟨prices', result, h, -⟩
    obtain ⟨uploaded, hupsert, -⟩ := Option.bind_eq_some_iff.mp h
    exact Option.isSome_of_eq_some hupsert
  · intro h
    obtain ⟨⟨prices', inserted, updated⟩, hupsert⟩ := Option.isSome_iff_exists.mp h
    refine ⟨prices', _, ?_, uploaded_of_upsert hstored hupsert⟩
    unfold ingestPrices
    rw [hupsert]
    rfl

def priceOf (symbol : String) (close : ℚ) : DailyPriceIn where
  symbol
  close := some close

def storedPrice (symbol : String) (close : ℚ) : DailyPrice where
  tradeDate := 0
  symbol
  close

def storedDay : PriceTable := ⟨[storedPrice "2317" 50], by decide +kernel⟩

def repeatedDay : DailyPricesIngestBody where
  tradeDate := 0
  items := [priceOf "2330" 100, priceOf "2317" 51, { symbol := "9999" }, priceOf "2330" 101]

theorem ingestPrices_iff_repeated :
    (∃ prices' result, ingestPrices storedDay repeatedDay = some (prices', result) ∧
      Uploaded storedDay repeatedDay prices' result) ↔ Uploadable storedDay repeatedDay :=
  ingestPrices_iff (show ∀ row ∈ storedDay.rows, row.flush = some row by decide +kernel)

theorem ingestPrices_fails_repeated :
    ingestPrices storedDay repeatedDay = none ∧
      ∀ item ∈ repeatedDay.items,
        (ingestPrices storedDay { repeatedDay with items := [item] }).isSome := by
  decide +kernel

end StockQuant
