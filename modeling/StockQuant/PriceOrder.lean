import StockQuant.PriceOverlap

/-! Uploads of prices in different orders. Each upload acts on every row by itself, and
whether it goes through does not depend on the table. -/

namespace StockQuant

open KeyedTable

/-- A refused upload is rolled back. -/
def uploadPrices (prices : PriceTable) (body : DailyPricesIngestBody) : PriceTable :=
  match ingestPrices prices body with
  | some (prices, _) => prices
  | none => prices

/-- The columns take the bars of the body. -/
def Accepts (body : DailyPricesIngestBody) : Prop :=
  ∀ symbol, barsOf body.items symbol ≠ [] →
    (barRow (barsOf body.items symbol) (newDailyPrice body.tradeDate symbol)).flush.isSome

def Touches (body : DailyPricesIngestBody) (key : Date × String) : Prop :=
  Accepts body ∧ key.1 = body.tradeDate ∧ barsOf body.items key.2 ≠ []

open Classical in
/-- What an upload makes of the row of a key. -/
noncomputable def laid (body : DailyPricesIngestBody) (key : Date × String)
    (row : Option DailyPrice) : Option DailyPrice :=
  if Touches body key then
    (barRow (barsOf body.items key.2) (row.getD (newDailyPrice key.1 key.2))).flush
  else row

section Upload

variable {prices : PriceTable} {body : DailyPricesIngestBody}

theorem length_barsOf_le (hnodup : (body.items.map (·.symbol)).Nodup) (symbol : String) :
    (barsOf body.items symbol).length ≤ 1 := by
  have hsymbols : ((closed body.items).map (·.1.symbol)).Sublist (body.items.map (·.symbol)) := by
    generalize body.items = items
    induction items with
    | nil => exact List.Sublist.refl _
    | cons item items ih =>
      unfold closed at ih ⊢
      cases hclose : item.close with
      | none => simpa [hclose] using ih.cons _
      | some close => simpa [hclose] using ih
  exact nodup_map_iff_filter.mp (hnodup.sublist hsymbols) symbol

theorem uploadable_iff (hstored : PricesStored prices)
    (hnodup : (body.items.map (·.symbol)).Nodup) : Uploadable prices body ↔ Accepts body := by
  have hcolumns (symbol : String) : (barsOf body.items symbol ≠ []) →
      ((barRow (barsOf body.items symbol) (rowBefore prices body.tradeDate symbol)).flush.isSome ↔
        (barRow (barsOf body.items symbol)
          (newDailyPrice body.tradeDate symbol)).flush.isSome) := by
    intro hbars
    obtain ⟨hsymbol, hname, hcode⟩ := rowBefore_stored hstored body.tradeDate symbol
    constructor
    · exact fun h => isSome_flush_barRow hbars h hsymbol.symm rfl rfl
    · exact fun h => isSome_flush_barRow hbars h hsymbol hname hcode
  constructor
  · exact fun h symbol hbars => (hcolumns symbol hbars).mp (h.accepted symbol hbars)
  · exact fun h => ⟨fun symbol _ => length_barsOf_le hnodup symbol,
      fun symbol hbars => (hcolumns symbol hbars).mpr (h symbol hbars)⟩

theorem uploadPrices_eq (prices : PriceTable) (body : DailyPricesIngestBody) :
    uploadPrices prices body = ((upsertDailyPrices prices body).map (·.1)).getD prices := by
  unfold uploadPrices ingestPrices
  rcases upsertDailyPrices prices body with _ | ⟨prices', inserted, updated⟩ <;> rfl

theorem uploadPrices_stored (hstored : PricesStored prices) (body : DailyPricesIngestBody) :
    PricesStored (uploadPrices prices body) := by
  rw [uploadPrices_eq]
  cases h : upsertDailyPrices prices body with
  | none => exact hstored
  | some uploaded =>
    rw [upsertDailyPrices_eq] at h
    exact pricesStored_commit hstored h

theorem uploadPrices_get? (hstored : PricesStored prices)
    (hnodup : (body.items.map (·.symbol)).Nodup) (key : Date × String) :
    (uploadPrices prices body).get? key = laid body key (prices.get? key) := by
  have hload := (isSome_upsertDailyPrices_iff hstored).trans (uploadable_iff hstored hnodup)
  rw [uploadPrices_eq]
  unfold laid
  cases h : upsertDailyPrices prices body with
  | none =>
    rw [h] at hload
    rw [if_neg fun haccepts => absurd (hload.mpr haccepts.1) (by simp)]
    rfl
  | some uploaded =>
    obtain ⟨prices', inserted, updated⟩ := uploaded
    obtain ⟨day, symbol⟩ := key
    have haccepts := hload.mp (Option.isSome_of_eq_some h)
    split_ifs with htouched
    · obtain ⟨-, rfl, hbars⟩ := htouched
      exact upsertDailyPrices_get? hstored h hbars
    · refine upsertDailyPrices_get?_of_nil hstored h fun hday => ?_
      by_contra hbars
      exact htouched ⟨haccepts, hday, hbars⟩

end Upload

section Bars

variable {bars others : List Bar} {row row' : DailyPrice}

theorem lastText_absorb (texts others : List String) (old : String) :
    lastText texts (lastText others (lastText texts old)) = lastText texts (lastText others old) := by
  by_cases hnamed : ∃ t ∈ texts, t ≠ ""
  · exact lastText_of_named hnamed _ _
  · rw [lastText_of_unnamed hnamed, lastText_of_unnamed hnamed, lastText_of_unnamed hnamed]

theorem lastText_ne_empty {texts : List String} {old : String} (h : old ≠ "") :
    lastText texts old ≠ "" := by
  by_cases hnamed : ∃ t ∈ texts, t ≠ ""
  · obtain ⟨t, ht, hne⟩ := hnamed
    have hmem : t ∈ texts.filter (· ≠ "") := List.mem_filter.mpr ⟨ht, decide_eq_true hne⟩
    unfold lastText
    rw [List.getLast?_eq_getLast_of_ne_nil (List.ne_nil_of_mem hmem), Option.getD_some]
    exact of_decide_eq_true (List.mem_filter.mp (List.getLast_mem (List.ne_nil_of_mem hmem))).2
  · rwa [lastText_of_unnamed hnamed]

/-- The bars leave nothing of a row but its key and the texts that they do not bring. -/
theorem barRow_congr (hbars : bars ≠ []) (hkey : row.key = row'.key)
    (hname : lastText (bars.map (·.1.name)) row.name = lastText (bars.map (·.1.name)) row'.name)
    (hcode : lastText (bars.map (·.1.marketCode)) row.marketCode =
      lastText (bars.map (·.1.marketCode)) row'.marketCode) : barRow bars row = barRow bars row' := by
  obtain ⟨bars, ⟨item, close⟩, rfl⟩ := (List.eq_nil_or_concat bars).resolve_left hbars
  obtain ⟨hday, hsymbol⟩ := Prod.mk.inj hkey
  rw [List.concat_eq_append] at hname hcode ⊢
  rw [barRow_snoc, barRow_snoc, hname, hcode, hday, hsymbol]

/-- What the columns store of a row under bars. -/
theorem flush_barRow_texts (h : (barRow bars row).flush = some row') :
    row'.key = row.key ∧ row'.name = lastText (bars.map (·.1.name)) row.name ∧
      row'.marketCode = lastText (bars.map (·.1.marketCode)) row.marketCode := by
  have hcolumns := flush_eq_some_iff.mp h
  obtain ⟨hname, hcode⟩ := barRow_texts bars row
  exact ⟨(flush_key h).trans (barRow_key bars row), (text_eq_some hcolumns.name).symm.trans hname,
    (text_eq_some hcolumns.marketCode).symm.trans hcode⟩

theorem barRow_again (hbars : bars ≠ []) (h : (barRow bars row).flush = some row') :
    barRow bars row' = barRow bars row := by
  obtain ⟨hkey, hname, hcode⟩ := flush_barRow_texts h
  refine barRow_congr hbars hkey ?_ ?_
  · rw [hname]
    exact lastText_absorb _ [] _
  · rw [hcode]
    exact lastText_absorb _ [] _

theorem barRow_absorb (hbars : bars ≠ []) {first second second' : DailyPrice}
    (hfirst : (barRow bars row).flush = some first)
    (hsecond : (barRow others first).flush = some second)
    (hsecond' : (barRow others row).flush = some second') :
    barRow bars second = barRow bars second' := by
  obtain ⟨hkey₁, hname₁, hcode₁⟩ := flush_barRow_texts hfirst
  obtain ⟨hkey₂, hname₂, hcode₂⟩ := flush_barRow_texts hsecond
  obtain ⟨hkey₃, hname₃, hcode₃⟩ := flush_barRow_texts hsecond'
  refine barRow_congr hbars ((hkey₂.trans hkey₁).trans hkey₃.symm) ?_ ?_
  · rw [hname₂, hname₁, hname₃, lastText_absorb]
  · rw [hcode₂, hcode₁, hcode₃, lastText_absorb]

end Bars

section Laid

variable {first second : DailyPricesIngestBody} {key : Date × String} {row : Option DailyPrice}

theorem laid_of_touches (h : Touches first key) :
    laid first key row =
      (barRow (barsOf first.items key.2) (row.getD (newDailyPrice key.1 key.2))).flush := if_pos h

theorem laid_of_not_touches (h : ¬ Touches first key) : laid first key row = row := if_neg h

/-- The row that an upload leaves under a key that it touches. -/
theorem exists_laid (row : Option DailyPrice) (h : Touches first key)
    (hrow : ∀ r ∈ row, r.key = key ∧ r.flush = some r) :
    ∃ row', laid first key row = some row' := by
  obtain ⟨haccepts, hday, hbars⟩ := h
  rw [laid_of_touches ⟨haccepts, hday, hbars⟩, hday]
  have hsome := haccepts key.2 hbars
  cases row with
  | none => exact Option.isSome_iff_exists.mp hsome
  | some r =>
    obtain ⟨hkey, hflush⟩ := hrow r rfl
    have hcolumns := flush_eq_some_iff.mp hflush
    exact Option.isSome_iff_exists.mp (isSome_flush_barRow hbars hsome
      (congrArg Prod.snd hkey) hcolumns.name hcolumns.marketCode)

theorem laid_comm (h : ¬ (Touches first key ∧ Touches second key)) :
    laid second key (laid first key row) = laid first key (laid second key row) := by
  by_cases hfirst : Touches first key
  · have hsecond : ¬ Touches second key := fun hsecond => h ⟨hfirst, hsecond⟩
    rw [laid_of_not_touches hsecond, laid_of_not_touches hsecond]
  · rw [laid_of_not_touches hfirst, laid_of_not_touches hfirst]

theorem stored_of_laid (h : Touches first key) {row' : DailyPrice}
    (hkey : ∀ r ∈ row, r.key = key) (hrow' : laid first key row = some row') :
    row'.key = key ∧ row'.flush = some row' := by
  rw [laid_of_touches h] at hrow'
  refine ⟨(flush_barRow_texts hrow').1.trans ?_, flush_stored hrow'⟩
  cases row with
  | none => rfl
  | some r => exact hkey r rfl

theorem laid_absorb (hrow : ∀ r ∈ row, r.key = key ∧ r.flush = some r) :
    laid first key (laid second key (laid first key row)) =
      laid first key (laid second key row) := by
  by_cases hfirst : Touches first key
  · obtain ⟨row₁, hrow₁⟩ := exists_laid row hfirst hrow
    have hstored₁ := stored_of_laid hfirst (fun r hr => (hrow r hr).1) hrow₁
    have hflush₁ := (laid_of_touches hfirst).symm.trans hrow₁
    rw [hrow₁]
    by_cases hsecond : Touches second key
    · obtain ⟨row₂, hrow₂⟩ := exists_laid (some row₁) hsecond fun r hr => by
        cases hr
        exact hstored₁
      obtain ⟨row₃, hrow₃⟩ := exists_laid row hsecond hrow
      have hflush₂ := (laid_of_touches hsecond).symm.trans hrow₂
      have hflush₃ := (laid_of_touches hsecond).symm.trans hrow₃
      rw [hrow₂, hrow₃, laid_of_touches hfirst, laid_of_touches hfirst]
      exact congrArg _ (barRow_absorb hfirst.2.2 hflush₁ hflush₂ hflush₃)
    · rw [laid_of_not_touches hsecond, laid_of_not_touches hsecond, laid_of_touches hfirst,
        laid_of_touches hfirst]
      exact congrArg _ (barRow_again hfirst.2.2 hflush₁)
  · simp only [laid_of_not_touches hfirst]

/-- A row under bars keeps the texts that it has. -/
theorem laid_keeps {r : DailyPrice} (hr : r.key = key ∧ r.flush = some r) :
    ∃ row', laid first key (some r) = some row' ∧ (r.name ≠ "" → row'.name ≠ "") ∧
      (r.marketCode ≠ "" → row'.marketCode ≠ "") := by
  by_cases hfirst : Touches first key
  · obtain ⟨row', hrow'⟩ := exists_laid (some r) hfirst fun s hs => by
      cases hs
      exact hr
    have hflush := (laid_of_touches hfirst).symm.trans hrow'
    obtain ⟨-, hname, hcode⟩ := flush_barRow_texts hflush
    rw [Option.getD_some] at hname hcode
    refine ⟨row', hrow', fun hne => ?_, fun hne => ?_⟩
    · rw [hname]
      exact lastText_ne_empty hne
    · rw [hcode]
      exact lastText_ne_empty hne
  · exact ⟨r, laid_of_not_touches hfirst, id, id⟩

end Laid

/-- No symbol has a close in both bodies for the same day. -/
def NoOverlap (a b : DailyPricesIngestBody) : Prop :=
  a.tradeDate = b.tradeDate → ∀ item ∈ a.items, ∀ item' ∈ b.items, item.symbol = item'.symbol →
    item.close = none ∨ item'.close = none

/-- Every row is still there, and no text that it has was emptied. -/
def Keeps (prices prices' : PriceTable) : Prop :=
  ∀ key row, prices.get? key = some row → ∃ row', prices'.get? key = some row' ∧
    (row.name ≠ "" → row'.name ≠ "") ∧ (row.marketCode ≠ "" → row'.marketCode ≠ "")

/-- Uploads in any order: what `b` brings after `a` wins, nothing that is known is lost, and
uploading `a` again changes nothing but the order. -/
structure OrderHarmless (prices : PriceTable) (a b : DailyPricesIngestBody) : Prop where
  accepted : ((ingestPrices prices a).isSome ↔ Accepts a) ∧
    ((ingestPrices (uploadPrices prices a) b).isSome ↔ Accepts b)
  commutes : NoOverlap a b → ∀ key,
    (uploadPrices (uploadPrices prices a) b).get? key =
      (uploadPrices (uploadPrices prices b) a).get? key
  wins : (ingestPrices (uploadPrices prices a) b).isSome → ∀ item ∈ b.items, ∀ close,
    item.close = some close →
    ∃ row, (uploadPrices (uploadPrices prices a) b).get? (b.tradeDate, item.symbol) = some row ∧
      Carries item close row
  keepsFirst : Keeps prices (uploadPrices prices a)
  keepsSecond : Keeps (uploadPrices prices a) (uploadPrices (uploadPrices prices a) b)
  absorbs : ∀ key, (uploadPrices (uploadPrices (uploadPrices prices a) b) a).get? key =
    (uploadPrices (uploadPrices prices b) a).get? key

section Order

variable {prices : PriceTable} {a b body : DailyPricesIngestBody}

theorem bar_of_mem {items : List DailyPriceIn} {item : DailyPriceIn} {close : ℚ}
    (hitem : item ∈ items) (hclose : item.close = some close) :
    (item, close) ∈ barsOf items item.symbol :=
  List.mem_filter.mpr ⟨List.mem_filterMap.mpr ⟨item, hitem, by rw [hclose]; rfl⟩, by simp⟩

theorem exists_item {items : List DailyPriceIn} {symbol : String} (h : barsOf items symbol ≠ []) :
    ∃ item ∈ items, item.symbol = symbol ∧ item.close ≠ none := by
  obtain ⟨bar, hbar⟩ := List.exists_mem_of_ne_nil _ h
  obtain ⟨hclosed, hsymbol⟩ := List.mem_filter.mp hbar
  obtain ⟨item, hitem, hclose⟩ := List.mem_filterMap.mp hclosed
  obtain ⟨close, hsome, rfl⟩ := Option.map_eq_some_iff.mp hclose
  exact ⟨item, hitem, of_decide_eq_true hsymbol, hsome ▸ Option.some_ne_none close⟩

theorem stored_of_get? (hstored : PricesStored prices) {key : Date × String} :
    ∀ r ∈ prices.get? key, r.key = key ∧ r.flush = some r := by
  intro r hr
  obtain ⟨hmem, hkey⟩ := Table.get?_eq_some_iff.mp hr
  exact ⟨hkey, hstored r hmem⟩

theorem keeps_uploadPrices (hstored : PricesStored prices)
    (hnodup : (body.items.map (·.symbol)).Nodup) : Keeps prices (uploadPrices prices body) := by
  intro key row hrow
  rw [uploadPrices_get? hstored hnodup, hrow]
  exact laid_keeps (stored_of_get? hstored row hrow)

/-- Whether an upload goes through does not depend on what is stored. -/
theorem isSome_ingestPrices_iff (hstored : PricesStored prices)
    (hnodup : (body.items.map (·.symbol)).Nodup) :
    (ingestPrices prices body).isSome ↔ Accepts body := by
  rw [← uploadable_iff hstored hnodup, ← isSome_upsertDailyPrices_iff hstored]
  unfold ingestPrices
  cases upsertDailyPrices prices body <;> simp

theorem uploadPrices_wins (hstored : PricesStored prices)
    (hnodup : (body.items.map (·.symbol)).Nodup) (h : (ingestPrices prices body).isSome)
    {item : DailyPriceIn} (hitem : item ∈ body.items) {close : ℚ}
    (hclose : item.close = some close) :
    ∃ row, (uploadPrices prices body).get? (body.tradeDate, item.symbol) = some row ∧
      Carries item close row := by
  obtain ⟨⟨prices', result⟩, hingest⟩ := Option.isSome_iff_exists.mp h
  obtain ⟨⟨table, inserted, updated⟩, hupsert, heq⟩ := Option.bind_eq_some_iff.mp hingest
  obtain ⟨rfl, -⟩ := Prod.mk.inj (Option.some.inj heq)
  have hbars := eq_singleton_of_mem (length_barsOf_le hnodup item.symbol)
    (bar_of_mem hitem hclose)
  rw [uploadPrices_eq, hupsert]
  exact (uploaded_of_upsert hstored hupsert).carried item.symbol [] item close hbars

/-- The order and the repetition of uploads are harmless. -/
theorem orderHarmless (hstored : PricesStored prices) (ha : (a.items.map (·.symbol)).Nodup)
    (hb : (b.items.map (·.symbol)).Nodup) : OrderHarmless prices a b := by
  have hstoredA := uploadPrices_stored hstored a
  have hstoredB := uploadPrices_stored hstored b
  refine ⟨⟨isSome_ingestPrices_iff hstored ha, isSome_ingestPrices_iff hstoredA hb⟩,
    fun hoverlap key => ?_, fun h item hitem close hclose => ?_, keeps_uploadPrices hstored ha,
    keeps_uploadPrices hstoredA hb, fun key => ?_⟩
  · rw [uploadPrices_get? hstoredA hb, uploadPrices_get? hstored ha, uploadPrices_get? hstoredB ha,
      uploadPrices_get? hstored hb]
    refine laid_comm ?_
    rintro ⟨⟨-, hday, hbars⟩, -, hday', hbars'⟩
    obtain ⟨item, hitem, hsymbol, hclose⟩ := exists_item hbars
    obtain ⟨item', hitem', hsymbol', hclose'⟩ := exists_item hbars'
    exact (hoverlap (hday.symm.trans hday') item hitem item' hitem'
      (hsymbol.trans hsymbol'.symm)).elim hclose hclose'
  · exact uploadPrices_wins hstoredA hb h hitem hclose
  · rw [uploadPrices_get? (uploadPrices_stored hstoredA b) ha, uploadPrices_get? hstoredA hb,
      uploadPrices_get? hstored ha, uploadPrices_get? hstoredB ha, uploadPrices_get? hstored hb]
    exact laid_absorb (stored_of_get? hstored)

end Order

/-- The screener and the backfill bring different symbols of one day, and one in common. -/
def screenerDay : DailyPricesIngestBody where
  tradeDate := 0
  items := [priceOf "2330" 100, { priceOf "2317" 51 with name := "Hon Hai" }]

def backfillDay : DailyPricesIngestBody where
  tradeDate := 0
  items := [priceOf "2317" 52, priceOf "2454" 900]

theorem orderHarmless_backfill : OrderHarmless storedDay screenerDay backfillDay :=
  orderHarmless (show ∀ row ∈ storedDay.rows, row.flush = some row by decide +kernel)
    (by decide) (by decide)

end StockQuant
