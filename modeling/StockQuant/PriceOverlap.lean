import StockQuant.PriceIngest

/-! Two uploads for one day of which the second has read the day before the first commits. -/

namespace StockQuant

open KeyedTable Statistics

theorem flush_stored {row row' : DailyPrice} (h : row.flush = some row') : row'.flush = some row' := by
  have hcolumns := flush_eq_some_iff.mp h
  exact flush_eq_some_iff.mpr
    { tradeDate := rfl
      symbol := varchar_stored hcolumns.symbol
      name := text_stored hcolumns.name
      marketCode := text_stored hcolumns.marketCode
      «open» := mapM_stored (fun _ _ => numeric_stored) hcolumns.open
      high := mapM_stored (fun _ _ => numeric_stored) hcolumns.high
      low := mapM_stored (fun _ _ => numeric_stored) hcolumns.low
      close := numeric_stored hcolumns.close
      volume := mapM_stored (fun _ _ => integer_stored) hcolumns.volume }

theorem lastText_of_named {texts : List String} (h : ∃ t ∈ texts, t ≠ "") (old old' : String) :
    lastText texts old = lastText texts old' := by
  obtain ⟨t, ht, hne⟩ := h
  have hmem : t ∈ texts.filter (· ≠ "") := List.mem_filter.mpr ⟨ht, decide_eq_true hne⟩
  unfold lastText
  rw [List.getLast?_eq_getLast_of_ne_nil (List.ne_nil_of_mem hmem)]
  rfl

theorem lastText_of_unnamed {texts : List String} (h : ¬ ∃ t ∈ texts, t ≠ "") (old : String) :
    lastText texts old = old := by
  have hnil : texts.filter (· ≠ "") = [] := by
    refine List.filter_eq_nil_iff.mpr fun t ht hne => h ⟨t, ht, of_decide_eq_true hne⟩
  unfold lastText
  rw [hnil]
  rfl

theorem barRow_snoc (bars : List Bar) (item : DailyPriceIn) (close : ℚ) (row : DailyPrice) :
    barRow (bars ++ [(item, close)]) row =
      { row with
        name := lastText ((bars ++ [(item, close)]).map (·.1.name)) row.name
        marketCode := lastText ((bars ++ [(item, close)]).map (·.1.marketCode)) row.marketCode
        «open» := item.open
        high := item.high
        low := item.low
        close
        volume := item.volume } := by
  unfold barRow
  rw [List.getLast?_concat]

theorem text_lastText {texts : List String} {old old' : String}
    (h : (text (lastText texts old)).isSome) (hold' : text old' = some old') :
    (text (lastText texts old')).isSome := by
  by_cases hnamed : ∃ t ∈ texts, t ≠ ""
  · rwa [lastText_of_named hnamed old' old]
  · rw [lastText_of_unnamed hnamed, hold']
    rfl

/-- Whether the columns take the bars does not depend on the row that they are laid on. -/
theorem isSome_flush_barRow {bars : List Bar} {row row' : DailyPrice} (hbars : bars ≠ [])
    (h : (barRow bars row).flush.isSome) (hsymbol : row'.symbol = row.symbol)
    (hname : text row'.name = some row'.name)
    (hcode : text row'.marketCode = some row'.marketCode) : (barRow bars row').flush.isSome := by
  obtain ⟨bars, ⟨item, close⟩, rfl⟩ := (List.eq_nil_or_concat bars).resolve_left hbars
  obtain ⟨flushed, hflushed⟩ := Option.isSome_iff_exists.mp h
  have hcolumns := flush_eq_some_iff.mp hflushed
  rw [List.concat_eq_append, barRow_snoc] at hcolumns
  obtain ⟨name, hname'⟩ := Option.isSome_iff_exists.mp
    (text_lastText (Option.isSome_of_eq_some hcolumns.name) hname)
  obtain ⟨marketCode, hcode'⟩ := Option.isSome_iff_exists.mp
    (text_lastText (Option.isSome_of_eq_some hcolumns.marketCode) hcode)
  refine Option.isSome_of_eq_some (flush_eq_some_iff.mpr (show Flushes _
    { flushed with tradeDate := row'.tradeDate, name, marketCode } from ?_))
  rw [List.concat_eq_append, barRow_snoc]
  exact
    { tradeDate := rfl
      symbol := hsymbol ▸ hcolumns.symbol
      name := hname'
      marketCode := hcode'
      «open» := hcolumns.open
      high := hcolumns.high
      low := hcolumns.low
      close := hcolumns.close
      volume := hcolumns.volume }

section After

variable {prices prices' : PriceTable} {first second body : DailyPricesIngestBody}
  {loaded : List DailyPrice} {inserted updated : Nat}

theorem stored_of_rowAfter {row row' : DailyPrice} (hrow : row.flush = some row)
    (h : rowAfter body loaded row = some row') : row'.flush = some row' := by
  unfold rowAfter at h
  split at h
  · exact Option.some.inj h ▸ hrow
  · dsimp only at h
    split_ifs at h
    · exact Option.some.inj h ▸ hrow
    · exact flush_stored h

theorem pricesStored_commit (hstored : PricesStored prices)
    (h : commitPrices body loaded prices = some (prices', inserted, updated)) :
    PricesStored prices' := by
  intro row' hrow'
  rcases (commitPrices_get? h _ _).mp (Table.get?_of_mem hrow') with
    ⟨row, hrow, hafter⟩ | ⟨bar, -, -, hflush⟩
  · exact stored_of_rowAfter (hstored row (Table.get?_eq_some_iff.mp hrow).1) hafter
  · exact flush_stored hflush

theorem get?_of_commit (h : commitPrices body loaded prices = some (prices', inserted, updated))
    {key : Date × String} (hnone : prices'.get? key = none) : prices.get? key = none := by
  cases hrow : prices.get? key with
  | none => rfl
  | some row =>
    obtain ⟨hafter, -⟩ := isSome_commitPrices_iff.mp (Option.isSome_of_eq_some h)
    obtain ⟨row', hrow'⟩ :=
      Option.isSome_iff_exists.mp (hafter row (Table.get?_eq_some_iff.mp hrow).1)
    rw [(commitPrices_get? h key row').mpr (Or.inl ⟨row, hrow, hrow'⟩)] at hnone
    cases hnone

theorem rowBefore_stored (hstored : PricesStored prices) (day : Date) (symbol : String) :
    (rowBefore prices day symbol).symbol = symbol ∧
      text (rowBefore prices day symbol).name = some (rowBefore prices day symbol).name ∧
      text (rowBefore prices day symbol).marketCode =
        some (rowBefore prices day symbol).marketCode := by
  cases hrow : prices.get? (day, symbol) with
  | none =>
    rw [rowBefore_of_none hrow]
    exact ⟨rfl, rfl, rfl⟩
  | some row =>
    obtain ⟨hmem, hkey⟩ := Table.get?_eq_some_iff.mp hrow
    obtain ⟨hday, rfl⟩ := Prod.mk.inj hkey
    have hcolumns := flush_eq_some_iff.mp (hstored row hmem)
    rw [rowBefore_of_mem hmem hday]
    exact ⟨rfl, hcolumns.name, hcolumns.marketCode⟩

/-- A body that can be uploaded still can after another one. -/
theorem uploadable_after (hstored : PricesStored prices) (hload : Uploadable prices second)
    (h : commitPrices first loaded prices = some (prices', inserted, updated)) :
    Uploadable prices' second := by
  refine ⟨fun symbol hnone => hload.once symbol (get?_of_commit h hnone), fun symbol hbars => ?_⟩
  obtain ⟨hsymbol, -⟩ := rowBefore_stored hstored second.tradeDate symbol
  obtain ⟨hsymbol', hname, hcode⟩ :=
    rowBefore_stored (pricesStored_commit hstored h) second.tradeDate symbol
  exact isSome_flush_barRow hbars (hload.accepted symbol hbars) (hsymbol'.trans hsymbol.symm)
    hname hcode

end After

/-- What the bars bring for a column and do not send, since it was read so, is still stored. -/
structure Overrides (bars : List Bar) (old stored : DailyPrice) : Prop where
  name : (∃ bar ∈ bars, bar.1.name ≠ "") → (barRow bars old).name = old.name →
    stored.name = old.name
  marketCode : (∃ bar ∈ bars, bar.1.marketCode ≠ "") →
    (barRow bars old).marketCode = old.marketCode → stored.marketCode = old.marketCode
  «open» : (barRow bars old).open = old.open → stored.open = old.open
  high : (barRow bars old).high = old.high → stored.high = old.high
  low : (barRow bars old).low = old.low → stored.low = old.low
  close : (barRow bars old).close = old.close → stored.close = old.close
  volume : (barRow bars old).volume = old.volume → stored.volume = old.volume

/-- What the bars send for a column that the other body brings too is stored already. -/
structure Leaves (others bars : List Bar) (old stored : DailyPrice) : Prop where
  name : (∃ bar ∈ others, bar.1.name ≠ "") → (barRow bars old).name ≠ old.name →
    (barRow bars old).name = stored.name
  marketCode : (∃ bar ∈ others, bar.1.marketCode ≠ "") →
    (barRow bars old).marketCode ≠ old.marketCode →
    (barRow bars old).marketCode = stored.marketCode
  «open» : (barRow bars old).open ≠ old.open →
    (barRow bars old).open.mapM (numeric 12 4) = some stored.open
  high : (barRow bars old).high ≠ old.high →
    (barRow bars old).high.mapM (numeric 12 4) = some stored.high
  low : (barRow bars old).low ≠ old.low →
    (barRow bars old).low.mapM (numeric 12 4) = some stored.low
  close : (barRow bars old).close ≠ old.close →
    numeric 12 4 (barRow bars old).close = some stored.close
  volume : (barRow bars old).volume ≠ old.volume →
    (barRow bars old).volume.mapM (integer 64) = some stored.volume

instance (bars : List Bar) (old stored : DailyPrice) : Decidable (Overrides bars old stored) :=
  decidable_of_iff (_ ∧ _ ∧ _ ∧ _ ∧ _ ∧ _ ∧ _)
    ⟨fun ⟨h1, h2, h3, h4, h5, h6, h7⟩ => ⟨h1, h2, h3, h4, h5, h6, h7⟩,
      fun h => ⟨h.name, h.marketCode, h.open, h.high, h.low, h.close, h.volume⟩⟩

instance (others bars : List Bar) (old stored : DailyPrice) :
    Decidable (Leaves others bars old stored) :=
  decidable_of_iff (_ ∧ _ ∧ _ ∧ _ ∧ _ ∧ _ ∧ _)
    ⟨fun ⟨h1, h2, h3, h4, h5, h6, h7⟩ => ⟨h1, h2, h3, h4, h5, h6, h7⟩,
      fun h => ⟨h.name, h.marketCode, h.open, h.high, h.low, h.close, h.volume⟩⟩

section Overlap

variable {bars others : List Bar} {old stored : DailyPrice}

theorem sent_of_kept {α : Type} [DecidableEq α] {old stored new : α}
    (h : new = old → stored = old) : sent old stored new = new := by
  unfold sent
  split_ifs with hsame
  · exact (h hsame).trans hsame.symm
  · rfl

theorem sent_lastText {texts : List String} {old stored : String}
    (h : (∃ t ∈ texts, t ≠ "") → lastText texts old = old → stored = old) :
    sent old stored (lastText texts old) = lastText texts stored := by
  by_cases hnamed : ∃ t ∈ texts, t ≠ ""
  · rw [sent_of_kept (h hnamed), lastText_of_named hnamed]
  · rw [lastText_of_unnamed hnamed, lastText_of_unnamed hnamed]
    exact if_pos rfl

theorem barRow_key (bars : List Bar) (row : DailyPrice) : (barRow bars row).key = row.key := by
  rw [← draft_eq_barRow, draft_key]

theorem barRow_texts (bars : List Bar) (row : DailyPrice) :
    (barRow bars row).name = lastText (bars.map (·.1.name)) row.name ∧
      (barRow bars row).marketCode = lastText (bars.map (·.1.marketCode)) row.marketCode := by
  rw [← draft_eq_barRow]
  exact draft_texts bars row

theorem barRow_columns (hbars : bars ≠ []) (row row' : DailyPrice) :
    (barRow bars row).open = (barRow bars row').open ∧
      (barRow bars row).high = (barRow bars row').high ∧
      (barRow bars row).low = (barRow bars row').low ∧
      (barRow bars row).close = (barRow bars row').close ∧
      (barRow bars row).volume = (barRow bars row').volume := by
  obtain ⟨bars, ⟨item, close⟩, rfl⟩ := (List.eq_nil_or_concat bars).resolve_left hbars
  rw [List.concat_eq_append, barRow_snoc, barRow_snoc]
  exact ⟨rfl, rfl, rfl, rfl, rfl⟩

theorem exists_text {f : Bar → String} (h : ∃ t ∈ bars.map f, t ≠ "") : ∃ bar ∈ bars, f bar ≠ "" := by
  obtain ⟨t, ht, hne⟩ := h
  obtain ⟨bar, hbar, rfl⟩ := List.mem_map.mp ht
  exact ⟨bar, hbar, hne⟩

theorem patch_of_overrides (hbars : bars ≠ []) (h : Overrides bars old stored) :
    stored.patch old (barRow bars old) = barRow bars stored := by
  obtain ⟨hname, hcode⟩ := barRow_texts bars old
  obtain ⟨hname', hcode'⟩ := barRow_texts bars stored
  obtain ⟨hopen, hhigh, hlow, hclose, hvolume⟩ := barRow_columns hbars old stored
  obtain ⟨hdate, hsymbol⟩ := Prod.mk.inj (barRow_key bars stored)
  have hnames := sent_lastText fun hnamed hsame => h.name (exists_text hnamed) (hname.trans hsame)
  have hcodes := sent_lastText fun hnamed hsame =>
    h.marketCode (exists_text hnamed) (hcode.trans hsame)
  unfold DailyPrice.patch
  rw [hname, hcode, hnames, hcodes, sent_of_kept h.open, sent_of_kept h.high, sent_of_kept h.low,
    sent_of_kept h.close, sent_of_kept h.volume, ← hname', ← hcode', hopen, hhigh, hlow, hclose,
    hvolume, ← hdate, ← hsymbol]

theorem take_sent {α : Type} [DecidableEq α] {take : α → Option α} {old stored new : α}
    (h : new ≠ old → take new = some stored) (hstored : take stored = some stored) :
    take (sent old stored new) = some stored := by
  unfold sent
  split_ifs with hsame
  · exact hstored
  · exact h hsame

theorem sent_eq_lastText {texts : List String} {old new : String}
    (h : (∃ t ∈ texts, t ≠ "") → new ≠ old → new = lastText texts old) :
    sent old (lastText texts old) new = lastText texts new := by
  by_cases hnamed : ∃ t ∈ texts, t ≠ ""
  · rw [lastText_of_named hnamed new old]
    unfold sent
    split_ifs with hsame
    · rfl
    · exact h hnamed hsame
  · rw [lastText_of_unnamed hnamed, lastText_of_unnamed hnamed, sent_self]

/-- The row that the first commit left, under what the second one sends, is the row of the
opposite order. -/
theorem flush_of_leaves {flushed : DailyPrice} (hothers : others ≠ [])
    (hstored : (barRow others old).flush = some stored)
    (hflushed : (barRow bars old).flush = some flushed) (h : Leaves others bars old stored) :
    (stored.patch old (barRow bars old)).flush = (barRow others flushed).flush := by
  have hcolumns := flush_eq_some_iff.mp hstored
  have hagain := flush_eq_some_iff.mp (flush_stored hstored)
  have hbars := flush_eq_some_iff.mp hflushed
  obtain ⟨hname, hcode⟩ := barRow_texts others old
  obtain ⟨hname', hcode'⟩ := barRow_texts others flushed
  obtain ⟨hopen, hhigh, hlow, hclose, hvolume⟩ := barRow_columns hothers old flushed
  obtain ⟨hdate, hsymbol⟩ := Prod.mk.inj ((flush_key hstored).trans (barRow_key others old))
  obtain ⟨hdate', hsymbol'⟩ := Prod.mk.inj
    ((barRow_key others flushed).trans ((flush_key hflushed).trans (barRow_key bars old)))
  rw [text_eq_some hcolumns.name] at hname
  rw [text_eq_some hcolumns.marketCode] at hcode
  rw [← text_eq_some hbars.name] at hname'
  rw [← text_eq_some hbars.marketCode] at hcode'
  have hnames : sent old.name stored.name (barRow bars old).name = (barRow others flushed).name := by
    rw [hname, hname']
    exact sent_eq_lastText fun hnamed hne => hname ▸ h.name (exists_text hnamed) hne
  have hcodes : sent old.marketCode stored.marketCode (barRow bars old).marketCode =
      (barRow others flushed).marketCode := by
    rw [hcode, hcode']
    exact sent_eq_lastText fun hnamed hne => hcode ▸ h.marketCode (exists_text hnamed) hne
  have htext {old stored new t : String} (hstored : text stored = some stored)
      (hnew : text new = some t) : text (sent old stored new) = some (sent old stored new) := by
    unfold sent
    split_ifs
    · exact hstored
    · rw [hnew, text_eq_some hnew]
  have hleft : Flushes (stored.patch old (barRow bars old))
      { stored with
        name := (barRow others flushed).name
        marketCode := (barRow others flushed).marketCode } :=
    { tradeDate := rfl
      symbol := hagain.symbol
      name := (htext hagain.name hbars.name).trans (congrArg some hnames)
      marketCode := (htext hagain.marketCode hbars.marketCode).trans (congrArg some hcodes)
      «open» := take_sent h.open hagain.open
      high := take_sent h.high hagain.high
      low := take_sent h.low hagain.low
      close := take_sent h.close hagain.close
      volume := take_sent h.volume hagain.volume }
  have hright : Flushes (barRow others flushed)
      { stored with
        name := (barRow others flushed).name
        marketCode := (barRow others flushed).marketCode } :=
    { tradeDate := hdate'.trans hdate.symm
      symbol := hsymbol'.trans hsymbol.symm ▸ hagain.symbol
      name := text_stored hleft.name
      marketCode := text_stored hleft.marketCode
      «open» := hopen ▸ hcolumns.open
      high := hhigh ▸ hcolumns.high
      low := hlow ▸ hcolumns.low
      close := hclose ▸ hcolumns.close
      volume := hvolume ▸ hcolumns.volume }
  rw [flush_eq_some_iff.mpr hleft, flush_eq_some_iff.mpr hright]

end Overlap

end StockQuant
