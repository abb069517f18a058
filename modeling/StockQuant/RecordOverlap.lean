import StockQuant.StoredRecords

/-! An update that finds its row other than it was loaded. -/

namespace StockQuant

/-- What the record does not send, since it was loaded so, is still stored. -/
structure Record.Overrides (record loaded stored : Record) : Prop where
  name : record.name = loaded.name → stored.name = loaded.name
  market : record.market = loaded.market → stored.market = loaded.market
  targetPrice : record.targetPrice = loaded.targetPrice → stored.targetPrice = loaded.targetPrice
  costPrice : record.costPrice = loaded.costPrice → stored.costPrice = loaded.costPrice
  lastClose : record.lastClose = loaded.lastClose → stored.lastClose = loaded.lastClose
  updatedAt : record.updatedAt = loaded.updatedAt → stored.updatedAt = loaded.updatedAt

/-- What the record sends is stored already. -/
structure Record.Repeats (record loaded stored : Record) : Prop where
  name : record.name ≠ loaded.name → record.name = stored.name
  market : record.market ≠ loaded.market → record.market = stored.market
  targetPrice : record.targetPrice ≠ loaded.targetPrice →
    record.targetPrice.mapM (numeric 12 4) = some stored.targetPrice
  costPrice : record.costPrice ≠ loaded.costPrice →
    record.costPrice.mapM (numeric 12 4) = some stored.costPrice
  lastClose : record.lastClose ≠ loaded.lastClose →
    record.lastClose.mapM (numeric 12 4) = some stored.lastClose
  updatedAt : record.updatedAt ≠ loaded.updatedAt → record.updatedAt = stored.updatedAt

instance Record.decidableOverrides (record loaded stored : Record) :
    Decidable (record.Overrides loaded stored) :=
  decidable_of_iff (_ ∧ _ ∧ _ ∧ _ ∧ _ ∧ _)
    ⟨fun ⟨h1, h2, h3, h4, h5, h6⟩ => ⟨h1, h2, h3, h4, h5, h6⟩,
      fun h => ⟨h.name, h.market, h.targetPrice, h.costPrice, h.lastClose, h.updatedAt⟩⟩

instance Record.decidableRepeats (record loaded stored : Record) :
    Decidable (record.Repeats loaded stored) :=
  decidable_of_iff (_ ∧ _ ∧ _ ∧ _ ∧ _ ∧ _)
    ⟨fun ⟨h1, h2, h3, h4, h5, h6⟩ => ⟨h1, h2, h3, h4, h5, h6⟩,
      fun h => ⟨h.name, h.market, h.targetPrice, h.costPrice, h.lastClose, h.updatedAt⟩⟩

section Patch

variable {record loaded stored flushed : Record}

theorem patch_eq_of_overrides (hkey : stored.key = record.key)
    (h : record.Overrides loaded stored) : stored.patch loaded record = record := by
  have hsent {α : Type} [DecidableEq α] {l s n : α} (hl : n = l → s = l) : sent l s n = n := by
    unfold sent
    split_ifs with hn
    · exact (hl hn).trans hn.symm
    · rfl
  obtain ⟨huser, hcode, hsymbol⟩ : _ ∧ _ ∧ _ := by simpa [Record.key] using hkey
  unfold Record.patch
  rw [hsent h.name, hsent h.market, hsent h.targetPrice, hsent h.costPrice, hsent h.lastClose,
    hsent h.updatedAt, huser, hcode, hsymbol]

theorem flush_patch_of_repeats (hstored : stored.flush = some stored)
    (h : record.Repeats loaded stored) : (stored.patch loaded record).flush = some stored := by
  have hcolumns := Record.flush_eq_some_iff.mp hstored
  have hsent {α : Type} [DecidableEq α] {f : α → Option α} {l s n : α} (hs : f s = some s)
      (hl : n ≠ l → f n = some s) : f (sent l s n) = some s := by
    unfold sent
    split_ifs with hn
    · exact hs
    · exact hl hn
  have htext {l s n : String} (hs : text s = some s) (hl : n ≠ l → n = s) :
      text (sent l s n) = some s :=
    hsent hs fun hn => (congrArg text (hl hn)).trans hs
  refine Record.flush_eq_some_iff.mpr
    { userId := rfl
      marketCode := hcolumns.marketCode
      symbol := hcolumns.symbol
      name := htext hcolumns.name h.name
      market := htext hcolumns.market h.market
      targetPrice := hsent hcolumns.targetPrice h.targetPrice
      costPrice := hsent hcolumns.costPrice h.costPrice
      lastClose := hsent hcolumns.lastClose h.lastClose
      updatedAt := ?_ }
  exact Option.some.inj (hsent (f := some) rfl fun hn => congrArg some (h.updatedAt hn))

theorem overrides_of_flush (hloaded : loaded.flush = some loaded)
    (hstored : stored.flush = some stored) (hrecord : record.flush = some flushed)
    (h : (stored.patch loaded record).flush = some flushed) : record.Overrides loaded stored := by
  have hl := Record.flush_eq_some_iff.mp hloaded
  have hs := Record.flush_eq_some_iff.mp hstored
  have hr := Record.flush_eq_some_iff.mp hrecord
  have hp := Record.flush_eq_some_iff.mp h
  have hsame {α : Type} [DecidableEq α] {f : α → Option α} {l s n v : α} (hl : f l = some l)
      (hs : f s = some s) (hr : f n = some v) (hp : f (sent l s n) = some v) (hn : n = l) :
      s = l := by
    rw [sent, if_pos hn, hs] at hp
    rw [hn, hl, ← hp] at hr
    exact (Option.some.inj hr).symm
  exact
    { name := hsame hl.name hs.name hr.name hp.name
      market := hsame hl.market hs.market hr.market hp.market
      targetPrice := hsame hl.targetPrice hs.targetPrice hr.targetPrice hp.targetPrice
      costPrice := hsame hl.costPrice hs.costPrice hr.costPrice hp.costPrice
      lastClose := hsame hl.lastClose hs.lastClose hr.lastClose hp.lastClose
      updatedAt := hsame (f := some) rfl rfl (congrArg some hr.updatedAt)
        (congrArg some hp.updatedAt) }

theorem repeats_of_flush (h : (stored.patch loaded record).flush = some stored) :
    record.Repeats loaded stored := by
  have hp := Record.flush_eq_some_iff.mp h
  have hsame {α : Type} [DecidableEq α] {f : α → Option α} {l s n : α}
      (hp : f (sent l s n) = some s) (hn : n ≠ l) : f n = some s := by
    rwa [sent, if_neg hn] at hp
  exact
    { name := fun hn => text_eq_some (hsame hp.name hn)
      market := fun hn => text_eq_some (hsame hp.market hn)
      targetPrice := hsame hp.targetPrice
      costPrice := hsame hp.costPrice
      lastClose := hsame hp.lastClose
      updatedAt := fun hn =>
        Option.some.inj (hsame (f := some) (congrArg some hp.updatedAt) hn) }

theorem overrides_self (hloaded : loaded = stored) : record.Overrides loaded stored := by
  subst hloaded
  exact ⟨fun _ => rfl, fun _ => rfl, fun _ => rfl, fun _ => rfl, fun _ => rfl, fun _ => rfl⟩

/-- A column that is not sent holds what the table holds already. -/
theorem flush_isSome_of_patch (hkey : record.key = loaded.key)
    (hloaded : loaded.flush = some loaded)
    (h : (stored.patch loaded record).flush = some flushed) : record.flush.isSome := by
  have hl := Record.flush_eq_some_iff.mp hloaded
  have hp := Record.flush_eq_some_iff.mp h
  have hsent {α : Type} [DecidableEq α] {f : α → Option α} {l s n v : α} (hl : f l = some l)
      (hp : f (sent l s n) = some v) : ∃ w, f n = some w := by
    by_cases hn : n = l
    · exact ⟨l, hn ▸ hl⟩
    · rw [sent, if_neg hn] at hp
      exact ⟨v, hp⟩
  obtain ⟨huser, hcode, hsymbol⟩ : record.userId = loaded.userId ∧
      record.marketCode = loaded.marketCode ∧ record.symbol = loaded.symbol := by
    simpa [Record.key] using hkey
  obtain ⟨name, hname⟩ := hsent hl.name hp.name
  obtain ⟨market, hmarket⟩ := hsent hl.market hp.market
  obtain ⟨targetPrice, htarget⟩ := hsent hl.targetPrice hp.targetPrice
  obtain ⟨costPrice, hcost⟩ := hsent hl.costPrice hp.costPrice
  obtain ⟨lastClose, hlast⟩ := hsent hl.lastClose hp.lastClose
  have hflushes :
      record.Flushes { record with name, market, targetPrice, costPrice, lastClose } :=
    ⟨rfl, hcode ▸ hl.marketCode, hsymbol ▸ hl.symbol, hname, hmarket, htarget, hcost, hlast, rfl⟩
  exact Option.isSome_of_eq_some (Record.flush_eq_some_iff.mpr hflushes)

/-- What an update leaves of the row that it finds. -/
theorem flush_patch {record : Record} {loaded stored : RecordRow} {untouched : Prop}
    (hkey : stored.record.key = record.key) (hflush : record.flush.isSome)
    (hsame : untouched → stored = loaded)
    (happly : record.Overrides loaded.record stored.record ∨
      record.Repeats loaded.record stored.record) :
    ∃ flushed, (stored.record.patch loaded.record record).flush = some flushed ∧
      (record.flush = some flushed ∨ ¬ untouched ∧ flushed = stored.record) := by
  by_cases hover : record.Overrides loaded.record stored.record
  · obtain ⟨flushed, hflushed⟩ := Option.isSome_iff_exists.mp hflush
    refine ⟨flushed, ?_, Or.inl hflushed⟩
    rw [patch_eq_of_overrides hkey hover, hflushed]
  · refine ⟨stored.record, flush_patch_of_repeats stored.stored (happly.resolve_left hover),
      Or.inr ⟨fun huntouched => hover ?_, rfl⟩⟩
    exact overrides_self (congrArg RecordRow.record (hsame huntouched).symm)

end Patch

end StockQuant
