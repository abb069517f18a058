import StockQuant.Columns
import StockQuant.PriceUploads
import StockQuant.SnapshotReplace

/-! The commit of an upload over the rows that it has read, which need not be what is
stored by then. -/

namespace StockQuant

open KeyedTable

/-- The columns that are sent are those in which the draft differs from what was read. -/
def DailyPrice.patch (stored loaded new : DailyPrice) : DailyPrice :=
  { stored with
    name := sent loaded.name stored.name new.name
    marketCode := sent loaded.marketCode stored.marketCode new.marketCode
    «open» := sent loaded.open stored.open new.open
    high := sent loaded.high stored.high new.high
    low := sent loaded.low stored.low new.low
    close := sent loaded.close stored.close new.close
    volume := sent loaded.volume stored.volume new.volume }

def flushLoaded (loaded drafts : List DailyPrice) (row : DailyPrice) : Option DailyPrice :=
  match loaded.find? (·.key = row.key), drafts.find? (·.key = row.key) with
  | some old, some new => if new = old then some row else (row.patch old new).flush
  | _, _ => some row

def dayRows (prices : PriceTable) (day : Date) : List DailyPrice :=
  prices.rows.filter (·.tradeDate = day)

def commitPrices (body : DailyPricesIngestBody) (loaded : List DailyPrice) (prices : PriceTable) :
    Option (PriceTable × Nat × Nat) := do
  let acc := body.items.foldl (upsertItem body.tradeDate) { existing := loaded }
  let rows ← prices.rows.mapM (flushLoaded loaded acc.existing)
  let added ← acc.added.mapM DailyPrice.flush
  let prices : PriceTable ← Table.ofRows? (rows ++ added)
  some (prices, acc.inserted, acc.updated)

/-- What the commit makes of a stored row. -/
def rowAfter (body : DailyPricesIngestBody) (loaded : List DailyPrice) (row : DailyPrice) :
    Option DailyPrice :=
  match loaded.find? (·.key = row.key) with
  | none => some row
  | some old =>
    let new := draft (barsOf body.items row.symbol) old
    if new = old then some row else (row.patch old new).flush

def newRow (day : Date) (bar : Bar) : DailyPrice :=
  bar.1.assign bar.2 (newDailyPrice day bar.1.symbol)

/-- What the columns make of a row, column by column. -/
structure Flushes (row row' : DailyPrice) : Prop where
  tradeDate : row.tradeDate = row'.tradeDate
  symbol : varchar 16 row.symbol = some row'.symbol
  name : text row.name = some row'.name
  marketCode : text row.marketCode = some row'.marketCode
  «open» : row.open.mapM (numeric 12 4) = some row'.open
  high : row.high.mapM (numeric 12 4) = some row'.high
  low : row.low.mapM (numeric 12 4) = some row'.low
  close : numeric 12 4 row.close = some row'.close
  volume : row.volume.mapM (integer 64) = some row'.volume

theorem flush_eq_some_iff {row row' : DailyPrice} : row.flush = some row' ↔ Flushes row row' := by
  unfold DailyPrice.flush
  constructor
  · intro h
    obtain ⟨symbol, hsymbol, h⟩ := Option.bind_eq_some_iff.mp h
    obtain ⟨name, hname, h⟩ := Option.bind_eq_some_iff.mp h
    obtain ⟨marketCode, hcode, h⟩ := Option.bind_eq_some_iff.mp h
    obtain ⟨«open», hopen, h⟩ := Option.bind_eq_some_iff.mp h
    obtain ⟨high, hhigh, h⟩ := Option.bind_eq_some_iff.mp h
    obtain ⟨low, hlow, h⟩ := Option.bind_eq_some_iff.mp h
    obtain ⟨close, hclose, h⟩ := Option.bind_eq_some_iff.mp h
    obtain ⟨volume, hvolume, h⟩ := Option.bind_eq_some_iff.mp h
    obtain rfl := Option.some.inj h
    exact ⟨rfl, hsymbol, hname, hcode, hopen, hhigh, hlow, hclose, hvolume⟩
  · rintro ⟨hdate, hsymbol, hname, hcode, hopen, hhigh, hlow, hclose, hvolume⟩
    rw [hsymbol, hname, hcode, hopen, hhigh, hlow, hclose, hvolume]
    cases row'
    cases hdate
    rfl

theorem flush_key {row row' : DailyPrice} (h : row.flush = some row') : row'.key = row.key := by
  have hcolumns := flush_eq_some_iff.mp h
  exact Prod.ext hcolumns.tradeDate.symm (varchar_eq_some hcolumns.symbol).symm

theorem find?_loopOf (day : Date) (loaded : List DailyPrice) (items : List DailyPriceIn)
    (key : Date × String) :
    (loopOf day loaded items).existing.find? (·.key = key) =
      (loaded.find? (·.key = key)).map fun row => draft (barsOf items row.symbol) row := by
  unfold loopOf
  rw [List.find?_map, Function.comp_def]
  simp only [draft_key]

theorem flushLoaded_loopOf (body : DailyPricesIngestBody) (loaded : List DailyPrice)
    (row : DailyPrice) :
    flushLoaded loaded (loopOf body.tradeDate loaded body.items).existing row =
      rowAfter body loaded row := by
  unfold flushLoaded rowAfter
  rw [find?_loopOf]
  cases hfind : loaded.find? (·.key = row.key) with
  | none => rfl
  | some old =>
    have hkey : old.key = row.key := by simpa using List.find?_some hfind
    have hsymbol : old.symbol = row.symbol := congrArg Prod.snd hkey
    simp only [Option.map_some, hsymbol]

theorem rowAfter_key {body : DailyPricesIngestBody} {loaded : List DailyPrice}
    {row row' : DailyPrice} (h : rowAfter body loaded row = some row') : row'.key = row.key := by
  unfold rowAfter at h
  split at h
  · rw [Option.some.inj h]
  · dsimp only at h
    split_ifs at h
    · rw [Option.some.inj h]
    · exact (flush_key h).trans rfl

theorem mem_of_mapM {α β : Type} {f : α → Option β} {l : List α} {r : List β}
    (h : l.mapM f = some r) (b : β) : b ∈ r ↔ ∃ a ∈ l, f a = some b := by
  have hall := forall₂_of_mapM h
  clear h
  induction hall with
  | nil => simp
  | cons ha _ ih => simp [ih, ha, eq_comm]

theorem map_key_of_mapM {α β κ : Type} {f : α → Option β} {l : List α} {r : List β} (k : β → κ)
    (k' : α → κ) (hkey : ∀ a b, f a = some b → k b = k' a) (h : l.mapM f = some r) :
    r.map k = l.map k' := by
  have hall := forall₂_of_mapM h
  clear h
  induction hall with
  | nil => rfl
  | cons ha _ ih => rw [List.map_cons, List.map_cons, hkey _ _ ha, ih]

section Commit

variable {body : DailyPricesIngestBody} {loaded : List DailyPrice} {prices prices' : PriceTable}
  {inserted updated : Nat}

theorem commitPrices_eq_some_iff :
    commitPrices body loaded prices = some (prices', inserted, updated) ↔
      ∃ rows added, prices.rows.mapM (rowAfter body loaded) = some rows ∧
        (newBars loaded body.items).mapM (fun bar => (newRow body.tradeDate bar).flush) =
          some added ∧
        prices'.rows = rows ++ added ∧ inserted = (newBars loaded body.items).length ∧
        updated = (closed body.items).length - (newBars loaded body.items).length := by
  unfold commitPrices
  simp only [foldl_upsertItem, Option.bind_eq_bind, Option.bind_eq_some_iff, Option.some.injEq,
    Prod.mk.injEq]
  have hadded : (loopOf body.tradeDate loaded body.items).added.mapM DailyPrice.flush =
      (newBars loaded body.items).mapM fun bar => (newRow body.tradeDate bar).flush := by
    rw [loopOf, List.mapM_map]
    rfl
  rw [hadded, funext (flushLoaded_loopOf body loaded)]
  constructor
  · rintro ⟨rows, hrows, added, hadded, table, htable, rfl, rfl, rfl⟩
    exact ⟨rows, added, hrows, hadded, Table.ofRows?_eq_some_iff.mp htable, rfl, rfl⟩
  · rintro ⟨rows, added, hrows, hadded, htable, rfl, rfl⟩
    exact ⟨rows, hrows, added, hadded, prices', Table.ofRows?_eq_some_iff.mpr htable, rfl, rfl, rfl⟩

theorem keys_of_commit {rows added : List DailyPrice}
    (hrows : prices.rows.mapM (rowAfter body loaded) = some rows)
    (hadded : (newBars loaded body.items).mapM (fun bar => (newRow body.tradeDate bar).flush) =
      some added) :
    (rows ++ added).map DailyPrice.key = prices.rows.map DailyPrice.key ++
      (newBars loaded body.items).map fun bar => (body.tradeDate, bar.1.symbol) := by
  rw [List.map_append, map_key_of_mapM _ DailyPrice.key (fun _ _ => rowAfter_key) hrows,
    map_key_of_mapM _ (fun bar => (body.tradeDate, bar.1.symbol)) (fun _ _ => flush_key) hadded]

/-- A commit goes through when the columns take every row that it writes and the rows
that it adds are new and differ in their symbols. -/
theorem isSome_commitPrices_iff :
    (commitPrices body loaded prices).isSome ↔
      (∀ row ∈ prices.rows, (rowAfter body loaded row).isSome) ∧
      (∀ bar ∈ newBars loaded body.items, (newRow body.tradeDate bar).flush.isSome) ∧
      ((newBars loaded body.items).map (·.1.symbol)).Nodup ∧
      ∀ bar ∈ newBars loaded body.items,
        (body.tradeDate, bar.1.symbol) ∉ prices.rows.map DailyPrice.key := by
  have hkeys : (prices.rows.map DailyPrice.key ++
      (newBars loaded body.items).map fun bar => (body.tradeDate, bar.1.symbol)).Nodup ↔
      ((newBars loaded body.items).map (·.1.symbol)).Nodup ∧
        ∀ bar ∈ newBars loaded body.items,
          (body.tradeDate, bar.1.symbol) ∉ prices.rows.map DailyPrice.key := by
    have hinj : Function.Injective fun symbol : String => (body.tradeDate, symbol) :=
      fun _ _ h => (Prod.mk.inj h).2
    have hsymbols : ((newBars loaded body.items).map fun bar => (body.tradeDate, bar.1.symbol)) =
        ((newBars loaded body.items).map (·.1.symbol)).map fun symbol => (body.tradeDate, symbol) := by
      rw [List.map_map]
      rfl
    rw [List.nodup_append', and_iff_right prices.nodup, hsymbols, List.nodup_map_iff hinj,
      List.disjoint_right, ← hsymbols, List.forall_mem_map]
  rw [← hkeys, ← isSome_mapM_iff, ← isSome_mapM_iff]
  constructor
  · intro h
    obtain ⟨⟨prices', inserted, updated⟩, h⟩ := Option.isSome_iff_exists.mp h
    obtain ⟨rows, added, hrows, hadded, htable, -⟩ := commitPrices_eq_some_iff.mp h
    refine ⟨by rw [hrows]; rfl, by rw [hadded]; rfl, ?_⟩
    rw [← keys_of_commit hrows hadded, ← htable]
    exact prices'.nodup
  · rintro ⟨hrows, hadded, hnodup⟩
    obtain ⟨rows, hrows⟩ := Option.isSome_iff_exists.mp hrows
    obtain ⟨added, hadded⟩ := Option.isSome_iff_exists.mp hadded
    rw [← keys_of_commit hrows hadded] at hnodup
    exact Option.isSome_of_eq_some (commitPrices_eq_some_iff.mpr
      ⟨rows, added, hrows, hadded, show (⟨rows ++ added, hnodup⟩ : PriceTable).rows = _ from rfl,
        rfl, rfl⟩)

/-- The rows after a commit: the stored ones as it leaves them, and the ones it adds. -/
theorem commitPrices_get? (h : commitPrices body loaded prices = some (prices', inserted, updated))
    (key : Date × String) (row' : DailyPrice) :
    prices'.get? key = some row' ↔
      (∃ row, prices.get? key = some row ∧ rowAfter body loaded row = some row') ∨
        ∃ bar ∈ newBars loaded body.items, (body.tradeDate, bar.1.symbol) = key ∧
          (newRow body.tradeDate bar).flush = some row' := by
  obtain ⟨rows, added, hrows, hadded, htable, -⟩ := commitPrices_eq_some_iff.mp h
  rw [Table.get?_eq_some_iff, htable, List.mem_append, mem_of_mapM hrows, mem_of_mapM hadded]
  constructor
  · rintro ⟨⟨row, hrow, hafter⟩ | ⟨bar, hbar, hflush⟩, rfl⟩
    · exact Or.inl ⟨row, Table.get?_eq_some_iff.mpr ⟨hrow, (rowAfter_key hafter).symm⟩, hafter⟩
    · exact Or.inr ⟨bar, hbar, (flush_key hflush).symm, hflush⟩
  · rintro (⟨row, hrow, hafter⟩ | ⟨bar, hbar, rfl, hflush⟩)
    · obtain ⟨hmem, rfl⟩ := Table.get?_eq_some_iff.mp hrow
      exact ⟨Or.inl ⟨row, hmem, hafter⟩, rowAfter_key hafter⟩
    · exact ⟨Or.inr ⟨bar, hbar, hflush⟩, flush_key hflush⟩

end Commit

end StockQuant
