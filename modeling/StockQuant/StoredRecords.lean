import StockQuant.Columns
import StockQuant.RecordRuns

/-! The records table with the ids of its rows, as the statements of a session write it. -/

namespace StockQuant

open KeyedTable

structure RecordRow where
  id : Uuid
  record : Record
  stored : record.flush = some record
  deriving DecidableEq

/-- The table under its primary key and its unique constraint. -/
structure StoredRecords where
  rows : Table RecordRow.id
  keys_nodup : (rows.rows.map fun row => row.record.key).Nodup

def flushRow (id : Uuid) (record : Record) : Option RecordRow :=
  match h : record.flush with
  | none => none
  | some record => some { id, record, stored := Record.flush_stored h }

/-- The columns that are sent are those in which the record differs from what was loaded. -/
def Record.patch (stored loaded new : Record) : Record :=
  { stored with
    name := sent loaded.name stored.name new.name
    market := sent loaded.market stored.market new.market
    targetPrice := sent loaded.targetPrice stored.targetPrice new.targetPrice
    costPrice := sent loaded.costPrice stored.costPrice new.costPrice
    lastClose := sent loaded.lastClose stored.lastClose new.lastClose
    updatedAt := sent loaded.updatedAt stored.updatedAt new.updatedAt }

namespace StoredRecords

def ofRows? (rows : List RecordRow) : Option StoredRecords :=
  if h : (rows.map RecordRow.id).Nodup ∧ (rows.map fun row => row.record.key).Nodup then
    some ⟨⟨rows, h.1⟩, h.2⟩
  else none

def getRecord (s : StoredRecords) (userId : Uuid) (marketCode symbol : String) :
    Option (Option RecordRow) := do
  let marketCode ← text marketCode
  let symbol ← text symbol
  some (s.rows.rows.find? fun row => row.record.userId = userId ∧
    row.record.marketCode = marketCode ∧ row.record.symbol = symbol)

def insertRecord (s : StoredRecords) (id : Uuid) (record : Record) : Option StoredRecords := do
  let row ← flushRow id record
  ofRows? (s.rows.rows ++ [row])

/-- An update that sends a column has to find its row. -/
def updateRecord (s : StoredRecords) (loaded : RecordRow) (record : Record) :
    Option StoredRecords :=
  if record = loaded.record then some s
  else do
    let old ← s.rows.get? loaded.id
    let new ← flushRow old.id (old.record.patch loaded.record record)
    ofRows? (s.rows.rows.map fun row => if row.id = new.id then new else row)

/-- A delete that finds no row only logs a warning. -/
def removeRecord (s : StoredRecords) (id : Uuid) : StoredRecords where
  rows :=
    { rows := s.rows.rows.filter (·.id ≠ id)
      nodup := s.rows.nodup.sublist (List.filter_sublist.map RecordRow.id) }
  keys_nodup := s.keys_nodup.sublist (List.filter_sublist.map _)

/-- The records without their ids. -/
def table (s : StoredRecords) : RecordTable where
  rows := s.rows.rows.map RecordRow.record
  nodup := by
    rw [List.map_map]
    exact s.keys_nodup

/-- The same rows as a table under the unique constraint. -/
def byKey (s : StoredRecords) : Table fun row : RecordRow => row.record.key where
  rows := s.rows.rows
  nodup := s.keys_nodup

end StoredRecords

theorem flushRow_eq_some_iff {id : Uuid} {record : Record} {row : RecordRow} :
    flushRow id record = some row ↔ row.id = id ∧ record.flush = some row.record := by
  unfold flushRow
  split
  · next h => simp [h]
  · next record' h =>
    have hflush : record.flush = some row.record ↔ record' = row.record := by
      rw [h, Option.some.injEq]
    rw [hflush, Option.some.injEq]
    cases row
    simp only [RecordRow.mk.injEq]
    exact and_congr_left' eq_comm

theorem flushRow_eq_none_iff {id : Uuid} {record : Record} :
    flushRow id record = none ↔ record.flush = none := by
  rw [Option.eq_none_iff_forall_ne_some, Option.eq_none_iff_forall_ne_some]
  constructor
  · intro h record' hflush
    exact h ⟨id, record', Record.flush_stored hflush⟩ (flushRow_eq_some_iff.mpr ⟨rfl, hflush⟩)
  · intro h row hrow
    exact h row.record (flushRow_eq_some_iff.mp hrow).2

namespace StoredRecords

variable {s : StoredRecords} {row old new : RecordRow} {id : Uuid} {key : Uuid × String × String}

theorem ofRows?_eq_some_iff {rows : List RecordRow} {s : StoredRecords} :
    ofRows? rows = some s ↔ s.rows.rows = rows := by
  unfold ofRows?
  split_ifs with h
  · rw [Option.some.injEq]
    refine ⟨fun he => he ▸ rfl, fun he => ?_⟩
    obtain ⟨⟨rows', _⟩, _⟩ := s
    cases he
    rfl
  · refine iff_of_false (fun he => by cases he) ?_
    rintro rfl
    exact h ⟨s.rows.nodup, s.keys_nodup⟩

theorem get?_of_byKey (h : s.byKey.get? key = some row) : s.rows.get? row.id = some row :=
  Table.get?_of_mem (Table.get?_eq_some_iff.mp h).1

theorem byKey_of_get? (h : s.rows.get? id = some row) :
    s.byKey.get? row.record.key = some row :=
  Table.get?_of_mem (t := s.byKey) (Table.get?_eq_some_iff.mp h).1

theorem get?_table : s.table.get? key = (s.byKey.get? key).map RecordRow.record := by
  unfold table byKey Table.get?
  rw [List.find?_map]
  rfl

theorem getRecord_eq {userId : Uuid} {marketCode symbol : String}
    (hcode : text marketCode = some marketCode) (hsymbol : text symbol = some symbol) :
    s.getRecord userId marketCode symbol = some (s.byKey.get? (userId, marketCode, symbol)) := by
  unfold getRecord Table.get?
  rw [hcode, hsymbol]
  simp only [Option.bind_eq_bind, Option.bind_some, Record.key, Prod.mk.injEq, byKey]

theorem getRecord_eq_none {userId : Uuid} {marketCode symbol : String}
    (h : ¬(text marketCode = some marketCode ∧ text symbol = some symbol)) :
    s.getRecord userId marketCode symbol = none := by
  by_contra hne
  obtain ⟨found, hfound⟩ := Option.ne_none_iff_exists'.mp hne
  unfold getRecord at hfound
  obtain ⟨marketCode', hcode, hfound⟩ := Option.bind_eq_some_iff.mp hfound
  obtain ⟨symbol', hsymbol, -⟩ := Option.bind_eq_some_iff.mp hfound
  obtain rfl := text_eq_some hcode
  obtain rfl := text_eq_some hsymbol
  exact h ⟨hcode, hsymbol⟩

/-- What holds of the rows under their ids and under their keys once `row` is stored. -/
structure Puts (s : StoredRecords) (row : RecordRow) (s' : StoredRecords) : Prop where
  ids : ∀ id, s'.rows.get? id = if id = row.id then some row else s.rows.get? id
  keys : ∀ key, s'.byKey.get? key =
    if key = row.record.key then some row else s.byKey.get? key

theorem ofRows?_snoc (hid : s.rows.get? row.id = none)
    (hkey : s.byKey.get? row.record.key = none) :
    ∃ s', ofRows? (s.rows.rows ++ [row]) = some s' ∧ s.Puts row s' := by
  obtain ⟨t, ht, hids⟩ := Table.ofRows?_snoc hid
  obtain ⟨u, hu, hkeys⟩ := Table.ofRows?_snoc hkey
  rw [Table.ofRows?_eq_some_iff] at ht hu
  have hnodup : ((s.rows.rows ++ [row]).map fun row => row.record.key).Nodup :=
    (show u.rows = s.rows.rows ++ [row] from hu) ▸ u.nodup
  refine ⟨⟨t, ht ▸ hnodup⟩, ofRows?_eq_some_iff.mpr ht, hids, fun key => ?_⟩
  rw [← hkeys]
  exact congrArg (List.find? _) (ht.trans hu.symm)

theorem ofRows?_replace (hold : s.rows.get? new.id = some old)
    (hkey : new.record.key = old.record.key) :
    ∃ s', ofRows? (s.rows.rows.map fun row => if row.id = new.id then new else row) = some s' ∧
      s.Puts new s' := by
  have hold' : s.byKey.get? new.record.key = some old := hkey ▸ byKey_of_get? hold
  have hid : old.id = new.id := (Table.get?_eq_some_iff.mp hold).2
  obtain ⟨t, ht, hids⟩ := Table.ofRows?_replace hold
  obtain ⟨u, hu, hkeys⟩ := Table.ofRows?_replace hold'
  rw [Table.ofRows?_eq_some_iff] at ht hu
  have hrows : t.rows = u.rows := by
    rw [ht, hu]
    refine List.map_congr_left fun row hrow => if_congr ?_ rfl rfl
    have hmem : old ∈ s.rows.rows := (Table.get?_eq_some_iff.mp hold).1
    constructor
    · intro h
      rw [Table.eq_of_key hrow hmem h]
    · intro h
      rw [Table.eq_of_key (t := s.byKey) hrow hmem h]
  rw [hid] at ht
  refine ⟨⟨t, hrows ▸ u.nodup⟩, ofRows?_eq_some_iff.mpr ht, hids, fun key => ?_⟩
  rw [← hkeys]
  exact congrArg (List.find? _) hrows

theorem insertRecord_spec {record : Record} (hid : s.rows.get? id = none)
    (hkey : s.byKey.get? record.key = none) (hflush : record.flush.isSome) :
    ∃ s' row, s.insertRecord id record = some s' ∧ row.id = id ∧
      record.flush = some row.record ∧ s.Puts row s' := by
  obtain ⟨record', hflush⟩ := Option.isSome_iff_exists.mp hflush
  let row : RecordRow := ⟨id, record', Record.flush_stored hflush⟩
  have hrow : flushRow id record = some row := flushRow_eq_some_iff.mpr ⟨rfl, hflush⟩
  have hkey' : s.byKey.get? row.record.key = none := Record.key_flush hflush ▸ hkey
  obtain ⟨s', hs', hputs⟩ := ofRows?_snoc (show s.rows.get? row.id = none from hid) hkey'
  refine ⟨s', row, ?_, rfl, hflush, hputs⟩
  unfold insertRecord
  rw [hrow]
  exact hs'

theorem insertRecord_eq_none {record : Record}
    (h : ¬ (s.rows.get? id = none ∧ s.byKey.get? record.key = none ∧ record.flush.isSome)) :
    s.insertRecord id record = none := by
  by_contra hne
  obtain ⟨s', hs'⟩ := Option.ne_none_iff_exists'.mp hne
  obtain ⟨row, hrow, hs'⟩ := Option.bind_eq_some_iff.mp hs'
  obtain ⟨hid, hflush⟩ := flushRow_eq_some_iff.mp hrow
  have hrows := ofRows?_eq_some_iff.mp hs'
  have hids := s'.rows.nodup
  have hkeys := s'.keys_nodup
  rw [hrows, List.map_append] at hids hkeys
  refine h ⟨?_, ?_, hflush ▸ rfl⟩
  · refine Table.get?_eq_none_iff.mpr fun old hold heq => ?_
    exact (List.nodup_append.mp hids).2.2 old.id (List.mem_map_of_mem hold) row.id (by simp)
      (heq.trans hid.symm)
  · refine Table.get?_eq_none_iff.mpr fun old hold heq => ?_
    exact (List.nodup_append.mp hkeys).2.2 old.record.key (List.mem_map_of_mem hold)
      row.record.key (by simp) (heq.trans (Record.key_flush hflush).symm)

theorem patch_self (stored loaded : Record) : stored.patch loaded loaded = stored := by
  simp [Record.patch, sent]

/-- With its row there, the update is the patch of that row. -/
theorem updateRecord_eq {loaded : RecordRow} {record : Record}
    (hold : s.rows.get? loaded.id = some old) :
    s.updateRecord loaded record =
      (flushRow old.id (old.record.patch loaded.record record)).bind fun new =>
        ofRows? (s.rows.rows.map fun row => if row.id = new.id then new else row) := by
  unfold updateRecord
  split_ifs with hsame
  · subst hsame
    have hrow : flushRow old.id (old.record.patch loaded.record loaded.record) = some old := by
      rw [patch_self]
      exact flushRow_eq_some_iff.mpr ⟨rfl, old.stored⟩
    rw [hrow]
    refine (ofRows?_eq_some_iff.mpr (Eq.symm ?_)).symm
    calc s.rows.rows.map (fun row => if row.id = old.id then old else row)
        = s.rows.rows.map id := List.map_congr_left fun row hrow => ?_
      _ = s.rows.rows := List.map_id _
    dsimp only [id]
    split_ifs with hid
    · exact Table.eq_of_key (Table.get?_eq_some_iff.mp hold).1 hrow hid.symm
    · rfl
  · rw [hold]
    rfl

theorem updateRecord_spec {loaded : RecordRow} {record flushed : Record}
    (hold : s.rows.get? loaded.id = some old)
    (hflush : (old.record.patch loaded.record record).flush = some flushed) :
    ∃ s' row, s.updateRecord loaded record = some s' ∧ row.id = loaded.id ∧
      row.record = flushed ∧ s.Puts row s' := by
  let row : RecordRow := ⟨old.id, flushed, Record.flush_stored hflush⟩
  have hid : old.id = loaded.id := (Table.get?_eq_some_iff.mp hold).2
  have hrow : flushRow old.id (old.record.patch loaded.record record) = some row :=
    flushRow_eq_some_iff.mpr ⟨rfl, hflush⟩
  have hold' : s.rows.get? row.id = some old := show s.rows.get? old.id = some old from hid ▸ hold
  have hkey : row.record.key = old.record.key := (Record.key_flush hflush).trans rfl
  obtain ⟨s', hs', hputs⟩ := ofRows?_replace hold' hkey
  refine ⟨s', row, ?_, hid, rfl, hputs⟩
  rw [updateRecord_eq hold, hrow]
  exact hs'

theorem updateRecord_eq_none {loaded : RecordRow} {record : Record}
    (hold : s.rows.get? loaded.id = some old)
    (hflush : (old.record.patch loaded.record record).flush = none) :
    s.updateRecord loaded record = none := by
  rw [updateRecord_eq hold, flushRow_eq_none_iff.mpr hflush]
  rfl

theorem get?_removeRecord (id' : Uuid) :
    (s.removeRecord id).rows.get? id' = if id' = id then none else s.rows.get? id' :=
  Table.get?_of_rows_filter rfl id'

theorem byKey_removeRecord (hrow : s.rows.get? id = some row) (key : Uuid × String × String) :
    (s.removeRecord id).byKey.get? key =
      if key = row.record.key then none else s.byKey.get? key := by
  obtain ⟨hmem, rfl⟩ := Table.get?_eq_some_iff.mp hrow
  refine Table.get?_of_rows_filter (t := s.byKey) (List.filter_congr fun other hother => ?_) key
  refine decide_eq_decide.mpr (not_congr ⟨fun h => ?_, fun h => ?_⟩)
  · rw [Table.eq_of_key hother hmem h]
  · rw [Table.eq_of_key (t := s.byKey) hother hmem h]

theorem removeRecord_of_missing (h : s.rows.get? id = none) : s.removeRecord id = s := by
  have hrows : s.rows.rows.filter (·.id ≠ id) = s.rows.rows :=
    List.filter_eq_self.mpr fun row hrow => by simpa using Table.get?_eq_none_iff.mp h row hrow
  obtain ⟨⟨rows, _⟩, _⟩ := s
  unfold removeRecord
  congr

theorem get?_table_of_puts {s' : StoredRecords} (h : s.Puts row s')
    (key : Uuid × String × String) :
    s'.table.get? key = if key = row.record.key then some row.record else s.table.get? key := by
  rw [get?_table, get?_table, h.keys]
  split_ifs <;> rfl

theorem get?_table_removeRecord (hrow : s.rows.get? id = some row)
    (key : Uuid × String × String) :
    (s.removeRecord id).table.get? key =
      if key = row.record.key then none else s.table.get? key := by
  rw [get?_table, get?_table, byKey_removeRecord hrow]
  split_ifs <;> rfl

end StoredRecords

end StockQuant
