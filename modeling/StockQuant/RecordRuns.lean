import Mathlib.Data.String.Basic
import StockQuant.Columns
import StockQuant.LastWrite
import StockQuant.Records

/-! The records of one user after requests of all users. -/

namespace StockQuant

open KeyedTable LastWrite

def ownRecords (records : RecordTable) (userId : Uuid) (place : String × String) : Option Record :=
  records.get? (userId, place)

/-- What a put leaves when the columns take it. -/
def RecordRequest.stored (r : RecordRequest) (marketCode symbol : String) (body : UpsertBody) :
    Option Record :=
  Record.flush
    { userId := r.userId
      marketCode
      symbol
      name := body.name
      market := body.market
      targetPrice := body.targetPrice
      costPrice := body.costPrice
      lastClose := body.lastClose
      updatedAt := r.now }

def RecordRequest.write (r : RecordRequest) : Option ((String × String) × Option Record) :=
  match r.call with
  | .put marketCode symbol body =>
    (r.stored marketCode symbol body).map fun record => ((marketCode, symbol), some record)
  | .delete marketCode symbol => do
    let marketCode ← text marketCode
    let symbol ← text symbol
    some ((marketCode, symbol), none)
  | .list | .download => none

def writesOf (requests : List RecordRequest) (userId : Uuid) :
    List ((String × String) × Option Record) :=
  (requests.filter (·.userId = userId)).filterMap RecordRequest.write

/-- What the columns make of a record, column by column. -/
structure Record.Flushes (record record' : Record) : Prop where
  userId : record.userId = record'.userId
  marketCode : text record.marketCode = some record'.marketCode
  symbol : text record.symbol = some record'.symbol
  name : text record.name = some record'.name
  market : text record.market = some record'.market
  targetPrice : record.targetPrice.mapM (numeric 12 4) = some record'.targetPrice
  costPrice : record.costPrice.mapM (numeric 12 4) = some record'.costPrice
  lastClose : record.lastClose.mapM (numeric 12 4) = some record'.lastClose
  updatedAt : record.updatedAt = record'.updatedAt

theorem Record.flush_eq_some_iff {record record' : Record} :
    record.flush = some record' ↔ record.Flushes record' := by
  unfold Record.flush
  constructor
  · intro h
    obtain ⟨marketCode, hcode, h⟩ := Option.bind_eq_some_iff.mp h
    obtain ⟨symbol, hsymbol, h⟩ := Option.bind_eq_some_iff.mp h
    obtain ⟨name, hname, h⟩ := Option.bind_eq_some_iff.mp h
    obtain ⟨market, hmarket, h⟩ := Option.bind_eq_some_iff.mp h
    obtain ⟨targetPrice, htarget, h⟩ := Option.bind_eq_some_iff.mp h
    obtain ⟨costPrice, hcost, h⟩ := Option.bind_eq_some_iff.mp h
    obtain ⟨lastClose, hlast, h⟩ := Option.bind_eq_some_iff.mp h
    obtain rfl := Option.some.inj h
    exact ⟨rfl, hcode, hsymbol, hname, hmarket, htarget, hcost, hlast, rfl⟩
  · rintro ⟨huser, hcode, hsymbol, hname, hmarket, htarget, hcost, hlast, hupdated⟩
    rw [hcode, hsymbol, hname, hmarket, htarget, hcost, hlast]
    cases record'
    cases huser
    cases hupdated
    rfl

theorem Record.flush_stored {record record' : Record} (h : record.flush = some record') :
    record'.flush = some record' := by
  have hcolumns := flush_eq_some_iff.mp h
  exact flush_eq_some_iff.mpr
    { userId := rfl
      marketCode := text_stored hcolumns.marketCode
      symbol := text_stored hcolumns.symbol
      name := text_stored hcolumns.name
      market := text_stored hcolumns.market
      targetPrice := mapM_stored (fun _ _ => numeric_stored) hcolumns.targetPrice
      costPrice := mapM_stored (fun _ _ => numeric_stored) hcolumns.costPrice
      lastClose := mapM_stored (fun _ _ => numeric_stored) hcolumns.lastClose
      updatedAt := rfl }

theorem text_of_flush {record record' : Record} (h : record.flush = some record') :
    text record.marketCode = some record.marketCode ∧ text record.symbol = some record.symbol ∧
      record'.key = record.key := by
  have hcolumns := Record.flush_eq_some_iff.mp h
  have hcode := text_eq_some hcolumns.marketCode
  have hsymbol := text_eq_some hcolumns.symbol
  refine ⟨hcolumns.marketCode.trans (congrArg some hcode.symm),
    hcolumns.symbol.trans (congrArg some hsymbol.symm), ?_⟩
  exact Prod.ext hcolumns.userId.symm (Prod.ext hcode.symm hsymbol.symm)

theorem Record.key_flush {record record' : Record} (h : record.flush = some record') :
    record'.key = record.key :=
  (text_of_flush h).2.2

section Crud

variable {records : RecordTable} {userId : Uuid} {marketCode symbol : String}

theorem getRecord_eq (hcode : text marketCode = some marketCode)
    (hsymbol : text symbol = some symbol) :
    getRecord records userId marketCode symbol =
      some (records.get? (userId, marketCode, symbol)) := by
  unfold getRecord Table.get?
  rw [hcode, hsymbol]
  simp only [Option.bind_eq_bind, Option.bind_some, Record.key, Prod.mk.injEq]

theorem text_of_getRecord {old : Option Record}
    (h : getRecord records userId marketCode symbol = some old) :
    text marketCode = some marketCode ∧ text symbol = some symbol := by
  unfold getRecord at h
  obtain ⟨marketCode', hcode, h⟩ := Option.bind_eq_some_iff.mp h
  obtain ⟨symbol', hsymbol, -⟩ := Option.bind_eq_some_iff.mp h
  obtain rfl := text_eq_some hcode
  obtain rfl := text_eq_some hsymbol
  exact ⟨hcode, hsymbol⟩

/-- A row with the key of the put ends up as a new one. -/
theorem flush_assign_key {r : RecordRequest} {body : UpsertBody} {old : Record}
    (h : old.key = (r.userId, marketCode, symbol)) :
    (body.assign r.now old).flush = r.stored marketCode symbol body := by
  simp only [Record.key, Prod.mk.injEq] at h
  obtain ⟨huser, hcode, hsymbol⟩ := h
  unfold RecordRequest.stored UpsertBody.assign
  rw [huser, hcode, hsymbol]

theorem flush_assign_old {r : RecordRequest} {body : UpsertBody} {old : Record}
    (h : records.get? (r.userId, marketCode, symbol) = some old) :
    (body.assign r.now old).flush = r.stored marketCode symbol body :=
  flush_assign_key (Table.get?_eq_some_iff.mp h).2

theorem flush_assign_new {r : RecordRequest} {body : UpsertBody} :
    (body.assign r.now { userId := r.userId, marketCode, symbol, updatedAt := r.now }).flush =
      r.stored marketCode symbol body := rfl

theorem upsertRecord_eq_none {r : RecordRequest} {body : UpsertBody}
    (h : r.stored marketCode symbol body = none) :
    upsertRecord records r.userId marketCode symbol body r.now = none := by
  unfold upsertRecord
  cases hget : getRecord records r.userId marketCode symbol with
  | none => rfl
  | some found =>
    obtain ⟨hcode, hsymbol⟩ := text_of_getRecord hget
    rw [getRecord_eq hcode hsymbol, Option.some.injEq] at hget
    subst hget
    cases hold : records.get? (r.userId, marketCode, symbol) with
    | none => simp [flush_assign_new, h]
    | some old => simp [flush_assign_old hold, h]

theorem upsertRecord_eq (records : RecordTable) {r : RecordRequest} {body : UpsertBody} {record : Record}
    (h : r.stored marketCode symbol body = some record) :
    ∃ records', upsertRecord records r.userId marketCode symbol body r.now =
        some (records', record) ∧
      ∀ key, records'.get? key =
        if key = (r.userId, marketCode, symbol) then some record else records.get? key := by
  obtain ⟨hcode, hsymbol, hkey⟩ := text_of_flush h
  change record.key = (r.userId, marketCode, symbol) at hkey
  unfold upsertRecord
  rw [getRecord_eq hcode hsymbol]
  rw [← hkey]
  cases hold : records.get? record.key with
  | none =>
    obtain ⟨records', hrows, hget⟩ := Table.ofRows?_snoc hold
    exact ⟨records', by simp [flush_assign_new, h, hrows], hget⟩
  | some old =>
    obtain ⟨records', hrows, hget⟩ := Table.ofRows?_replace hold
    have hflush : (body.assign r.now old).flush = some record :=
      (flush_assign_old (hkey ▸ hold)).trans h
    exact ⟨records', by simp [hflush, hrows], hget⟩

theorem deleteRecord_eq (records : RecordTable) (userId : Uuid)
    (hcode : text marketCode = some marketCode) (hsymbol : text symbol = some symbol) :
    ∃ records' found, deleteRecord records userId marketCode symbol = some (records', found) ∧
      ∀ key, records'.get? key =
        if key = (userId, marketCode, symbol) then none else records.get? key := by
  unfold deleteRecord
  rw [getRecord_eq hcode hsymbol]
  cases hold : records.get? (userId, marketCode, symbol) with
  | none =>
    refine ⟨records, false, rfl, fun key => ?_⟩
    split_ifs with hkey
    · rw [hkey, hold]
    · rfl
  | some old =>
    refine ⟨_, true, rfl, fun key => ?_⟩
    rw [← (Table.get?_eq_some_iff.mp hold).2]
    exact Table.get?_of_rows_filter rfl key

theorem deleteRecord_eq_none
    (h : ¬(text marketCode = some marketCode ∧ text symbol = some symbol)) :
    deleteRecord records userId marketCode symbol = none := by
  unfold deleteRecord
  cases hget : getRecord records userId marketCode symbol with
  | none => rfl
  | some found => exact absurd (text_of_getRecord hget) h

end Crud

section Listing

variable {L : Type} [LinearOrder L] {collation : String ↪ L} {records records' : RecordTable}
  {userId : Uuid}

theorem mem_listRecords {record : Record} :
    record ∈ listRecords collation records userId ↔
      ownRecords records userId (record.marketCode, record.symbol) = some record := by
  unfold listRecords ownRecords
  rw [List.mem_insertionSort, Table.get?_eq_some_iff]
  simp [Record.key]

theorem listRecords_pairwise :
    (listRecords collation records userId).Pairwise fun a b =>
      a.place collation < b.place collation := by
  have hle : (listRecords collation records userId).Pairwise fun a b =>
      a.place collation ≤ b.place collation :=
    have : Std.Total fun a b : Record => a.place collation ≤ b.place collation :=
      ⟨fun a b => le_total _ _⟩
    have : IsTrans Record fun a b => a.place collation ≤ b.place collation :=
      ⟨fun a b c => le_trans⟩
    List.pairwise_insertionSort _ _
  have hnd : (listRecords collation records userId).Nodup :=
    (List.perm_insertionSort _ _).nodup_iff.mpr ((List.Nodup.of_map _ records.nodup).filter _)
  refine (hle.and hnd).imp_of_mem fun {a b} ha hb hab => lt_of_le_of_ne hab.1 fun hplace => hab.2 ?_
  have hcode : a.marketCode = b.marketCode :=
    collation.injective (congrArg (fun p => (ofLex p).1) hplace)
  have hsymbol : a.symbol = b.symbol :=
    collation.injective (congrArg (fun p => (ofLex p).2) hplace)
  rw [mem_listRecords] at ha hb
  rw [hcode, hsymbol, hb] at ha
  exact (Option.some.inj ha).symm

theorem listRecords_congr (h : ownRecords records userId = ownRecords records' userId) :
    listRecords collation records userId = listRecords collation records' userId := by
  have : Std.Irrefl fun a b : Record => a.place collation < b.place collation :=
    ⟨fun a => lt_irrefl _⟩
  have : Std.Antisymm fun a b : Record => a.place collation < b.place collation :=
    ⟨fun a b hab hba => absurd hba hab.not_gt⟩
  refine listRecords_pairwise.eq_of_mem_iff listRecords_pairwise fun record => ?_
  rw [mem_listRecords, mem_listRecords, h]

end Listing

section Runs

variable {L : Type} [LinearOrder L] {collation : String ↪ L} {records records' : RecordTable}
  {requests : List RecordRequest} {u : Uuid}

theorem write_delete {r : RecordRequest} {marketCode symbol : String}
    (hcall : r.call = .delete marketCode symbol) :
    r.write = if text marketCode = some marketCode ∧ text symbol = some symbol then
      some ((marketCode, symbol), none) else none := by
  simp only [RecordRequest.write, hcall]
  cases hcode : text marketCode with
  | none => simp
  | some marketCode' =>
    obtain rfl := text_eq_some hcode
    cases hsymbol : text symbol with
    | none => simp
    | some symbol' =>
      obtain rfl := text_eq_some hsymbol
      simp

theorem get?_answerRecord (r : RecordRequest) (key : Uuid × String × String) :
    (answerRecord collation records r).1.get? key =
      match r.write with
      | none => records.get? key
      | some (place, record) => if key = (r.userId, place) then record else records.get? key := by
  cases hcall : r.call with
  | list => simp [answerRecord, RecordRequest.write, hcall]
  | download => simp [answerRecord, RecordRequest.write, hcall]
  | put marketCode symbol body =>
    cases hstored : r.stored marketCode symbol body with
    | none =>
      simp [answerRecord, RecordRequest.write, hcall, hstored, upsertRecord_eq_none hstored]
    | some record =>
      obtain ⟨records', hupsert, hget⟩ := upsertRecord_eq records hstored
      simp [answerRecord, RecordRequest.write, hcall, hstored, hupsert, hget]
  | delete marketCode symbol =>
    rw [write_delete hcall]
    split_ifs with htexts
    · obtain ⟨records', found, hdelete, hget⟩ :=
        deleteRecord_eq records r.userId htexts.1 htexts.2
      simp [answerRecord, hcall, hdelete, hget]
    · simp [answerRecord, hcall, deleteRecord_eq_none htexts]

theorem ownRecords_answerRecord (r : RecordRequest) :
    ownRecords (answerRecord collation records r).1 u =
      if r.userId = u then written (ownRecords records u) r.write.toList
      else ownRecords records u := by
  funext place
  unfold ownRecords
  rw [get?_answerRecord]
  cases r.write with
  | none => simp
  | some w =>
    split_ifs with huser
    · subst huser
      simp [written, Function.update_apply]
    · have hne : u ≠ r.userId := fun h => huser h.symm
      simp [hne]

theorem writesOf_snoc (r : RecordRequest) :
    writesOf (requests ++ [r]) u =
      writesOf requests u ++ if r.userId = u then r.write.toList else [] := by
  unfold writesOf
  rw [List.filter_append, List.filterMap_append]
  split_ifs with huser
  · cases hwrite : r.write <;> simp [huser, hwrite]
  · simp [huser]

theorem runRecords_snoc (r : RecordRequest) :
    runRecords collation records (requests ++ [r]) =
      let s := runRecords collation records requests
      ((answerRecord collation s.1 r).1, s.2 ++ [(r, (answerRecord collation s.1 r).2)]) := by
  simp [runRecords]

theorem ownRecords_runRecords :
    ownRecords (runRecords collation records requests).1 u =
      written (ownRecords records u) (writesOf requests u) := by
  induction requests using List.reverseRecOn with
  | nil => rfl
  | append_singleton requests r ih =>
    rw [runRecords_snoc, ownRecords_answerRecord, writesOf_snoc, ih]
    split_ifs with huser
    · rw [written_append]
    · rw [List.append_nil]

theorem reply_congr {r : RecordRequest}
    (h : ownRecords records r.userId = ownRecords records' r.userId) :
    (answerRecord collation records r).2 = (answerRecord collation records' r).2 := by
  cases hcall : r.call with
  | list => simp [answerRecord, hcall, listRecords_congr h]
  | download => simp [answerRecord, hcall, listRecords_congr h]
  | put marketCode symbol body =>
    cases hstored : r.stored marketCode symbol body with
    | none => simp [answerRecord, hcall, upsertRecord_eq_none hstored]
    | some record =>
      obtain ⟨_, hupsert, -⟩ := upsertRecord_eq records hstored
      obtain ⟨_, hupsert', -⟩ := upsertRecord_eq records' hstored
      simp [answerRecord, hcall, hupsert, hupsert']
  | delete marketCode symbol =>
    by_cases htexts : text marketCode = some marketCode ∧ text symbol = some symbol
    · obtain ⟨_, _, hdelete, -⟩ :=
        deleteRecord_eq records r.userId htexts.1 htexts.2
      obtain ⟨_, _, hdelete', -⟩ :=
        deleteRecord_eq records' r.userId htexts.1 htexts.2
      simp [answerRecord, hcall, hdelete, hdelete']
    · simp [answerRecord, hcall, deleteRecord_eq_none htexts]

theorem writesOf_filter :
    writesOf (requests.filter (·.userId = u)) u = writesOf requests u := by
  simp [writesOf, List.filter_filter]

theorem log_filter :
    (runRecords collation records requests).2.filter (·.1.userId = u) =
      (runRecords collation records (requests.filter (·.userId = u))).2 := by
  induction requests using List.reverseRecOn with
  | nil => rfl
  | append_singleton requests r ih =>
    rw [runRecords_snoc, List.filter_append, List.filter_append, ih]
    by_cases huser : r.userId = u
    · subst huser
      have hone : [r].filter (·.userId = r.userId) = [r] := by simp
      rw [hone, runRecords_snoc]
      have hown : ownRecords (runRecords collation records requests).1 r.userId =
          ownRecords (runRecords collation records
            (requests.filter (·.userId = r.userId))).1 r.userId := by
        rw [ownRecords_runRecords, ownRecords_runRecords, writesOf_filter]
      simp [reply_congr hown]
    · simp [huser]

/-- After requests of any users, a user's listing has, in the order of the keys, the record of
each key as the user's own last write left it, and is, as all the user's replies are, what it
would be had nobody else sent anything. -/
theorem runRecords_spec (collation : String ↪ L) (records : RecordTable)
    (requests : List RecordRequest) (u : Uuid) :
    let s := runRecords collation records requests
    let own := runRecords collation records (requests.filter (·.userId = u))
    let listed := listRecords collation s.1 u
    listed.Pairwise (fun a b => a.place collation < b.place collation) ∧
    (∀ record, record ∈ listed ↔
      written (ownRecords records u) (writesOf requests u) (record.marketCode, record.symbol) =
        some record) ∧
    (∀ now,
      (answerRecord collation s.1 { userId := u, now, call := .list }).2 =
        .records (listed.map fun record =>
          { symbol := record.symbol, name := record.name, market := record.market,
            marketCode := record.marketCode, targetPrice := record.targetPrice,
            costPrice := record.costPrice, lastClose := record.lastClose,
            updatedAt := record.updatedAt }) ∧
      (answerRecord collation s.1 { userId := u, now, call := .download }).2 = .sheet listed) ∧
    listed = listRecords collation own.1 u ∧
    s.2.filter (·.1.userId = u) = own.2 := by
  intro s own listed
  refine ⟨listRecords_pairwise, fun record => ?_, fun now => ⟨rfl, rfl⟩, ?_, log_filter⟩
  · rw [mem_listRecords, ownRecords_runRecords]
  · refine listRecords_congr ?_
    rw [ownRecords_runRecords, ownRecords_runRecords, writesOf_filter]

example :
    let requests : List RecordRequest :=
      [{ userId := 1, now := 0, call := .put "TWSE" "2330" { targetPrice := some (200001 / 200) } },
        { userId := 1, now := 1, call := .put "TPEX" "6488" {} },
        { userId := 2, now := 2, call := .put "TWSE" "2330" { name := "b" } },
        { userId := 2, now := 3, call := .delete "TPEX" "6488" },
        { userId := 1, now := 4, call := .put "TWSE" "2330" { costPrice := some (1 / 3) } }]
    let s := runRecords (Function.Embedding.refl String) ∅ requests
    (listRecords (Function.Embedding.refl String) s.1 1).map recordOut =
      [{ symbol := "6488", name := "", market := "", marketCode := "TPEX", updatedAt := 1 },
        { symbol := "2330", name := "", market := "", marketCode := "TWSE",
          costPrice := some (3333 / 10000), updatedAt := 4 }] := by
  decide +kernel

end Runs

end StockQuant
