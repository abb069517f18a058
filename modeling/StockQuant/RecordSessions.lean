import StockQuant.ReadCommitted
import StockQuant.StoredRecords

/-! `upsert_record` and `delete_record` statement by statement. -/

namespace StockQuant

open ReadCommitted KeyedTable

/-- The record that the path of a request names for its user. -/
structure RecordTarget where
  userId : Uuid
  marketCode : String
  symbol : String
  deriving DecidableEq

def RecordTarget.key (target : RecordTarget) : Uuid × String × String :=
  (target.userId, target.marketCode, target.symbol)

inductive RecordJob where
  | put (body : UpsertBody) (now : ℚ)
  | delete (now : ℚ)
  deriving DecidableEq

def RecordJob.request (target : RecordTarget) : RecordJob → RecordRequest
  | .put body now =>
    { userId := target.userId, now, call := .put target.marketCode target.symbol body }
  | .delete now => { userId := target.userId, now, call := .delete target.marketCode target.symbol }

/-- The statement that a request comes to next, with the objects of its session. -/
inductive RecordPoint where
  | lookup
  | insert (id : Uuid) (record : Record)
  | update (loaded : RecordRow) (record : Record)
  | refresh (id : Uuid)
  | remove (id : Uuid)
  | updated (record : RecordOut)
  | deleted
  | crashed
  deriving DecidableEq

def newRecord (target : RecordTarget) (now : ℚ) : Record where
  userId := target.userId
  marketCode := target.marketCode
  symbol := target.symbol
  updatedAt := now

/-- What a request goes on to with the row that it has looked up. `id` is the one that a new
record draws. -/
def RecordJob.found (target : RecordTarget) (id : Uuid) :
    RecordJob → Option RecordRow → RecordPoint
  | .put body now, none => .insert id (body.assign now (newRecord target now))
  | .put body now, some row => .update row (body.assign now row.record)
  | .delete _, none => .deleted
  | .delete _, some row => .remove row.id

def recordAction (target : RecordTarget) (job : RecordJob) (id : Uuid) :
    RecordPoint → Action StoredRecords RecordPoint
  | .lookup => .read fun s =>
      match s.getRecord target.userId target.marketCode target.symbol with
      | none => .crashed
      | some row => job.found target id row
  | .insert id record => .commit (·.insertRecord id record) (.refresh id) .crashed
  | .update loaded record => .commit (·.updateRecord loaded record) (.refresh loaded.id) .crashed
  | .refresh id => .read fun s =>
      match s.rows.get? id with
      | none => .crashed
      | some row => .updated (recordOut row.record)
  | .remove id => .commit (fun s => some (s.removeRecord id)) .deleted .crashed
  | .updated record => .work (.updated record)
  | .deleted => .work .deleted
  | .crashed => .work .crashed

def recordProgram {ι : Type} (target : RecordTarget) (jobs : ι → RecordJob) (i : ι) (id : Uuid) :
    RecordPoint → Action StoredRecords RecordPoint :=
  recordAction target (jobs i) id

/-- The request has answered. -/
@[simp] def RecordPoint.answered : RecordPoint → Bool
  | .updated _ | .deleted | .crashed => true
  | _ => false

section Statements

variable {target : RecordTarget} {job : RecordJob} {id : Uuid} {s : StoredRecords}

def RecordTarget.storable (target : RecordTarget) : Prop :=
  text target.marketCode = some target.marketCode ∧ text target.symbol = some target.symbol

def recordStatements (target : RecordTarget) (job : RecordJob) (id : Uuid)
    (start : StoredRecords × RecordPoint) (n : ℕ) : StoredRecords × RecordPoint :=
  alone (recordAction target job) (fun _ => id) start n

theorem recordStatements_succ (start : StoredRecords × RecordPoint) (n : ℕ) :
    recordStatements target job id start (n + 1) =
      recordStatements target job id
        ((recordAction target job id start.2).perform start.1) n :=
  alone_succ _ _ _ _

theorem recordStatements_stopped {p : RecordPoint} (hp : p.answered) (n : ℕ) :
    recordStatements target job id (s, p) n = (s, p) := by
  refine alone_of_fixed ?_ n
  cases p <;> first | rfl | cases hp

def recordEnd : RecordReply → RecordPoint
  | .record record => .updated record
  | .noContent => .deleted
  | _ => .crashed

/-- The columns that a put sends over the row it has loaded make that row what it sends. -/
theorem patch_loaded (body : UpsertBody) (now : ℚ) (loaded : Record) :
    loaded.patch loaded (body.assign now loaded) = body.assign now loaded := by
  simp [Record.patch, UpsertBody.assign, sent_self]

/-- What a put stores when it has the table to itself. -/
def RecordTarget.stored (target : RecordTarget) (body : UpsertBody) (now : ℚ) : Option Record :=
  ((RecordJob.put body now).request target).stored target.marketCode target.symbol body

variable {L : Type} [LinearOrder L] {collation : String ↪ L} {records : RecordTable}
  {body : UpsertBody} {now : ℚ} {record : Record}

theorem storable_of_stored (h : target.stored body now = some record) :
    target.storable ∧ record.key = target.key := by
  obtain ⟨hcode, hsymbol, hkey⟩ := text_of_flush h
  exact ⟨⟨hcode, hsymbol⟩, hkey⟩

theorem flush_assign_of_key (h : record.key = target.key) :
    (body.assign now record).flush = target.stored body now :=
  flush_assign_key (r := (RecordJob.put body now).request target) h

theorem flush_assign_loaded {row : RecordRow} (h : s.byKey.get? target.key = some row) :
    (body.assign now row.record).flush = target.stored body now :=
  flush_assign_of_key (Table.get?_eq_some_iff.mp h).2

theorem perform_getRecord (htarget : target.storable) :
    (recordAction target job id .lookup).perform s =
      (s, job.found target id (s.byKey.get? target.key)) := by
  have hget : s.getRecord target.userId target.marketCode target.symbol =
      some (s.byKey.get? target.key) :=
    StoredRecords.getRecord_eq htarget.1 htarget.2
  simp only [recordAction, perform_read, hget]

theorem answerRecord_put_none (h : target.stored body now = none) :
    answerRecord collation records ((RecordJob.put body now).request target) =
      (records, .crash) := by
  have hupsert : upsertRecord records target.userId target.marketCode target.symbol body now =
      none :=
    upsertRecord_eq_none (r := (RecordJob.put body now).request target) h
  simp only [answerRecord, RecordJob.request, hupsert]

theorem answerRecord_put (collation : String ↪ L) (records : RecordTable)
    (h : target.stored body now = some record) :
    ∃ records', answerRecord collation records ((RecordJob.put body now).request target) =
        (records', .record (recordOut record)) ∧
      ∀ key, records'.get? key = if key = target.key then some record else records.get? key := by
  obtain ⟨records', hupsert, hget⟩ :=
    upsertRecord_eq records (r := (RecordJob.put body now).request target) h
  simp only [RecordJob.request] at hupsert
  exact ⟨records', by simp only [answerRecord, RecordJob.request, hupsert], hget⟩

theorem answerRecord_delete (collation : String ↪ L) (records : RecordTable) (now : ℚ)
    (h : target.storable) :
    ∃ records', answerRecord collation records ((RecordJob.delete now).request target) =
        (records', .noContent) ∧
      ∀ key, records'.get? key = if key = target.key then none else records.get? key := by
  obtain ⟨records', found, hdelete, hget⟩ := deleteRecord_eq records target.userId h.1 h.2
  exact ⟨records', by simp only [answerRecord, RecordJob.request, hdelete], hget⟩

theorem answerRecord_not_storable (h : ¬ target.storable) :
    answerRecord collation records (job.request target) = (records, .crash) := by
  cases job with
  | put body now =>
    refine answerRecord_put_none ?_
    by_contra hne
    obtain ⟨record, hstored⟩ := Option.ne_none_iff_exists'.mp hne
    exact h (storable_of_stored hstored).1
  | delete now =>
    have hdelete : deleteRecord records target.userId target.marketCode target.symbol = none :=
      deleteRecord_eq_none h
    simp only [answerRecord, RecordJob.request, hdelete]

theorem statements_put_free (hstored : target.stored body now = some record)
    (hid : s.rows.get? id = none) (hfree : s.byKey.get? target.key = none) :
    ∃ s', recordStatements target (.put body now) id
        (s, .insert id (body.assign now (newRecord target now))) 2 =
          (s', .updated (recordOut record)) ∧
      ∀ key, s'.table.get? key = if key = target.key then some record else s.table.get? key := by
  have hflush : (body.assign now (newRecord target now)).flush = some record := hstored
  have hfree' : s.byKey.get? (body.assign now (newRecord target now)).key = none := hfree
  obtain ⟨s', row, hinsert, hrow, hrecord, hputs⟩ :=
    StoredRecords.insertRecord_spec hid hfree' (Option.isSome_of_eq_some hflush)
  obtain rfl : record = row.record := Option.some.inj (hflush.symm.trans hrecord)
  refine ⟨s', ?_, fun key => ?_⟩
  · rw [recordStatements_succ]
    simp only [recordAction, Action.perform, hinsert]
    rw [recordStatements_succ]
    simp only [recordAction, perform_read, hputs.ids, if_pos hrow.symm]
    rfl
  · rw [StoredRecords.get?_table_of_puts hputs, (storable_of_stored hstored).2]

theorem statements_put_found {row : RecordRow} (hstored : target.stored body now = some record)
    (hfound : s.byKey.get? target.key = some row) :
    ∃ s', recordStatements target (.put body now) id
        (s, .update row (body.assign now row.record)) 2 = (s', .updated (recordOut record)) ∧
      ∀ key, s'.table.get? key = if key = target.key then some record else s.table.get? key := by
  have hflush : (row.record.patch row.record (body.assign now row.record)).flush = some record := by
    rw [patch_loaded, flush_assign_loaded hfound, hstored]
  obtain ⟨s', row', hupdate, hrow, rfl, hputs⟩ :=
    StoredRecords.updateRecord_spec (StoredRecords.get?_of_byKey hfound) hflush
  refine ⟨s', ?_, fun key => ?_⟩
  · rw [recordStatements_succ]
    simp only [recordAction, Action.perform, hupdate]
    rw [recordStatements_succ]
    simp only [recordAction, perform_read, hputs.ids, if_pos hrow.symm]
    rfl
  · rw [StoredRecords.get?_table_of_puts hputs, (storable_of_stored hstored).2]

theorem statements_put_refused (s : StoredRecords) (hstored : target.stored body now = none) :
    recordStatements target (.put body now) id
      (s, (RecordJob.put body now).found target id (s.byKey.get? target.key)) 2 =
        (s, .crashed) := by
  rw [recordStatements_succ]
  cases hfound : s.byKey.get? target.key with
  | none =>
    have hinsert : s.insertRecord id (body.assign now (newRecord target now)) = none := by
      refine StoredRecords.insertRecord_eq_none fun h => ?_
      obtain ⟨record, hflush⟩ := Option.isSome_iff_exists.mp h.2.2
      exact absurd (hflush.symm.trans hstored) (Option.some_ne_none record)
    simp only [RecordJob.found, recordAction, Action.perform, hinsert]
    exact recordStatements_stopped rfl _
  | some row =>
    have hupdate : s.updateRecord row (body.assign now row.record) = none := by
      refine StoredRecords.updateRecord_eq_none (StoredRecords.get?_of_byKey hfound) ?_
      rw [patch_loaded, flush_assign_loaded hfound, hstored]
    simp only [RecordJob.found, recordAction, Action.perform, hupdate]
    exact recordStatements_stopped rfl _

theorem statements_delete (s : StoredRecords) (id : Uuid) (now : ℚ) (htarget : target.storable) :
    ∃ s', recordStatements target (.delete now) id (s, .lookup) 3 = (s', .deleted) ∧
      ∀ key, s'.table.get? key = if key = target.key then none else s.table.get? key := by
  rw [recordStatements_succ, perform_getRecord htarget]
  cases hfound : s.byKey.get? target.key with
  | none =>
    refine ⟨s, recordStatements_stopped rfl _, fun key => ?_⟩
    split_ifs with hkey
    · rw [hkey, StoredRecords.get?_table, hfound]
      rfl
    · rfl
  | some row =>
    refine ⟨s.removeRecord row.id, ?_, fun key => ?_⟩
    · rw [recordStatements_succ]
      exact recordStatements_stopped rfl _
    · have hkey : row.record.key = target.key := (Table.get?_eq_some_iff.mp hfound).2
      rw [StoredRecords.get?_table_removeRecord (StoredRecords.get?_of_byKey hfound), hkey]

theorem answerRecord_eq_statements (collation : String ↪ L) (hid : s.rows.get? id = none) :
    let result := recordStatements target job id (s, .lookup) 3
    let answer := answerRecord collation s.table (job.request target)
    (∀ key, result.1.table.get? key = answer.1.get? key) ∧ result.2 = recordEnd answer.2 := by
  intro result answer
  have hresult : result = recordStatements target job id
      ((recordAction target job id .lookup).perform s) 2 := recordStatements_succ _ _
  by_cases htarget : target.storable
  · cases job with
    | put body now =>
      rw [perform_getRecord htarget] at hresult
      cases hstored : target.stored body now with
      | none =>
        have hcrashed : result = (s, .crashed) :=
          hresult.trans (statements_put_refused s hstored)
        rw [hcrashed, show answer = _ from answerRecord_put_none hstored]
        exact ⟨fun _ => rfl, rfl⟩
      | some record =>
        obtain ⟨records', hanswer, hkeys⟩ := answerRecord_put collation s.table hstored
        have hput : ∃ s', result = (s', .updated (recordOut record)) ∧ ∀ key,
            s'.table.get? key = if key = target.key then some record else s.table.get? key := by
          rw [hresult]
          cases hfound : s.byKey.get? target.key with
          | none => exact statements_put_free hstored hid hfound
          | some row => exact statements_put_found hstored hfound
        obtain ⟨s', hs', hkeys'⟩ := hput
        rw [hs', show answer = _ from hanswer]
        exact ⟨fun key => (hkeys' key).trans (hkeys key).symm, rfl⟩
    | delete now =>
      obtain ⟨records', hanswer, hkeys⟩ :=
        answerRecord_delete collation s.table now htarget
      obtain ⟨s', hs', hkeys'⟩ := statements_delete s id now htarget
      rw [show result = _ from hs', show answer = _ from hanswer]
      exact ⟨fun key => (hkeys' key).trans (hkeys key).symm, rfl⟩
  · have hget : s.getRecord target.userId target.marketCode target.symbol = none :=
      StoredRecords.getRecord_eq_none htarget
    have hcrashed : result = (s, .crashed) := by
      rw [hresult]
      simp only [recordAction, perform_read, hget]
      exact recordStatements_stopped rfl _
    rw [hcrashed, show answer = _ from answerRecord_not_storable htarget]
    exact ⟨fun _ => rfl, rfl⟩

end Statements

end StockQuant
