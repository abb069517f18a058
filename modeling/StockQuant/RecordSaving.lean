import Mathlib.Data.Fintype.Basic
import StockQuant.RecordOverlap
import StockQuant.RecordSessions

/-! What holds along a run of requests for one record of a user. -/

namespace StockQuant

open ReadCommitted KeyedTable

variable {ι : Type}

/-- The row that a put goes back to before it answers. -/
@[simp] def RecordPoint.holds : RecordPoint → Option Uuid
  | .update loaded _ => some loaded.id
  | .refresh id => some id
  | _ => none

/-- The request has had its effect. -/
@[simp] def RecordPoint.saved : RecordPoint → Bool
  | .refresh _ | .updated _ | .deleted => true
  | _ => false

/-- An insert finds the key free, an update overrides what is stored or only repeats it, no
delete takes away a row that a put goes back to, and the columns take what is written. -/
def SavesApart (target : RecordTarget) (c : Config ι StoredRecords RecordPoint) (i : ι) : Prop :=
  match c.session i with
  | .lookup => target.storable
  | .insert id record =>
    c.store.rows.get? id = none ∧ c.store.byKey.get? record.key = none ∧ record.flush.isSome
  | .update loaded record => record.flush.isSome ∧ ∀ stored ∈ c.store.rows.get? loaded.id,
      record.Overrides loaded.record stored.record ∨ record.Repeats loaded.record stored.record
  | .remove id => c.store.rows.get? id ≠ none → ∀ j, (c.session j).holds ≠ some id
  | _ => True

section Decide

variable (target : RecordTarget) (c : Config ι StoredRecords RecordPoint)

instance : Decidable target.storable := inferInstanceAs (Decidable (_ ∧ _))

instance [Fintype ι] (i : ι) : Decidable (SavesApart target c i) := by
  unfold SavesApart
  split <;> infer_instance

end Decide

def RecordJob.leaves (target : RecordTarget) : RecordJob → Option Record
  | .put body now => target.stored body now
  | .delete _ => none

/-- The columns take what the request brings. -/
def RecordJob.accepted (target : RecordTarget) : RecordJob → Prop
  | .put body now => (target.stored body now).isSome
  | .delete _ => target.storable

def Untouched (c : Config ι StoredRecords RecordPoint) : Prop :=
  ∀ i, (c.session i).saved = false

/-- The row of the record is there under the id, and it is `loaded` as long as nothing has been
saved. -/
def Held (target : RecordTarget) (s : StoredRecords) (id : Uuid) (loaded : RecordRow → Prop) :
    Prop :=
  ∃ row, s.byKey.get? target.key = some row ∧ row.id = id ∧ loaded row

/-- What a session knows of the table. -/
def Fits (target : RecordTarget) (s : StoredRecords) (untouched : Prop) :
    RecordJob → RecordPoint → Prop
  | _, .lookup => True
  | .put body now, .insert _ record => record = body.assign now (newRecord target now)
  | .put body now, .update loaded record =>
    record = body.assign now loaded.record ∧ loaded.record.key = target.key ∧
      Held target s loaded.id fun row => untouched → row = loaded
  | .put body now, .refresh id =>
    (target.stored body now).isSome ∧ Held target s id fun _ => True
  | .put body now, .updated _ => (target.stored body now).isSome
  | .delete _, .remove id =>
    target.storable ∧ (∀ row, s.rows.get? id = some row → row.record.key = target.key) ∧
      (untouched → Held target s id fun _ => True)
  | .delete _, .deleted => target.storable
  | _, _ => False

/-- The record is as one of the requests has left it, or as it was. -/
structure Saving (target : RecordTarget) (jobs : ι → RecordJob) (start : StoredRecords)
    (c : Config ι StoredRecords RecordPoint) : Prop where
  others : ∀ key ≠ target.key, c.store.table.get? key = start.table.get? key
  current :
    (∃ i, (c.session i).saved ∧ c.store.table.get? target.key = (jobs i).leaves target) ∨
      Untouched c ∧ c.store.table.get? target.key = start.table.get? target.key
  sessions : ∀ i, Fits target c.store (Untouched c) (jobs i) (c.session i)

section Fits

variable {target : RecordTarget} {s s' : StoredRecords} {job : RecordJob} {p : RecordPoint}
  {untouched : Prop} {row : RecordRow} {id : Uuid}

/-- What the other sessions know stays true when the record is written under its id. -/
theorem Fits.puts (h : Fits target s untouched job p) (hputs : s.Puts row s')
    (hkey : row.record.key = target.key)
    (hid : ∀ old, s.byKey.get? target.key = some old → old.id = row.id) :
    Fits target s' False job p := by
  have hheld {id : Uuid} {loaded : RecordRow → Prop} (hheld : Held target s id loaded)
      (loaded' : RecordRow → Prop) (hloaded : ∀ row, loaded' row) : Held target s' id loaded' := by
    obtain ⟨old, hold, rfl, -⟩ := hheld
    refine ⟨row, ?_, (hid old hold).symm, hloaded row⟩
    rw [hputs.keys, if_pos hkey.symm]
  cases job with
  | put body now =>
    cases p with
    | lookup | insert | updated => exact h
    | remove | deleted | crashed => cases h
    | update loaded record => exact ⟨h.1, h.2.1, hheld h.2.2 _ fun _ => False.elim⟩
    | refresh id => exact ⟨h.1, hheld h.2 _ fun _ => trivial⟩
  | delete now =>
    cases p with
    | lookup | deleted => exact h
    | insert | update | refresh | updated | crashed => cases h
    | remove id =>
      refine ⟨h.1, fun found hfound => ?_, False.elim⟩
      rw [hputs.ids] at hfound
      split_ifs at hfound
      · obtain rfl := Option.some.inj hfound
        exact hkey
      · exact h.2.1 found hfound

/-- What the other sessions know stays true when a row that none of them goes back to is
removed. -/
theorem Fits.removes (h : Fits target s untouched job p) (hrow : s.rows.get? id = some row)
    (hkey : row.record.key = target.key) (hholds : p.holds ≠ some id) :
    Fits target (s.removeRecord id) False job p := by
  have hheld {held : Uuid} {loaded : RecordRow → Prop} (hheld : Held target s held loaded) :
      held = id := by
    obtain ⟨old, hold, rfl, -⟩ := hheld
    rw [← hkey, StoredRecords.byKey_of_get? hrow] at hold
    obtain rfl := Option.some.inj hold
    exact (Table.get?_eq_some_iff.mp hrow).2
  cases job with
  | put body now =>
    cases p with
    | lookup | insert | updated => exact h
    | remove | deleted | crashed => cases h
    | update loaded record => exact absurd (congrArg some (hheld h.2.2)) hholds
    | refresh held => exact absurd (congrArg some (hheld h.2)) hholds
  | delete now =>
    cases p with
    | lookup | deleted => exact h
    | insert | update | refresh | updated | crashed => cases h
    | remove other =>
      refine ⟨h.1, fun found hfound => ?_, False.elim⟩
      rw [StoredRecords.get?_removeRecord] at hfound
      split_ifs at hfound
      exact h.2.1 found hfound

theorem Fits.accepted (h : Fits target s untouched job p) (hp : p.saved) : job.accepted target := by
  cases job with
  | put body now =>
    cases p with
    | refresh id => exact h.1
    | updated record => exact h
    | lookup | insert | update | remove | crashed => cases hp
    | deleted => cases h
  | delete now =>
    cases p with
    | deleted => exact h
    | lookup | insert | update | remove | crashed => cases hp
    | refresh | updated => cases h

theorem Fits.insert_inv {record : Record} (h : Fits target s untouched job (.insert id record)) :
    ∃ body now, job = .put body now ∧ record = body.assign now (newRecord target now) := by
  cases job with
  | put body now => exact ⟨body, now, rfl, h⟩
  | delete now => cases h

theorem Fits.update_inv {loaded : RecordRow} {record : Record}
    (h : Fits target s untouched job (.update loaded record)) :
    ∃ body now stored, job = .put body now ∧ record = body.assign now loaded.record ∧
      record.flush = target.stored body now ∧ s.byKey.get? target.key = some stored ∧
      s.rows.get? loaded.id = some stored ∧ stored.record.key = record.key ∧
      (untouched → stored = loaded) := by
  cases job with
  | put body now =>
    obtain ⟨hrecord, hkey, stored, hstored, hid, hsame⟩ := h
    refine ⟨body, now, stored, rfl, hrecord, hrecord ▸ flush_assign_of_key hkey, hstored,
      hid ▸ StoredRecords.get?_of_byKey hstored, ?_, hsame⟩
    have hstoredKey : stored.record.key = target.key := (Table.get?_eq_some_iff.mp hstored).2
    rw [hstoredKey, hrecord, ← hkey]
    rfl
  | delete now => cases h

theorem Fits.refresh_inv (h : Fits target s untouched job (.refresh id)) :
    ∃ body now row, job = .put body now ∧ (target.stored body now).isSome ∧
      s.rows.get? id = some row := by
  cases job with
  | put body now =>
    obtain ⟨haccepted, row, hrow, hid, -⟩ := h
    exact ⟨body, now, row, rfl, haccepted, hid ▸ StoredRecords.get?_of_byKey hrow⟩
  | delete now => cases h

theorem Fits.remove_inv (h : Fits target s untouched job (.remove id)) :
    ∃ now, job = .delete now ∧ target.storable ∧
      (∀ row, s.rows.get? id = some row → row.record.key = target.key) ∧
      (untouched → s.rows.get? id ≠ none) := by
  cases job with
  | put body now => cases h
  | delete now =>
    refine ⟨now, rfl, h.1, h.2.1, fun huntouched => ?_⟩
    obtain ⟨row, hrow, hid, -⟩ := h.2.2 huntouched
    rw [← hid, StoredRecords.get?_of_byKey hrow]
    exact Option.some_ne_none row

theorem Fits.not_crashed (h : Fits target s untouched job .crashed) : False := by
  cases job <;> exact h

theorem Fits.saves (h : Fits target s untouched job p) : Fits target s False job p := by
  cases job with
  | put body now =>
    cases p with
    | update loaded record =>
      obtain ⟨hrecord, hkey, row, hrow, hid, -⟩ := h
      exact ⟨hrecord, hkey, row, hrow, hid, False.elim⟩
    | _ => exact h
  | delete now =>
    cases p with
    | remove id => exact ⟨h.1, h.2.1, False.elim⟩
    | _ => exact h

end Fits

section Step

variable {target : RecordTarget} {jobs : ι → RecordJob} {start : StoredRecords}
  {c c' : Config ι StoredRecords RecordPoint} {i : ι}

theorem not_untouched (h : (c.session i).saved) : ¬ Untouched c := fun hc => by
  rw [hc i] at h
  cases h

/-- A step that saves nothing. -/
theorem Saving.idles (h : Saving target jobs start c)
    (hother : ∀ j, j ≠ i → c'.session j = c.session j) (hstore : c'.store = c.store)
    (hsaved : (c'.session i).saved = (c.session i).saved)
    (hfits : Fits target c.store (Untouched c) (jobs i) (c'.session i)) :
    Saving target jobs start c' := by
  have hsame (j : ι) : (c'.session j).saved = (c.session j).saved := by
    by_cases hji : j = i
    · rw [hji, hsaved]
    · rw [hother j hji]
  have huntouched : Untouched c' = Untouched c := by
    simp only [Untouched, hsame]
  refine ⟨fun key hkey => ?_, ?_, fun j => ?_⟩
  · rw [hstore]
    exact h.others key hkey
  · rw [hstore, huntouched]
    simpa only [hsame] using h.current
  · rw [hstore, huntouched]
    by_cases hji : j = i
    · exact hji ▸ hfits
    · rw [hother j hji]
      exact h.sessions j

/-- A step that saves what its request leaves, or comes too late to. -/
theorem Saving.saves (h : Saving target jobs start c)
    (hother : ∀ j, j ≠ i → c'.session j = c.session j) (hsaved : (c'.session i).saved)
    (hothers : ∀ key ≠ target.key, c'.store.table.get? key = c.store.table.get? key)
    (hcurrent : c'.store.table.get? target.key = (jobs i).leaves target ∨
      ¬ Untouched c ∧ c'.store.table.get? target.key = c.store.table.get? target.key)
    (hfits : ∀ j, Fits target c'.store False (jobs j) (c'.session j)) :
    Saving target jobs start c' := by
  refine ⟨fun key hkey => (hothers key hkey).trans (h.others key hkey), Or.inl ?_, fun j => ?_⟩
  · rcases hcurrent with hcurrent | ⟨htouched, hcurrent⟩
    · exact ⟨i, hsaved, hcurrent⟩
    · obtain ⟨j, hj, hleaves⟩ := h.current.resolve_right fun hc => htouched hc.1
      refine ⟨j, ?_, hcurrent.trans hleaves⟩
      by_cases hji : j = i
      · exact hji ▸ hsaved
      · rw [hother j hji]
        exact hj
  · rw [eq_false (not_untouched hsaved)]
    exact hfits j

variable {id : Uuid}

theorem saving_lookup (h : Saving target jobs start c)
    (hother : ∀ j, j ≠ i → c'.session j = c.session j) (hi : c.session i = .lookup)
    (hself : c'.session i = (jobs i).found target id (c.store.byKey.get? target.key))
    (hstore : c'.store = c.store) (htarget : target.storable) : Saving target jobs start c' := by
  have hidles (hsaved : (c'.session i).saved = false)
      (hfits : Fits target c.store (Untouched c) (jobs i) (c'.session i)) :
      Saving target jobs start c' :=
    h.idles hother hstore (by rw [hsaved, hi]; rfl) hfits
  cases hjob : jobs i with
  | put body now =>
    rw [hjob] at hself hidles
    cases hfound : c.store.byKey.get? target.key with
    | none =>
      rw [hfound] at hself
      exact hidles (hself ▸ rfl) (hself ▸ rfl)
    | some row =>
      rw [hfound] at hself
      refine hidles (hself ▸ rfl) ?_
      rw [hself]
      exact ⟨rfl, (Table.get?_eq_some_iff.mp hfound).2, row, hfound, rfl, fun _ => rfl⟩
  | delete now =>
    rw [hjob] at hself hidles
    cases hfound : c.store.byKey.get? target.key with
    | none =>
      rw [hfound] at hself
      refine h.saves hother (hself ▸ rfl) (fun _ _ => by rw [hstore]) (Or.inl ?_) fun j => ?_
      · rw [hstore, StoredRecords.get?_table, hfound, hjob]
        rfl
      · rw [hstore]
        by_cases hji : j = i
        · rw [hji, hself, hjob]
          exact htarget
        · rw [hother j hji]
          exact (h.sessions j).saves
    | some row =>
      rw [hfound] at hself
      refine hidles (hself ▸ rfl) ?_
      rw [hself]
      refine ⟨htarget, fun found hrow => ?_, fun _ => ⟨row, hfound, rfl, trivial⟩⟩
      rw [StoredRecords.get?_of_byKey hfound] at hrow
      obtain rfl := Option.some.inj hrow
      exact (Table.get?_eq_some_iff.mp hfound).2

/-- A commit that writes the record under its id. -/
theorem saving_puts {row : RecordRow} {record : Record} (h : Saving target jobs start c)
    (hother : ∀ j, j ≠ i → c'.session j = c.session j) (hself : c'.session i = .refresh row.id)
    (hputs : c.store.Puts row c'.store) (hkey : row.record.key = target.key)
    (hid : ∀ old, c.store.byKey.get? target.key = some old → old.id = row.id)
    (hjob : ∃ body now, jobs i = .put body now ∧ target.stored body now = some record)
    (hcurrent : row.record = record ∨
      ¬ Untouched c ∧ c.store.table.get? target.key = some row.record) :
    Saving target jobs start c' := by
  obtain ⟨body, now, hjob, hstored⟩ := hjob
  have hget (key : Uuid × String × String) := StoredRecords.get?_table_of_puts hputs key
  refine h.saves hother (hself ▸ rfl) (fun key hne => ?_) ?_ fun j => ?_
  · rw [hget, hkey, if_neg hne]
  · rw [hget, hkey, if_pos rfl]
    rcases hcurrent with rfl | ⟨htouched, hsame⟩
    · exact Or.inl (by rw [hjob]; exact hstored.symm)
    · exact Or.inr ⟨htouched, hsame.symm⟩
  · by_cases hji : j = i
    · rw [hji, hself, hjob]
      refine ⟨hstored ▸ rfl, row, ?_, rfl, trivial⟩
      rw [hputs.keys, if_pos hkey.symm]
    · rw [hother j hji]
      exact (h.sessions j).puts hputs hkey hid

theorem saving_insert {drawn : Uuid} {record : Record} (h : Saving target jobs start c)
    (hother : ∀ j, j ≠ i → c'.session j = c.session j) (hi : c.session i = .insert id record)
    (hid : c.store.rows.get? id = none) (hkey : c.store.byKey.get? record.key = none)
    (hflush : record.flush.isSome)
    (hstep : (c'.store, c'.session i) =
      (recordAction target (jobs i) drawn (.insert id record)).perform c.store) :
    Saving target jobs start c' := by
  obtain ⟨body, now, hjob, rfl⟩ := Fits.insert_inv (hi ▸ h.sessions i)
  obtain ⟨s', row, hinsert, rfl, hrow, hputs⟩ := StoredRecords.insertRecord_spec hid hkey hflush
  simp only [recordAction, Action.perform, hinsert, Prod.mk.injEq] at hstep
  obtain ⟨rfl, hself⟩ := hstep
  refine saving_puts h hother hself hputs (Record.key_flush hrow) (fun old hold => ?_)
    ⟨body, now, hjob, hrow⟩ (Or.inl rfl)
  exact absurd (hold.symm.trans hkey) (Option.some_ne_none old)

theorem saving_update {loaded : RecordRow} {record : Record} (h : Saving target jobs start c)
    (hother : ∀ j, j ≠ i → c'.session j = c.session j) (hi : c.session i = .update loaded record)
    (hflush : record.flush.isSome)
    (happly : ∀ stored ∈ c.store.rows.get? loaded.id,
      record.Overrides loaded.record stored.record ∨ record.Repeats loaded.record stored.record)
    (hstep : (c'.store, c'.session i) =
      (recordAction target (jobs i) id (.update loaded record)).perform c.store) :
    Saving target jobs start c' := by
  obtain ⟨body, now, stored, hjob, -, hput, hstored, hfound, hkey, hsame⟩ :=
    Fits.update_inv (hi ▸ h.sessions i)
  obtain ⟨flushed, hpatch, hcurrent⟩ := flush_patch hkey hflush hsame (happly stored hfound)
  obtain ⟨s', row, hupdate, hrow, rfl, hputs⟩ := StoredRecords.updateRecord_spec hfound hpatch
  simp only [recordAction, Action.perform, hupdate, Prod.mk.injEq] at hstep
  obtain ⟨rfl, hself⟩ := hstep
  obtain ⟨full, hfull⟩ := Option.isSome_iff_exists.mp hflush
  have hrowKey : row.record.key = target.key :=
    (Record.key_flush hpatch).trans (Table.get?_eq_some_iff.mp hstored).2
  refine saving_puts h hother (hrow ▸ hself) hputs hrowKey (fun old hold => ?_)
    ⟨body, now, hjob, hput.symm.trans hfull⟩ ?_
  · obtain rfl := Option.some.inj (hstored.symm.trans hold)
    exact (Table.get?_eq_some_iff.mp hfound).2.trans hrow.symm
  · refine hcurrent.imp (fun heq => Option.some.inj (heq.symm.trans hfull)) fun hleft => ?_
    refine ⟨hleft.1, ?_⟩
    rw [StoredRecords.get?_table, hstored, hleft.2]
    rfl

theorem saving_refresh {held : Uuid} (h : Saving target jobs start c)
    (hother : ∀ j, j ≠ i → c'.session j = c.session j) (hi : c.session i = .refresh held)
    (hstep : (c'.store, c'.session i) =
      (recordAction target (jobs i) id (.refresh held)).perform c.store) :
    Saving target jobs start c' := by
  obtain ⟨body, now, row, hjob, haccepted, hrow⟩ := Fits.refresh_inv (hi ▸ h.sessions i)
  simp only [recordAction, perform_read, hrow, Prod.mk.injEq] at hstep
  obtain ⟨hstore, hself⟩ := hstep
  refine h.idles hother hstore (by rw [hself, hi]; rfl) ?_
  rw [hjob, hself]
  exact haccepted

theorem saving_remove {gone : Uuid} (h : Saving target jobs start c)
    (hother : ∀ j, j ≠ i → c'.session j = c.session j) (hi : c.session i = .remove gone)
    (happly : c.store.rows.get? gone ≠ none → ∀ j, (c.session j).holds ≠ some gone)
    (hstep : (c'.store, c'.session i) =
      (recordAction target (jobs i) id (.remove gone)).perform c.store) :
    Saving target jobs start c' := by
  obtain ⟨now, hjob, htarget, hkey, huntouched⟩ := Fits.remove_inv (hi ▸ h.sessions i)
  simp only [recordAction, perform_commit_some, Prod.mk.injEq] at hstep
  obtain ⟨hstore, hself⟩ := hstep
  have hfits (hrest : ∀ j, j ≠ i → Fits target c'.store False (jobs j) (c.session j)) (j : ι) :
      Fits target c'.store False (jobs j) (c'.session j) := by
    by_cases hji : j = i
    · rw [hji, hjob, hself]
      exact htarget
    · rw [hother j hji]
      exact hrest j hji
  cases hrow : c.store.rows.get? gone with
  | none =>
    rw [StoredRecords.removeRecord_of_missing hrow] at hstore
    refine h.saves hother (hself ▸ rfl) (fun _ _ => by rw [hstore])
      (Or.inr ⟨fun hc => huntouched hc hrow, by rw [hstore]⟩) (hfits fun j _ => ?_)
    rw [hstore]
    exact (h.sessions j).saves
  | some row =>
    have hrowKey := hkey row hrow
    have hget (key : Uuid × String × String) : c'.store.table.get? key =
        if key = target.key then none else c.store.table.get? key := by
      rw [hstore, StoredRecords.get?_table_removeRecord hrow, hrowKey]
    refine h.saves hother (hself ▸ rfl) (fun key hne => (hget key).trans (if_neg hne))
      (Or.inl ?_) (hfits fun j _ => ?_)
    · rw [hget, if_pos rfl, hjob]
      rfl
    · rw [hstore]
      exact (h.sessions j).removes hrow hrowKey (happly (hrow ▸ Option.some_ne_none row) j)

theorem saving_answered (h : Saving target jobs start c)
    (hother : ∀ j, j ≠ i → c'.session j = c.session j) (hi : (c.session i).answered)
    (hstep : (c'.store, c'.session i) =
      (recordAction target (jobs i) id (c.session i)).perform c.store) :
    Saving target jobs start c' := by
  have hsame : (recordAction target (jobs i) id (c.session i)).perform c.store =
      (c.store, c.session i) := by
    cases hp : c.session i <;> first | rfl | (rw [hp] at hi; cases hi)
  obtain ⟨hstore, hself⟩ := Prod.mk.inj (hstep.trans hsame)
  exact h.idles hother hstore (by rw [hself]) (hself ▸ h.sessions i)

/-- A step that the condition allows leaves the record as one of the requests leaves it. -/
theorem saving_step [DecidableEq ι] (h : Saving target jobs start c)
    (hallowed : SavesApart target c i) :
    Saving target jobs start (step (recordProgram target jobs) c i id) := by
  have hother (j : ι) (hji : j ≠ i) :
      (step (recordProgram target jobs) c i id).session j = c.session j :=
    step_session_of_ne c hji id
  have hstep : ((step (recordProgram target jobs) c i id).store,
      (step (recordProgram target jobs) c i id).session i) =
        (recordAction target (jobs i) id (c.session i)).perform c.store :=
    step_eq_perform c i id
  unfold SavesApart at hallowed
  cases hi : c.session i with
  | lookup =>
    rw [hi] at hallowed hstep
    obtain ⟨hstore, hself⟩ := Prod.mk.inj (hstep.trans (perform_getRecord hallowed))
    exact saving_lookup h hother hi hself hstore hallowed
  | insert drawn record =>
    rw [hi] at hallowed hstep
    exact saving_insert h hother hi hallowed.1 hallowed.2.1 hallowed.2.2 hstep
  | update loaded record =>
    rw [hi] at hallowed hstep
    exact saving_update h hother hi hallowed.1 hallowed.2 hstep
  | refresh held =>
    rw [hi] at hstep
    exact saving_refresh h hother hi hstep
  | remove gone =>
    rw [hi] at hallowed hstep
    exact saving_remove h hother hi hallowed hstep
  | updated | deleted | crashed => exact saving_answered h hother (hi ▸ rfl) hstep

end Step

end StockQuant
