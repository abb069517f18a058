import StockQuant.RecordSaving

/-! Requests for one record of a user at the same time. -/

namespace StockQuant

open ReadCommitted KeyedTable

variable {ι : Type}

section Serial

variable {L : Type} [LinearOrder L] (collation : String ↪ L) {target : RecordTarget}
  {jobs : ι → RecordJob}

/-- The record is as the requests leave it one after the other in some order. -/
def Serial (target : RecordTarget) (jobs : ι → RecordJob) (start final : StoredRecords) : Prop :=
  ∃ order : List ι, order.Nodup ∧ (∀ i, i ∈ order) ∧
    final.table.get? target.key = (runRecords collation start.table
      (order.map fun i => (jobs i).request target)).1.get? target.key

/-- The last request of an order decides. -/
theorem get?_runRecords_snoc (records : RecordTable) (order : List ι) {i : ι}
    (haccepted : (jobs i).accepted target) :
    (runRecords collation records ((order ++ [i]).map fun i => (jobs i).request target)).1.get?
      target.key = (jobs i).leaves target := by
  rw [List.map_append, List.map_singleton, runRecords_snoc]
  dsimp only
  cases hjob : jobs i with
  | put body now =>
    rw [hjob] at haccepted
    obtain ⟨record, hstored⟩ := Option.isSome_iff_exists.mp haccepted
    obtain ⟨records', hanswer, hget⟩ := answerRecord_put collation _ hstored
    rw [hanswer, hget, if_pos rfl]
    exact hstored.symm
  | delete now =>
    rw [hjob] at haccepted
    obtain ⟨records', hanswer, hget⟩ := answerRecord_delete collation _ now haccepted
    rw [hanswer, hget, if_pos rfl]
    rfl

variable {c : Config ι StoredRecords RecordPoint} {schedule : List (ι × Uuid)}

theorem saving_start (hstart : ∀ i, c.session i = .lookup) : Saving target jobs c.store c := by
  refine ⟨fun _ _ => rfl, Or.inr ⟨fun i => ?_, rfl⟩, fun i => ?_⟩
  · rw [hstart i]
    rfl
  · rw [hstart i]
    cases jobs i <;> trivial

theorem saved_of_answered {p : RecordPoint} (h : p.answered) (hne : p ≠ .crashed) : p.saved := by
  cases p with
  | updated | deleted => rfl
  | crashed => exact absurd rfl hne
  | lookup | insert | update | refresh | remove => cases h

/-- However many requests there are. -/
theorem records_serial [DecidableEq ι] (hstart : ∀ i, c.session i = .lookup)
    (hfollows : Follows (recordProgram target jobs) (fun c i _ => SavesApart target c i) c schedule)
    (hanswered : ∀ i, ((run (recordProgram target jobs) c schedule).session i).answered) :
    (∀ i, (run (recordProgram target jobs) c schedule).session i ≠ .crashed) ∧
      Serial collation target jobs c.store (run (recordProgram target jobs) c schedule).store := by
  have hrun : Saving target jobs c.store (run (recordProgram target jobs) c schedule) :=
    (reaches_run hfollows).invariant (Saving target jobs c.store) (saving_start hstart)
      fun _ _ _ h hallowed => saving_step h hallowed
  have hcrashed (i : ι) : (run (recordProgram target jobs) c schedule).session i ≠ .crashed := by
    intro hi
    exact (hi ▸ hrun.sessions i).not_crashed
  have hsaved (i : ι) : ((run (recordProgram target jobs) c schedule).session i).saved :=
    saved_of_answered (hanswered i) (hcrashed i)
  refine ⟨hcrashed, ?_⟩
  rcases hrun.current with ⟨last, -, hlast⟩ | ⟨huntouched, hsame⟩
  · refine ⟨(schedule.map Prod.fst).dedup.erase last ++ [last], ?_, fun i => ?_, ?_⟩
    · have hnodup := List.nodup_dedup (schedule.map Prod.fst)
      rw [List.nodup_append]
      refine ⟨hnodup.erase last, List.nodup_singleton last, ?_⟩
      intro i hi j hj heq
      rw [List.mem_singleton.mp hj] at heq
      exact hnodup.not_mem_erase (heq ▸ hi)
    · rw [List.mem_append, List.mem_singleton]
      by_cases hi : i = last
      · exact Or.inr hi
      · refine Or.inl ((List.mem_erase_of_ne hi).mpr (List.mem_dedup.mpr ?_))
        by_contra hnever
        have hi' := hanswered i
        rw [session_run_of_not_mem hnever, hstart i] at hi'
        cases hi'
    · rw [get?_runRecords_snoc collation _ _ ((hrun.sessions last).accepted (hsaved last)), hlast]
  · refine ⟨[], List.nodup_nil, fun i => ?_, hsame⟩
    exact absurd huntouched (not_untouched (hsaved i))

end Serial

section Pairs

variable {target : RecordTarget} {jobs : Bool → RecordJob}
  {c : Config Bool StoredRecords RecordPoint} {start : StoredRecords} {i : Bool} {id : Uuid}

/-- A request has crashed, a put goes back to a row that is gone, or the record is as neither
request leaves it. -/
def OutOfTurn (target : RecordTarget) (jobs : Bool → RecordJob)
    (c : Config Bool StoredRecords RecordPoint) : Prop :=
  (∃ i, c.session i = .crashed) ∨
    (∃ i id, (c.session i).holds = some id ∧ c.store.rows.get? id = none ∧
      (c.session !i).answered) ∨
    (∀ i, (c.session i).saved ∧ (jobs i).accepted target ∧
      c.store.table.get? target.key ≠ (jobs i).leaves target)

theorem perform_answered {job : RecordJob} {p : RecordPoint} (hp : p.answered) (s : StoredRecords) :
    (recordAction target job id p).perform s = (s, p) := by
  cases p with
  | updated | deleted | crashed => rfl
  | lookup | insert | update | refresh | remove => cases hp

/-- A put whose row is gone fails at the latest when it reads the row again. -/
theorem perform_gone (id : Uuid) (job : RecordJob) {p : RecordPoint} {s : StoredRecords}
    {held : Uuid} (hp : p.holds = some held) (hgone : s.rows.get? held = none) :
    ((recordAction target job id p).perform s).1 = s ∧
      (((recordAction target job id p).perform s).2 = .crashed ∨
        ((recordAction target job id p).perform s).2.holds = some held) := by
  cases p with
  | update loaded record =>
    obtain rfl : loaded.id = held := Option.some.inj hp
    simp only [recordAction, Action.perform, StoredRecords.updateRecord, hgone]
    split_ifs
    · exact ⟨rfl, Or.inr rfl⟩
    · exact ⟨rfl, Or.inl rfl⟩
  | refresh id =>
    obtain rfl : id = held := Option.some.inj hp
    simp only [recordAction, perform_read, hgone]
    exact ⟨trivial, Or.inl trivial⟩
  | lookup | insert | remove | updated | deleted | crashed => cases hp

/-- What has been saved is not saved again. -/
theorem perform_saved (id : Uuid) (job : RecordJob) {p : RecordPoint} (hp : p.saved)
    (s : StoredRecords) :
    ((recordAction target job id p).perform s).1 = s ∧
      (((recordAction target job id p).perform s).2 = .crashed ∨
        ((recordAction target job id p).perform s).2.saved) := by
  cases p with
  | refresh id =>
    simp only [recordAction, perform_read, true_and]
    cases s.rows.get? id with
    | none => exact Or.inl rfl
    | some row => exact Or.inr rfl
  | updated | deleted => exact ⟨rfl, Or.inr rfl⟩
  | lookup | insert | update | remove | crashed => cases hp

theorem outOfTurn_step {c' : Config Bool StoredRecords RecordPoint} (h : OutOfTurn target jobs c)
    (hother : ∀ j, j ≠ i → c'.session j = c.session j)
    (hstep : (c'.store, c'.session i) =
      (recordAction target (jobs i) id (c.session i)).perform c.store) :
    OutOfTurn target jobs c' := by
  obtain ⟨hstore, hself⟩ := Prod.ext_iff.mp hstep
  dsimp only at hstore hself
  rcases h with ⟨j, hj⟩ | ⟨j, held, hj, hgone, hanswered⟩ | hsaved
  · refine Or.inl ⟨j, ?_⟩
    by_cases hji : j = i
    · rw [hji, hself, ← hji, hj]
      rfl
    · rw [hother j hji, hj]
  · by_cases hji : j = i
    · subst hji
      have hrest : c'.session (!j) = c.session (!j) := hother _ (by simp)
      obtain ⟨hsame, hcrashed | hholds⟩ := perform_gone id (jobs j) hj hgone
      · exact Or.inl ⟨j, hself.trans hcrashed⟩
      · refine Or.inr (Or.inl ⟨j, held, hself ▸ hholds, ?_, hrest ▸ hanswered⟩)
        rw [hstore, hsame, hgone]
    · have hi : i = !j := Bool.eq_not.mpr (Ne.symm hji)
      rw [hi] at hself hstore
      rw [perform_answered hanswered] at hself hstore
      refine Or.inr (Or.inl ⟨j, held, ?_, hstore ▸ hgone, hself ▸ hanswered⟩)
      rw [hother j hji, hj]
  · obtain ⟨hsame, hcrashed | hkept⟩ := perform_saved id (jobs i) (hsaved i).1 c.store
    · exact Or.inl ⟨i, hself.trans hcrashed⟩
    · refine Or.inr (Or.inr fun j => ⟨?_, (hsaved j).2.1, ?_⟩)
      · by_cases hji : j = i
        · rw [hji, hself]
          exact hkept
        · rw [hother j hji]
          exact (hsaved j).1
      · rw [hstore, hsame]
        exact (hsaved j).2.2

/-- An update that neither overrides what is stored nor repeats it leaves the record as neither
request does. -/
theorem outOfTurn_update {loaded : RecordRow} {record : Record}
    {c' : Config Bool StoredRecords RecordPoint} (h : Saving target jobs start c)
    (hi : c.session i = .update loaded record)
    (hnot : ¬ (record.flush.isSome ∧ ∀ stored ∈ c.store.rows.get? loaded.id,
      record.Overrides loaded.record stored.record ∨ record.Repeats loaded.record stored.record))
    (hother : ∀ j, j ≠ i → c'.session j = c.session j)
    (hstep : (c'.store, c'.session i) =
      (recordAction target (jobs i) id (.update loaded record)).perform c.store) :
    OutOfTurn target jobs c' := by
  obtain ⟨body, now, stored, hjob, hrecord, hput, hstored, hfound, hkey, hsame⟩ :=
    Fits.update_inv (hi ▸ h.sessions i)
  cases hpatch : (stored.record.patch loaded.record record).flush with
  | none =>
    have hrefused := StoredRecords.updateRecord_eq_none hfound hpatch
    simp only [recordAction, Action.perform, hrefused, Prod.mk.injEq] at hstep
    exact Or.inl ⟨i, hstep.2⟩
  | some flushed =>
    obtain ⟨s', row, hupdate, hrow, rfl, hputs⟩ := StoredRecords.updateRecord_spec hfound hpatch
    simp only [recordAction, Action.perform, hupdate, Prod.mk.injEq] at hstep
    obtain ⟨rfl, hself⟩ := hstep
    have haccepted : record.flush.isSome :=
      flush_isSome_of_patch (hrecord ▸ rfl) loaded.stored hpatch
    have happly : ¬ (record.Overrides loaded.record stored.record ∨
        record.Repeats loaded.record stored.record) := by
      intro happly
      refine hnot ⟨haccepted, fun found hmem => ?_⟩
      obtain rfl := Option.some.inj (hfound.symm.trans hmem)
      exact happly
    have hrowKey : row.record.key = target.key :=
      (Record.key_flush hpatch).trans (Table.get?_eq_some_iff.mp hstored).2
    have hget : c'.store.table.get? target.key = some row.record := by
      rw [StoredRecords.get?_table_of_puts hputs, if_pos hrowKey.symm]
    obtain ⟨j, hj, hleaves⟩ | ⟨huntouched, -⟩ := h.current
    · have hji : j ≠ i := by
        rintro rfl
        rw [hi] at hj
        cases hj
      have hstored' : (jobs j).leaves target = some stored.record := by
        rw [← hleaves, StoredRecords.get?_table, hstored]
        rfl
      refine Or.inr (Or.inr fun k => ?_)
      by_cases hki : k = i
      · rw [hki, hself, hjob]
        have haccepted' : (target.stored body now).isSome := hput ▸ haccepted
        refine ⟨rfl, haccepted', fun heq => happly (Or.inl ?_)⟩
        have hflush : record.flush = some row.record := hput.trans (heq.symm.trans hget)
        exact overrides_of_flush loaded.stored stored.stored hflush hpatch
      · obtain rfl : k = j := by
          rw [Bool.eq_not.mpr hki, Bool.eq_not.mpr hji]
        rw [hother k hki]
        refine ⟨hj, (h.sessions k).accepted hj, fun heq => happly (Or.inr ?_)⟩
        have hsame : row.record = stored.record :=
          Option.some.inj (hget.symm.trans (heq.trans hstored'))
        exact repeats_of_flush (hsame ▸ hpatch)
    · exact absurd (Or.inl (overrides_self (congrArg RecordRow.record (hsame huntouched).symm)))
        happly

theorem outOfTurn_of_not_allowed (h : Saving target jobs start c) (hnot : ¬ SavesApart target c i)
    {c' : Config Bool StoredRecords RecordPoint} (hother : ∀ j, j ≠ i → c'.session j = c.session j)
    (hstep : (c'.store, c'.session i) =
      (recordAction target (jobs i) id (c.session i)).perform c.store) :
    OutOfTurn target jobs c' := by
  unfold SavesApart at hnot
  cases hi : c.session i with
  | lookup =>
    rw [hi] at hnot hstep
    have hget : c.store.getRecord target.userId target.marketCode target.symbol = none :=
      StoredRecords.getRecord_eq_none hnot
    simp only [recordAction, perform_read, hget, Prod.mk.injEq] at hstep
    exact Or.inl ⟨i, hstep.2⟩
  | insert drawn record =>
    rw [hi] at hnot hstep
    have hrefused := StoredRecords.insertRecord_eq_none hnot
    simp only [recordAction, Action.perform, hrefused, Prod.mk.injEq] at hstep
    exact Or.inl ⟨i, hstep.2⟩
  | update loaded record =>
    rw [hi] at hnot hstep
    exact outOfTurn_update h hi hnot hother hstep
  | remove gone =>
    rw [hi] at hnot hstep
    simp only [recordAction, perform_commit_some, Prod.mk.injEq] at hstep
    obtain ⟨hstore, hself⟩ := hstep
    simp only [not_forall, not_not] at hnot
    obtain ⟨hrow, j, hj⟩ := hnot
    have hji : j ≠ i := by
      rintro rfl
      rw [hi] at hj
      cases hj
    refine Or.inr (Or.inl ⟨j, gone, (hother j hji).symm ▸ hj, ?_, ?_⟩)
    · rw [hstore, StoredRecords.get?_removeRecord, if_pos rfl]
    · rw [← Bool.eq_not.mpr (Ne.symm hji), hself]
      rfl
  | refresh | updated | deleted | crashed =>
    rw [hi] at hnot
    exact absurd trivial hnot

variable {L : Type} [LinearOrder L] {collation : String ↪ L} {schedule : List (Bool × Uuid)}

theorem OutOfTurn.not_serial (h : OutOfTurn target jobs c) (hanswered : ∀ i, (c.session i).answered)
    (hcrashed : ∀ i, c.session i ≠ .crashed) :
    ¬ Serial collation target jobs start c.store := by
  rintro ⟨order, -, hall, hserial⟩
  rcases h with ⟨i, hi⟩ | ⟨i, held, hi, -, -⟩ | hsaved
  · exact hcrashed i hi
  · have hi' := hanswered i
    cases hp : c.session i <;> simp [hp] at hi hi'
  · have hne : order ≠ [] := List.ne_nil_of_mem (hall true)
    rw [← List.dropLast_append_getLast hne,
      get?_runRecords_snoc collation _ _ (hsaved (order.getLast hne)).2.1] at hserial
    exact (hsaved (order.getLast hne)).2.2 hserial

/-- Two requests that have both answered have succeeded and left the record as in turn if and
only if they stay apart. -/
theorem record_race_iff (hstart : ∀ i, c.session i = .lookup)
    (hanswered : ∀ i, ((run (recordProgram target jobs) c schedule).session i).answered) :
    ((∀ i, (run (recordProgram target jobs) c schedule).session i ≠ .crashed) ∧
      Serial collation target jobs c.store (run (recordProgram target jobs) c schedule).store) ↔
      Follows (recordProgram target jobs) (fun c i _ => SavesApart target c i) c schedule := by
  constructor
  · rintro ⟨hcrashed, hserial⟩
    have hfollows := follows_or_spoiled (Saving target jobs c.store) (OutOfTurn target jobs)
      (fun _ _ _ => saving_step)
      (fun c i id h hnot => outOfTurn_of_not_allowed h hnot
        (fun _ hji => step_session_of_ne c hji id) (step_eq_perform c i id))
      (fun c i id h => outOfTurn_step h (fun _ hji => step_session_of_ne c hji id)
        (step_eq_perform c i id)) schedule (saving_start hstart)
    exact hfollows.resolve_right fun hout => hout.not_serial hanswered hcrashed hserial
  · intro hfollows
    exact records_serial collation hstart hfollows hanswered

end Pairs

def ownRecord : RecordTarget where
  userId := 1
  marketCode := "TWSE"
  symbol := "2330"

def keptRow : RecordRow where
  id := 5
  record := { newRecord ownRecord 0 with name := "kept", targetPrice := some 100 }
  stored := by decide +kernel

def keptRecords : StoredRecords where
  rows := ⟨[keptRow], by decide⟩
  keys_nodup := by decide

def noRecords : StoredRecords where
  rows := ∅
  keys_nodup := List.nodup_nil

def recordsStarted (store : StoredRecords) : Config Bool StoredRecords RecordPoint where
  store := store
  session _ := .lookup

/-- Either request draws its own id. -/
def recordSteps (turns : List Bool) : List (Bool × Uuid) :=
  turns.map fun i => (i, if i then 11 else 12)

def recordsRun (jobs : Bool → RecordJob) (store : StoredRecords) (turns : List Bool) :
    Config Bool StoredRecords RecordPoint :=
  run (recordProgram ownRecord jobs) (recordsStarted store) (recordSteps turns)

def twoPuts (first second : UpsertBody) (i : Bool) : RecordJob :=
  if i then .put first 60 else .put second 70

def overridingPuts : Bool → RecordJob :=
  twoPuts { name := "first", targetPrice := some 110 } { name := "second", targetPrice := some 120 }

/-- Both have looked the record up before either commits. -/
def overlappingTurns : List Bool := [true, false, true, false, true, false]

theorem record_race_iff_overlapping :
    (∀ i, (recordsRun overridingPuts keptRecords overlappingTurns).session i ≠ .crashed) ∧
      Serial (Function.Embedding.refl String) ownRecord overridingPuts keptRecords
        (recordsRun overridingPuts keptRecords overlappingTurns).store := by
  have hfollows : Follows (recordProgram ownRecord overridingPuts)
      (fun c i _ => SavesApart ownRecord c i) (recordsStarted keptRecords)
      (recordSteps overlappingTurns) := by
    decide +kernel
  exact (record_race_iff
    (show ∀ i, (recordsStarted keptRecords).session i = .lookup from fun _ => rfl)
    (show ∀ i, ((recordsRun overridingPuts keptRecords overlappingTurns).session i).answered by
      decide +kernel)).mpr hfollows

/-- The first changes only the target price, and the second only the name. -/
def crossingPuts : Bool → RecordJob :=
  twoPuts { name := "kept", targetPrice := some 110 } { name := "second", targetPrice := some 100 }

def putAndDelete (i : Bool) : RecordJob := if i then .put { name := "first" } 60 else .delete 70

theorem record_race_fails :
    ((∀ i, ((recordsRun overridingPuts noRecords overlappingTurns).session i).answered) ∧
      (recordsRun overridingPuts noRecords overlappingTurns).session false = .crashed) ∧
    ((∀ i, ((recordsRun putAndDelete keptRecords [true, false, false, true]).session i).answered) ∧
      (recordsRun putAndDelete keptRecords [true, false, false, true]).session true = .crashed) ∧
    (∀ i, ((recordsRun crossingPuts keptRecords overlappingTurns).session i).answered) ∧
      ¬ Serial (Function.Embedding.refl String) ownRecord crossingPuts keptRecords
        (recordsRun crossingPuts keptRecords overlappingTurns).store := by
  have hanswered : ∀ i,
      ((recordsRun crossingPuts keptRecords overlappingTurns).session i).answered := by
    decide +kernel
  refine ⟨by decide +kernel, by decide +kernel, hanswered, ?_⟩
  have hsaved : ∀ i, ((recordsRun crossingPuts keptRecords overlappingTurns).session i).saved ∧
      (recordsRun crossingPuts keptRecords overlappingTurns).store.table.get? ownRecord.key ≠
        (crossingPuts i).leaves ownRecord := by
    decide +kernel
  have haccepted (i : Bool) : (crossingPuts i).accepted ownRecord := by
    cases i
    · exact show (ownRecord.stored _ _).isSome by decide +kernel
    · exact show (ownRecord.stored _ _).isSome by decide +kernel
  refine OutOfTurn.not_serial (Or.inr (Or.inr fun i => ⟨(hsaved i).1, haccepted i, (hsaved i).2⟩))
    hanswered ?_
  decide +kernel

end StockQuant
