import StockQuant.PriceOverlap
import StockQuant.ReadCommitted

/-! Two uploads of prices for the same day at the same time. -/

namespace StockQuant

open KeyedTable ReadCommitted

inductive UploadPoint where
  | select
  | commit (loaded : List DailyPrice)
  | finished (inserted updated : Nat)
  | failed
  deriving DecidableEq

@[simp] def UploadPoint.isFinished : UploadPoint → Bool
  | .finished _ _ => true
  | _ => false

def uploadAction (body : DailyPricesIngestBody) : UploadPoint → Action PriceTable UploadPoint
  | .select => .read fun prices => .commit (dayRows prices body.tradeDate)
  | .commit loaded =>
    let acc := body.items.foldl (upsertItem body.tradeDate) { existing := loaded }
    .commit (fun prices => (commitPrices body loaded prices).map (·.1))
      (.finished acc.inserted acc.updated) .failed
  | .finished inserted updated => .work (.finished inserted updated)
  | .failed => .work .failed

def uploadProgram (bodies : Bool → DailyPricesIngestBody) (i : Bool) (_ : Unit) :
    UploadPoint → Action PriceTable UploadPoint := uploadAction (bodies i)

/-- The rows that the commit adds are not there yet, and over all symbols that both bodies
bring it either overrides the other upload or leaves what that one stored. -/
structure Clear (first second : DailyPricesIngestBody) (loaded : List DailyPrice)
    (prices : PriceTable) : Prop where
  added : ∀ bar ∈ newBars loaded second.items,
    prices.get? (second.tradeDate, bar.1.symbol) = none
  shared :
    (∀ old ∈ loaded, barsOf first.items old.symbol ≠ [] → barsOf second.items old.symbol ≠ [] →
      ∀ stored ∈ prices.get? old.key, Overrides (barsOf second.items old.symbol) old stored) ∨
    (∀ old ∈ loaded, barsOf first.items old.symbol ≠ [] → barsOf second.items old.symbol ≠ [] →
      ∀ stored ∈ prices.get? old.key,
        Leaves (barsOf first.items old.symbol) (barsOf second.items old.symbol) old stored)

def CommitsClear (bodies : Bool → DailyPricesIngestBody)
    (c : Config Bool PriceTable UploadPoint) (i : Bool) : Prop :=
  match c.session i with
  | .commit loaded => Clear (bodies !i) (bodies i) loaded c.store
  | _ => True

instance (first second : DailyPricesIngestBody) (loaded : List DailyPrice) (prices : PriceTable) :
    Decidable (Clear first second loaded prices) :=
  decidable_of_iff (_ ∧ _) ⟨fun ⟨h1, h2⟩ => ⟨h1, h2⟩, fun h => ⟨h.added, h.shared⟩⟩

instance (bodies : Bool → DailyPricesIngestBody) (c : Config Bool PriceTable UploadPoint)
    (i : Bool) : Decidable (CommitsClear bodies c i) := by
  unfold CommitsClear
  split <;> infer_instance

def afterUpload (prices : PriceTable) (body : DailyPricesIngestBody) : Option PriceTable :=
  (upsertDailyPrices prices body).map (·.1)

/-- The table is the one after the first body and then the second, as a map from keys to
rows. -/
def InTurn (prices : PriceTable) (first second : DailyPricesIngestBody) (prices' : PriceTable) :
    Prop :=
  ∃ after, (afterUpload prices first).bind (afterUpload · second) = some after ∧
    ∀ key, prices'.get? key = after.get? key

section Commits

variable {prices prices₁ prices' : PriceTable} {first second body : DailyPricesIngestBody}
  {loaded loaded' : List DailyPrice} {inserted updated : Nat} {row old : DailyPrice}

theorem afterUpload_eq_some_iff : afterUpload prices body = some prices' ↔
    ∃ inserted updated, commitPrices body (dayRows prices body.tradeDate) prices =
      some (prices', inserted, updated) := by
  unfold afterUpload
  rw [upsertDailyPrices_eq, Option.map_eq_some_iff]
  constructor
  · rintro ⟨⟨table, inserted, updated⟩, h, rfl⟩
    exact ⟨inserted, updated, h⟩
  · rintro ⟨inserted, updated, h⟩
    exact ⟨_, h, rfl⟩

theorem isSome_afterUpload (hstored : PricesStored prices) (hload : Uploadable prices body) :
    ∃ prices', afterUpload prices body = some prices' := by
  obtain ⟨result, h⟩ :=
    Option.isSome_iff_exists.mp ((isSome_upsertDailyPrices_iff hstored).mpr hload)
  exact ⟨result.1, Option.map_eq_some_iff.mpr ⟨result, h, rfl⟩⟩

theorem find?_dayRows_key (day : Date) (key : Date × String) :
    (dayRows prices day).find? (·.key = key) = if key.1 = day then prices.get? key else none := by
  unfold dayRows Table.get?
  rw [List.find?_filter]
  split_ifs with hday
  · refine congrArg (List.find? · prices.rows) (funext fun row => ?_)
    by_cases hkey : row.key = key
    · have hrow : row.tradeDate = day := (congrArg Prod.fst hkey).trans hday
      simp [hkey, hrow]
    · simp [hkey]
  · refine List.find?_eq_none.mpr fun row _ h => hday ?_
    obtain ⟨hrow, hkey⟩ : row.tradeDate = day ∧ row.key = key := by simpa using h
    exact (congrArg Prod.fst hkey).symm.trans hrow

theorem rowAfter_unread
    (h : row.tradeDate = body.tradeDate → prices.get? row.key = none) :
    rowAfter body (dayRows prices body.tradeDate) row = some row := by
  unfold rowAfter
  rw [find?_dayRows_key]
  split_ifs with hday
  · rw [h hday]
  · rfl

theorem patch_unchanged (row old : DailyPrice) : row.patch old old = row := by
  unfold DailyPrice.patch sent
  simp only [if_true]

theorem rowAfter_read (hrow : row.flush = some row) (hday : row.tradeDate = body.tradeDate)
    (hold : prices.get? row.key = some old) :
    rowAfter body (dayRows prices body.tradeDate) row =
      (row.patch old (barRow (barsOf body.items row.symbol) old)).flush := by
  unfold rowAfter
  rw [find?_dayRows_key, if_pos (show row.key.1 = _ from hday), hold, ← draft_eq_barRow]
  dsimp only
  split_ifs with hsame
  · rw [hsame, patch_unchanged, hrow]
  · rfl

theorem commitPrices_congr
    (hrows : ∀ row ∈ prices.rows, rowAfter body loaded row = rowAfter body loaded' row)
    (hnew : newBars loaded body.items = newBars loaded' body.items) :
    commitPrices body loaded prices = commitPrices body loaded' prices := by
  ext ⟨prices', inserted, updated⟩
  rw [commitPrices_eq_some_iff, commitPrices_eq_some_iff, mapM_congr_mem hrows, hnew]

theorem afterUpload_get?_of_bars (hstored : PricesStored prices)
    (h : afterUpload prices body = some prices') {symbol : String}
    (hbars : barsOf body.items symbol ≠ []) :
    prices'.get? (body.tradeDate, symbol) =
      (barRow (barsOf body.items symbol) (rowBefore prices body.tradeDate symbol)).flush := by
  obtain ⟨inserted, updated, h⟩ := afterUpload_eq_some_iff.mp h
  rw [← upsertDailyPrices_eq] at h
  exact upsertDailyPrices_get? hstored h hbars

theorem afterUpload_get?_of_nil (hstored : PricesStored prices)
    (h : afterUpload prices body = some prices') {key : Date × String}
    (hbars : key.1 = body.tradeDate → barsOf body.items key.2 = []) :
    prices'.get? key = prices.get? key := by
  obtain ⟨inserted, updated, h⟩ := afterUpload_eq_some_iff.mp h
  rw [← upsertDailyPrices_eq] at h
  exact upsertDailyPrices_get?_of_nil hstored h hbars

theorem afterUpload_get? (hstored : PricesStored prices)
    (h : afterUpload prices body = some prices') {symbol : String}
    (hold : prices.get? (body.tradeDate, symbol) = some old) :
    prices'.get? (body.tradeDate, symbol) = (barRow (barsOf body.items symbol) old).flush := by
  by_cases hbars : barsOf body.items symbol = []
  · rw [afterUpload_get?_of_nil hstored h fun _ => hbars, hold, hbars]
    exact (hstored old (Table.get?_eq_some_iff.mp hold).1).symm
  · rw [afterUpload_get?_of_bars hstored h hbars]
    unfold rowBefore
    rw [hold, Option.getD_some]

theorem uploadable_of_afterUpload (hstored : PricesStored prices)
    (h : afterUpload prices body = some prices') : Uploadable prices body := by
  obtain ⟨uploaded, hupload, -⟩ := Option.map_eq_some_iff.mp h
  exact (isSome_upsertDailyPrices_iff hstored).mp (Option.isSome_of_eq_some hupload)

theorem afterUpload_stored (hstored : PricesStored prices)
    (h : afterUpload prices body = some prices') : PricesStored prices' := by
  obtain ⟨inserted, updated, h⟩ := afterUpload_eq_some_iff.mp h
  exact pricesStored_commit hstored h

theorem afterUpload_uploadable (hstored : PricesStored prices) (hload : Uploadable prices second)
    (h : afterUpload prices first = some prices') : Uploadable prices' second := by
  obtain ⟨inserted, updated, h⟩ := afterUpload_eq_some_iff.mp h
  exact uploadable_after hstored hload h

theorem get?_of_afterUpload (h : afterUpload prices body = some prices') {key : Date × String}
    (hnone : prices'.get? key = none) : prices.get? key = none := by
  obtain ⟨inserted, updated, h⟩ := afterUpload_eq_some_iff.mp h
  exact get?_of_commit h hnone

end Commits

section Second

variable {prices prices₁ prices' : PriceTable} {first second : DailyPricesIngestBody}

/-- What the second commit brings and has not read is not there. -/
theorem barsOf_unread (hclear : Clear first second (dayRows prices second.tradeDate) prices₁)
    {row : DailyPrice} (hrow : row ∈ prices₁.rows) (hday : row.tradeDate = second.tradeDate)
    (hnone : prices.get? row.key = none) : barsOf second.items row.symbol = [] := by
  refine List.eq_nil_iff_forall_not_mem.mpr fun bar hbar => ?_
  have hkey : row.key = (second.tradeDate, bar.1.symbol) :=
    Prod.ext hday (of_decide_eq_true (List.mem_filter.mp hbar).2).symm
  have hsymbol : bar.1.symbol = row.symbol := of_decide_eq_true (List.mem_filter.mp hbar).2
  have hadded := hclear.added bar (mem_newBars.mpr ⟨hsymbol ▸ hbar, hkey ▸ hnone⟩)
  rw [← hkey, Table.get?_of_mem hrow] at hadded
  cases hadded

/-- The row that the first upload has made of one that the second has read. -/
theorem row_of_read (hstored : PricesStored prices) (hday : first.tradeDate = second.tradeDate)
    (hfirst : afterUpload prices first = some prices₁) {row old : DailyPrice}
    (hrow : row ∈ prices₁.rows) (hdate : row.tradeDate = second.tradeDate)
    (hold : prices.get? row.key = some old) :
    old ∈ dayRows prices second.tradeDate ∧ old.key = row.key ∧
      (barRow (barsOf first.items row.symbol) old).flush = some row := by
  obtain ⟨hmem, hkey⟩ := Table.get?_eq_some_iff.mp hold
  have hkey' : row.key = (first.tradeDate, row.symbol) := Prod.ext (hdate.trans hday.symm) rfl
  refine ⟨List.mem_filter.mpr ⟨hmem, decide_eq_true ((congrArg Prod.fst hkey).trans hdate)⟩, hkey, ?_⟩
  have hget := Table.get?_of_mem hrow
  rw [hkey'] at hold hget
  rw [← hget, afterUpload_get? hstored hfirst hold]

theorem row_eq_of_nil (hstored : PricesStored prices) {bars : List Bar} {row old : DailyPrice}
    (hold : old ∈ dayRows prices second.tradeDate) (hrow : (barRow bars old).flush = some row)
    (hbars : bars = []) : row = old := by
  subst hbars
  exact Option.some.inj (hrow.symm.trans (hstored old (List.mem_filter.mp hold).1))

theorem newBars_unread (hfirst : afterUpload prices first = some prices₁)
    (hclear : Clear first second (dayRows prices second.tradeDate) prices₁) :
    newBars (dayRows prices second.tradeDate) second.items =
      newBars (dayRows prices₁ second.tradeDate) second.items := by
  refine List.filter_congr fun bar hbar => ?_
  simp only [mem_dayRows_symbols, decide_eq_decide, not_not]
  constructor
  · intro hnone
    have hbars : bar ∈ barsOf second.items bar.1.symbol :=
      List.mem_filter.mpr ⟨hbar, decide_eq_true rfl⟩
    exact hclear.added bar (mem_newBars.mpr ⟨hbars, hnone⟩)
  · exact get?_of_afterUpload hfirst

theorem commit_of_overrides (hstored : PricesStored prices)
    (hday : first.tradeDate = second.tradeDate)
    (hfirst : afterUpload prices first = some prices₁)
    (hclear : Clear first second (dayRows prices second.tradeDate) prices₁)
    (hover : ∀ old ∈ dayRows prices second.tradeDate, barsOf first.items old.symbol ≠ [] →
      barsOf second.items old.symbol ≠ [] → ∀ stored ∈ prices₁.get? old.key,
        Overrides (barsOf second.items old.symbol) old stored) :
    commitPrices second (dayRows prices second.tradeDate) prices₁ =
      commitPrices second (dayRows prices₁ second.tradeDate) prices₁ := by
  have hstored₁ := afterUpload_stored hstored hfirst
  refine commitPrices_congr (fun row hrow => ?_) (newBars_unread hfirst hclear)
  rw [rowAfter_dayRows hstored₁ hrow]
  split_ifs with hdate
  · cases hold : prices.get? row.key with
    | none =>
      rw [rowAfter_unread fun _ => hold, barsOf_unread hclear hrow hdate hold]
      exact (hstored₁ row hrow).symm
    | some old =>
      obtain ⟨hmem, hkey, hflush⟩ := row_of_read hstored hday hfirst hrow hdate hold
      have hsymbol : old.symbol = row.symbol := congrArg Prod.snd hkey
      rw [rowAfter_read (hstored₁ row hrow) hdate hold]
      refine congrArg DailyPrice.flush ?_
      by_cases hsecond : barsOf second.items row.symbol = []
      · rw [hsecond]
        exact patch_unchanged row old
      · by_cases hnone : barsOf first.items row.symbol = []
        · obtain rfl := row_eq_of_nil hstored hmem hflush hnone
          exact patch_self (barRow_key _ row)
        · rw [← hsymbol] at hsecond hnone ⊢
          exact patch_of_overrides hsecond (hover old hmem hnone hsecond row
            (hkey ▸ Table.get?_of_mem hrow))
  · exact rowAfter_unread fun hdate' => absurd hdate' hdate

section Leaving

variable {prices₂ prices₂₁ : PriceTable}

theorem rowAfter_of_leaves (hstored : PricesStored prices)
    (hday : first.tradeDate = second.tradeDate) (hfirst : afterUpload prices first = some prices₁)
    (hsecond : afterUpload prices second = some prices₂)
    (hthen : afterUpload prices₂ first = some prices₂₁)
    (hclear : Clear first second (dayRows prices second.tradeDate) prices₁)
    (hleaves : ∀ old ∈ dayRows prices second.tradeDate, barsOf first.items old.symbol ≠ [] →
      barsOf second.items old.symbol ≠ [] → ∀ stored ∈ prices₁.get? old.key,
        Leaves (barsOf first.items old.symbol) (barsOf second.items old.symbol) old stored)
    {row : DailyPrice} (hrow : row ∈ prices₁.rows) :
    rowAfter second (dayRows prices second.tradeDate) row = prices₂₁.get? row.key := by
  have hstored₁ := afterUpload_stored hstored hfirst
  have hstored₂ := afterUpload_stored hstored hsecond
  have hget := Table.get?_of_mem hrow
  by_cases hdate : row.tradeDate = second.tradeDate
  · have hkey₁ : row.key = (first.tradeDate, row.symbol) := Prod.ext (hdate.trans hday.symm) rfl
    have hkey₂ : row.key = (second.tradeDate, row.symbol) := Prod.ext hdate rfl
    cases hold : prices.get? row.key with
    | none =>
      -- The first upload has added the row, and would add it after the second one too.
      have hnil := barsOf_unread hclear hrow hdate hold
      have hnone : prices₂.get? row.key = none :=
        (afterUpload_get?_of_nil hstored hsecond fun _ => hnil).trans hold
      have hbars : barsOf first.items row.symbol ≠ [] := fun hnil' => by
        rw [afterUpload_get?_of_nil hstored hfirst fun _ => hnil', hold] at hget
        cases hget
      rw [rowAfter_unread fun _ => hold, ← hget]
      rw [hkey₁] at hold hnone ⊢
      rw [afterUpload_get?_of_bars hstored hfirst hbars, rowBefore_of_none hold,
        afterUpload_get?_of_bars hstored₂ hthen hbars, rowBefore_of_none hnone]
    | some old =>
      obtain ⟨hmem, hkey, hflush⟩ := row_of_read hstored hday hfirst hrow hdate hold
      have hsymbol : old.symbol = row.symbol := congrArg Prod.snd hkey
      have hstoredOld := hstored old (List.mem_filter.mp hmem).1
      rw [rowAfter_read (hstored₁ row hrow) hdate hold]
      rw [hkey₂] at hold
      have hget₂ := afterUpload_get? hstored hsecond hold
      cases hflushed : (barRow (barsOf second.items row.symbol) old).flush with
      | none =>
        rw [hflushed] at hget₂
        rw [get?_of_afterUpload hsecond hget₂] at hold
        cases hold
      | some flushed =>
        rw [hflushed, ← hkey₂, hkey₁] at hget₂
        rw [hkey₁, afterUpload_get? hstored₂ hthen hget₂]
        by_cases hothers : barsOf first.items row.symbol = []
        · obtain rfl := row_eq_of_nil hstored hmem hflush hothers
          rw [patch_self (barRow_key _ row), hflushed, hothers]
          exact (flush_stored hflushed).symm
        · by_cases hbars : barsOf second.items row.symbol = []
          · rw [hbars] at hflushed ⊢
            obtain rfl := Option.some.inj (hstoredOld.symm.trans hflushed)
            rw [hflush]
            exact (congrArg DailyPrice.flush (patch_unchanged row old)).trans (hstored₁ row hrow)
          · have h := hleaves old hmem (hsymbol ▸ hothers) (hsymbol ▸ hbars) row
              (hkey ▸ hget)
            rw [hsymbol] at h
            exact flush_of_leaves hothers hflush hflushed h
  · rw [rowAfter_unread fun hdate' => absurd hdate' hdate,
      afterUpload_get?_of_nil hstored₂ hthen fun h => absurd (h.trans hday) hdate,
      afterUpload_get?_of_nil hstored hsecond fun h => absurd h hdate, ← hget,
      afterUpload_get?_of_nil hstored hfirst fun h => absurd (h.trans hday) hdate]

theorem isSome_of_leaves (hsecond : afterUpload prices second = some prices₂)
    (hthen : afterUpload prices₂ first = some prices₂₁)
    (hclear : Clear first second (dayRows prices second.tradeDate) prices₁)
    (hrows : ∀ row ∈ prices₁.rows,
      rowAfter second (dayRows prices second.tradeDate) row = prices₂₁.get? row.key) :
    (commitPrices second (dayRows prices second.tradeDate) prices₁).isSome := by
  obtain ⟨inserted, updated, h⟩ := afterUpload_eq_some_iff.mp hsecond
  obtain ⟨-, hflush, hnodup, -⟩ := isSome_commitPrices_iff.mp (Option.isSome_of_eq_some h)
  refine isSome_commitPrices_iff.mpr ⟨fun row hrow => ?_, hflush, hnodup, fun bar hbar => ?_⟩
  · rw [Option.isSome_iff_ne_none]
    intro hnone
    have hget := hrows row hrow
    have hunread : prices.get? row.key = none :=
      get?_of_afterUpload hsecond (get?_of_afterUpload hthen (hget ▸ hnone))
    rw [rowAfter_unread fun _ => hunread] at hnone
    cases hnone
  · rintro hmem
    obtain ⟨row, hrow, hkey⟩ := List.mem_map.mp hmem
    exact Table.get?_eq_none_iff.mp (hclear.added bar hbar) row hrow hkey

theorem get?_of_leaves (hstored : PricesStored prices)
    (hfirst : afterUpload prices first = some prices₁)
    (hsecond : afterUpload prices second = some prices₂)
    (hthen : afterUpload prices₂ first = some prices₂₁)
    (hclear : Clear first second (dayRows prices second.tradeDate) prices₁)
    (hrows : ∀ row ∈ prices₁.rows,
      rowAfter second (dayRows prices second.tradeDate) row = prices₂₁.get? row.key)
    {inserted updated : Nat}
    (h : commitPrices second (dayRows prices second.tradeDate) prices₁ =
      some (prices', inserted, updated)) (key : Date × String) :
    prices'.get? key = prices₂₁.get? key := by
  ext row'
  rw [commitPrices_get? h]
  cases hget : prices₁.get? key with
  | some row =>
    obtain ⟨hrow, rfl⟩ := Table.get?_eq_some_iff.mp hget
    rw [← hrows row hrow]
    constructor
    · rintro (⟨_, hsame, hafter⟩ | ⟨bar, hbar, hkey, -⟩)
      · obtain rfl := Option.some.inj hsame
        exact hafter
      · rw [← hkey, hclear.added bar hbar] at hget
        cases hget
    · exact fun hafter => Or.inl ⟨row, rfl, hafter⟩
  | none =>
    -- The first body brings nothing for the key, and the second adds what it would add alone.
    have hnone := get?_of_afterUpload hfirst hget
    have hnil : key.1 = first.tradeDate → barsOf first.items key.2 = [] := by
      intro hdate
      by_contra hbars
      have haccepted := (uploadable_of_afterUpload hstored hfirst).accepted key.2 hbars
      rw [← afterUpload_get?_of_bars hstored hfirst hbars, ← hdate, hget] at haccepted
      cases haccepted
    obtain ⟨_, _, hcommit⟩ := afterUpload_eq_some_iff.mp hsecond
    rw [afterUpload_get?_of_nil (afterUpload_stored hstored hsecond) hthen hnil,
      commitPrices_get? hcommit, hnone]

end Leaving

/-- A second commit over rows read before the first one goes through and leaves what one of
the two orders leaves. -/
theorem second_commit (hstored : PricesStored prices) (hday : first.tradeDate = second.tradeDate)
    (hload : Uploadable prices second) (hfirst : afterUpload prices first = some prices₁)
    (hclear : Clear first second (dayRows prices second.tradeDate) prices₁) :
    ∃ prices' inserted updated,
      commitPrices second (dayRows prices second.tradeDate) prices₁ =
        some (prices', inserted, updated) ∧
      (InTurn prices first second prices' ∨ InTurn prices second first prices') := by
  have hstored₁ := afterUpload_stored hstored hfirst
  rcases hclear.shared with hover | hleaves
  · obtain ⟨after, hafter⟩ :=
      isSome_afterUpload hstored₁ (afterUpload_uploadable hstored hload hfirst)
    obtain ⟨inserted, updated, hcommit⟩ := afterUpload_eq_some_iff.mp hafter
    rw [← commit_of_overrides hstored hday hfirst hclear hover] at hcommit
    refine ⟨after, inserted, updated, hcommit, Or.inl ⟨after, ?_, fun _ => rfl⟩⟩
    rw [hfirst]
    exact hafter
  · obtain ⟨prices₂, hsecond⟩ := isSome_afterUpload hstored hload
    obtain ⟨prices₂₁, hthen⟩ := isSome_afterUpload (afterUpload_stored hstored hsecond)
      (afterUpload_uploadable hstored (uploadable_of_afterUpload hstored hfirst) hsecond)
    have hrows : ∀ row ∈ prices₁.rows,
        rowAfter second (dayRows prices second.tradeDate) row = prices₂₁.get? row.key :=
      fun _ => rowAfter_of_leaves hstored hday hfirst hsecond hthen hclear hleaves
    obtain ⟨⟨prices', inserted, updated⟩, hcommit⟩ :=
      Option.isSome_iff_exists.mp (isSome_of_leaves hsecond hthen hclear hrows)
    refine ⟨prices', inserted, updated, hcommit, Or.inr ⟨prices₂₁, ?_, ?_⟩⟩
    · rw [hsecond]
      exact hthen
    · exact get?_of_leaves hstored hfirst hsecond hthen hclear hrows hcommit

end Second

inductive Uploading (prices : PriceTable) (bodies : Bool → DailyPricesIngestBody)
    (c : Config Bool PriceTable UploadPoint) : Prop where
  | none (hstore : c.store = prices)
      (h : ∀ i, c.session i = .select ∨
        c.session i = .commit (dayRows prices (bodies i).tradeDate))
  | one (i : Bool) (hi : (c.session i).isFinished)
      (hstore : afterUpload prices (bodies i) = some c.store)
      (h : c.session (!i) = .select ∨
        c.session (!i) = .commit (dayRows prices (bodies !i).tradeDate) ∨
        c.session (!i) = .commit (dayRows c.store (bodies !i).tradeDate))
  | both (i : Bool) (h : ∀ j, (c.session j).isFinished)
      (hstore : InTurn prices (bodies i) (bodies !i) c.store)

section Step

variable {prices : PriceTable} {bodies : Bool → DailyPricesIngestBody}
  {c c' : Config Bool PriceTable UploadPoint} {k : Bool}

theorem perform_finished (body : DailyPricesIngestBody) {p : UploadPoint} (hp : p.isFinished)
    (prices : PriceTable) : (uploadAction body p).perform prices = (prices, p) := by
  cases p with
  | finished inserted updated => rfl
  | _ => cases hp

theorem perform_uploadCommit {body : DailyPricesIngestBody} {loaded : List DailyPrice}
    {prices prices' : PriceTable} {inserted updated : Nat}
    (h : commitPrices body loaded prices = some (prices', inserted, updated)) :
    ((uploadAction body (.commit loaded)).perform prices).1 = prices' ∧
      ((uploadAction body (.commit loaded)).perform prices).2.isFinished := by
  simp only [uploadAction, Action.perform, h, Option.map_some, UploadPoint.isFinished, and_self]

theorem uploading_before (hload : Uploadable prices (bodies k)) (hstored : PricesStored prices)
    (hprices : c.store = prices)
    (h : ∀ i, c.session i = .select ∨ c.session i = .commit (dayRows prices (bodies i).tradeDate))
    (hother : c'.session (!k) = c.session !k)
    (hself : c'.session k = ((uploadAction (bodies k) (c.session k)).perform c.store).2)
    (hstore : c'.store = ((uploadAction (bodies k) (c.session k)).perform c.store).1) :
    Uploading prices bodies c' := by
  subst hprices
  rcases h k with hk | hk
  · rw [hk] at hself hstore
    refine .none hstore fun i => ?_
    rcases Bool.eq_or_eq_not i k with rfl | rfl
    · exact Or.inr hself
    · exact hother ▸ h !k
  · obtain ⟨after, hafter⟩ := isSome_afterUpload hstored hload
    obtain ⟨inserted, updated, hcommit⟩ := afterUpload_eq_some_iff.mp hafter
    obtain ⟨hprices', hfinished⟩ := perform_uploadCommit hcommit
    rw [hk] at hself hstore
    rw [hprices'] at hstore
    refine .one k (hself ▸ hfinished) (hstore ▸ hafter) ?_
    rw [hother]
    exact (h !k).imp_right Or.inl

theorem uploading_after (hload : Uploadable prices (bodies k)) (hstored : PricesStored prices)
    (hday : (bodies !k).tradeDate = (bodies k).tradeDate) (hclear : CommitsClear bodies c k)
    (hfirst : afterUpload prices (bodies !k) = some c.store) (hdone : (c.session !k).isFinished)
    (h : c.session k = .select ∨ c.session k = .commit (dayRows prices (bodies k).tradeDate) ∨
      c.session k = .commit (dayRows c.store (bodies k).tradeDate))
    (hother : c'.session (!k) = c.session !k)
    (hself : c'.session k = ((uploadAction (bodies k) (c.session k)).perform c.store).2)
    (hstore : c'.store = ((uploadAction (bodies k) (c.session k)).perform c.store).1) :
    Uploading prices bodies c' := by
  have hboth {after : PriceTable} {loaded : List DailyPrice} {inserted updated : Nat}
      (hk : c.session k = .commit loaded)
      (hcommit : commitPrices (bodies k) loaded c.store = some (after, inserted, updated))
      (hturn : InTurn prices (bodies !k) (bodies k) after ∨
        InTurn prices (bodies k) (bodies !k) after) : Uploading prices bodies c' := by
    obtain ⟨hprices', hfinished⟩ := perform_uploadCommit hcommit
    rw [hk] at hself hstore
    rw [hprices'] at hstore
    have hall (j : Bool) : (c'.session j).isFinished := by
      rcases Bool.eq_or_eq_not j k with rfl | rfl
      · exact hself ▸ hfinished
      · exact hother ▸ hdone
    rcases hturn with hturn | hturn
    · refine .both (!k) hall ?_
      rw [Bool.not_not, hstore]
      exact hturn
    · exact .both k hall (hstore ▸ hturn)
  rcases h with hk | hk | hk
  · rw [hk] at hself hstore
    have hsame : c'.store = c.store := hstore
    refine .one (!k) (hother ▸ hdone) (hsame ▸ hfirst) (Or.inr (Or.inr ?_))
    rw [Bool.not_not, hsame]
    exact hself
  · unfold CommitsClear at hclear
    rw [hk] at hclear
    obtain ⟨after, inserted, updated, hcommit, hturn⟩ :=
      second_commit hstored hday hload hfirst hclear
    exact hboth hk hcommit hturn
  · obtain ⟨after, hafter⟩ := isSome_afterUpload (afterUpload_stored hstored hfirst)
      (afterUpload_uploadable hstored hload hfirst)
    obtain ⟨inserted, updated, hcommit⟩ := afterUpload_eq_some_iff.mp hafter
    refine hboth hk hcommit (Or.inl ⟨after, ?_, fun _ => rfl⟩)
    rw [hfirst]
    exact hafter

theorem uploading_step (hstored : PricesStored prices) (hloads : ∀ i, Uploadable prices (bodies i))
    (hday : ∀ i, (bodies !i).tradeDate = (bodies i).tradeDate) (h : Uploading prices bodies c)
    (hclear : CommitsClear bodies c k) :
    Uploading prices bodies (step (uploadProgram bodies) c k ()) := by
  have hother : (step (uploadProgram bodies) c k ()).session (!k) = c.session !k :=
    step_session_of_ne c (by simp) ()
  have hself : (step (uploadProgram bodies) c k ()).session k = _ := step_session_self c k ()
  have hstore : (step (uploadProgram bodies) c k ()).store = _ := step_store c k ()
  generalize step (uploadProgram bodies) c k () = c' at hother hself hstore
  have hstays (hk : (c.session k).isFinished) : c'.store = c.store ∧ c'.session k = c.session k := by
    have hperform := perform_finished (bodies k) hk c.store
    exact ⟨hstore.trans (congrArg Prod.fst hperform), hself.trans (congrArg Prod.snd hperform)⟩
  cases h with
  | none hprices h => exact uploading_before (hloads k) hstored hprices h hother hself hstore
  | one i hi hfirst h =>
    rcases Bool.eq_or_eq_not i k with rfl | rfl
    · obtain ⟨hsame, hsame'⟩ := hstays hi
      refine .one i (hsame' ▸ hi) (hsame ▸ hfirst) ?_
      rw [hother, hsame]
      exact h
    · rw [Bool.not_not] at h
      exact uploading_after (hloads k) hstored (hday k) hclear hfirst hi h hother hself hstore
  | both i hall hturn =>
    obtain ⟨hsame, hsame'⟩ := hstays (hall k)
    refine .both i (fun j => ?_) (hsame ▸ hturn)
    rcases Bool.eq_or_eq_not j k with rfl | rfl
    · exact hsame' ▸ hall j
    · exact hother ▸ hall !k

theorem carried_of_inTurn {prices' : PriceTable} (hstored : PricesStored prices) {i : Bool}
    (hturn : InTurn prices (bodies i) (bodies !i) prices') {j : Bool} {symbol : String}
    (hbars : barsOf (bodies j).items symbol ≠ []) :
    ∃ k bars item close row, barsOf (bodies k).items symbol = bars ++ [(item, close)] ∧
      prices'.get? ((bodies k).tradeDate, symbol) = some row ∧ Carries item close row := by
  obtain ⟨after, hafter, hget⟩ := hturn
  obtain ⟨prices₁, hfirst, hsecond⟩ := Option.bind_eq_some_iff.mp hafter
  have hcarried {prices prices' : PriceTable} {k : Bool} (hstored : PricesStored prices)
      (h : afterUpload prices (bodies k) = some prices')
      (hbars : barsOf (bodies k).items symbol ≠ []) :
      ∃ bars item close row, barsOf (bodies k).items symbol = bars ++ [(item, close)] ∧
        prices'.get? ((bodies k).tradeDate, symbol) = some row ∧ Carries item close row := by
    obtain ⟨⟨_, inserted, updated⟩, hupload, rfl⟩ := Option.map_eq_some_iff.mp h
    obtain ⟨bars, ⟨item, close⟩, hlast⟩ :=
      (List.eq_nil_or_concat (barsOf (bodies k).items symbol)).resolve_left hbars
    rw [List.concat_eq_append] at hlast
    obtain ⟨row, hrow, hcarries⟩ :=
      (uploaded_of_upsert hstored hupload).carried symbol bars item close hlast
    exact ⟨bars, item, close, row, hlast, hrow, hcarries⟩
  by_cases hlater : barsOf (bodies !i).items symbol = []
  · obtain rfl : j = i := by
      by_contra hne
      rw [Bool.eq_not.mpr hne] at hbars
      exact hbars hlater
    obtain ⟨bars, item, close, row, hlast, hrow, hcarries⟩ := hcarried hstored hfirst hbars
    refine ⟨j, bars, item, close, row, hlast, ?_, hcarries⟩
    rw [hget, afterUpload_get?_of_nil (afterUpload_stored hstored hfirst) hsecond
      fun _ => hlater, hrow]
  · obtain ⟨bars, item, close, row, hlast, hrow, hcarries⟩ :=
      hcarried (afterUpload_stored hstored hfirst) hsecond hlater
    exact ⟨!i, bars, item, close, row, hlast, (hget _).trans hrow, hcarries⟩

end Step

/-- Two uploads for one day that each go through alone, and commit clear of one another,
both succeed, leave what one order of them leaves, and leave every bar whole. -/
theorem uploads_inTurn {bodies : Bool → DailyPricesIngestBody}
    (hday : (bodies true).tradeDate = (bodies false).tradeDate)
    {c c' : Config Bool PriceTable UploadPoint} (hstored : PricesStored c.store)
    (hloads : ∀ i, Uploadable c.store (bodies i)) (hstart : ∀ i, c.session i = .select)
    (hreach : Reaches (uploadProgram bodies) (fun c i _ => CommitsClear bodies c i) c c') :
    (∀ i, c'.session i ≠ .failed) ∧
      ((∀ i, (c'.session i).isFinished) →
        (∃ i, InTurn c.store (bodies i) (bodies !i) c'.store) ∧
        ∀ i symbol, barsOf (bodies i).items symbol ≠ [] →
          ∃ k bars item close row, barsOf (bodies k).items symbol = bars ++ [(item, close)] ∧
            c'.store.get? ((bodies k).tradeDate, symbol) = some row ∧ Carries item close row) := by
  have hdays : ∀ i, (bodies !i).tradeDate = (bodies i).tradeDate := by
    intro i
    cases i
    · exact hday
    · exact hday.symm
  have hrun := hreach.invariant (Uploading c.store bodies)
    (.none rfl fun i => Or.inl (hstart i))
    fun _ _ _ h hclear => uploading_step hstored hloads hdays h hclear
  constructor
  · intro i hfailed
    cases hrun with
    | none _ h =>
      rcases h i with hi | hi <;> rw [hfailed] at hi <;> cases hi
    | one k hk _ h =>
      rcases Bool.eq_or_eq_not i k with rfl | rfl
      · rw [hfailed] at hk
        cases hk
      · rcases h with hi | hi | hi <;> rw [hfailed] at hi <;> cases hi
    | both _ h =>
      have hi := h i
      rw [hfailed] at hi
      cases hi
  · intro hdone
    cases hrun with
    | none _ h =>
      have hi := hdone true
      rcases h true with hk | hk <;> rw [hk] at hi <;> cases hi
    | one k _ _ h =>
      have hi := hdone !k
      rcases h with hk | hk | hk <;> rw [hk] at hi <;> cases hi
    | both i _ hturn =>
      exact ⟨⟨i, hturn⟩, fun _ _ hbars => carried_of_inTurn hstored hturn hbars⟩

def tradedDay : PriceTable :=
  ⟨[{ storedPrice "2330" 100 with volume := some 10 }], by decide +kernel⟩

def traded (symbol : String) (close : ℚ) (volume : Int) : DailyPricesIngestBody where
  tradeDate := 0
  items := [{ priceOf symbol close with volume := some volume }]

def bothUpload (screener backfill : DailyPricesIngestBody) (i : Bool) : DailyPricesIngestBody :=
  if i then screener else backfill

def differing : Bool → DailyPricesIngestBody :=
  bothUpload (traded "2330" 101 20) (traded "2330" 102 30)

/-- The screener's bar has the stored volume, and the backfill's the stored close. -/
def crossing : Bool → DailyPricesIngestBody :=
  bothUpload (traded "2330" 101 10) (traded "2330" 100 20)

def arriving : Bool → DailyPricesIngestBody :=
  bothUpload (traded "2317" 50 10) (traded "2317" 50 20)

def uploadsStarted : Config Bool PriceTable UploadPoint where
  store := tradedDay
  session _ := .select

/-- Both read the day before the screener commits, and then the backfill. -/
def overlapping : List (Bool × Unit) := [(true, ()), (false, ()), (true, ()), (false, ())]

def overlapped (bodies : Bool → DailyPricesIngestBody) : Config Bool PriceTable UploadPoint :=
  run (uploadProgram bodies) uploadsStarted overlapping

theorem uploads_inTurn_differing :
    (∀ i, (overlapped differing).session i ≠ .failed) ∧
      ((∀ i, ((overlapped differing).session i).isFinished) →
        (∃ i, InTurn tradedDay (differing i) (differing !i) (overlapped differing).store) ∧
        ∀ i symbol, barsOf (differing i).items symbol ≠ [] →
          ∃ k bars item close row, barsOf (differing k).items symbol = bars ++ [(item, close)] ∧
            (overlapped differing).store.get? ((differing k).tradeDate, symbol) = some row ∧
            Carries item close row) := by
  have hstored : PricesStored tradedDay := show ∀ row ∈ tradedDay.rows, _ by decide +kernel
  have hloads (i : Bool) : Uploadable tradedDay (differing i) :=
    (isSome_upsertDailyPrices_iff hstored).mp (by cases i <;> decide +kernel)
  have hfollows : Follows (uploadProgram differing) (fun c i _ => CommitsClear differing c i)
      uploadsStarted overlapping := by
    decide +kernel
  exact uploads_inTurn (show (differing true).tradeDate = (differing false).tradeDate from rfl)
    (show PricesStored uploadsStarted.store from hstored) hloads
    (show ∀ i, uploadsStarted.session i = .select from fun _ => rfl) (reaches_run hfollows)

theorem uploads_cross :
    (∃ i, (overlapped arriving).session i = .failed) ∧
      (∀ i, ((overlapped crossing).session i).isFinished) ∧
      ¬ ∃ i, InTurn tradedDay (crossing i) (crossing !i) (overlapped crossing).store := by
  refine ⟨⟨false, by decide +kernel⟩, by decide +kernel, ?_⟩
  rintro ⟨i, after, hafter, hget⟩
  have hrow : ((afterUpload tradedDay (crossing i)).bind (afterUpload · (crossing !i))).bind
      (·.get? (0, "2330")) = some { storedPrice "2330" (if i then 100 else 101) with
        volume := some (if i then 20 else 10) } := by
    cases i <;> decide +kernel
  rw [hafter, Option.bind_some, ← hget] at hrow
  revert hrow
  cases i <;> decide +kernel

end StockQuant
