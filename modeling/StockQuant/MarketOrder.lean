import Mathlib.Data.Multiset.Bind
import StockQuant.BacktestMoments
import StockQuant.KeyedRuns
import StockQuant.MarketHistory
import StockQuant.SnapshotListing

/-! Ingests that are delivered in different orders, and some of them repeatedly. Snapshots of one
date and session, and prices of one day, are taken in their order; the order between them shows in
no answer, nor does a repetition. -/

namespace StockQuant

open KeyedRuns KeyedTable LastWrite Prefetch

def MarketIngest.snapshot? : MarketIngest → Option Ingest
  | .snapshot r => some r
  | .prices _ => none

def MarketIngest.prices? : MarketIngest → Option DailyPricesIngestBody
  | .snapshot _ => none
  | .prices body => some body

/-- A price table as the columns hold it. -/
abbrev StoredPrices := { prices : PriceTable // PricesStored prices }

def StoredPrices.upload (prices : StoredPrices) (body : DailyPricesIngestBody) : StoredPrices :=
  ⟨uploadPrices prices.val body, uploadPrices_stored prices.property body⟩

def StoredPrices.day (prices : StoredPrices) (day : Date) (symbol : String) : Option DailyPrice :=
  prices.val.get? (day, symbol)

section Runs

theorem runMarket_store (ingests : List MarketIngest) :
    (runMarket ingests).store = (runIngests (ingests.filterMap MarketIngest.snapshot?)).store := by
  induction ingests using List.reverseRecOn with
  | nil => rfl
  | append_singleton ingests r ih =>
    rw [runMarket_snoc, List.filterMap_append]
    cases r with
    | snapshot r =>
      rw [show [MarketIngest.snapshot r].filterMap MarketIngest.snapshot? = [r] from rfl,
        runIngests_snoc, IngestRun.ingest, ← ih]
      rfl
    | prices body =>
      rw [show [MarketIngest.prices body].filterMap MarketIngest.snapshot? = [] from rfl,
        List.append_nil]
      exact ih

theorem runMarket_prices (ingests : List MarketIngest) :
    (runMarket ingests).prices = ((ingests.filterMap MarketIngest.prices?).foldl
      StoredPrices.upload ⟨∅, fun _ hrow => absurd hrow List.not_mem_nil⟩).val := by
  induction ingests using List.reverseRecOn with
  | nil => rfl
  | append_singleton ingests r ih =>
    rw [runMarket_snoc, List.filterMap_append]
    cases r with
    | snapshot r =>
      rw [show [MarketIngest.snapshot r].filterMap MarketIngest.prices? = [] from rfl,
        List.append_nil]
      exact ih
    | prices body =>
      rw [show [MarketIngest.prices body].filterMap MarketIngest.prices? = [body] from rfl,
        List.foldl_concat]
      exact congrArg (uploadPrices · body) ih

theorem keyed_written {κ ν : Type} [DecidableEq κ] :
    Keyed (fun (m : κ → Option ν) (w : κ × Option ν) => Function.update m w.1 w.2) Prod.fst
      fun m k => m k where
  other m w k hk := Function.update_of_ne hk _ _
  own m m' w _ := by rw [Function.update_self, Function.update_self]

theorem rowBefore_congr {prices prices' : PriceTable} {day : Date} {symbol : String}
    (h : prices.get? (day, symbol) = prices'.get? (day, symbol)) :
    rowBefore prices day symbol = rowBefore prices' day symbol := by
  unfold rowBefore
  rw [h]

theorem uploadable_congr {prices prices' : PriceTable} {body : DailyPricesIngestBody}
    (h : ∀ symbol, prices.get? (body.tradeDate, symbol) = prices'.get? (body.tradeDate, symbol)) :
    Uploadable prices body ↔ Uploadable prices' body := by
  constructor
  · rintro ⟨honce, haccepted⟩
    exact ⟨fun symbol hnone => honce symbol ((h symbol).trans hnone),
      fun symbol hbars => rowBefore_congr (h symbol) ▸ haccepted symbol hbars⟩
  · rintro ⟨honce, haccepted⟩
    exact ⟨fun symbol hnone => honce symbol ((h symbol).symm.trans hnone),
      fun symbol hbars => rowBefore_congr (h symbol).symm ▸ haccepted symbol hbars⟩

/-- An upload acts on its day, and is refused or not by what that day has. -/
theorem keyed_upload :
    Keyed StoredPrices.upload DailyPricesIngestBody.tradeDate StoredPrices.day where
  other prices body day hday := by
    funext symbol
    unfold StoredPrices.day StoredPrices.upload
    dsimp only
    rw [uploadPrices_eq]
    cases h : upsertDailyPrices prices.val body with
    | none => rfl
    | some uploaded =>
      exact upsertDailyPrices_get?_of_nil prices.property h fun hsame => absurd hsame hday
  own prices prices' body hview := by
    have hday (symbol : String) : prices.val.get? (body.tradeDate, symbol) =
        prices'.val.get? (body.tradeDate, symbol) := congrFun hview symbol
    have hload : (upsertDailyPrices prices.val body).isSome ↔
        (upsertDailyPrices prices'.val body).isSome := by
      rw [isSome_upsertDailyPrices_iff prices.property,
        isSome_upsertDailyPrices_iff prices'.property]
      exact uploadable_congr hday
    funext symbol
    unfold StoredPrices.day StoredPrices.upload
    dsimp only
    rw [uploadPrices_eq, uploadPrices_eq]
    cases h : upsertDailyPrices prices.val body with
    | none =>
      cases h' : upsertDailyPrices prices'.val body with
      | none => exact hday symbol
      | some uploaded => simp [h, h'] at hload
    | some uploaded =>
      cases h' : upsertDailyPrices prices'.val body with
      | none => simp [h, h'] at hload
      | some uploaded' =>
        change uploaded.1.get? (body.tradeDate, symbol) = uploaded'.1.get? (body.tradeDate, symbol)
        by_cases hbars : barsOf body.items symbol = []
        · rw [upsertDailyPrices_get?_of_nil prices.property h fun _ => hbars,
            upsertDailyPrices_get?_of_nil prices'.property h' fun _ => hbars, hday]
        · rw [upsertDailyPrices_get? prices.property h hbars,
            upsertDailyPrices_get? prices'.property h' hbars, rowBefore_congr (hday symbol)]

/-- The same upload right after itself finds its own bars. -/
theorem absorbs_upload :
    Absorbs StoredPrices.upload DailyPricesIngestBody.tradeDate StoredPrices.day := by
  intro prices body
  funext symbol
  unfold StoredPrices.day
  let once := prices.upload body
  change (uploadPrices once.val body).get? _ = once.val.get? _
  cases h : upsertDailyPrices prices.val body with
  | none =>
    have hsame : once.val = prices.val := by
      change uploadPrices prices.val body = prices.val
      rw [uploadPrices_eq, h]
      rfl
    rw [hsame, uploadPrices_eq, h]
    rfl
  | some uploaded =>
    have honce : upsertDailyPrices prices.val body = some (once.val, uploaded.2) := by
      change _ = some (uploadPrices prices.val body, uploaded.2)
      rw [uploadPrices_eq, h]
      rfl
    rw [uploadPrices_eq]
    cases h' : upsertDailyPrices once.val body with
    | none => rfl
    | some again =>
      change again.1.get? (body.tradeDate, symbol) = once.val.get? (body.tradeDate, symbol)
      by_cases hbars : barsOf body.items symbol = []
      · exact upsertDailyPrices_get?_of_nil once.property h' fun _ => hbars
      · have hrow := upsertDailyPrices_get? prices.property honce hbars
        have hload := (isSome_upsertDailyPrices_iff prices.property).mp (by rw [honce]; rfl)
        obtain ⟨row, hflush⟩ := Option.isSome_iff_exists.mp (hload.accepted symbol hbars)
        rw [hflush] at hrow
        have hbefore : rowBefore once.val body.tradeDate symbol = row := by
          unfold rowBefore
          rw [hrow, Option.getD_some]
        rw [upsertDailyPrices_get? once.property h' hbars, hbefore, barRow_again hbars hflush,
          hflush, hrow]

theorem absorbs_written {κ ν : Type} [DecidableEq κ] :
    Absorbs (fun (m : κ → Option ν) (w : κ × Option ν) => Function.update m w.1 w.2) Prod.fst
      fun m k => m k := fun m w => by
  dsimp only
  rw [Function.update_self, Function.update_self]

end Runs

/-- The tables hold the same, up to the ids of the rows and their places. -/
structure SameMarket (tables tables' : MarketTables) : Prop where
  screenings : ∀ key, contentOf tables.store key = contentOf tables'.store key
  prices : ∀ key, tables.prices.get? key = tables'.prices.get? key

/-- Every key was delivered the same ingests in the same order, some of which may have come
repeatedly: the snapshots of a date and session that were stored, and the uploads of a day. -/
structure Delivered (ingests ingests' : List MarketIngest) : Prop where
  screenings : RepeatsByKey Prod.fst
    (runIngests (ingests.filterMap MarketIngest.snapshot?)).successes
    (runIngests (ingests'.filterMap MarketIngest.snapshot?)).successes
  prices : RepeatsByKey DailyPricesIngestBody.tradeDate (ingests.filterMap MarketIngest.prices?)
    (ingests'.filterMap MarketIngest.prices?)

theorem Delivered.sameMarket {ingests ingests' : List MarketIngest}
    (h : Delivered ingests ingests') : SameMarket (runMarket ingests) (runMarket ingests') where
  screenings key := by
    rw [runMarket_store, runMarket_store, (runIngests_lastWriteWins _).content,
      (runIngests_lastWriteWins _).content]
    exact congrFun (keyed_written.view_eq absorbs_written (fun _ => none) h.screenings) key
  prices key := by
    rw [runMarket_prices, runMarket_prices]
    exact congrFun (congrFun (keyed_upload.view_eq absorbs_upload _ h.prices) key.1) key.2

theorem SameMarket.symm {tables tables' : MarketTables} (h : SameMarket tables tables') :
    SameMarket tables' tables :=
  ⟨fun key => (h.screenings key).symm, fun key => (h.prices key).symm⟩

section Prices

variable {prices prices' : PriceTable}

theorem listPriceTradingDays_congr (h : ∀ key, prices.get? key = prices'.get? key) :
    listPriceTradingDays prices = listPriceTradingDays prices' := by
  refine (listPriceTradingDays_pairwise prices).eq_of_mem_iff (listPriceTradingDays_pairwise prices')
    fun day => ?_
  have hrow (row : DailyPrice) : row ∈ prices.rows ↔ row ∈ prices'.rows := by
    have hkey := h row.key
    constructor
    · intro hmem
      rw [Table.get?_of_mem hmem] at hkey
      exact (Table.get?_eq_some_iff.mp hkey.symm).1
    · intro hmem
      rw [Table.get?_of_mem hmem] at hkey
      exact (Table.get?_eq_some_iff.mp hkey).1
  simp only [mem_listPriceTradingDays, hrow]

theorem loadClosePrices_congr (h : ∀ key, prices.get? key = prices'.get? key)
    (wanted : WantedPrices) (pair : String × Date) :
    (loadClosePrices prices wanted).lookup pair = (loadClosePrices prices' wanted).lookup pair := by
  have hclose : closeOf prices = closeOf prices' := by
    funext pair
    unfold closeOf closeOn
    rw [h]
  refine Option.ext fun close => ?_
  rw [answers_loadClosePrices prices wanted pair close,
    answers_loadClosePrices prices' wanted pair close, hclose]

theorem settleAll_congr (h : ∀ key, prices.get? key = prices'.get? key) (mode : Mode)
    (horizons : List Int) (detailN : Int) (entries : List Entry) :
    settleAll mode prices horizons detailN entries =
      settleAll mode prices' horizons detailN entries := by
  unfold settleAll
  rw [listPriceTradingDays_congr h]
  dsimp only
  congr 1
  funext ledger entry
  rw [settleEntry_eq_record, settleEntry_eq_record, prefetchedTrade, prefetchedTrade]
  simp only [loadClosePrices_congr h]

theorem runBacktestOn_congr {rows rows' : List (Date × ScreenSnapshotItem)}
    (hrows : collectEntries rows = collectEntries rows')
    (h : ∀ key, prices.get? key = prices'.get? key) (params : BacktestParams) :
    runBacktestOn params rows prices = runBacktestOn params rows' prices' := by
  rw [runBacktestOn_eq, runBacktestOn_eq]
  congr 1
  funext checked
  unfold backtestResponse
  rw [hrows, listPriceTradingDays_congr h]
  simp only [settleAll_congr h]

end Prices

section Screenings

variable {store store' : SnapshotStore} {start stop : Date} {session : String}

def entryContent (row : Date × ScreenSnapshotItem) : Date × ScreenSnapshotItem :=
  (row.1, row.2.content)

theorem contentOf_of_mem {s : ScreenSnapshot} (hs : s ∈ store.snapshots) :
    contentOf store s.key = some
      { header := { s with id := 0 }
        items := ((itemsOf store s.id).map ScreenSnapshotItem.content : List ScreenSnapshotItem) } := by
  unfold contentOf
  rw [findSnapshot_eq_some_iff.mpr ⟨hs, rfl⟩]
  rfl

theorem mem_keys {key : Date × String} :
    key ∈ store.snapshots.map ScreenSnapshot.key ↔ (contentOf store key).isSome := by
  unfold contentOf
  rw [Option.isSome_map, Option.isSome_iff_exists]
  simp only [findSnapshot_eq_some_iff, List.mem_map]

theorem keys_perm (h : ∀ key, contentOf store key = contentOf store' key) :
    (store.snapshots.map ScreenSnapshot.key).Perm (store'.snapshots.map ScreenSnapshot.key) := by
  refine (List.perm_ext_iff_of_nodup store.keys_nodup store'.keys_nodup).mpr fun key => ?_
  rw [mem_keys, mem_keys, h]

/-- The entries of a range, less their ids, from what the tables hold of each key. -/
theorem entryContents_eq (store : SnapshotStore) (start stop : Date) (session : String) :
    (((snapshotEntryRows store start stop session).map entryContent :
        List (Date × ScreenSnapshotItem)) : Multiset (Date × ScreenSnapshotItem)) =
      (((store.snapshots.map ScreenSnapshot.key).filter fun key =>
          start ≤ key.1 && key.1 ≤ stop && key.2 == session : List (Date × String)) :
        Multiset (Date × String)).bind fun key =>
          (((contentOf store key).map SnapshotContent.items).getD 0).map (key.1, ·) := by
  have hkeys : (store.snapshots.map ScreenSnapshot.key).filter (fun key =>
      start ≤ key.1 && key.1 ≤ stop && key.2 == session) =
        (store.snapshots.filter (inRange start stop session)).map ScreenSnapshot.key :=
    List.filter_map
  unfold snapshotEntryRows
  rw [hkeys, List.map_flatMap, ← Multiset.coe_bind, ← Multiset.map_coe ScreenSnapshot.key,
    Multiset.bind_map]
  refine Multiset.bind_congr fun s hs => ?_
  have hmem := (List.mem_filter.mp (Multiset.mem_coe.mp hs)).1
  rw [contentOf_of_mem hmem]
  simp only [Option.map_some, Option.getD_some, Multiset.map_coe, List.map_map]
  rfl

theorem entryContents_perm (h : ∀ key, contentOf store key = contentOf store' key) :
    ((snapshotEntryRows store start stop session).map entryContent).Perm
      ((snapshotEntryRows store' start stop session).map entryContent) := by
  rw [← Multiset.coe_eq_coe, entryContents_eq, entryContents_eq, Multiset.coe_eq_coe.mpr
    ((keys_perm h).filter _)]
  simp only [h]

/-- Entries in an order that the query allows are such also of the other tables. -/
theorem exists_entries (h : ∀ key, contentOf store key = contentOf store' key)
    {rows : List (Date × ScreenSnapshotItem)}
    (hrows : IsSnapshotEntries store start stop session rows) :
    ∃ rows', IsSnapshotEntries store' start stop session rows' ∧
      rows'.map entryContent = rows.map entryContent := by
  have hcontents : List.Forall₂ (fun content row => content = entryContent row)
      ((snapshotEntryRows store' start stop session).map entryContent)
      (snapshotEntryRows store' start stop session) :=
    List.forall₂_map_left_iff.mpr (List.forall₂_same.mpr fun _ _ => rfl)
  obtain ⟨rows', hsame, hperm⟩ := List.perm_comp_forall₂
    ((hrows.perm.map entryContent).trans (entryContents_perm h)) hcontents
  have hmap : rows'.map entryContent = rows.map entryContent := by
    rw [← List.forall₂_eq_eq_eq, List.forall₂_map_left_iff]
    exact (hsame.imp fun _ _ heq => heq.symm).flip
  have hordered : (rows.map entryContent).Pairwise entryOrder := List.pairwise_map.mpr hrows.ordered
  rw [← hmap] at hordered
  exact ⟨rows', ⟨hperm, show rows'.Pairwise fun a b => entryOrder (entryContent a) (entryContent b)
    from List.pairwise_map.mp hordered⟩, hmap⟩

def ScreenSnapshot.header (s : ScreenSnapshot) : ScreenSnapshot := { s with id := 0 }

theorem headers_perm (h : ∀ key, contentOf store key = contentOf store' key) :
    (store.snapshots.map ScreenSnapshot.header).Perm
      (store'.snapshots.map ScreenSnapshot.header) := by
  have hheaders (store : SnapshotStore) : store.snapshots.map ScreenSnapshot.header =
      (store.snapshots.map ScreenSnapshot.key).filterMap fun key =>
        (contentOf store key).map SnapshotContent.header := by
    rw [List.filterMap_map, ← List.filterMap_eq_map]
    refine List.filterMap_congr fun s hs => ?_
    rw [Function.comp_apply, Function.comp_apply, contentOf_of_mem hs]
    rfl
  rw [hheaders, hheaders]
  simp only [h]
  exact (keys_perm h).filterMap _

/-- Rows that are told apart by where they stand are sorted in one way. -/
theorem insertionSort_eq_of_perm {P : Type} [LinearOrder P] {place : ScreenSnapshot → P}
    (hplace : ∀ a b, place a = place b → a.key = b.key) {l l' : List ScreenSnapshot}
    (hl : (l.map ScreenSnapshot.key).Nodup) (hperm : l.Perm l') :
    (l.insertionSort fun a b => place a ≤ place b) =
      l'.insertionSort fun a b => place a ≤ place b := by
  have : Std.Irrefl fun a b : ScreenSnapshot => place a < place b := ⟨fun _ => lt_irrefl _⟩
  have : Std.Antisymm fun a b : ScreenSnapshot => place a < place b :=
    ⟨fun _ _ hab hba => absurd hba hab.not_gt⟩
  refine (pairwise_sorted hplace hl).eq_of_mem_iff
    (pairwise_sorted hplace ((hperm.map _).nodup_iff.mp hl)) fun s => ?_
  rw [List.mem_insertionSort, List.mem_insertionSort, hperm.mem_iff]

theorem metas_congr {P : Type} [LinearOrder P] (place : ScreenSnapshot → P)
    (hplace : ∀ a b, place a = place b → a.key = b.key)
    (hheader : ∀ s : ScreenSnapshot, place s.header = place s)
    (h : ∀ key, contentOf store key = contentOf store' key) (p : ScreenSnapshot → Bool)
    (hp : ∀ s : ScreenSnapshot, p s.header = p s) :
    ((store.snapshots.filter p).insertionSort fun a b => place a ≤ place b).map snapshotMeta =
      ((store'.snapshots.filter p).insertionSort fun a b => place a ≤ place b).map
        snapshotMeta := by
  have hmeta : snapshotMeta = snapshotMeta ∘ ScreenSnapshot.header := rfl
  have hsorted (store : SnapshotStore) :
      ((store.snapshots.filter p).insertionSort fun a b => place a ≤ place b).map
          ScreenSnapshot.header =
        ((store.snapshots.map ScreenSnapshot.header).filter p).insertionSort
          fun a b => place a ≤ place b := by
    rw [List.filter_map, show p ∘ ScreenSnapshot.header = p from funext hp]
    exact List.map_insertionSort _ _ _ _ fun a _ b _ => by rw [hheader, hheader]
  have hnodup : (((store.snapshots.map ScreenSnapshot.header).filter p).map
      ScreenSnapshot.key).Nodup := by
    refine List.Nodup.sublist (List.filter_sublist.map _) ?_
    rw [List.map_map]
    exact store.keys_nodup
  rw [hmeta, ← List.map_map, ← List.map_map, hsorted, hsorted,
    insertionSort_eq_of_perm hplace hnodup ((headers_perm h).filter p)]

theorem listSnapshots_congr {L : Type} [LinearOrder L] (collation : String ↪ L)
    (h : ∀ key, contentOf store key = contentOf store' key) (query : SnapshotQuery) :
    Download.listSnapshots collation store query =
      Download.listSnapshots collation store' query := by
  have hnewest := metas_congr (ScreenSnapshot.newest collation) (fun _ _ => newest_injective)
    (fun _ => rfl) h (fun _ => true) fun _ => rfl
  have holdest (start stop : Date) (session : Option String) := metas_congr
    (ScreenSnapshot.oldest collation) (fun _ _ => oldest_injective) (fun _ => rfl) h
    (fun s => start ≤ s.tradeDate && s.tradeDate ≤ stop && session.all (s.session == ·))
    fun _ => rfl
  simp only [List.filter_true] at hnewest
  unfold Download.listSnapshots StockQuant.listSnapshots listSnapshotsInRange
  simp only [List.map_take, hnewest, holdest]

end Screenings

/-- The database can answer a backtest in this way: it is free in the order of rows that tie. -/
def MayAnswer (tables : MarketTables) (params : BacktestParams)
    (answer : Except String BacktestResponse) : Prop :=
  ∃ rows, IsSnapshotEntries tables.store params.start params.stop (modeSession params.mode) rows ∧
    runBacktestOn params rows tables.prices = answer

theorem SameMarket.mayAnswer {tables tables' : MarketTables} (h : SameMarket tables tables')
    {params : BacktestParams} {answer : Except String BacktestResponse}
    (hanswer : MayAnswer tables params answer) : MayAnswer tables' params answer := by
  obtain ⟨rows, hrows, rfl⟩ := hanswer
  obtain ⟨rows', hrows', hcontents⟩ := exists_entries h.screenings hrows
  refine ⟨rows', hrows', (runBacktestOn_congr ?_ h.prices params).symm⟩
  have hentry : toEntry = toEntry ∘ entryContent := rfl
  unfold collectEntries
  rw [hentry, ← List.map_map, ← List.map_map, hcontents]

/-- How the ingests of different keys were mixed shows in no answer, nor which of them came
repeatedly: a backtest may be answered from the one tables as from the other, and the listing is
the same. -/
theorem runMarket_delivered {ingests ingests' : List MarketIngest}
    (h : Delivered ingests ingests') :
    (∀ params answer, MayAnswer (runMarket ingests) params answer ↔
      MayAnswer (runMarket ingests') params answer) ∧
    ∀ {L : Type} [LinearOrder L] (collation : String ↪ L) (query : SnapshotQuery),
      Download.listSnapshots collation (runMarket ingests).store query =
        Download.listSnapshots collation (runMarket ingests').store query := by
  have hsame := h.sameMarket
  refine ⟨fun params answer => ⟨hsame.mayAnswer, hsame.symm.mayAnswer⟩, ?_⟩
  intro L _ collation query
  exact listSnapshots_congr collation hsame.screenings query

/-- The prices come first, those of the one day twice. -/
def deliveredAgain : List MarketIngest :=
  [.prices (upload 12 110), .prices (upload 10 100), .prices (upload 12 110), dayScreening 10]

theorem delivered_again : Delivered screenedDay deliveredAgain where
  screenings key := by
    rw [show (runIngests (screenedDay.filterMap MarketIngest.snapshot?)).successes =
      (runIngests (deliveredAgain.filterMap MarketIngest.snapshot?)).successes by decide +kernel]
    exact Repeats.refl _
  prices day := by
    change Repeats ([upload 10 100, upload 12 110].filter (·.tradeDate = day))
      ([upload 12 110, upload 10 100, upload 12 110].filter (·.tradeDate = day))
    by_cases hfirst : (10 : Date) = day
    · subst hfirst
      exact Repeats.refl [upload 10 100]
    · by_cases hsecond : (12 : Date) = day
      · subst hsecond
        exact (show Repeats [upload 12 110] ([] ++ [upload 12 110]) from .refl _).again _
      · simpa [upload, hfirst, hsecond] using Repeats.nil

theorem runMarket_delivered_again :
    MayAnswer (runMarket deliveredAgain) twoDays
      (runBacktest (runMarket screenedDay).store (runMarket screenedDay).prices twoDays) :=
  ((runMarket_delivered delivered_again).1 twoDays _).mp
    ⟨_, listSnapshotEntries_isSnapshotEntries _ _ _ _, rfl⟩

end StockQuant
