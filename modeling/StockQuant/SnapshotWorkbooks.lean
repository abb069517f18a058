import StockQuant.SnapshotDownloads
import StockQuant.Workbooks

/-! The workbooks of the screening snapshots: one for a single day, and one for all the days of
a range. -/

namespace StockQuant

open Spreadsheet

def sessionLabels : List (String × String) :=
  [("intraday_1300", "盤中13:00"), ("eod", "收盤後")]

def sessionLabel (session : String) : String := (sessionLabels.lookup session).getD session

def snapshotSheetName : String := "起漲篩選"

def snapshotHeaders : List String :=
  ["排名", "代號", "名稱", "市場", "現價", "漲跌", "漲幅%", "量(張)",
    "昨高", "量比", "5MA", "月線(20MA)", "月線上彎", "昨收"]

def snapshotWidths : List Nat := [6, 8, 12, 6, 9, 8, 8, 9, 9, 7, 9, 11, 9, 9]

def snapshotRow (it : ScreenSnapshotItem) : List Value :=
  [.number it.rank,
    .str it.symbol,
    .str it.name,
    .str it.market,
    num it.close,
    num it.change,
    num it.changePct,
    num it.lots,
    num it.prevHigh,
    num it.volRatio,
    num it.ma5,
    num it.ma20,
    .str (if it.ma20Up then "↑" else ""),
    num it.prevClose]

def rangeHeaders : List String := "交易日" :: snapshotHeaders

def rangeWidths : List Nat := 12 :: snapshotWidths

def rangeRow (dateLabel : String) (it : ScreenSnapshotItem) : List Value :=
  [.str dateLabel,
    .number it.rank,
    .str it.symbol,
    .str it.name,
    .str it.market,
    num it.close,
    num it.change,
    num it.changePct,
    num it.lots,
    num it.prevHigh,
    num it.volRatio,
    num it.ma5,
    num it.ma20,
    .str (if it.ma20Up then "↑" else ""),
    num it.prevClose]

def rangeTitle (startLabel endLabel session : String) (days stocks : Nat) : String :=
  startLabel ++ " ~ " ++ endLabel ++ " " ++ sessionLabel session ++ " 起漲篩選　" ++
    "共 " ++ toString days ++ " 個交易日、" ++ toString stocks ++ " 檔"

def emptyRangeTitle (startLabel endLabel session : String) : String :=
  startLabel ++ " ~ " ++ endLabel ++ " " ++ sessionLabel session ++
    " 起漲篩選：此範圍內無符合條件的資料"

section Builders

-- `bind` is what the spreadsheet library makes of a text, and `strftime` formats a date.
variable (bind : String → Option CellValue) (strftime : String → Date → String)

def dateLabel (tradeDate : Date) : String := strftime "%Y-%m-%d" tradeDate

def snapshotTitle (snapshot : ScreenSnapshot) (stocks : Nat) : String :=
  dateLabel strftime snapshot.tradeDate ++ " " ++ sessionLabel snapshot.session ++ " 起漲篩選" ++
    "（紅K+突破昨高+量增+站上5MA+月線上彎+昨日在5MA下） 共 " ++ toString stocks ++ " 檔"

def snapshotToXlsx (snapshot : ScreenSnapshot) (items : List ScreenSnapshotItem) :
    Option Worksheet :=
  tableSheet bind snapshotSheetName (snapshotTitle strftime snapshot items.length) snapshotHeaders
    snapshotWidths (items.map snapshotRow) items.length
    (formatted [4, 5, 6, 8, 9, 10, 11, 13] [12])

def emptySnapshotXlsx (tradeDateLabel session : String) : Option Worksheet :=
  titleSheet bind snapshotSheetName
    (tradeDateLabel ++ " " ++ sessionLabel session ++ " 起漲篩選：今日無符合條件的個股")

def snapshotsRangeToXlsx (rows : List (ScreenSnapshot × List ScreenSnapshotItem))
    (startLabel endLabel session : String) : Option Worksheet :=
  let totalItems := (rows.map (·.2.length)).sum
  tableSheet bind snapshotSheetName (rangeTitle startLabel endLabel session rows.length totalItems)
    rangeHeaders rangeWidths
    (rows.flatMap fun row => row.2.map (rangeRow (dateLabel strftime row.1.tradeDate))) totalItems
    (formatted [5, 6, 7, 9, 10, 11, 12, 14] [13])

def emptySnapshotsRangeXlsx (startLabel endLabel session : String) : Option Worksheet :=
  titleSheet bind snapshotSheetName (emptyRangeTitle startLabel endLabel session)

end Builders

def getSnapshot (store : SnapshotStore) (tradeDate : Date) (session : String) :
    Option ScreenSnapshot :=
  store.snapshots.find? fun s => s.tradeDate = tradeDate ∧ s.session = session

def Download.maxRangeDays : Nat := 366

def unknownSession : String := "session must be one of ('intraday_1300', 'eod')."

section Endpoints

-- `items` is what the database answers when it is asked for the items of a snapshot.
variable {L : Type} [LinearOrder L] (collation : String ↪ L) (bind : String → Option CellValue)
  (strftime : String → Date → String) (store : SnapshotStore)
  (items : Uuid → List ScreenSnapshotItem)

def downloadSnapshot (date : Date) (session : String) : XlsxReply :=
  if session ∉ sessions then .refused unknownSession
  else
    let filename := "screen_" ++ strftime "%Y%m%d" date ++ "_" ++ session ++ ".xlsx"
    match getSnapshot store date session with
    | none => xlsxResponse (emptySnapshotXlsx bind (dateLabel strftime date) session) filename
    | some snap => xlsxResponse (snapshotToXlsx bind strftime snap (items snap.id)) filename

def downloadSnapshotsRange (start stop : Date) (session : String) : XlsxReply :=
  if session ∉ sessions then .refused unknownSession
  else if stop < start then .refused "start must not be after end."
  else if Download.maxRangeDays < stop - start then
    .refused ("range too large (max " ++ toString Download.maxRangeDays ++ " days).")
  else
    let startLabel := dateLabel strftime start
    let endLabel := dateLabel strftime stop
    let filename := "screen_" ++ strftime "%Y%m%d" start ++ "_" ++ strftime "%Y%m%d" stop ++ "_" ++
      session ++ ".xlsx"
    let snaps := listSnapshotsInRange collation store start stop (some session)
    if snaps = [] then
      xlsxResponse (emptySnapshotsRangeXlsx bind startLabel endLabel session) filename
    else
      let rows := snaps.map fun s => (s, items s.id)
      xlsxResponse (snapshotsRangeToXlsx bind strftime rows startLabel endLabel session) filename

end Endpoints

/-- A date as the format puts it: digits and dashes. -/
def Dashed (s : String) : Prop :=
  s.length ≤ 10 ∧ s.toList.all fun c => c.isDigit || c == '-'

instance (s : String) : Decidable (Dashed s) := instDecidableAnd

section Texts

variable {s : String}

theorem Dashed.clean (h : Dashed s) : s.toList.all isClean := by
  rw [List.all_eq_true]
  intro c hc
  have hc := List.all_eq_true.mp h.2 c hc
  rw [Bool.or_eq_true, beq_iff_eq] at hc
  rcases hc with hdigit | rfl
  · exact clean_of_digit hdigit
  · decide

theorem Dashed.no_control (h : Dashed s) : s.toList.all (!isControl ·) :=
  no_control_of_clean h.clean

theorem Dashed.no_return (h : Dashed s) : '\r' ∉ s.toList := fun hc =>
  absurd (List.all_eq_true.mp h.2 _ hc) (by decide)

theorem Dashed.head (h : Dashed s) {c : Char} (hc : s.toList.head? = some c) :
    c ≠ '=' ∧ c ≠ '#' := by
  have hc := List.all_eq_true.mp h.2 c (List.mem_of_mem_head? hc)
  constructor <;> (rintro rfl; exact absurd hc (by decide))

theorem Dashed.kept (h : Dashed s) : Kept s :=
  kept_of_head (h.1.trans (by decide)) h.no_control fun _ hc => h.head hc

theorem no_control_sessionLabel {session : String} (h : session ∈ sessions) :
    (sessionLabel session).toList.all (!isControl ·) := by
  have hall : ∀ session ∈ sessions, (sessionLabel session).toList.all (!isControl ·) := by decide
  exact hall session h

variable {bind : String → Option CellValue} (hbind : BindsTexts bind)
include hbind

theorem writable_snapshotTitle {strftime : String → Date → String}
    (hdate : ∀ d, Dashed (dateLabel strftime d)) {snapshot : ScreenSnapshot}
    (hsession : snapshot.session ∈ sessions) (stocks : Nat) :
    writable bind (.str (snapshotTitle strftime snapshot stocks)) := by
  refine writable_of_no_control hbind ?_
  simp only [snapshotTitle, String.toList_append, List.all_append, (hdate _).no_control,
    no_control_sessionLabel hsession, no_control_toString, Bool.true_and, Bool.and_true]
  decide +kernel

theorem writable_rangeTitle {startLabel endLabel session : String} (hstart : Dashed startLabel)
    (hstop : Dashed endLabel) (hsession : session ∈ sessions) (days stocks : Nat) :
    writable bind (.str (rangeTitle startLabel endLabel session days stocks)) := by
  refine writable_of_no_control hbind ?_
  simp only [rangeTitle, String.toList_append, List.all_append, hstart.no_control,
    hstop.no_control, no_control_sessionLabel hsession, no_control_toString, Bool.true_and,
    Bool.and_true]
  decide +kernel

theorem writable_emptyRangeTitle {startLabel endLabel session : String}
    (hstart : Dashed startLabel) (hstop : Dashed endLabel) (hsession : session ∈ sessions) :
    writable bind (.str (emptyRangeTitle startLabel endLabel session)) := by
  refine writable_of_no_control hbind ?_
  simp only [emptyRangeTitle, String.toList_append, List.all_append, hstart.no_control,
    hstop.no_control, no_control_sessionLabel hsession, Bool.true_and, Bool.and_true]
  decide +kernel

end Texts

def dayCells (bind : String → Option CellValue) (items : List ScreenSnapshotItem) :
    List (List Cell) :=
  items.map fun it =>
    formatted [4, 5, 6, 8, 9, 10, 11, 13] [12] ((snapshotRow it).map (cellOf bind))

def writableItems (bind : String → Option CellValue) (items : List ScreenSnapshotItem) : Bool :=
  items.all fun it => (snapshotRow it).all (writable bind)

def daySheet (bind : String → Option CellValue) (strftime : String → Date → String)
    (snapshot : ScreenSnapshot) (items : List ScreenSnapshotItem) : Worksheet where
  title := snapshotSheetName
  rows := titleRow bind (snapshotTitle strftime snapshot items.length) ::
    headerRow bind snapshotHeaders :: dayCells bind items
  merged := [((1, 1), 1, snapshotHeaders.length)]
  widths := snapshotWidths
  freezePanes := some "A3"

def rangeSheet (bind : String → Option CellValue) (strftime : String → Date → String)
    (rows : List (ScreenSnapshot × List ScreenSnapshotItem))
    (startLabel endLabel session : String) : Worksheet where
  title := snapshotSheetName
  rows := titleRow bind (rangeTitle startLabel endLabel session rows.length
      (rows.map (·.2.length)).sum) ::
    headerRow bind rangeHeaders ::
    rows.flatMap fun row => (dayCells bind row.2).map
      ({ value := .text (dateLabel strftime row.1.tradeDate) } :: ·)
  merged := [((1, 1), 1, rangeHeaders.length)]
  widths := rangeWidths
  freezePanes := some "A3"

section Sheets

variable {bind : String → Option CellValue} (hbind : BindsTexts bind)
  {strftime : String → Date → String} (hdate : ∀ d, Dashed (dateLabel strftime d))
include hbind hdate

theorem snapshotToXlsx_eq {snapshot : ScreenSnapshot} (hsession : snapshot.session ∈ sessions)
    (items : List ScreenSnapshotItem) :
    snapshotToXlsx bind strftime snapshot items =
      if writableItems bind items then some (daySheet bind strftime snapshot items) else none := by
  unfold snapshotToXlsx
  rw [tableSheet_eq _ _ _ (by simp), writable_snapshotTitle hbind hdate hsession,
    writable_headers hbind (by decide), List.all_map, List.map_map]
  rfl

theorem rangeCells (tradeDate : Date) (it : ScreenSnapshotItem) :
    formatted [5, 6, 7, 9, 10, 11, 12, 14] [13]
        ((rangeRow (dateLabel strftime tradeDate) it).map (cellOf bind)) =
      { value := .text (dateLabel strftime tradeDate) } ::
        formatted [4, 5, 6, 8, 9, 10, 11, 13] [12] ((snapshotRow it).map (cellOf bind)) := by
  have hlabel : cellOf bind (.str (dateLabel strftime tradeDate)) =
      { value := .text (dateLabel strftime tradeDate) } := by
    rw [cellOf, write, hbind.text _ (hdate tradeDate).kept, Option.getD_some]
  rw [← hlabel]
  exact formatted_shift [4, 5, 6, 8, 9, 10, 11, 13] [12] _ _

theorem snapshotsRangeToXlsx_eq {startLabel endLabel session : String} (hstart : Dashed startLabel)
    (hstop : Dashed endLabel) (hsession : session ∈ sessions)
    (rows : List (ScreenSnapshot × List ScreenSnapshotItem)) :
    snapshotsRangeToXlsx bind strftime rows startLabel endLabel session =
      if rows.all fun row => writableItems bind row.2 then
        some (rangeSheet bind strftime rows startLabel endLabel session)
      else none := by
  have hlabel (d : Date) : writable bind (.str (dateLabel strftime d)) :=
    writable_of_no_control hbind (hdate d).no_control
  have hrow (row : ScreenSnapshot × List ScreenSnapshotItem) :
      (row.2.map (rangeRow (dateLabel strftime row.1.tradeDate))).all (·.all (writable bind)) =
        writableItems bind row.2 := by
    rw [List.all_map]
    refine List.all_congr rfl fun it => ?_
    change (writable bind (.str _) && (snapshotRow it).all (writable bind)) = _
    rw [hlabel, Bool.true_and]
  unfold snapshotsRangeToXlsx
  dsimp only
  rw [tableSheet_eq _ _ _ (by simp [List.length_flatMap]),
    writable_rangeTitle hbind hstart hstop hsession, writable_headers hbind (by decide),
    List.all_flatMap, Bool.true_and, Bool.true_and, List.map_flatMap]
  simp only [hrow, List.map_map, dayCells, Function.comp_def, rangeCells hbind hdate, rangeSheet]

omit hbind hdate in
theorem dataRows_rangeSheet_length (rows : List (ScreenSnapshot × List ScreenSnapshotItem))
    (startLabel endLabel session : String) :
    (dataRows (rangeSheet bind strftime rows startLabel endLabel session)).length =
      (rows.map (·.2.length)).sum := by
  change (rows.flatMap _).length = _
  simp [List.length_flatMap, dayCells]

end Sheets

section Stored

variable {store : SnapshotStore}

theorem getSnapshot_of_mem {s : ScreenSnapshot} (hs : s ∈ store.snapshots) :
    getSnapshot store s.tradeDate s.session = some s := by
  unfold getSnapshot
  cases hfind : store.snapshots.find? fun t => t.tradeDate = s.tradeDate ∧ t.session = s.session with
  | none => simpa using List.find?_eq_none.mp hfind s hs
  | some t =>
    have ht : t.tradeDate = s.tradeDate ∧ t.session = s.session := by
      simpa using List.find?_some hfind
    rw [List.inj_on_of_nodup_map store.keys_nodup (List.mem_of_find?_eq_some hfind) hs
      (Prod.ext ht.1 ht.2)]

theorem downloadSnapshot_of_mem {bind : String → Option CellValue}
    {strftime : String → Date → String} {items : Uuid → List ScreenSnapshotItem}
    {s : ScreenSnapshot} (hs : s ∈ store.snapshots) (hsession : s.session ∈ sessions) :
    downloadSnapshot bind strftime store items s.tradeDate s.session =
      xlsxResponse (snapshotToXlsx bind strftime s (items s.id))
        ("screen_" ++ strftime "%Y%m%d" s.tradeDate ++ "_" ++ s.session ++ ".xlsx") := by
  unfold downloadSnapshot
  rw [if_neg (not_not.mpr hsession), getSnapshot_of_mem hs]

end Stored

/-- A workbook that has the data rows of all the days, each after its date, under the header of
a day after the header of the dates, and counts both in its title. -/
structure DaysInOneSheet (bind : String → Option CellValue) (strftime : String → Date → String)
    (start stop : Date) (session : String) (snaps : List ScreenSnapshot)
    (day : ScreenSnapshot → Worksheet) (ws : Worksheet) : Prop where
  title : ws.rows.head? = some (titleRow bind (rangeTitle (dateLabel strftime start)
    (dateLabel strftime stop) session snaps.length (dataRows ws).length))
  header : ws.rows[1]? =
    some (headerStyle { value := .text "交易日" } :: headerRow bind snapshotHeaders)
  day_header : ∀ s ∈ snaps, (day s).rows[1]? = some (headerRow bind snapshotHeaders)
  data : dataRows ws = snaps.flatMap fun s => (dataRows (day s)).map
    ({ value := .text (dateLabel strftime s.tradeDate) } :: ·)

theorem downloadSnapshotsRange_accepted {L : Type} [LinearOrder L] {collation : String ↪ L}
    {bind : String → Option CellValue} {strftime : String → Date → String} {store : SnapshotStore}
    {items : Uuid → List ScreenSnapshotItem} {start stop : Date} {session : String}
    (hsession : session ∈ sessions) (hle : start ≤ stop)
    (hdays : stop - start ≤ Download.maxRangeDays) :
    let snaps := listSnapshotsInRange collation store start stop (some session)
    let filename := "screen_" ++ strftime "%Y%m%d" start ++ "_" ++ strftime "%Y%m%d" stop ++ "_" ++
      session ++ ".xlsx"
    downloadSnapshotsRange collation bind strftime store items start stop session =
      if snaps = [] then
        xlsxResponse (emptySnapshotsRangeXlsx bind (dateLabel strftime start)
          (dateLabel strftime stop) session) filename
      else
        xlsxResponse (snapshotsRangeToXlsx bind strftime (snaps.map fun s => (s, items s.id))
          (dateLabel strftime start) (dateLabel strftime stop) session) filename := by
  unfold downloadSnapshotsRange
  rw [if_neg (not_not.mpr hsession), if_neg (not_lt.mpr hle), if_neg (not_lt.mpr hdays)]

/-- An accepted range is all the stored days of it, in order, in one sheet; where no day is
stored, the sheet is a title only. It is built exactly when each of the days is. -/
theorem downloadSnapshotsRange_days {L : Type} [LinearOrder L] (collation : String ↪ L)
    {bind : String → Option CellValue} (hbind : BindsTexts bind)
    {strftime : String → Date → String} (hdate : ∀ d, Dashed (dateLabel strftime d))
    (store : SnapshotStore) (items : Uuid → List ScreenSnapshotItem) {start stop : Date}
    {session : String} (hsession : session ∈ sessions) (hle : start ≤ stop)
    (hdays : stop - start ≤ Download.maxRangeDays) :
    let snaps := listSnapshotsInRange collation store start stop (some session)
    let single s := downloadSnapshot bind strftime store items s.tradeDate session
    let range := downloadSnapshotsRange collation bind strftime store items start stop session
    snaps.Perm (store.snapshots.filter (inRange start stop session)) ∧
    snaps.Pairwise (fun a b => a.tradeDate < b.tradeDate) ∧
    (snaps = [] → ∃ name, range = .file
      { title := snapshotSheetName
        rows := [titleRow bind (emptyRangeTitle (dateLabel strftime start)
          (dateLabel strftime stop) session)] } name) ∧
    (snaps ≠ [] →
      ((∃ ws name, range = .file ws name) ↔ ∀ s ∈ snaps, ∃ ws name, single s = .file ws name) ∧
      ∀ ws name day, range = .file ws name →
        (∀ s ∈ snaps, ∃ name, single s = .file (day s) name) →
        DaysInOneSheet bind strftime start stop session snaps day ws) := by
  intro snaps single range
  have hperm : snaps.Perm (store.snapshots.filter (inRange start stop session)) :=
    listSnapshotsInRange_perm
  have hsingle (s : ScreenSnapshot) (hs : s ∈ snaps) (ws : Worksheet) :
      (∃ name, single s = .file ws name) ↔
        writableItems bind (items s.id) ∧ daySheet bind strftime s (items s.id) = ws := by
    obtain ⟨hstored, hrange⟩ := List.mem_filter.mp (hperm.mem_iff.mp hs)
    simp only [inRange, Bool.and_eq_true, beq_iff_eq] at hrange
    obtain rfl := hrange.2
    have heq : single s = _ := downloadSnapshot_of_mem hstored hsession
    rw [heq, snapshotToXlsx_eq hbind hdate hsession]
    simp only [xlsxResponse_eq_file_iff, exists_and_left, exists_eq', and_true,
      Option.ite_none_right_eq_some, Option.some.injEq]
  refine ⟨hperm, listSnapshotsInRange_ascending, fun hnil => ?_, fun hne => ?_⟩
  · have hrange : range = xlsxResponse _ _ :=
      (downloadSnapshotsRange_accepted hsession hle hdays).trans (if_pos hnil)
    rw [hrange, emptySnapshotsRangeXlsx, titleSheet_eq,
      if_pos (writable_emptyRangeTitle hbind (hdate start) (hdate stop) hsession)]
    exact ⟨_, rfl⟩
  · have hrange : range = xlsxResponse _ _ :=
      (downloadSnapshotsRange_accepted hsession hle hdays).trans (if_neg hne)
    rw [snapshotsRangeToXlsx_eq hbind hdate (hdate start) (hdate stop) hsession] at hrange
    have hfile (ws : Worksheet) : (∃ name, range = .file ws name) ↔
        (∀ s ∈ snaps, writableItems bind (items s.id)) ∧ rangeSheet bind strftime
          (snaps.map fun s => (s, items s.id)) (dateLabel strftime start) (dateLabel strftime stop)
          session = ws := by
      rw [hrange]
      simp only [xlsxResponse_eq_file_iff, exists_and_left, exists_eq', and_true,
        Option.ite_none_right_eq_some, Option.some.injEq, List.all_map, List.all_eq_true,
        Function.comp_apply]
      rfl
    constructor
    · simp only [hfile, exists_and_left, exists_eq', and_true]
      refine forall₂_congr fun s hs => ?_
      simp only [hsingle s hs, exists_and_left, exists_eq', and_true]
    · intro ws name day hws hdays
      obtain ⟨-, rfl⟩ := (hfile ws).mp ⟨name, hws⟩
      have hday (s : ScreenSnapshot) (hs : s ∈ snaps) :
          daySheet bind strftime s (items s.id) = day s :=
        ((hsingle s hs (day s)).mp (hdays s hs)).2
      have hdata : snaps.flatMap (fun s => (dayCells bind (items s.id)).map
            ({ value := .text (dateLabel strftime s.tradeDate) } :: ·)) =
          snaps.flatMap fun s => (dataRows (day s)).map
            ({ value := .text (dateLabel strftime s.tradeDate) } :: ·) := by
        refine List.flatMap_congr fun s hs => ?_
        rw [← hday s hs]
        rfl
      constructor
      · rw [dataRows_rangeSheet_length, rangeSheet, List.length_map]
        rfl
      · have hlabel : cellOf bind (.str "交易日") = { value := .text "交易日" } := by
          rw [cellOf, write, hbind.text _ (by decide), Option.getD_some]
        rw [← hlabel]
        rfl
      · exact fun s hs => hday s hs ▸ rfl
      · rw [← hdata, dataRows, rangeSheet, List.flatMap_map]
        rfl

/-- No day is stored, and the sheet has no header. -/
theorem downloadSnapshotsRange_empty :
    let bind := bindText
    let strftime (_ : String) (_ : Date) := "1-01-10"
    let store : SnapshotStore :=
      { snapshots := [], items := [], ids_nodup := List.nodup_nil, itemIds_nodup := List.nodup_nil
        keys_nodup := List.nodup_nil, items_owned := by simp }
    ∃ ws name, downloadSnapshotsRange (Function.Embedding.refl String) bind strftime store
        (fun _ => []) 10 10 "eod" = .file ws name ∧
      ¬ ∃ day, DaysInOneSheet bind strftime 10 10 "eod"
        (listSnapshotsInRange (Function.Embedding.refl String) store 10 10 (some "eod")) day ws := by
  refine ⟨_, _, rfl, ?_⟩
  rintro ⟨day, h⟩
  cases h.header

theorem downloadSnapshotsRange_days_tied :
    let strftime (_ : String) (d : Date) := if d = 11 then "1-01-11" else "1-01-10"
    let snaps := listSnapshotsInRange (Function.Embedding.refl String) tiedStore 10 11 (some "eod")
    let single (s : ScreenSnapshot) := downloadSnapshot bindText strftime tiedStore
      (getSnapshotItems tiedStore) s.tradeDate "eod"
    let range := downloadSnapshotsRange (Function.Embedding.refl String) bindText strftime tiedStore
      (getSnapshotItems tiedStore) 10 11 "eod"
    snaps.Perm (tiedStore.snapshots.filter (inRange 10 11 "eod")) ∧
    snaps.Pairwise (fun a b => a.tradeDate < b.tradeDate) ∧
    (snaps = [] → ∃ name, range = .file
      { title := snapshotSheetName
        rows := [titleRow bindText (emptyRangeTitle "1-01-10" "1-01-11" "eod")] } name) ∧
    (snaps ≠ [] →
      ((∃ ws name, range = .file ws name) ↔ ∀ s ∈ snaps, ∃ ws name, single s = .file ws name) ∧
      ∀ ws name day, range = .file ws name →
        (∀ s ∈ snaps, ∃ name, single s = .file (day s) name) →
        DaysInOneSheet bindText strftime 10 11 "eod" snaps day ws) := by
  intro strftime
  refine downloadSnapshotsRange_days (Function.Embedding.refl String) bindText_bindsTexts
    (fun d => ?_) tiedStore (getSnapshotItems tiedStore) (by decide) (by decide) (by decide)
  by_cases hd : d = 11
  · simp only [strftime, dateLabel, hd, if_true]
    decide
  · simp only [strftime, dateLabel, hd, if_false]
    decide

end StockQuant
