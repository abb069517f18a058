import StockQuant.BacktestMoments
import StockQuant.BacktestWorkbook
import StockQuant.DetailTies
import StockQuant.RecordWorkbook

/-! What the workbook of a backtest shows of the answer that the same query gets as JSON. -/

namespace StockQuant

open Spreadsheet

theorem checkParams_eq_ok {params : BacktestParams} {key : DetailSort} {horizons : List Int}
    (h : checkParams params = .ok (key, horizons)) :
    detailSortKeys.lookup params.detailSort = some key ∧
      normalizeHorizons params.horizons = .ok horizons := by
  unfold checkParams at h
  cases hsort : detailSortKeys.lookup params.detailSort with
  | none => simp [hsort] at h
  | some key' =>
    by_cases horder : params.detailOrder ∈ ["asc", "desc"]
    · cases hhorizons : normalizeHorizons params.horizons with
      | error message => simp [hsort, horder, hhorizons, Except.map] at h
      | ok horizons' => simpa [hsort, horder, hhorizons, Except.map] using h
    · simp [hsort, horder] at h

/-- A query is refused under any limit, or is answered with the rows that its limit leaves. -/
theorem runQuery_limit (int : String → Option Int) (repr : String → String)
    (store : SnapshotStore) (prices : PriceTable) (today : Date) (query : BacktestQuery) :
    (∃ message, ∀ limit, runQuery int repr store prices today { query with detailLimit := limit } =
      .error message) ∨
    ∃ (response : BacktestResponse) (ranked : List BacktestDetailRow),
      (detailSortKeys.lookup response.detailSort).isSome ∧
      (∃ mode, response.session = modeSession mode) ∧ response.detailTotal = ranked.length ∧
      ∀ limit, runQuery int repr store prices today { query with detailLimit := limit } =
        .ok { response with detail := cutDetail limit ranked } := by
  unfold runQuery runOver
  dsimp only
  cases validatedMode query.mode with
  | error message => exact Or.inl ⟨message, fun _ => rfl⟩
  | ok mode =>
    rcases resolveRange store today query.start query.stop with message | ⟨start, stop⟩
    · exact Or.inl ⟨message, fun _ => rfl⟩
    · dsimp only
      cases parseHorizons int repr query.horizons with
      | error message => exact Or.inl ⟨message, fun _ => rfl⟩
      | ok horizons =>
        dsimp only
        split_ifs
        · exact Or.inl ⟨_, fun _ => rfl⟩
        · let params (limit : Int) : BacktestParams :=
            { mode, start, stop, horizons, detailN := query.detailN, detailLimit := limit
              detailSort := query.detailSort, detailOrder := query.detailOrder }
          have hrun (limit : Int) (rows : List (Date × ScreenSnapshotItem)) :
              runBacktestOn (params limit) rows prices = (checkParams (params 0)).map fun checked =>
                backtestResponse (params limit) checked.1 checked.2 rows prices :=
            runBacktestOn_eq (params limit) rows prices
          cases hchecked : checkParams (params 0) with
          | error message =>
            exact Or.inl ⟨message, fun limit => by rw [hrun, hchecked]; rfl⟩
          | ok checked =>
            obtain ⟨key, ns⟩ := checked
            obtain ⟨hsort, hns⟩ := checkParams_eq_ok hchecked
            have hnd := normalizeHorizons_nodup hns
            have hne := normalizeHorizons_ne_nil hns
            let rows := listSnapshotEntries store start stop (modeSession mode)
            let n := pickDetailN ns query.detailN
            have hfields : backtestResponse (params 0) key ns rows prices = _ :=
              backtestResponse_fields (params 0) key prices rows
            refine Or.inr ⟨backtestResponse (params 0) key ns rows prices,
              sortDetail key (query.detailOrder = "desc") (settledRows mode prices n rows),
              ?_, ⟨mode, congrArg BacktestResponse.session hfields⟩, ?_, fun limit => ?_⟩
            · rw [hfields]
              exact Option.isSome_iff_exists.mpr ⟨key, hsort⟩
            · rw [backtestResponse_detailTotal (params 0) key rows prices hnd hne,
                (sortDetail_perm _ _ _).length_eq]
            · rw [hrun, hchecked]
              refine congrArg Except.ok ((backtestResponse_limit (params 0) key rows prices ns
                limit).trans ?_)
              rw [← backtestResponse_detail (params limit) key rows prices hnd hne]

/-- The sheets as they are read; `none` is a file that cannot be. -/
def WorkbookReply.read : WorkbookReply → Option (List Worksheet)
  | .file sheets _ => sheets.mapM Worksheet.reread
  | .refused _ | .crash => none

/-- The cells of a stat and their formats. -/
def statCells (stat : BacktestHorizonStat) : List (CellValue × String) :=
  [(.number stat.n, "General"), (.number stat.samples, "General"), (.number stat.wins, "General"),
    (.number stat.losses, "General"), (.number stat.flat, "General"),
    (.number stat.missing, "General"), (price stat.winRate, "0.00%"),
    (price stat.avgReturnPct, "General"), (price stat.medianReturnPct, "General"),
    (price stat.bestReturnPct, "General"), (price stat.worstReturnPct, "General")]

def detailCells (strftime : String → Date → String) (row : BacktestDetailRow) : List CellValue :=
  [shown (dateLabel strftime row.tradeDate), shown row.symbol, shown row.name, shown row.market,
    .number row.entryPrice, shown (dateLabel strftime row.exitDate), .number row.exitPrice,
    .number row.change, .number row.returnPct]

def BacktestDetailRow.texts (row : BacktestDetailRow) : List String :=
  [row.symbol, row.name, row.market]

/-- No control character in what a cell would hold of the texts. -/
def BacktestDetailRow.Writable (row : BacktestDetailRow) : Prop :=
  ∀ s ∈ row.texts, (s.toList.take cellLimit).all (!isControl ·)

/-- What a cell would hold of the texts can be written and read. -/
def BacktestDetailRow.Clean (row : BacktestDetailRow) : Prop :=
  ∀ s ∈ row.texts, (s.toList.take cellLimit).all isClean

/-- The texts are read as they are. -/
def BacktestDetailRow.Plain (row : BacktestDetailRow) : Prop :=
  ∀ s ∈ row.texts, Kept s ∧ '\r' ∉ s.toList

/-- A reader finds a sheet whose first rows are the stats, and one whose first rows are the
detail. -/
def ShowsAnswer (strftime : String → Date → String) (reply : WorkbookReply)
    (response : BacktestResponse) : Prop :=
  ∃ summary detail, reply.read = some [summary, detail] ∧
    ((dataRows summary).take response.summary.length).map
      (·.map fun cell => (cell.value, cell.numberFormat)) = response.summary.map statCells ∧
    ((dataRows detail).take response.detail.length).map (·.map (·.value)) =
      response.detail.map (detailCells strftime)

/-- The download is a note where there are no entries. Otherwise it breaks where one of the rows
`full` that it lists has a text with a control character, and a reader finds the answer where the
texts of these rows can be read and those of the answer are plain, and only then. -/
def MatchesAnswer (strftime : String → Date → String) (reply : WorkbookReply)
    (response : BacktestResponse) (full : List BacktestDetailRow) : Prop :=
  if response.entries = 0 then
    ∃ ws, reply.read = some [ws] ∧
      ws.rows.map (·.map (·.value)) = [[.text (emptyBacktestMessage strftime response)]]
  else
    (reply = .crash ↔ ∃ row ∈ full, ¬ row.Writable) ∧
      (ShowsAnswer strftime reply response ↔
        (∀ row ∈ full, row.Clean) ∧ ∀ row ∈ response.detail, row.Plain)

theorem dataRows_map {ws read : Worksheet} (h : ws.reread = some read) :
    ws.legible ∧ dataRows read = (dataRows ws).map (·.map Cell.reread) := by
  obtain ⟨hlegible, rfl⟩ := reread_eq_some_iff.mp h
  exact ⟨hlegible, List.map_drop.symm⟩

theorem reread_of_legible {ws : Worksheet} (h : ws.legible) : ∃ read, ws.reread = some read :=
  ⟨_, reread_eq_some_iff.mpr ⟨h, rfl⟩⟩

theorem reread_pair {summary detail read read' : Worksheet} {filename : String}
    (h : (WorkbookReply.file [summary, detail] filename).read = some [read, read']) :
    summary.reread = some read ∧ detail.reread = some read' := by
  cases hsummary : summary.reread <;> cases hdetail : detail.reread <;>
    simp_all [WorkbookReply.read]

theorem cellOf_num (bind : String → Option CellValue) (x : Option ℚ) :
    cellOf bind (num x) = { value := price x } := by
  cases x <;> rfl

/-- The row of a stat is styled as its cells say. -/
theorem winRateFormat_statRow (bind : String → Option CellValue) (stat : BacktestHorizonStat) :
    winRateFormat ((statRow stat).map (cellOf bind)) =
      (statCells stat).map fun cell => { value := cell.1, numberFormat := cell.2 } := by
  unfold statRow statCells
  simp only [List.map_cons, List.map_nil, cellOf_num]
  rfl

theorem reread_of_mem_statCells {stat : BacktestHorizonStat} {cell : CellValue × String}
    (h : cell ∈ statCells stat) : cell.1.reread = cell.1 ∧ cell.1.legible := by
  have hprice (x : Option ℚ) : (price x).reread = price x ∧ (price x).legible := by
    cases x <;> exact ⟨rfl, rfl⟩
  simp only [statCells, List.mem_cons, List.not_mem_nil, or_false] at h
  rcases h with rfl | rfl | rfl | rfl | rfl | rfl | rfl | rfl | rfl | rfl | rfl
  all_goals first | exact hprice _ | exact ⟨rfl, rfl⟩

theorem stat_shown (bind : String → Option CellValue) (stat : BacktestHorizonStat) :
    ((winRateFormat ((statRow stat).map (cellOf bind))).map Cell.reread).map
      (fun cell => (cell.value, cell.numberFormat)) = statCells stat := by
  rw [winRateFormat_statRow, List.map_map, List.map_map]
  refine (List.map_congr_left fun cell hcell => ?_).trans (List.map_id _)
  exact Prod.ext (reread_of_mem_statCells hcell).1 rfl

theorem stat_legible (bind : String → Option CellValue) (stat : BacktestHorizonStat) :
    (winRateFormat ((statRow stat).map (cellOf bind))).all Cell.legible := by
  rw [winRateFormat_statRow, List.all_map, List.all_eq_true]
  exact fun cell hcell => (reread_of_mem_statCells hcell).2

section Answer

variable {bind : String → Option CellValue} (hbind : BindsTexts bind)
  {strftime : String → Date → String} (hdate : ∀ d, Dashed (dateLabel strftime d))

include hbind hdate

theorem detail_shown_iff (row : BacktestDetailRow) :
    (((detailRow strftime row).map (cellOf bind)).map Cell.reread).map (·.value) =
      detailCells strftime row ↔ row.Plain := by
  have hlabel (day : Date) : (cellOf bind (.str (dateLabel strftime day))).reread.value =
      shown (dateLabel strftime day) :=
    (reread_cellOf_shown_iff hbind).mpr ⟨(hdate day).kept, (hdate day).no_return⟩
  have htext (s : String) : (cellOf bind (.str s)).reread.value = shown s ↔
      Kept s ∧ '\r' ∉ s.toList := reread_cellOf_shown_iff hbind
  have hnumber (x : ℚ) : (cellOf bind (.number x)).reread.value = .number x := rfl
  simp only [detailRow, detailCells, List.map_cons, List.map_nil, List.cons.injEq, hlabel, hnumber,
    htext, and_true, true_and, BacktestDetailRow.Plain, BacktestDetailRow.texts,
    List.forall_mem_cons, List.not_mem_nil, false_implies, implies_true]

theorem writable_detailRow_iff (row : BacktestDetailRow) :
    (detailRow strftime row).all (writable bind) ↔ row.Writable := by
  have hlabel (day : Date) := writable_of_no_control hbind (hdate day).no_control
  have htext (s : String) : writable bind (.str s) = true ↔
      (s.toList.take cellLimit).all (!isControl ·) := isSome_bind_iff hbind s
  have hnumber (x : ℚ) : writable bind (.number x) = true := rfl
  simp only [detailRow, List.all_cons, List.all_nil, Bool.and_eq_true, hlabel, hnumber, htext,
    true_and, and_true, BacktestDetailRow.Writable, BacktestDetailRow.texts, List.forall_mem_cons,
    List.not_mem_nil, false_implies, implies_true]

/-- A row that is written and can be read is clean. -/
theorem clean_detailRow_iff (row : BacktestDetailRow) :
    row.Writable ∧ ((detailRow strftime row).map (cellOf bind)).all Cell.legible ↔ row.Clean := by
  have hlabel (day : Date) := (clean_cell hbind (hdate day).clean).2
  have hnumber (x : ℚ) : (cellOf bind (.number x)).legible = true := rfl
  have hclean : row.Clean ↔ row.Writable ∧
      ∀ s ∈ row.texts, (cellOf bind (.str s)).legible := by
    unfold BacktestDetailRow.Clean BacktestDetailRow.Writable
    rw [← forall₂_and]
    refine forall₂_congr fun s _ => ((clean_cell_iff hbind s).symm.trans ?_)
    exact and_congr_left fun _ => isSome_bind_iff hbind s
  rw [hclean]
  simp only [detailRow, List.map_cons, List.map_nil, List.all_cons, List.all_nil,
    Bool.and_eq_true, hlabel, hnumber, true_and, and_true, BacktestDetailRow.texts,
    List.forall_mem_cons, List.not_mem_nil, false_implies, implies_true]

omit hbind in
theorem plain_emptyBacktestMessage {result : BacktestResponse}
    (hsession : ∃ mode, result.session = modeSession mode) :
    Spreadsheet.Plain (emptyBacktestMessage strftime result) := by
  obtain ⟨hshort, hclean, hreturn⟩ : result.session.length ≤ 13 ∧
      result.session.toList.all isClean ∧ '\r' ∉ result.session.toList := by
    obtain ⟨mode, hmode⟩ := hsession
    rw [hmode]
    cases mode <;> decide
  have hclean := clean_emptyBacktestMessage hdate hclean
  refine ⟨kept_of_head ?_ (no_control_of_clean hclean) fun c hc => ?_, ?_, ?_, ?_⟩
  · have hstart := (hdate result.start).1
    have hstop := (hdate result.stop).1
    simp only [emptyBacktestMessage, String.length_append]
    have hconst : " ~ ".length + " ".length + "（".length + "）區間內查無篩選紀錄。".length ≤ 99 := by
      decide
    unfold cellLimit
    omega
  · simp only [emptyBacktestMessage, String.toList_append, List.append_assoc, List.head?_append] at hc
    cases hhead : (dateLabel strftime result.start).toList.head? with
    | none =>
      rw [hhead] at hc
      obtain rfl : ' ' = c := Option.some.inj hc
      decide
    | some first =>
      rw [hhead] at hc
      obtain rfl : first = c := Option.some.inj hc
      exact (hdate result.start).head hhead
  · rw [all_clean, Bool.and_eq_true] at hclean
    exact hclean.2
  · simp only [emptyBacktestMessage, String.toList_append, List.mem_append, not_or]
    exact ⟨⟨⟨⟨⟨⟨(hdate _).no_return, by decide⟩, (hdate _).no_return⟩, by decide⟩, by decide⟩,
      hreturn⟩, by decide⟩
  · intro hempty
    have hlength := congrArg String.length hempty
    simp [emptyBacktestMessage, String.length_append] at hlength

omit hdate in
theorem read_title {title : String} (hplain : Spreadsheet.Plain title) {ws : Worksheet}
    (hrows : ws.rows = [titleRow bind title]) :
    ∃ read, ws.reread = some read ∧ read.rows.map (·.map (·.value)) = [[.text title]] := by
  have hbound : cellOf bind (.str title) = { value := .text title } := by
    rw [cellOf, write, hbind.text title hplain.kept]
    rfl
  have htext : (CellValue.text title).reread = .text title := by
    simpa [hbound] using (reread_cellOf_iff hbind).mpr
      ⟨hplain.kept, hplain.no_return, hplain.nonempty⟩
  have hlegible : ws.legible := by
    have hcell : (cellOf bind (.str title)).legible := by
      rw [hbound]
      exact hplain.legible
    simpa [Worksheet.legible, hrows] using (legible_titleRow_iff bind title).mpr hcell
  refine ⟨_, reread_eq_some_iff.mpr ⟨hlegible, rfl⟩, ?_⟩
  simp [hrows, titleRow, titleStyle, Cell.reread, hbound, htext]

theorem read_empty {result : BacktestResponse} (hentries : result.entries = 0)
    (hsession : ∃ mode, result.session = modeSession mode) :
    ∃ ws, (workbookOf bind strftime result).read = some [ws] ∧
      ws.rows.map (·.map (·.value)) = [[.text (emptyBacktestMessage strftime result)]] := by
  have hplain := plain_emptyBacktestMessage hdate hsession
  have hwritable := writable_of_no_control hbind hplain.kept.no_control
  let ws : Worksheet :=
    { title := "回測", rows := [titleRow bind (emptyBacktestMessage strftime result)], widths := [90] }
  have hfile : workbookOf bind strftime result = .file [ws] (backtestFile strftime result) := by
    unfold workbookOf emptyBacktestXlsx
    rw [if_pos hentries, titleSheet_eq, if_pos hwritable]
    rfl
  obtain ⟨read, hread, hvalues⟩ := @read_title bind hbind _ hplain ws rfl
  exact ⟨read, by rw [hfile, WorkbookReply.read]; simp [hread], hvalues⟩

theorem workbookOf_eq {result : BacktestResponse}
    (hsort : (detailSortKeys.lookup result.detailSort).isSome) (hentries : result.entries ≠ 0) :
    (workbookOf bind strftime result = .crash ∧ ∃ row ∈ result.detail, ¬ row.Writable) ∨
      (∀ row ∈ result.detail, row.Writable) ∧ ∃ summary detail,
        workbookOf bind strftime result = .file [summary, detail] (backtestFile strftime result) ∧
        summary.legible ∧
        dataRows summary = (result.summary.map fun stat =>
          winRateFormat ((statRow stat).map (cellOf bind))) ++
            warningRows bind strftime result.warning ++ footerRow bind disclaimer ∧
        (detail.legible ↔ ∀ row ∈ result.detail, row.Clean) ∧
        dataRows detail = result.detail.map fun row => (detailRow strftime row).map (cellOf bind) := by
  unfold workbookOf backtestToXlsx
  rw [if_neg hentries, summarySheet_eq hbind hdate, detailSheet_eq hbind hsort]
  have hwritable : (result.detail.all fun row => (detailRow strftime row).all (writable bind)) ↔
      ∀ row ∈ result.detail, row.Writable := by
    rw [List.all_eq_true]
    exact forall₂_congr fun row _ => writable_detailRow_iff hbind hdate row
  by_cases hall : ∀ row ∈ result.detail, row.Writable
  · rw [if_pos (hwritable.mpr hall)]
    refine Or.inr ⟨hall, _, _, rfl, ?_, rfl, ?_, rfl⟩
    · refine (legible_rows_iff rfl).mpr ⟨(legible_titleRow_iff _ _).mpr
        (clean_cell hbind (clean_summaryTitle hdate result)).2,
        legible_styled hbind backtestHeaderStyle (fun _ => rfl) (by decide), fun row hrow => ?_⟩
      have hfooter {message : String} (hmessage : message.toList.all isClean)
          (hrow : row ∈ footerRow bind message) : row.all Cell.legible := by
        simp only [footerRow, List.mem_cons, List.not_mem_nil, or_false] at hrow
        rcases hrow with rfl | rfl
        · rfl
        · simpa using (clean_cell hbind hmessage).2
      rcases (List.mem_append.mp hrow).imp_left List.mem_append.mp with (hstat | hwarning) | hnote
      · obtain ⟨stat, -, rfl⟩ := List.mem_map.mp hstat
        exact stat_legible bind stat
      · cases hnone : result.warning with
        | none => simp [hnone, warningRows] at hwarning
        | some warning =>
          rw [hnone] at hwarning
          exact hfooter (clean_append (by decide) (clean_warningText hdate warning)) hwarning
      · exact hfooter (by decide) hnote
    · have hhead : (titleRow bind (detailTitle result)).all Cell.legible ∧
          (backtestHeaderRow bind detailHeaders).all Cell.legible :=
        ⟨(legible_titleRow_iff _ _).mpr (clean_cell hbind (clean_detailTitle hsort)).2,
          legible_styled hbind backtestHeaderStyle (fun _ => rfl) (by decide)⟩
      rw [legible_rows_iff rfl, and_iff_right hhead.1, and_iff_right hhead.2, List.forall_mem_map]
      refine forall₂_congr fun row hrow => ?_
      rw [← clean_detailRow_iff hbind hdate row, and_iff_right (hall row hrow)]
  · rw [if_neg (mt hwritable.mp hall)]
    push Not at hall
    exact Or.inl ⟨rfl, hall⟩

theorem showsAnswer_iff {result response : BacktestResponse}
    (hsort : (detailSortKeys.lookup result.detailSort).isSome) (hentries : result.entries ≠ 0)
    (hsummary : response.summary = result.summary) (hdetail : response.detail <+: result.detail) :
    (workbookOf bind strftime result = .crash ↔ ∃ row ∈ result.detail, ¬ row.Writable) ∧
      (ShowsAnswer strftime (workbookOf bind strftime result) response ↔
        (∀ row ∈ result.detail, row.Clean) ∧ ∀ row ∈ response.detail, row.Plain) := by
  rcases workbookOf_eq hbind hdate hsort hentries with
    ⟨hcrash, hrow⟩ | ⟨hall, summary, detail, hfile, hlegible, hstats, hclean, hrows⟩
  · refine ⟨iff_of_true hcrash hrow, iff_of_false ?_ fun h => ?_⟩
    · rintro ⟨_, _, hread, _⟩
      rw [hcrash] at hread
      cases hread
    · obtain ⟨row, hmem, hnot⟩ := hrow
      exact hnot ((clean_detailRow_iff hbind hdate row).mpr (h.1 row hmem)).1
  · have hshown : ((dataRows summary).map (·.map Cell.reread)).take response.summary.length =
        response.summary.map fun stat =>
          (winRateFormat ((statRow stat).map (cellOf bind))).map Cell.reread := by
      rw [← List.map_take, hstats, List.append_assoc, hsummary,
        List.take_left' (List.length_map _), List.map_map]
      rfl
    have hlisted : ((dataRows detail).map (·.map Cell.reread)).take response.detail.length =
        response.detail.map fun row =>
          ((detailRow strftime row).map (cellOf bind)).map Cell.reread := by
      rw [← List.map_take, hrows, ← List.map_take, ← List.prefix_iff_eq_take.mp hdetail,
        List.map_map]
      rfl
    have hplain : (((dataRows detail).map (·.map Cell.reread)).take response.detail.length).map
        (·.map (·.value)) = response.detail.map (detailCells strftime) ↔
          ∀ row ∈ response.detail, row.Plain := by
      rw [hlisted, List.map_map, List.map_inj_left]
      exact forall₂_congr fun row _ => detail_shown_iff hbind hdate row
    constructor
    · rw [hfile]
      refine iff_of_false (fun h => by cases h) ?_
      rintro ⟨row, hmem, hnot⟩
      exact hnot (hall row hmem)
    · rw [hfile]
      constructor
      · rintro ⟨read, read', hread, _, hcells⟩
        obtain ⟨-, hdetail⟩ := reread_pair hread
        obtain ⟨hlegible, hdata⟩ := dataRows_map hdetail
        rw [hdata] at hcells
        exact ⟨hclean.mp hlegible, hplain.mp hcells⟩
      · rintro ⟨hreadable, htexts⟩
        obtain ⟨read, hread⟩ := reread_of_legible hlegible
        obtain ⟨read', hread'⟩ := reread_of_legible (hclean.mpr hreadable)
        refine ⟨read, read', by simp [WorkbookReply.read, hread, hread'], ?_, ?_⟩
        · rw [(dataRows_map hread).2, hshown, List.map_map]
          exact List.map_congr_left fun stat _ => stat_shown bind stat
        · rw [(dataRows_map hread').2]
          exact hplain.mpr htexts

/-- The download of a backtest tells the same as the JSON of its query, with the first rows that
no limit of the JSON goes beyond, and is refused with the same message. -/
theorem backtestXlsx_matches (int : String → Option Int) (repr : String → String)
    (store : SnapshotStore) (prices : PriceTable) (today : Date) {query : BacktestQuery}
    (hlimit : 0 ≤ query.detailLimit) (hmax : query.detailLimit ≤ maxDetailRows) :
    let reply := backtestXlsx bind strftime int repr store prices today query
    match runQuery int repr store prices today query with
    | .error message => reply = .refused message
    | .ok response => ∃ full : List BacktestDetailRow,
      runQuery int repr store prices today { query with detailLimit := maxDetailRows } =
        .ok { response with detail := full } ∧
      full.length = min response.detailTotal 5000 ∧
      response.detail = full.take query.detailLimit.toNat ∧
      MatchesAnswer strftime reply response full := by
  intro reply
  have hquery : query = { query with detailLimit := query.detailLimit } := rfl
  unfold reply backtestXlsx
  rcases runQuery_limit int repr store prices today query with
    ⟨message, hall⟩ | ⟨response, ranked, hsort, ⟨mode, hsession⟩, htotal, hall⟩
  · rw [hall maxDetailRows, hquery, hall query.detailLimit]
  · rw [hall maxDetailRows, hquery, hall query.detailLimit]
    have hfull : cutDetail maxDetailRows ranked = ranked.take 5000 := if_pos (by decide)
    have hshort : cutDetail query.detailLimit ranked = ranked.take query.detailLimit.toNat :=
      if_pos hlimit
    have htake : ranked.take query.detailLimit.toNat =
        (ranked.take 5000).take query.detailLimit.toNat := by
      rw [List.take_take, min_eq_left]
      unfold maxDetailRows at hmax
      omega
    refine ⟨cutDetail maxDetailRows ranked, rfl, ?_, ?_, ?_⟩
    · rw [hfull, List.length_take, htotal, min_comm]
    · rw [hfull, hshort, htake]
    · unfold MatchesAnswer
      split_ifs with hentries
      · exact read_empty hbind hdate hentries ⟨mode, hsession⟩
      · refine showsAnswer_iff hbind hdate hsort hentries rfl ?_
        rw [hfull, hshort, htake]
        exact List.take_prefix _ _

end Answer

/-- The worst two of the next day's trades of the two screenings. -/
def watchQuery : BacktestQuery where
  mode := "intraday_to_close"
  start := some 10
  stop := some 11
  horizons := some "2,1"
  detailN := some 1
  detailLimit := 2
  detailSort := "return_pct"
  detailOrder := "asc"

/-- All four rows are in the file, though the answer has two; some of the texts are empty. -/
theorem backtestXlsx_matches_watched :
    let int (s : String) : Option Int := if s = "1" then some 1 else if s = "2" then some 2 else none
    let strftime (_ : String) (_ : Date) := "2024-01-02"
    let reply := backtestXlsx bindText strftime int id watchStore watchPrices 12 watchQuery
    ∃ response full, runQuery int id watchStore watchPrices 12 watchQuery = .ok response ∧
      runQuery int id watchStore watchPrices 12 { watchQuery with detailLimit := maxDetailRows } =
        .ok { response with detail := full } ∧
      full.map BacktestDetailRow.texts =
        [["2454", "", ""], ["2317", "鴻海", ""], ["2330", "台積電", "上市"], ["2330", "台積電", "上市"]] ∧
      response.detail = full.take 2 ∧ reply ≠ .crash ∧ ShowsAnswer strftime reply response := by
  intro int strftime reply
  have hdate (day : Date) : Dashed (dateLabel strftime day) := by
    show Dashed "2024-01-02"
    decide
  have hmatches := backtestXlsx_matches bindText_bindsTexts hdate int id watchStore watchPrices 12
    (show 0 ≤ watchQuery.detailLimit by decide) (show watchQuery.detailLimit ≤ maxDetailRows by decide)
  have hentries : (runQuery int id watchStore watchPrices 12 watchQuery).toOption.map (·.entries) =
      some 5 := by decide +kernel
  have htexts : (runQuery int id watchStore watchPrices 12
      { watchQuery with detailLimit := maxDetailRows }).toOption.map
        (·.detail.map BacktestDetailRow.texts) =
      some [["2454", "", ""], ["2317", "鴻海", ""], ["2330", "台積電", "上市"],
        ["2330", "台積電", "上市"]] := by
    decide +kernel
  cases hanswer : runQuery int id watchStore watchPrices 12 watchQuery with
  | error message =>
    rw [hanswer] at hentries
    cases hentries
  | ok response =>
    rw [hanswer] at hmatches hentries
    obtain ⟨full, hfull, -, hdetail, hmatches⟩ := hmatches
    rw [hfull] at htexts
    have htexts : full.map BacktestDetailRow.texts = _ := Option.some.inj htexts
    have hentries : response.entries = 5 := Option.some.inj hentries
    rw [MatchesAnswer, if_neg (by rw [hentries]; decide)] at hmatches
    have hall : ∀ texts ∈ full.map BacktestDetailRow.texts, ∀ s ∈ texts,
        (s.toList.take cellLimit).all isClean ∧ Kept s ∧ '\r' ∉ s.toList := by
      rw [htexts]
      decide +kernel
    have hclean (row : BacktestDetailRow) (hrow : row ∈ full) : row.Clean := fun s hs =>
      (hall _ (List.mem_map_of_mem hrow) s hs).1
    have hplain (row : BacktestDetailRow) (hrow : row ∈ full) : row.Plain := fun s hs =>
      (hall _ (List.mem_map_of_mem hrow) s hs).2
    have hshows := hmatches.2.mpr ⟨hclean, fun row hrow =>
      hplain row (List.mem_of_mem_take (hdetail ▸ hrow))⟩
    refine ⟨response, full, rfl, hfull, htexts, hdetail, fun hcrash => ?_, hshows⟩
    obtain ⟨_, _, hread, -⟩ := hshows
    cases (congrArg WorkbookReply.read hcrash).symm.trans hread

end StockQuant
