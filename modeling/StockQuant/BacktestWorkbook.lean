import StockQuant.BacktestRequests
import StockQuant.SnapshotWorkbooks

/-! The workbook of a backtest, which has a sheet for the summary and one for the detail. -/

namespace StockQuant

open Spreadsheet

def backtestHeaderFill : String := "DDEBF7"

def modeName : Mode → String
  | .intradayToClose => "intraday_to_close"
  | .closeToClose => "close_to_close"

def modeLabel : Mode → String
  | .intradayToClose => "盤中13:00 → 收盤價"
  | .closeToClose => "收盤價 → 收盤價"

def summaryHeaders : List String :=
  ["N (交易日)", "樣本數", "上漲", "下跌", "持平", "無資料",
    "上漲機率", "平均報酬%", "中位數報酬%", "最佳%", "最差%"]

def summaryWidths : List Nat := [11, 9, 8, 8, 8, 9, 11, 12, 14, 10, 10]

def detailHeaders : List String :=
  ["篩選日", "代號", "名稱", "市場", "進場價", "出場日", "出場價", "漲跌", "報酬%"]

def sortLabels : List (String × String) :=
  [("trade_date", "篩選日"), ("symbol", "代號"), ("entry_price", "進場價"), ("exit_date", "出場日"),
    ("exit_price", "出場價"), ("change", "漲跌"), ("return_pct", "報酬%")]

def detailWidths : List Nat := [12, 9, 13, 7, 10, 12, 10, 9, 10]

def disclaimer : String := "⚠️ 統計為歷史資訊參考，非投資建議。"

def backtestHeaderStyle (cell : Cell) : Cell :=
  { cell with
    font := { bold := true }
    fill := some backtestHeaderFill
    horizontal := some "center" }

def styleBacktestHeader (ws : Worksheet) (rowIdx ncols : Nat) : Worksheet :=
  ws.modifyRow rowIdx fun row =>
    row.mapIdx fun i cell => if i < ncols then backtestHeaderStyle cell else cell

/-- The seventh column as a percentage. -/
def winRateFormat (row : List Cell) : List Cell :=
  row.modify 6 fun cell => { cell with numberFormat := "0.00%" }

def statRow (stat : BacktestHorizonStat) : List Value :=
  [.number stat.n, .number stat.samples, .number stat.wins, .number stat.losses, .number stat.flat,
    .number stat.missing, num stat.winRate, num stat.avgReturnPct, num stat.medianReturnPct,
    num stat.bestReturnPct, num stat.worstReturnPct]

section Builders

variable (bind : String → Option CellValue) (strftime : String → Date → String)

def warningText : Warning → String
  | .noEntries => "此區間與時段查無篩選紀錄。"
  | .noPrices => "資料庫尚無全市場每日收盤價，無法計算後續漲跌。" ++
      "請先執行收盤價上傳/回補 (run_backfill_prices.py)。"
  | .notElapsed lastPriceDay biggest => "價格資料只到 " ++ dateLabel strftime lastPriceDay ++
      "，最近幾個篩選日尚未經過 " ++ toString biggest ++
      " 個交易日，這些個股不列入統計（見「無資料」欄）。"
  | .notBackfilled worst => "有 " ++ toString worst ++ " 筆缺少對應的收盤價而未列入統計，" ++
      "可能是該期間的全市場收盤價尚未回補。"

def summaryTitle (result : BacktestResponse) : String :=
  "起漲個股回測（" ++ modeLabel result.mode ++ "）  " ++ dateLabel strftime result.start ++ " ~ " ++
    dateLabel strftime result.stop ++ "  共 " ++ toString result.tradingDays ++ " 個篩選日、" ++
    toString result.entries ++ " 筆訊號"

def detailTitle (result : BacktestResponse) : String :=
  "N = " ++ toString result.detailN ++ " 個交易日後的個股表現" ++ "（共 " ++
    toString result.detailTotal ++ " 筆，本表列出 " ++ toString result.detail.length ++ " 筆；" ++
    "依「" ++ (sortLabels.lookup result.detailSort).getD result.detailSort ++ "」" ++
    (if result.detailOrder = "desc" then "由大到小" else "由小到大") ++ "排序）"

/-- The title over the width of the table, and the header. -/
def backtestHead (name title : String) (headers : List String) : Option Worksheet := do
  let ws ← ({ title := name } : Worksheet).append bind [.str title]
  let ws := ws.modifyCell 1 1 titleStyle
  let ws := ws.mergeCells 1 1 1 headers.length
  let ws ← ws.append bind (headers.map .str)
  some (styleBacktestHeader ws 2 headers.length)

def summarySheet (result : BacktestResponse) : Option Worksheet := do
  let ws ← backtestHead bind "統計" (summaryTitle strftime result) summaryHeaders
  let ws ← (result.summary.map statRow).foldlM (Worksheet.append bind) ws
  let ws := ws.iterRows 3 ws.rows.length winRateFormat
  let ws := autosize ws summaryWidths
  let ws ←
    match result.warning with
    | none => some ws
    | some warning => do
      let ws ← ws.append bind []
      ws.append bind [.str ("⚠️ " ++ warningText strftime warning)]
  let ws ← ws.append bind []
  ws.append bind [.str disclaimer]

def detailRow (row : BacktestDetailRow) : List Value :=
  [.str (dateLabel strftime row.tradeDate),
    .str row.symbol,
    .str row.name,
    .str row.market,
    .number row.entryPrice,
    .str (dateLabel strftime row.exitDate),
    .number row.exitPrice,
    .number row.change,
    .number row.returnPct]

def detailSheet (result : BacktestResponse) : Option Worksheet := do
  let ws ← backtestHead bind ("明細 N=" ++ toString result.detailN) (detailTitle result) detailHeaders
  let ws ← (result.detail.map (detailRow strftime)).foldlM (Worksheet.append bind) ws
  some (autosize ws detailWidths)

def backtestToXlsx (result : BacktestResponse) : Option (List Worksheet) := do
  let ws ← summarySheet bind strftime result
  let det ← detailSheet bind strftime result
  some [ws, det]

def emptyBacktestXlsx (message : String) : Option (List Worksheet) := do
  let ws ← titleSheet bind "回測" message
  some [autosize ws [90]]

end Builders

inductive WorkbookReply where
  | refused (detail : String)
  | crash
  | file (sheets : List Worksheet) (filename : String)
  deriving DecidableEq

def maxDetailRows : Int := 5000

def backtestFile (strftime : String → Date → String) (result : BacktestResponse) : String :=
  "backtest_" ++ strftime "%Y%m%d" result.start ++ "_" ++ strftime "%Y%m%d" result.stop ++
    "_" ++ modeName result.mode ++ "_N" ++ toString result.detailN ++ ".xlsx"

def emptyBacktestMessage (strftime : String → Date → String) (result : BacktestResponse) : String :=
  dateLabel strftime result.start ++ " ~ " ++ dateLabel strftime result.stop ++ " " ++
    "（" ++ result.session ++ "）區間內查無篩選紀錄。"

section Endpoint

variable (bind : String → Option CellValue) (strftime : String → Date → String)
  (int : String → Option Int) (repr : String → String)

def workbookOf (result : BacktestResponse) : WorkbookReply :=
  let content :=
    if result.entries = 0 then emptyBacktestXlsx bind (emptyBacktestMessage strftime result)
    else backtestToXlsx bind strftime result
  match content with
  | none => .crash
  | some sheets => .file sheets (backtestFile strftime result)

def backtestXlsx (store : SnapshotStore) (prices : PriceTable) (today : Date)
    (query : BacktestQuery) : WorkbookReply :=
  match runQuery int repr store prices today { query with detailLimit := maxDetailRows } with
  | .error message => .refused message
  | .ok result => workbookOf bind strftime result

end Endpoint

theorem all_writable_statRow (bind : String → Option CellValue) (stat : BacktestHorizonStat) :
    (statRow stat).all (writable bind) := by
  have hnum (x : Option ℚ) : writable bind (num x) = true := by cases x <;> rfl
  simp only [statRow, List.all_cons, List.all_nil, hnum, Bool.and_true]
  rfl

def backtestHeaderRow (bind : String → Option CellValue) (headers : List String) : List Cell :=
  headers.map fun header => backtestHeaderStyle (cellOf bind (.str header))

theorem backtestHead_eq (bind : String → Option CellValue) (name title : String)
    (headers : List String) (htitle : writable bind (.str title))
    (hheaders : (headers.map Value.str).all (writable bind)) :
    backtestHead bind name title headers = some
      { title := name
        rows := [titleRow bind title, backtestHeaderRow bind headers]
        merged := [((1, 1), 1, headers.length)] } := by
  have hstyle : ((headers.map Value.str).map (cellOf bind)).mapIdx
      (fun i cell => if i < headers.length then backtestHeaderStyle cell else cell) =
        backtestHeaderRow bind headers := by
    refine List.ext_getElem (by simp [backtestHeaderRow]) fun i hi _ => ?_
    have hlt : i < headers.length := by simpa using hi
    simp [backtestHeaderRow, hlt]
  unfold backtestHead
  rw [append_eq, if_pos (by simpa using htitle)]
  simp only [Option.bind_eq_bind, Option.bind_some]
  rw [append_eq, if_pos hheaders, ← hstyle]
  rfl

theorem clean_toString_int (n : Int) : (toString n).toList.all isClean := by
  cases n with
  | ofNat n => exact clean_toString n
  | negSucc n =>
    have hneg : toString (Int.negSucc n) = "-" ++ toString (n + 1) := rfl
    rw [hneg, String.toList_append, List.all_append, clean_toString, Bool.and_true]
    decide

theorem clean_append {s t : String} (hs : s.toList.all isClean)
    (ht : t.toList.all isClean) : (s ++ t).toList.all isClean := by
  rw [String.toList_append, List.all_append, hs, ht, Bool.and_self]

section Texts

variable {strftime : String → Date → String} (hdate : ∀ d, Dashed (dateLabel strftime d))

include hdate in
theorem clean_warningText (warning : Warning) :
    (warningText strftime warning).toList.all isClean := by
  cases warning with
  | noEntries =>
    show "此區間與時段查無篩選紀錄。".toList.all isClean
    decide
  | noPrices => exact clean_append (by decide) (by decide)
  | notElapsed lastPriceDay biggest =>
    have hlast := clean_append (s := "價格資料只到 ") (by decide) (hdate lastPriceDay).clean
    have hbiggest := clean_append (clean_append hlast
      (t := "，最近幾個篩選日尚未經過 ") (by decide)) (clean_toString_int biggest)
    exact clean_append hbiggest (by decide)
  | notBackfilled worst =>
    have hworst := clean_append (s := "有 ") (by decide) (clean_toString worst)
    exact clean_append (clean_append hworst (by decide)) (by decide)

include hdate in
theorem clean_summaryTitle (result : BacktestResponse) :
    (summaryTitle strftime result).toList.all isClean := by
  have hlabel : (modeLabel result.mode).toList.all isClean := by
    cases result.mode <;> decide
  have hmode := clean_append (clean_append (s := "起漲個股回測（") (by decide) hlabel)
    (t := "）  ") (by decide)
  have hrange := clean_append (clean_append (clean_append hmode
    (hdate result.start).clean) (t := " ~ ") (by decide)) (hdate result.stop).clean
  have hdays := clean_append (clean_append hrange (t := "  共 ") (by decide))
    (clean_toString result.tradingDays)
  have hentries := clean_append (clean_append hdays (t := " 個篩選日、") (by decide))
    (clean_toString result.entries)
  exact clean_append hentries (by decide)

theorem clean_detailTitle {result : BacktestResponse}
    (hsort : (detailSortKeys.lookup result.detailSort).isSome) :
    (detailTitle result).toList.all isClean := by
  have hlabel : ((sortLabels.lookup result.detailSort).getD result.detailSort).toList.all
      isClean := by
    have hlabels : ∀ label ∈ sortLabels.map Prod.snd, label.toList.all isClean := by decide
    have hkeys : ∀ name ∈ detailSortKeys.map Prod.fst,
        ∃ label ∈ sortLabels.map Prod.snd, sortLabels.lookup name = some label := by decide
    obtain ⟨key, hkey⟩ := Option.isSome_iff_exists.mp hsort
    obtain ⟨before, after, happend, -⟩ := List.lookup_eq_some_iff.mp hkey
    obtain ⟨label, hlabel, hlookup⟩ := hkeys result.detailSort (by simp [happend])
    rw [hlookup]
    exact hlabels label hlabel
  have horder : (if result.detailOrder = "desc" then "由大到小" else "由小到大").toList.all
      isClean := by
    split_ifs <;> decide
  have hn := clean_append (clean_append (clean_append (s := "N = ") (by decide)
    (clean_toString_int result.detailN)) (t := " 個交易日後的個股表現") (by decide))
    (t := "（共 ") (by decide)
  have htotal := clean_append (clean_append hn
    (clean_toString result.detailTotal)) (t := " 筆，本表列出 ") (by decide)
  have hshown := clean_append (clean_append (clean_append htotal
    (clean_toString result.detail.length)) (t := " 筆；") (by decide)) (t := "依「") (by decide)
  have hsorted := clean_append (clean_append (clean_append hshown hlabel)
    (t := "」") (by decide)) horder
  exact clean_append hsorted (by decide)

include hdate in
theorem clean_emptyBacktestMessage {result : BacktestResponse}
    (hsession : result.session.toList.all isClean) :
    (emptyBacktestMessage strftime result).toList.all isClean := by
  have hrange := clean_append (clean_append (clean_append
    (hdate result.start).clean (t := " ~ ") (by decide)) (hdate result.stop).clean)
    (t := " ") (by decide)
  exact clean_append (clean_append (clean_append hrange (t := "（") (by decide))
    hsession) (by decide)

end Texts

section Sheets

variable {bind : String → Option CellValue} (hbind : BindsTexts bind)
  {strftime : String → Date → String} (hdate : ∀ d, Dashed (dateLabel strftime d))

def footerRow (bind : String → Option CellValue) (message : String) : List (List Cell) :=
  [[], [cellOf bind (.str message)]]

def warningRows (bind : String → Option CellValue) (strftime : String → Date → String) :
    Option Warning → List (List Cell)
  | none => []
  | some warning => footerRow bind ("⚠️ " ++ warningText strftime warning)

include hbind in
/-- Two rows more, one of them empty. -/
theorem append_footer (ws : Worksheet) {message : String}
    (hmessage : message.toList.all isClean) :
    (ws.append bind []).bind (·.append bind [.str message]) =
      some { ws with rows := ws.rows ++ footerRow bind message } := by
  have hwritable := (clean_cell hbind hmessage).1
  rw [append_eq, if_pos (by simp), Option.bind_some, append_eq, if_pos (by simpa using hwritable)]
  simp [footerRow]

theorem iterRows_below {ws : Worksheet} {top header : List Cell} {rows : List (List Cell)}
    (hrows : ws.rows = top :: header :: rows) (f : List Cell → List Cell) :
    ws.iterRows 3 ws.rows.length f = { ws with rows := top :: header :: rows.map f } := by
  unfold Worksheet.iterRows
  rw [hrows, iterRows_tail top header rows (by rw [List.length_cons, List.length_cons]; omega)]

include hbind hdate in
theorem summarySheet_eq (result : BacktestResponse) :
    summarySheet bind strftime result = some
      { title := "統計"
        rows := titleRow bind (summaryTitle strftime result) ::
          backtestHeaderRow bind summaryHeaders ::
          (result.summary.map fun stat => winRateFormat ((statRow stat).map (cellOf bind))) ++
          warningRows bind strftime result.warning ++ footerRow bind disclaimer
        merged := [((1, 1), 1, summaryHeaders.length)]
        widths := summaryWidths } := by
  have hstats : (result.summary.map statRow).all (·.all (writable bind)) := by
    rw [List.all_map, List.all_eq_true]
    exact fun stat _ => all_writable_statRow bind stat
  unfold summarySheet
  rw [backtestHead_eq _ _ _ _ (clean_cell hbind (clean_summaryTitle hdate result)).1
    (writable_headers hbind (by decide)), Option.bind_eq_bind, Option.bind_some,
    foldlM_append_eq, if_pos hstats, Option.bind_some]
  dsimp only
  rw [iterRows_below rfl]
  cases result.warning with
  | none =>
    rw [Option.bind_some, append_footer hbind _ (by decide)]
    simp [autosize, warningRows]
  | some warning =>
    have hwarning := clean_append (s := "⚠️ ") (by decide) (clean_warningText hdate warning)
    dsimp only
    rw [← Option.bind_assoc, append_footer hbind _ hwarning, Option.bind_some,
      append_footer hbind _ (by decide)]
    simp [autosize, warningRows]

include hbind in
theorem detailSheet_eq {result : BacktestResponse}
    (hsort : (detailSortKeys.lookup result.detailSort).isSome) :
    detailSheet bind strftime result =
      if result.detail.all fun row => (detailRow strftime row).all (writable bind) then
        some
          { title := "明細 N=" ++ toString result.detailN
            rows := titleRow bind (detailTitle result) :: backtestHeaderRow bind detailHeaders ::
              result.detail.map fun row => (detailRow strftime row).map (cellOf bind)
            merged := [((1, 1), 1, detailHeaders.length)]
            widths := detailWidths }
      else none := by
  unfold detailSheet
  rw [backtestHead_eq _ _ _ _ (clean_cell hbind (clean_detailTitle hsort)).1
    (writable_headers hbind (by decide)), Option.bind_eq_bind, Option.bind_some,
    foldlM_append_eq, List.all_map]
  simp only [Function.comp_def]
  by_cases hall : result.detail.all fun row => (detailRow strftime row).all (writable bind)
  · rw [if_pos hall, if_pos hall]
    simp [autosize]
  · rw [if_neg hall, if_neg hall]
    rfl

end Sheets

end StockQuant
