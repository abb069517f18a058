import StockQuant.Spreadsheet

/-! The layout that the downloads have in common: a title, a header, and one row for each
item. -/

namespace StockQuant

open Spreadsheet

def headerFill : String := "FCE4D6"

def headerStyle (cell : Cell) : Cell :=
  { cell with font := { bold := true }, fill := some headerFill, horizontal := some "center" }

def titleStyle (cell : Cell) : Cell := { cell with font := { bold := true, size := 12 } }

def styleHeader (ws : Worksheet) (rowIdx ncols : Nat) : Worksheet :=
  ws.modifyRow rowIdx fun row => row.mapIdx fun i cell => if i < ncols then headerStyle cell else cell

def autosize (ws : Worksheet) (widths : List Nat) : Worksheet := { ws with widths }

def num : Option ℚ → Value
  | none => .blank
  | some x => .number x

section Sheets

variable (bind : String → Option CellValue) (name title : String)

/-- A workbook without results. -/
def titleSheet : Option Worksheet := do
  let ws ← ({ title := name } : Worksheet).append bind [.str title]
  some (ws.modifyCell 1 1 titleStyle)

/-- The title over the width of the table, and the header. -/
def headSheet (headers : List String) : Option Worksheet := do
  let ws ← ({ title := name } : Worksheet).append bind [.str title]
  let ws := ws.modifyCell 1 1 titleStyle
  let ws := ws.mergeCells 1 1 1 headers.length
  let ws ← ws.append bind (headers.map .str)
  some (styleHeader ws 2 headers.length)

/-- A workbook with results, as each of the builders makes it: `count` is the number of rows
that it has counted for itself, and `style` what it does to each of them. -/
def tableSheet (headers : List String) (widths : List Nat) (values : List (List Value))
    (count : Nat) (style : List Cell → List Cell) : Option Worksheet := do
  let ws ← headSheet bind name title headers
  let ws ← values.foldlM (Worksheet.append bind) ws
  let first := 3
  let last := first + count - 1
  let ws := if count ≠ 0 then ws.iterRows first last style else ws
  some { autosize ws widths with freezePanes := some "A3" }

def titleRow : List Cell := [titleStyle (cellOf bind (.str title))]

def headerRow (headers : List String) : List Cell :=
  headers.map fun header => headerStyle (cellOf bind (.str header))

theorem titleSheet_eq :
    titleSheet bind name title =
      if writable bind (.str title) then
        some { title := name, rows := [titleRow bind title] }
      else none := by
  unfold titleSheet
  rw [append_eq]
  by_cases htitle : writable bind (.str title)
  · simp [htitle, Worksheet.modifyCell, Worksheet.modifyRow, titleRow]
  · simp [htitle]

theorem headSheet_eq (headers : List String) :
    headSheet bind name title headers =
      if writable bind (.str title) && (headers.map Value.str).all (writable bind) then
        some
          { title := name
            rows := [titleRow bind title, headerRow bind headers]
            merged := [((1, 1), 1, headers.length)] }
      else none := by
  have hheader : ((headers.map Value.str).map (cellOf bind)).mapIdx
      (fun i cell => if i < headers.length then headerStyle cell else cell) =
        headerRow bind headers := by
    refine List.ext_getElem (by simp [headerRow]) fun i hi _ => ?_
    have hlt : i < headers.length := by simpa using hi
    simp [headerRow, hlt]
  unfold headSheet
  rw [append_eq]
  by_cases htitle : writable bind (.str title)
  · simp only [List.all_cons, List.all_nil, htitle, Bool.and_true, if_true, Option.bind_eq_bind,
      Option.bind_some, append_eq, Bool.true_and]
    split_ifs with hheaders
    · rw [← hheader]
      rfl
    · rfl
  · simp [htitle]

/-- The rows that the loop goes over are those below the header. -/
theorem iterRows_data {ws : Worksheet} {top header : List Cell} {rows : List (List Cell)}
    {count : Nat} (hrows : ws.rows = top :: header :: rows) (hcount : count = rows.length)
    (style : List Cell → List Cell) :
    (if count ≠ 0 then ws.iterRows 3 (3 + count - 1) style else ws) =
      { ws with rows := top :: header :: rows.map style } := by
  split_ifs with hzero
  · unfold Worksheet.iterRows
    rw [hrows, iterRows_tail top header rows (by omega)]
  · obtain rfl : rows = [] := List.length_eq_zero_iff.mp (hcount.symm.trans (not_not.mp hzero))
    rw [List.map_nil, ← hrows]

variable {headers : List String} {widths : List Nat} {values : List (List Value)} {count : Nat}
  {style : List Cell → List Cell}

/-- The sheet as a whole, where the builder has counted its rows right. -/
theorem tableSheet_eq (hcount : count = values.length) :
    tableSheet bind name title headers widths values count style =
      if (writable bind (.str title) && (headers.map Value.str).all (writable bind)) &&
          values.all (·.all (writable bind)) then
        some
          { title := name
            rows := titleRow bind title :: headerRow bind headers ::
              values.map fun row => style (row.map (cellOf bind))
            merged := [((1, 1), 1, headers.length)]
            widths
            freezePanes := some "A3" }
      else none := by
  unfold tableSheet
  rw [headSheet_eq]
  by_cases hhead : writable bind (.str title) && (headers.map Value.str).all (writable bind)
  · rw [if_pos hhead, hhead, Bool.true_and, Option.bind_eq_bind, Option.bind_some,
      foldlM_append_eq]
    by_cases hvalues : values.all (·.all (writable bind))
    · have hlength : count = (values.map (·.map (cellOf bind))).length := by simpa using hcount
      rw [if_pos hvalues, if_pos hvalues, Option.bind_some]
      dsimp only
      rw [iterRows_data rfl hlength, List.map_map]
      rfl
    · rw [if_neg hvalues, if_neg hvalues]
      rfl
  · rw [if_neg hhead, if_neg fun hall => hhead (Bool.and_eq_true_iff.mp hall).1]
    rfl

end Sheets

/-- The rows below the header. -/
def dataRows (ws : Worksheet) : List (List Cell) := ws.rows.drop 2

inductive XlsxReply where
  | refused (detail : String)
  | crash
  | file (content : Worksheet) (filename : String)
  deriving DecidableEq

def xlsxResponse (content : Option Worksheet) (filename : String) : XlsxReply :=
  match content with
  | none => .crash
  | some ws => .file ws filename

theorem xlsxResponse_eq_file_iff {content : Option Worksheet} {filename : String} {ws : Worksheet}
    {name : String} :
    xlsxResponse content filename = .file ws name ↔ content = some ws ∧ filename = name := by
  cases content <;> simp [xlsxResponse]

end StockQuant
