import Mathlib.Algebra.Order.Ring.Rat
import Mathlib.Data.List.Basic

/-! Worksheets that are written row by row and then styled. What becomes of a text is up to the
writer, which may refuse it. -/

namespace Spreadsheet

inductive Value where
  | blank
  | number (x : ℚ)
  | str (s : String)
  deriving DecidableEq

inductive CellValue where
  | blank
  | number (x : ℚ)
  | text (s : String)
  | formula (s : String)
  | error (s : String)
  deriving DecidableEq

structure Font where
  bold : Bool := false
  size : Nat := 11
  deriving DecidableEq

structure Cell where
  value : CellValue := .blank
  numberFormat : String := "General"
  font : Font := {}
  fill : Option String := none
  horizontal : Option String := none
  deriving DecidableEq

structure Worksheet where
  title : String := "Sheet"
  rows : List (List Cell) := []
  merged : List ((Nat × Nat) × Nat × Nat) := []
  widths : List Nat := []
  freezePanes : Option String := none
  deriving DecidableEq

section Write

-- `bind` makes a cell of a text; `none` is an exception.
variable (bind : String → Option CellValue)

def write : Value → Option CellValue
  | .blank => some .blank
  | .number x => some (.number x)
  | .str s => bind s

def writable (value : Value) : Bool := (write bind value).isSome

/-- The cell of a value that can be written. -/
def cellOf (value : Value) : Cell where
  value := (write bind value).getD .blank

def Worksheet.append (ws : Worksheet) (values : List Value) : Option Worksheet := do
  let cells ← values.mapM (write bind)
  some { ws with rows := ws.rows ++ [cells.map fun value => { value }] }

theorem mapM_write (values : List Value) :
    values.mapM (write bind) =
      if values.all (writable bind) then
        some (values.map fun value => (write bind value).getD .blank)
      else none := by
  induction values with
  | nil => rfl
  | cons value values ih =>
    rw [List.mapM_cons, ih, List.all_cons]
    cases hwrite : write bind value with
    | none => simp [writable, hwrite]
    | some cell => by_cases hall : values.all (writable bind) <;> simp [writable, hwrite, hall]

theorem append_eq (ws : Worksheet) (values : List Value) :
    ws.append bind values =
      if values.all (writable bind) then
        some { ws with rows := ws.rows ++ [values.map (cellOf bind)] }
      else none := by
  unfold Worksheet.append
  rw [mapM_write]
  split_ifs
  · simp [cellOf]
  · rfl

theorem foldlM_append_eq (rows : List (List Value)) (ws : Worksheet) :
    rows.foldlM (Worksheet.append bind) ws =
      if rows.all (·.all (writable bind)) then
        some { ws with rows := ws.rows ++ rows.map (·.map (cellOf bind)) }
      else none := by
  induction rows generalizing ws with
  | nil => simp
  | cons values rows ih =>
    rw [List.foldlM_cons, append_eq, List.all_cons]
    by_cases hall : values.all (writable bind)
    · simp [hall, ih]
    · simp [hall]

end Write

-- Rows and columns of a worksheet are counted from one.
def Worksheet.modifyRow (ws : Worksheet) (row : Nat) (f : List Cell → List Cell) : Worksheet :=
  { ws with rows := ws.rows.modify (row - 1) f }

def Worksheet.modifyCell (ws : Worksheet) (row column : Nat) (f : Cell → Cell) : Worksheet :=
  ws.modifyRow row fun cells => cells.modify (column - 1) f

def Worksheet.mergeCells (ws : Worksheet) (startRow startColumn endRow endColumn : Nat) :
    Worksheet :=
  { ws with merged := ws.merged ++ [((startRow, startColumn), endRow, endColumn)] }

/-- What a loop over some rows does to each of them. -/
def Worksheet.iterRows (ws : Worksheet) (first last : Nat) (f : List Cell → List Cell) :
    Worksheet :=
  { ws with rows := ws.rows.mapIdx fun i row => if first ≤ i + 1 ∧ i + 1 ≤ last then f row else row }

/-- Two decimals in some columns, and one column in the middle; these count from zero. -/
def formatted (numbers centred : List Nat) (row : List Cell) : List Cell :=
  row.mapIdx fun i cell =>
    let cell := if i ∈ numbers then { cell with numberFormat := "0.00" } else cell
    if i ∈ centred then { cell with horizontal := some "center" } else cell

theorem formatted_shift (numbers centred : List Nat) (cell : Cell) (row : List Cell) :
    formatted (numbers.map (· + 1)) (centred.map (· + 1)) (cell :: row) =
      cell :: formatted numbers centred row := by
  have hmem (i : Nat) (l : List Nat) : i + 1 ∈ l.map (· + 1) ↔ i ∈ l := by simp
  have hzero (l : List Nat) : 0 ∉ l.map (· + 1) := by simp
  unfold formatted
  simp only [List.mapIdx_cons, hmem, hzero, if_false]

/-- The rows that follow two others. -/
theorem iterRows_tail (title header : List Cell) (rows : List (List Cell)) {last : Nat}
    (hlast : last = 2 + rows.length) (f : List Cell → List Cell) :
    (title :: header :: rows).mapIdx
        (fun i row => if 3 ≤ i + 1 ∧ i + 1 ≤ last then f row else row) =
      title :: header :: rows.map f := by
  rw [List.mapIdx_cons, List.mapIdx_cons]
  refine congrArg _ (congrArg _ (List.ext_getElem (by simp) fun i hi _ => ?_))
  rw [List.length_mapIdx] at hi
  rw [List.getElem_mapIdx, List.getElem_map, if_pos (by omega)]

def isControl (c : Char) : Bool :=
  c.toNat ≤ 0x08 || c.toNat == 0x0b || c.toNat == 0x0c || (0x0e ≤ c.toNat && c.toNat ≤ 0x1f)

def cellLimit : Nat := 32767

def errorCodes : List String :=
  ["#NULL!", "#DIV/0!", "#VALUE!", "#REF!", "#NAME?", "#NUM!", "#N/A"]

def formulaLike (s : String) : Bool := 1 < s.length && s.toList.head? == some '='

/-- The first characters, as many as a cell holds. -/
def cut (s : String) : String := String.ofList (s.toList.take cellLimit)

/-- A text that a cell can hold as it is. -/
structure Kept (s : String) : Prop where
  short : s.length ≤ cellLimit
  no_control : s.toList.all (!isControl ·)
  not_formula : formulaLike s = false
  not_error : s ∉ errorCodes

instance (s : String) : Decidable (Kept s) :=
  decidable_of_iff
    (s.length ≤ cellLimit ∧ s.toList.all (!isControl ·) ∧ formulaLike s = false ∧ s ∉ errorCodes)
    ⟨fun h => ⟨h.1, h.2.1, h.2.2.1, h.2.2.2⟩, fun h => ⟨h.1, h.2, h.3, h.4⟩⟩

theorem kept_of_head {s : String} (hshort : s.length ≤ cellLimit)
    (hcontrol : s.toList.all (!isControl ·))
    (hhead : ∀ c, s.toList.head? = some c → c ≠ '=' ∧ c ≠ '#') : Kept s := by
  refine ⟨hshort, hcontrol, ?_, fun herror => ?_⟩
  · rw [formulaLike, Bool.and_eq_false_iff]
    exact Or.inr (beq_eq_false_iff_ne.mpr fun hc => (hhead '=' hc).1 rfl)
  · have hcodes : ∀ code ∈ errorCodes, code.toList.head? = some '#' := by decide
    exact (hhead '#' (hcodes s herror)).2 rfl

/-- A text that is too long is cut; a control character is refused; a text that begins with an
equals sign is a formula; the names of the errors are errors. -/
structure BindsTexts (bind : String → Option CellValue) : Prop where
  long : ∀ s, bind s = bind (cut s)
  control : ∀ s, s.length ≤ cellLimit → s.toList.all (!isControl ·) = false → bind s = none
  formula : ∀ s, s.length ≤ cellLimit → s.toList.all (!isControl ·) → formulaLike s →
    bind s = some (.formula s)
  error : ∀ s ∈ errorCodes, bind s = some (.error s)
  text : ∀ s, Kept s → bind s = some (.text s)

theorem not_control_of_digit {c : Char} (h : c.isDigit) : isControl c = false := by
  simp only [Char.isDigit, Bool.and_eq_true, decide_eq_true_eq] at h
  have hlow : 48 ≤ c.toNat := h.1
  simp only [isControl, Bool.or_eq_false_iff, Bool.and_eq_false_iff, decide_eq_false_iff_not,
    beq_eq_false_iff_ne]
  omega

theorem length_cut (s : String) : (cut s).length ≤ cellLimit := by
  rw [cut, String.length_ofList]
  exact List.length_take_le _ _

theorem cut_of_short {s : String} (h : s.length ≤ cellLimit) : cut s = s := by
  rw [cut, List.take_of_length_le (by rwa [String.length_toList]), String.ofList_toList]

/-- The characters that no file may hold, though a cell takes them. -/
def isNoncharacter (c : Char) : Bool := c.toNat == 0xfffe || c.toNat == 0xffff

/-- A character that can be written and read. -/
def isClean (c : Char) : Bool := !isControl c && !isNoncharacter c

theorem all_clean (l : List Char) :
    l.all isClean = (l.all (!isControl ·) && l.all (!isNoncharacter ·)) := by
  induction l with
  | nil => rfl
  | cons c cs ih =>
    rw [List.all_cons, List.all_cons, List.all_cons, ih, isClean]
    ac_rfl

theorem no_control_of_clean {s : String} (h : s.toList.all isClean) :
    s.toList.all (!isControl ·) := by
  rw [all_clean, Bool.and_eq_true] at h
  exact h.1

theorem clean_of_digit {c : Char} (h : c.isDigit) : isClean c := by
  rw [isClean, not_control_of_digit h]
  simp only [Char.isDigit, Bool.and_eq_true, decide_eq_true_eq] at h
  have hhigh : c.toNat ≤ 57 := h.2
  have hne : c.toNat ≠ 0xfffe ∧ c.toNat ≠ 0xffff := by omega
  simp [isNoncharacter, hne]

theorem clean_toString (n : Nat) : (toString n).toList.all isClean := by
  rw [List.all_eq_true]
  intro c hc
  exact clean_of_digit
    (Nat.isDigit_of_mem_toDigits (by decide) (by decide) (Nat.toList_repr ▸ hc))

theorem no_control_toString (n : Nat) : (toString n).toList.all (!isControl ·) :=
  no_control_of_clean (clean_toString n)

/-- How a file is read: a carriage return is the end of a line, with the line feed after it. -/
def lineFeeds : List Char → List Char
  | '\r' :: '\n' :: cs => '\n' :: lineFeeds cs
  | c :: cs => (if c = '\r' then '\n' else c) :: lineFeeds cs
  | [] => []

theorem return_notMem_lineFeeds (l : List Char) : '\r' ∉ lineFeeds l := by
  fun_induction lineFeeds l with
  | case1 cs ih => simp [ih]
  | case2 c cs _ ih =>
    rw [List.mem_cons, not_or]
    refine ⟨?_, ih⟩
    split_ifs with hc
    · decide
    · exact Ne.symm hc
  | case3 => simp

theorem lineFeeds_of_notMem {l : List Char} (h : '\r' ∉ l) : lineFeeds l = l := by
  fun_induction lineFeeds l with
  | case1 cs ih => simp at h
  | case2 c cs _ ih =>
    rw [List.mem_cons, not_or] at h
    rw [if_neg (Ne.symm h.1), ih h.2]
  | case3 => rfl

theorem length_lineFeeds (l : List Char) : (lineFeeds l).length ≤ l.length := by
  fun_induction lineFeeds l with
  | case1 cs ih => simp only [List.length_cons]; omega
  | case2 c cs _ ih => simpa using ih
  | case3 => rfl

theorem lineFeeds_eq_nil {l : List Char} (h : lineFeeds l = []) : l = [] := by
  fun_cases lineFeeds l with
  | case1 | case2 => simp [lineFeeds] at h
  | case3 => rfl

/-- A cell as it is read; an empty text leaves no trace. -/
def CellValue.reread : CellValue → CellValue
  | .text s => if s = "" then .blank else .text (String.ofList (lineFeeds s.toList))
  | .formula s => .formula (String.ofList (lineFeeds s.toList))
  | value => value

def CellValue.legible : CellValue → Bool
  | .text s | .formula s => s.toList.all (!isNoncharacter ·)
  | _ => true

def Cell.reread (cell : Cell) : Cell := { cell with value := cell.value.reread }

def Cell.legible (cell : Cell) : Bool := cell.value.legible

def Worksheet.legible (ws : Worksheet) : Bool := ws.rows.all (·.all Cell.legible)

/-- A worksheet as it is read; `none` is a file that cannot be. -/
def Worksheet.reread (ws : Worksheet) : Option Worksheet :=
  if ws.legible then some { ws with rows := ws.rows.map (·.map Cell.reread) } else none

theorem legible_rows_iff {ws : Worksheet} {top header : List Cell} {rows : List (List Cell)}
    (hrows : ws.rows = top :: header :: rows) :
    ws.legible ↔ top.all Cell.legible ∧ header.all Cell.legible ∧
      ∀ row ∈ rows, row.all Cell.legible := by
  unfold Worksheet.legible
  rw [hrows]
  simp only [List.all_cons, Bool.and_eq_true, List.all_eq_true]

theorem reread_eq_some_iff {ws read : Worksheet} :
    ws.reread = some read ↔
      ws.legible ∧ { ws with rows := ws.rows.map (·.map Cell.reread) } = read := by
  rw [Worksheet.reread, Option.ite_none_right_eq_some, Option.some.injEq]

/-- A text that a file gives back as it is. -/
structure Plain (s : String) : Prop where
  kept : Kept s
  legible : s.toList.all (!isNoncharacter ·)
  no_return : '\r' ∉ s.toList
  nonempty : s ≠ ""

instance (s : String) : Decidable (Plain s) :=
  decidable_of_iff (Kept s ∧ s.toList.all (!isNoncharacter ·) ∧ '\r' ∉ s.toList ∧ s ≠ "")
    ⟨fun h => ⟨h.1, h.2.1, h.2.2.1, h.2.2.2⟩, fun h => ⟨h.1, h.2, h.3, h.4⟩⟩

/-- What a reader finds of a text: nothing of an empty one. -/
def shown (s : String) : CellValue := if s = "" then .blank else .text s

theorem reread_text_eq {s t : String} (h : (CellValue.text t).reread = .text s) :
    lineFeeds t.toList = s.toList ∧ s ≠ "" := by
  simp only [CellValue.reread] at h
  split_ifs at h with hempty
  have hread : lineFeeds t.toList = s.toList := by
    rw [← CellValue.text.inj h, String.toList_ofList]
  refine ⟨hread, ?_⟩
  rintro rfl
  exact hempty (String.toList_eq_nil_iff.mp (lineFeeds_eq_nil hread))

section Binds

variable {bind : String → Option CellValue} (hbind : BindsTexts bind) (s : String)
include hbind

theorem bind_cases_of_short (hshort : s.length ≤ cellLimit) :
    (s.toList.all (!isControl ·) = false ∧ bind s = none) ∨
      s.toList.all (!isControl ·) ∧
        (bind s = some (.formula s) ∨ s ∈ errorCodes ∧ bind s = some (.error s) ∨
          Kept s ∧ bind s = some (.text s)) := by
  by_cases hcontrol : s.toList.all (!isControl ·)
  · refine Or.inr ⟨hcontrol, ?_⟩
    by_cases hformula : formulaLike s
    · exact Or.inl (hbind.formula s hshort hcontrol hformula)
    · by_cases herror : s ∈ errorCodes
      · exact Or.inr (Or.inl ⟨herror, hbind.error s herror⟩)
      · have hkept : Kept s := ⟨hshort, hcontrol, by simpa using hformula, herror⟩
        exact Or.inr (Or.inr ⟨hkept, hbind.text s hkept⟩)
  · rw [Bool.not_eq_true] at hcontrol
    exact Or.inl ⟨hcontrol, hbind.control s hshort hcontrol⟩

theorem isSome_bind_iff : (bind s).isSome ↔ (s.toList.take cellLimit).all (!isControl ·) := by
  have hcases := bind_cases_of_short hbind (cut s) (length_cut s)
  rw [← hbind.long, cut, String.toList_ofList] at hcases
  rcases hcases with ⟨hcontrol, hnone⟩ | ⟨hcontrol, hformula | ⟨-, herror⟩ | ⟨-, htext⟩⟩
  · simp [hnone, hcontrol]
  · simpa [hformula] using hcontrol
  · simpa [herror] using hcontrol
  · simpa [htext] using hcontrol

/-- A cell with a text holds as much of it as it can. -/
theorem bind_text {t : String} (h : bind s = some (.text t)) : t = cut s ∧ Kept (cut s) := by
  have hcases := bind_cases_of_short hbind (cut s) (length_cut s)
  rw [← hbind.long, h] at hcases
  rcases hcases with ⟨-, hnone⟩ | ⟨-, hformula | ⟨-, herror⟩ | ⟨hkept, htext⟩⟩
  · cases hnone
  · cases hformula
  · cases herror
  · exact ⟨by simpa using htext, hkept⟩

theorem writable_of_no_control {s : String} (h : s.toList.all (!isControl ·)) :
    writable bind (.str s) := by
  refine (isSome_bind_iff hbind s).mpr (List.all_eq_true.mpr fun c hc => ?_)
  exact List.all_eq_true.mp h c (List.mem_of_mem_take hc)

theorem writable_headers {headers : List String}
    (h : headers.all fun header => header.toList.all (!isControl ·)) :
    (headers.map Value.str).all (writable bind) := by
  rw [List.all_map, List.all_eq_true]
  exact fun header hheader => writable_of_no_control hbind (List.all_eq_true.mp h header hheader)

/-- What is read of a cell with a text. -/
theorem reread_cellOf_iff {s : String} :
    (cellOf bind (.str s)).value.reread = .text s ↔ Kept s ∧ '\r' ∉ s.toList ∧ s ≠ "" := by
  constructor
  · intro h
    cases hbound : bind s with
    | none => simp [cellOf, write, hbound, CellValue.reread] at h
    | some value =>
      simp only [cellOf, write, hbound, Option.getD_some] at h
      cases value with
      | text t =>
        obtain ⟨rfl, hkept⟩ := bind_text hbind s hbound
        obtain ⟨hread, hne⟩ := reread_text_eq h
        have hlength : s.length ≤ (cut s).length := by
          rw [← String.length_toList, ← hread, ← String.length_toList]
          exact length_lineFeeds _
        rw [cut_of_short (hlength.trans (length_cut s))] at hkept
        exact ⟨hkept, hread ▸ return_notMem_lineFeeds _, hne⟩
      | blank | number | formula | error => simp [CellValue.reread] at h
  · rintro ⟨hkept, hreturn, hne⟩
    simp [cellOf, write, hbind.text s hkept, CellValue.reread, hne, lineFeeds_of_notMem hreturn]

theorem reread_cellOf_shown_iff {s : String} :
    (cellOf bind (.str s)).value.reread = shown s ↔ Kept s ∧ '\r' ∉ s.toList := by
  by_cases hempty : s = ""
  · subst hempty
    refine iff_of_true ?_ (by decide)
    simp [cellOf, write, hbind.text "" (by decide), CellValue.reread, shown]
  · rw [shown, if_neg hempty, reread_cellOf_iff hbind]
    simp [hempty]

/-- A text that is written can be read as far as the cell holds it. -/
theorem legible_cellOf_iff {s : String} (h : writable bind (.str s)) :
    (cellOf bind (.str s)).legible ↔
      (s.toList.take cellLimit).all (!isNoncharacter ·) := by
  have hcases := bind_cases_of_short hbind (cut s) (length_cut s)
  rw [← hbind.long] at hcases
  have hcut : (cut s).toList = s.toList.take cellLimit := String.toList_ofList
  rcases hcases with ⟨-, hnone⟩ | ⟨-, hformula | ⟨hcode, herror⟩ | ⟨-, htext⟩⟩
  · simp [writable, write, hnone] at h
  · simp [cellOf, write, hformula, Cell.legible, CellValue.legible, ← hcut]
  · have hcodes : ∀ s ∈ errorCodes, s.toList.all (!isNoncharacter ·) := by decide
    rw [← hcut, hcodes _ hcode]
    simp [cellOf, write, herror, Cell.legible, CellValue.legible]
  · simp [cellOf, write, htext, Cell.legible, CellValue.legible, ← hcut]

theorem clean_cell_iff (s : String) :
    writable bind (.str s) ∧ (cellOf bind (.str s)).legible ↔
      (s.toList.take cellLimit).all isClean := by
  rw [all_clean, Bool.and_eq_true]
  have hwritable : writable bind (.str s) ↔ (s.toList.take cellLimit).all (!isControl ·) :=
    isSome_bind_iff hbind s
  rw [← hwritable]
  exact and_congr_right fun h => legible_cellOf_iff hbind h

theorem clean_cell {s : String} (h : s.toList.all isClean) :
    writable bind (.str s) ∧ (cellOf bind (.str s)).legible := by
  refine (clean_cell_iff hbind s).mpr (List.all_eq_true.mpr fun c hc => ?_)
  exact List.all_eq_true.mp h c (List.mem_of_mem_take hc)

end Binds

/-- A writer as described. -/
def bindText (s : String) : Option CellValue :=
  if (cut s).toList.all (!isControl ·) = false then none
  else if formulaLike (cut s) then some (.formula (cut s))
  else if cut s ∈ errorCodes then some (.error (cut s))
  else some (.text (cut s))

theorem bindText_bindsTexts : BindsTexts bindText where
  long s := by rw [bindText, bindText, cut_of_short (length_cut s)]
  control s hshort hcontrol := by rw [bindText, cut_of_short hshort, if_pos hcontrol]
  formula s hshort hcontrol hformula := by
    rw [bindText, cut_of_short hshort, if_neg (by simp [hcontrol]), if_pos hformula]
  error s hs := by
    have hcodes : ∀ s ∈ errorCodes, s.length ≤ cellLimit ∧ s.toList.all (!isControl ·) ∧
        formulaLike s = false := by decide
    obtain ⟨hshort, hcontrol, hformula⟩ := hcodes s hs
    rw [bindText, cut_of_short hshort, if_neg (by simp [hcontrol]), if_neg (by simp [hformula]),
      if_pos hs]
  text s hs := by
    rw [bindText, cut_of_short hs.short, if_neg (by simp [hs.no_control]),
      if_neg (by simp [hs.not_formula]), if_neg hs.not_error]

end Spreadsheet
