import StockQuant.Accounts
import StockQuant.RecordRuns
import StockQuant.Workbooks

/-! The workbook of a user's records: which texts it gives back as they were stored. -/

namespace StockQuant

open KeyedTable LastWrite Spreadsheet

def recordHeaders : List String :=
  ["代號", "名稱", "市場", "市場代碼", "目標價", "成本價", "最新收盤", "更新時間"]

def recordWidths : List Nat := [8, 14, 8, 10, 10, 10, 10, 22]

def minutes : String := "%Y-%m-%d %H:%M"

section Builder

-- `bind` is what the spreadsheet library makes of a text, and `strftime` formats a time.
variable (bind : String → Option CellValue) (strftime : String → ℚ → String)

/-- The time of the update is never missing. -/
def recordRow (r : Record) : List Value :=
  [.str r.symbol,
    .str r.name,
    .str r.market,
    .str r.marketCode,
    num r.targetPrice,
    num r.costPrice,
    num r.lastClose,
    .str (strftime minutes r.updatedAt)]

def recordsTitle (ownerLabel : String) (stocks : Nat) (now : ℚ) : String :=
  "我的個股紀錄" ++ (if ownerLabel ≠ "" then "（" ++ ownerLabel ++ "）" else "") ++
    ("　共 " ++ toString stocks ++ " 檔　匯出 " ++ strftime minutes now)

def recordsToXlsx (records : List Record) (ownerLabel : String) (now : ℚ) : Option Worksheet :=
  tableSheet bind "我的紀錄" (recordsTitle strftime ownerLabel records.length now) recordHeaders
    recordWidths (records.map (recordRow strftime)) records.length (formatted [4, 5, 6] [])

end Builder

def ownerLabel (user : User) : String :=
  match user.displayName with
  | none => user.email
  | some name => if name ≠ "" then name else user.email

def downloadRecords {L : Type} [LinearOrder L] (collation : String ↪ L)
    (bind : String → Option CellValue) (strftime : String → ℚ → String) (records : RecordTable)
    (user : User) (now : ℚ) : XlsxReply :=
  xlsxResponse
    (recordsToXlsx bind strftime (listRecords collation records user.id) (ownerLabel user) now)
    "my_records.xlsx"

def price : Option ℚ → CellValue
  | none => .blank
  | some x => .number x

def recordCells (r : Record) : List CellValue :=
  [.text r.symbol, .text r.name, .text r.market, .text r.marketCode, price r.targetPrice,
    price r.costPrice, price r.lastClose]

/-- The file can be read and has a row for each record, with its texts and prices. -/
def GivesBack (reply : XlsxReply) (records : List Record) : Prop :=
  ∃ ws name read, reply = .file ws name ∧ ws.reread = some read ∧
    (dataRows read).map (fun row => (row.take 7).map (·.value)) = records.map recordCells

structure Record.Plain (r : Record) : Prop where
  symbol : Spreadsheet.Plain r.symbol
  name : Spreadsheet.Plain r.name
  market : Spreadsheet.Plain r.market
  marketCode : Spreadsheet.Plain r.marketCode

/-- What the title shows of the owner can be written and read. -/
def OwnerPlain (ownerLabel : String) : Prop :=
  (ownerLabel.toList.take (cellLimit - 7)).all isClean

instance (ownerLabel : String) : Decidable (OwnerPlain ownerLabel) :=
  inferInstanceAs (Decidable (_ = true))

section Title

variable {bind : String → Option CellValue} (hbind : BindsTexts bind)
  {strftime : String → ℚ → String}
  (hstamp : ∀ t, (strftime minutes t).toList.all isClean)
include hbind hstamp

theorem clean_recordsTitle_iff (ownerLabel : String) (stocks : Nat) (now : ℚ) :
    writable bind (.str (recordsTitle strftime ownerLabel stocks now)) ∧
        (cellOf bind (.str (recordsTitle strftime ownerLabel stocks now))).legible ↔
      OwnerPlain ownerLabel := by
  have htake (n : Nat) (l : List Char) (h : l.all isClean) :
      (l.take n).all isClean := by
    rw [List.all_eq_true] at h ⊢
    exact fun c hc => h c (List.mem_of_mem_take hc)
  have htail : ("　共 " ++ toString stocks ++ " 檔　匯出 " ++ strftime minutes now).toList.all
      isClean := by
    simp only [String.toList_append, List.all_append, clean_toString, hstamp, Bool.and_true]
    decide
  refine (clean_cell_iff hbind _).trans ?_
  unfold recordsTitle OwnerPlain
  generalize "　共 " ++ toString stocks ++ " 檔　匯出 " ++ strftime minutes now = tail at htail ⊢
  split_ifs with hempty
  · have hhead : ("我的個股紀錄" ++ ("（" ++ ownerLabel ++ "）") ++ tail).toList =
        "我的個股紀錄（".toList ++ (ownerLabel.toList ++ ('）' :: tail.toList)) := by
      simp
    rw [hhead, List.take_append, List.take_append, List.all_append, List.all_append,
      htake _ "我的個股紀錄（".toList (by decide),
      htake _ ('）' :: tail.toList) (by rw [List.all_cons, htail]; decide), Bool.true_and,
      Bool.and_true]
    rfl
  · obtain rfl := not_not.mp hempty
    have hall : ("我的個股紀錄" ++ "" ++ tail).toList.all isClean := by
      rw [String.toList_append, List.all_append, htail]
      decide
    exact iff_of_true (htake _ _ hall) (by decide)

omit hbind hstamp in
theorem formatted_values (numbers centred : List Nat) (row : List Cell) :
    (formatted numbers centred row).map (·.value) = row.map (·.value) := by
  unfold formatted
  refine List.ext_getElem (by simp) fun i _ _ => ?_
  simp only [List.getElem_map, List.getElem_mapIdx]
  split_ifs <;> rfl

omit hbind hstamp in
theorem value_num (x : Option ℚ) : (cellOf bind (num x)).value.reread = price x := by
  cases x <;> rfl

omit hbind hstamp in
theorem legible_num (x : Option ℚ) : (cellOf bind (num x)).legible := by
  cases x <;> rfl

omit hbind hstamp in
/-- The columns of a record in the file, besides the time of its update. -/
theorem recordRow_reread (r : Record) :
    (((formatted [4, 5, 6] [] ((recordRow strftime r).map (cellOf bind))).map
        Cell.reread).take 7).map (·.value) =
      [r.symbol, r.name, r.market, r.marketCode].map
          (fun s => (cellOf bind (.str s)).value.reread) ++
        [price r.targetPrice, price r.costPrice, price r.lastClose] := by
  rw [List.map_take, List.map_map]
  change ((formatted [4, 5, 6] [] ((recordRow strftime r).map (cellOf bind))).map
    (CellValue.reread ∘ Cell.value)).take 7 = _
  rw [← List.map_map, formatted_values]
  simp [recordRow, value_num]

omit hstamp in
/-- The row of a record gives it back if all its texts are plain, and only if none of them is
changed. -/
theorem recordRow_givesBack_iff (r : Record) :
    (((formatted [4, 5, 6] [] ((recordRow strftime r).map (cellOf bind))).map
        Cell.reread).take 7).map (·.value) =
      recordCells r ↔
      ∀ s ∈ [r.symbol, r.name, r.market, r.marketCode], Kept s ∧ '\r' ∉ s.toList ∧ s ≠ "" := by
  rw [recordRow_reread]
  simp only [recordCells, List.map_cons, List.map_nil, List.cons_append, List.nil_append,
    List.cons.injEq, reread_cellOf_iff hbind, and_true, List.forall_mem_cons, List.not_mem_nil,
    false_implies, implies_true]

omit hbind hstamp in
theorem all_legible_formatted (numbers centred : List Nat) (row : List Cell) :
    (formatted numbers centred row).all Cell.legible = row.all Cell.legible := by
  have hvalues := congrArg (·.all CellValue.legible) (formatted_values numbers centred row)
  rwa [List.all_map, List.all_map] at hvalues

theorem legible_recordRow_iff {r : Record}
    (h : ∀ s ∈ [r.symbol, r.name, r.market, r.marketCode], Kept s) :
    (formatted [4, 5, 6] [] ((recordRow strftime r).map (cellOf bind))).all Cell.legible ↔
      ∀ s ∈ [r.symbol, r.name, r.market, r.marketCode], s.toList.all (!isNoncharacter ·) := by
  have htext {s : String} (hs : Kept s) :
      (cellOf bind (.str s)).legible ↔ s.toList.all (!isNoncharacter ·) := by
    rw [legible_cellOf_iff hbind (writable_of_no_control hbind hs.no_control),
      List.take_of_length_le (by rw [String.length_toList]; exact hs.short)]
  simp only [List.forall_mem_cons, List.not_mem_nil, false_implies, implies_true, and_true] at h
  obtain ⟨hsymbol, hname, hmarket, hcode⟩ := h
  rw [all_legible_formatted]
  simp only [recordRow, List.map_cons, List.map_nil, List.all_cons, List.all_nil, legible_num,
    (clean_cell hbind (hstamp r.updatedAt)).2, Bool.and_eq_true, Bool.and_true,
    htext hsymbol, htext hname, htext hmarket, htext hcode, List.forall_mem_cons,
    List.not_mem_nil, false_implies, implies_true, and_true]

theorem writable_recordRow {r : Record}
    (h : ∀ s ∈ [r.symbol, r.name, r.market, r.marketCode], Kept s) :
    (recordRow strftime r).all (writable bind) := by
  have htext {s : String} (hs : Kept s) : writable bind (.str s) :=
    writable_of_no_control hbind hs.no_control
  have hnum (x : Option ℚ) : writable bind (num x) := by cases x <;> rfl
  have hminutes := (clean_cell hbind (hstamp r.updatedAt)).1
  simp only [List.forall_mem_cons, List.not_mem_nil, false_implies, implies_true, and_true] at h
  obtain ⟨hsymbol, hname, hmarket, hcode⟩ := h
  simp [recordRow, htext hsymbol, htext hname, htext hmarket, htext hcode, hnum, hminutes]

omit hbind hstamp in
theorem Record.plain_iff {r : Record} :
    r.Plain ↔ ∀ s ∈ [r.symbol, r.name, r.market, r.marketCode], Spreadsheet.Plain s := by
  simp only [List.forall_mem_cons, List.not_mem_nil, false_implies, implies_true, and_true]
  exact ⟨fun h => ⟨h.symbol, h.name, h.market, h.marketCode⟩,
    fun h => ⟨h.1, h.2.1, h.2.2.1, h.2.2.2⟩⟩

omit hbind hstamp in
theorem legible_titleRow_iff (bind : String → Option CellValue) (title : String) :
    (titleRow bind title).all Cell.legible ↔ (cellOf bind (.str title)).legible := by
  simp [titleRow, titleStyle, Cell.legible]

omit hstamp in
theorem legible_styled (style : Cell → Cell) (hstyle : ∀ cell, (style cell).value = cell.value)
    {headers : List String} (hheaders : headers.all fun header => header.toList.all isClean) :
    (headers.map fun header => style (cellOf bind (.str header))).all Cell.legible := by
  rw [List.all_map, List.all_eq_true]
  intro header hheader
  have hlegible := (clean_cell hbind (List.all_eq_true.mp hheaders header hheader)).2
  show CellValue.legible (style _).value
  rwa [hstyle]

/-- The file gives the records back if all their texts are plain and so is the owner's name,
and only then. -/
theorem recordsToXlsx_givesBack_iff (records : List Record) (ownerLabel : String) (now : ℚ)
    (filename : String) :
    GivesBack (xlsxResponse (recordsToXlsx bind strftime records ownerLabel now) filename)
      records ↔ OwnerPlain ownerLabel ∧ ∀ r ∈ records, r.Plain := by
  have hheader : (headerRow bind recordHeaders).all Cell.legible :=
    legible_styled hbind headerStyle (fun _ => rfl) (by decide)
  have hrows : (((records.map fun r =>
      formatted [4, 5, 6] [] ((recordRow strftime r).map (cellOf bind))).map
        (·.map Cell.reread)).map fun row => (row.take 7).map (·.value)) = records.map recordCells ↔
      ∀ r ∈ records, ∀ s ∈ [r.symbol, r.name, r.market, r.marketCode],
        Kept s ∧ '\r' ∉ s.toList ∧ s ≠ "" := by
    rw [List.map_map, List.map_map, List.map_inj_left]
    exact forall₂_congr fun r _ => recordRow_givesBack_iff hbind r
  unfold recordsToXlsx GivesBack
  rw [tableSheet_eq _ _ _ (by simp), writable_headers hbind (by decide), Bool.and_true,
    List.all_map, List.map_map, ← clean_recordsTitle_iff hbind hstamp ownerLabel records.length now]
  simp only [xlsxResponse_eq_file_iff, Option.ite_none_right_eq_some, Option.some.injEq,
    Bool.and_eq_true]
  constructor
  · rintro ⟨ws, name, read, ⟨⟨⟨hwritable, -⟩, rfl⟩, -⟩, hread, hback⟩
    obtain ⟨hsheet, rfl⟩ := reread_eq_some_iff.mp hread
    obtain ⟨hlegible, -, hlegibles⟩ := (legible_rows_iff rfl).mp hsheet
    have hkept := hrows.mp hback
    refine ⟨⟨hwritable, (legible_titleRow_iff _ _).mp hlegible⟩, fun r hr =>
      Record.plain_iff.mpr fun s hs => ?_⟩
    obtain ⟨hs', hreturn, hne⟩ := hkept r hr s hs
    have hnone := (legible_recordRow_iff hbind hstamp fun s hs => (hkept r hr s hs).1).mp
      (hlegibles _ (List.mem_map_of_mem hr))
    exact ⟨hs', hnone s hs, hreturn, hne⟩
  · rintro ⟨⟨hwritable, hlegible⟩, hplain⟩
    have hplain (r : Record) (hr : r ∈ records) := Record.plain_iff.mp (hplain r hr)
    refine ⟨_, _, _, ⟨⟨⟨hwritable, List.all_eq_true.mpr fun r hr => ?_⟩, rfl⟩, rfl⟩,
      reread_eq_some_iff.mpr
        ⟨(legible_rows_iff rfl).mpr
          ⟨(legible_titleRow_iff _ _).mpr hlegible, hheader, fun row hrow => ?_⟩, rfl⟩,
      hrows.mpr fun r hr s hs => ?_⟩
    · exact writable_recordRow hbind hstamp fun s hs => (hplain r hr s hs).kept
    · obtain ⟨r, hr, rfl⟩ := List.mem_map.mp hrow
      exact (legible_recordRow_iff hbind hstamp fun s hs => (hplain r hr s hs).kept).mpr
        fun s hs => (hplain r hr s hs).legible
    · exact ⟨(hplain r hr s hs).kept, (hplain r hr s hs).no_return, (hplain r hr s hs).nonempty⟩

end Title

/-- The texts of a put, as a record keeps them. -/
structure PlainPut (marketCode symbol : String) (body : UpsertBody) : Prop where
  symbol : Spreadsheet.Plain symbol
  name : Spreadsheet.Plain body.name
  market : Spreadsheet.Plain body.market
  marketCode : Spreadsheet.Plain marketCode

/-- Every put of the user that the database takes has plain texts only. -/
def PlainPuts (userId : Uuid) (requests : List RecordRequest) : Prop :=
  ∀ r ∈ requests, r.userId = userId → ∀ marketCode symbol body,
    r.call = .put marketCode symbol body → (r.stored marketCode symbol body).isSome →
    PlainPut marketCode symbol body

theorem plain_stored_iff {r : RecordRequest} {marketCode symbol : String} {body : UpsertBody}
    {record : Record} (h : r.stored marketCode symbol body = some record) :
    record.Plain ↔ PlainPut marketCode symbol body := by
  have hcolumns := Record.flush_eq_some_iff.mp h
  have hcode : marketCode = record.marketCode := text_eq_some hcolumns.marketCode
  have hsymbol : symbol = record.symbol := text_eq_some hcolumns.symbol
  have hname : body.name = record.name := text_eq_some hcolumns.name
  have hmarket : body.market = record.market := text_eq_some hcolumns.market
  exact ⟨fun h => ⟨hsymbol ▸ h.symbol, hname ▸ h.name, hmarket ▸ h.market, hcode ▸ h.marketCode⟩,
    fun h => ⟨hsymbol ▸ h.symbol, hname ▸ h.name, hmarket ▸ h.market, hcode ▸ h.marketCode⟩⟩

section Runs

variable {L : Type} [LinearOrder L] {collation : String ↪ L} {requests : List RecordRequest}
  {u : Uuid}

theorem ownRecords_empty : ownRecords ∅ u = fun _ => none := rfl

theorem put_of_listed {record : Record}
    (h : record ∈ listRecords collation (runRecords collation ∅ requests).1 u) :
    ∃ r ∈ requests, r.userId = u ∧ ∃ marketCode symbol body,
      r.call = .put marketCode symbol body ∧ r.stored marketCode symbol body = some record := by
  rw [mem_listRecords, ownRecords_runRecords, ownRecords_empty] at h
  obtain ⟨r, hr, hwrite⟩ := List.mem_filterMap.mp (mem_of_written h)
  obtain ⟨hr, huser⟩ := List.mem_filter.mp hr
  refine ⟨r, hr, of_decide_eq_true huser, ?_⟩
  unfold RecordRequest.write at hwrite
  cases hcall : r.call with
  | list => simp [hcall] at hwrite
  | download => simp [hcall] at hwrite
  | delete marketCode symbol => simp [hcall, Option.bind_eq_some_iff] at hwrite
  | put marketCode symbol body =>
    rw [hcall] at hwrite
    obtain ⟨stored, hstored, heq⟩ := Option.map_eq_some_iff.mp hwrite
    obtain rfl : stored = record := by simpa using (Prod.mk.inj heq).2
    exact ⟨marketCode, symbol, body, rfl, hstored⟩

theorem listed_of_put {r : RecordRequest} {marketCode symbol : String} {body : UpsertBody}
    {record : Record} (hcall : r.call = .put marketCode symbol body)
    (h : r.stored marketCode symbol body = some record) :
    record ∈ listRecords collation (runRecords collation ∅ (requests ++ [r])).1 r.userId := by
  have hkey : record.key = (r.userId, marketCode, symbol) := (text_of_flush h).2.2
  have hplace : (record.marketCode, record.symbol) = (marketCode, symbol) :=
    congrArg Prod.snd hkey
  rw [mem_listRecords, ownRecords, runRecords_snoc, get?_answerRecord]
  simp [RecordRequest.write, hcall, h, hplace]

end Runs

/-- At the end of a run the export gives back all that is stored if the stored texts are plain
and so is the name of the owner, and only then; it does so all along the run if every text put
is plain, and only then. -/
theorem downloadRecords_givesBack_iff {L : Type} [LinearOrder L] (collation : String ↪ L)
    {bind : String → Option CellValue} (hbind : BindsTexts bind) {strftime : String → ℚ → String}
    (hstamp : ∀ t, (strftime minutes t).toList.all isClean) (requests : List RecordRequest)
    (user : User) (now : ℚ) :
    let records (reached : List RecordRequest) := (runRecords collation ∅ reached).1
    let givesBack (reached : List RecordRequest) : Prop :=
      GivesBack (downloadRecords collation bind strftime (records reached) user now)
        (listRecords collation (records reached) user.id)
    (givesBack requests ↔ OwnerPlain (ownerLabel user) ∧
      ∀ r ∈ listRecords collation (records requests) user.id, r.Plain) ∧
    ((∀ reached, reached <+: requests → givesBack reached) ↔
      OwnerPlain (ownerLabel user) ∧ PlainPuts user.id requests) := by
  intro records givesBack
  have hstate (reached : List RecordRequest) : givesBack reached ↔ OwnerPlain (ownerLabel user) ∧
      ∀ r ∈ listRecords collation (records reached) user.id, r.Plain :=
    recordsToXlsx_givesBack_iff hbind hstamp _ _ _ _
  refine ⟨hstate requests, fun hall => ?_, ?_⟩
  · refine ⟨((hstate requests).mp (hall requests (List.prefix_refl _))).1, ?_⟩
    intro r hr huser marketCode symbol body hcall hstored
    obtain ⟨before, after, rfl⟩ := List.append_of_mem hr
    obtain ⟨record, hstored⟩ := Option.isSome_iff_exists.mp hstored
    have hreached : before ++ [r] <+: before ++ r :: after := ⟨after, by simp⟩
    have hplain := ((hstate _).mp (hall _ hreached)).2
    exact (plain_stored_iff hstored).mp (hplain record (huser ▸ listed_of_put hcall hstored))
  · rintro ⟨howner, hputs⟩ reached ⟨after, rfl⟩
    refine (hstate reached).mpr ⟨howner, fun record hrecord => ?_⟩
    obtain ⟨r, hr, huser, marketCode, symbol, body, hcall, hstored⟩ := put_of_listed hrecord
    refine (plain_stored_iff hstored).mpr (hputs r (List.mem_append_left _ hr) huser _ _ _ hcall ?_)
    rw [hstored, Option.isSome_some]

def recordNamed (userId : Uuid) (symbol name : String) (targetPrice : Option ℚ) : RecordRequest :=
  { userId, now := 0, call := .put "TWSE" symbol { name, market := "上市", targetPrice } }

def recordOwner : User :=
  { id := 1, email := "a@example.com", passwordHash := "", displayName := some "A"
    passwordChangedAt := 0 }

/-- The second put of a stock gives it another name; what another user puts is not exported. -/
def namedRecords : List RecordRequest :=
  [recordNamed 1 "2330" "台積" (some 1000), recordNamed 2 "2330" "=1+1" none,
    recordNamed 1 "2317" "鴻海 (Hon Hai)" none, recordNamed 1 "2330" "台積電" (some (2001 / 2))]

theorem downloadRecords_givesBack_iff_plain :
    let strftime (_ : String) (_ : ℚ) := "2024-01-02 03:04"
    let collation := Function.Embedding.refl String
    let records (reached : List RecordRequest) := (runRecords collation ∅ reached).1
    let givesBack (reached : List RecordRequest) : Prop :=
      GivesBack (downloadRecords collation bindText strftime (records reached) recordOwner 0)
        (listRecords collation (records reached) recordOwner.id)
    (listRecords collation (records namedRecords) recordOwner.id).map (fun r => (r.symbol, r.name)) =
        [("2317", "鴻海 (Hon Hai)"), ("2330", "台積電")] ∧
      givesBack namedRecords ∧ ∀ reached, reached <+: namedRecords → givesBack reached := by
  intro strftime collation records givesBack
  have hall := (@downloadRecords_givesBack_iff _ _ collation _ bindText_bindsTexts strftime
    (fun _ => by decide) namedRecords recordOwner 0).2.mpr
      ⟨by decide, fun r hr huser marketCode symbol body hcall _ => ?_⟩
  · exact ⟨by decide +kernel, hall namedRecords (List.prefix_refl _), hall⟩
  · have hnamed : ∃ symbol name targetPrice, r = recordNamed 1 symbol name targetPrice ∧
        Spreadsheet.Plain symbol ∧ Spreadsheet.Plain name := by
      simp only [namedRecords, List.mem_cons, List.not_mem_nil, or_false] at hr
      rcases hr with rfl | rfl | rfl | rfl
      · exact ⟨_, _, _, rfl, by decide, by decide⟩
      · exact absurd huser (by decide)
      · exact ⟨_, _, _, rfl, by decide, by decide⟩
      · exact ⟨_, _, _, rfl, by decide, by decide⟩
    obtain ⟨symbol', name, targetPrice, rfl, hsymbol, hname⟩ := hnamed
    obtain ⟨rfl, rfl, rfl⟩ := RecordCall.put.inj hcall
    exact ⟨hsymbol, hname, (by decide : Spreadsheet.Plain "上市"), by decide⟩

theorem downloadRecords_not_givesBack :
    let strftime (_ : String) (_ : ℚ) := "2024-01-02 03:04"
    let collation := Function.Embedding.refl String
    let run (name : String) := runRecords collation ∅ [recordNamed 1 "2330" name none]
    let reply (name : String) := downloadRecords collation bindText strftime (run name).1 recordOwner 0
    let record (name : String) : RecordOut :=
      { symbol := "2330", name, market := "上市", marketCode := "TWSE", updatedAt := 0 }
    ((run "=1+1").2.map (·.2) = [.record (record "=1+1")] ∧
      ¬ GivesBack (reply "=1+1") (listRecords collation (run "=1+1").1 1)) ∧
    ((run "\x01").2.map (·.2) = [.record (record "\x01")] ∧ reply "\x01" = .crash) := by
  intro strftime collation run reply record
  refine ⟨⟨by decide +kernel, fun h => ?_⟩, by decide +kernel, by decide +kernel⟩
  have hplain := ((recordsToXlsx_givesBack_iff bindText_bindsTexts (fun _ => by decide) _ _ _ _).mp
    h).2
  let stored : Record :=
    { userId := 1, marketCode := "TWSE", symbol := "2330", name := "=1+1", market := "上市"
      updatedAt := 0 }
  have hformula := (hplain stored (by decide +kernel)).name.kept.not_formula
  exact absurd hformula (by decide)

end StockQuant
