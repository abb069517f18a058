import Mathlib.Data.List.Sort
import Mathlib.Data.Prod.Lex
import Mathlib.Logic.Embedding.Basic
import StockQuant.Models

/-! The records that users keep of single stocks. All of them are in one table, and the
queries are always scoped by the user. -/

namespace StockQuant

open KeyedTable

structure Record where
  userId : Uuid
  marketCode : String
  symbol : String
  name : String := ""
  market : String := ""
  targetPrice : Option ℚ := none
  costPrice : Option ℚ := none
  lastClose : Option ℚ := none
  updatedAt : ℚ
  deriving DecidableEq

def Record.key (record : Record) : Uuid × String × String :=
  (record.userId, record.marketCode, record.symbol)

abbrev RecordTable := Table Record.key

structure UpsertBody where
  name : String := ""
  market : String := ""
  targetPrice : Option ℚ := none
  costPrice : Option ℚ := none
  lastClose : Option ℚ := none
  deriving DecidableEq

structure RecordOut where
  symbol : String
  name : String
  market : String
  marketCode : String
  targetPrice : Option ℚ := none
  costPrice : Option ℚ := none
  lastClose : Option ℚ := none
  updatedAt : ℚ
  deriving DecidableEq

def recordOut (record : Record) : RecordOut where
  symbol := record.symbol
  name := record.name
  market := record.market
  marketCode := record.marketCode
  targetPrice := record.targetPrice
  costPrice := record.costPrice
  lastClose := record.lastClose
  updatedAt := record.updatedAt

def Record.flush (record : Record) : Option Record := do
  let marketCode ← text record.marketCode
  let symbol ← text record.symbol
  let name ← text record.name
  let market ← text record.market
  let targetPrice ← record.targetPrice.mapM (numeric 12 4)
  let costPrice ← record.costPrice.mapM (numeric 12 4)
  let lastClose ← record.lastClose.mapM (numeric 12 4)
  some { record with marketCode, symbol, name, market, targetPrice, costPrice, lastClose }

section Crud

variable {L : Type} [LinearOrder L] (collation : String ↪ L) (records : RecordTable)
  (userId : Uuid) (marketCode symbol : String)

/-- `collation` is the order in which the database puts texts. -/
def Record.place (record : Record) : L ×ₗ L :=
  toLex (collation record.marketCode, collation record.symbol)

def listRecords : List Record :=
  (records.rows.filter (·.userId = userId)).insertionSort
    fun a b => a.place collation ≤ b.place collation

/-- `none` is a database error, which leaves the table as it was. -/
def getRecord : Option (Option Record) := do
  let marketCode ← text marketCode
  let symbol ← text symbol
  some (records.rows.find? fun record =>
    record.userId = userId ∧ record.marketCode = marketCode ∧ record.symbol = symbol)

def UpsertBody.assign (body : UpsertBody) (now : ℚ) (record : Record) : Record :=
  { record with
    name := body.name
    market := body.market
    targetPrice := body.targetPrice
    costPrice := body.costPrice
    lastClose := body.lastClose
    updatedAt := now }

def upsertRecord (body : UpsertBody) (now : ℚ) : Option (RecordTable × Record) := do
  match ← getRecord records userId marketCode symbol with
  | none =>
    let record ← (body.assign now { userId, marketCode, symbol, updatedAt := now }).flush
    let records : RecordTable ← Table.ofRows? (records.rows ++ [record])
    some (records, record)
  | some old =>
    let record ← (body.assign now old).flush
    let records : RecordTable ← Table.ofRows? <|
      records.rows.map fun row => if row.key = old.key then record else row
    some (records, record)

def deleteRecord : Option (RecordTable × Bool) := do
  match ← getRecord records userId marketCode symbol with
  | none => some (records, false)
  | some old =>
    some
      ({ rows := records.rows.filter (·.key ≠ old.key)
         nodup := records.nodup.sublist (List.filter_sublist.map Record.key) }, true)

end Crud

inductive RecordCall where
  | list
  | download
  | put (marketCode symbol : String) (body : UpsertBody)
  | delete (marketCode symbol : String)
  deriving DecidableEq

structure RecordRequest where
  userId : Uuid
  now : ℚ
  call : RecordCall
  deriving DecidableEq

inductive RecordReply where
  | records (records : List RecordOut)
  /-- The rows that `records.xlsx` is made of. -/
  | sheet (records : List Record)
  | record (record : RecordOut)
  | noContent
  | crash
  deriving DecidableEq

section Endpoints

variable {L : Type} [LinearOrder L] (collation : String ↪ L)

def answerRecord (records : RecordTable) (r : RecordRequest) : RecordTable × RecordReply :=
  match r.call with
  | .list => (records, .records ((listRecords collation records r.userId).map recordOut))
  | .download => (records, .sheet (listRecords collation records r.userId))
  | .put marketCode symbol body =>
    match upsertRecord records r.userId marketCode symbol body r.now with
    | none => (records, .crash)
    | some (records, record) => (records, .record (recordOut record))
  | .delete marketCode symbol =>
    match deleteRecord records r.userId marketCode symbol with
    | none => (records, .crash)
    | some (records, _) => (records, .noContent)

def runRecords (records : RecordTable) (requests : List RecordRequest) :
    RecordTable × List (RecordRequest × RecordReply) :=
  requests.foldl
    (fun acc r =>
      ((answerRecord collation acc.1 r).1, acc.2 ++ [(r, (answerRecord collation acc.1 r).2)]))
    (records, [])

end Endpoints

end StockQuant
