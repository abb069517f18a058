import StockQuant.KeyedTable
import StockQuant.Statistics

/-! Rows of the market tables and the conversions their columns make. Dates are
proleptic ordinals and floats are exact rationals. -/

namespace StockQuant

open KeyedTable Statistics

abbrev Uuid := Nat

abbrev Date := Nat

def sessionIntraday1300 : String := "intraday_1300"

def sessionEod : String := "eod"

def sessions : List String := [sessionIntraday1300, sessionEod]

/-- A `NUMERIC(precision, scale)` column rounds to its scale and refuses a value
with too many digits before the point. -/
def numeric (precision scale : Nat) (x : ℚ) : Option ℚ :=
  let units := halfAway (x * 10 ^ scale)
  if units.natAbs < 10 ^ precision then some (units / 10 ^ scale) else none

def integer (bits : Nat) (n : Int) : Option Int :=
  if -2 ^ (bits - 1) ≤ n ∧ n < 2 ^ (bits - 1) then some n else none

def text (s : String) : Option String :=
  if '\x00' ∈ s.toList then none else some s

def varchar (length : Nat) (s : String) : Option String :=
  if s.length ≤ length then text s else none

structure ScreenSnapshot where
  id : Uuid
  tradeDate : Date
  session : String
  generatedAt : ℚ
  source : String := ""
  «universe» : Int := 0
  quotable : Int := 0
  poolSize : Int := 0
  itemCount : Int := 0
  warning : Option String := none
  deriving DecidableEq

structure ScreenSnapshotItem where
  id : Uuid
  snapshotId : Uuid
  rank : Int := 0
  symbol : String
  name : String := ""
  market : String := ""
  marketCode : String := ""
  close : Option ℚ := none
  prevClose : Option ℚ := none
  change : Option ℚ := none
  changePct : Option ℚ := none
  volume : Option Int := none
  lots : Option ℚ := none
  «open» : Option ℚ := none
  high : Option ℚ := none
  low : Option ℚ := none
  prevHigh : Option ℚ := none
  volRatio : Option ℚ := none
  ma5 : Option ℚ := none
  ma20 : Option ℚ := none
  ma20Up : Bool := false
  deriving DecidableEq

structure DailyPrice where
  tradeDate : Date
  symbol : String
  name : String := ""
  marketCode : String := ""
  «open» : Option ℚ := none
  high : Option ℚ := none
  low : Option ℚ := none
  close : ℚ
  volume : Option Int := none
  deriving DecidableEq

def DailyPrice.key (row : DailyPrice) : Date × String := (row.tradeDate, row.symbol)

abbrev PriceTable := Table DailyPrice.key

def ScreenSnapshot.key (s : ScreenSnapshot) : Date × String := (s.tradeDate, s.session)

/-- The snapshot header table and its item table, under the primary keys, the
unique constraint on the date and session, and the foreign key. -/
structure SnapshotStore where
  snapshots : List ScreenSnapshot
  items : List ScreenSnapshotItem
  ids_nodup : (snapshots.map (·.id)).Nodup
  itemIds_nodup : (items.map (·.id)).Nodup
  keys_nodup : (snapshots.map ScreenSnapshot.key).Nodup
  items_owned : ∀ item ∈ items, ∃ s ∈ snapshots, s.id = item.snapshotId

end StockQuant
