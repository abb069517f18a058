import StockQuant.Columns
import StockQuant.ReadCommitted

/-! `upsert_snapshot`, statement by statement: the select of the header, the delete of
its items, and the writes that go to the database at the commit. -/

namespace StockQuant

open ReadCommitted

structure SnapshotItemIn where
  rank : Int := 0
  symbol : String
  name : String := ""
  market : String := ""
  marketCode : String := ""
  close : Option ℚ := none
  prevClose : Option ℚ := none
  change : Option ℚ := none
  changePct : Option ℚ := none
  volume : Option Int := none
  lots : Option ℚ := none
  «open» : Option ℚ := none
  high : Option ℚ := none
  low : Option ℚ := none
  prevHigh : Option ℚ := none
  volRatio : Option ℚ := none
  ma5 : Option ℚ := none
  ma20 : Option ℚ := none
  ma20Up : Bool := false
  deriving DecidableEq

structure SnapshotIngestBody where
  tradeDate : Date
  session : String
  generatedAt : ℚ
  source : String := ""
  «universe» : Int := 0
  quotable : Int := 0
  poolSize : Int := 0
  warning : Option String := none
  items : List SnapshotItemIn := []
  deriving DecidableEq

namespace SnapshotIngestBody

def key (body : SnapshotIngestBody) : Date × String := (body.tradeDate, body.session)

def itemCount (body : SnapshotIngestBody) : Int := body.items.length

end SnapshotIngestBody

structure SnapshotIds where
  snapshotId : Uuid
  itemId : ℕ → Uuid

def SnapshotItemIn.row (id snapshotId : Uuid) (item : SnapshotItemIn) :
    Option ScreenSnapshotItem := do
  let rank ← integer 32 item.rank
  let symbol ← text item.symbol
  let name ← text item.name
  let market ← text item.market
  let marketCode ← text item.marketCode
  let close ← item.close.mapM (numeric 12 4)
  let prevClose ← item.prevClose.mapM (numeric 12 4)
  let change ← item.change.mapM (numeric 12 4)
  let changePct ← item.changePct.mapM (numeric 12 4)
  let volume ← item.volume.mapM (integer 64)
  let lots ← item.lots.mapM (numeric 16 2)
  let «open» ← item.open.mapM (numeric 12 4)
  let high ← item.high.mapM (numeric 12 4)
  let low ← item.low.mapM (numeric 12 4)
  let prevHigh ← item.prevHigh.mapM (numeric 12 4)
  let volRatio ← item.volRatio.mapM (numeric 12 4)
  let ma5 ← item.ma5.mapM (numeric 12 4)
  let ma20 ← item.ma20.mapM (numeric 12 4)
  some
    { id, snapshotId, rank, symbol, name, market, marketCode, close, prevClose, change, changePct,
      volume, lots, «open», high, low, prevHigh, volRatio, ma5, ma20, ma20Up := item.ma20Up }

namespace SnapshotIngestBody

def rows (body : SnapshotIngestBody) (ids : SnapshotIds) (snapshotId : Uuid) :
    Option (List ScreenSnapshotItem) :=
  body.items.zipIdx.mapM fun item => item.1.row (ids.itemId item.2) snapshotId

def headerStored (body : SnapshotIngestBody) : Bool :=
  (text body.source).isSome && (integer 32 body.universe).isSome &&
    (integer 32 body.quotable).isSome && (integer 32 body.poolSize).isSome &&
    (body.warning.mapM text).isSome && (integer 32 body.itemCount).isSome

def header (body : SnapshotIngestBody) (id : Uuid) : ScreenSnapshot where
  id
  tradeDate := body.tradeDate
  session := body.session
  generatedAt := body.generatedAt
  source := body.source
  «universe» := body.universe
  quotable := body.quotable
  poolSize := body.poolSize
  itemCount := body.itemCount
  warning := body.warning

end SnapshotIngestBody

def SnapshotIngestBody.update (body : SnapshotIngestBody) (loaded stored : ScreenSnapshot) :
    ScreenSnapshot :=
  { stored with
    generatedAt := sent loaded.generatedAt stored.generatedAt body.generatedAt
    source := sent loaded.source stored.source body.source
    «universe» := sent loaded.universe stored.universe body.universe
    quotable := sent loaded.quotable stored.quotable body.quotable
    poolSize := sent loaded.poolSize stored.poolSize body.poolSize
    itemCount := sent loaded.itemCount stored.itemCount body.itemCount
    warning := sent loaded.warning stored.warning body.warning }

def SnapshotStore.ofRows? (snapshots : List ScreenSnapshot) (items : List ScreenSnapshotItem) :
    Option SnapshotStore :=
  if h : (snapshots.map (·.id)).Nodup ∧ (items.map (·.id)).Nodup ∧
      (snapshots.map ScreenSnapshot.key).Nodup ∧
      ∀ item ∈ items, ∃ s ∈ snapshots, s.id = item.snapshotId then
    some ⟨snapshots, items, h.1, h.2.1, h.2.2.1, h.2.2.2⟩
  else none

namespace SnapshotIngestBody

/-- The commit over a header that was loaded, whose items at the delete were `deleted`. -/
def replace (body : SnapshotIngestBody) (ids : SnapshotIds) (loaded : ScreenSnapshot)
    (deleted : List Uuid) (store : SnapshotStore) : Option SnapshotStore :=
  match body.headerStored, body.rows ids loaded.id with
  | true, some rows =>
    SnapshotStore.ofRows?
      (store.snapshots.map fun s => if s.id = loaded.id then body.update loaded s else s)
      (store.items.filter (·.id ∉ deleted) ++ rows)
  | _, _ => none

def create (body : SnapshotIngestBody) (ids : SnapshotIds) (store : SnapshotStore) :
    Option SnapshotStore :=
  match body.headerStored, body.rows ids ids.snapshotId with
  | true, some rows =>
    SnapshotStore.ofRows? (body.header ids.snapshotId :: store.snapshots) (store.items ++ rows)
  | _, _ => none

end SnapshotIngestBody

def findSnapshot (store : SnapshotStore) (key : Date × String) : Option ScreenSnapshot :=
  store.snapshots.find? (·.key = key)

def itemsOf (store : SnapshotStore) (snapshotId : Uuid) : List ScreenSnapshotItem :=
  store.items.filter (·.snapshotId = snapshotId)

inductive UpsertPoint where
  | select
  | delete (existing : ScreenSnapshot)
  | replace (existing : ScreenSnapshot) (deleted : List Uuid)
  | create
  | refresh (snapshotId : Uuid) (replaced : Bool)
  | finished (snapshot : ScreenSnapshot) (replaced : Bool)
  | failed
  deriving DecidableEq

def upsertAction (body : SnapshotIngestBody) (ids : SnapshotIds) :
    UpsertPoint → Action SnapshotStore UpsertPoint
  | .select => .read fun store =>
      match findSnapshot store body.key with
      | some existing => .delete existing
      | none => .create
  | .delete existing => .read fun store =>
      .replace existing ((itemsOf store existing.id).map (·.id))
  | .replace existing deleted =>
      .commit (body.replace ids existing deleted) (.refresh existing.id true) .failed
  | .create => .commit (body.create ids) (.refresh ids.snapshotId false) .failed
  | .refresh snapshotId replaced => .read fun store =>
      match store.snapshots.find? (·.id = snapshotId) with
      | some snapshot => .finished snapshot replaced
      | none => .failed
  | .finished snapshot replaced => .work (.finished snapshot replaced)
  | .failed => .work .failed

def upsertProgram {ι : Type} (bodies : ι → SnapshotIngestBody) (i : ι) (ids : SnapshotIds) :
    UpsertPoint → Action SnapshotStore UpsertPoint :=
  upsertAction (bodies i) ids

end StockQuant
