import StockQuant.AuthHandlers
import StockQuant.MarketRuns

/-! The ingest router: the shared secret that opens it, and the answers it gives. -/

namespace StockQuant

structure IngestCall where
  token : Option String
  ingest : MarketIngest

inductive IngestReply where
  | snapshot (result : IngestResult)
  | prices (result : DailyPricesIngestResult)

def ingestUnconfigured : HTTPException where
  statusCode := 503
  detail := "Ingestion is not configured (INGEST_TOKEN unset)."

def invalidIngestToken : HTTPException where
  statusCode := 401
  detail := "Invalid or missing X-Ingest-Token."

def isAscii (s : String) : Prop := ∀ c ∈ s.toList, c.toNat < 128

instance (s : String) : Decidable (isAscii s) := List.decidableBAll _ _

/-- `hmac.compare_digest` of texts; `none` is its `TypeError`. -/
def compareDigest (a b : String) : Option Bool :=
  if isAscii a ∧ isAscii b then some (a = b) else none

def requireIngestToken (configured : String) (token : Option String) : Except Failure Unit :=
  if configured = "" then .error (.http ingestUnconfigured)
  else
    match token with
    | none => .error (.http invalidIngestToken)
    | some token =>
      if token = "" then .error (.http invalidIngestToken)
      else
        match compareDigest token configured with
        | none => .error .crash
        | some true => .ok ()
        | some false => .error (.http invalidIngestToken)

section Endpoints

-- `repr` writes a text as Python does.
variable (repr : String → String)

def unknownIngestSession (session : String) : HTTPException where
  statusCode := 422
  detail := "session must be one of ('intraday_1300', 'eod'), got " ++ repr session ++ "."

def answerIngest (tables : MarketTables) : MarketIngest → MarketTables × Except Failure IngestReply
  | .snapshot r =>
    if r.body.session ∈ sessions then
      match ingestSnapshot r tables.store with
      | (store, some result) => ({ tables with store }, .ok (.snapshot result))
      | (store, none) => ({ tables with store }, .error .crash)
    else (tables, .error (.http (unknownIngestSession repr r.body.session)))
  | .prices body =>
    match ingestPrices tables.prices body with
    | some (prices, result) => ({ tables with prices }, .ok (.prices result))
    | none => (tables, .error .crash)

def handleIngest (configured : String) (tables : MarketTables) (call : IngestCall) :
    MarketTables × Except Failure IngestReply :=
  match requireIngestToken configured call.token with
  | .error failure => (tables, .error failure)
  | .ok () => answerIngest repr tables call.ingest

structure IngestService where
  tables : MarketTables := {}
  log : List (IngestCall × Except Failure IngestReply) := []

def IngestService.handle (configured : String) (s : IngestService) (call : IngestCall) :
    IngestService where
  tables := (handleIngest repr configured s.tables call).1
  log := s.log ++ [(call, (handleIngest repr configured s.tables call).2)]

def runIngestService (configured : String) (calls : List IngestCall) : IngestService :=
  calls.foldl (IngestService.handle repr configured) {}

theorem runIngestService_snoc (configured : String) (calls : List IngestCall) (call : IngestCall) :
    runIngestService repr configured (calls ++ [call]) =
      (runIngestService repr configured calls).handle repr configured call := by
  simp [runIngestService]

end Endpoints

/-- A secret that is not ASCII opens the router to nobody. -/
def Opens (configured : String) (token : Option String) : Prop :=
  configured ≠ "" ∧ isAscii configured ∧ token = some configured

instance (configured : String) (token : Option String) : Decidable (Opens configured token) :=
  inferInstanceAs (Decidable (_ ∧ _ ∧ _))

theorem requireIngestToken_eq_ok_iff {configured : String} {token : Option String} :
    requireIngestToken configured token = .ok () ↔ Opens configured token := by
  unfold requireIngestToken compareDigest Opens
  split_ifs with hconfigured
  · simp [hconfigured]
  · cases token with
    | none => simp
    | some token =>
      dsimp only
      split_ifs with hempty hascii
      · simp [hempty, Ne.symm hconfigured]
      · by_cases hsame : token = configured
        · subst hsame
          simp [hconfigured, hascii.1]
        · simp [hsame]
      · simp only [Option.some.injEq, false_iff, not_and]
        rintro - hascii' rfl
        exact hascii ⟨hascii', hascii'⟩

section Runs

variable {repr : String → String} {configured : String}

theorem answerIngest_tables (tables : MarketTables) (r : MarketIngest) :
    (answerIngest repr tables r).1 = tables.ingest r := by
  cases r with
  | snapshot r =>
    unfold answerIngest MarketTables.ingest
    dsimp only
    split_ifs with hsession
    · rcases ingestSnapshot r tables.store with ⟨store, _ | result⟩ <;> rfl
    · have hsame : (ingestSnapshot r tables.store).1 = tables.store := by
        unfold ingestSnapshot
        rw [if_neg hsession]
      rw [hsame]
  | prices body =>
    unfold answerIngest MarketTables.ingest uploadPrices
    dsimp only
    cases ingestPrices tables.prices body with
    | none => rfl
    | some uploaded => rfl

/-- The tables after a call are those of its ingest when it opens the gate, and else as before. -/
theorem handleIngest_tables (tables : MarketTables) (call : IngestCall) :
    (handleIngest repr configured tables call).1 =
      if Opens configured call.token then tables.ingest call.ingest else tables := by
  unfold handleIngest
  cases hgate : requireIngestToken configured call.token with
  | error failure =>
    rw [if_neg fun hopens => by rw [requireIngestToken_eq_ok_iff.mpr hopens] at hgate; cases hgate]
  | ok =>
    rw [if_pos (requireIngestToken_eq_ok_iff.mp hgate)]
    exact answerIngest_tables tables call.ingest

theorem handleIngest_refused {tables : MarketTables} {call : IngestCall}
    (h : ¬ Opens configured call.token) :
    ∃ failure, (handleIngest repr configured tables call).2 = .error failure := by
  unfold handleIngest
  cases hgate : requireIngestToken configured call.token with
  | error failure => exact ⟨failure, rfl⟩
  | ok => exact absurd (requireIngestToken_eq_ok_iff.mp hgate) h

theorem runIngestService_tables (calls : List IngestCall) :
    (runIngestService repr configured calls).tables =
      runMarket ((calls.filter fun call => Opens configured call.token).map IngestCall.ingest) := by
  induction calls using List.reverseRecOn with
  | nil => rfl
  | append_singleton calls call ih =>
    rw [runIngestService_snoc, IngestService.handle, handleIngest_tables, ih, List.filter_append]
    split_ifs with hopens
    · rw [List.filter_cons_of_pos (by simpa using hopens), List.filter_nil, List.map_append,
        List.map_singleton, runMarket_snoc]
    · rw [List.filter_cons_of_neg (by simpa using hopens), List.filter_nil, List.append_nil]

end Runs

end StockQuant
