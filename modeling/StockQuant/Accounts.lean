import StockQuant.Models
import StockQuant.RateLimit

/-! The account tables: users, the single-use tokens mailed to them, and the
queries and updates the auth endpoints make. -/

namespace StockQuant

open KeyedTable

inductive Purpose where
  | verifyEmail
  | passwordReset
  deriving DecidableEq

structure User where
  id : Uuid
  email : String
  passwordHash : String
  displayName : Option String := none
  emailVerifiedAt : Option ℚ := none
  passwordChangedAt : ℚ
  tokenVersion : Nat := 0
  deriving DecidableEq

def User.emailVerified (user : User) : Bool := user.emailVerifiedAt.isSome

structure EmailToken where
  id : Uuid
  userId : Uuid
  purpose : Purpose
  tokenHash : String
  expiresAt : ℚ
  usedAt : Option ℚ := none
  deriving DecidableEq

/-- The two tables under their primary keys, unique constraints and foreign key. -/
structure Accounts where
  users : Table User.id
  tokens : Table EmailToken.id
  emails_nodup : (users.rows.map User.email).Nodup
  hashes_nodup : (tokens.rows.map EmailToken.tokenHash).Nodup
  tokens_owned : ∀ token ∈ tokens.rows, ∃ user ∈ users.rows, user.id = token.userId

namespace Accounts

def empty : Accounts where
  users := ∅
  tokens := ∅
  emails_nodup := List.nodup_nil
  hashes_nodup := List.nodup_nil
  tokens_owned := by simp [EmptyCollection.emptyCollection]

theorem ext_tables {db db' : Accounts} (hu : db.users = db'.users) (ht : db.tokens = db'.tokens) :
    db = db' := by
  cases db
  cases db'
  congr

instance : DecidableEq Accounts := fun db db' =>
  decidable_of_iff (db.users = db'.users ∧ db.tokens = db'.tokens)
    ⟨fun h => ext_tables h.1 h.2, fun h => h ▸ ⟨rfl, rfl⟩⟩

-- Inserts: `none` is the database's refusal.
def insertUser (db : Accounts) (user : User) : Option Accounts :=
  if h : user.id ∉ db.users.rows.map User.id ∧ user.email ∉ db.users.rows.map User.email ∧
      (text user.email).isSome ∧ (user.displayName.mapM text).isSome then
    some
      { db with
        users := ⟨user :: db.users.rows, List.nodup_cons.mpr ⟨h.1, db.users.nodup⟩⟩
        emails_nodup := List.nodup_cons.mpr ⟨h.2.1, db.emails_nodup⟩
        tokens_owned := fun token htoken =>
          (db.tokens_owned token htoken).imp fun _ hu => ⟨List.mem_cons_of_mem _ hu.1, hu.2⟩ }
  else none

def insertToken (db : Accounts) (token : EmailToken) : Option Accounts :=
  if h : token.id ∉ db.tokens.rows.map EmailToken.id ∧
      token.tokenHash ∉ db.tokens.rows.map EmailToken.tokenHash ∧
      ∃ user ∈ db.users.rows, user.id = token.userId then
    some
      { db with
        tokens := ⟨token :: db.tokens.rows, List.nodup_cons.mpr ⟨h.1, db.tokens.nodup⟩⟩
        hashes_nodup := List.nodup_cons.mpr ⟨h.2.1, db.hashes_nodup⟩
        tokens_owned := List.forall_mem_cons.mpr ⟨h.2.2, db.tokens_owned⟩ }
  else none

def mapUsers (db : Accounts) (f : User → User) (hid : ∀ u, (f u).id = u.id)
    (hemail : ∀ u, (f u).email = u.email) : Accounts where
  users := db.users.map f hid
  tokens := db.tokens
  emails_nodup := by
    rw [Table.rows_map, List.map_map, Function.comp_def]
    simpa only [hemail] using db.emails_nodup
  hashes_nodup := db.hashes_nodup
  tokens_owned token htoken := by
    obtain ⟨user, huser, hown⟩ := db.tokens_owned token htoken
    exact ⟨f user, List.mem_map.mpr ⟨user, huser, rfl⟩, (hid user).trans hown⟩

def markUsed (db : Accounts) (p : EmailToken → Bool) (now : ℚ) : Accounts where
  users := db.users
  tokens := db.tokens.map (fun token => if p token then { token with usedAt := some now } else token)
    fun token => by split <;> rfl
  emails_nodup := db.emails_nodup
  hashes_nodup := by
    have h := db.hashes_nodup
    rw [Table.rows_map, List.map_map]
    convert h using 2
    funext token
    dsimp only [Function.comp_apply]
    split <;> rfl
  tokens_owned token htoken := by
    obtain ⟨old, hold, rfl⟩ := List.mem_map.mp htoken
    obtain ⟨user, huser, hown⟩ := db.tokens_owned old hold
    refine ⟨user, huser, hown.trans ?_⟩
    split <;> rfl

def writePassword (db : Accounts) (userId : Uuid) (passwordHash : String) (now : ℚ)
    (version : Nat) : Accounts :=
  db.mapUsers
    (fun user =>
      if user.id = userId then
        { user with passwordHash, passwordChangedAt := now, tokenVersion := version }
      else user)
    (fun user => by split <;> rfl) (fun user => by split <;> rfl)

def writeVerified (db : Accounts) (userId : Uuid) (now : ℚ) : Accounts :=
  db.mapUsers
    (fun user => if user.id = userId then { user with emailVerifiedAt := some now } else user)
    (fun user => by split <;> rfl) (fun user => by split <;> rfl)

end Accounts

def normalizeEmail (lower : String → String) (email : String) : String := lower (strip email)

def getUserByEmail (lower : String → String) (db : Accounts) (email : String) : Option User :=
  db.users.rows.find? (·.email = normalizeEmail lower email)

def createUser (lower : String → String) (db : Accounts) (id : Uuid) (email passwordHash : String)
    (displayName : Option String) (now : ℚ) : Option (User × Accounts) :=
  let user : User :=
    { id, email := normalizeEmail lower email, passwordHash, displayName, passwordChangedAt := now }
  (db.insertUser user).map (user, ·)

def markEmailVerified (db : Accounts) (user : User) (now : ℚ) : Accounts :=
  if user.emailVerifiedAt = none then db.writeVerified user.id now else db

def setPassword (db : Accounts) (user : User) (passwordHash : String) (now : ℚ) : Accounts :=
  db.writePassword user.id passwordHash now (user.tokenVersion + 1)

def createEmailToken (db : Accounts) (id userId : Uuid) (purpose : Purpose) (tokenHash : String)
    (ttlMinutes : Int) (now : ℚ) : Option Accounts :=
  db.insertToken { id, userId, purpose, tokenHash, expiresAt := now + ttlMinutes * 60 }

def findEmailToken (db : Accounts) (purpose : Purpose) (tokenHash : String) : Option EmailToken :=
  db.tokens.rows.find? fun token => token.tokenHash = tokenHash ∧ token.purpose = purpose

def getUsableEmailToken (db : Accounts) (purpose : Purpose) (tokenHash : String) (now : ℚ) :
    Option EmailToken :=
  match findEmailToken db purpose tokenHash with
  | none => none
  | some token =>
    if token.usedAt ≠ none then none
    else if token.expiresAt ≤ now then none
    else some token

def consumeEmailToken (db : Accounts) (token : EmailToken) (now : ℚ) : Accounts :=
  db.markUsed (·.id = token.id) now

def outstanding (userId : Uuid) (purpose : Purpose) (token : EmailToken) : Bool :=
  token.userId = userId ∧ token.purpose = purpose ∧ token.usedAt = none

def invalidateEmailTokens (db : Accounts) (userId : Uuid) (purpose : Purpose) (now : ℚ) :
    Accounts :=
  db.markUsed (outstanding userId purpose) now

namespace Accounts

def HasToken (db : Accounts) (token : EmailToken) : Prop :=
  ∃ usedAt, { token with usedAt } ∈ db.tokens.rows

def Used (db : Accounts) (purpose : Purpose) (tokenHash : String) : Prop :=
  ∃ token ∈ db.tokens.rows,
    token.tokenHash = tokenHash ∧ token.purpose = purpose ∧ token.usedAt ≠ none

/-- The later contents of the tables keep every token, and used ones stay used. -/
structure Later (db db' : Accounts) : Prop where
  hasToken : ∀ {token}, db.HasToken token → db'.HasToken token
  used : ∀ {purpose tokenHash}, db.Used purpose tokenHash → db'.Used purpose tokenHash

theorem Later.refl (db : Accounts) : db.Later db := ⟨id, id⟩

theorem mapUsers_later (db : Accounts) {f : User → User} (hid : ∀ u, (f u).id = u.id)
    (hemail : ∀ u, (f u).email = u.email) : db.Later (db.mapUsers f hid hemail) := ⟨id, id⟩

theorem markUsed_later (db : Accounts) (p : EmailToken → Bool) (now : ℚ) :
    db.Later (db.markUsed p now) := by
  constructor
  · rintro token ⟨usedAt, htoken⟩
    by_cases hp : p { token with usedAt }
    · exact ⟨some now, List.mem_map.mpr ⟨_, htoken, by simp [hp]⟩⟩
    · exact ⟨usedAt, List.mem_map.mpr ⟨_, htoken, by simp [hp]⟩⟩
  · rintro purpose tokenHash ⟨token, htoken, hhash, hpurpose, hused⟩
    refine ⟨_, List.mem_map.mpr ⟨token, htoken, rfl⟩, ?_⟩
    split
    · exact ⟨hhash, hpurpose, by simp⟩
    · exact ⟨hhash, hpurpose, hused⟩

theorem eq_of_tokenHash {db : Accounts} {token token' : EmailToken} (h : token ∈ db.tokens.rows)
    (h' : token' ∈ db.tokens.rows) (hhash : token.tokenHash = token'.tokenHash) : token = token' :=
  List.inj_on_of_nodup_map db.hashes_nodup h h' hhash

end Accounts

theorem insertUser_eq_some {db db' : Accounts} {user : User} (h : db.insertUser user = some db') :
    user.id ∉ db.users.rows.map User.id ∧ db'.users.rows = user :: db.users.rows ∧
      db'.tokens = db.tokens := by
  unfold Accounts.insertUser at h
  split at h
  · next hnew =>
    obtain rfl := Option.some_inj.mp h
    exact ⟨hnew.1, rfl, rfl⟩
  · cases h

theorem getUserByEmail_eq_some_iff {lower : String → String} {db : Accounts} {email : String}
    {user : User} :
    getUserByEmail lower db email = some user ↔
      user ∈ db.users.rows ∧ user.email = normalizeEmail lower email :=
  Table.get?_eq_some_iff (t := (⟨db.users.rows, db.emails_nodup⟩ : Table User.email))

theorem markUsed_of_filter_eq_nil {db : Accounts} {p : EmailToken → Bool}
    (h : db.tokens.rows.filter p = []) (now : ℚ) : db.markUsed p now = db := by
  refine Accounts.ext_tables rfl (Table.ext_rows ?_)
  refine (List.map_congr_left fun row hrow => ?_).trans (List.map_id _)
  simp [List.filter_eq_nil_iff.mp h row hrow]

theorem consumeEmailToken_get? {db : Accounts} {token : EmailToken}
    (htoken : token ∈ db.tokens.rows) (now : ℚ) :
    (consumeEmailToken db token now).tokens.get? token.id =
      some { token with usedAt := some now } := by
  unfold consumeEmailToken Accounts.markUsed
  rw [Table.get?_map, Table.get?_of_mem htoken]
  simp

theorem findEmailToken_eq_some_iff {db : Accounts} {purpose : Purpose} {tokenHash : String}
    {token : EmailToken} :
    findEmailToken db purpose tokenHash = some token ↔
      token ∈ db.tokens.rows ∧ token.tokenHash = tokenHash ∧ token.purpose = purpose := by
  unfold findEmailToken
  constructor
  · intro h
    exact ⟨List.mem_of_find?_eq_some h, by simpa using List.find?_some h⟩
  · rintro ⟨hmem, rfl, rfl⟩
    cases hf : db.tokens.rows.find? fun t =>
        t.tokenHash = token.tokenHash ∧ t.purpose = token.purpose with
    | none => simpa using List.find?_eq_none.mp hf token hmem
    | some other =>
      have hother : other.tokenHash = token.tokenHash ∧ other.purpose = token.purpose := by
        simpa using List.find?_some hf
      rw [Accounts.eq_of_tokenHash (List.mem_of_find?_eq_some hf) hmem hother.1]

theorem getUsableEmailToken_eq_some_iff {db : Accounts} {purpose : Purpose} {tokenHash : String}
    {now : ℚ} {token : EmailToken} :
    getUsableEmailToken db purpose tokenHash now = some token ↔
      token ∈ db.tokens.rows ∧ token.tokenHash = tokenHash ∧ token.purpose = purpose ∧
        token.usedAt = none ∧ now < token.expiresAt := by
  have hmem : findEmailToken db purpose tokenHash = some token ↔ _ := findEmailToken_eq_some_iff
  unfold getUsableEmailToken
  cases hf : findEmailToken db purpose tokenHash with
  | none => grind
  | some other =>
    dsimp only
    split_ifs with hused hexpired
    · grind
    · grind
    · grind

end StockQuant
