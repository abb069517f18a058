import StockQuant.MailLimits
import StockQuant.Responses
import StockQuant.UniqueUpdates

/-! The accounts from before addresses were kept in lower case, through the upgrade of the
database. -/

namespace StockQuant

open KeyedTable UniqueUpdates

/-- A row of the users table as the first revision has it. -/
structure LegacyUser where
  id : Uuid
  email : String
  passwordHash : String
  displayName : Option String := none
  createdAt : ℚ
  deriving DecidableEq

/-- The row with the columns that the revision adds. -/
def LegacyUser.extended (user : LegacyUser) : User where
  id := user.id
  email := user.email
  passwordHash := user.passwordHash
  displayName := user.displayName
  passwordChangedAt := user.createdAt

def lowerEmail (dbLower : String → String) (user : User) : User :=
  { user with email := dbLower user.email }

def LegacyUser.upgraded (dbLower : String → String) (user : LegacyUser) : User :=
  lowerEmail dbLower user.extended

/-- The `upgrade` of revision `0003_email_tokens` on the rows in the order in which the database
updates them; `none` is its refusal. `dbLower` is the `lower` of the database. -/
def upgradeEmailTokens (dbLower : String → String) (rows : List LegacyUser) : Option Accounts := do
  let rows ← updateEach User.email (lowerEmail dbLower) [] (rows.map LegacyUser.extended)
  let users : Table User.id ← Table.ofRows? rows
  if h : (users.rows.map User.email).Nodup then
    some
      { users, tokens := ∅, emails_nodup := h, hashes_nodup := List.nodup_nil
        tokens_owned := by simp [EmptyCollection.emptyCollection] }
  else none

section Upgrade

variable {dbLower : String → String} {before : Table LegacyUser.id} {rows : List LegacyUser}

theorem updateEach_lowerEmail (hagain : ∀ s, dbLower (dbLower s) = dbLower s)
    (rows : List LegacyUser) :
    updateEach User.email (lowerEmail dbLower) [] (rows.map LegacyUser.extended) =
      if (rows.map fun user => dbLower user.email).Nodup then
        some (rows.map (LegacyUser.upgraded dbLower))
      else none := by
  have hemail (user : User) : (lowerEmail dbLower user).email = dbLower user.email := rfl
  rw [updateAll_eq hemail hagain, List.map_map, List.map_map, List.map_map]
  rfl

def upgradedAccounts (dbLower : String → String) (rows : List LegacyUser)
    (hids : (rows.map LegacyUser.id).Nodup)
    (hemails : (rows.map fun user => dbLower user.email).Nodup) : Accounts where
  users := ⟨rows.map (LegacyUser.upgraded dbLower), (List.map_map (l := rows)).symm ▸ hids⟩
  tokens := ∅
  emails_nodup := (List.map_map (l := rows)).symm ▸ hemails
  hashes_nodup := List.nodup_nil
  tokens_owned := by simp [EmptyCollection.emptyCollection]

theorem upgradeEmailTokens_eq (hagain : ∀ s, dbLower (dbLower s) = dbLower s)
    (hids : (rows.map LegacyUser.id).Nodup) :
    upgradeEmailTokens dbLower rows =
      if hemails : (rows.map fun user => dbLower user.email).Nodup then
        some (upgradedAccounts dbLower rows hids hemails)
      else none := by
  unfold upgradeEmailTokens
  rw [updateEach_lowerEmail hagain]
  by_cases hemails : (rows.map fun user => dbLower user.email).Nodup
  · have husers : Table.ofRows? (rows.map (LegacyUser.upgraded dbLower)) =
        some (upgradedAccounts dbLower rows hids hemails).users :=
      Table.ofRows?_eq_some_iff.mpr rfl
    rw [if_pos hemails, dif_pos hemails]
    dsimp only [Option.bind_eq_bind, Option.bind_some]
    rw [husers, Option.bind_some,
      dif_pos (upgradedAccounts dbLower rows hids hemails).emails_nodup]
    rfl
  · rw [if_neg hemails, dif_neg hemails]
    rfl

end Upgrade

section Service

variable {Tok : Type} {env : Env Tok} {db : Accounts} {legacy : LegacyUser} {user : User}

/-- How the service treats an account with a password from before: the addresses that find it, its
logins and the registrations that would take its address. -/
structure TakenOver (env : Env Tok) (db : Accounts) (legacy : LegacyUser) (user : User) : Prop where
  found : ∀ email, getUserByEmail env.lower db email = some user ↔
    normalizeEmail env.lower email = user.email
  signsIn : ∀ (a : LoginAttempt) limiter, a.email env = user.email →
    env.verifyPassword a.body.password legacy.passwordHash = some true →
    let result := (login env a.ctx a.body ⟨db, limiter⟩).2
    TooManyRequests result ∨ result = .ok { token := tokenFor env a.ctx user, user := userOut user }
  taken : ∀ ctx (body : RegisterRequest) limiter, normalizeEmail env.lower body.email = user.email →
    let result := (register env ctx body ⟨db, limiter⟩).2
    TooManyRequests result ∨ result = .error (.http emailTaken)

theorem login_registered (hlower : Lowers env.lower) (huser : user ∈ db.users.rows)
    (a : LoginAttempt) (limiter : SlidingWindowLimiter) (hemail : a.email env = user.email)
    (hpassword : env.verifyPassword a.body.password user.passwordHash = some true) :
    let result := (login env a.ctx a.body ⟨db, limiter⟩).2
    TooManyRequests result ∨
      result = .ok { token := tokenFor env a.ctx user, user := userOut user } := by
  have hfound : getUserByEmail env.lower db (normalizeEmail env.lower a.body.email) = some user :=
    getUserByEmail_eq_some_iff.mpr ⟨huser, hemail.symm.trans (hlower.normalizeEmail _).symm⟩
  dsimp only
  rw [(login_spec env a ⟨db, limiter⟩).2, login_result]
  cases hlimits : (loginLimits env a limiter).2 with
  | some exception => exact Or.inl (by simp)
  | none =>
    refine Or.inr ?_
    unfold loginAnswer checkPassword
    simp only [hfound, hpassword]
    rfl

theorem register_registered (hlower : Lowers env.lower) (huser : user ∈ db.users.rows)
    (ctx : Context) (body : RegisterRequest) (limiter : SlidingWindowLimiter)
    (hemail : normalizeEmail env.lower body.email = user.email) :
    let result := (register env ctx body ⟨db, limiter⟩).2
    TooManyRequests result ∨ result = .error (.http emailTaken) := by
  have hfound : getUserByEmail env.lower db (normalizeEmail env.lower body.email) = some user :=
    getUserByEmail_eq_some_iff.mpr ⟨huser, hemail.symm.trans (hlower.normalizeEmail _).symm⟩
  unfold register
  rcases hlimit : App.enforce env ctx ⟨db, limiter⟩ "register_ip" (clientIp ctx.request) with
    ⟨app, _ | exception⟩
  · have hdb : app.db = db := enforce_db env ctx _ hlimit
    refine Or.inr ?_
    dsimp only
    rw [hdb, hfound, if_pos (by simp)]
  · exact Or.inl ⟨exception, rfl, enforce_statusCode (congrArg Prod.snd hlimit)⟩

theorem takenOver_of_mem (hlower : Lowers env.lower) (huser : user ∈ db.users.rows)
    (hhash : user.passwordHash = legacy.passwordHash) : TakenOver env db legacy user where
  found email := by rw [getUserByEmail_eq_some_iff, and_iff_right huser, eq_comm]
  signsIn a limiter hemail hpassword :=
    login_registered hlower huser a limiter hemail (hhash ▸ hpassword)
  taken ctx body limiter hemail := register_registered hlower huser ctx body limiter hemail

end Service

def mixedCase : Table LegacyUser.id where
  rows :=
    [{ id := 1, email := "Owner@Example.com", passwordHash := "bcrypt:old password"
       createdAt := 0 },
     { id := 2, email := "owner@example.org", passwordHash := "bcrypt:other password"
       createdAt := 1 }]
  nodup := by decide

end StockQuant
