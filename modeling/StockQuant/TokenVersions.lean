import StockQuant.AuthHandlers

/-! The `token_version` stored for a user, and the session tokens it admits. -/

namespace StockQuant

open KeyedTable

namespace Accounts

def version? (db : Accounts) (userId : Uuid) : Option Nat :=
  (db.users.get? userId).map User.tokenVersion

variable {db : Accounts}

theorem version?_markUsed (p : EmailToken → Bool) (now : ℚ) (userId : Uuid) :
    (db.markUsed p now).version? userId = db.version? userId := rfl

theorem version?_writeVerified (id : Uuid) (now : ℚ) (userId : Uuid) :
    (db.writeVerified id now).version? userId = db.version? userId := by
  unfold version? writeVerified mapUsers
  rw [Table.get?_map, Option.map_map]
  congr 1
  funext user
  dsimp only [Function.comp_apply]
  split <;> rfl

theorem version?_writePassword_of_ne {id userId : Uuid} (h : userId ≠ id) (hash : String) (now : ℚ)
    (version : Nat) : (db.writePassword id hash now version).version? userId = db.version? userId := by
  unfold version? writePassword mapUsers
  rw [Table.get?_map]
  cases hget : db.users.get? userId with
  | none => rfl
  | some user =>
    obtain rfl := (Table.get?_eq_some_iff.mp hget).2
    simp [h]

theorem version?_writePassword {userId : Uuid} {v : Nat} (h : db.version? userId = some v)
    (hash : String) (now : ℚ) (version : Nat) :
    (db.writePassword userId hash now version).version? userId = some version := by
  unfold version? writePassword mapUsers
  rw [Table.get?_map]
  obtain ⟨user, hget, -⟩ := Option.map_eq_some_iff.mp h
  obtain rfl := (Table.get?_eq_some_iff.mp hget).2
  simp [hget]

theorem version?_eq_some_iff {userId : Uuid} {v : Nat} :
    db.version? userId = some v ↔ ∃ user, db.users.get? userId = some user ∧ user.tokenVersion = v :=
  Option.map_eq_some_iff

theorem version?_setPassword {user : User} {v : Nat} (h : db.version? user.id = some v)
    (passwordHash : String) (now : ℚ) (userId : Uuid) :
    (setPassword db user passwordHash now).version? userId =
      if userId = user.id then some (user.tokenVersion + 1) else db.version? userId := by
  unfold setPassword
  split_ifs with hid
  · rw [hid]
    exact version?_writePassword h _ _ _
  · exact version?_writePassword_of_ne hid _ _ _

theorem version?_markEmailVerified (user : User) (now : ℚ) (userId : Uuid) :
    (markEmailVerified db user now).version? userId = db.version? userId := by
  unfold markEmailVerified
  split_ifs
  · exact version?_writeVerified _ _ _
  · rfl

theorem version?_insertUser {db' : Accounts} {user : User} (h : db.insertUser user = some db')
    (userId : Uuid) :
    db.version? user.id = none ∧ db'.version? userId =
      if userId = user.id then some user.tokenVersion else db.version? userId := by
  obtain ⟨hnew, husers, -⟩ := insertUser_eq_some h
  constructor
  · rw [version?, Option.map_eq_none_iff, Table.get?_eq_none_iff]
    exact fun row hrow hid => hnew (List.mem_map.mpr ⟨row, hrow, hid⟩)
  · unfold version? Table.get?
    rw [husers, List.find?_cons]
    by_cases hid : userId = user.id
    · simp [hid]
    · simp [hid, Ne.symm hid]

end Accounts

variable {Tok : Type} {env : Env Tok} {db : Accounts} {token : Tok} {now : ℚ}

theorem getCurrentUser_eq_ok_iff {row : User} :
    getCurrentUser env db (some token) now = .ok row ↔
      ∃ payload, env.decode token now = some payload ∧ payload.sub = some row.id ∧
        db.users.get? row.id = some row ∧ payload.ver = some (row.tokenVersion : Int) := by
  constructor
  · intro h
    unfold getCurrentUser at h
    dsimp only at h
    split at h
    · cases h
    · next payload hpayload =>
      split at h
      · cases h
      · next userId hsub =>
        split at h
        · cases h
        · next user hget =>
          split_ifs at h with hver
          obtain rfl := Except.ok.inj h
          obtain rfl := (Table.get?_eq_some_iff.mp hget).2
          exact ⟨payload, hpayload, hsub, hget, hver⟩
  · rintro ⟨payload, hpayload, hsub, hget, hver⟩
    simp [getCurrentUser, hpayload, hsub, hget, hver]

theorem getCurrentUser_eq_error {credentials : Option Tok}
    (h : ∀ row, getCurrentUser env db credentials now ≠ .ok row) :
    getCurrentUser env db credentials now = .error credentialsException := by
  unfold getCurrentUser at h ⊢
  split
  · rfl
  split
  · rfl
  split
  · rfl
  split
  · rfl
  · split_ifs with hver
    · simp_all
    · rfl

end StockQuant
