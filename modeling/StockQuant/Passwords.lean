import StockQuant.AuthHandlers

/-! What the endpoints rely on of bcrypt: it reads the first 72 bytes of a password in
UTF-8, and it raises on a password with a NUL character. -/

namespace StockQuant

variable {Tok : Type}

def utf8 (s : String) : List UInt8 := s.toList.flatMap String.utf8EncodeChar

def bcryptBytes (password : String) : List UInt8 := (utf8 password).take 72

structure Bcrypt (env : Env Tok) : Prop where
  hash_raises : ∀ {password salt},
    env.hashPassword password salt = none ↔ '\x00' ∈ password.toList
  verify_raises : ∀ {password hash},
    env.verifyPassword password hash = none ↔ '\x00' ∈ password.toList
  verify_hash : ∀ {p salt hash q}, env.hashPassword p salt = some hash →
    (env.verifyPassword q hash = some true ↔
      '\x00' ∉ q.toList ∧ bcryptBytes q = bcryptBytes p)

theorem utf8_injective : Function.Injective utf8 := by
  intro s t h
  have hbytes : s.toList.utf8Encode = t.toList.utf8Encode := by
    unfold List.utf8Encode
    exact congrArg List.toByteArray h
  rw [String.utf8Encode_toList, String.utf8Encode_toList] at hbytes
  exact String.toByteArray_inj.mp hbytes

theorem bcryptBytes_inj {p q : String} (hp : (utf8 p).length ≤ 72) (hq : (utf8 q).length ≤ 72)
    (h : bcryptBytes p = bcryptBytes q) : p = q := by
  unfold bcryptBytes at h
  rw [List.take_of_length_le hp, List.take_of_length_le hq] at h
  exact utf8_injective h

theorem length_utf8_of_ascii {s : String} (h : ∀ c ∈ s.toList, c.utf8Size = 1) :
    (utf8 s).length = s.length := by
  unfold utf8
  rw [List.length_flatMap, List.map_congr_left (g := fun _ => 1)
    fun c hc => (String.length_utf8EncodeChar c).trans (h c hc)]
  simp [String.length_toList]

/-- What the bound on the characters of a password is good for. -/
theorem RegisterRequest.told_apart_of_ascii {first second : RegisterRequest}
    (hfirst : ∀ c ∈ first.password.toList, c.utf8Size = 1)
    (hsecond : ∀ c ∈ second.password.toList, c.utf8Size = 1)
    (h : bcryptBytes first.password = bcryptBytes second.password) :
    first.password = second.password :=
  bcryptBytes_inj ((length_utf8_of_ascii hfirst).trans_le first.password_length.2)
    ((length_utf8_of_ascii hsecond).trans_le second.password_length.2) h

/-- A hash that is the bytes bcrypt reads. -/
def plainHash (password : String) : String :=
  "bcrypt:" ++ String.ofList ((bcryptBytes password).map fun byte => Char.ofNat byte.toNat)

def bcryptEnv : Env Payload :=
  { plainEnv with
    hashPassword := fun password _ =>
      if '\x00' ∈ password.toList then none else some (plainHash password)
    verifyPassword := fun password hash =>
      if '\x00' ∈ password.toList then none else some (hash = plainHash password) }

theorem ofNat_toNat_injective : Function.Injective fun byte : UInt8 => Char.ofNat byte.toNat := by
  have hnat (byte : UInt8) : (Char.ofNat byte.toNat).toNat = byte.toNat := by
    have hlt := byte.toNat_lt
    have hvalid : byte.toNat.isValidChar := Or.inl (by omega)
    have hchar : Char.ofNat byte.toNat = Char.ofNatAux byte.toNat hvalid := dif_pos hvalid
    rw [hchar]
    rfl
  intro a b hab
  have h := congrArg Char.toNat hab
  dsimp only at h
  rw [hnat, hnat] at h
  exact UInt8.toNat_inj.mp h

theorem plainHash_eq_iff {p q : String} :
    plainHash p = plainHash q ↔ bcryptBytes p = bcryptBytes q := by
  constructor
  · intro h
    have hlist := congrArg String.toList h
    simp only [plainHash, String.toList_append, String.toList_ofList, List.append_cancel_left_eq]
      at hlist
    exact ofNat_toNat_injective.list_map hlist
  · intro h
    rw [plainHash, h, plainHash]

theorem bcrypt_bcryptEnv : Bcrypt bcryptEnv where
  hash_raises := by simp [bcryptEnv]
  verify_raises := by simp [bcryptEnv]
  verify_hash {p salt hash q} h := by
    simp only [bcryptEnv, Option.ite_none_left_eq_some, Option.some.injEq] at h ⊢
    obtain ⟨-, rfl⟩ := h
    rw [decide_eq_true_iff, plainHash_eq_iff]
    exact and_congr_right fun _ => eq_comm

end StockQuant
