import StockQuant.Models

/-! What the columns make of the values that they take, and which values a session sends. -/

namespace StockQuant

open Statistics

theorem text_eq_some {s t : String} (h : text s = some t) : s = t := by
  unfold text at h
  split_ifs at h
  exact Option.some.inj h

theorem varchar_eq_some {length : Nat} {s t : String} (h : varchar length s = some t) : s = t := by
  unfold varchar at h
  split_ifs at h
  exact text_eq_some h

theorem halfAway_intCast (n : Int) : halfAway (n : ℚ) = n := by
  unfold halfAway
  split_ifs
  · rw [Int.floor_intCast_add, Int.floor_eq_zero_iff.mpr, add_zero]
    norm_num
  · rw [sub_eq_add_neg, Int.ceil_intCast_add, Int.ceil_eq_zero_iff.mpr, add_zero]
    norm_num

theorem numeric_stored {precision scale : Nat} {x y : ℚ} (h : numeric precision scale x = some y) :
    numeric precision scale y = some y := by
  unfold numeric at h ⊢
  dsimp only at h ⊢
  split_ifs at h with hfits
  obtain rfl := Option.some.inj h
  have hscale : ((halfAway (x * 10 ^ scale) : ℚ) / 10 ^ scale) * 10 ^ scale =
      (halfAway (x * 10 ^ scale) : ℚ) := div_mul_cancel₀ _ (by positivity)
  rw [hscale, halfAway_intCast, if_pos hfits]

theorem integer_stored {bits : Nat} {n m : Int} (h : integer bits n = some m) :
    integer bits m = some m := by
  unfold integer at h ⊢
  split_ifs at h with hfits
  obtain rfl := Option.some.inj h
  rw [if_pos hfits]

theorem text_stored {s t : String} (h : text s = some t) : text t = some t := by
  rwa [text_eq_some h] at h

theorem varchar_stored {length : Nat} {s t : String} (h : varchar length s = some t) :
    varchar length t = some t := by
  rwa [varchar_eq_some h] at h

theorem mapM_stored {α : Type} {f : α → Option α} (hf : ∀ a b, f a = some b → f b = some b)
    {x y : Option α} (h : x.mapM f = some y) : y.mapM f = some y := by
  cases x with
  | none =>
    obtain rfl := Option.some.inj h
    rfl
  | some a =>
    obtain ⟨b, hb, rfl⟩ := Option.map_eq_some_iff.mp (show (f a).map some = some y from h)
    exact congrArg (Option.map some) (hf a b hb)

/-- The value a column is left with: an attribute set to what was loaded is not sent. -/
def sent {α : Type} [DecidableEq α] (loaded stored new : α) : α :=
  if new = loaded then stored else new

theorem sent_self {α : Type} [DecidableEq α] (stored new : α) : sent stored stored new = new := by
  unfold sent
  split_ifs with h
  · exact h.symm
  · rfl

end StockQuant
