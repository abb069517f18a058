import StockQuant.Prices

/-! Counting trading days on the ascending, duplicate-free calendar of the price
table, and the horizons a backtest accepts. -/

namespace StockQuant

open SortedList

def nthTradingDay (calendar : List Date) (day : Date) (n : Int) : Option Date :=
  if n < 0 then none
  else if n = 0 then
    if calendar[bisectLeft calendar day]? = some day then some day else none
  else calendar[bisectRight calendar day + (n.toNat - 1)]?

/-- The `n`-th trading day: the day itself for zero, and otherwise the later
calendar date up to which exactly `n` dates have passed. -/
def IsNthTradingDay (calendar : List Date) (day : Date) (n : Int) (d : Date) : Prop :=
  (n = 0 ∧ d = day ∧ day ∈ calendar) ∨
  (1 ≤ n ∧ d ∈ calendar ∧ day < d ∧ (calendar.countP (fun c => day < c ∧ c ≤ d) : Int) = n)

theorem nthTradingDay_eq_some_iff {calendar : List Date} (h : calendar.Pairwise (· < ·))
    {day d : Date} {n : Int} :
    nthTradingDay calendar day n = some d ↔ IsNthTradingDay calendar day n d := by
  unfold nthTradingDay IsNthTradingDay
  rcases lt_trichotomy n 0 with hn | rfl | hn
  · simp [hn, hn.ne, show ¬ 1 ≤ n by omega]
  · simp [getElem?_bisectLeft h, and_comm, eq_comm]
  · simp only [hn.not_gt, hn.ne', if_false, false_and, false_or]
    rw [getElem?_bisectRight_add h]
    have he : (calendar.countP (fun c => decide (day < c ∧ c ≤ d)) : Int) = n ↔
        calendar.countP (fun c => decide (day < c ∧ c ≤ d)) = n.toNat - 1 + 1 := by omega
    rw [he]
    exact ⟨fun hh => ⟨by omega, hh⟩, fun hh => hh.2⟩

-- The count with its bisections as loops and every subscript checked: the outer `none` is an
-- index outside the list.
/-- A negative index would count from the end of the list. -/
def subscript (calendar : List Date) (i : Int) : Option Date :=
  if i < 0 then none else calendar[i.toNat]?

def nthTradingDayChecked (calendar : List Date) (day : Date) (n : Int) : Option (Option Date) :=
  if n < 0 then some none
  else if n = 0 then do
    let pos ← bisectLoop (· < day) calendar 0 calendar.length
    if pos < calendar.length then
      let d ← subscript calendar pos
      some (if d = day then some day else none)
    else some none
  else do
    let pos ← bisectLoop (· ≤ day) calendar 0 calendar.length
    let idx : Int := pos + n - 1
    if idx < calendar.length then (subscript calendar idx).map some else some none

theorem bisectLoop_lt {calendar : List Date} (h : calendar.Pairwise (· < ·)) (day : Date) :
    bisectLoop (· < day) calendar 0 calendar.length = some (bisectLeft calendar day) := by
  refine bisectLoop_eq (h.imp ?_) (Nat.zero_le _) (List.takeWhile_sublist _).length_le le_rfl
  intro a b hab hb
  exact decide_eq_true (hab.trans (of_decide_eq_true hb))

theorem bisectLoop_le {calendar : List Date} (h : calendar.Pairwise (· < ·)) (day : Date) :
    bisectLoop (· ≤ day) calendar 0 calendar.length = some (bisectRight calendar day) := by
  refine bisectLoop_eq (h.imp ?_) (Nat.zero_le _) (List.takeWhile_sublist _).length_le le_rfl
  intro a b hab hb
  exact decide_eq_true (hab.le.trans (of_decide_eq_true hb))

theorem subscript_of_nonneg {calendar : List Date} {i : Int} (h : 0 ≤ i) :
    subscript calendar i = calendar[i.toNat]? :=
  if_neg h.not_gt

theorem nthTradingDayChecked_eq {calendar : List Date} (h : calendar.Pairwise (· < ·))
    (day : Date) (n : Int) :
    nthTradingDayChecked calendar day n = some (nthTradingDay calendar day n) := by
  unfold nthTradingDayChecked nthTradingDay
  rcases lt_trichotomy n 0 with hn | rfl | hn
  · rw [if_pos hn, if_pos hn]
  · simp only [lt_irrefl, if_false, if_true, bisectLoop_lt h, Option.bind_eq_bind,
      Option.bind_some]
    by_cases hpos : bisectLeft calendar day < calendar.length
    · rw [if_pos hpos, subscript_of_nonneg (Int.natCast_nonneg _), Int.toNat_natCast,
        List.getElem?_eq_getElem hpos, Option.bind_some]
      simp only [Option.some.injEq]
    · rw [if_neg hpos, List.getElem?_eq_none (not_lt.mp hpos), if_neg (Option.some_ne_none _).symm]
  · have hindex : (bisectRight calendar day + n - 1 : Int) =
        (bisectRight calendar day + (n.toNat - 1) : Nat) := by omega
    simp only [hn.not_gt, hn.ne', if_false, bisectLoop_le h, Option.bind_eq_bind,
      Option.bind_some, hindex, Nat.cast_lt]
    split_ifs with hidx
    · rw [subscript_of_nonneg (Int.natCast_nonneg _), Int.toNat_natCast,
        List.getElem?_eq_getElem hidx, Option.map_some]
    · rw [List.getElem?_eq_none (not_lt.mp hidx)]

theorem nthTradingDayChecked_correct {calendar : List Date} (h : calendar.Pairwise (· < ·))
    (day : Date) (n : Int) :
    ∃ result, nthTradingDayChecked calendar day n = some result ∧
      (∀ d, result = some d ↔ IsNthTradingDay calendar day n d) ∧
      (result = none ↔ ∀ d, ¬ IsNthTradingDay calendar day n d) := by
  refine ⟨_, nthTradingDayChecked_eq h day n, fun d => nthTradingDay_eq_some_iff h, ?_⟩
  rw [Option.eq_none_iff_forall_ne_some]
  exact forall_congr' fun d => not_congr (nthTradingDay_eq_some_iff h)

/-- From a day that the calendar skips. -/
theorem nthTradingDayChecked_correct_gap :
    ∃ result, nthTradingDayChecked [1, 3, 6, 8] 4 1 = some result ∧
      (∀ d, result = some d ↔ IsNthTradingDay [1, 3, 6, 8] 4 1 d) ∧
      (result = none ↔ ∀ d, ¬ IsNthTradingDay [1, 3, 6, 8] 4 1 d) :=
  nthTradingDayChecked_correct (by decide) 4 1

theorem IsNthTradingDay.unique {calendar : List Date} (h : calendar.Pairwise (· < ·))
    {day d d' : Date} {n : Int} (hd : IsNthTradingDay calendar day n d)
    (hd' : IsNthTradingDay calendar day n d') : d = d' :=
  Option.some.inj (((nthTradingDay_eq_some_iff h).mpr hd).symm.trans
    ((nthTradingDay_eq_some_iff h).mpr hd'))

/-- Counting in a larger calendar ends on the same date exactly when it has no
further date on the way. -/
theorem IsNthTradingDay.extend_iff {calendar calendar' : List Date}
    (h : calendar.Pairwise (· < ·)) (h' : calendar'.Pairwise (· < ·))
    (hsub : calendar ⊆ calendar') {day d : Date} {n : Int}
    (hd : IsNthTradingDay calendar day n d) :
    IsNthTradingDay calendar' day n d ↔ ∀ x ∈ calendar', day < x → x < d → x ∈ calendar := by
  rcases hd with ⟨rfl, rfl, hm⟩ | ⟨hn, hm, hlt, hcount⟩
  · exact ⟨fun _ x _ hx hx' => absurd hx' hx.not_gt, fun _ => Or.inl ⟨rfl, rfl, hsub hm⟩⟩
  · have heq := countP_eq_iff_of_subset (h.imp ne_of_lt) (h'.imp ne_of_lt) hsub
      (fun c => decide (day < c ∧ c ≤ d))
    have hiff : IsNthTradingDay calendar' day n d ↔
        calendar'.countP (fun c => day < c ∧ c ≤ d) =
          calendar.countP (fun c => day < c ∧ c ≤ d) := by
      constructor
      · rintro (⟨h0, _⟩ | ⟨_, _, _, hcount'⟩)
        · omega
        · omega
      · exact fun hc => Or.inr ⟨hn, hsub hm, hlt, by omega⟩
    rw [hiff, heq]
    refine forall₂_congr fun x _ => ?_
    simp only [decide_eq_true_eq, and_imp]
    refine forall_congr' fun _ => ⟨fun hx hxd => hx hxd.le, fun hx hxd => ?_⟩
    rcases hxd.lt_or_eq with hxd | rfl
    · exact hx hxd
    · exact hm

theorem IsNthTradingDay.earlier {calendar calendar' : List Date}
    (h : calendar.Pairwise (· < ·)) (h' : calendar'.Pairwise (· < ·))
    (hsub : calendar ⊆ calendar') {day d : Date} {n : Int}
    (hd : IsNthTradingDay calendar day n d) (hnot : ¬ IsNthTradingDay calendar' day n d) :
    ∃ d' < d, IsNthTradingDay calendar' day n d' := by
  rcases hd with ⟨rfl, rfl, hm⟩ | ⟨hn, hm, hlt, hcount⟩
  · exact absurd (Or.inl ⟨rfl, rfl, hsub hm⟩) hnot
  · have hsubperm : List.Subperm calendar calendar' := List.subperm_of_subset (h.imp ne_of_lt) hsub
    have hle := hsubperm.countP_le (fun c => decide (day < c ∧ c ≤ d))
    have hne : calendar'.countP (fun c => day < c ∧ c ≤ d) ≠ n.toNat :=
      fun hc => hnot (Or.inr ⟨hn, hsub hm, hlt, by omega⟩)
    obtain ⟨k, hk⟩ : ∃ k, calendar'.countP (fun c => day < c ∧ c ≤ d) = k + 1 :=
      Nat.exists_eq_succ_of_ne_zero (by omega)
    have hlast := (getElem?_bisectRight_add h').mpr ⟨hsub hm, hlt, hk⟩
    obtain ⟨hk', hlast⟩ := List.getElem?_eq_some_iff.mp hlast
    have hlen : bisectRight calendar' day + (n.toNat - 1) < calendar'.length := by omega
    refine ⟨calendar'[bisectRight calendar' day + (n.toNat - 1)], ?_, ?_⟩
    · rw [← hlast]
      exact List.pairwise_iff_getElem.mp h' _ _ hlen hk' (by omega)
    · rw [← nthTradingDay_eq_some_iff h', nthTradingDay, if_neg (by omega), if_neg (by omega)]
      exact List.getElem?_eq_getElem hlen

def maxHorizon : Int := 120

def maxHorizons : Nat := 16

def normalizeHorizons (values : List Int) : Except String (List Int) :=
  let cleaned := distinct values
  if cleaned = [] then .error "至少需要一個 N 值。"
  else if cleaned.any (· < 0) then .error "N 不可為負數。"
  else if cleaned.any (maxHorizon < ·) then .error s!"N 最大為 {maxHorizon}。"
  else if maxHorizons < cleaned.length then .error s!"一次最多查詢 {maxHorizons} 個 N 值。"
  else .ok cleaned

theorem normalizeHorizons_ok {values horizons : List Int}
    (h : normalizeHorizons values = .ok horizons) : horizons = distinct values := by
  unfold normalizeHorizons at h
  dsimp only at h
  split_ifs at h
  exact (Except.ok.inj h).symm

theorem normalizeHorizons_nodup {values horizons : List Int}
    (h : normalizeHorizons values = .ok horizons) : horizons.Nodup := by
  rw [normalizeHorizons_ok h]
  exact (distinct_pairwise _).imp ne_of_lt

theorem mem_normalizeHorizons {values horizons : List Int}
    (h : normalizeHorizons values = .ok horizons) {n : Int} : n ∈ horizons ↔ n ∈ values := by
  rw [normalizeHorizons_ok h, mem_distinct]

theorem normalizeHorizons_ne_nil {values horizons : List Int}
    (h : normalizeHorizons values = .ok horizons) : horizons ≠ [] := by
  unfold normalizeHorizons at h
  dsimp only at h
  split_ifs at h with hnil
  exact Except.ok.inj h ▸ hnil

theorem normalizeHorizons_nonneg {values horizons : List Int}
    (h : normalizeHorizons values = .ok horizons) {n : Int} (hn : n ∈ horizons) : 0 ≤ n := by
  obtain rfl := normalizeHorizons_ok h
  unfold normalizeHorizons at h
  dsimp only at h
  split_ifs at h with _ hneg
  simp only [List.any_eq_true, decide_eq_true_eq, not_exists, not_and, not_lt] at hneg
  exact hneg n hn

end StockQuant
