import Mathlib.Algebra.Order.Group.Defs
import Mathlib.Data.List.Induction
import Mathlib.Data.List.TakeWhile
import StockQuant.SortedList

/-! Counting events in the window that ends now, from a queue that forgets old
events at moments of its own choosing. -/

namespace SlidingWindow

variable {T : Type} [AddCommGroup T] [LinearOrder T]

def live (window now : T) (events : List T) : List T := events.filter (now - window < ·)

/-- The queue holds every event but some first ones, which count no longer. -/
def Tracks (window now : T) (events queue : List T) : Prop :=
  ∃ dropped, events = dropped ++ queue ∧ ∀ x ∈ dropped, x ≤ now - window

variable {window now : T} {events queue : List T}

theorem tracks_nil : Tracks window now [] [] := ⟨[], rfl, by simp⟩

theorem Tracks.mono [IsOrderedAddMonoid T] {now' : T} (h : Tracks window now events queue)
    (hle : now ≤ now') : Tracks window now' events queue := by
  obtain ⟨dropped, he, hold⟩ := h
  exact ⟨dropped, he, fun x hx => (hold x hx).trans (sub_le_sub_right hle window)⟩

theorem Tracks.snoc (h : Tracks window now events queue) (x : T) :
    Tracks window now (events ++ [x]) (queue ++ [x]) := by
  obtain ⟨dropped, rfl, hold⟩ := h
  exact ⟨dropped, by simp, hold⟩

theorem Tracks.forget {old rest : List T} (h : Tracks window now events (old ++ rest))
    (hold : ∀ x ∈ old, x ≤ now - window) : Tracks window now events rest := by
  obtain ⟨dropped, rfl, hdropped⟩ := h
  refine ⟨dropped ++ old, by simp, fun x hx => ?_⟩
  rcases List.mem_append.mp hx with hx | hx
  · exact hdropped x hx
  · exact hold x hx

theorem Tracks.prune (h : Tracks window now events queue) :
    Tracks window now events (queue.dropWhile (· ≤ now - window)) := by
  rw [← List.takeWhile_append_dropWhile (p := (· ≤ now - window)) (l := queue)] at h
  exact h.forget fun x hx => by simpa using List.mem_takeWhile_imp hx

theorem Tracks.clear (h : Tracks window now events queue) (hsorted : events.Pairwise (· ≤ ·))
    (hlast : ∀ x, queue.getLast? = some x → x ≤ now - window) : Tracks window now events [] := by
  have hqueue : queue.Pairwise (· ≤ ·) := by
    obtain ⟨dropped, rfl, _⟩ := h
    exact (List.pairwise_append.mp hsorted).2.1
  rcases List.eq_nil_or_concat queue with rfl | ⟨rest, last, rfl⟩
  · exact h
  · rw [← List.append_nil (rest.concat last)] at h
    rw [List.concat_eq_append] at h hqueue hlast
    refine h.forget fun x hx => ?_
    have hle := hlast last (by simp)
    rcases List.mem_append.mp hx with hx | hx
    · exact ((List.pairwise_append.mp hqueue).2.2 x hx last (by simp)).trans hle
    · rwa [List.mem_singleton.mp hx]

theorem Tracks.prune_eq_live (h : Tracks window now events queue)
    (hsorted : events.Pairwise (· ≤ ·)) :
    queue.dropWhile (· ≤ now - window) = live window now events := by
  obtain ⟨dropped, rfl, hold⟩ := h
  have hnone : dropped.filter (now - window < ·) = [] := by
    rw [List.filter_eq_nil_iff]
    intro x hx
    simpa using hold x hx
  have hqueue : queue.Pairwise (· ≤ ·) := (List.pairwise_append.mp hsorted).2.1
  rw [SortedList.dropWhile_le_eq_filter hqueue, live, List.filter_append, hnone, List.nil_append]

/-- In whatever order the events came, those that count are in the queue. -/
theorem Tracks.length_live_le (h : Tracks window now events queue) :
    (live window now events).length ≤ queue.length := by
  obtain ⟨dropped, rfl, hold⟩ := h
  have hnone : dropped.filter (now - window < ·) = [] := by
    rw [List.filter_eq_nil_iff]
    intro x hx
    simpa using hold x hx
  rw [live, List.filter_append, hnone, List.nil_append]
  exact List.length_filter_le _ _

section Oldest

variable {now' first : T}

theorem live_append (window now : T) (events events' : List T) :
    live window now (events ++ events') = live window now events ++ live window now events' :=
  List.filter_append _ _

theorem mem_live {x : T} : x ∈ live window now events ↔ x ∈ events ∧ now - window < x := by
  simp [live]

theorem first_le_of_live (hsorted : events.Pairwise (· ≤ ·))
    (hfirst : (live window now events).head? = some first) {x : T}
    (hx : x ∈ live window now events) : first ≤ x := by
  obtain ⟨rest, hlive⟩ := List.head?_eq_some_iff.mp hfirst
  have hsorted' : (live window now events).Pairwise (· ≤ ·) := hsorted.filter _
  rw [hlive] at hx hsorted'
  rcases List.mem_cons.mp hx with rfl | hx
  · exact le_rfl
  · exact (List.pairwise_cons.mp hsorted').1 x hx

/-- Until then all that count go on counting. -/
theorem length_live_le [IsOrderedAddMonoid T] (hsorted : events.Pairwise (· ≤ ·))
    (hfirst : (live window now events).head? = some first) (h : now' < first + window) :
    (live window now events).length ≤ (live window now' events).length := by
  have hsub : live window now events = live window now (live window now' events) := by
    unfold live
    rw [List.filter_filter]
    refine List.filter_congr fun x hx => ?_
    by_cases hcounts : now - window < x
    · have hle := first_le_of_live hsorted hfirst (mem_live.mpr ⟨hx, hcounts⟩)
      have hlater : now' - window < x := lt_of_lt_of_le (sub_lt_iff_lt_add.mpr h) hle
      simp [hcounts, hlater]
    · simp [hcounts]
  rw [hsub]
  exact List.length_filter_le _ _

/-- From then on it is one less, unless others came. -/
theorem length_live_lt [IsOrderedAddMonoid T]
    (hfirst : (live window now events).head? = some first) (h : first + window ≤ now') :
    (live window now' events).length < (live window now events).length := by
  have hmem : first ∈ live window now events := List.mem_of_mem_head? hfirst
  have hgone : first ≤ now' - window := le_sub_iff_add_le.mpr h
  have hsub : live window now' events = live window now' (live window now events) := by
    unfold live
    rw [List.filter_filter]
    refine List.filter_congr fun x _ => ?_
    by_cases hcounts : now' - window < x
    · have hearlier : now - window < x := (mem_live.mp hmem).2.trans (hgone.trans_lt hcounts)
      simp [hcounts, hearlier]
    · simp [hcounts]
  rw [hsub]
  exact List.length_filter_lt_length_iff_exists.mpr ⟨first, hmem, by simpa using hgone⟩

end Oldest

def AtMost (limit : ℕ) (window : T) (events : List T) : Prop :=
  ∀ t, events.countP (fun x => t < x ∧ x ≤ t + window) ≤ limit

section AtMost

variable {limit : ℕ}

theorem atMost_nil : AtMost limit window [] := fun _ => by simp

theorem AtMost.sublist {events' : List T} (h : AtMost limit window events)
    (hsub : events'.Sublist events) : AtMost limit window events' :=
  fun t => (hsub.countP_le).trans (h t)

/-- An event that finds room in the window that ends with it keeps every window in bounds. -/
theorem AtMost.snoc [IsOrderedAddMonoid T] (h : AtMost limit window events)
    (hroom : (live window now events).length < limit) : AtMost limit window (events ++ [now]) := by
  intro t
  rw [List.countP_append, List.countP_singleton]
  split_ifs with hnow
  · -- What counts in the window at `t` still counts now.
    obtain ⟨-, hle⟩ := of_decide_eq_true hnow
    have hlive : events.countP (fun x => t < x ∧ x ≤ t + window) ≤
        events.countP (now - window < ·) := by
      refine List.countP_mono_left fun x _ hx => ?_
      obtain ⟨hlt, -⟩ := of_decide_eq_true hx
      exact decide_eq_true (lt_of_le_of_lt (sub_le_iff_le_add.mpr hle) hlt)
    rw [live, ← List.countP_eq_length_filter] at hroom
    omega
  · exact h t

theorem AtMost.length_live_le [IsOrderedAddMonoid T] (h : AtMost limit window events)
    (hpast : ∀ x ∈ events, x ≤ now) : (live window now events).length ≤ limit := by
  refine le_trans (le_of_eq ?_) (h (now - window))
  rw [live, ← List.countP_eq_length_filter]
  refine List.countP_congr fun x hx => ?_
  simp [hpast x hx]

end AtMost

section Admitted

variable {α : Type} {limit : Nat}

def letIn (limit : Nat) (window : T) (kept : List (T × α)) (e : T × α) : List (T × α) :=
  if (live window e.1 (kept.map Prod.fst)).length < limit then kept ++ [e] else kept

def admitted (limit : Nat) (window : T) (events : List (T × α)) : List (T × α) :=
  events.foldl (letIn limit window) []

theorem admitted_snoc (events : List (T × α)) (e : T × α) :
    admitted limit window (events ++ [e]) = letIn limit window (admitted limit window events) e := by
  simp [admitted]

theorem admitted_sublist (events : List (T × α)) :
    (admitted limit window events).Sublist events := by
  induction events using List.reverseRecOn with
  | nil => exact List.Sublist.refl _
  | append_singleton events e ih =>
    rw [admitted_snoc, letIn]
    split_ifs
    · exact ih.append (List.Sublist.refl _)
    · exact ih.trans (List.sublist_append_left _ _)

theorem length_live_map_fst (window now : T) (events : List (T × α)) :
    (live window now (events.map Prod.fst)).length =
      events.countP (fun e => now - window < e.1) := by
  rw [live, ← List.countP_eq_length_filter, List.countP_map]
  rfl

end Admitted

end SlidingWindow
