import Mathlib.Data.Fintype.Basic
import Mathlib.Data.List.Induction
import Mathlib.Logic.Function.Basic
import Mathlib.Logic.Relation

/-! Sessions that interleave on one store under READ COMMITTED: a statement reads
the rows committed when it runs, and a session's writes take effect together at
its commit. Row locks only rule interleavings out: a schedule respects those that
a session keeps from one statement to the next when all of its steps are `Unblocked`. -/

namespace ReadCommitted

/-- The next thing a session does: read the store, commit writes that the store
may refuse, or work on its own. -/
inductive Action (S L : Type) where
  | read (next : S → L)
  | commit (write : S → Option S) (done refused : L)
  | work (next : L)

structure Config (ι S L : Type) where
  store : S
  session : ι → L

variable {ι S L X : Type} [DecidableEq ι]

def Action.perform (action : Action S L) (store : S) : S × L :=
  match action with
  | .read next => (store, next store)
  | .work next => (store, next)
  | .commit write done refused =>
    match write store with
    | some store => (store, done)
    | none => (store, refused)

@[simp] theorem perform_read (next : S → L) (store : S) :
    (Action.read next).perform store = (store, next store) := rfl

@[simp] theorem perform_work (next : L) (store : S) :
    (Action.work next).perform store = (store, next) := rfl

@[simp] theorem perform_commit_some (write : S → S) (done refused : L) (store : S) :
    (Action.commit (fun store => some (write store)) done refused).perform store =
      (write store, done) := rfl

/-- An action of a part of the session. -/
def Action.map {K : Type} (f : K → L) : Action S K → Action S L
  | .read next => .read fun store => f (next store)
  | .commit write done refused => .commit write (f done) (f refused)
  | .work next => .work (f next)

@[simp] theorem perform_map {K : Type} (f : K → L) (action : Action S K) (store : S) :
    (action.map f).perform store = ((action.perform store).1, f (action.perform store).2) := by
  cases action with
  | read next => rfl
  | work next => rfl
  | commit write done refused =>
    simp only [Action.map, Action.perform]
    cases write store <;> rfl

def step (program : ι → X → L → Action S L) (c : Config ι S L) (i : ι) (x : X) : Config ι S L where
  store := ((program i x (c.session i)).perform c.store).1
  session := Function.update c.session i ((program i x (c.session i)).perform c.store).2

variable {program : ι → X → L → Action S L}

@[simp] theorem step_store (c : Config ι S L) (i : ι) (x : X) :
    (step program c i x).store = ((program i x (c.session i)).perform c.store).1 := rfl

@[simp] theorem step_session_self (c : Config ι S L) (i : ι) (x : X) :
    (step program c i x).session i = ((program i x (c.session i)).perform c.store).2 :=
  Function.update_self _ _ _

theorem step_eq_perform (c : Config ι S L) (i : ι) (x : X) :
    ((step program c i x).store, (step program c i x).session i) =
      (program i x (c.session i)).perform c.store :=
  Prod.ext rfl (step_session_self c i x)

theorem step_session_of_ne (c : Config ι S L) {i j : ι} (h : j ≠ i) (x : X) :
    (step program c i x).session j = c.session j :=
  Function.update_of_ne h _ _

def Reaches (program : ι → X → L → Action S L) (allowed : Config ι S L → ι → X → Prop) :
    Config ι S L → Config ι S L → Prop :=
  Relation.ReflTransGen fun c c' => ∃ i x, allowed c i x ∧ c' = step program c i x

variable {allowed : Config ι S L → ι → X → Prop}

theorem Reaches.invariant {c c' : Config ι S L} (h : Reaches program allowed c c')
    (holds : Config ι S L → Prop) (hstart : holds c)
    (hstep : ∀ c i x, holds c → allowed c i x → holds (step program c i x)) : holds c' := by
  induction h with
  | refl => exact hstart
  | tail _ hlast ih =>
    obtain ⟨i, x, hx, rfl⟩ := hlast
    exact hstep _ i x ih hx

/-- No other session keeps the row locked that the next statement writes. -/
def Unblocked {R : Type} (locks writes : L → Option R) (c : Config ι S L) (i : ι) : Prop :=
  ∀ j, j ≠ i → ∀ row ∈ locks (c.session j), writes (c.session i) ≠ some row

instance decidableUnblocked {R : Type} [DecidableEq R] [Fintype ι] (locks writes : L → Option R)
    (c : Config ι S L) (i : ι) : Decidable (Unblocked locks writes c i) :=
  inferInstanceAs (Decidable (∀ j, j ≠ i → ∀ row ∈ locks (c.session j),
    writes (c.session i) ≠ some row))

def alone (program : X → L → Action S L) (x : ℕ → X) (start : S × L) : ℕ → S × L
  | 0 => start
  | n + 1 => (program (x n) (alone program x start n).2).perform (alone program x start n).1

/-- What holds at the start and is kept by every step holds after any number of steps. -/
theorem alone_invariant (program : X → L → Action S L) (x : ℕ → X) (start : S × L)
    (holds : ℕ → S × L → Prop) (hstart : holds 0 start)
    (hstep : ∀ n s, holds n s → holds (n + 1) ((program (x n) s.2).perform s.1)) (n : ℕ) :
    holds n (alone program x start n) := by
  induction n with
  | zero => exact hstart
  | succ n ih => exact hstep n _ ih

/-- A part of a session that runs alone does what it does by itself. -/
theorem alone_map {K : Type} {part : X → K → Action S K} {program : X → L → Action S L} (f : K → L)
    (hpart : ∀ x p, program x (f p) = (part x p).map f) (x : ℕ → X) (s : S) (p : K) (n : ℕ) :
    alone program x (s, f p) n =
      ((alone part x (s, p) n).1, f (alone part x (s, p) n).2) := by
  induction n with
  | zero => rfl
  | succ n ih => rw [alone, ih, hpart, perform_map, alone]

theorem alone_succ (program : X → L → Action S L) (x : X) (start : S × L) (n : ℕ) :
    alone program (fun _ => x) start (n + 1) =
      alone program (fun _ => x) ((program x start.2).perform start.1) n := by
  induction n with
  | zero => rfl
  | succ n ih => rw [alone, ih, alone]

theorem alone_of_fixed {program : X → L → Action S L} {x : X} {start : S × L}
    (h : (program x start.2).perform start.1 = start) (n : ℕ) :
    alone program (fun _ => x) start n = start := by
  induction n with
  | zero => rfl
  | succ n ih => rw [alone, ih, h]

/-- What a session comes to on a store that it leaves as it is. -/
def ComesTo (program : L → Action S L) (s : S) : L → L → Prop :=
  Relation.ReflTransGen fun l l' => (program l).perform s = (s, l')

/-- A session that has come to its end stays there. -/
theorem ComesTo.stays {program : L → Action S L} {s : S} {l last : L}
    (h : ComesTo program s l last) (hlast : (program last).perform s = (s, last)) :
    ∃ n, ∀ m, n ≤ m → alone (fun _ : Unit => program) (fun _ => ()) (s, l) m = (s, last) := by
  induction h using Relation.ReflTransGen.head_induction_on with
  | refl => exact ⟨0, fun m _ => alone_of_fixed hlast m⟩
  | head hstep _ ih =>
    obtain ⟨n, hn⟩ := ih
    refine ⟨n + 1, fun m hm => ?_⟩
    obtain ⟨m, rfl⟩ := Nat.exists_eq_add_of_le' hm
    rw [← Nat.add_assoc, alone_succ, hstep]
    exact hn (m + n) (Nat.le_add_left n m)

/-- A session that has a part to do, and goes on from where that ends. -/
theorem ComesTo.goOn {K : Type} {part : K → Action S K} {program : L → Action S L} {s : S}
    {p q : K} (h : ComesTo part s p q) (goOn : K → L)
    (hasks : ∀ p, (part p).perform s = (s, p) ∨ program (goOn p) = (part p).map goOn) :
    ComesTo program s (goOn p) (goOn q) := by
  refine Relation.ReflTransGen.lift' goOn (fun a b hstep => ?_) _ _ h
  rcases hasks a with hdone | hmap
  · obtain rfl : b = a := congrArg Prod.snd (hstep.symm.trans hdone)
    exact Relation.ReflTransGen.refl
  · refine Relation.ReflTransGen.single ?_
    rw [hmap, perform_map, hstep]

def run (program : ι → X → L → Action S L) (c : Config ι S L) (schedule : List (ι × X)) :
    Config ι S L :=
  schedule.foldl (fun c event => step program c event.1 event.2) c

def Follows (program : ι → X → L → Action S L) (allowed : Config ι S L → ι → X → Prop)
    (c : Config ι S L) : List (ι × X) → Prop
  | [] => True
  | event :: rest =>
    allowed c event.1 event.2 ∧ Follows program allowed (step program c event.1 event.2) rest

instance decidableFollows [∀ c i x, Decidable (allowed c i x)] (c : Config ι S L) :
    (schedule : List (ι × X)) → Decidable (Follows program allowed c schedule)
  | [] => inferInstanceAs (Decidable True)
  | event :: rest =>
    have := decidableFollows (step program c event.1 event.2) rest
    inferInstanceAs (Decidable (_ ∧ _))

/-- What every step keeps holds after any run. -/
theorem run_invariant {c : Config ι S L} (holds : Config ι S L → Prop)
    (hstep : ∀ c i x, holds c → holds (step program c i x)) (schedule : List (ι × X))
    (hstart : holds c) : holds (run program c schedule) := by
  induction schedule generalizing c with
  | nil => exact hstart
  | cons event rest ih => exact ih (hstep c event.1 event.2 hstart)

theorem session_run_of_not_mem {c : Config ι S L} {schedule : List (ι × X)} {i : ι}
    (h : i ∉ schedule.map Prod.fst) : (run program c schedule).session i = c.session i := by
  induction schedule generalizing c with
  | nil => rfl
  | cons event rest ih =>
    rw [List.map_cons, List.mem_cons, not_or] at h
    exact (ih h.2).trans (step_session_of_ne c h.1 event.2)

theorem reaches_run {c : Config ι S L} {schedule : List (ι × X)}
    (h : Follows program allowed c schedule) :
    Reaches program allowed c (run program c schedule) := by
  induction schedule generalizing c with
  | nil => exact Relation.ReflTransGen.refl
  | cons event rest ih =>
    exact Relation.ReflTransGen.head ⟨event.1, event.2, h.1, rfl⟩ (ih h.2)

/-- When the allowed steps keep what holds and every other step spoils it for good, a run is
spoiled or all of its steps are allowed. -/
theorem follows_or_spoiled (holds spoiled : Config ι S L → Prop)
    (hkeeps : ∀ c i x, holds c → allowed c i x → holds (step program c i x))
    (hspoils : ∀ c i x, holds c → ¬ allowed c i x → spoiled (step program c i x))
    (hspoiled : ∀ c i x, spoiled c → spoiled (step program c i x)) {c : Config ι S L}
    (schedule : List (ι × X)) (hstart : holds c) :
    Follows program allowed c schedule ∨ spoiled (run program c schedule) := by
  induction schedule generalizing c with
  | nil => exact Or.inl trivial
  | cons event rest ih =>
    by_cases hallowed : allowed c event.1 event.2
    · have hrest := ih (hkeeps c event.1 event.2 hstart hallowed)
      exact hrest.imp_left fun hfollows => ⟨hallowed, hfollows⟩
    · have hspoilt := hspoils c event.1 event.2 hstart hallowed
      exact Or.inr (run_invariant spoiled hspoiled rest hspoilt)

theorem run_eq_alone (c : Config ι S L) (i : ι) (x : ℕ → X) (n : ℕ) :
    run program c ((List.range n).map fun k => (i, x k)) =
      { store := (alone (program i) x (c.store, c.session i) n).1
        session := Function.update c.session i
          (alone (program i) x (c.store, c.session i) n).2 } := by
  induction n with
  | zero => simp [run, alone]
  | succ n ih =>
    rw [List.range_succ, List.map_append]
    unfold run at ih ⊢
    rw [List.foldl_append, ih]
    simp [step, alone]

theorem run_snoc (c : Config ι S L) (schedule : List (ι × X)) (i : ι) (x : X) :
    run program c (schedule ++ [(i, x)]) = step program (run program c schedule) i x := by
  simp [run]

theorem follows_append {c : Config ι S L} {first second : List (ι × X)} :
    Follows program allowed c (first ++ second) ↔
      Follows program allowed c first ∧ Follows program allowed (run program c first) second := by
  induction first generalizing c with
  | nil => simp [Follows, run]
  | cons event first ih =>
    rw [List.cons_append, Follows, Follows, ih, and_assoc]
    rfl

theorem follows_all (c : Config ι S L) (schedule : List (ι × X)) :
    Follows program (fun _ _ _ => True) c schedule := by
  induction schedule generalizing c with
  | nil => trivial
  | cons event rest ih => exact ⟨trivial, ih _⟩

/-- What a session knows of the run: its own steps may use the store as it is, and those of the
others leave it where it is. -/
theorem session_invariant {c : Config ι S L} {j : ι} (knows : List (ι × X) → S → L → Prop)
    (hstart : knows [] c.store (c.session j))
    (hown : ∀ schedule x, let now := run program c schedule
      knows schedule now.store (now.session j) →
      knows (schedule ++ [(j, x)]) ((program j x (now.session j)).perform now.store).1
        ((program j x (now.session j)).perform now.store).2)
    (hother : ∀ schedule i x, let now := run program c schedule
      i ≠ j → allowed now i x → knows schedule now.store (now.session j) →
      knows (schedule ++ [(i, x)]) (step program now i x).store (now.session j))
    {schedule : List (ι × X)} (h : Follows program allowed c schedule) :
    knows schedule (run program c schedule).store ((run program c schedule).session j) := by
  induction schedule using List.reverseRecOn with
  | nil => exact hstart
  | append_singleton schedule event ih =>
    obtain ⟨i, x⟩ := event
    obtain ⟨hbefore, hlast, -⟩ := follows_append.mp h
    rw [run_snoc]
    by_cases hij : i = j
    · subst hij
      rw [step_store, step_session_self]
      exact hown schedule x (ih hbefore)
    · rw [step_session_of_ne _ (Ne.symm hij)]
      exact hother schedule i x hij hlast (ih hbefore)

/-- How many steps the session has taken. -/
def stepCount (j : ι) (schedule : List (ι × X)) : ℕ := (schedule.map Prod.fst).count j

@[simp] theorem stepCount_snoc_self (j : ι) (schedule : List (ι × X)) (x : X) :
    stepCount j (schedule ++ [(j, x)]) = stepCount j schedule + 1 := by
  simp [stepCount]

theorem stepCount_snoc_of_ne {i j : ι} (h : i ≠ j) (schedule : List (ι × X)) (x : X) :
    stepCount j (schedule ++ [(i, x)]) = stepCount j schedule := by
  simp [stepCount, h]

/-- The store that the session finds at the statement that comes after so many others of it. -/
def FindsAt (program : ι → X → L → Action S L) (c : Config ι S L) (schedule : List (ι × X)) (j : ι)
    (n : ℕ) (s : S) : Prop :=
  ∃ before x after, schedule = before ++ (j, x) :: after ∧ stepCount j before = n ∧
    (run program c before).store = s

variable {c : Config ι S L} {schedule : List (ι × X)} {j : ι} {n : ℕ} {s : S}

theorem FindsAt.later (h : FindsAt program c schedule j n s) (event : ι × X) :
    FindsAt program c (schedule ++ [event]) j n s := by
  obtain ⟨before, x, after, rfl, hcount, hstore⟩ := h
  exact ⟨before, x, after ++ [event], by simp, hcount, hstore⟩

theorem findsAt_last (program : ι → X → L → Action S L) (c : Config ι S L)
    (schedule : List (ι × X)) (j : ι) (x : X) :
    FindsAt program c (schedule ++ [(j, x)]) j (stepCount j schedule)
      (run program c schedule).store :=
  ⟨schedule, x, [], rfl, rfl, rfl⟩

def Action.onPart {T : Type} (get : T → S) (set : T → S → T) : Action S L → Action T L
  | .read next => .read fun t => next (get t)
  | .commit write done refused => .commit (fun t => (write (get t)).map (set t)) done refused
  | .work next => .work next

theorem perform_onPart {T : Type} {get : T → S} {set : T → S → T}
    (hset : ∀ t, set t (get t) = t) (action : Action S L) (t : T) :
    (action.onPart get set).perform t =
      (set t (action.perform (get t)).1, (action.perform (get t)).2) := by
  cases action with
  | read next => exact Prod.ext (hset t).symm rfl
  | work next => exact Prod.ext (hset t).symm rfl
  | commit write done refused =>
    simp only [Action.onPart, Action.perform]
    cases write (get t) with
    | none => exact Prod.ext (hset t).symm rfl
    | some s => rfl

end ReadCommitted
