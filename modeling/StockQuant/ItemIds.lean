import StockQuant.MarketSessions

/-! Ids of items while ingests commit: what an ingest deletes belongs to the snapshot that it has
found, however late it commits. -/

namespace StockQuant

open ReadCommitted

variable {L ι : Type} [LinearOrder L] [DecidableEq ι]

/-- The header an ingest is about to write over, with the items it deletes. -/
def MarketPoint.replacing : MarketPoint → Option (ScreenSnapshot × List Uuid)
  | .snapshot (.replace existing deleted) => some (existing, deleted)
  | _ => none

/-- An ingest that has yet to commit. -/
def MarketPoint.ingesting : MarketPoint → Bool
  | .snapshot .select | .snapshot (.delete _) | .snapshot (.replace _ _) | .snapshot .create => true
  | _ => false

/-- The item ids that the ingests draw are new, and no two ingests draw the same. -/
structure ItemIdsDrawn (requests : ι → MarketRequest) (store : SnapshotStore) : Prop where
  unstored : ∀ i body ids, requests i = .snapshot body ids →
    ∀ k < body.items.length, ids.itemId k ∉ store.items.map (·.id)
  apart : ∀ i body ids, requests i = .snapshot body ids →
    ∀ i' body' ids', requests i' = .snapshot body' ids' → i ≠ i' →
      ∀ k < body.items.length, ∀ k' < body'.items.length, ids.itemId k ≠ ids'.itemId k'

/-- What an ingest is about to insert is neither stored nor about to be deleted, and what it is
about to delete belongs to the snapshot that it has found. -/
structure IdsApart (requests : ι → MarketRequest) (c : Config ι MarketTables MarketPoint) :
    Prop where
  unused : ∀ i body ids, requests i = .snapshot body ids → (c.session i).ingesting →
    ∀ k < body.items.length, ids.itemId k ∉ c.store.store.items.map (·.id) ∧
      ∀ i', ∀ replaced ∈ (c.session i').replacing, ids.itemId k ∉ replaced.2
  owned : ∀ i, ∀ replaced ∈ (c.session i).replacing, ∀ item ∈ c.store.store.items,
    item.id ∈ replaced.2 → item.snapshotId = replaced.1.id

omit [DecidableEq ι] in
theorem idsApart_start {requests : ι → MarketRequest} {c : Config ι MarketTables MarketPoint}
    (hdrawn : ItemIdsDrawn requests c.store.store)
    (hstart : ∀ i, c.session i = (requests i).start) : IdsApart requests c := by
  have hnone (i : ι) : (c.session i).replacing = none := by
    rw [hstart]
    cases requests i <;> rfl
  constructor
  · intro i body ids hrequest _ k hk
    refine ⟨hdrawn.unstored i body ids hrequest k hk, fun i' replaced hreplaced => ?_⟩
    simp [hnone] at hreplaced
  · intro i replaced hreplaced
    simp [hnone] at hreplaced

/-- What one step does to the items, and to the ingest that takes it. -/
inductive ItemsStep (requests : ι → MarketRequest) (i : ι)
    (c c' : Config ι MarketTables MarketPoint) : Prop where
  | kept (hsame : c'.store.store = c.store.store)
      (hingesting : (c'.session i).ingesting → (c.session i).ingesting)
      (hreplacing : ∀ replaced ∈ (c'.session i).replacing, replaced ∈ (c.session i).replacing ∨
        replaced.2 = (itemsOf c.store.store replaced.1.id).map (·.id))
  | inserted (body : SnapshotIngestBody) (ids : SnapshotIds)
      (hrequest : requests i = .snapshot body ids) (hbefore : (c.session i).ingesting)
      (hafter : (c'.session i).ingesting = false) (hnone : (c'.session i).replacing = none)
      (hitems : ∀ item ∈ c'.store.store.items,
        item ∈ c.store.store.items ∨ ∃ k < body.items.length, item.id = ids.itemId k)

omit [DecidableEq ι] in
theorem ItemsStep.of_quiet {requests : ι → MarketRequest}
    {c c' : Config ι MarketTables MarketPoint} {i : ι} (hsame : c'.store.store = c.store.store)
    (hingesting : (c'.session i).ingesting = false) (hreplacing : (c'.session i).replacing = none) :
    ItemsStep requests i c c' :=
  .kept hsame (by simp [hingesting]) (by simp [hreplacing])

omit [DecidableEq ι] in
/-- What a step of an ingest does to the items. -/
theorem ItemsStep.of_upsert {requests : ι → MarketRequest}
    {c c' : Config ι MarketTables MarketPoint} {i : ι} {body : SnapshotIngestBody}
    {ids : SnapshotIds} {point next : UpsertPoint} (hrequest : requests i = .snapshot body ids)
    (hsession : c.session i = .snapshot point)
    (hperform : (upsertAction body ids point).perform c.store.store = (c'.store.store, next))
    (hnext : c'.session i = .snapshot next) : ItemsStep requests i c c' := by
  have hcommit {snapshotId : Uuid} {rows kept : List ScreenSnapshotItem} {replaced : Bool}
      (hbefore : (c.session i).ingesting) (hrows : body.rows ids snapshotId = some rows)
      (hkept : kept ⊆ c.store.store.items) (hitems : c'.store.store.items = kept ++ rows)
      (hdone : next = .refresh snapshotId replaced) : ItemsStep requests i c c' := by
    rw [hdone] at hnext
    refine .inserted body ids hrequest hbefore (by rw [hnext]; rfl) (by rw [hnext]; rfl)
      fun item hitem => ?_
    rw [hitems] at hitem
    exact (List.mem_append.mp hitem).imp (fun h => hkept h) fun h => (mem_rows hrows h).2
  cases point with
  | select =>
    obtain ⟨hstore, hpoint⟩ := Prod.mk.inj hperform
    refine .kept hstore.symm (fun _ => by rw [hsession]; rfl) fun replaced hreplaced => ?_
    rw [hnext, ← hpoint] at hreplaced
    dsimp only at hreplaced
    split at hreplaced <;> cases hreplaced
  | delete existing =>
    obtain ⟨hstore, hpoint⟩ := Prod.mk.inj hperform
    refine .kept hstore.symm (fun _ => by rw [hsession]; rfl) fun replaced hreplaced => Or.inr ?_
    rw [hnext, ← hpoint] at hreplaced
    cases hreplaced
    rfl
  | replace existing deleted =>
    cases hwrite : body.replace ids existing deleted c.store.store with
    | none =>
      simp only [upsertAction, Action.perform, hwrite, Prod.mk.injEq] at hperform
      obtain ⟨hstore, rfl⟩ := hperform
      exact .of_quiet hstore.symm (by rw [hnext]; rfl) (by rw [hnext]; rfl)
    | some store' =>
      simp only [upsertAction, Action.perform, hwrite, Prod.mk.injEq] at hperform
      obtain ⟨rfl, hdone⟩ := hperform
      obtain ⟨rows, hrows, -, hitems⟩ := replace_eq_some hwrite
      exact hcommit (by rw [hsession]; rfl) hrows List.filter_sublist.subset hitems hdone.symm
  | create =>
    cases hwrite : body.create ids c.store.store with
    | none =>
      simp only [upsertAction, Action.perform, hwrite, Prod.mk.injEq] at hperform
      obtain ⟨hstore, rfl⟩ := hperform
      exact .of_quiet hstore.symm (by rw [hnext]; rfl) (by rw [hnext]; rfl)
    | some store' =>
      simp only [upsertAction, Action.perform, hwrite, Prod.mk.injEq] at hperform
      obtain ⟨rfl, hdone⟩ := hperform
      obtain ⟨rows, hrows, -, hitems⟩ := create_eq_some hwrite
      exact hcommit (by rw [hsession]; rfl) hrows (List.Subset.refl _) hitems hdone.symm
  | refresh snapshotId replaced =>
    obtain ⟨hstore, hpoint⟩ := Prod.mk.inj hperform
    dsimp only at hpoint
    split at hpoint
    all_goals
      subst hpoint
      exact .of_quiet hstore.symm (by rw [hnext]; rfl) (by rw [hnext]; rfl)
  | finished | failed =>
    obtain ⟨hstore, rfl⟩ := Prod.mk.inj hperform
    exact .of_quiet hstore.symm (by rw [hnext]; rfl) (by rw [hnext]; rfl)

theorem itemsStep (env : MarketEnv L) (requests : ι → MarketRequest)
    (c : Config ι MarketTables MarketPoint) (i : ι) (x : Unit) :
    ItemsStep requests i c (step (marketProgram env requests) c i x) := by
  cases marketStep env requests c i x with
  | snapshot body ids point next hrequest hsession hperform hprices hnext =>
    exact .of_upsert hrequest hsession hperform hnext
  | prices body point next hrequest hsession hperform hstore hnext =>
    exact .of_quiet hstore (by rw [hnext]; rfl) (by rw [hnext]; rfl)
  | reads htables hnext =>
    have hstore := congrArg MarketTables.store htables
    rcases hnext with hreading | hsame
    · generalize hpoint : (step (marketProgram env requests) c i x).session i = point at hreading
      cases point with
      | snapshot | prices => cases hreading
      | _ => exact .of_quiet hstore (by rw [hpoint]; rfl) (by rw [hpoint]; rfl)
    · exact .kept hstore (by rw [hsame]; exact id) (by rw [hsame]; exact fun _ => Or.inl)

theorem owned_of_deleted {store : SnapshotStore} {snapshotId : Uuid} {item : ScreenSnapshotItem}
    (hitem : item ∈ store.items) (hdeleted : item.id ∈ (itemsOf store snapshotId).map (·.id)) :
    item.snapshotId = snapshotId := by
  obtain ⟨old, hold, hid⟩ := List.mem_map.mp hdeleted
  obtain ⟨hstored, hof⟩ := List.mem_filter.mp hold
  obtain rfl := List.inj_on_of_nodup_map store.itemIds_nodup hstored hitem hid
  exact of_decide_eq_true hof

theorem IdsApart.after {env : MarketEnv L} {requests : ι → MarketRequest}
    {c : Config ι MarketTables MarketPoint} (h : IdsApart requests c) {tables : SnapshotStore}
    (hdrawn : ItemIdsDrawn requests tables) (i : ι) (x : Unit) :
    IdsApart requests (step (marketProgram env requests) c i x) := by
  have hother {k : ι} (hk : k ≠ i) :
      (step (marketProgram env requests) c i x).session k = c.session k :=
    step_session_of_ne c hk x
  cases itemsStep env requests c i x with
  | kept hsame hingesting hreplacing =>
    constructor
    · intro k body ids hrequest hk n hn
      have hbefore : (c.session k).ingesting := by
        by_cases hki : k = i
        · subst hki
          exact hingesting hk
        · rwa [hother hki] at hk
      obtain ⟨hstored, hdeleted⟩ := h.unused k body ids hrequest hbefore n hn
      refine ⟨hsame ▸ hstored, fun m replaced hreplaced => ?_⟩
      by_cases hmi : m = i
      · subst hmi
        rcases hreplacing replaced hreplaced with hold | hread
        · exact hdeleted m replaced hold
        · rw [hread]
          exact fun hmem => hstored (List.map_subset _ List.filter_sublist.subset hmem)
      · rw [hother hmi] at hreplaced
        exact hdeleted m replaced hreplaced
    · intro m replaced hreplaced item hitem hmem
      rw [hsame] at hitem
      by_cases hmi : m = i
      · subst hmi
        rcases hreplacing replaced hreplaced with hold | hread
        · exact h.owned m replaced hold item hitem hmem
        · exact owned_of_deleted hitem (hread ▸ hmem)
      · rw [hother hmi] at hreplaced
        exact h.owned m replaced hreplaced item hitem hmem
  | inserted body ids hrequest hbefore hafter hnone hitems =>
    have hreplacing {m : ι} {replaced : ScreenSnapshot × List Uuid}
        (hreplaced : replaced ∈ ((step (marketProgram env requests) c i x).session m).replacing) :
        replaced ∈ (c.session m).replacing := by
      by_cases hmi : m = i
      · subst hmi
        rw [hnone] at hreplaced
        cases hreplaced
      · rwa [hother hmi] at hreplaced
    constructor
    · intro k body' ids' hrequest' hk n hn
      have hki : k ≠ i := by
        rintro rfl
        rw [hafter] at hk
        cases hk
      rw [hother hki] at hk
      obtain ⟨hstored, hdeleted⟩ := h.unused k body' ids' hrequest' hk n hn
      refine ⟨fun hmem => ?_, fun m replaced hreplaced => hdeleted m replaced (hreplacing hreplaced)⟩
      obtain ⟨item, hitem, hid⟩ := List.mem_map.mp hmem
      rcases hitems item hitem with hold | ⟨k', hk', hid'⟩
      · exact hstored (hid ▸ List.mem_map_of_mem hold)
      · exact hdrawn.apart k body' ids' hrequest' i body ids hrequest hki n hn k' hk'
          (hid.symm.trans hid')
    · intro m replaced hreplaced item hitem hmem
      rcases hitems item hitem with hold | ⟨k', hk', hid'⟩
      · exact h.owned m replaced (hreplacing hreplaced) item hold hmem
      · have hunused := (h.unused i body ids hrequest hbefore k' hk').2 m replaced
          (hreplacing hreplaced)
        exact absurd (hid' ▸ hmem) hunused

end StockQuant
