import Mathlib.Data.List.Forall2
import StockQuant.SnapshotIngest

/-! What the commit of `upsert_snapshot` leaves of the snapshot it writes. -/

namespace StockQuant

def ItemsAre (body : SnapshotIngestBody) (snapshotId : Uuid) (rows : List ScreenSnapshotItem) :
    Prop :=
  List.Forall₂ (fun item row => ∃ id, item.row id snapshotId = some row) body.items rows

structure Holds (body : SnapshotIngestBody) (store : SnapshotStore) (snapshotId : Uuid) : Prop where
  header : ∃ s ∈ store.snapshots,
    s.id = snapshotId ∧ s.key = body.key ∧ s.itemCount = body.itemCount
  items : ItemsAre body snapshotId (itemsOf store snapshotId)

theorem forall₂_of_mapM {α β : Type} {f : α → Option β} {l : List α} {r : List β}
    (h : l.mapM f = some r) : List.Forall₂ (fun a b => f a = some b) l r := by
  induction l generalizing r with
  | nil =>
    obtain rfl := Option.some_inj.mp h
    exact .nil
  | cons a l ih =>
    rw [List.mapM_cons] at h
    obtain ⟨b, hb, h⟩ := Option.bind_eq_some_iff.mp h
    obtain ⟨s, hs, h⟩ := Option.bind_eq_some_iff.mp h
    obtain rfl := Option.some_inj.mp h
    exact .cons hb (ih hs)

theorem isSome_mapM_iff {α β : Type} {f : α → Option β} {l : List α} :
    (l.mapM f).isSome ↔ ∀ a ∈ l, (f a).isSome := by
  induction l with
  | nil => simp
  | cons a l ih =>
    rw [List.mapM_cons, List.forall_mem_cons, ← ih]
    cases f a with
    | none => simp
    | some b => cases l.mapM f <;> simp

theorem row_ids {item : SnapshotItemIn} {id snapshotId : Uuid} {row : ScreenSnapshotItem}
    (h : item.row id snapshotId = some row) : row.id = id ∧ row.snapshotId = snapshotId := by
  unfold SnapshotItemIn.row at h
  iterate 18 obtain ⟨_, _, h⟩ := Option.bind_eq_some_iff.mp h
  obtain rfl := Option.some_inj.mp h
  exact ⟨rfl, rfl⟩

variable {body first second : SnapshotIngestBody} {ids : SnapshotIds} {snapshotId : Uuid}
  {store store' : SnapshotStore} {rows : List ScreenSnapshotItem}

theorem itemsAre_of_rows (h : body.rows ids snapshotId = some rows) :
    ItemsAre body snapshotId rows := by
  have hrows := forall₂_of_mapM h
  have hfst : body.items = body.items.zipIdx.map Prod.fst := (List.zipIdx_map_fst _ _).symm
  unfold ItemsAre
  rw [hfst, List.forall₂_map_left_iff]
  exact hrows.imp fun item row hrow => ⟨_, hrow⟩

theorem mem_rows (h : body.rows ids snapshotId = some rows) {row : ScreenSnapshotItem}
    (hrow : row ∈ rows) :
    row.snapshotId = snapshotId ∧ ∃ k < body.items.length, row.id = ids.itemId k := by
  have hrows := forall₂_of_mapM h
  obtain ⟨k, hk, rfl⟩ := List.getElem_of_mem hrow
  have hk' : k < body.items.zipIdx.length := hrows.length_eq ▸ hk
  obtain ⟨hid, hsid⟩ := row_ids (hrows.get hk' hk)
  refine ⟨hsid, k, by simpa using hk', ?_⟩
  simpa using hid

theorem ofRows?_eq_some {snapshots : List ScreenSnapshot} {items : List ScreenSnapshotItem}
    (h : SnapshotStore.ofRows? snapshots items = some store) :
    store.snapshots = snapshots ∧ store.items = items := by
  unfold SnapshotStore.ofRows? at h
  split at h
  · obtain rfl := Option.some_inj.mp h
    exact ⟨rfl, rfl⟩
  · cases h

theorem replace_eq_some {loaded : ScreenSnapshot} {deleted : List Uuid}
    (h : body.replace ids loaded deleted store = some store') :
    ∃ rows, body.rows ids loaded.id = some rows ∧
      store'.snapshots = store.snapshots.map
        (fun s => if s.id = loaded.id then body.update loaded s else s) ∧
      store'.items = store.items.filter (·.id ∉ deleted) ++ rows := by
  unfold SnapshotIngestBody.replace at h
  split at h
  · next rows _ hrows => exact ⟨rows, hrows, ofRows?_eq_some h⟩
  · cases h

theorem create_eq_some (h : body.create ids store = some store') :
    ∃ rows, body.rows ids ids.snapshotId = some rows ∧
      store'.snapshots = body.header ids.snapshotId :: store.snapshots ∧
      store'.items = store.items ++ rows := by
  unfold SnapshotIngestBody.create at h
  split at h
  · next rows _ hrows => exact ⟨rows, hrows, ofRows?_eq_some h⟩
  · cases h

theorem findSnapshot_eq_some_iff {key : Date × String} {s : ScreenSnapshot} :
    findSnapshot store key = some s ↔ s ∈ store.snapshots ∧ s.key = key := by
  unfold findSnapshot
  constructor
  · intro h
    exact ⟨List.mem_of_find?_eq_some h, by simpa using List.find?_some h⟩
  · rintro ⟨hmem, rfl⟩
    cases hf : store.snapshots.find? (·.key = s.key) with
    | none => simpa using List.find?_eq_none.mp hf s hmem
    | some t =>
      have ht : t.key = s.key := by simpa using List.find?_some hf
      rw [List.inj_on_of_nodup_map store.keys_nodup (List.mem_of_find?_eq_some hf) hmem ht]

theorem Holds.find {key : Date × String} (h : Holds body store snapshotId) (hkey : body.key = key) :
    ∃ s, findSnapshot store key = some s ∧ s.id = snapshotId ∧ s.itemCount = body.itemCount := by
  obtain ⟨s, hs, hid, hkey', hcount⟩ := h.header
  exact ⟨s, findSnapshot_eq_some_iff.mpr ⟨hs, hkey'.trans hkey⟩, hid, hcount⟩

theorem itemsOf_replaced {deleted : List Uuid} (hrows : body.rows ids snapshotId = some rows)
    (hitems : store'.items = store.items.filter (·.id ∉ deleted) ++ rows) :
    itemsOf store' snapshotId = (itemsOf store snapshotId).filter (·.id ∉ deleted) ++ rows := by
  unfold itemsOf
  rw [hitems, List.filter_append, List.filter_filter, List.filter_filter]
  congr 1
  · simp only [Bool.and_comm]
  · exact List.filter_eq_self.mpr fun row hrow => by simpa using (mem_rows hrows hrow).1

/-- A replacing commit whose delete saw every item leaves exactly the body, if the count
that it sends, or the one that stands, is the body's. -/
theorem holds_replaced {loaded s : ScreenSnapshot} {deleted : List Uuid}
    (h : body.replace ids loaded deleted store = some store') (hs : s ∈ store.snapshots)
    (hid : s.id = loaded.id) (hkey : s.key = body.key)
    (hcount : sent loaded.itemCount s.itemCount body.itemCount = body.itemCount)
    (hdeleted : ∀ item ∈ itemsOf store loaded.id, item.id ∈ deleted) :
    Holds body store' loaded.id := by
  obtain ⟨rows, hrows, hsnapshots, hitems⟩ := replace_eq_some h
  refine ⟨⟨body.update loaded s, ?_, hid, hkey, hcount⟩, ?_⟩
  · rw [hsnapshots]
    exact List.mem_map.mpr ⟨s, hs, if_pos hid⟩
  · rw [itemsOf_replaced hrows hitems, List.filter_eq_nil_iff.mpr (by simpa using hdeleted),
      List.nil_append]
    exact itemsAre_of_rows hrows

/-- A replacing commit of no items whose delete saw none of the stored ones leaves what
another body brought, if the count that stands is kept. -/
theorem holds_kept {loaded : ScreenSnapshot} {deleted : List Uuid}
    (h : second.replace ids loaded deleted store = some store') (hfirst : Holds first store loaded.id)
    (hempty : second.items = []) (hcount : second.itemCount = loaded.itemCount)
    (hdeleted : ∀ item ∈ itemsOf store loaded.id, item.id ∉ deleted) :
    Holds first store' loaded.id := by
  obtain ⟨rows, hrows, hsnapshots, hitems⟩ := replace_eq_some h
  obtain ⟨s, hs, hid, hkey, hs_count⟩ := hfirst.header
  have hnone : rows = [] := by
    have hare := itemsAre_of_rows hrows
    unfold ItemsAre at hare
    rwa [hempty, List.forall₂_nil_left_iff] at hare
  refine ⟨⟨second.update loaded s, ?_, hid, hkey, ?_⟩, ?_⟩
  · rw [hsnapshots]
    exact List.mem_map.mpr ⟨s, hs, if_pos hid⟩
  · exact (if_pos hcount).trans hs_count
  · rw [itemsOf_replaced hrows hitems, List.filter_eq_self.mpr (by simpa using hdeleted), hnone,
      List.append_nil]
    exact hfirst.items

theorem holds_created (h : body.create ids store = some store') :
    Holds body store' ids.snapshotId := by
  obtain ⟨rows, hrows, hsnapshots, hitems⟩ := create_eq_some h
  have hnew : ids.snapshotId ∉ store.snapshots.map (·.id) := by
    have hnodup := store'.ids_nodup
    rw [hsnapshots, List.map_cons] at hnodup
    exact (List.nodup_cons.mp hnodup).1
  refine ⟨⟨body.header ids.snapshotId, ?_, rfl, rfl, rfl⟩, ?_⟩
  · rw [hsnapshots]
    exact List.mem_cons_self
  · have hold : store.items.filter (·.snapshotId = ids.snapshotId) = [] := by
      refine List.filter_eq_nil_iff.mpr fun item hitem heq => hnew ?_
      obtain ⟨s, hs, hid⟩ := store.items_owned item hitem
      exact List.mem_map.mpr ⟨s, hs, hid.trans (of_decide_eq_true heq)⟩
    unfold itemsOf
    rw [hitems, List.filter_append, hold, List.nil_append, List.filter_eq_self.mpr]
    · exact itemsAre_of_rows hrows
    · exact fun row hrow => decide_eq_true (mem_rows hrows hrow).1

theorem create_of_holds {sid : Uuid} (hfirst : Holds first store sid) (hkey : first.key = second.key) :
    second.create ids store = none := by
  refine Option.eq_none_iff_forall_ne_some.mpr fun store' h => ?_
  obtain ⟨rows, -, hsnapshots, -⟩ := create_eq_some h
  obtain ⟨s, hs, -, hskey, -⟩ := hfirst.header
  have hnodup := store'.keys_nodup
  rw [hsnapshots, List.map_cons] at hnodup
  exact (List.nodup_cons.mp hnodup).1 (List.mem_map.mpr ⟨s, hs, hskey.trans hkey⟩)

end StockQuant
