import Mathlib.Data.Multiset.Basic
import StockQuant.SnapshotReplace

/-! The snapshot tables as a map from the date and session to what was ingested for
them, and the write of one key that the commit of `upsert_snapshot` is. -/

namespace StockQuant

structure SnapshotContent where
  header : ScreenSnapshot
  items : Multiset ScreenSnapshotItem
  deriving DecidableEq

/-- A stored item less its ids. -/
def ScreenSnapshotItem.content (row : ScreenSnapshotItem) : ScreenSnapshotItem :=
  { row with id := 0, snapshotId := 0 }

def contentOf (store : SnapshotStore) (key : Date × String) : Option SnapshotContent :=
  (findSnapshot store key).map fun s =>
    { header := { s with id := 0 }
      items := ((itemsOf store s.id).map ScreenSnapshotItem.content : List ScreenSnapshotItem) }

/-- What the columns make of a body; `none` is their refusal. -/
def SnapshotIngestBody.content (body : SnapshotIngestBody) : Option SnapshotContent :=
  if body.headerStored then
    (body.items.mapM (SnapshotItemIn.row 0 0)).map fun rows =>
      { header := body.header 0, items := (rows : List ScreenSnapshotItem) }
  else none

def SnapshotIngestBody.commit (body : SnapshotIngestBody) (ids : SnapshotIds)
    (store : SnapshotStore) : Option SnapshotStore :=
  match findSnapshot store body.key with
  | some existing => body.replace ids existing ((itemsOf store existing.id).map (·.id)) store
  | none => body.create ids store

theorem mapM_of_forall₂ {α β : Type} {f : α → Option β} {l : List α} {r : List β}
    (h : List.Forall₂ (fun a b => f a = some b) l r) : l.mapM f = some r := by
  induction h with
  | nil => rfl
  | cons ha _ ih => rw [List.mapM_cons, ha, ih]; rfl

/-- The ids of a row do not matter to the columns. -/
theorem row_withIds {item : SnapshotItemIn} {id snapshotId : Uuid} {row : ScreenSnapshotItem}
    (h : item.row id snapshotId = some row) (id' snapshotId' : Uuid) :
    item.row id' snapshotId' = some { row with id := id', snapshotId := snapshotId' } := by
  unfold SnapshotItemIn.row at h ⊢
  iterate 18
    obtain ⟨_, hcolumn, h⟩ := Option.bind_eq_some_iff.mp h
    refine Option.bind_eq_some_iff.mpr ⟨_, hcolumn, ?_⟩
  obtain rfl := Option.some.inj h
  rfl

variable {body : SnapshotIngestBody} {ids : SnapshotIds} {store store' : SnapshotStore}

theorem itemsAre_content {snapshotId : Uuid} {rows : List ScreenSnapshotItem}
    (h : ItemsAre body snapshotId rows) :
    body.items.mapM (SnapshotItemIn.row 0 0) = some (rows.map ScreenSnapshotItem.content) := by
  refine mapM_of_forall₂ ?_
  rw [List.forall₂_map_right_iff]
  exact h.imp fun item row hrow => row_withIds hrow.choose_spec 0 0

theorem itemsOf_disjoint {s t : ScreenSnapshot} (hne : s.id ≠ t.id) {item : ScreenSnapshotItem}
    (hitem : item ∈ itemsOf store t.id) : item.id ∉ (itemsOf store s.id).map (·.id) := by
  intro hmem
  obtain ⟨other, hother, hid⟩ := List.mem_map.mp hmem
  obtain ⟨hother, hs⟩ := List.mem_filter.mp hother
  obtain ⟨hitem, ht⟩ := List.mem_filter.mp hitem
  obtain rfl := List.inj_on_of_nodup_map store.itemIds_nodup hother hitem hid
  exact hne ((of_decide_eq_true hs).symm.trans (of_decide_eq_true ht))

/-- What a commit has written: the key of the body, as the columns store it, and nothing
of another key. -/
structure Written (body : SnapshotIngestBody) (store store' : SnapshotStore) : Prop where
  stored : ∃ snapshotId rows, ItemsAre body snapshotId rows ∧ body.headerStored = true ∧
    findSnapshot store' body.key = some (body.header snapshotId) ∧ itemsOf store' snapshotId = rows
  others : ∀ key ≠ body.key, findSnapshot store' key = findSnapshot store key ∧
    ∀ s, findSnapshot store key = some s → itemsOf store' s.id = itemsOf store s.id

theorem findSnapshot_congr {key : Date × String}
    (h : ∀ s : ScreenSnapshot, s.key = key → (s ∈ store'.snapshots ↔ s ∈ store.snapshots)) :
    findSnapshot store' key = findSnapshot store key := by
  ext s
  rw [findSnapshot_eq_some_iff, findSnapshot_eq_some_iff]
  constructor
  · rintro ⟨hs, hkey⟩
    exact ⟨(h s hkey).mp hs, hkey⟩
  · rintro ⟨hs, hkey⟩
    exact ⟨(h s hkey).mpr hs, hkey⟩

theorem update_self (body : SnapshotIngestBody) {existing : ScreenSnapshot}
    (hkey : existing.key = body.key) : body.update existing existing = body.header existing.id := by
  obtain ⟨hdate, hsession⟩ := Prod.mk.inj hkey
  unfold SnapshotIngestBody.update SnapshotIngestBody.header
  simp only [sent_self, hdate, hsession]

theorem written_replace {existing : ScreenSnapshot}
    (hfind : findSnapshot store body.key = some existing)
    (h : body.replace ids existing ((itemsOf store existing.id).map (·.id)) store = some store') :
    Written body store store' := by
  obtain ⟨hmem, hkey⟩ := findSnapshot_eq_some_iff.mp hfind
  obtain ⟨rows, hrows, hsnapshots, hitems⟩ := replace_eq_some h
  have hsame {s : ScreenSnapshot} (hs : s ∈ store.snapshots) (hid : s.id = existing.id) :
      s = existing := List.inj_on_of_nodup_map store.ids_nodup hs hmem hid
  have hheader : body.header existing.id ∈ store'.snapshots := by
    rw [hsnapshots]
    exact List.mem_map.mpr ⟨existing, hmem, by rw [if_pos rfl, update_self body hkey]⟩
  constructor
  · refine ⟨existing.id, rows, itemsAre_of_rows hrows, ?_, ?_, ?_⟩
    · unfold SnapshotIngestBody.replace at h
      split at h
      · assumption
      · cases h
    · exact findSnapshot_eq_some_iff.mpr ⟨hheader, rfl⟩
    · rw [itemsOf_replaced hrows hitems, List.filter_eq_nil_iff.mpr, List.nil_append]
      intro item hitem
      simpa using List.mem_map_of_mem hitem
  · intro key hne
    have hother {s : ScreenSnapshot} (hs : s ∈ store.snapshots) (hskey : s.key = key) :
        s.id ≠ existing.id := by
      intro hid
      rw [hsame hs hid, hkey] at hskey
      exact hne hskey.symm
    constructor
    · refine findSnapshot_congr fun s hskey => ?_
      rw [hsnapshots, List.mem_map]
      constructor
      · rintro ⟨t, ht, rfl⟩
        split_ifs at hskey ⊢ with hid
        · exact absurd (hskey.symm.trans (congrArg ScreenSnapshot.key (hsame ht hid) ▸ hkey)) hne
        · exact ht
      · intro hs
        exact ⟨s, hs, if_neg (hother hs hskey)⟩
    · intro s hs
      obtain ⟨hs, hskey⟩ := findSnapshot_eq_some_iff.mp hs
      have hnone : rows.filter (·.snapshotId = s.id) = [] := by
        refine List.filter_eq_nil_iff.mpr fun item hitem => ?_
        rw [(mem_rows hrows hitem).1]
        simpa using (hother hs hskey).symm
      unfold itemsOf
      rw [hitems, List.filter_append, List.filter_filter, hnone, List.append_nil]
      refine List.filter_congr fun item hitem => ?_
      by_cases hown : item.snapshotId = s.id
      · have hkept := itemsOf_disjoint (hother hs hskey).symm
          (List.mem_filter.mpr ⟨hitem, decide_eq_true hown⟩)
        simp only [hown, decide_true, Bool.true_and, decide_eq_true_eq]
        exact hkept
      · simp [hown]

theorem written_create (h : body.create ids store = some store') : Written body store store' := by
  obtain ⟨rows, hrows, hsnapshots, hitems⟩ := create_eq_some h
  have hnew : ids.snapshotId ∉ store.snapshots.map (·.id) := by
    have hnodup := store'.ids_nodup
    rw [hsnapshots, List.map_cons] at hnodup
    exact (List.nodup_cons.mp hnodup).1
  have hholds := holds_created h
  constructor
  · refine ⟨ids.snapshotId, _, hholds.items, ?_, ?_, rfl⟩
    · unfold SnapshotIngestBody.create at h
      split at h
      · assumption
      · cases h
    · exact findSnapshot_eq_some_iff.mpr ⟨hsnapshots ▸ List.mem_cons_self, rfl⟩
  · intro key hne
    constructor
    · refine findSnapshot_congr fun s hskey => ?_
      rw [hsnapshots, List.mem_cons, or_iff_right]
      rintro rfl
      exact hne hskey.symm
    · intro s hs
      have hs := (findSnapshot_eq_some_iff.mp hs).1
      have hnone : rows.filter (·.snapshotId = s.id) = [] := by
        refine List.filter_eq_nil_iff.mpr fun item hitem => ?_
        rw [(mem_rows hrows hitem).1]
        simpa using fun hid : ids.snapshotId = s.id =>
          hnew (List.mem_map.mpr ⟨s, hs, hid.symm⟩)
      unfold itemsOf
      rw [hitems, List.filter_append, hnone, List.append_nil]

theorem written_commit (h : body.commit ids store = some store') : Written body store store' := by
  unfold SnapshotIngestBody.commit at h
  cases hfind : findSnapshot store body.key with
  | some existing =>
    rw [hfind] at h
    exact written_replace hfind h
  | none =>
    rw [hfind] at h
    exact written_create h

theorem Written.contentOf (h : Written body store store') :
    body.content.isSome ∧ contentOf store' body.key = body.content := by
  obtain ⟨snapshotId, rows, hare, hheader, hfind, rfl⟩ := h.stored
  have hcontent : body.content = some
      { header := body.header 0
        items := ((itemsOf store' snapshotId).map ScreenSnapshotItem.content :
          List ScreenSnapshotItem) } := by
    unfold SnapshotIngestBody.content
    rw [if_pos hheader, itemsAre_content hare, Option.map_some]
  rw [hcontent]
  refine ⟨rfl, ?_⟩
  unfold StockQuant.contentOf
  rw [hfind]
  rfl

theorem isSome_content_iff : body.content.isSome ↔
    body.headerStored = true ∧ ∀ item ∈ body.items, (item.row 0 0).isSome := by
  unfold SnapshotIngestBody.content
  split_ifs with hheader
  · rw [Option.isSome_map, isSome_mapM_iff, and_iff_right hheader]
  · simp [hheader]

theorem exists_rows (h : ∀ item ∈ body.items, (item.row 0 0).isSome) (ids : SnapshotIds)
    (snapshotId : Uuid) : ∃ rows, body.rows ids snapshotId = some rows ∧
      rows.map (·.id) = (List.range body.items.length).map ids.itemId := by
  have hrows : (body.rows ids snapshotId).isSome := by
    refine isSome_mapM_iff.mpr fun item hitem => ?_
    obtain ⟨row, hrow⟩ := Option.isSome_iff_exists.mp (h item.1 (List.fst_mem_of_mem_zipIdx hitem))
    rw [row_withIds hrow]
    rfl
  obtain ⟨rows, hrows⟩ := Option.isSome_iff_exists.mp hrows
  refine ⟨rows, hrows, ?_⟩
  have hids : List.Forall₂ (fun k row => ids.itemId k = row.id)
      (body.items.zipIdx.map Prod.snd) rows :=
    List.forall₂_map_left_iff.mpr ((forall₂_of_mapM hrows).imp fun _ _ hrow => (row_ids hrow).1.symm)
  rw [List.zipIdx_map_snd, ← List.range_eq_range'] at hids
  have heq := List.forall₂_map_right_iff.mpr (List.forall₂_map_left_iff.mpr hids)
  rw [List.forall₂_eq_eq_eq] at heq
  exact heq.symm

theorem isSome_ofRows? {snapshots : List ScreenSnapshot} {items : List ScreenSnapshotItem}
    (hids : (snapshots.map (·.id)).Nodup) (hitems : (items.map (·.id)).Nodup)
    (hkeys : (snapshots.map ScreenSnapshot.key).Nodup)
    (howned : ∀ item ∈ items, ∃ s ∈ snapshots, s.id = item.snapshotId) :
    (SnapshotStore.ofRows? snapshots items).isSome := by
  unfold SnapshotStore.ofRows?
  rw [dif_pos ⟨hids, hitems, hkeys, howned⟩]
  rfl

/-- Ids that no row has, and no two of them the same. -/
structure SnapshotIds.Fresh (ids : SnapshotIds) (store : SnapshotStore) : Prop where
  snapshot : ids.snapshotId ∉ store.snapshots.map (·.id)
  items : ∀ k, ids.itemId k ∉ store.items.map (·.id)
  apart : Function.Injective ids.itemId

theorem SnapshotIds.Fresh.nodup (hfresh : ids.Fresh store) {items rows : List ScreenSnapshotItem}
    (hstored : items.Sublist store.items) {n : ℕ}
    (hids : rows.map (·.id) = (List.range n).map ids.itemId) :
    ((items ++ rows).map (·.id)).Nodup := by
  rw [List.map_append, hids]
  refine (store.itemIds_nodup.sublist (hstored.map _)).append
    (List.nodup_range.map hfresh.apart) fun id hid hdrawn => ?_
  obtain ⟨k, -, rfl⟩ := List.mem_map.mp hdrawn
  exact hfresh.items k ((hstored.map _).subset hid)

theorem isSome_replace (hfresh : ids.Fresh store) (h : body.content.isSome)
    {existing : ScreenSnapshot} (hmem : existing ∈ store.snapshots) (deleted : List Uuid) :
    (body.replace ids existing deleted store).isSome := by
  obtain ⟨hheader, hitems⟩ := isSome_content_iff.mp h
  obtain ⟨rows, hrows, hids⟩ := exists_rows hitems ids existing.id
  have hsame (s : ScreenSnapshot) :
      (if s.id = existing.id then body.update existing s else s).id = s.id ∧
        (if s.id = existing.id then body.update existing s else s).key = s.key := by
    split_ifs
    · exact ⟨rfl, rfl⟩
    · exact ⟨rfl, rfl⟩
  unfold SnapshotIngestBody.replace
  rw [hheader, hrows]
  refine isSome_ofRows? ?_ (hfresh.nodup List.filter_sublist hids) ?_ fun item hitem => ?_
  · rw [List.map_map]
    exact (List.map_congr_left fun s _ => (hsame s).1) ▸ store.ids_nodup
  · rw [List.map_map]
    exact (List.map_congr_left fun s _ => (hsame s).2) ▸ store.keys_nodup
  · have howner : ∃ s ∈ store.snapshots, s.id = item.snapshotId := by
      rcases List.mem_append.mp hitem with hitem | hitem
      · exact store.items_owned item (List.mem_of_mem_filter hitem)
      · exact ⟨existing, hmem, (mem_rows hrows hitem).1.symm⟩
    obtain ⟨s, hs, hid⟩ := howner
    exact ⟨_, List.mem_map_of_mem hs, (hsame s).1.trans hid⟩

theorem isSome_create (hfresh : ids.Fresh store) (h : body.content.isSome)
    (hnew : findSnapshot store body.key = none) : (body.create ids store).isSome := by
  obtain ⟨hheader, hitems⟩ := isSome_content_iff.mp h
  obtain ⟨rows, hrows, hids⟩ := exists_rows hitems ids ids.snapshotId
  unfold SnapshotIngestBody.create
  rw [hheader, hrows]
  refine isSome_ofRows? ?_ (hfresh.nodup (List.Sublist.refl _) hids) ?_ fun item hitem => ?_
  · exact List.nodup_cons.mpr ⟨hfresh.snapshot, store.ids_nodup⟩
  · refine List.nodup_cons.mpr ⟨fun hkey => ?_, store.keys_nodup⟩
    obtain ⟨s, hs, hkey⟩ := List.mem_map.mp hkey
    have hstored := findSnapshot_eq_some_iff.mpr ⟨hs, hkey⟩
    rw [show (body.header ids.snapshotId).key = body.key from rfl, hnew] at hstored
    cases hstored
  · rcases List.mem_append.mp hitem with hitem | hitem
    · obtain ⟨s, hs, hid⟩ := store.items_owned item hitem
      exact ⟨s, List.mem_cons_of_mem _ hs, hid⟩
    · exact ⟨_, List.mem_cons_self, (mem_rows hrows hitem).1.symm⟩

/-- With fresh ids an ingest goes through exactly if the columns take what it sends. -/
theorem isSome_commit_iff (hfresh : ids.Fresh store) :
    (body.commit ids store).isSome ↔ body.content.isSome := by
  constructor
  · intro h
    obtain ⟨store', h⟩ := Option.isSome_iff_exists.mp h
    exact (written_commit h).contentOf.1
  · intro h
    unfold SnapshotIngestBody.commit
    cases hfind : findSnapshot store body.key with
    | some existing => exact isSome_replace hfresh h (findSnapshot_eq_some_iff.mp hfind).1 _
    | none => exact isSome_create hfresh h hfind

theorem Written.contentOf_of_ne (h : Written body store store') {key : Date × String}
    (hne : key ≠ body.key) : StockQuant.contentOf store' key = StockQuant.contentOf store key := by
  obtain ⟨hfind, hitems⟩ := h.others key hne
  unfold StockQuant.contentOf
  rw [hfind]
  cases hs : findSnapshot store key with
  | none => rfl
  | some s => rw [Option.map_some, Option.map_some, hitems s hs]

end StockQuant
