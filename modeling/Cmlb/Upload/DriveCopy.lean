import Mathlib.Logic.Relation
import Cmlb.Upload.DriveCount

/-!
# `copy` of a folder against Drive

`copy` creates a folder in the target and walks the source with a stack of frames, while what it creates
is listed like everything else. Where the target is neither the source nor below it, the walk meets
nothing of its own: it ends, and the new folder has one copy of everything that was below the source,
in the same places (`copyLoop_served`). Where the target is in the source, one of the frames always has
its destination below its source, so that the stack never becomes empty (`copyLoop_running`).
-/

namespace Cmlb.Upload.GoogleDrive

open Descend Relation

variable {G : GoogleDriveUploader} {P : Nat} {sv sv' : DriveServer} {st : DriveStore}
  {es items q : List DriveItem} {e x : DriveItem} {child : Json} {children : List Json}
  {bearer destination rootId : String} {stack : List Frame}

/-- A folder and its copy. -/
def frameOf (c : String → DriveItem) (x : DriveItem) : Frame := ⟨x.id, (c x.id).id⟩

/-- The frames of the folders among `es`; the last one is on top. -/
def framesOf (c : String → DriveItem) (es : List DriveItem) : List Frame :=
  (es.filter DriveItem.isFolder).reverse.map (frameOf c)

theorem framesOf_congr {c d : String → DriveItem} (h : ∀ x ∈ es, c x.id = d x.id) :
    framesOf c es = framesOf d es := by
  refine List.map_congr_left fun x hx => ?_
  rw [frameOf, h x (List.mem_filter.1 (List.mem_reverse.1 hx)).1, frameOf]

theorem framesOf_cons (c : String → DriveItem) (x : DriveItem) (es : List DriveItem) :
    framesOf c (x :: es) = framesOf c es ++ framesOf c [x] := by
  cases hfolder : x.isFolder <;> simp [framesOf, hfolder]

/-! ### One child -/

theorem CopyOf.of_folder (hx : x.isFolder = true) (he : e.isFolder = true) (hname : e.name = x.name) :
    CopyOf x e := by
  refine ⟨?_, fun _ => hname, fun hfile => ?_⟩
  · rw [of_decide_eq_true hx, of_decide_eq_true he]
  · rw [hx] at hfile
    cases hfile

theorem CopyOf.isFolder_eq (h : CopyOf x e) : e.isFolder = x.isFolder := by
  unfold DriveItem.isFolder
  rw [h.mimeType]

theorem copyChildren_cons_served {rest : List Json} {r : Outcome (List Frame)}
    (h : (G.copyChildren bearer destination (child :: rest) stack).Served (Answers G P) sv r sv')
    (hshows : Shows x child) (hitem : sv.store.item x.id = some x) :
    ∃ e sv₁, CopyOf x e ∧ sv.Adds destination e sv₁ ∧
      (G.copyChildren bearer destination rest (framesOf (fun _ => e) [x] ++ stack)).Served
        (Answers G P) sv₁ r sv' := by
  have hid : x.id ≠ "" := by
    intro heq
    rw [heq, sv.store.no_empty] at hitem
    cases hitem
  unfold GoogleDriveUploader.copyChildren at h
  rw [value_of_stringMember hshows.id, value_of_stringMember hshows.mimeType,
    value_of_stringMember hshows.name] at h
  simp only [Outcome.ofRead_ok, Outcome.andThen_ok, if_neg hid] at h
  cases hfolder : x.isFolder with
  | true =>
    rw [if_pos (of_decide_eq_true hfolder)] at h
    obtain ⟨created, sv₁, h₁, h₂⟩ := h.bind_inv
    obtain ⟨e, rfl, hname, hefolder, hadds⟩ := createFolder_served h₁.embed_inv
    refine ⟨e, sv₁, .of_folder hfolder hefolder hname, hadds, ?_⟩
    have hframes : framesOf (fun _ => e) [x] = [⟨x.id, e.id⟩] := by simp [framesOf, frameOf, hfolder]
    rw [hframes]
    exact h₂
  | false =>
    rw [if_neg (of_decide_eq_false hfolder)] at h
    obtain ⟨res, sv₁, ⟨resp, x', e, rfl, hsuccess, -, hitem', hcopy, hadds⟩, h₁⟩ := h.ask_bind_inv
    obtain rfl : x = x' := by
      rw [hitem] at hitem'
      cases hitem'
      rfl
    refine ⟨e, sv₁, hcopy, hadds, ?_⟩
    have hframes : framesOf (fun _ => e) [x] = [] := by simp [framesOf, hfolder]
    rw [hframes, List.nil_append]
    simpa only [Outcome.andThen_ok, hsuccess, if_true] using h₁

/-! ### The children of a folder -/

/-- Nothing that is on Drive goes away or changes, and outside of `destination` no folder gets a child. -/
structure Grows (destination : String) (before after : DriveStore) : Prop where
  keeps : ∀ {id y}, before.item id = some y → after.item id = some y
  outside : ∀ id, id ≠ destination → after.children id = before.children id
  inside : before.children destination ⊆ after.children destination

theorem Grows.refl (destination : String) (st : DriveStore) : Grows destination st st :=
  ⟨fun h => h, fun _ _ => rfl, fun _ h => h⟩

theorem Grows.trans {st₁ st₂ st₃ : DriveStore} (h₁ : Grows destination st₁ st₂)
    (h₂ : Grows destination st₂ st₃) : Grows destination st₁ st₃ :=
  ⟨fun h => h₂.keeps (h₁.keeps h), fun id hid => (h₂.outside id hid).trans (h₁.outside id hid),
    fun _ h => h₂.inside (h₁.inside h)⟩

theorem Grows.subset {after : DriveStore} (h : Grows destination st after) (id : String) :
    st.children id ⊆ after.children id := by
  by_cases hid : id = destination
  · rw [hid]
    exact h.inside
  · rw [h.outside id hid]
    exact fun _ hx => hx

theorem DriveStore.CanAdd.grows (h : st.CanAdd destination e) : Grows destination st (st.add destination e h) := by
  refine ⟨fun {id y} hy => ?_, fun id hid => DriveStore.children_add_of_ne h hid, fun y hy => ?_⟩
  · have hne : id ≠ e.id := by
      rintro rfl
      rw [h.fresh] at hy
      cases hy
    rw [DriveStore.item_add_of_ne h hne, hy]
  · rw [DriveStore.children_add_self]
    exact List.mem_append_left _ hy

/-- `c` has the copies of `es`, which are what `after` has in the folder `destination` and `before` has not. -/
structure CopiedInto (destination : String) (before : DriveStore) (es : List DriveItem)
    (c : String → DriveItem) (after : DriveStore) : Prop extends Grows destination before after where
  copies : ∀ x ∈ es, CopyOf x (c x.id)
  fresh : ∀ x ∈ es, before.item (c x.id).id = none
  nodup : (es.map fun x => (c x.id).id).Nodup
  content : after.children destination = before.children destination ++ es.map fun x => c x.id

/-- A first child is copied before the others. -/
theorem CopiedInto.cons {c : String → DriveItem} {after : DriveStore} (hx : x.id ∉ es.map DriveItem.id)
    (hcopy : CopyOf x e) (hadd : st.CanAdd destination e)
    (h : CopiedInto destination (st.add destination e hadd) es c after) :
    CopiedInto destination st (x :: es) (Function.update c x.id e) after := by
  have hother : ∀ y ∈ es, Function.update c x.id e y.id = c y.id := by
    intro y hy
    have hne : y.id ≠ x.id := fun heq => hx (List.mem_map.2 ⟨y, hy, heq⟩)
    rw [Function.update_of_ne hne]
  have hself : Function.update c x.id e x.id = e := Function.update_self ..
  have hne : ∀ y ∈ es, (c y.id).id ≠ e.id := by
    intro y hy heq
    have hfresh := h.fresh y hy
    rw [heq, DriveStore.item_add_self] at hfresh
    cases hfresh
  refine ⟨hadd.grows.trans h.toGrows, ?_, ?_, ?_, ?_⟩
  · refine List.forall_mem_cons.2 ⟨by rw [hself]; exact hcopy, fun y hy => ?_⟩
    rw [hother y hy]
    exact h.copies y hy
  · refine List.forall_mem_cons.2 ⟨by rw [hself]; exact hadd.fresh, fun y hy => ?_⟩
    rw [hother y hy]
    have hfresh := h.fresh y hy
    rwa [DriveStore.item_add_of_ne hadd (hne y hy)] at hfresh
  · rw [List.map_cons, hself, List.map_congr_left fun y hy => by rw [hother y hy], List.nodup_cons]
    refine ⟨fun hmem => ?_, h.nodup⟩
    obtain ⟨y, hy, heq⟩ := List.mem_map.1 hmem
    exact hne y hy heq
  · rw [h.content, DriveStore.children_add_self, List.append_assoc, List.map_cons, hself,
      List.map_congr_left hother]
    rfl

theorem copyChildren_served {r : Outcome (List Frame)}
    (h : (G.copyChildren bearer destination children stack).Served (Answers G P) sv r sv')
    (hshows : List.Forall₂ Shows es children) (hitems : ∀ x ∈ es, sv.store.item x.id = some x)
    (hnodup : (es.map DriveItem.id).Nodup) :
    ∃ c, CopiedInto destination sv.store es c sv'.store ∧
      r = .returned (.ok (framesOf c es ++ stack)) := by
  induction hshows generalizing sv stack with
  | nil =>
    obtain ⟨rfl, rfl⟩ := h.pure_inv
    exact ⟨fun _ => ⟨"", "", "", none, ""⟩, ⟨.refl _ _, by simp, by simp, by simp, by simp⟩, rfl⟩
  | @cons x child es children hshows _ ih =>
    obtain ⟨hitem, hrest⟩ := List.forall_mem_cons.1 hitems
    obtain ⟨hx, hnodup⟩ := List.nodup_cons.1 hnodup
    obtain ⟨e, sv₁, hcopy, ⟨hadd, rfl⟩, h₁⟩ := copyChildren_cons_served h hshows hitem
    obtain ⟨c, hinto, rfl⟩ := ih h₁ (fun y hy => hadd.grows.keeps (hrest y hy)) hnodup
    refine ⟨Function.update c x.id e, hinto.cons hx hcopy hadd, ?_⟩
    have hother : ∀ y ∈ es, Function.update c x.id e y.id = c y.id := by
      intro y hy
      have hne : y.id ≠ x.id := fun heq => hx (List.mem_map.2 ⟨y, hy, heq⟩)
      rw [Function.update_of_ne hne]
    have hself : framesOf (Function.update c x.id e) [x] = framesOf (fun _ => e) [x] :=
      framesOf_congr fun y hy => by rw [List.mem_singleton.1 hy, Function.update_self]
    rw [framesOf_cons _ x es, framesOf_congr hother, hself, List.append_assoc]

/-! ### The loop -/

/-- What holds of the queue `q` of folders that wait, with the destinations `c`: `items` are they and
all that is below them, and is on Drive as `kids` has it, while the destinations are new empty folders. -/
structure LoopReady (kids : DriveItem → List DriveItem) (q items : List DriveItem)
    (c : String → DriveItem) (st : DriveStore) : Prop where
  below : Below kids q items
  folders : ∀ e ∈ q, e.isFolder = true
  listed : ∀ x ∈ items, st.children x.id = kids x
  known : ∀ x ∈ items, st.item x.id = some x
  nodup : (items.map DriveItem.id).Nodup
  empty : ∀ e ∈ q, st.children (c e.id).id = []
  made : ∀ e ∈ q, st.item (c e.id).id ≠ none
  apart : ∀ e ∈ q, ∀ x ∈ items, (c e.id).id ≠ x.id
  destinations : (q.map fun e => (c e.id).id).Nodup

/-- `c'` has a copy of each of `items`, where `c` has those of `q`, and each folder among the copies
has the copies of what its original has. -/
structure CopiedBelow (kids : DriveItem → List DriveItem) (q items : List DriveItem)
    (c : String → DriveItem) (before : DriveStore) (c' : String → DriveItem) (after : DriveStore) :
    Prop where
  same : ∀ id, (∀ x ∈ items, x.id = id → x ∈ q) → c' id = c id
  copies : ∀ x ∈ items, x ∉ q → CopyOf x (c' x.id) ∧ before.item (c' x.id).id = none
  nodup : (items.map fun x => (c' x.id).id).Nodup
  content : ∀ x ∈ items, x.isFolder = true →
    (after.children (c' x.id).id).Perm ((kids x).map fun y => c' y.id)
  outside : ∀ id, before.item id ≠ none → (∀ e ∈ q, id ≠ (c e.id).id) →
    after.children id = before.children id

/-- `d` for the ids of `es`, and `c` for all others. -/
def override (es : List DriveItem) (d c : String → DriveItem) (id : String) : DriveItem :=
  if id ∈ es.map DriveItem.id then d id else c id

/-- A round of the loop: the folder `e` is taken from the queue, and its children `es` are copied. What
is left are `rest`. -/
structure Round (kids : DriveItem → List DriveItem) (e : DriveItem) (q items : List DriveItem)
    (c : String → DriveItem) (before : DriveStore) (es : List DriveItem) (d : String → DriveItem)
    (after : DriveStore) (rest : List DriveItem) : Prop where
  ready : LoopReady kids (e :: q) items c before
  perm : es.Perm (kids e)
  into : CopiedInto (c e.id).id before es d after
  split : items.Perm (e :: (es.filter (fun x => !x.isFolder) ++ rest))
  below : Below kids ((es.filter DriveItem.isFolder).reverse ++ q) rest
  sub : ∃ l, items.Perm (e :: l) ∧ (es ++ q).Sublist l

namespace Round

variable {kids : DriveItem → List DriveItem} {c d : String → DriveItem} {before after : DriveStore}
  {rest : List DriveItem} (R : Round kids e q items c before es d after rest)

include R

theorem mem_of_rest (hx : x ∈ rest) : x ∈ items :=
  R.split.symm.subset (List.mem_cons_of_mem e (List.mem_append_right _ hx))

theorem mem_of_es (hx : x ∈ es) : x ∈ items := by
  obtain ⟨l, hl, hsub⟩ := R.sub
  exact hl.symm.subset (List.mem_cons_of_mem e (hsub.subset (List.mem_append_left q hx)))

theorem eq_of_id {y : DriveItem} (hx : x ∈ items) (hy : y ∈ items) (h : x.id = y.id) : x = y :=
  List.inj_on_of_nodup_map R.ready.nodup hx hy h

/-- The ids of the folder, its children and the queue are all different. -/
theorem nodup_ids : ((e :: (es ++ q)).map DriveItem.id).Nodup := by
  obtain ⟨l, hl, hsub⟩ := R.sub
  have hnodup := (hl.map DriveItem.id).nodup_iff.1 R.ready.nodup
  exact hnodup.sublist ((hsub.cons_cons e).map DriveItem.id)

theorem q_notMem (hx : x ∈ q) : x.id ∉ es.map DriveItem.id := by
  intro hmem
  have hnodup := (List.nodup_cons.1 R.nodup_ids).2
  rw [List.map_append, List.nodup_append] at hnodup
  exact hnodup.2.2 _ hmem _ (List.mem_map_of_mem hx) rfl

theorem override_q (hx : x ∈ q) : override es d c x.id = c x.id := if_neg (R.q_notMem hx)

omit R in
theorem override_es (hx : x ∈ es) : override es d c x.id = d x.id := if_pos (List.mem_map_of_mem hx)

/-- A copy is none of what there was. -/
theorem copy_ne {id : String} (hx : x ∈ es) (hid : before.item id ≠ none) : (d x.id).id ≠ id := by
  rintro rfl
  exact hid (R.into.fresh x hx)

theorem copy_item (hx : x ∈ es) : after.item (d x.id).id ≠ none := by
  have hmem : d x.id ∈ after.children (c e.id).id := by
    rw [R.into.content]
    exact List.mem_append_right _ (List.mem_map.2 ⟨x, hx, rfl⟩)
  rw [after.item_of_mem hmem]
  simp

theorem keeps_ne {id : String} (hid : before.item id ≠ none) : after.item id ≠ none := by
  obtain ⟨y, hy⟩ := Option.ne_none_iff_exists'.1 hid
  rw [R.into.keeps hy]
  simp

theorem destination_ne (hx : x ∈ q) : (c x.id).id ≠ (c e.id).id := by
  intro heq
  have hnodup := R.ready.destinations
  rw [List.map_cons, List.nodup_cons] at hnodup
  exact hnodup.1 (List.mem_map.2 ⟨x, hx, heq⟩)

omit R in
theorem mem_queue (hx : x ∈ (es.filter DriveItem.isFolder).reverse ++ q) :
    x ∈ es ∧ x.isFolder = true ∨ x ∈ q := by
  rcases List.mem_append.1 hx with hx | hx
  · exact .inl (List.mem_filter.1 (List.mem_reverse.1 hx))
  · exact .inr hx

/-- The next round starts with the folders among the children on top. -/
theorem ready_next :
    LoopReady kids ((es.filter DriveItem.isFolder).reverse ++ q) rest (override es d c) after := by
  have hready := R.ready
  have hdest : before.item (c e.id).id ≠ none := hready.made e List.mem_cons_self
  refine ⟨R.below, ?_, ?_, ?_, ?_, ?_, ?_, ?_, ?_⟩
  · intro x hx
    rcases mem_queue hx with ⟨-, hfolder⟩ | hx
    · exact hfolder
    · exact hready.folders x (List.mem_cons_of_mem e hx)
  · intro x hx
    have hne : x.id ≠ (c e.id).id := (hready.apart e List.mem_cons_self x (R.mem_of_rest hx)).symm
    rw [R.into.outside _ hne, hready.listed x (R.mem_of_rest hx)]
  · exact fun x hx => R.into.keeps (hready.known x (R.mem_of_rest hx))
  · have hnodup := (R.split.map DriveItem.id).nodup_iff.1 hready.nodup
    rw [List.map_cons, List.map_append, List.nodup_cons, List.nodup_append] at hnodup
    exact hnodup.2.2.1
  · intro x hx
    rcases mem_queue hx with ⟨hx, -⟩ | hx
    · rw [override_es hx, R.into.outside _ (R.copy_ne hx hdest), DriveStore.children_eq_nil (R.into.fresh x hx)]
    · rw [R.override_q hx, R.into.outside _ (R.destination_ne hx), hready.empty x (List.mem_cons_of_mem e hx)]
  · intro x hx
    rcases mem_queue hx with ⟨hx, -⟩ | hx
    · rw [override_es hx]
      exact R.copy_item hx
    · rw [R.override_q hx]
      exact R.keeps_ne (hready.made x (List.mem_cons_of_mem e hx))
  · intro x hx y hy
    rcases mem_queue hx with ⟨hx, -⟩ | hx
    · rw [override_es hx]
      refine R.copy_ne hx ?_
      rw [hready.known y (R.mem_of_rest hy)]
      simp
    · rw [R.override_q hx]
      exact hready.apart x (List.mem_cons_of_mem e hx) y (R.mem_of_rest hy)
  · have hes : (es.filter DriveItem.isFolder).reverse.map (fun x => (override es d c x.id).id) =
        (es.filter DriveItem.isFolder).reverse.map fun x => (d x.id).id :=
      List.map_congr_left fun x hx => by rw [override_es (List.mem_filter.1 (List.mem_reverse.1 hx)).1]
    have hqs : q.map (fun x => (override es d c x.id).id) = q.map fun x => (c x.id).id :=
      List.map_congr_left fun x hx => by rw [R.override_q hx]
    rw [List.map_append, hes, hqs, List.nodup_append]
    refine ⟨?_, (List.nodup_cons.1 hready.destinations).2, ?_⟩
    · rw [List.map_reverse, List.nodup_reverse]
      exact R.into.nodup.sublist (List.filter_sublist.map _)
    · rintro _ hcopy _ hdest rfl
      obtain ⟨x, hx, rfl⟩ := List.mem_map.1 hcopy
      obtain ⟨y, hy, heq⟩ := List.mem_map.1 hdest
      refine R.copy_ne (List.mem_filter.1 (List.mem_reverse.1 hx)).1 ?_ heq.symm
      exact hready.made y (List.mem_cons_of_mem e hy)

/-! The copies of what the round leaves are added to those that it has made. -/

theorem items_cases (hx : x ∈ items) : x = e ∨ x ∈ es ∧ x.isFolder = false ∨ x ∈ rest := by
  rcases List.mem_cons.1 (R.split.subset hx) with rfl | hx
  · exact .inl rfl
  · rcases List.mem_append.1 hx with hx | hx
    · rw [List.mem_filter] at hx
      exact .inr (.inl ⟨hx.1, by simpa using hx.2⟩)
    · exact .inr (.inr hx)

/-- The folder is not among what is left, and neither are the files that were copied. -/
theorem rest_ne (hx : x ∈ rest) : x.id ≠ e.id ∧ ∀ y ∈ es, y.isFolder = false → y.id ≠ x.id := by
  have hnodup := (R.split.map DriveItem.id).nodup_iff.1 R.ready.nodup
  rw [List.map_cons, List.map_append, List.nodup_cons, List.nodup_append] at hnodup
  obtain ⟨he, -, -, hfiles⟩ := hnodup
  constructor
  · intro heq
    rw [← heq] at he
    exact he (List.mem_append_right _ (List.mem_map_of_mem hx))
  · intro y hy hfile
    have hmem : y ∈ es.filter fun x => !x.isFolder := List.mem_filter.2 ⟨hy, by simp [hfile]⟩
    exact hfiles _ (List.mem_map_of_mem hmem) _ (List.mem_map_of_mem hx)

theorem e_notMem : e.id ∉ es.map DriveItem.id := by
  have hids := (List.nodup_cons.1 R.nodup_ids).1
  rw [List.map_append] at hids
  exact fun hmem => hids (List.mem_append_left _ hmem)

theorem destination_known : before.item (c e.id).id ≠ none := R.ready.made e List.mem_cons_self

/-- What was there, and is no destination, is none of the new destinations. -/
theorem queue_ne {id : String} (hid : before.item id ≠ none) (hq : ∀ x ∈ q, id ≠ (c x.id).id) :
    ∀ y ∈ (es.filter DriveItem.isFolder).reverse ++ q, id ≠ (override es d c y.id).id := by
  intro y hy
  rcases mem_queue hy with ⟨hy, -⟩ | hy
  · rw [override_es hy]
    exact (R.copy_ne hy hid).symm
  · rw [R.override_q hy]
    exact hq y hy

theorem destination_queue_ne : ∀ y ∈ (es.filter DriveItem.isFolder).reverse ++ q,
    (c e.id).id ≠ (override es d c y.id).id :=
  R.queue_ne R.destination_known fun _ hx => (R.destination_ne hx).symm

section Copied

variable {c' : String → DriveItem} {final : DriveStore}
  (h : CopiedBelow kids ((es.filter DriveItem.isFolder).reverse ++ q) rest (override es d c) after c' final)

include h

/-- The copy of the folder is its destination. -/
theorem copied_self : c' e.id = c e.id := by
  rw [h.same e.id fun x hx heq => absurd heq (R.rest_ne hx).1]
  exact if_neg R.e_notMem

/-- A child keeps the copy that the round has made of it. -/
theorem copied_child (hx : x ∈ es) : c' x.id = d x.id := by
  rw [h.same x.id, override_es hx]
  intro y hy heq
  obtain rfl := R.eq_of_id (R.mem_of_rest hy) (R.mem_of_es hx) heq
  cases hfolder : y.isFolder with
  | true => exact List.mem_append_left _ (List.mem_reverse.2 (List.mem_filter.2 ⟨hx, hfolder⟩))
  | false => exact absurd rfl ((R.rest_ne hy).2 y hx hfolder)

/-- What there is after the round, and is no destination, is none of the later copies. -/
theorem later_ne {id : String} (hid : after.item id ≠ none)
    (hq : ∀ y ∈ (es.filter DriveItem.isFolder).reverse ++ q, id ≠ (override es d c y.id).id) :
    ∀ y ∈ rest, id ≠ (c' y.id).id := by
  rintro y hy rfl
  by_cases hmem : y ∈ (es.filter DriveItem.isFolder).reverse ++ q
  · refine hq y hmem ?_
    rw [h.same y.id]
    intro x hx heq
    rwa [R.eq_of_id (R.mem_of_rest hx) (R.mem_of_rest hy) heq]
  · exact hid (h.copies y hy hmem).2

theorem copied_same (id : String) (hid : ∀ x ∈ items, x.id = id → x ∈ e :: q) : c' id = c id := by
  rw [h.same id, override, if_neg]
  · intro hmem
    obtain ⟨y, hy, rfl⟩ := List.mem_map.1 hmem
    rcases List.mem_cons.1 (hid y (R.mem_of_es hy) rfl) with rfl | hq
    · exact R.e_notMem hmem
    · exact R.q_notMem hq hmem
  · intro x hx heq
    rcases List.mem_cons.1 (hid x (R.mem_of_rest hx) heq) with rfl | hq
    · exact absurd rfl (R.rest_ne hx).1
    · exact List.mem_append_right _ hq

theorem copied_copies (hx : x ∈ items) (hxq : x ∉ e :: q) :
    CopyOf x (c' x.id) ∧ before.item (c' x.id).id = none := by
  by_cases hxes : x ∈ es
  · rw [R.copied_child h hxes]
    exact ⟨R.into.copies x hxes, R.into.fresh x hxes⟩
  · rcases R.items_cases hx with rfl | ⟨hes, -⟩ | hxr
    · exact absurd List.mem_cons_self hxq
    · exact absurd hes hxes
    · have hxqueue : x ∉ (es.filter DriveItem.isFolder).reverse ++ q := by
        intro hmem
        rcases mem_queue hmem with ⟨hes, -⟩ | hmem
        · exact hxes hes
        · exact hxq (List.mem_cons_of_mem e hmem)
      obtain ⟨hcopy, hfresh⟩ := h.copies x hxr hxqueue
      refine ⟨hcopy, ?_⟩
      by_contra hknown
      exact R.keeps_ne hknown hfresh

theorem copied_nodup : (items.map fun x => (c' x.id).id).Nodup := by
  rw [(R.split.map _).nodup_iff, List.map_cons, List.map_append, List.nodup_cons, List.nodup_append]
  have hmade : (es.filter fun x => !x.isFolder).map (fun x => (c' x.id).id) =
      (es.filter fun x => !x.isFolder).map fun x => (d x.id).id :=
    List.map_congr_left fun x hx => by rw [R.copied_child h (List.mem_filter.1 hx).1]
  rw [hmade, R.copied_self h]
  refine ⟨?_, R.into.nodup.sublist (List.filter_sublist.map _), h.nodup, ?_⟩
  · intro hmem
    rcases List.mem_append.1 hmem with hmem | hmem
    · obtain ⟨x, hx, heq⟩ := List.mem_map.1 hmem
      exact R.copy_ne (List.mem_filter.1 hx).1 R.destination_known heq
    · obtain ⟨x, hx, heq⟩ := List.mem_map.1 hmem
      exact R.later_ne h (R.keeps_ne R.destination_known) R.destination_queue_ne x hx heq.symm
  · rintro _ hfile _ hy rfl
    obtain ⟨x, hx, rfl⟩ := List.mem_map.1 hfile
    obtain ⟨y, hy, heq⟩ := List.mem_map.1 hy
    obtain ⟨hxes, hxfile⟩ := List.mem_filter.1 hx
    refine R.later_ne h (R.copy_item hxes) ?_ y hy heq.symm
    intro z hz heq
    rcases mem_queue hz with ⟨hz, hzfolder⟩ | hz
    · rw [override_es hz] at heq
      obtain rfl : x = z := List.inj_on_of_nodup_map R.into.nodup hxes hz heq
      simp [hzfolder] at hxfile
    · rw [R.override_q hz] at heq
      exact R.copy_ne hxes (R.ready.made z (List.mem_cons_of_mem e hz)) heq

theorem copied_content (hx : x ∈ items) (hfolder : x.isFolder = true) :
    (final.children (c' x.id).id).Perm ((kids x).map fun y => c' y.id) := by
  rcases R.items_cases hx with rfl | ⟨-, hfile⟩ | hx
  · rw [R.copied_self h, h.outside _ (R.keeps_ne R.destination_known) R.destination_queue_ne, R.into.content,
      R.ready.empty x List.mem_cons_self, List.nil_append]
    rw [List.map_congr_left fun y hy => (R.copied_child h hy).symm]
    exact R.perm.map _
  · rw [hfile] at hfolder
    cases hfolder
  · exact h.content x hx hfolder

theorem copied : CopiedBelow kids (e :: q) items c before c' final where
  same := R.copied_same h
  copies _ hx hxq := R.copied_copies h hx hxq
  nodup := R.copied_nodup h
  content _ hx hfolder := R.copied_content h hx hfolder
  outside id hid hdests := by
    obtain ⟨hne, hqs⟩ := List.forall_mem_cons.1 hdests
    rw [h.outside id (R.keeps_ne hid) (R.queue_ne hid hqs), R.into.outside id hne]

end Copied

end Round

theorem copyLoop_nil {pages fuel : Nat} {r : Outcome String}
    (h : (G.copyLoop pages bearer rootId fuel []).Served (Answers G P) sv r sv') :
    r = .returned (.ok rootId) ∧ sv' = sv := by
  have hdone : G.copyLoop pages bearer rootId fuel [] = pure (.returned (.ok rootId)) := by
    cases fuel <;> rfl
  rw [hdone] at h
  exact h.pure_inv

/-- One round, up to the children that it copies. -/
theorem copyLoop_cons_served {pages fuel : Nat} {frame : Frame} {r : Outcome String}
    (h : (G.copyLoop pages bearer rootId (fuel + 1) (frame :: stack)).Served (Answers G P) sv r sv')
    (hP : P ≤ pages) (hpages : 0 < pages) :
    ∃ es children frames sv₁ sv₂, es.Perm (sv.store.children frame.source) ∧ List.Forall₂ Shows es children ∧
      sv₁.store = sv.store ∧
      (G.copyChildren bearer frame.destination children stack).Served (Answers G P) sv₁ frames sv₂ ∧
      (frames.andThen fun stack => G.copyLoop pages bearer rootId fuel stack).Served (Answers G P) sv₂ r sv' := by
  obtain ⟨stopped, sv₀, ⟨rfl, rfl⟩, h₁⟩ := h.ask_bind_inv
  rw [if_neg Bool.false_ne_true] at h₁
  obtain ⟨listed, sv₁, h₂, h₃⟩ := h₁.bind_inv
  obtain ⟨es, children, rfl, hperm, hshows, hstore⟩ := listChildren_served h₂ hP hpages
  rw [Outcome.andThen_ok] at h₃
  obtain ⟨frames, sv₂, h₄, h₅⟩ := h₃.bind_inv
  exact ⟨es, children, frames, sv₁, sv₂, hperm, hshows, hstore, h₄, h₅⟩

theorem LoopReady.nil_copied {kids : DriveItem → List DriveItem} {c : String → DriveItem}
    (h : LoopReady kids [] items c st) : CopiedBelow kids [] items c st c st := by
  have hnil : items = [] := by
    cases h.below
    rfl
  subst hnil
  exact ⟨fun _ _ => rfl, by simp, by simp, by simp, fun _ _ _ => rfl⟩

/-- What a round does, where the children of the folder come in the order `es`. -/
theorem LoopReady.round {kids : DriveItem → List DriveItem} {c : String → DriveItem}
    {frames : Outcome (List Frame)} (hready : LoopReady kids (e :: q) items c sv.store)
    (hperm : es.Perm (sv.store.children e.id)) (hshows : List.Forall₂ Shows es children)
    (h : (G.copyChildren bearer (c e.id).id children (q.map (frameOf c))).Served (Answers G P) sv frames sv') :
    ∃ d rest, Round kids e q items c sv.store es d sv'.store rest ∧
      folderCount items = folderCount rest + 1 ∧
      frames = .returned (.ok (((es.filter DriveItem.isFolder).reverse ++ q).map
        (frameOf (override es d c)))) := by
  have he : e ∈ items := hready.below.subset List.mem_cons_self
  have hkids : es.Perm (kids e) := hperm.trans (.of_eq (hready.listed e he))
  have hes : ∀ x ∈ es, x ∈ sv.store.children e.id := fun x hx => hperm.subset hx
  obtain ⟨rest, hsplit, hrest, l, hl, hsub⟩ := hready.below.visit hkids.symm DriveItem.isFolder
    fun x hx hfile => by
      rw [← hready.listed x (hready.below.kids_subset he (hkids.subset hx))]
      exact DriveStore.kids_file (hes x hx) hfile
  have hids : ((es ++ q).map DriveItem.id).Nodup := by
    have hnodup := (hl.map DriveItem.id).nodup_iff.1 hready.nodup
    exact (List.nodup_cons.1 hnodup).2.sublist (hsub.map _)
  rw [List.map_append, List.nodup_append] at hids
  obtain ⟨d, hinto, rfl⟩ := copyChildren_served h hshows (fun x hx => sv.store.item_of_mem (hes x hx)) hids.1
  have R : Round kids e q items c sv.store es d sv'.store rest :=
    ⟨hready, hkids, hinto, hsplit, hrest, l, hl, hsub⟩
  refine ⟨d, rest, R, (counts_round (hready.folders e List.mem_cons_self) hsplit).2.1, ?_⟩
  have hframes : framesOf d es = framesOf (override es d c) es :=
    framesOf_congr fun x hx => (Round.override_es hx).symm
  have hqueue : q.map (frameOf c) = q.map (frameOf (override es d c)) := by
    refine List.map_congr_left fun x hx => ?_
    rw [frameOf, frameOf, R.override_q hx]
  rw [hframes, hqueue, List.map_append]
  rfl

/-- The loop ends, with a copy of everything. -/
theorem copyLoop_served {kids : DriveItem → List DriveItem} {c : String → DriveItem} {pages fuel : Nat}
    {r : Outcome String}
    (h : (G.copyLoop pages bearer rootId fuel (q.map (frameOf c))).Served (Answers G P) sv r sv')
    (hready : LoopReady kids q items c sv.store) (hP : P ≤ pages) (hpages : 0 < pages)
    (hfuel : folderCount items ≤ fuel) :
    r = .returned (.ok rootId) ∧ ∃ c', CopiedBelow kids q items c sv.store c' sv'.store := by
  induction fuel generalizing sv q items c with
  | zero =>
    cases q with
    | nil =>
      obtain ⟨rfl, rfl⟩ := copyLoop_nil h
      exact ⟨rfl, c, hready.nil_copied⟩
    | cons e q =>
      have hmem : e ∈ items := hready.below.subset List.mem_cons_self
      have hpos : 0 < folderCount items :=
        List.countP_pos_iff.2 ⟨e, hmem, hready.folders e List.mem_cons_self⟩
      omega
  | succ fuel ih =>
    cases q with
    | nil =>
      obtain ⟨rfl, rfl⟩ := copyLoop_nil h
      exact ⟨rfl, c, hready.nil_copied⟩
    | cons e q =>
      obtain ⟨es, children, frames, sv₁, sv₂, hperm, hshows, hstore, h₁, h₂⟩ :=
        copyLoop_cons_served h hP hpages
      rw [← hstore] at hready hperm
      obtain ⟨d, rest, R, hcount, rfl⟩ := hready.round hperm hshows h₁
      rw [Outcome.andThen_ok] at h₂
      obtain ⟨rfl, c', hcopied⟩ := ih h₂ R.ready_next (by omega)
      rw [← hstore]
      exact ⟨rfl, c', R.copied hcopied⟩

/-! ### A target in the source -/

/-- The folder `b` is in the folder `a`. -/
def DriveStore.Child (st : DriveStore) (a b : String) : Prop :=
  ∃ x ∈ st.children a, x.isFolder = true ∧ x.id = b

theorem Grows.child_mono {after : DriveStore} (h : Grows destination st after) {a b : String}
    (hchild : st.Child a b) : after.Child a b := by
  obtain ⟨x, hx, hfolder⟩ := hchild
  exact ⟨x, h.subset a hx, hfolder⟩

theorem DriveStore.CanAdd.child_new (h : st.CanAdd destination e) (he : e.isFolder = true) :
    (st.add destination e h).Child destination e.id := by
  refine ⟨e, ?_, he, rfl⟩
  rw [DriveStore.children_add_self]
  exact List.mem_append_right _ List.mem_cons_self

/-- What is pushed for the folders among the children. -/
theorem copyChildren_pushes {r : Outcome (List Frame)}
    (h : (G.copyChildren bearer destination children stack).Served (Answers G P) sv r sv')
    (hshows : List.Forall₂ Shows es children) (hitems : ∀ x ∈ es, sv.store.item x.id = some x) :
    ∃ stack', r = .returned (.ok stack') ∧ Grows destination sv.store sv'.store ∧ stack ⊆ stack' ∧
      ∀ x ∈ es, x.isFolder = true → ∃ id, ⟨x.id, id⟩ ∈ stack' ∧ sv'.store.Child destination id := by
  induction hshows generalizing sv stack with
  | nil =>
    obtain ⟨rfl, rfl⟩ := h.pure_inv
    exact ⟨stack, rfl, .refl _ _, fun _ hf => hf, by simp⟩
  | @cons x child es children hshows _ ih =>
    obtain ⟨hitem, hrest⟩ := List.forall_mem_cons.1 hitems
    obtain ⟨e, sv₁, hcopy, ⟨hadd, rfl⟩, h₁⟩ := copyChildren_cons_served h hshows hitem
    obtain ⟨stack', rfl, hgrows, hstack, hpushed⟩ := ih h₁ fun y hy => hadd.grows.keeps (hrest y hy)
    refine ⟨stack', rfl, hadd.grows.trans hgrows, fun f hf => hstack (List.mem_append_right _ hf), ?_⟩
    refine List.forall_mem_cons.2 ⟨fun hfolder => ?_, hpushed⟩
    have hframe : (⟨x.id, e.id⟩ : Frame) ∈ framesOf (fun _ => e) [x] := by simp [framesOf, frameOf, hfolder]
    refine ⟨e.id, hstack (List.mem_append_left _ hframe), hgrows.child_mono (hadd.child_new ?_)⟩
    rw [hcopy.isFolder_eq, hfolder]

/-- While a frame has its destination below its source, the loop does not end. -/
theorem copyLoop_running {pages fuel : Nat} {r : Outcome String}
    (h : (G.copyLoop pages bearer rootId fuel stack).Served (Answers G P) sv r sv') (hP : P ≤ pages)
    (hpages : 0 < pages) (hbelow : ∃ f ∈ stack, TransGen sv.store.Child f.source f.destination) :
    r = .running := by
  induction fuel generalizing sv stack with
  | zero =>
    cases stack with
    | nil =>
      obtain ⟨f, hf, -⟩ := hbelow
      exact absurd hf List.not_mem_nil
    | cons frame stack => exact h.pure_inv.1
  | succ fuel ih =>
    cases stack with
    | nil =>
      obtain ⟨f, hf, -⟩ := hbelow
      exact absurd hf List.not_mem_nil
    | cons frame stack =>
      obtain ⟨es, children, frames, sv₁, sv₂, hperm, hshows, hstore, h₁, h₂⟩ :=
        copyLoop_cons_served h hP hpages
      rw [← hstore] at hperm hbelow
      obtain ⟨stack', rfl, hgrows, hstack, hpushed⟩ := copyChildren_pushes h₁ hshows
        fun x hx => sv₁.store.item_of_mem (hperm.subset hx)
      rw [Outcome.andThen_ok] at h₂
      refine ih h₂ ?_
      have hmono : sv₁.store.Child ≤ sv₂.store.Child := fun a b hab => hgrows.child_mono hab
      obtain ⟨f, hf, hpath⟩ := hbelow
      rcases List.mem_cons.1 hf with rfl | hf
      · -- the next folder on the way to the destination gets a frame with a destination below it
        obtain ⟨b, ⟨x, hx, hfolder, rfl⟩, hrest⟩ := TransGen.head'_iff.1 hpath
        obtain ⟨id, hid, hchild⟩ := hpushed x (hperm.symm.subset hx) hfolder
        exact ⟨⟨x.id, id⟩, hid, TransGen.tail' (ReflTransGen.mono hmono _ _ hrest) hchild⟩
      · exact ⟨f, hstack hf, TransGen.mono hmono _ _ hpath⟩

theorem known_of_below (h : Below st.kids es items) (hes : ∀ e ∈ es, st.item e.id = some e) :
    ∀ x ∈ items, st.item x.id = some x :=
  h.forall_mem hes fun _ _ _ hk => st.item_of_mem hk

/-- A path leads to every folder of the tree. -/
theorem reaches_of_below (h : Below st.kids es items) (hes : ∀ e ∈ es, st.item e.id = some e)
    (hx : x ∈ items) (hfolder : x.isFolder = true) :
    ∃ e ∈ es, e.isFolder = true ∧ ReflTransGen st.Child e.id x.id := by
  induction h with
  | nil => exact absurd hx List.not_mem_nil
  | @cons e es sub items hsub _ ihsub ih =>
    obtain ⟨he, hrest⟩ := List.forall_mem_cons.1 hes
    rcases List.mem_cons.1 hx with rfl | hx
    · exact ⟨x, List.mem_cons_self, hfolder, .refl⟩
    · rcases List.mem_append.1 hx with hx | hx
      · obtain ⟨k, hk, hkfolder, hpath⟩ := ihsub (fun y hy => st.item_of_mem hy) hx
        have hefolder : e.isFolder = true := by
          by_contra hfile
          obtain ⟨e', he', hfolder'⟩ := st.folder (List.ne_nil_of_mem hk)
          rw [he] at he'
          cases he'
          exact hfile hfolder'
        exact ⟨e, List.mem_cons_self, hefolder, .head ⟨k, hk, hkfolder, rfl⟩ hpath⟩
      · obtain ⟨k, hk, hpath⟩ := ih hrest hx
        exact ⟨k, List.mem_cons_of_mem e hk, hpath⟩

/-! ### The whole call -/

/-- `root` is the one new item in `target`, and what is in it is a copy, item by item, of what was in
`source`: `c` has the copies of `source` and of all `items` below it. -/
structure FaithfulCopy (before after : DriveStore) (source : DriveItem) (items : List DriveItem)
    (target root : String) (c : String → DriveItem) : Prop where
  root_eq : (c source.id).id = root
  placed : after.children target = before.children target ++ [c source.id]
  copies : ∀ x ∈ source :: items, CopyOf x (c x.id)
  fresh : ∀ x ∈ source :: items, before.item (c x.id).id = none
  nodup : ((source :: items).map fun x => (c x.id).id).Nodup
  content : ∀ x ∈ source :: items, x.isFolder = true →
    (after.children (c x.id).id).Perm ((before.kids x).map fun y => c y.id)
  others : ∀ id, before.item id ≠ none → id ≠ target → after.children id = before.children id

variable {source : DriveItem} {target : String} {fuel : Nat} {r : Outcome String}

/-- The calls before the loop. -/
theorem copy_served_inv (hready : G.ready = true) (hsource : sv.store.item source.id = some source)
    (hfolder : source.isFolder = true)
    (h : (G.copy fuel source.id target).Served (Answers G P) sv r sv') :
    ∃ bearer e, ∃ hadd : sv.store.CanAdd target e, e.name = source.name ∧ e.isFolder = true ∧
      (G.copyLoop fuel bearer e.id fuel [⟨source.id, e.id⟩]).Served (Answers G P)
        { sv with store := sv.store.add target e hadd } r sv' := by
  unfold GoogleDriveUploader.copy at h
  rw [if_pos hready] at h
  obtain ⟨bearer, sv₁, h₁, h₂⟩ := h.bind_inv
  obtain ⟨⟨bearer, rfl⟩, rfl⟩ := acquireBearer_served h₁.embed_inv
  rw [Outcome.andThen_ok] at h₂
  obtain ⟨doc, sv₂, h₃, h₄⟩ := h₂.bind_inv
  obtain ⟨doc, source', rfl, hsource', hshows, rfl⟩ := fetchMetadata_served h₃
  obtain rfl : source = source' := by
    rw [hsource] at hsource'
    cases hsource'
    rfl
  rw [Outcome.andThen_ok, value_of_stringMember hshows.mimeType, Outcome.ofRead_ok, Outcome.andThen_ok,
    value_of_stringMember hshows.name, Outcome.ofRead_ok, Outcome.andThen_ok,
    if_pos (of_decide_eq_true hfolder)] at h₄
  obtain ⟨created, sv₃, h₅, h₆⟩ := h₄.bind_inv
  obtain ⟨e, rfl, hname, hefolder, hadd, rfl⟩ := createFolder_served h₅.embed_inv
  exact ⟨bearer, e, hadd, hname, hefolder, h₆⟩

/-- The first frame is ready when its destination is not in its source. -/
theorem loopReady_start (hsource : st.item source.id = some source) (hfolder : source.isFolder = true)
    (hbelow : Below st.kids (st.kids source) items) (hnodup : ((source :: items).map DriveItem.id).Nodup)
    (htarget : target ∉ (source :: items).map DriveItem.id) (hadd : st.CanAdd target e) :
    LoopReady st.kids [source] (source :: items) (fun _ => e) (st.add target e hadd) := by
  have hknown : ∀ x ∈ source :: items, st.item x.id = some x :=
    List.forall_mem_cons.2 ⟨hsource, known_of_below hbelow fun x hx => st.item_of_mem hx⟩
  have hne : ∀ x ∈ source :: items, e.id ≠ x.id := by
    intro x hx heq
    have hitem := hknown x hx
    rw [← heq, hadd.fresh] at hitem
    cases hitem
  have htree : Below st.kids [source] (source :: (items ++ [])) := .cons hbelow .nil
  rw [List.append_nil] at htree
  refine ⟨htree, by simpa using hfolder, ?_, ?_, hnodup, ?_, ?_, ?_, by simp⟩
  · intro x hx
    refine DriveStore.children_add_of_ne hadd fun heq => htarget ?_
    rw [← heq]
    exact List.mem_map_of_mem hx
  · intro x hx
    rw [DriveStore.item_add_of_ne hadd (hne x hx).symm, hknown x hx]
  · intro _ _
    rw [DriveStore.children_add_of_ne hadd hadd.parent_ne.symm, DriveStore.children_eq_nil hadd.fresh]
  · intro _ _
    rw [DriveStore.item_add_self]
    simp
  · exact fun _ _ x hx => hne x hx

/-- Where the target is not in the source, the copy is faithful. -/
theorem copy_faithful (hready : G.ready = true) (hsource : sv.store.item source.id = some source)
    (hfolder : source.isFolder = true) (hbelow : Below sv.store.kids (sv.store.kids source) items)
    (hnodup : ((source :: items).map DriveItem.id).Nodup) (hP : P ≤ fuel)
    (hfuel : folderCount (source :: items) ≤ fuel)
    (htarget : target ∉ (source :: items).map DriveItem.id)
    (h : (G.copy fuel source.id target).Served (Answers G P) sv r sv') :
    ∃ root c, r = .returned (.ok root) ∧ FaithfulCopy sv.store sv'.store source items target root c := by
  obtain ⟨bearer, e, hadd, hname, hefolder, h₁⟩ := copy_served_inv hready hsource hfolder h
  have hstart := loopReady_start hsource hfolder hbelow hnodup htarget hadd
  have hpos : 0 < folderCount (source :: items) :=
    List.countP_pos_iff.2 ⟨source, List.mem_cons_self, hfolder⟩
  have hloop : (G.copyLoop fuel bearer e.id fuel ([source].map (frameOf fun _ => e))).Served (Answers G P)
      { sv with store := sv.store.add target e hadd } r sv' := h₁
  obtain ⟨rfl, c, hcopied⟩ := copyLoop_served hloop hstart hP (by omega) hfuel
  have hroot : c source.id = e := by
    refine hcopied.same source.id fun x hx heq => ?_
    rw [List.inj_on_of_nodup_map hnodup hx List.mem_cons_self heq]
    exact List.mem_singleton_self _
  have hknown : ∀ {id}, sv.store.item id ≠ none → (sv.store.add target e hadd).item id ≠ none := by
    intro id hid
    obtain ⟨y, hy⟩ := Option.ne_none_iff_exists'.1 hid
    rw [hadd.grows.keeps hy]
    simp
  have hold : ∀ id, sv.store.item id ≠ none →
      sv'.store.children id = (sv.store.add target e hadd).children id := by
    intro id hid
    refine hcopied.outside id (hknown hid) ?_
    rintro _ - rfl
    exact hid hadd.fresh
  have htargetKnown : sv.store.item target ≠ none := by
    obtain ⟨p, hp, -⟩ := hadd.folder
    rw [hp]
    simp
  have hcopies : ∀ x ∈ source :: items, CopyOf x (c x.id) ∧ sv.store.item (c x.id).id = none := by
    intro x hx
    by_cases hxsource : x = source
    · rw [hxsource, hroot]
      exact ⟨.of_folder hfolder hefolder hname, hadd.fresh⟩
    · obtain ⟨hcopy, hfresh⟩ := hcopied.copies x hx (by simpa using hxsource)
      refine ⟨hcopy, ?_⟩
      by_contra hitem
      exact hknown hitem hfresh
  refine ⟨e.id, c, rfl, by rw [hroot], ?_, fun x hx => (hcopies x hx).1, fun x hx => (hcopies x hx).2,
    hcopied.nodup, hcopied.content, fun id hid hne => ?_⟩
  · rw [hold target htargetKnown, DriveStore.children_add_self, hroot]
  · rw [hold id hid, DriveStore.children_add_of_ne hadd hne]

/-- Where the target is in the source, the call never ends. -/
theorem copy_running (hready : G.ready = true) (hsource : sv.store.item source.id = some source)
    (hfolder : source.isFolder = true) (hbelow : Below sv.store.kids (sv.store.kids source) items)
    (hP : P ≤ fuel) (hfuel : 0 < fuel) (htarget : target ∈ (source :: items).map DriveItem.id)
    (h : (G.copy fuel source.id target).Served (Answers G P) sv r sv') : r = .running := by
  obtain ⟨bearer, e, hadd, -, hefolder, h₁⟩ := copy_served_inv hready hsource hfolder h
  obtain ⟨x, hx, rfl⟩ := List.mem_map.1 htarget
  have htree : Below sv.store.kids [source] (source :: (items ++ [])) := .cons hbelow .nil
  rw [List.append_nil] at htree
  have hitems : ∀ e ∈ [source], sv.store.item e.id = some e := by simpa using hsource
  have hxfolder : x.isFolder = true := by
    obtain ⟨p, hp, hpfolder⟩ := hadd.folder
    rw [known_of_below htree hitems x hx] at hp
    cases hp
    exact hpfolder
  obtain ⟨s, hs, -, hpath⟩ := reaches_of_below htree hitems hx hxfolder
  obtain rfl := List.mem_singleton.1 hs
  have hmono : sv.store.Child ≤ (sv.store.add x.id e hadd).Child := fun a b hab => hadd.grows.child_mono hab
  refine copyLoop_running h₁ hP hfuel ⟨_, List.mem_cons_self, ?_⟩
  exact TransGen.tail' (ReflTransGen.mono hmono _ _ hpath) (hadd.child_new hefolder)

/-- A finite source folder, its listings split into pages in any way, and a target folder anywhere:
given enough rounds, `copy` returns a folder with a faithful copy of the source exactly if the target is
neither the source nor below it. -/
theorem copy_faithful_iff (hready : G.ready = true) (hsource : sv.store.item source.id = some source)
    (hfolder : source.isFolder = true) (hbelow : Below sv.store.kids (sv.store.kids source) items)
    (hnodup : ((source :: items).map DriveItem.id).Nodup) (hP : P ≤ fuel)
    (hfuel : folderCount (source :: items) ≤ fuel)
    (h : (G.copy fuel source.id target).Served (Answers G P) sv r sv') :
    (∃ root c, r = .returned (.ok root) ∧ FaithfulCopy sv.store sv'.store source items target root c) ↔
      target ∉ (source :: items).map DriveItem.id := by
  constructor
  · rintro ⟨root, c, rfl, -⟩ htarget
    have hpos : 0 < folderCount (source :: items) :=
      List.countP_pos_iff.2 ⟨source, List.mem_cons_self, hfolder⟩
    cases copy_running hready hsource hfolder hbelow hP (by omega) htarget h
  · exact fun htarget => copy_faithful hready hsource hfolder hbelow hnodup hP hfuel htarget h

/-! ### A folder into itself, and a folder with a folder in it -/

def folderItem (id : String) : DriveItem := ⟨id, "d", kFolderMime, none, ""⟩

theorem folderItem_isFolder (id : String) : (folderItem id).isFolder = true := by
  simp [folderItem, DriveItem.isFolder]

theorem canAdd_of_folder {parent : String} (hparent : st.item parent = some (folderItem parent))
    (hfresh : st.item e.id = none) (hid : e.id ≠ "") : st.CanAdd parent e :=
  ⟨⟨_, hparent, folderItem_isFolder parent⟩, hfresh, hid⟩

/-- The empty folders `s` and `t`. -/
def twoFolders : DriveStore where
  item id := if id = "s" ∨ id = "t" then some (folderItem id) else none
  children _ := []
  id_eq := by
    intro id e he
    split at he
    · cases he
      rfl
    · cases he
  item_of_mem := fun he => absurd he List.not_mem_nil
  folder := fun h => absurd rfl h
  no_empty := by simp

def itemText (e : DriveItem) : String :=
  "\x7b\"id\":\"" ++ e.id ++ "\",\"name\":\"" ++ e.name ++ "\",\"mimeType\":\"" ++ e.mimeType ++ "\"\x7d"

def itemDoc (e : DriveItem) : Json :=
  .object [("id", .string e.id), ("name", .string e.name), ("mimeType", .string e.mimeType)]

/-- A page with one child, and no other page. -/
def pageText (e : DriveItem) : String := "\x7b\"files\":[" ++ itemText e ++ "]\x7d"

def pageDoc (e : DriveItem) : Json := .object [("files", .array [itemDoc e])]

theorem shows_itemDoc (hsize : e.size = none) : Shows e (itemDoc e) :=
  ⟨rfl, rfl, rfl, hsize.symm⟩

theorem pageText_ne_itemText (e x : DriveItem) : pageText e ≠ itemText x := by
  intro heq
  have hthird := congrArg (fun text => text.toList[2]?) heq
  simp [pageText, itemText] at hthird

theorem isSuccess_text (body : String) : isSuccess ⟨200, body, []⟩ = true := by
  simp [isSuccess]

theorem bearer_cached : G.acquireBearer.Served (fun sv c r sv' => Answers G P sv (.inl c) r sv') sv
    (.ok "Bearer t") sv := by
  refine .call (r := some "Bearer t") rfl ?_
  exact .pure _ _

theorem page_listed (hP : 1 ≤ P) (hparse : G.json.parse (pageText e) = .ok (pageDoc e)) (hsize : e.size = none)
    {parent : String} (hchildren : sv.store.children parent = [e]) (fuel : Nat) :
    (G.listChildren (fuel + 1) bearer parent).Served (Answers G P) sv (.returned (.ok [itemDoc e])) sv := by
  have hpage : sv.Pages P parent "" [[e]] := ⟨hP, by simp [hchildren]⟩
  unfold GoogleDriveUploader.listChildren GoogleDriveUploader.listPages
  refine .ask_bind (r := .ok ⟨200, pageText e, []⟩) ⟨⟨200, pageText e, []⟩, pageDoc e, [e], [], rfl,
    isSuccess_text _, hparse, hpage, .cons (shows_itemDoc hsize) .nil, rfl, rfl⟩ ?_
  simp only [isSuccess_text, if_true, pageOf, hparse]
  exact .pure _ _

/-- A page with one child, and the token of the next page. -/
def firstPageText (e : DriveItem) (token : String) : String :=
  "\x7b\"files\":[" ++ itemText e ++ "],\"nextPageToken\":\"" ++ token ++ "\"\x7d"

def firstPageDoc (e : DriveItem) (token : String) : Json :=
  .object [("files", .array [itemDoc e]), ("nextPageToken", .string token)]

/-- Two children, each on a page of its own. -/
theorem pages_listed {token parent : String} (hP : 2 ≤ P)
    (hfirst : G.json.parse (firstPageText x token) = .ok (firstPageDoc x token))
    (hlast : G.json.parse (pageText e) = .ok (pageDoc e)) (htoken : token ≠ "") (hxsize : x.size = none)
    (hsize : e.size = none) (hchildren : sv.store.children parent = [x, e]) (fuel : Nat) :
    (G.listChildren (fuel + 2) bearer parent).Served (Answers G P) sv (.returned (.ok [itemDoc x, itemDoc e]))
      { sv with cursors := Function.update sv.cursors (parent, token) [[e]] } := by
  have hpages : sv.Pages P parent "" [[x], [e]] := ⟨hP, by simp [hchildren]⟩
  have hleft : DriveServer.Pages P { sv with cursors := Function.update sv.cursors (parent, token) [[e]] }
      parent token [[e]] := by
    unfold DriveServer.Pages
    rw [if_neg htoken]
    show [[e]] = Function.update sv.cursors (parent, token) [[e]] (parent, token)
    rw [Function.update_self]
  unfold GoogleDriveUploader.listChildren GoogleDriveUploader.listPages
  refine .ask_bind (r := .ok ⟨200, firstPageText x token, []⟩) ⟨⟨200, firstPageText x token, []⟩,
    firstPageDoc x token, [x], [[e]], rfl, isSuccess_text _, hfirst, hpages,
    .cons (shows_itemDoc hxsize) .nil, token, htoken, rfl, rfl⟩ ?_
  simp only [isSuccess_text, if_true, pageOf, hfirst]
  unfold GoogleDriveUploader.listPages
  refine .ask_bind (r := .ok ⟨200, pageText e, []⟩) ⟨⟨200, pageText e, []⟩, pageDoc e, [e], [], rfl,
    isSuccess_text _, hlast, hleft, .cons (shows_itemDoc hsize) .nil, rfl, rfl⟩ ?_
  simp only [isSuccess_text, if_true, pageOf, hlast]
  exact .pure _ _

theorem folder_created (hparse : G.json.parse (itemText e) = .ok (itemDoc e)) (he : e.isFolder = true)
    {parent : String} (hadd : sv.store.CanAdd parent e) :
    (G.createFolder e.name parent).Served (fun sv c r sv' => Answers G P sv (.inl c) r sv') sv (.ok e.id)
      { sv with store := sv.store.add parent e hadd } := by
  have hid : G.folderId ⟨200, itemText e, []⟩ = .ok e.id := by
    simp only [GoogleDriveUploader.folderId, parseId, isSuccess_text, if_true, finalFileId, hparse]
    rfl
  refine bearer_cached.bind ?_
  refine .ask_bind (r := .ok ⟨200, itemText e, []⟩) ⟨⟨200, itemText e, []⟩, e, rfl, hid, rfl, he, hadd, rfl⟩ ?_
  show ((pure (G.folderId ⟨200, itemText e, []⟩) : Action (Result String))).Served _ _ _ _
  rw [hid]
  exact .pure _ _

theorem metadata_fetched (hparse : G.json.parse (itemText e) = .ok (itemDoc e)) (hsize : e.size = none)
    (hitem : sv.store.item e.id = some e) :
    (G.fetchMetadata bearer e.id).Served (Answers G P) sv (.returned (.ok (itemDoc e))) sv := by
  unfold GoogleDriveUploader.fetchMetadata
  refine .ask_bind (r := .ok ⟨200, itemText e, []⟩) ⟨⟨⟨200, itemText e, []⟩, itemDoc e, e, rfl,
    isSuccess_text _, hparse, hitem, shows_itemDoc hsize⟩, rfl⟩ ?_
  simp only [isSuccess_text, if_true, hparse]
  exact .pure _ _

/-- A child that is a folder is created anew, and pushed. -/
theorem folder_copied {rest : List Json} {r : Outcome (List Frame)}
    (hparse : G.json.parse (itemText e) = .ok (itemDoc e)) (hx : x.isFolder = true) (hid : x.id ≠ "")
    (hsize : x.size = none) (he : e.isFolder = true) (hname : e.name = x.name)
    (hadd : sv.store.CanAdd destination e)
    (h : (G.copyChildren bearer destination rest (⟨x.id, e.id⟩ :: stack)).Served (Answers G P)
      { sv with store := sv.store.add destination e hadd } r sv') :
    (G.copyChildren bearer destination (itemDoc x :: rest) stack).Served (Answers G P) sv r sv' := by
  have hshows : Shows x (itemDoc x) := shows_itemDoc hsize
  unfold GoogleDriveUploader.copyChildren
  rw [value_of_stringMember hshows.id, value_of_stringMember hshows.mimeType,
    value_of_stringMember hshows.name]
  simp only [Outcome.ofRead_ok, Outcome.andThen_ok, if_neg hid]
  rw [if_pos (of_decide_eq_true hx), ← hname]
  exact (folder_created hparse he hadd).embed.bind h

theorem file_copied {rest : List Json} {r : Outcome (List Frame)}
    (hparse : G.json.parse (itemText e) = .ok (itemDoc e)) (hx : x.isFolder = false) (hid : x.id ≠ "")
    (hsize : x.size = none) (hitem : sv.store.item x.id = some x) (hcopy : CopyOf x e)
    (hadd : sv.store.CanAdd destination e)
    (h : (G.copyChildren bearer destination rest stack).Served (Answers G P)
      { sv with store := sv.store.add destination e hadd } r sv') :
    (G.copyChildren bearer destination (itemDoc x :: rest) stack).Served (Answers G P) sv r sv' := by
  have hshows : Shows x (itemDoc x) := shows_itemDoc hsize
  have hfile : finalFileId G.json (itemText e) = .ok e.id := by
    simp only [finalFileId, hparse]
    rfl
  unfold GoogleDriveUploader.copyChildren
  rw [value_of_stringMember hshows.id, value_of_stringMember hshows.mimeType,
    value_of_stringMember hshows.name]
  simp only [Outcome.ofRead_ok, Outcome.andThen_ok, if_neg hid]
  rw [if_neg (of_decide_eq_false hx)]
  refine .ask_bind (r := .ok ⟨200, itemText e, []⟩) ⟨⟨200, itemText e, []⟩, x, e, rfl, isSuccess_text _, hfile,
    hitem, hcopy, hadd, rfl⟩ ?_
  rw [Outcome.andThen_ok, if_pos (isSuccess_text _)]
  exact h

/-- One round of the loop. -/
theorem loop_round {pages fuel : Nat} {frame : Frame} {stack' : List Frame} {sv₁ sv₂ : DriveServer}
    {r : Outcome String}
    (hlisted : (G.listChildren pages bearer frame.source).Served (Answers G P) sv (.returned (.ok children)) sv₁)
    (hcopied : (G.copyChildren bearer frame.destination children stack).Served (Answers G P) sv₁
      (.returned (.ok stack')) sv₂)
    (h : (G.copyLoop pages bearer rootId fuel stack').Served (Answers G P) sv₂ r sv') :
    (G.copyLoop pages bearer rootId (fuel + 1) (frame :: stack)).Served (Answers G P) sv r sv' := by
  refine .call (r := false) ⟨rfl, rfl⟩ (hlisted.bind ?_)
  rw [Outcome.andThen_ok]
  refine hcopied.bind ?_
  rw [Outcome.andThen_ok]
  exact h

/-- The call up to the loop. -/
theorem copy_started {root : DriveItem} (hready : G.ready = true)
    (hsource : G.json.parse (itemText source) = .ok (itemDoc source))
    (hroot : G.json.parse (itemText root) = .ok (itemDoc root)) (hsize : source.size = none)
    (hfolder : source.isFolder = true) (hrfolder : root.isFolder = true) (hname : root.name = source.name)
    (hitem : sv.store.item source.id = some source) (hadd : sv.store.CanAdd target root)
    (h : (G.copyLoop fuel "Bearer t" root.id fuel [⟨source.id, root.id⟩]).Served (Answers G P)
      { sv with store := sv.store.add target root hadd } r sv') :
    (G.copy fuel source.id target).Served (Answers G P) sv r sv' := by
  have hshows := shows_itemDoc hsize
  unfold GoogleDriveUploader.copy
  rw [if_pos hready]
  refine bearer_cached.embed.bind ?_
  rw [Outcome.andThen_ok]
  refine (metadata_fetched hsource hsize hitem).bind ?_
  rw [Outcome.andThen_ok, value_of_stringMember hshows.mimeType, Outcome.ofRead_ok, Outcome.andThen_ok,
    value_of_stringMember hshows.name, Outcome.ofRead_ok, Outcome.andThen_ok,
    if_pos (of_decide_eq_true hfolder), ← hname]
  exact (folder_created hroot hrfolder hadd).embed.bind h

/-- The ids `s`, `ss`, `sss`, .. -/
def chainItem (n : Nat) : DriveItem := folderItem (String.ofList (List.replicate (n + 1) 's'))

/-- Reads the texts of the folders `s`, `ss`, `sss`, .. and of the pages with one of them. -/
def chainUploader : GoogleDriveUploader :=
  ⟨true, ⟨fun body =>
    let folder := chainItem (body.length - (itemText (chainItem 0)).length)
    let child := chainItem (body.length - (pageText (chainItem 0)).length)
    if body = itemText folder then .ok (itemDoc folder)
    else if body = pageText child then .ok (pageDoc child)
    else .error "parse error", fun _ => 0⟩, "", 0, 1, 1, 0⟩

theorem chainItem_ne {n k : Nat} (h : n ≠ k) : (chainItem n).id ≠ (chainItem k).id := by
  intro heq
  have hlength := congrArg String.length heq
  simp [chainItem, folderItem] at hlength
  exact h hlength

theorem length_chainItem (n : Nat) : (chainItem n).id.length = n + 1 := by
  simp [chainItem, folderItem]

theorem length_itemText (n : Nat) :
    (itemText (chainItem n)).length - (itemText (chainItem 0)).length = n := by
  have hname : (chainItem n).name = (chainItem 0).name := rfl
  have hmime : (chainItem n).mimeType = (chainItem 0).mimeType := rfl
  simp only [itemText, String.length_append, length_chainItem, hname, hmime]
  omega

theorem length_pageText (n : Nat) :
    (pageText (chainItem n)).length - (pageText (chainItem 0)).length = n := by
  have hitem := length_itemText n
  simp only [pageText, String.length_append]
  omega

theorem parse_itemText (n : Nat) :
    chainUploader.json.parse (itemText (chainItem n)) = .ok (itemDoc (chainItem n)) := by
  simp only [chainUploader, length_itemText, if_true]

theorem parse_pageText (n : Nat) :
    chainUploader.json.parse (pageText (chainItem n)) = .ok (pageDoc (chainItem n)) := by
  simp only [chainUploader, length_pageText, if_neg (pageText_ne_itemText _ _), if_true]

/-- The folder `chainItem (n + 1)` is the last of a chain, and the only child of the one before it. -/
structure Chained (n : Nat) (st : DriveStore) : Prop where
  child : st.children (chainItem n).id = [chainItem (n + 1)]
  last : st.item (chainItem (n + 1)).id = some (chainItem (n + 1))
  empty : st.children (chainItem (n + 1)).id = []
  fresh : ∀ k, n + 1 < k → st.item (chainItem k).id = none

theorem chainItem_id_ne (n : Nat) : (chainItem n).id ≠ "" := by
  simp [chainItem, folderItem]

theorem Chained.canAdd {n : Nat} (h : Chained n st) :
    st.CanAdd (chainItem (n + 1)).id (chainItem (n + 2)) :=
  canAdd_of_folder h.last (h.fresh _ (by omega)) (chainItem_id_ne _)

theorem Chained.next {n : Nat} (h : Chained n st) :
    Chained (n + 1) (st.add (chainItem (n + 1)).id (chainItem (n + 2)) h.canAdd) := by
  refine ⟨?_, DriveStore.item_add_self _, ?_, fun k hk => ?_⟩
  · rw [DriveStore.children_add_self, h.empty]
    rfl
  · rw [DriveStore.children_add_of_ne _ (chainItem_ne (by omega)), DriveStore.children_eq_nil (h.fresh _ (by omega))]
  · rw [DriveStore.item_add_of_ne _ (chainItem_ne (by omega)), h.fresh k (by omega)]

theorem chain_copied {n : Nat} (h : Chained n sv.store) :
    (chainUploader.copyChildren "Bearer t" (chainItem (n + 1)).id [itemDoc (chainItem (n + 1))] []).Served
      (Answers chainUploader P) sv (.returned (.ok [frameOf (fun _ => chainItem (n + 2)) (chainItem (n + 1))]))
      { sv with store := sv.store.add (chainItem (n + 1)).id (chainItem (n + 2)) h.canAdd } := by
  have hmime : (chainItem (n + 1)).isFolder = true := folderItem_isFolder _
  refine folder_copied (parse_itemText (n + 2)) hmime (chainItem_id_ne _) rfl (folderItem_isFolder _) rfl
    h.canAdd ?_
  exact .pure _ _

theorem chain_loop {n pages : Nat} (h : Chained n sv.store) (hpages : fuel ≤ pages) :
    ∃ sv', (chainUploader.copyLoop pages "Bearer t" rootId fuel
      [frameOf (fun _ => chainItem (n + 1)) (chainItem n)]).Served (Answers chainUploader 1) sv .running sv' := by
  induction fuel generalizing n sv with
  | zero => exact ⟨sv, .pure _ _⟩
  | succ fuel ih =>
    have hnext : Chained (n + 1) (DriveServer.mk
        (sv.store.add (chainItem (n + 1)).id (chainItem (n + 2)) h.canAdd) sv.cursors).store := h.next
    obtain ⟨sv', hrest⟩ := ih hnext (by omega)
    obtain ⟨pages, rfl⟩ : ∃ m, pages = m + 1 := ⟨pages - 1, by omega⟩
    have hlisted : (chainUploader.listChildren (pages + 1) "Bearer t" (chainItem n).id).Served
        (Answers chainUploader 1) sv (.returned (.ok [itemDoc (chainItem (n + 1))])) sv :=
      page_listed (le_refl 1) (parse_pageText (n + 1)) rfl h.child pages
    exact ⟨sv', loop_round hlisted (chain_copied h) hrest⟩

theorem twoFolders_fresh (n : Nat) : twoFolders.item (chainItem (n + 1)).id = none := by
  have hlength := length_chainItem (n + 1)
  have hones : "s".length = 1 ∧ "t".length = 1 := by decide
  refine if_neg ?_
  rintro (heq | heq) <;> rw [heq] at hlength <;> omega

theorem canAdd_twoFolders {id : String} (hid : id = "s" ∨ id = "t") : twoFolders.CanAdd id (chainItem 1) :=
  canAdd_of_folder (if_pos hid) (twoFolders_fresh 0) (chainItem_id_ne _)

theorem chained_start : Chained 0 (twoFolders.add "s" (chainItem 1) (canAdd_twoFolders (.inl rfl))) := by
  have hs : (chainItem 0).id = "s" := by decide
  have hne : (chainItem 1).id ≠ "s" := by
    rw [← hs]
    exact chainItem_ne (by decide)
  refine ⟨?_, DriveStore.item_add_self _, DriveStore.children_add_of_ne _ hne, fun k hk => ?_⟩
  · rw [hs, DriveStore.children_add_self]
    rfl
  · obtain ⟨m, rfl⟩ : ∃ m, k = m + 1 := ⟨k - 1, by omega⟩
    rw [DriveStore.item_add_of_ne _ (chainItem_ne (by omega)), twoFolders_fresh]

def emptyServer : DriveServer := ⟨twoFolders, fun _ => []⟩

/-- The empty folder `s` is copied into itself: however many rounds there are, the call is still
running, and it cannot do anything else. -/
theorem copy_into_itself : emptyServer.store.item "s" = some (folderItem "s") ∧
    emptyServer.store.children "s" = [] ∧
    (∀ fuel, ∃ sv', (chainUploader.copy fuel "s" "s").Served (Answers chainUploader 1) emptyServer .running sv') ∧
    ∀ fuel r sv', 0 < fuel →
      (chainUploader.copy fuel "s" "s").Served (Answers chainUploader 1) emptyServer r sv' → r = .running := by
  refine ⟨rfl, rfl, fun fuel => ?_, fun fuel r sv' hfuel h => ?_⟩
  · have hchained : Chained 0 (DriveServer.mk
        (twoFolders.add "s" (chainItem 1) (canAdd_twoFolders (.inl rfl))) fun _ => []).store := chained_start
    obtain ⟨sv', hloop⟩ : ∃ sv', (chainUploader.copyLoop fuel "Bearer t" (chainItem 1).id fuel
        [frameOf (fun _ => chainItem 1) (chainItem 0)]).Served (Answers chainUploader 1) _ .running sv' :=
      chain_loop hchained (le_refl fuel)
    have hs : chainItem 0 = folderItem "s" := by decide
    have hparse := parse_itemText 0
    rw [hs] at hparse hloop
    have hcopy : (chainUploader.copy fuel (folderItem "s").id "s").Served (Answers chainUploader 1) emptyServer
        .running sv' := copy_started rfl hparse (parse_itemText 1) rfl (folderItem_isFolder _)
      (folderItem_isFolder _) rfl rfl (canAdd_twoFolders (.inl rfl)) hloop
    exact ⟨sv', hcopy⟩
  · have hcopy : (chainUploader.copy fuel (folderItem "s").id "s").Served (Answers chainUploader 1) emptyServer
        r sv' := h
    have hbelow : Below emptyServer.store.kids (emptyServer.store.kids (folderItem "s")) [] := .nil
    exact copy_running rfl rfl (folderItem_isFolder _) hbelow hfuel hfuel List.mem_cons_self hcopy

def note (id : String) : DriveItem := ⟨id, "n", "text/plain", none, "text"⟩

def noteCopy (id : String) : DriveItem := ⟨id, "Copy of n", "text/plain", none, "text"⟩

theorem note_copied (id id' : String) : CopyOf (note id) (noteCopy id') := by
  refine ⟨rfl, fun hfolder => ?_, fun _ => ⟨rfl, rfl⟩⟩
  cases hfolder

/-- The folder `s` with the folder `d` and the file `f`, and the file `h` in the folder `d`. -/
def nestedStore : DriveStore :=
  let st := twoFolders.add "s" (folderItem "d") (canAdd_of_folder rfl rfl (by decide))
  let st := st.add "s" (note "f") (canAdd_of_folder rfl rfl (by decide))
  st.add "d" (note "h") (canAdd_of_folder rfl rfl (by decide))

def nestedServer : DriveServer := ⟨nestedStore, fun _ => []⟩

/-- The texts of the run below. -/
def nestedTexts : List (String × Json) :=
  ["s", "r", "e"].map (fun id => (itemText (folderItem id), itemDoc (folderItem id))) ++
    ["g", "k"].map (fun id => (itemText (noteCopy id), itemDoc (noteCopy id))) ++
    ["f", "h"].map (fun id => (pageText (note id), pageDoc (note id))) ++
    [(firstPageText (folderItem "d") "p", firstPageDoc (folderItem "d") "p")]

def nestedUploader : GoogleDriveUploader :=
  ⟨true, ⟨fun body => (nestedTexts.lookup body).elim (.error "parse error") .ok, fun _ => 0⟩, "", 0, 1, 1, 0⟩

/-- The folder `s` is listed in two pages, and its folder `d` after it. -/
theorem nested_loop (hadd : nestedStore.CanAdd "t" (folderItem "r")) :
    ∃ sv', (nestedUploader.copyLoop 2 "Bearer t" "r" 2 [⟨"s", "r"⟩]).Served (Answers nestedUploader 2)
      ⟨nestedStore.add "t" (folderItem "r") hadd, fun _ => []⟩ (.returned (.ok "r")) sv' := by
  have hfirst : nestedUploader.json.parse (firstPageText (folderItem "d") "p") =
      .ok (firstPageDoc (folderItem "d") "p") := rfl
  have hlast : nestedUploader.json.parse (pageText (note "f")) = .ok (pageDoc (note "f")) := rfl
  have honly : nestedUploader.json.parse (pageText (note "h")) = .ok (pageDoc (note "h")) := rfl
  have hg : nestedUploader.json.parse (itemText (noteCopy "g")) = .ok (itemDoc (noteCopy "g")) := rfl
  have hk : nestedUploader.json.parse (itemText (noteCopy "k")) = .ok (itemDoc (noteCopy "k")) := rfl
  have hfolder : nestedUploader.json.parse (itemText (folderItem "e")) = .ok (itemDoc (folderItem "e")) := rfl
  refine ⟨_, loop_round (pages_listed (le_refl 2) hfirst hlast (by decide) rfl rfl rfl 0)
    (folder_copied hfolder (folderItem_isFolder _) (by decide) rfl (folderItem_isFolder _) rfl
      (canAdd_of_folder rfl rfl (by decide))
      (file_copied hg rfl (by decide) rfl rfl (note_copied "f" "g")
        (canAdd_of_folder rfl rfl (by decide)) (.pure _ _)))
    (loop_round (page_listed (by decide) honly rfl rfl 1)
      (file_copied hk rfl (by decide) rfl rfl (note_copied "h" "k")
        (canAdd_of_folder rfl rfl (by decide)) (.pure _ _))
      (.pure _ _))⟩

/-- The folder `s`, with a folder in it, is copied into `t`. -/
theorem copy_faithful_nested : ∃ r sv', (nestedUploader.copy 2 "s" "t").Served (Answers nestedUploader 2)
      nestedServer r sv' ∧
    ∃ root c, r = .returned (.ok root) ∧ FaithfulCopy nestedServer.store sv'.store (folderItem "s")
      [folderItem "d", note "h", note "f"] "t" root c := by
  have hadd : nestedStore.CanAdd "t" (folderItem "r") := canAdd_of_folder rfl rfl (by decide)
  obtain ⟨sv', hloop⟩ := nested_loop hadd
  have hs : nestedUploader.json.parse (itemText (folderItem "s")) = .ok (itemDoc (folderItem "s")) := rfl
  have hr : nestedUploader.json.parse (itemText (folderItem "r")) = .ok (itemDoc (folderItem "r")) := rfl
  have hrun : (nestedUploader.copy 2 (folderItem "s").id "t").Served (Answers nestedUploader 2) nestedServer
      (.returned (.ok "r")) sv' :=
    copy_started rfl hs hr rfl (folderItem_isFolder _) (folderItem_isFolder _) rfl rfl hadd hloop
  have hbelow : Below nestedServer.store.kids (nestedServer.store.kids (folderItem "s"))
      [folderItem "d", note "h", note "f"] := by
    have hkids : nestedServer.store.kids (folderItem "s") = [folderItem "d", note "f"] := rfl
    have hh : nestedServer.store.kids (note "h") = [] := rfl
    have hf : nestedServer.store.kids (note "f") = [] := rfl
    have hd : Below nestedServer.store.kids (nestedServer.store.kids (folderItem "d")) [note "h"] :=
      .of_leaves (List.forall_mem_singleton.2 hh)
    rw [hkids]
    exact .cons hd (.of_leaves (List.forall_mem_singleton.2 hf))
  have hfaithful := copy_faithful_iff rfl rfl (folderItem_isFolder _) hbelow (by decide) (le_refl 2) (by decide)
    hrun
  exact ⟨_, _, hrun, hfaithful.2 (by decide)⟩

end Cmlb.Upload.GoogleDrive
