/-
# The lists of a player

Before a player sees a loot, three lists are filled for the player: the free-for-all items,
the conditional ones and the quest drops.  Filling a list makes places due and hands nothing
out (`Offered`): the loop of `FillQuestLoot` lists the drops there is room for, and counts
those that nobody was shown before.  `ListsFit` says what that takes, in the state before.
-/

import ZerosCore.Loots.Books

namespace ZerosCore.Loots

open Lib Player List Option LootItem View Loot Ref

namespace Loot

/-! ### What filling relies on -/

/-- The quest drops a player is about to see. -/
def newQuestItems (l : Loot) (env : Env) (player : UInt32) : List (LootItem × ℕ) :=
  if (l.view player).questItems.isEmpty then
    (l.questItems.zipIdx.filter fun x => shows env player x.1).take
      (maxNrLootItems - l.items.length)
  else []

/-- The quest drops that are about to be counted. -/
def newQuestRefs (l : Loot) (env : Env) (player : UInt32) : List Ref :=
  ((l.newQuestItems env player).filter fun x => x.1.freeforall || !x.1.isBlocked).map
    fun x => .quest x.2

/-- The free-for-all items that are about to be counted. -/
def newFFARefs (l : Loot) (env : Env) (player : UInt32) : List Ref :=
  if (l.view player).ffaItems.isEmpty then (indicesOf (offersFFA env player) l.items).map .item
  else []

/-- The conditional items that are about to be counted. -/
def newCondRefs (l : Loot) (env : Env) (player : UInt32) : List Ref :=
  if (l.view player).condItems.isEmpty then
    (indicesOf (fun it => offersConditional env player it && !it.isCounted) l.items).map .item
  else []

/-- **What the lists rely on**: a free-for-all quest drop is shown to a player it is
allowed for, another one is blocked exactly if somebody sees it already, and the counter
has room. -/
def ListsFit (l : Loot) (env : Env) (player : UInt32) : Prop :=
  (∀ x ∈ l.newQuestItems env player,
    if x.1.freeforall then env.allowedForPlayer player x.1.store = true
    else x.1.isBlocked = l.listed (.quest x.2)) ∧
  l.unlootedCount.toNat + (l.newQuestRefs env player).length + (l.newFFARefs env player).length +
    (l.newCondRefs env player).length < 256

instance (l : Loot) (env : Env) (player : UInt32) : Decidable (l.ListsFit env player) :=
  inferInstanceAs (Decidable (_ ∧ _))

/-! ### Storing a list -/

variable {l l' : Loot} {r r' : Ref} {it : LootItem} {p : UInt32} {v : View}

section StoreList

variable {ql : List QuestItem} {v : View}

theorem view_storeList (hv : ql.isEmpty = true → v = l.view v.guid) :
    (l.storeList ql v).view p = if p = v.guid then v else l.view p := by
  unfold storeList
  split_ifs with hql hp hp
  · rw [hp, ← hv hql]
  · rfl
  · rw [view_setView, if_pos hp]
  · rw [view_setView, if_neg hp]

theorem sum_storeList (hv : ql.isEmpty = true → v = l.view v.guid) :
    (l.storeList ql v).views.sum (unlooted r) + (l.view v.guid).unlooted r =
      l.views.sum (unlooted r) + v.unlooted r := by
  unfold storeList
  split_ifs with hql
  · rw [← hv hql]
  · exact sum_setView

@[simp] theorem itemAt_storeList : (l.storeList ql v).itemAt r = l.itemAt r := by
  unfold storeList
  split_ifs
  · rfl
  · exact itemAt_setView

@[simp] theorem items_storeList : (l.storeList ql v).items = l.items := by
  unfold storeList
  split_ifs <;> rfl

@[simp] theorem awards_storeList : (l.storeList ql v).awards = l.awards := by
  unfold storeList
  split_ifs <;> rfl

@[simp] theorem unlootedCount_storeList : (l.storeList ql v).unlootedCount = l.unlootedCount := by
  unfold storeList
  split_ifs <;> rfl

section

variable (hv : ql.isEmpty = true → v = l.view v.guid)

include hv

/-- Somebody sees a place when a list for it was stored or somebody else saw it. -/
theorem listed_storeList : (l.storeList ql v).listed r = true ↔
      v.lists r = true ∨ ∃ p, p ≠ v.guid ∧ (l.view p).lists r = true := by
  rw [listed_iff]
  constructor
  · rintro ⟨p, hp⟩
    rw [view_storeList hv] at hp
    split_ifs at hp with h
    · exact .inl hp
    · exact .inr ⟨p, h, hp⟩
  rintro (h | ⟨p, hne, h⟩)
  · exact ⟨v.guid, by rwa [view_storeList hv, if_pos rfl]⟩
  · exact ⟨p, by rwa [view_storeList hv, if_neg hne]⟩

theorem due_storeList_of_same
    (he : v.entriesFor r = (l.view v.guid).entriesFor r) : (l.storeList ql v).due r = l.due r := by
  refine due_congr (by rw [itemAt_storeList]) ?_ ?_
  · have hu : v.unlooted r = (l.view v.guid).unlooted r := congrArg (countP _) he
    have h := sum_storeList (r := r) hv
    rw [hu] at h
    exact Nat.add_right_cancel h
  rw [Bool.eq_iff_iff, listed_storeList hv, listed_iff, lists, he, ← lists]
  constructor
  · rintro (h | ⟨p, -, h⟩)
    · exact ⟨v.guid, h⟩
    · exact ⟨p, h⟩
  rintro ⟨p, h⟩
  by_cases hp : p = v.guid
  · exact .inl (hp ▸ h)
  · exact .inr ⟨p, hp, h⟩

theorem due_storeList_of_fresh (hit : l.itemAt r = some it) (hffa : it.freeforall = true)
    (hold : (l.view v.guid).entriesFor r = []) {i : ℕ}
    (hnew : v.entriesFor r = [{ index := i }]) : (l.storeList ql v).due r = l.due r + 1 := by
  have hsum := sum_storeList (r := r) hv
  have hone : v.unlooted r = 1 := by
    rw [unlooted, hnew]
    rfl
  rw [unlooted_eq_zero hold, hone] at hsum
  rw [due_of_ffa (by rw [itemAt_storeList, hit]) hffa, due_of_ffa hit hffa]
  exact hsum

theorem due_storeList_of_listed {j : ℕ}
    (hit : l.itemAt (.quest j) = some it) (hffa : it.freeforall = false)
    (hlooted : it.isLooted = false) (hlists : v.lists (.quest j) = true) :
    (l.storeList ql v).due (.quest j) = 1 := by
  have hlisted : (l.storeList ql v).listed (.quest j) = true :=
    (listed_storeList hv).mpr (.inl hlists)
  rw [due_of_shared (by rw [itemAt_storeList, hit]) hffa, if_pos ⟨hlooted, hlisted⟩]

end

end StoreList

variable {Permitted : UInt32 → LootStoreItem → Prop}

variable {is : List ℕ}

theorem filter_fresh (hnd : is.Nodup) (i : ℕ) :
    (is.map fun i => ({ index := i } : QuestItem)).filter (·.index = i) =
      if i ∈ is then [{ index := i }] else [] := by
  induction is with
  | nil => rfl
  | cons j is ih =>
    obtain ⟨hj, hnd⟩ := nodup_cons.mp hnd
    rw [map_cons, filter_cons, ih hnd]
    by_cases hij : j = i
    · subst hij
      simp [hj]
    · simp [hij, Ne.symm hij]

variable {P : LootItem → Bool}

theorem mem_indicesOf {items : List LootItem} {i : ℕ} :
    i ∈ indicesOf P items ↔ ∃ it, items[i]? = some it ∧ P it = true := by
  simp [indicesOf, mem_zipIdx_iff_getElem?]

theorem nodup_indicesOf (P : LootItem → Bool) (items : List LootItem) :
    (indicesOf P items).Nodup := by
  have h : (items.zipIdx.map Prod.snd).Nodup := by
    rw [zipIdx_map_snd]
    exact nodup_range'
  exact h.sublist (filter_sublist.map _)

theorem length_indicesOf (P : LootItem → Bool) (items : List LootItem) :
    (indicesOf P items).length = items.countP P := by
  have h : (items.zipIdx.map Prod.fst).countP P = items.countP P := by
    rw [zipIdx_map_fst]
  rw [indicesOf, length_map, ← countP_eq_length_filter, ← h, countP_map]
  rfl

theorem mem_refs_of_indicesOf (h : r ∈ (indicesOf P l.items).map item) : r ∈ l.refs := by
  obtain ⟨i, hi, rfl⟩ := mem_map.mp h
  obtain ⟨it, hit, -⟩ := mem_indicesOf.mp hi
  rw [mem_refs, itemAt_item, hit, isSome_some]

theorem nodup_map_item (h : is.Nodup) : (is.map item).Nodup :=
  h.map fun _ _ h => item.inj h

theorem nodup_map_quest (h : is.Nodup) : (is.map quest).Nodup :=
  h.map fun _ _ h => quest.inj h

/-! ### Filling the lists -/

variable {env : Env}

theorem offered_storeList {l0 : Loot} {ql : List QuestItem}
    (hviews : l0.views = l.views) (hdrops : SameDrops l l0)
    (hlooted : ∀ r, (l0.itemAt r).map LootItem.isLooted = (l.itemAt r).map LootItem.isLooted)
    (hawards : l0.awards = l.awards)
    (hcounter : l0.unlootedCount = l.unlootedCount + UInt8.ofNat new.length)
    (hv : ql.isEmpty = true → v = l.view v.guid) (hnd : new.Nodup) (hknown : ∀ r ∈ new, r ∈ l.refs)
    (hdue : ∀ r, (l0.storeList ql v).due r = l.due r + if r ∈ new then 1 else 0)
    (hentries : ∀ r, v.entriesFor r = (l.view v.guid).entriesFor r ∨
      (l.view v.guid).entriesFor r = [] ∧ (∃ i, v.entriesFor r = [{ index := i }]) ∧
        ∀ it, l.itemAt r = some it → it.freeforall = true → Permitted v.guid it.store) :
    Offered Permitted l (l0.storeList ql v) new := by
  have hview : ∀ p, l0.view p = l.view p := fun p => by rw [view, hviews, ← view]
  refine ⟨⟨?_, fun r => ?_⟩, fun r => ?_, ?_, hnd, hknown, hdue, ?_, fun p r => ?_⟩
  · rw [items_storeList, hdrops.length]
  · rw [itemAt_storeList, hdrops.store]
  · rw [itemAt_storeList, hlooted]
  · rw [awards_storeList, hawards]
  · rw [unlootedCount_storeList, hcounter]
  rw [view_storeList (by simpa only [hview] using hv), hview]
  split_ifs with hp
  · rw [hp]
    exact hentries r
  · exact .inl rfl

theorem map_store_of_flags (h : (l'.itemAt r).map flags = (l.itemAt r).map flags) :
    (l'.itemAt r).map LootItem.store = (l.itemAt r).map LootItem.store ∧
      (l'.itemAt r).map LootItem.isLooted = (l.itemAt r).map LootItem.isLooted := by
  have hs : ∀ o : Option LootItem, o.map LootItem.store = (o.map flags).map fun f => f.1 :=
    fun o => by rw [Option.map_map]; rfl
  have hl : ∀ o : Option LootItem, o.map LootItem.isLooted = (o.map flags).map fun f => f.2.1 :=
    fun o => by rw [Option.map_map]; rfl
  rw [hs, hs, hl, hl, h]
  exact ⟨rfl, rfl⟩

theorem offered_of_flags (hviews : l'.views = l.views)
    (hflags : ∀ r, (l'.itemAt r).map flags = (l.itemAt r).map flags)
    (hlength : l'.items.length = l.items.length) (hawards : l'.awards = l.awards)
    (hcounter : l'.unlootedCount = l.unlootedCount) : Offered Permitted l l' [] where
  length := hlength
  store r := (map_store_of_flags (hflags r)).1
  looted r := (map_store_of_flags (hflags r)).2
  awards := hawards
  nodup := nodup_nil
  known r hr := by cases hr
  due r := due_congr (hflags r) (by rw [hviews]) (by rw [listed, hviews, ← listed])
  counter := by rw [hcounter]; exact (UInt8.add_zero _).symm
  entries p r := .inl (by rw [view, hviews, ← view])

/-- The loot `l0` is `l` up to what counts for nobody, and the list `ql` of a player, with whom `v`
is the view, has a fresh entry for each of the places `is`, of which the player saw none. -/
structure Shown (l l0 : Loot) (ql : List QuestItem) (v : View) (place : ℕ → Ref) (is : List ℕ) :
    Prop where
  views : l0.views = l.views
  flags : ∀ r, (l0.itemAt r).map flags = (l.itemAt r).map flags
  kept : ql.isEmpty = true → v = l.view v.guid
  old : ∀ i, (l.view v.guid).entriesFor (place i) = []
  fresh : ∀ i, v.entriesFor (place i) = if i ∈ is then [{ index := i }] else []
  other : ∀ r, (∀ i, r ≠ place i) → v.entriesFor r = (l.view v.guid).entriesFor r

section Shown

variable {l0 : Loot} {ql : List QuestItem} {place : ℕ → Ref} {i : ℕ}

theorem shown_ffa (hql : ql = is.map fun i => ({ index := i } : QuestItem)) (hnd : is.Nodup)
    (hempty : (l.view p).ffaItems = []) (c : UInt8) :
    Shown l { l with unlootedCount := c } ql { l.view p with ffaItems := ql } item is where
  views := rfl
  flags r := by cases r <;> rfl
  kept h := by
    have hnil : ql = (l.view p).ffaItems := (List.isEmpty_iff.mp h).trans hempty.symm
    rw [hnil]
    exact (congrArg l.view view_guid).symm
  old i := by
    dsimp only
    rw [view_guid, entriesFor, hempty, filter_nil]
  fresh i := by
    rw [hql]
    exact filter_fresh hnd i
  other r hr := by
    dsimp only
    rw [view_guid]
    cases r with
    | item i => exact absurd rfl (hr i)
    | quest j => rfl

theorem shown_quest {its : List LootItem} (hits : its.map Loot.flags = l.questItems.map Loot.flags)
    (hql : ql = is.map fun j => ({ index := j } : QuestItem)) (hnd : is.Nodup)
    (hempty : (l.view p).questItems = []) (c : UInt8) :
    Shown l { l with questItems := its, unlootedCount := c } ql { l.view p with questItems := ql }
      quest is where
  views := rfl
  flags r := by
    cases r with
    | item i => rfl
    | quest j => rw [itemAt_quest, itemAt_quest, ← getElem?_map, ← getElem?_map, ← hits]
  kept h := by
    have hnil : ql = (l.view p).questItems := (List.isEmpty_iff.mp h).trans hempty.symm
    rw [hnil]
    exact (congrArg l.view view_guid).symm
  old j := by
    dsimp only
    rw [view_guid, entriesFor, hempty, filter_nil]
  fresh j := by
    rw [hql]
    exact filter_fresh hnd j
  other r hr := by
    dsimp only
    rw [view_guid]
    cases r with
    | item i => rfl
    | quest j => exact absurd rfl (hr j)

variable (h : Shown l l0 ql v place is)

include h

theorem Shown.view (q : UInt32) : l0.view q = l.view q := by
  rw [Loot.view, h.views, ← Loot.view]

theorem Shown.due (r : Ref) : l0.due r = l.due r :=
  due_congr (h.flags r) (by rw [h.views]) (by rw [listed, h.views, ← listed])

theorem Shown.item (hit : l.itemAt r = some it) :
    ∃ it0, l0.itemAt r = some it0 ∧ Loot.flags it0 = Loot.flags it := by
  have hflags := h.flags r
  rwa [hit, map_some, map_eq_some_iff] at hflags

theorem Shown.same (hr : ¬∃ i ∈ is, r = place i) :
    v.entriesFor r = (l.view v.guid).entriesFor r := by
  by_cases hplace : ∃ i, r = place i
  · obtain ⟨i, rfl⟩ := hplace
    rw [h.fresh, h.old, if_neg fun hi => hr ⟨i, hi, rfl⟩]
  · exact h.other r fun i heq => hplace ⟨i, heq⟩

/-- A free-for-all item is due once more. -/
theorem Shown.due_of_ffa (hi : i ∈ is) (hit : l.itemAt (place i) = some it)
    (hffa : it.freeforall = true) : (l0.storeList ql v).due (place i) = l.due (place i) + 1 := by
  obtain ⟨it0, hit0, hflags⟩ := h.item hit
  have hffa0 : it0.freeforall = it.freeforall :=
    congrArg LootStoreItem.partyLoot (congrArg Prod.fst hflags)
  rw [← h.due]
  refine due_storeList_of_fresh (by rw [h.view]; exact h.kept) hit0 (hffa0.trans hffa) ?_
    (by rw [h.fresh, if_pos hi])
  rw [h.view]
  exact h.old i

/-- **The places of a list become due**, those of `new` once more. -/
theorem Shown.offered (hlength : l0.items.length = l.items.length) (hawards : l0.awards = l.awards)
    (hcounter : l0.unlootedCount = l.unlootedCount + UInt8.ofNat new.length) (hnd : new.Nodup)
    (hnew : ∀ r ∈ new, ∃ i ∈ is, r = place i)
    (hseen : ∀ i ∈ is, ∃ it, l.itemAt (place i) = some it ∧
      (it.freeforall = true → Permitted v.guid it.store) ∧
        (l0.storeList ql v).due (place i) = l.due (place i) + if place i ∈ new then 1 else 0) :
    Offered Permitted l (l0.storeList ql v) new := by
  refine offered_storeList h.views ⟨hlength, fun r => (map_store_of_flags (h.flags r)).1⟩
    (fun r => (map_store_of_flags (h.flags r)).2) hawards hcounter h.kept hnd (fun r hr => ?_)
    (fun r => ?_) fun r => ?_
  · obtain ⟨i, hi, rfl⟩ := hnew r hr
    obtain ⟨it, hit, -⟩ := hseen i hi
    rw [mem_refs, hit, isSome_some]
  · by_cases hr : ∃ i ∈ is, r = place i
    · obtain ⟨i, hi, rfl⟩ := hr
      obtain ⟨-, -, -, hdue⟩ := hseen i hi
      exact hdue
    · rw [if_neg fun hmem => hr (hnew r hmem), add_zero, ← h.due]
      refine due_storeList_of_same (by rw [h.view]; exact h.kept) ?_
      rw [h.view]
      exact h.same hr
  · by_cases hr : ∃ i ∈ is, r = place i
    · obtain ⟨i, hi, rfl⟩ := hr
      obtain ⟨it, hit, hP, -⟩ := hseen i hi
      refine .inr ⟨h.old i, ⟨i, by rw [h.fresh, if_pos hi]⟩, fun it' hit' hffa => ?_⟩
      rw [hit, some.injEq] at hit'
      exact hit' ▸ hP (hit'.symm ▸ hffa)
    · exact .inl (h.same hr)

end Shown

/-- A quest drop that is not free for all is due once it is listed. -/
theorem Shown.due_of_shared {l0 : Loot} {ql : List QuestItem} {j : ℕ}
    (h : Shown l l0 ql v quest is) (hj : j ∈ is) (hit : l.itemAt (.quest j) = some it)
    (hffa : it.freeforall = false) (hlooted : it.isLooted = false) :
    (l0.storeList ql v).due (.quest j) =
      l.due (.quest j) + if l.listed (.quest j) = false then 1 else 0 := by
  obtain ⟨it0, hit0, hflags⟩ := h.item hit
  simp only [Loot.flags, Prod.mk.injEq] at hflags
  have hffa0 : it0.freeforall = it.freeforall := congrArg LootStoreItem.partyLoot hflags.1
  have hlists : v.lists (.quest j) = true := by
    rw [lists, h.fresh, if_pos hj]
    rfl
  rw [due_storeList_of_listed (by rw [h.view]; exact h.kept) hit0 (hffa0.trans hffa)
    (hflags.2.1.trans hlooted) hlists, Loot.due_of_shared hit hffa]
  cases hlisted : l.listed (.quest j) <;> simp [onOffer, hlooted, hlisted]

/-- **`FillFFALoot` makes the free-for-all items due that the player may have.** -/
theorem offered_fillFFALoot (hempty : (l.view p).ffaItems = [])
    (hP : ∀ st, env.allowedForPlayer p st = true → Permitted p st) :
    Offered Permitted l (l.fillFFALoot env p)
      ((indicesOf (offersFFA env p) l.items).map .item) := by
  have hnd := nodup_indicesOf (offersFFA env p) l.items
  have hshown := shown_ffa rfl hnd hempty (l.unlootedCount + UInt8.ofNat
    ((indicesOf (offersFFA env p) l.items).map fun i => ({ index := i } : QuestItem)).length)
  refine hshown.offered rfl rfl (by rw [length_map, length_map]) (nodup_map_item hnd)
    (fun r hr => ?_) fun i hi => ?_
  · obtain ⟨i, hi, rfl⟩ := mem_map.mp hr
    exact ⟨i, hi, rfl⟩
  obtain ⟨it, hit, hoff⟩ := mem_indicesOf.mp hi
  simp only [offersFFA, Bool.and_eq_true] at hoff
  refine ⟨it, hit, fun _ => ?_, ?_⟩
  · dsimp only
    rw [view_guid]
    exact hP _ hoff.2
  rw [if_pos (mem_map_of_mem hi)]
  exact hshown.due_of_ffa hi hit hoff.1.2

def counted (env : Env) (p : UInt32) (it : LootItem) : LootItem :=
  if offersConditional env p it then { it with isCounted := true } else it

theorem counted_store (it : LootItem) : (counted env p it).store = it.store := by
  unfold counted
  split_ifs <;> rfl

theorem counted_isLooted (it : LootItem) : (counted env p it).isLooted = it.isLooted := by
  unfold counted
  split_ifs <;> rfl

variable {c : UInt8}

theorem due_counted (r : Ref) :
    ({ l with items := l.items.map (counted env p), unlootedCount := c } : Loot).due r = l.due r +
      if r ∈ (indicesOf (fun it => offersConditional env p it && !it.isCounted) l.items).map
        item then 1 else 0 := by
  obtain ⟨l0, hl0⟩ : ∃ l0 : Loot, l0 =
    { l with items := l.items.map (counted env p), unlootedCount := c } := ⟨_, rfl⟩
  rw [← hl0]
  cases r with
  | quest j =>
    rw [if_neg (by simp), add_zero]
    exact due_congr (by rw [hl0]; rfl) (by rw [hl0]) (by rw [hl0]; rfl)
  | item i =>
    have hmem : item i ∈ (indicesOf (fun it => offersConditional env p it && !it.isCounted)
        l.items).map item ↔
        ∃ it, l.items[i]? = some it ∧ (offersConditional env p it && !it.isCounted) = true := by
      rw [← mem_indicesOf]
      simp
    have hitem : l0.itemAt (.item i) = (l.itemAt (.item i)).map (counted env p) := by
      rw [hl0]
      exact getElem?_map
    by_cases hnew : ∃ it, l.items[i]? = some it ∧
        (offersConditional env p it && !it.isCounted) = true
    · obtain ⟨it, hit, hP⟩ := hnew
      rw [if_pos (hmem.mpr ⟨it, hit, hP⟩)]
      simp only [Bool.and_eq_true, Bool.not_eq_true'] at hP
      have hoff := hP.1
      simp only [offersConditional, shows, Bool.and_eq_true, Bool.not_eq_true'] at hoff
      have hmark : counted env p it = { it with isCounted := true } := if_pos hP.1
      have hold : l.itemAt (.item i) = some it := hit
      rw [hold, map_some, hmark] at hitem
      rw [due_of_shared hitem hoff.1.1, due_of_shared hold hoff.1.1,
        if_pos ⟨hoff.2.1, by simp [onOffer]⟩,
        if_neg (by simp [onOffer, hoff.1.2, hP.2])]
    rw [if_neg fun h => hnew (hmem.mp h), add_zero]
    refine due_congr ?_ (by rw [hl0]) (by rw [hl0]; rfl)
    rw [hitem, Option.map_map]
    cases hit : l.itemAt (.item i) with
    | none => rfl
    | some it =>
      have hkeep : (counted env p it).isCounted = it.isCounted := by
        unfold counted
        split_ifs with hoff
        · by_contra hne
          exact hnew ⟨it, hit, by simp_all⟩
        · rfl
      simp [flags, counted_store, counted_isLooted, hkeep]

/-- **`FillNonQuestNonFFAConditionalLoot` makes the conditional items due that are
shown for the first time.** -/
theorem offered_fillConditional (hempty : (l.view p).condItems = []) :
    Offered Permitted l (l.fillNonQuestNonFFAConditionalLoot env p)
      ((indicesOf (fun it => offersConditional env p it && !it.isCounted) l.items).map .item) := by
  obtain ⟨new, hnew⟩ : ∃ new, new =
    (indicesOf (fun it => offersConditional env p it && !it.isCounted) l.items).map item :=
    ⟨_, rfl⟩
  obtain ⟨ql, hql⟩ : ∃ ql, ql = (indicesOf (offersConditional env p) l.items).map
      fun i => ({ index := i } : QuestItem) := ⟨_, rfl⟩
  obtain ⟨v, hv⟩ : ∃ v : View, v = { l.view p with condItems := ql } := ⟨_, rfl⟩
  obtain ⟨l0, hl0⟩ : ∃ l0 : Loot, l0 = { l with
      items := l.items.map (counted env p)
      unlootedCount := l.unlootedCount + UInt8.ofNat (l.items.countP fun it =>
        offersConditional env p it && !it.isCounted) } := ⟨_, rfl⟩
  have hfill : l.fillNonQuestNonFFAConditionalLoot env p = l0.storeList ql v := by
    rw [hl0, hv, hql]
    rfl
  have hguid : v.guid = p := by rw [hv]; exact view_guid
  have hkeep : ql.isEmpty = true → v = l.view v.guid := by
    intro h
    rw [hguid, hv, List.isEmpty_iff.mp h, ← hempty]
  have hsame : ∀ r, v.entriesFor r = (l.view v.guid).entriesFor r := by
    intro r
    rw [hguid, hv]
    cases r <;> rfl
  have hitem : ∀ r, (l0.itemAt r).map LootItem.store = (l.itemAt r).map LootItem.store ∧
      (l0.itemAt r).map LootItem.isLooted = (l.itemAt r).map LootItem.isLooted := by
    rintro (i | j)
    · have h : l0.itemAt (.item i) = (l.itemAt (.item i)).map (counted env p) := by
        rw [hl0]
        exact List.getElem?_map
      rw [h, Option.map_map, Option.map_map]
      exact ⟨by simp [Function.comp_def, counted_store],
        by simp [Function.comp_def, counted_isLooted]⟩
    rw [hl0]
    exact ⟨rfl, rfl⟩
  rw [hfill, ← hnew]
  refine offered_storeList (by rw [hl0]) ⟨by rw [hl0]; simp, fun r => (hitem r).1⟩
    (fun r => (hitem r).2) (by rw [hl0]) ?_ hkeep (hnew ▸ nodup_map_item (nodup_indicesOf _ _))
    ?_ ?_ fun r => .inl (hsame r)
  · rw [hl0, hnew, length_map, length_indicesOf]
  · rw [hnew]
    exact fun r => mem_refs_of_indicesOf
  intro r
  rw [due_storeList_of_same (by rw [hl0]; exact hkeep) (by rw [hsame, hl0]; rfl), hl0, hnew]
  exact due_counted r

/-- The quest drops a list of `n` items has room for. -/
def shownFrom (env : Env) (p : UInt32) (n i : ℕ) (its : List LootItem) : List (LootItem × ℕ) :=
  ((its.zipIdx i).filter fun x => shows env p x.1).take n

/-- **The loop of `FillQuestLoot`**: it lists the drops shown, up to the room there is,
counts those that are free for all or not blocked, and sets blocks. -/
theorem fillQuestLoop_spec (env : Env) (p : UInt32) (n i : ℕ) (its : List LootItem)
    (ql : List QuestItem) (c : UInt8)
    (hroom : n + ql.length < maxNrLootItems) :
    (fillQuestLoop env p n i its ql c).1.map flags = its.map flags ∧
    (fillQuestLoop env p n i its ql c).2.1 =
      ql ++ (shownFrom env p (maxNrLootItems - (n + ql.length)) i its).map
        (fun x => { index := x.2 }) ∧
    (fillQuestLoop env p n i its ql c).2.2 =
      c + UInt8.ofNat ((shownFrom env p (maxNrLootItems - (n + ql.length)) i its).countP
        fun x => x.1.freeforall || !x.1.isBlocked) := by
  induction its generalizing i ql c with
  | nil => simp [fillQuestLoop, shownFrom]
  | cons it rest ih =>
    obtain ⟨it', hit'⟩ : ∃ it', it' =
        if blocksQuest env p then { it with isBlocked := true } else it := ⟨_, rfl⟩
    have hflags : flags it' = flags it := by
      rw [hit']
      split_ifs <;> rfl
    obtain ⟨c', hc'⟩ : ∃ c', c' = if it.freeforall || !it.isBlocked then c + 1 else c := ⟨_, rfl⟩
    obtain ⟨k, hk⟩ : ∃ k, maxNrLootItems - (n + ql.length) = k + 1 :=
      ⟨maxNrLootItems - (n + ql.length) - 1, by omega⟩
    rw [hk]
    cases hshow : shows env p it with
    | false =>
      have hskip : shownFrom env p (k + 1) i (it :: rest) =
          shownFrom env p (k + 1) (i + 1) rest := by
        simp [shownFrom, zipIdx_cons, hshow]
      obtain ⟨h1, h2, h3⟩ := ih (i + 1) ql c hroom
      rw [hk] at h2 h3
      rw [hskip]
      simp only [fillQuestLoop, hshow, Bool.false_eq_true, if_false, map_cons]
      exact ⟨by rw [h1], h2, h3⟩
    | true =>
      have htake : shownFrom env p (k + 1) i (it :: rest) =
          (it, i) :: shownFrom env p k (i + 1) rest := by
        simp [shownFrom, zipIdx_cons, hshow]
      have hcount : c' + UInt8.ofNat ((shownFrom env p k (i + 1) rest).countP
          fun x => x.1.freeforall || !x.1.isBlocked) =
          c + UInt8.ofNat (((it, i) :: shownFrom env p k (i + 1) rest).countP
            fun x => x.1.freeforall || !x.1.isBlocked) := by
        rw [hc', countP_cons]
        split_ifs with h
        · rw [UInt8.ofNat_add, UInt8.add_assoc, UInt8.add_comm 1]
          rfl
        · rfl
      have hloop : fillQuestLoop env p n i (it :: rest) ql c =
          if n + (ql ++ [({ index := i } : QuestItem)]).length = maxNrLootItems then
            (it' :: rest, ql ++ [{ index := i }], c')
          else (it' :: (fillQuestLoop env p n (i + 1) rest (ql ++ [{ index := i }]) c').1,
            (fillQuestLoop env p n (i + 1) rest (ql ++ [{ index := i }]) c').2) := by
        rw [hit', hc', fillQuestLoop, if_pos hshow]
      rw [htake, ← hcount, hloop]
      have hlen : (ql ++ [({ index := i } : QuestItem)]).length = ql.length + 1 := by simp
      split_ifs with hfull
      · -- the loot is full: nothing more is listed
        have hk0 : k = 0 := by omega
        subst hk0
        simp [shownFrom, hflags]
      obtain ⟨h1, h2, h3⟩ := ih (i + 1) (ql ++ [{ index := i }]) c' (by omega)
      have hk' : maxNrLootItems - (n + (ql ++ [({ index := i } : QuestItem)]).length) = k :=
        by omega
      rw [hk'] at h2 h3
      refine ⟨?_, ?_, h3⟩
      · rw [map_cons, map_cons, h1, hflags]
      · rw [h2, map_cons, append_assoc, singleton_append]

theorem newQuestItems_eq (hempty : (l.view p).questItems = []) : l.newQuestItems env p =
    shownFrom env p (maxNrLootItems - l.items.length) 0 l.questItems := by
  rw [newQuestItems, hempty, isEmpty_nil, if_pos rfl]
  rfl

theorem of_mem_shownFrom {n : ℕ} {x : LootItem × ℕ} (hx : x ∈ shownFrom env p n 0 l.questItems) :
    l.itemAt (.quest x.2) = some x.1 ∧ shows env p x.1 = true := by
  obtain ⟨hat, hshow⟩ := mem_filter.mp (mem_of_mem_take hx)
  exact ⟨mem_zipIdx_iff_getElem?.mp hat, hshow⟩

theorem nodup_shownFrom (env : Env) (p : UInt32) (n : ℕ) (its : List LootItem) :
    ((shownFrom env p n 0 its).map Prod.snd).Nodup := by
  have h : (its.zipIdx.map Prod.snd).Nodup := by
    rw [zipIdx_map_snd]
    exact nodup_range'
  exact h.sublist (((take_sublist _ _).trans filter_sublist).map _)

/-- A drop is counted if its block, which says whether somebody sees it, is not set. -/
theorem mem_newQuestRefs (hempty : (l.view p).questItems = []) {x : LootItem × ℕ}
    (hx : x ∈ l.newQuestItems env p) :
    quest x.2 ∈ l.newQuestRefs env p ↔ (x.1.freeforall || !x.1.isBlocked) = true := by
  simp only [newQuestRefs, List.mem_map, List.mem_filter, quest.injEq]
  refine ⟨fun ⟨y, ⟨hy, hcounted⟩, hyx⟩ => ?_, fun hcounted => ⟨x, ⟨hx, hcounted⟩, rfl⟩⟩
  rw [newQuestItems_eq hempty] at hx hy
  have hsame := (of_mem_shownFrom hy).1
  rw [hyx, (of_mem_shownFrom hx).1, some.injEq] at hsame
  rwa [hsame]

/-- **`FillQuestLoot` makes the quest drops due that are shown to the player.** -/
theorem offered_fillQuestLoot (hsmall : l.items.length ≤ maxNrLootItems)
    (hempty : (l.view p).questItems = [])
    (hP : ∀ st, env.allowedForPlayer p st = true → Permitted p st)
    (hfit : ∀ x ∈ l.newQuestItems env p,
      if x.1.freeforall then env.allowedForPlayer p x.1.store = true
      else x.1.isBlocked = l.listed (.quest x.2)) :
    Offered Permitted l (l.fillQuestLoot env p) (l.newQuestRefs env p) := by
  have hxs : l.newQuestItems env p = _ := newQuestItems_eq hempty
  by_cases hfull : l.items.length = maxNrLootItems
  · have hnil : l.newQuestRefs env p = [] := by
      rw [newQuestRefs, hxs, hfull, Nat.sub_self, shownFrom, take_zero]
      rfl
    rw [hnil, fillQuestLoot, if_pos hfull]
    exact offered_of_flags rfl (fun _ => rfl) rfl rfl rfl
  obtain ⟨hits, hql, hcount⟩ := fillQuestLoop_spec env p l.items.length 0 l.questItems []
    l.unlootedCount (show l.items.length + 0 < maxNrLootItems by omega)
  rw [fillQuestLoot, if_neg hfull]
  generalize fillQuestLoop env p l.items.length 0 l.questItems [] l.unlootedCount = out
    at hits hql hcount
  obtain ⟨its, ql, c⟩ := out
  dsimp only at hits hql hcount ⊢
  rw [length_nil, Nat.add_zero, ← hxs] at hql hcount
  have hnd : ((l.newQuestItems env p).map Prod.snd).Nodup := hxs ▸ nodup_shownFrom ..
  have hlist : ql = ((l.newQuestItems env p).map Prod.snd).map
      fun j => ({ index := j } : QuestItem) := by
    rw [hql, List.map_map]
    rfl
  have hshown := shown_quest hits hlist hnd hempty c
  refine hshown.offered rfl rfl ?_ ?_ (fun r hr => ?_) fun j hj => ?_
  · rw [newQuestRefs, length_map, ← countP_eq_length_filter]
    exact hcount
  · rw [newQuestRefs, ← Function.comp_def, ← List.map_map]
    exact nodup_map_quest (hnd.sublist (List.filter_sublist.map _))
  · obtain ⟨x, hx, rfl⟩ := mem_map.mp hr
    exact ⟨x.2, mem_map_of_mem (mem_filter.mp hx).1, rfl⟩
  obtain ⟨x, hx, rfl⟩ := mem_map.mp hj
  obtain ⟨hat, hshow⟩ := of_mem_shownFrom (hxs ▸ hx)
  have hfitx := hfit x hx
  refine ⟨x.1, hat, fun hffa => ?_, ?_⟩
  · rw [if_pos hffa] at hfitx
    dsimp only
    rw [view_guid]
    exact hP _ hfitx
  have hmem := mem_newQuestRefs hempty hx
  cases hffa : x.1.freeforall with
  | true =>
    rw [if_pos (hmem.mpr (by rw [hffa]; rfl))]
    exact hshown.due_of_ffa hj hat hffa
  | false =>
    simp only [hffa, Bool.false_eq_true, if_false] at hfitx
    simp only [shows, Bool.and_eq_true, Bool.not_eq_true'] at hshow
    rw [hshown.due_of_shared hj hat hffa hshow.1, ← hfitx]
    refine congrArg _ (if_congr ?_ rfl rfl)
    rw [hmem, hffa, Bool.false_or, Bool.not_eq_true']

theorem fillQuestLoot_items : (l.fillQuestLoot env p).items = l.items := by
  unfold fillQuestLoot
  split_ifs
  · rfl
  · exact items_storeList

theorem fillFFALoot_items : (l.fillFFALoot env p).items = l.items := items_storeList

theorem fillQuestLoot_view (hempty : (l.view p).questItems = []) :
    ((l.fillQuestLoot env p).view p).ffaItems = (l.view p).ffaItems ∧
      ((l.fillQuestLoot env p).view p).condItems = (l.view p).condItems := by
  unfold fillQuestLoot
  split_ifs
  · exact ⟨rfl, rfl⟩
  generalize fillQuestLoop env p l.items.length 0 l.questItems [] l.unlootedCount = out
  obtain ⟨its, ql, c⟩ := out
  obtain ⟨l0, hl0⟩ : ∃ l0 : Loot, l0 = { l with questItems := its, unlootedCount := c } :=
    ⟨_, rfl⟩
  have hview : l0.view p = l.view p := by rw [hl0]; rfl
  show ((storeList _ ql _).view p).ffaItems = _ ∧ ((storeList _ ql _).view p).condItems = _
  rw [← hl0, hview, view_storeList, if_pos view_guid.symm]
  · exact ⟨rfl, rfl⟩
  intro h
  rw [view_guid, hview, List.isEmpty_iff.mp h, ← hempty]

theorem fillFFALoot_view (hempty : (l.view p).ffaItems = []) :
    ((l.fillFFALoot env p).view p).condItems = (l.view p).condItems := by
  unfold fillFFALoot
  generalize (indicesOf (offersFFA env p) l.items).map (fun i => ({ index := i } : QuestItem)) = ql
  obtain ⟨l0, hl0⟩ : ∃ l0 : Loot, l0 = { l with
    unlootedCount := l.unlootedCount + UInt8.ofNat ql.length } := ⟨_, rfl⟩
  have hview : l0.view p = l.view p := by rw [hl0]; rfl
  show ((storeList _ ql _).view p).condItems = _
  rw [← hl0, hview, view_storeList, if_pos view_guid.symm]
  intro h
  rw [view_guid, hview, List.isEmpty_iff.mp h, ← hempty]

/-- **Filling the lists of a player keeps the books right.** -/
theorem Sound.fillLists (hs : Sound Permitted l)
    (hP : ∀ st, env.allowedForPlayer p st = true → Permitted p st) (hfit : l.ListsFit env p) :
    Sound Permitted (l.fillLists env p) := by
  obtain ⟨hquest, hroom⟩ := hfit
  obtain ⟨l1, hl1⟩ : ∃ l1, l1 =
    if (l.view p).questItems.isEmpty then l.fillQuestLoot env p else l := ⟨_, rfl⟩
  obtain ⟨l2, hl2⟩ : ∃ l2, l2 =
    if (l1.view p).ffaItems.isEmpty then l1.fillFFALoot env p else l1 := ⟨_, rfl⟩
  have h1 : Offered Permitted l l1 (l.newQuestRefs env p) := by
    rw [hl1]
    split_ifs with he
    · exact offered_fillQuestLoot hs.small (List.isEmpty_iff.mp he) hP hquest
    rw [newQuestRefs, newQuestItems, if_neg he]
    exact offered_of_flags rfl (fun _ => rfl) rfl rfl rfl
  have hitems1 : l1.items = l.items := by
    rw [hl1]
    split_ifs
    · exact fillQuestLoot_items
    · rfl
  have hview1 : (l1.view p).ffaItems = (l.view p).ffaItems ∧
      (l1.view p).condItems = (l.view p).condItems := by
    rw [hl1]
    split_ifs with he
    · exact fillQuestLoot_view (List.isEmpty_iff.mp he)
    · exact ⟨rfl, rfl⟩
  have h2 : Offered Permitted l1 l2 (l.newFFARefs env p) := by
    rw [hl2, newFFARefs, ← hitems1, hview1.1]
    split_ifs with he
    · exact offered_fillFFALoot (hview1.1.trans (List.isEmpty_iff.mp he)) hP
    · exact offered_of_flags rfl (fun _ => rfl) rfl rfl rfl
  have hitems2 : l2.items = l.items := by
    rw [hl2]
    split_ifs
    · exact fillFFALoot_items.trans hitems1
    · exact hitems1
  have hview2 : (l2.view p).condItems = (l.view p).condItems := by
    rw [hl2]
    split_ifs with he
    · exact (fillFFALoot_view (List.isEmpty_iff.mp he)).trans hview1.2
    · exact hview1.2
  have h3 : Offered Permitted l2 (l.fillLists env p) (l.newCondRefs env p) := by
    have hlast : l.fillLists env p = if (l2.view p).condItems.isEmpty then
        l2.fillNonQuestNonFFAConditionalLoot env p else l2 := by rw [hl2, hl1]; rfl
    rw [hlast, newCondRefs, ← hitems2, hview2]
    split_ifs with he
    · exact offered_fillConditional (hview2.trans (List.isEmpty_iff.mp he))
    · exact offered_of_flags rfl (fun _ => rfl) rfl rfl rfl
  have hs1 := hs.offer h1 (by omega)
  have hc1 : l1.unlootedCount.toNat = l.unlootedCount.toNat + (l.newQuestRefs env p).length := by
    rw [hs1.counted, h1.outstanding, hs.counted]
  have hs2 := hs1.offer h2 (by omega)
  have hc2 : l2.unlootedCount.toNat = l1.unlootedCount.toNat + (l.newFFARefs env p).length := by
    rw [hs2.counted, h2.outstanding, hs1.counted]
  exact hs2.offer h3 (by omega)

end Loot
end ZerosCore.Loots
