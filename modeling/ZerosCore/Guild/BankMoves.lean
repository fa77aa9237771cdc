/-
# Moves of the guild bank conserve items

A plan that `CanStore` gives is sound for the item in the slots as they are: in the bank
by the loop of `CanStoreItemInTab`, for the player by `canStoreItem_sound`.  All its
slots are on the side that was asked, and a swap inside the bank takes just the slot of
the other item, so that the two plans of a swap have no slot in common.

A move is then one of the three moves of `Lib.Stacks`: of a whole stack, of a part of
it, or of two stacks that are swapped.
-/

import ZerosCore.Guild.Bank
import ZerosCore.Player.Room

namespace ZerosCore.Guild

open Lib Stacks Player List Option

theorem stackAt_charSlots (s : Slots Place Item) (p : Pos) :
    (charSlots s).stackAt p = s.stackAt (.char p) := by
  refine Option.ext fun it => ?_
  rw [Slots.stackAt_eq_some, Slots.stackAt_eq_some, charSlots, mem_filterMap]
  constructor
  · rintro ⟨⟨q, it'⟩, hmem, hq⟩
    cases q with
    | bank q => cases hq
    | char q =>
      obtain ⟨rfl, rfl⟩ := Cell.mk.inj (some.inj hq)
      exact hmem
  intro hmem
  exact ⟨⟨.char p, it⟩, hmem, rfl⟩

namespace Vault

variable {db : ItemStore} {v : Vault} {src dst place q : Place} {p : TabSlot} {it moved d : Item}
  {dest : Option Item} {swap merge : Bool} {n total : ℕ} {plan : List (Place × ℕ)}
  {pl pl' : Plan Place} {target : Option Place} {v' : Vault} {entry : ℕ}

/-! ### Items that are there -/

theorem stackAt_of_getItem (h : v.getItem db place = some it) : v.slots.stackAt place = some it := by
  cases place with
  | bank p =>
    rw [getItem] at h
    split_ifs at h
    exact h
  | char p =>
    rw [← stackAt_charSlots]
    exact (Inventory.exists_of_getItemByPos h).2

theorem stackAt_of_initItem (h : v.initItem db place = some it) :
    v.slots.stackAt place = some it := by
  have hget : v.getItem db place = some it := by
    cases place with
    | bank p => exact h
    | char p => exact (filter_eq_some_iff.mp h).1
  exact stackAt_of_getItem hget

/-! ### Plans -/

/-- The slot that is emptied by a swap. -/
def swapped (swap : Bool) (place : Place) : Option Place := if swap then some place else none

/-- What a place is part of: a tab of the bank, or the player. -/
def tab? : Place → Option UInt8
  | .bank p => some p.tab
  | .char _ => none

/-- A slot suits the item, as one of those found when asked at `place`. -/
structure Suits (db : ItemStore) (v : Vault) (target : Option Place) (place : Place) (it : Item)
    (q : Place) (n : ℕ) : Prop where
  takes : v.slots.Takes db.maxStack target it q n
  side : tab? q = tab? place
  there : ∀ p, q = .char p → v.inventory.SlotExists db p

/-- A sound plan for `total` of the item. -/
abbrev PlanSound (db : ItemStore) (v : Vault) (target : Option Place) (place : Place) (it : Item)
    (total : ℕ) (pl : Plan Place) : Prop :=
  Plan.Sound (Suits db v target place it) total pl

def IsSlot (v : Vault) (p : TabSlot) : Prop :=
  p.tab < v.treasury.guild.purchasedTabs ∧ p.slot < guildBankMaxSlots

theorem otherItem_of_stackAt (hp : v.IsSlot p) (hd : v.slots.stackAt (.bank p) = some d)
    (hne : d.guid ≠ it.guid) : v.otherItem db p it = some d := by
  unfold otherItem
  rw [getItem, if_pos (show _ ∧ _ from hp), hd, filter_some, if_pos (decide_eq_true hne)]

section

variable (h : PlanSound db v target (.bank p) it total pl)

include h

theorem PlanSound.reserveSpace {r : TabSlot}
    (hr : v.IsSlot r) (htab : r.tab = p.tab) (hdest : target = some (.bank r) ∨ dest = v.otherItem db r it)
    (hok : reserveSpace db r it dest pl = some pl') :
    PlanSound db v target (.bank p) it total pl' := by
  have hsuits : ∀ {space : ℕ}, space ≤ db.maxStack it.entry →
      (∀ d, dest = some d → d.entry = it.entry ∧ d.count + space ≤ db.maxStack it.entry) →
      ∀ n ≤ space, Suits db v target (.bank p) it (.bank r) n := by
    intro space hle hroom n hn
    refine ⟨⟨hn.trans hle, fun d hd hne => ?_⟩, congrArg some htab, nofun⟩
    rcases hdest with htarget | hother
    · exact .inl htarget
    obtain ⟨he, hc⟩ := hroom d (hother.trans (otherItem_of_stackAt hr hd hne))
    exact .inr ⟨he, (Nat.add_le_add_left hn _).trans hc⟩
  unfold Vault.reserveSpace at hok
  cases dest with
  | none =>
    obtain rfl := some.inj hok
    exact h.add (hsuits (le_refl _) nofun)
  | some d =>
    dsimp only at hok
    split_ifs at hok with hfull
    obtain rfl := some.inj hok
    rw [not_or, not_not, not_le] at hfull
    refine h.add (hsuits (Nat.sub_le _ _) fun d' hd' => ?_)
    obtain rfl := some.inj hd'
    exact ⟨hfull.1, by omega⟩

/-- **The loop of `CanStoreItemInTab` keeps a plan sound.** -/
theorem PlanSound.canStoreItemInTab (htab : p.tab < v.treasury.guild.purchasedTabs) {slots : List ℕ}
    (hslots : ∀ j ∈ slots, j < guildBankMaxSlots) : PlanSound db v target (.bank p) it total
      (v.canStoreItemInTab db p.tab it p.slot merge slots pl) := by
  induction slots generalizing pl with
  | nil => exact h
  | cons j slots ih =>
    have hrest : ∀ i ∈ slots, i < guildBankMaxSlots := fun i hi => hslots i (mem_cons_of_mem _ hi)
    rw [Vault.canStoreItemInTab]
    dsimp only
    split_ifs
    · exact h
    · exact ih h hrest
    · exact ih h hrest
    refine ih ?_ hrest
    cases hres : Vault.reserveSpace db ⟨p.tab, j⟩ it (v.otherItem db ⟨p.tab, j⟩ it) pl with
    | none => exact h
    | some pl' =>
      have hj : v.IsSlot ⟨p.tab, j⟩ := ⟨htab, hslots j mem_cons_self⟩
      exact h.reserveSpace hj rfl (.inr rfl) hres

theorem PlanSound.canStoreInTab
    (htab : p.tab < v.treasury.guild.purchasedTabs) (hok : v.canStoreInTab db p it pl = (.ok, plan)) :
    PlanSound db v target (.bank p) it total { dest := plan, count := 0 } := by
  have hslots : ∀ j ∈ List.range guildBankMaxSlots, j < guildBankMaxSlots :=
    fun j hj => mem_range.mp hj
  -- a finished plan is the one returned
  have hdone : ∀ {pl : Plan Place}, PlanSound db v target (.bank p) it total pl → pl.count = 0 →
      PlanSound db v target (.bank p) it total { dest := pl.dest, count := 0 } := by
    rintro ⟨dest, count⟩ hpl rfl
    exact hpl
  unfold Vault.canStoreInTab at hok
  have hmerged : PlanSound db v target (.bank p) it total (if 1 < db.maxStack it.entry then
      v.canStoreItemInTab db p.tab it p.slot true (List.range guildBankMaxSlots) pl else pl) := by
    split_ifs
    · exact h.canStoreItemInTab htab hslots
    · exact h
  dsimp only at hok
  generalize (if 1 < db.maxStack it.entry then
    v.canStoreItemInTab db p.tab it p.slot true (List.range guildBankMaxSlots) pl else pl) = merged
    at hok hmerged
  split_ifs at hok with hfull hplaced
  · obtain ⟨-, rfl⟩ := Prod.mk.inj hok
    exact hdone hmerged hfull.2
  · obtain ⟨-, rfl⟩ := Prod.mk.inj hok
    exact hdone (hmerged.canStoreItemInTab htab hslots) hplaced
  · cases (Prod.mk.inj hok).1

end

/-- A slot that a request may name: one of the tab, or none in particular. -/
def Named : Place → Prop
  | .bank p => p.slot < guildBankMaxSlots ∨ p.slot = nullSlot
  | .char _ => True

theorem bankCanStore_sound (hp : Named (.bank p)) (hok : v.bankCanStore db p it swap = (.ok, plan)) :
    PlanSound db v (swapped swap (.bank p)) (.bank p) it it.count { dest := plan, count := 0 } := by
  have hstart : PlanSound db v (swapped swap (.bank p)) (.bank p) it it.count { count := it.count } :=
    Plan.sound_start _ _
  have hdest : swapped swap (.bank p) = some (.bank p) ∨
      (if swap then none else v.otherItem db p it) = v.otherItem db p it := by
    cases swap with
    | true => exact .inl rfl
    | false => exact .inr rfl
  unfold bankCanStore at hok
  dsimp only at hok
  generalize (if swap then none else v.otherItem db p it) = dest at hok hdest
  split_ifs at hok with hbound htab hslot
  · cases (Prod.mk.inj hok).1
  · cases (Prod.mk.inj hok).1
  · have htab' : p.tab < v.treasury.guild.purchasedTabs := UInt8.not_le.mp htab
    have hslot' : v.IsSlot p := ⟨htab', hp.resolve_right hslot⟩
    split at hok
    · cases (Prod.mk.inj hok).1
    next pl hres =>
      have hpl := hstart.reserveSpace hslot' rfl hdest hres
      split_ifs at hok with hzero
      · obtain ⟨-, rfl⟩ := Prod.mk.inj hok
        obtain ⟨found, count⟩ := pl
        exact (show count = 0 from hzero) ▸ hpl
      · exact hpl.canStoreInTab htab' hok
  · exact hstart.canStoreInTab (UInt8.not_le.mp htab) hok

/-- **What `CanStore` finds is sound.** -/
theorem canStore_sound (hplace : Named place) (hok : v.canStore db place it swap = some plan) :
    PlanSound db v (swapped swap place) place it it.count { dest := plan, count := 0 } := by
  cases place with
  | bank p =>
    unfold canStore at hok
    dsimp only at hok
    split at hok
    · next found hfound =>
        obtain rfl := some.inj hok
        exact bankCanStore_sound hplace hfound
    · cases hok
  | char p =>
    unfold canStore at hok
    dsimp only at hok
    split at hok
    · next found hfound =>
        obtain rfl := some.inj hok
        have hsound := Inventory.canStoreItem_sound hfound
        refine ⟨?_, ?_, ?_⟩
        · have hmap : (found.map fun x => ((.char x.1, x.2) : Place × ℕ)).map Prod.fst =
              (found.map Prod.fst).map Place.char := by
            rw [List.map_map, List.map_map]
            rfl
          rw [hmap]
          exact hsound.nodup.map fun _ _ h => Place.char.inj h
        · have hsum := hsound.sum
          rw [List.map_map]
          exact hsum
        rintro ⟨q, n⟩ hx
        obtain ⟨⟨q', n'⟩, hmem, hq⟩ := mem_map.mp hx
        obtain ⟨rfl, rfl⟩ := Prod.mk.inj hq
        have htakes := hsound.takes _ hmem
        refine ⟨⟨htakes.toSlots.1, fun d hd hne => ?_⟩, rfl, ?_⟩
        · rw [← stackAt_charSlots] at hd
          rcases htakes.toSlots.2 d hd hne with htarget | hroom
          · left
            cases swap with
            | true =>
              obtain rfl : p = q' := some.inj htarget
              rfl
            | false => cases htarget
          · exact .inr hroom
        intro r hr
        obtain rfl := Place.char.inj hr
        exact htakes.there
    · cases hok

theorem tab?_of_mem_plan (hplace : Named place) (hok : v.canStore db place it swap = some plan)
    (hq : q ∈ plan.map Prod.fst) : tab? q = tab? place := by
  obtain ⟨x, hx, rfl⟩ := mem_map.mp hq
  exact ((canStore_sound hplace hok).takes x hx).side

theorem canStore_swap_bank (hslot : p.slot ≠ nullSlot) (hcount : it.count ≤ db.maxStack it.entry)
    (hok : v.canStore db (.bank p) it true = some plan) : plan = [(.bank p, it.count)] := by
  unfold canStore bankCanStore at hok
  dsimp only at hok
  have hres : Vault.reserveSpace db p it none { count := it.count } =
      some { dest := [(.bank p, it.count)], count := 0 } := by
    simp [Vault.reserveSpace, Plan.add, Plan.push, hcount]
  split at hok
  · next found hfound =>
      obtain rfl := some.inj hok
      simp only [if_true, hres] at hfound
      split_ifs at hfound
      · cases (Prod.mk.inj hfound).1
      · cases (Prod.mk.inj hfound).1
      · exact (Prod.mk.inj hfound).2.symm
  · cases hok

theorem slot_of_initItem (h : v.initItem db (.bank p) = some it) : p.slot ≠ nullSlot := by
  rw [initItem, getItem] at h
  split_ifs at h with hslot
  unfold guildBankMaxSlots at hslot
  unfold nullSlot
  omega

/-- **The two plans of a swap have no slot in common.** -/
theorem canStore_disjoint {back : List (Place × ℕ)} (htidy : v.slots.Tidy db.maxStack v.guid)
    (hsrc : Named src) (hdst : Named dst) (hne : src ≠ dst)
    (hbank : src.isBank = true ∨ dst.isBank = true)
    (hsrcItem : v.initItem db src = some it) (hdstItem : v.initItem db dst = some d)
    (hplan : v.canStore db dst it true = some plan) (hback : v.canStore db src d true = some back) :
    ∀ x ∈ back.map Prod.fst, x ∉ plan.map Prod.fst := by
  have hcount := htidy.bounded.of_stackAt (stackAt_of_initItem hsrcItem)
  have hcount' := htidy.bounded.of_stackAt (stackAt_of_initItem hdstItem)
  intro x hx hx'
  have hsame : tab? src = tab? dst :=
    (tab?_of_mem_plan hsrc hback hx).symm.trans (tab?_of_mem_plan hdst hplan hx')
  cases src with
  | char p =>
    cases dst with
    | char q => rcases hbank with h | h <;> cases h
    | bank q => cases hsame
  | bank p =>
    cases dst with
    | char q => cases hsame
    | bank q =>
      rw [canStore_swap_bank (slot_of_initItem hsrcItem) hcount' hback] at hx
      rw [canStore_swap_bank (slot_of_initItem hdstItem) hcount hplan] at hx'
      exact hne ((mem_singleton.mp hx).symm.trans (mem_singleton.mp hx'))

/-! ### Bags

The contents of a bag are found by the number of its slot, so no bag may leave its slot with
something in it: a bag in a bag slot does not move at all, and every item stays where
`GetItemByPos` finds it. -/

variable {r : Pos}

theorem slotExists_of_bags (h : v.inventory.SlotExists db r)
    (hbags : ∀ bag b, Pos.isBagSlot bag = true → db.isBag b = true →
      v.slots.stackAt (.char ⟨inventorySlotBag0, bag⟩) = some b →
      ∃ b', v'.slots.stackAt (.char ⟨inventorySlotBag0, bag⟩) = some b' ∧ b'.entry = b.entry) :
    v'.inventory.SlotExists db r := by
  rcases h with h | ⟨b, hb, hlt⟩
  · exact .inl h
  right
  unfold Inventory.getBagByPos at hb ⊢
  split_ifs at hb ⊢ with hslot
  obtain ⟨hat, hbag⟩ := filter_eq_some_iff.mp hb
  obtain ⟨b', hb', he⟩ := hbags _ b hslot hbag (stackAt_charSlots _ _ ▸ hat)
  have hbag' : db.isBag b' = true := by
    unfold ItemStore.isBag at hbag ⊢
    rwa [he]
  refine ⟨b', ?_, ?_⟩
  · rw [show v'.inventory.slots = charSlots v'.slots from rfl, stackAt_charSlots, hb',
      filter_some, if_pos hbag']
  unfold Inventory.bagSize at hlt ⊢
  rwa [he]

/-- No bag in a bag slot is the item that moves from there. -/
def NoBagAt (db : ItemStore) (place : Place) (it : Item) : Prop :=
  ∀ bag, Pos.isBagSlot bag = true → place = .char ⟨inventorySlotBag0, bag⟩ → db.isBag it = false

theorem noBagAt_of_initItem (h : v.initItem db place = some it) : NoBagAt db place it := by
  rintro bag hbag rfl
  have hfree := (filter_eq_some_iff.mp h).2
  have hpos : Pos.isBagPos ⟨inventorySlotBag0, bag⟩ = true := by
    simp [Pos.isBagPos, hbag]
  unfold Inventory.canBeTraded at hfree
  by_contra hne
  simp [hpos, Bool.not_eq_false _ ▸ hne] at hfree

theorem stackAt_removeItem (h : q ≠ src) :
    (v.removeItem src dst it n).slots.stackAt q = v.slots.stackAt q := by
  unfold removeItem
  dsimp only
  split_ifs
  · rw [Slots.stackAt_putAt, if_neg h]
  · rw [Slots.stackAt_eraseAt, if_neg h]

theorem slotExists_removeItem (hit : v.slots.stackAt src = some it)
    (hbag : NoBagAt db src it) (h : v.inventory.SlotExists db r) :
    (v.removeItem src dst it n).inventory.SlotExists db r := by
  refine slotExists_of_bags h fun bag b hslot hb hat => ⟨b, ?_, rfl⟩
  have hne : (.char ⟨inventorySlotBag0, bag⟩ : Place) ≠ src := by
    intro heq
    rw [← heq, hat] at hit
    rw [some.inj hit, hbag bag hslot heq.symm] at hb
    cases hb
  rw [stackAt_removeItem hne, hat]

theorem slotExists_storeItem (h : v.inventory.SlotExists db r) :
    (v.storeItem db it plan).inventory.SlotExists db r :=
  slotExists_of_bags h fun _ _ _ _ hat =>
    (Slots.kind_stackAt_store hat).imp fun _ hb => ⟨hb.1, hb.2.1⟩

/-- Every item of the player is in a slot that is there. -/
def Placed (db : ItemStore) (v : Vault) : Prop :=
  ∀ r b, v.slots.stackAt (.char r) = some b → v.inventory.SlotExists db r

theorem Placed.removeItem (h : v.Placed db) (hit : v.slots.stackAt src = some it)
    (hbag : NoBagAt db src it) : (v.removeItem src dst it n).Placed db := by
  intro r b hr
  refine slotExists_removeItem hit hbag ?_
  by_cases hsrc : .char r = src
  · exact h r it (hsrc ▸ hit)
  rw [stackAt_removeItem hsrc] at hr
  exact h r b hr

theorem Placed.storeItem (h : v.Placed db)
    (hplan : ∀ r, .char r ∈ plan.map Prod.fst → v.inventory.SlotExists db r) :
    (v.storeItem db it plan).Placed db := by
  intro r b hr
  refine slotExists_storeItem ?_
  by_cases hmem : .char r ∈ plan.map Prod.fst
  · exact hplan r hmem
  have hat : (v.storeItem db it plan).slots.stackAt (.char r) = v.slots.stackAt (.char r) :=
    Slots.stackAt_store hmem
  exact h r b (hat ▸ hr)

theorem slotExists_canStore (hplace : Named place)
    (hok : v.canStore db place it swap = some plan) (hr : .char r ∈ plan.map Prod.fst) :
    v.inventory.SlotExists db r := by
  obtain ⟨x, hx, hxr⟩ := mem_map.mp hr
  exact ((canStore_sound hplace hok).takes x hx).there r hxr

/-! ### Moves -/

/-- Nothing is lost or made, the slots are tidy and no item is out of reach. -/
structure Conserved (db : ItemStore) (v v' : Vault) : Prop where
  tidy : v'.slots.Tidy db.maxStack v'.guid
  total : ∀ entry, v'.slots.total entry = v.slots.total entry
  placed : v.Placed db → v'.Placed db

theorem conserved_whole (htidy : v.slots.Tidy db.maxStack v.guid) (hdst : Named dst)
    (hit : v.initItem db src = some it) (hok : v.doItemsMove db src dst it it none 0 = some v') :
    Conserved db v v' := by
  obtain ⟨plan, hplan, hv'⟩ := bind_eq_some_iff.mp hok
  obtain rfl := some.inj hv'
  have hat := stackAt_of_initItem hit
  have hbag := noBagAt_of_initItem hit
  have hsound := (canStore_sound hdst hplan).imp fun q n h => h.takes
  refine ⟨(htidy.moveWhole hat hsound).1, (htidy.moveWhole hat hsound).2,
    fun h => (h.removeItem hat hbag).storeItem fun r hr => ?_⟩
  exact slotExists_removeItem hat hbag (slotExists_canStore hdst hplan hr)

theorem conserved_split {g : ℕ} (htidy : v.slots.Tidy db.maxStack g) (hguid : v.guid = g + 1)
    (hdst : Named dst) (hit : v.initItem db src = some it) (hentry : moved.entry = it.entry)
    (hnew : moved.guid = g) (hcount : moved.count = n) (hzero : n ≠ 0) (hle : n ≤ it.count)
    (hok : v.doItemsMove db src dst it moved none n = some v') : Conserved db v v' := by
  subst hcount
  obtain ⟨plan, hplan, hv'⟩ := bind_eq_some_iff.mp hok
  obtain rfl := some.inj hv'
  have hat := stackAt_of_initItem hit
  have hbag := noBagAt_of_initItem hit
  have hslots : (v.removeItem src dst it moved.count).slots =
      v.slots.putAt src (Stackable.setCount it (Stackable.count it - Stackable.count moved)) :=
    if_pos hzero
  have hmove := htidy.moveSplit (m := (v.removeItem src dst it moved.count).mark db) hat hentry
    hnew hle ((canStore_sound hdst hplan).imp fun q n h => h.takes)
  rw [← hguid, ← hslots] at hmove
  refine ⟨hmove.1, hmove.2, fun h => (h.removeItem hat hbag).storeItem fun r hr => ?_⟩
  exact slotExists_removeItem hat hbag (slotExists_canStore hdst hplan hr)

theorem conserved_swap (htidy : v.slots.Tidy db.maxStack v.guid) (hsrc : Named src)
    (hdst : Named dst) (hne : src ≠ dst) (hbank : src.isBank = true ∨ dst.isBank = true)
    (hit : v.initItem db src = some it) (hd : v.initItem db dst = some d)
    (hok : v.doItemsMove db src dst it it (some d) 0 = some v') : Conserved db v v' := by
  obtain ⟨plan, hplan, hok'⟩ := bind_eq_some_iff.mp hok
  obtain ⟨back, hback, hv'⟩ := bind_eq_some_iff.mp hok'
  obtain rfl := some.inj hv'
  have hat := stackAt_of_initItem hit
  have hat' := stackAt_of_initItem hd
  have hbag := noBagAt_of_initItem hit
  have hbag' := noBagAt_of_initItem hd
  have hatOut : (v.removeItem src dst it 0).slots.stackAt dst = some d := by
    show (v.slots.eraseAt src).stackAt dst = some d
    rw [Slots.stackAt_eraseAt, if_neg hne.symm, hat']
  have hsound := (canStore_sound hdst hplan).imp fun q n h => h.takes
  have hsound' := (canStore_sound hsrc hback).imp fun q n h => h.takes
  have hdisj := canStore_disjoint htidy hsrc hdst hne hbank hit hd hplan hback
  -- a slot that is there stays there while both items are taken out
  have hthere : ∀ {r : Pos}, v.inventory.SlotExists db r →
      ((v.removeItem src dst it 0).removeItem dst src d 0).inventory.SlotExists db r :=
    fun h => slotExists_removeItem hatOut hbag' (slotExists_removeItem hat hbag h)
  refine ⟨(htidy.moveSwap hat hat' hne hsound hsound' hdisj rfl rfl).1,
    (htidy.moveSwap hat hat' hne hsound hsound' hdisj rfl rfl).2, fun h => ?_⟩
  have hout : ((v.removeItem src dst it 0).removeItem dst src d 0).Placed db :=
    (h.removeItem hat hbag).removeItem hatOut hbag'
  refine (hout.storeItem fun r hr => ?_).storeItem fun r hr => ?_
  · exact hthere (slotExists_canStore hdst hplan hr)
  · exact slotExists_storeItem (hthere (slotExists_canStore hsrc hback hr))

/-- **Carried out**: a `_DoItemsMove` of the item in the source went through. -/
def CarriedOut (db : ItemStore) (src dst : Place) (v v' : Vault) : Prop :=
  ∃ it moved dest splitedAmount guid, v.initItem db src = some it ∧
    { v with guid := guid }.doItemsMove db src dst it moved dest splitedAmount = some v'

/-- What a request may do: it is carried out and conserves all items, or changes nothing.  A part
that was split off for nothing uses up a guid. -/
def Outcome (db : ItemStore) (src dst : Place) (v v' : Vault) : Prop :=
  CarriedOut db src dst v v' ∧ Conserved db v v' ∨
    v'.slots = v.slots ∧ v'.treasury = v.treasury ∧ v.guid ≤ v'.guid

theorem outcome_same : Outcome db src dst v v := .inr ⟨rfl, rfl, le_refl _⟩

/-- A request that does anything moves an item between two places. -/
theorem serve_cases (db : ItemStore) (v : Vault) (r : Request) : v.serve db r = v ∨
    Named r.source ∧ Named r.destination ∧ r.source ≠ r.destination ∧
      (r.source.isBank = true ∨ r.destination.isBank = true) ∧
      ∃ n, v.serve db r = v.moveItems db r.source r.destination n := by
  cases r with
  | swapItems tabId slotId destTabId destSlotId n =>
    unfold serve swapItems
    dsimp only
    split_ifs with hslots hsame
    · exact .inl rfl
    · exact .inl rfl
    simp only [not_or, not_le] at hslots
    exact .inr ⟨.inl hslots.2.1, .inl hslots.2.2.2, fun h => hsame (Place.bank.inj h), .inl rfl, _, rfl⟩
  | swapItemsWithInventory toChar tabId slotId playerBag playerSlotId n =>
    unfold serve swapItemsWithInventory
    dsimp only
    by_cases hslot : (guildBankMaxSlots ≤ slotId.toNat ∧ slotId.toNat ≠ nullSlot) ∨
        v.treasury.guild.purchasedTabs ≤ tabId
    · exact .inl (if_pos hslot)
    have hp : Named (.bank ⟨tabId, slotId.toNat⟩) := by
      by_cases h : slotId.toNat = nullSlot
      · exact .inr h
      · exact .inl (not_le.mp fun hle => hslot (.inl ⟨hle, h⟩))
    rw [if_neg hslot]
    right
    cases toChar with
    | true => exact ⟨hp, trivial, nofun, .inl rfl, _, rfl⟩
    | false => exact ⟨trivial, hp, nofun, .inr rfl, _, rfl⟩

section

variable (htidy : v.slots.Tidy db.maxStack v.guid)

include htidy

/-- **The move engine conserves items**, or changes nothing. -/
theorem outcome_moveItems (hsrc : Named src)
    (hdst : Named dst) (hne : src ≠ dst) (hbank : src.isBank = true ∨ dst.isBank = true) :
    Outcome db src dst v (v.moveItems db src dst n) := by
  unfold moveItems
  split
  · exact outcome_same
  next it hit =>
  have hat := stackAt_of_initItem hit
  split
  · exact outcome_same
  next hmany =>
  have hle : (if n = it.count then 0 else n) ≤ it.count := by
    split_ifs
    · exact Nat.zero_le _
    · exact not_lt.mp hmany
  dsimp only
  generalize (if n = it.count then 0 else n) = splitedAmount at hle
  split
  · exact outcome_same
  split
  · exact outcome_same
  split
  · next hzero =>
      -- a part is split off
      have hcount : (v.cloneItem db it splitedAmount).count = splitedAmount :=
        min_eq_left (hle.trans (htidy.bounded.of_stackAt hat))
      have hentry : (v.cloneItem db it splitedAmount).entry = it.entry := rfl
      have hnew : (v.cloneItem db it splitedAmount).guid = v.guid := rfl
      cases hmove : { v with guid := v.guid + 1 }.doItemsMove db src dst it
          (v.cloneItem db it splitedAmount) none splitedAmount with
      | none => exact .inr ⟨rfl, rfl, Nat.le_succ _⟩
      | some v' =>
        have hconserved : Conserved db { v with guid := v.guid + 1 } v' :=
          conserved_split htidy rfl hdst hit hentry hnew hcount hzero hle hmove
        exact .inl ⟨⟨it, _, none, splitedAmount, _, hit, hmove⟩,
          hconserved.tidy, hconserved.total, hconserved.placed⟩
  split
  · next v' hmove =>
      exact .inl ⟨⟨it, it, none, 0, v.guid, hit, hmove⟩, conserved_whole htidy hdst hit hmove⟩
  -- no room: the two items are swapped
  split
  · exact outcome_same
  next d hd =>
  split
  · exact outcome_same
  split
  · exact outcome_same
  cases hmove : v.doItemsMove db src dst it it (some d) 0 with
  | none => exact outcome_same
  | some v' =>
    exact .inl ⟨⟨it, it, some d, 0, v.guid, hit, hmove⟩,
      conserved_swap htidy hsrc hdst hne hbank hit hd hmove⟩

theorem outcome_serve (r : Request) : Outcome db r.source r.destination v (v.serve db r) := by
  obtain h | ⟨hsrc, hdst, hne, hbank, n, h⟩ := v.serve_cases db r
  · rw [h]
    exact outcome_same
  · rw [h]
    exact outcome_moveItems htidy hsrc hdst hne hbank

theorem conserved_serve (r : Request) : Conserved db v (v.serve db r) := by
  rcases outcome_serve htidy r with ⟨-, h⟩ | ⟨hslots, -, hguid⟩
  · exact h
  refine ⟨hslots ▸ htidy.mono hguid, fun _ => by rw [hslots], fun h q b hb => ?_⟩
  refine slotExists_of_bags (h q b (hslots ▸ hb)) fun bag b' _ _ hat => ⟨b', ?_, rfl⟩
  rw [hslots, hat]

end

/-- **Moves conserve items.**  Whatever the bank and the player hold and whatever is asked, the
total of every entry is the same afterwards, no stack is above its maximum, no slot has two items
and no item two slots; a request that is not carried out leaves the slots and the counters of
withdrawals as they were. -/
theorem serve_conserves (htidy : v.slots.Tidy db.maxStack v.guid) (r : Request) :
    (∀ entry, (v.serve db r).slots.total entry = v.slots.total entry) ∧
      (v.serve db r).slots.Tidy db.maxStack (v.serve db r).guid ∧
      ((v.serve db r).slots.rows.map Cell.pos).Nodup ∧
      (CarriedOut db r.source r.destination v (v.serve db r) ∨
        (v.serve db r).slots = v.slots ∧ (v.serve db r).treasury = v.treasury) := by
  obtain ⟨htidy', htotal, -⟩ := conserved_serve htidy r
  refine ⟨htotal, htidy', (v.serve db r).slots.distinct, ?_⟩
  rcases outcome_serve htidy r with ⟨h, -⟩ | ⟨hslots, htreasury, -⟩
  · exact .inl h
  · exact .inr ⟨hslots, htreasury⟩

def cloth : ItemStore where
  template _ := { stackable := 20 }
  limitCategory _ := none

def tabOfCloth : Vault where
  treasury := Treasury.start { guildOfTwo with purchasedTabs := 1 } 0 fun _ => ⟨0, Nat.zero_le _⟩
  player := 1
  slots :=
    { rows := [⟨.bank ⟨0, 0⟩, { guid := 1, entry := 2589, count := 20 }⟩,
        ⟨.bank ⟨0, 1⟩, { guid := 2, entry := 2589, count := 15 }⟩]
      distinct := by decide }
  guid := 3

/-- Of 10 pieces split off, 5 fill the other stack up and 5 go to the next free slot. -/
theorem serve_conserves_spill :
    ((tabOfCloth.serve cloth (.swapItems 0 0 0 1 10)).slots.rows.map fun c =>
        (c.pos, c.stack.guid, c.stack.count)) =
        [(.bank ⟨0, 2⟩, 3, 5), (.bank ⟨0, 1⟩, 2, 20), (.bank ⟨0, 0⟩, 1, 10)] ∧
      ∀ entry, (tabOfCloth.serve cloth (.swapItems 0 0 0 1 10)).slots.total entry =
        tabOfCloth.slots.total entry := by
  have htidy : tabOfCloth.slots.Tidy cloth.maxStack tabOfCloth.guid := by
    refine ⟨?_, ?_, ?_⟩
    · unfold Slots.Bounded
      decide
    · unfold Slots.Apart
      decide
    rintro i ⟨c, hc, rfl⟩
    revert c
    decide
  exact ⟨by decide +kernel, (serve_conserves htidy _).1⟩

/-! ### Rights -/

/-- How much of an entry is in a place. -/
def amount (v : Vault) (entry : ℕ) (place : Place) : ℕ :=
  (v.slots.stackAt place).elim 0 (Slots.weight entry)

/-- The slot is on one side of the move, and there the player has the right. -/
def Entitled (right : Place → Place → Bool) (src dst : Place) (p : TabSlot) : Prop :=
  tab? src = some p.tab ∧ right src dst = true ∨ tab? dst = some p.tab ∧ right dst src = true

/-- What is in a slot of the bank grows and shrinks only if the player may do it, and the slots of
the tabs that are not named are as before. -/
structure KeepsRights (v : Vault) (src dst : Place) (v' : Vault) : Prop where
  stores : ∀ entry p, v.amount entry (.bank p) < v'.amount entry (.bank p) →
    Entitled v.hasStoreRights src dst p
  withdraws : ∀ entry p, v'.amount entry (.bank p) < v.amount entry (.bank p) →
    Entitled v.hasWithdrawRights src dst p
  others : ∀ p, tab? src ≠ some p.tab → tab? dst ≠ some p.tab →
    v'.slots.stackAt (.bank p) = v.slots.stackAt (.bank p)

theorem keepsRights_of_slots (h : v'.slots = v.slots) : KeepsRights v src dst v' := by
  refine ⟨fun entry p hlt => ?_, fun entry p hlt => ?_, fun p _ _ => by rw [h]⟩ <;>
    rw [amount, amount, h] at hlt <;> exact absurd hlt (lt_irrefl _)

/-- A place that is not in a tab is not a slot of it. -/
theorem bank_ne (h : tab? src ≠ some p.tab) : .bank p ≠ src := fun heq => h (heq ▸ rfl)

theorem bank_notMem (hplace : Named place) (hok : v.canStore db place it swap = some plan)
    (h : tab? place ≠ some p.tab) : .bank p ∉ plan.map Prod.fst :=
  fun hp => h (tab?_of_mem_plan hplace hok hp).symm

theorem amount_removeItem_le (hit : v.slots.stackAt src = some it) (q : Place) :
    (v.removeItem src dst it n).amount entry q ≤ v.amount entry q := by
  by_cases hq : q = src
  · subst hq
    unfold amount removeItem
    dsimp only
    rw [hit]
    split_ifs
    · rw [Slots.stackAt_putAt, if_pos rfl]
      show (if it.entry = entry then it.count - n else 0) ≤ if it.entry = entry then it.count else 0
      split_ifs <;> omega
    · rw [Slots.stackAt_eraseAt, if_pos rfl]
      exact Nat.zero_le _
  unfold amount
  rw [stackAt_removeItem hq]

theorem amount_le_storeItem : v.amount entry q ≤ (v.storeItem db it plan).amount entry q := by
  cases hq : v.slots.stackAt q with
  | none =>
    unfold amount
    rw [hq]
    exact Nat.zero_le _
  | some b =>
    obtain ⟨b', hb', hkind, hcount⟩ : ∃ b', (v.storeItem db it plan).slots.stackAt q = some b' ∧ _ :=
      Slots.kind_stackAt_store hq
    unfold amount
    rw [hq, hb']
    show Slots.weight entry b ≤ Slots.weight entry b'
    unfold Slots.weight
    rw [hkind]
    split_ifs
    · exact hcount
    · exact le_refl _

theorem stackAt_storeItem (h : q ∉ plan.map Prod.fst) :
    (v.storeItem db it plan).slots.stackAt q = v.slots.stackAt q := Slots.stackAt_store h

theorem amount_storeItem (h : q ∉ plan.map Prod.fst) :
    (v.storeItem db it plan).amount entry q = v.amount entry q := by
  unfold amount
  rw [stackAt_storeItem h]

/-- **One item is moved.** -/
theorem keepsRights_move (hdst : Named dst) (hit : v.slots.stackAt src = some it)
    (hstore : v.hasStoreRights dst src = true) (hwithdraw : v.hasWithdrawRights src dst = true)
    (hok : v.doItemsMove db src dst it moved none n = some v') : KeepsRights v src dst v' := by
  obtain ⟨plan, hplan, hv'⟩ := bind_eq_some_iff.mp hok
  obtain rfl := some.inj hv'
  refine ⟨fun entry p hlt => ?_, fun entry p hlt => ?_, fun p hs hd => ?_⟩
  · by_cases hp : .bank p ∈ plan.map Prod.fst
    · exact .inr ⟨(tab?_of_mem_plan hdst hplan hp).symm, hstore⟩
    rw [amount_storeItem hp] at hlt
    exact absurd hlt (not_lt.mpr (amount_removeItem_le hit _))
  · by_cases hp : .bank p = src
    · exact .inl ⟨hp ▸ rfl, hwithdraw⟩
    refine absurd hlt (not_lt.mpr (le_trans (le_of_eq ?_) amount_le_storeItem))
    unfold amount
    rw [stackAt_removeItem hp]
  rw [stackAt_storeItem (bank_notMem hdst hplan hd), stackAt_removeItem (bank_ne hs)]

/-- **Two items are swapped.** -/
theorem keepsRights_swap (hsrc : Named src) (hdst : Named dst)
    (hstore : v.hasStoreRights dst src = true) (hwithdraw : v.hasWithdrawRights src dst = true)
    (hstore' : v.hasStoreRights src dst = true) (hwithdraw' : v.hasWithdrawRights dst src = true)
    (hok : v.doItemsMove db src dst it it (some d) 0 = some v') : KeepsRights v src dst v' := by
  obtain ⟨plan, hplan, hok'⟩ := bind_eq_some_iff.mp hok
  obtain ⟨back, hback, hv'⟩ := bind_eq_some_iff.mp hok'
  have hother p (hs : tab? src ≠ some p.tab) (hd : tab? dst ≠ some p.tab) :
      v'.slots.stackAt (.bank p) = v.slots.stackAt (.bank p) := by
    rw [← some.inj hv', stackAt_storeItem (bank_notMem hsrc hback hs),
      stackAt_storeItem (bank_notMem hdst hplan hd), stackAt_removeItem (bank_ne hd),
      stackAt_removeItem (bank_ne hs)]
  have hsame entry p (hs : tab? src ≠ some p.tab) (hd : tab? dst ≠ some p.tab) :
      v'.amount entry (.bank p) = v.amount entry (.bank p) := by
    rw [amount, amount, hother p hs hd]
  refine ⟨fun entry p hlt => ?_, fun entry p hlt => ?_, hother⟩ <;>
    by_cases hs : tab? src = some p.tab
  · exact .inl ⟨hs, hstore'⟩
  · by_cases hd : tab? dst = some p.tab
    · exact .inr ⟨hd, hstore⟩
    exact absurd hlt (hsame entry p hs hd ▸ lt_irrefl _)
  · exact .inl ⟨hs, hwithdraw⟩
  · by_cases hd : tab? dst = some p.tab
    · exact .inr ⟨hd, hwithdraw'⟩
    exact absurd hlt (hsame entry p hs hd ▸ lt_irrefl _)

theorem keepsRights_moveItems (hsrc : Named src) (hdst : Named dst) :
    KeepsRights v src dst (v.moveItems db src dst n) := by
  unfold moveItems
  split
  · exact keepsRights_of_slots rfl
  next it hit =>
  have hat := stackAt_of_initItem hit
  split
  · exact keepsRights_of_slots rfl
  dsimp only
  generalize (if n = it.count then 0 else n) = splitedAmount
  split
  · exact keepsRights_of_slots rfl
  next hstore =>
  split
  · exact keepsRights_of_slots rfl
  next hwithdraw =>
  simp only [Bool.not_eq_true, Bool.not_eq_false'] at hstore hwithdraw
  split
  · cases hmove : { v with guid := v.guid + 1 }.doItemsMove db src dst it
        (v.cloneItem db it splitedAmount) none splitedAmount with
    | none => exact keepsRights_of_slots rfl
    | some v' =>
      have hkeeps := keepsRights_move (v := { v with guid := v.guid + 1 }) hdst hat hstore hwithdraw
        hmove
      exact { hkeeps with }
  split
  · next v' hmove => exact keepsRights_move hdst hat hstore hwithdraw hmove
  split
  · exact keepsRights_of_slots rfl
  next d hd =>
  split
  · exact keepsRights_of_slots rfl
  next hstore' =>
  split
  · exact keepsRights_of_slots rfl
  next hwithdraw' =>
  simp only [Bool.not_eq_true, Bool.not_eq_false'] at hstore' hwithdraw'
  cases hmove : v.doItemsMove db src dst it it (some d) 0 with
  | none => exact keepsRights_of_slots rfl
  | some v' => exact keepsRights_swap hsrc hdst hstore hwithdraw hstore' hwithdraw' hmove

/-- **The rights at the tabs.**  Whatever is asked of the bank, of no entry does a slot hold more
afterwards unless the player may deposit in its tab, or less unless he may withdraw from it; moves
inside one tab are free, and a tab that the request does not name stays as it is. -/
theorem serve_keepsRights (db : ItemStore) (v : Vault) (r : Request) :
    KeepsRights v r.source r.destination (v.serve db r) := by
  rcases v.serve_cases db r with h | ⟨hsrc, hdst, -, -, n, h⟩
  · rw [h]
    exact keepsRights_of_slots rfl
  · rw [h]
    exact keepsRights_moveItems hsrc hdst

end Vault
end ZerosCore.Guild
