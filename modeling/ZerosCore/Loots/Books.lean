/-
# What is left of a loot

What is left of a loot is counted place by place.  A free-for-all item is due once
for every player whose list has it with the flag down; any other item is due once,
from the moment it is on offer (a plain item at once, a conditional one when
it was counted for somebody, a quest drop when a list has it) until its own flag
goes up.  `unlootedCount` should be the sum of all that.

`Sound` says that it is, and that the flags are the history of the awards.  Every step of
a loot is one of two things for it: places become due (`Offered`), or one place is handed to
one player (`Handed`).  Both keep `Sound`.
-/

import Mathlib.Algebra.BigOperators.Ring.Finset
import ZerosCore.Loots.Basic

namespace ZerosCore.Loots

open Lib Player List Option LootItem View Loot Ref

/-! ### What is left -/

/-- The entries of a player for a place, in the list whose flags are the player's own. -/
def View.entriesFor (v : View) : Ref → List QuestItem
  | .item i => v.ffaItems.filter fun e => e.index = i
  | .quest j => v.questItems.filter fun e => e.index = j

/-- The player sees the place. -/
def View.lists (v : View) (r : Ref) : Bool := !(v.entriesFor r).isEmpty

/-- How often the place is still open to the player. -/
def View.unlooted (r : Ref) (v : View) : ℕ := (v.entriesFor r).countP fun e => !e.isLooted

namespace Loot

def refs (l : Loot) : Finset Ref :=
  (Finset.range l.items.length).image .item ∪ (Finset.range l.questItems.length).image .quest

/-- Somebody sees the place. -/
def listed (l : Loot) (r : Ref) : Bool := l.views.rows.any fun v => v.lists r

/-- The item at a place was counted. -/
def onOffer (l : Loot) (r : Ref) (it : LootItem) : Bool :=
  match r with
  | .item _ => !it.conditional || it.isCounted
  | .quest _ => l.listed r

/-- How many awards of the item at a place are still to come. -/
def due (l : Loot) (r : Ref) : ℕ :=
  match l.itemAt r with
  | none => 0
  | some it =>
    if it.freeforall then l.views.sum (View.unlooted r)
    else if !it.isLooted && l.onOffer r it then 1 else 0

/-- How many awards are still to come. -/
def outstanding (l : Loot) : ℕ := ∑ r ∈ l.refs, l.due r

/-- **Loot is handed out once**, `Permitted` saying to whom the free-for-all items may go. -/
structure HandedOutOnce (Permitted : UInt32 → LootStoreItem → Prop) (l : Loot) : Prop where
  /-- An item that is not free for all was awarded once at most. -/
  shared : ∀ r it, l.itemAt r = some it → it.freeforall = false →
    l.awards.countP (fun a => a.ref = r) ≤ 1
  /-- A free-for-all item was awarded once at most to each player. -/
  perPlayer : ∀ r it, l.itemAt r = some it → it.freeforall = true → ∀ player,
    l.awards.countP (fun a => a.ref = r ∧ a.player = player) ≤ 1
  /-- A free-for-all item went only to players it is allowed for. -/
  permitted : ∀ r it, l.itemAt r = some it → it.freeforall = true → ∀ a ∈ l.awards, a.ref = r →
    Permitted a.player it.store
  /-- The counter is the number of awards still to come. -/
  counted : l.unlootedCount.toNat = l.outstanding
  /-- The loot is gone when there is nothing left. -/
  gone : l.isLooted = true ↔ l.gold = 0 ∧ ∀ r ∈ l.refs, l.due r = 0

/-! ### Places and lists -/

variable {l l' : Loot} {r r' : Ref} {it : LootItem} {p : UInt32}

@[simp] theorem itemAt_item (i : ℕ) : l.itemAt (.item i) = l.items[i]? := rfl

@[simp] theorem itemAt_quest (j : ℕ) : l.itemAt (.quest j) = l.questItems[j]? := rfl

theorem mem_refs : r ∈ l.refs ↔ (l.itemAt r).isSome = true := by
  cases r with
  | item i | quest j => simp [refs]

@[simp] theorem view_guid : (l.view p).guid = p := by
  unfold view
  cases h : l.views.get? p with
  | none => rfl
  | some v => exact (Keyed.Table.get?_eq_some.mp h).2

variable {v : View}

theorem view_of_mem (hv : v ∈ l.views.rows) : l.view v.guid = v := by
  unfold view
  rw [Keyed.Table.get?_key hv, getD_some]

theorem view_setView : (l.setView v).view p = if p = v.guid then v else l.view p := by
  unfold view setView
  rw [Keyed.Table.get?_put]
  split_ifs with h <;> rfl

@[simp] theorem itemAt_setView : (l.setView v).itemAt r = l.itemAt r := by
  cases r <;> rfl

theorem lists_eq_false : v.lists r = false ↔ v.entriesFor r = [] := by
  simp [lists]

theorem unlooted_eq_zero (h : v.entriesFor r = []) : v.unlooted r = 0 := by
  rw [unlooted, h, countP_nil]

theorem lists_congr {u : View} (h : (u.entriesFor r).length = (v.entriesFor r).length) :
    u.lists r = v.lists r := by
  rw [Bool.eq_iff_iff]
  simp [lists, ← length_eq_zero_iff, h]

theorem entriesFor_absent : ({ guid := p } : View).entriesFor r = [] := by
  cases r <;> rfl

theorem listed_iff : l.listed r = true ↔ ∃ p, (l.view p).lists r = true := by
  simp only [listed, List.any_eq_true]
  constructor
  · rintro ⟨v, hv, h⟩
    exact ⟨v.guid, by rwa [view_of_mem hv]⟩
  rintro ⟨p, h⟩
  cases hp : l.views.get? p with
  | none =>
    have he : (l.view p).entriesFor r = [] := by
      rw [view, hp, getD_none, entriesFor_absent]
    rw [lists_eq_false.mpr he] at h
    cases h
  | some v =>
    refine ⟨v, (Keyed.Table.get?_eq_some.mp hp).1, ?_⟩
    rwa [view, hp, Option.getD_some] at h

theorem sum_setView : (l.setView v).views.sum (unlooted r) + (l.view v.guid).unlooted r =
      l.views.sum (unlooted r) + v.unlooted r := by
  have h := Keyed.Table.sum_put_add (t := l.views) (a := v) (w := unlooted r)
  have hw : (l.view v.guid).unlooted r = ((l.views.get? v.guid).map (unlooted r)).getD 0 := by
    unfold view
    cases l.views.get? v.guid with
    | none => exact unlooted_eq_zero entriesFor_absent
    | some u => rfl
  rw [hw]
  exact h

/-! ### The invariant and its two kinds of step -/

/-- **The books of a loot are right**: the counter is what is left, no list has a place
twice, and the flags are the history. -/
structure Sound (Permitted : UInt32 → LootStoreItem → Prop) (l : Loot) : Prop where
  small : l.items.length ≤ maxNrLootItems
  counted : l.unlootedCount.toNat = l.outstanding
  single : ∀ p r, ((l.view p).entriesFor r).length ≤ 1
  once : ∀ r it, l.itemAt r = some it → it.freeforall = false →
    l.awards.countP (fun a => a.ref = r) = if it.isLooted then 1 else 0
  each : ∀ r it, l.itemAt r = some it → it.freeforall = true → ∀ p,
    l.awards.countP (fun a => a.ref = r ∧ a.player = p) =
      ((l.view p).entriesFor r).countP fun e => e.isLooted
  allowed : ∀ r it, l.itemAt r = some it → it.freeforall = true → ∀ p,
    (l.view p).lists r = true → Permitted p it.store

variable {Permitted : UInt32 → LootStoreItem → Prop}

/-- The items of two loots are the same drops. -/
structure SameDrops (l l' : Loot) : Prop where
  length : l'.items.length = l.items.length
  store : ∀ r, (l'.itemAt r).map LootItem.store = (l.itemAt r).map LootItem.store

theorem SameDrops.refs (h : SameDrops l l') : l'.refs = l.refs := by
  ext r
  rw [mem_refs, mem_refs, ← isSome_map (f := LootItem.store), h.store, isSome_map]

theorem SameDrops.back (h : SameDrops l l') {it' : LootItem} (hit : l'.itemAt r = some it') :
    ∃ it, l.itemAt r = some it ∧ it.store = it'.store ∧ it.freeforall = it'.freeforall := by
  have hs := h.store r
  rw [hit, map_some, eq_comm, map_eq_some_iff] at hs
  obtain ⟨it, hold, hst⟩ := hs
  exact ⟨it, hold, hst, congrArg LootStoreItem.partyLoot hst⟩

/-- **Places become due**: those of `due`, once each. -/
structure Offered (Permitted : UInt32 → LootStoreItem → Prop) (l l' : Loot) (new : List Ref) :
    Prop extends SameDrops l l' where
  looted : ∀ r, (l'.itemAt r).map LootItem.isLooted = (l.itemAt r).map LootItem.isLooted
  awards : l'.awards = l.awards
  nodup : new.Nodup
  known : ∀ r ∈ new, r ∈ l.refs
  due : ∀ r, l'.due r = l.due r + if r ∈ new then 1 else 0
  counter : l'.unlootedCount = l.unlootedCount + UInt8.ofNat new.length
  entries : ∀ p r, (l'.view p).entriesFor r = (l.view p).entriesFor r ∨
    (l.view p).entriesFor r = [] ∧ (∃ i, (l'.view p).entriesFor r = [{ index := i }]) ∧
      ∀ it, l.itemAt r = some it → it.freeforall = true → Permitted p it.store

/-- **One place is handed to one player.** -/
structure Handed (l l' : Loot) (r : Ref) (p : UInt32) : Prop extends SameDrops l l' where
  awards : ∃ count, l'.awards = l.awards ++ [⟨r, p, count⟩]
  counter : l'.unlootedCount = l.unlootedCount - 1
  due_self : l'.due r + 1 = l.due r
  due_other : ∀ r' ≠ r, l'.due r' = l.due r'
  looted : ∀ r' it it', l.itemAt r' = some it → it.freeforall = false → l'.itemAt r' = some it' →
    if r' = r then it.isLooted = false ∧ it'.isLooted = true else it'.isLooted = it.isLooted
  lists : ∀ p' r', (l'.view p').lists r' = (l.view p').lists r'
  single : ∀ p' r', ((l'.view p').entriesFor r').length = ((l.view p').entriesFor r').length
  entries : ∀ r' it, l.itemAt r' = some it → it.freeforall = true → ∀ p',
    ((l'.view p').entriesFor r').countP (fun e => e.isLooted) =
      ((l.view p').entriesFor r').countP (fun e => e.isLooted) + if r' = r ∧ p' = p then 1 else 0

variable {new : List Ref}

theorem sum_mem_list (hnd : new.Nodup) (hknown : ∀ r ∈ new, r ∈ l.refs) :
    (∑ r ∈ l.refs, if r ∈ new then 1 else 0) = new.length := by
  have hnew : l.refs.filter (fun r => r ∈ new) = new.toFinset := by
    ext r
    simp only [Finset.mem_filter, List.mem_toFinset, and_iff_right_iff_imp]
    exact hknown r
  rw [← Finset.card_filter, hnew, toFinset_card_of_nodup hnd]

theorem Offered.outstanding (h : Offered Permitted l l' new) :
    l'.outstanding = l.outstanding + new.length := by
  calc l'.outstanding = ∑ r ∈ l.refs, (l.due r + if r ∈ new then 1 else 0) := by
        rw [Loot.outstanding, h.toSameDrops.refs]
        exact Finset.sum_congr rfl fun r _ => h.due r
    _ = l.outstanding + new.length := by
        rw [Finset.sum_add_distrib, sum_mem_list h.nodup h.known, Loot.outstanding]

theorem Handed.outstanding (h : Handed l l' r p) : l'.outstanding + 1 = l.outstanding := by
  have hr : r ∈ l.refs := by
    rw [mem_refs]
    have hs := h.due_self
    cases hit : l.itemAt r with
    | none => simp [due, hit] at hs
    | some it => rfl
  have hrest : ∑ r' ∈ l.refs.erase r, l'.due r' = ∑ r' ∈ l.refs.erase r, l.due r' :=
    Finset.sum_congr rfl fun r' hr' => h.due_other r' (Finset.ne_of_mem_erase hr')
  rw [Loot.outstanding, Loot.outstanding, h.toSameDrops.refs, ← Finset.add_sum_erase _ l'.due hr,
    ← Finset.add_sum_erase _ l.due hr, ← h.due_self]
  omega

/-- **Offering keeps the books right**, as long as the counter has room. -/
theorem Sound.offer (hs : Sound Permitted l) (h : Offered Permitted l l' new)
    (hroom : l.unlootedCount.toNat + new.length < 256) : Sound Permitted l' where
  small := by rw [h.length]; exact hs.small
  counted := by
    rw [h.outstanding, ← hs.counted, h.counter, UInt8.toNat_add, UInt8.toNat_ofNat']
    omega
  single p r := by
    rcases h.entries p r with he | ⟨-, ⟨i, he⟩, -⟩
    · rw [he]; exact hs.single p r
    · rw [he]; exact le_refl 1
  once r it' hit' hffa := by
    obtain ⟨it, hit, hst, hf⟩ := h.back hit'
    have hl := h.looted r
    rw [hit, hit', map_some, map_some, some.injEq] at hl
    rw [h.awards, hl]
    exact hs.once r it hit (hf.trans hffa)
  each r it' hit' hffa p := by
    obtain ⟨it, hit, hst, hf⟩ := h.back hit'
    have hold := hs.each r it hit (hf.trans hffa) p
    rw [h.awards, hold]
    rcases h.entries p r with he | ⟨he, ⟨i, he'⟩, -⟩
    · rw [he]
    rw [he, he']
    rfl
  allowed r it' hit' hffa p hlist := by
    obtain ⟨it, hit, hst, hf⟩ := h.back hit'
    have hffa' := hf.trans hffa
    rw [← hst]
    rcases h.entries p r with he | ⟨-, -, hP⟩
    · exact hs.allowed r it hit hffa' p (by rwa [lists, ← he])
    · exact hP it hit hffa'

/-- **Handing out keeps the books right.** -/
theorem Sound.hand (hs : Sound Permitted l) (h : Handed l l' r p) : Sound Permitted l' where
  small := by rw [h.length]; exact hs.small
  counted := by
    have hout := h.outstanding
    have hpos : (1 : UInt8) ≤ l.unlootedCount := by
      rw [UInt8.le_iff_toNat_le, hs.counted, ← hout]
      exact Nat.le_add_left 1 _
    rw [h.counter, UInt8.toNat_sub_of_le _ _ hpos, hs.counted, ← hout]
    exact Nat.add_sub_cancel _ 1
  single p' r' := by rw [h.single]; exact hs.single p' r'
  once r' it' hit' hffa := by
    obtain ⟨it, hit, hst, hf⟩ := h.back hit'
    have hffa' := hf.trans hffa
    obtain ⟨count, haw⟩ := h.awards
    have hold := hs.once r' it hit hffa'
    have hl := h.looted r' it it' hit hffa' hit'
    rw [haw, countP_append, hold]
    by_cases hr : r' = r
    · rw [if_pos hr] at hl
      simp [hl.1, hl.2, hr]
    rw [if_neg hr] at hl
    simp [hl, Ne.symm hr]
  each r' it' hit' hffa p' := by
    obtain ⟨it, hit, hst, hf⟩ := h.back hit'
    have hffa' := hf.trans hffa
    obtain ⟨count, haw⟩ := h.awards
    rw [h.entries r' it hit hffa' p', haw, countP_append, hs.each r' it hit hffa' p']
    simp only [countP_singleton, decide_eq_true_eq, @eq_comm _ r, @eq_comm _ p]
  allowed r' it' hit' hffa p' hlist := by
    obtain ⟨it, hit, hst, hf⟩ := h.back hit'
    rw [h.lists] at hlist
    rw [← hst]
    exact hs.allowed r' it hit (hf.trans hffa) p' hlist

theorem Sound.handedOutOnce (hs : Sound Permitted l) : HandedOutOnce Permitted l where
  shared r it hit hffa := by
    rw [hs.once r it hit hffa]
    split_ifs <;> omega
  perPlayer r it hit hffa p := by
    rw [hs.each r it hit hffa p]
    exact countP_le_length.trans (hs.single p r)
  permitted r it hit hffa a ha har := by
    have hpos : 0 < l.awards.countP (fun b => b.ref = r ∧ b.player = a.player) :=
      countP_pos_iff.mpr ⟨a, ha, by simp [har]⟩
    rw [hs.each r it hit hffa a.player] at hpos
    obtain ⟨e, he, -⟩ := countP_pos_iff.mp hpos
    refine hs.allowed r it hit hffa a.player ?_
    cases hE : (l.view a.player).entriesFor r with
    | nil => rw [hE] at he; cases he
    | cons e es => simp [lists, hE]
  counted := hs.counted
  gone := by
    have hzero : l.unlootedCount = 0 ↔ ∀ r ∈ l.refs, l.due r = 0 := by
      rw [← Finset.sum_eq_zero_iff, ← outstanding, ← hs.counted, ← UInt8.toNat_inj]
      rfl
    simp [isLooted, hzero]

/-! ### What is due at a place -/

theorem due_of_ffa (hit : l.itemAt r = some it) (hffa : it.freeforall = true) :
    l.due r = l.views.sum (unlooted r) := by
  simp [due, hit, hffa]

theorem due_of_shared (hit : l.itemAt r = some it) (hffa : it.freeforall = false) :
    l.due r = if it.isLooted = false ∧ l.onOffer r it = true then 1 else 0 := by
  simp [due, hit, hffa]

def flags (it : LootItem) : LootStoreItem × Bool × Bool := (it.store, it.isLooted, it.isCounted)

theorem due_congr (hit : (l'.itemAt r).map flags = (l.itemAt r).map flags)
    (hsum : l'.views.sum (unlooted r) = l.views.sum (unlooted r))
    (hlisted : l'.listed r = l.listed r) : l'.due r = l.due r := by
  cases h : l.itemAt r with
  | none =>
    rw [h, map_none, map_eq_none_iff] at hit
    simp [due, h, hit]
  | some it =>
    rw [h, map_some, map_eq_some_iff] at hit
    obtain ⟨it', h', he⟩ := hit
    simp only [flags, Prod.mk.injEq] at he
    obtain ⟨hst, hl, hc⟩ := he
    have hffa : it'.freeforall = it.freeforall := congrArg LootStoreItem.partyLoot hst
    have hoff : l'.onOffer r it' = l.onOffer r it := by
      cases r with
      | item i => simp only [onOffer, conditional, hst, hc]
      | quest j => exact hlisted
    simp only [due, h, h', hffa, hl, hoff, hsum]

end Loot
end ZerosCore.Loots
