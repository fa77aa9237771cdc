/-
# Loot is handed out once

A quest drop or a conditional item is looked up by the flag of the player's list alone, so
every player who sees it can take it; master loot and rolls look at no flag at all; and the
counter has eight bits.  `Fits` says of one step, in the state before it, that none of these
is reached.  In a run of such steps everything is handed out once (`handed_out_once_along`).
-/

import ZerosCore.Lib.Run
import ZerosCore.Loots.Lists

namespace ZerosCore.Loots

open Lib Player List Option LootItem View Loot Ref

namespace Loot

/-! ### The conditions -/

/-- The item may be handed out for everybody: it was not yet, and it was counted. -/
def free (l : Loot) (r : Ref) (it : LootItem) : Bool :=
  !it.freeforall && !it.isLooted && l.onOffer r it

/-- A store that goes through finds a free item, or the player's own entry for a
free-for-all item. -/
def StoreFits (l : Loot) (env : Env) (player : UInt32) (slot : ℕ) : Prop :=
  ∀ x ∈ l.lootItemInSlot player slot, x.2.2 = .quest ∨ x.2.1.isBlocked = false →
    env.canStoreNewItem player x.2.1.store.itemid x.2.1.count = .ok →
    if x.2.1.freeforall then x.2.2 ≠ .shared else l.free x.1 x.2.1 = true

instance (l : Loot) (env : Env) (player : UInt32) (slot : ℕ) :
    Decidable (l.StoreFits env player slot) :=
  inferInstanceAs (Decidable (∀ x ∈ l.lootItemInSlot player slot, _ → _))
/-- A slot handed out by the loop of `FillNotNormalLootFor` fits. -/
def AutoFits (env : Env) (player : UInt32) (l : Loot) (slot : ℕ) : Prop :=
  ∀ it ∈ l.itemAt (l.refOfSlot slot), it.isLooted = false → it.freeforall = true →
    env.allowedForPlayer player it.store = true → it.store.currencyToken = true →
    l.StoreFits env player slot

instance (env : Env) (player : UInt32) (l : Loot) (slot : ℕ) :
    Decidable (AutoFits env player l slot) :=
  inferInstanceAs (Decidable (∀ it ∈ l.itemAt (l.refOfSlot slot), _ → _))

def RollEnd.handsOut (how : RollEnd) (env : Env) (it : LootItem) : Bool :=
  match how with
  | .won player => env.canStoreNewItem player it.store.itemid it.count = .ok
  | .disenchanted _ => true
  | _ => false

/-- What a step relies on, in the state before it. -/
def Fits (l : Loot) : Env × Step → Prop
  | (env, .fill player present) =>
    l.ListsFit env player ∧ (present = true →
      Along (fun l slot => l.autoStore env player slot) (AutoFits env player)
        (l.fillLists env player) (l.autoSlots env player))
  | (env, .store player slot) => l.StoreFits env player slot.toNat
  | (_, .money) => True
  | (env, .masterGive target slot) =>
    ∀ it ∈ l.itemAt (l.refOfSlot slot.toNat), env.masterMayGive = true →
      env.canStoreNewItem target it.store.itemid it.count = .ok →
      (it.store.followLootRules = true → env.allowedForPlayer target it.store = true) →
      l.free (l.refOfSlot slot.toNat) it = true
  | (_, .startRoll _) => True
  | (env, .endRoll slot how) =>
    ∀ it ∈ l.itemAt (l.refOfSlot slot), slot ∈ l.rolls →
      how.handsOut env it = true → l.free (l.refOfSlot slot) it = true

instance (l : Loot) : DecidablePred l.Fits
  | (env, .fill player _) => inferInstanceAs (Decidable (l.ListsFit env player ∧ _))
  | (env, .store player slot) => inferInstanceAs (Decidable (l.StoreFits env player slot.toNat))
  | (_, .money) => inferInstanceAs (Decidable True)
  | (_, .masterGive _ slot) =>
    inferInstanceAs (Decidable (∀ it ∈ l.itemAt (l.refOfSlot slot.toNat), _ → _))
  | (_, .startRoll _) => inferInstanceAs (Decidable True)
  | (_, .endRoll slot _) => inferInstanceAs (Decidable (∀ it ∈ l.itemAt (l.refOfSlot slot), _ → _))

variable {l l' : Loot} {r r' : Ref} {it : LootItem} {p : UInt32} {v : View}
variable {Permitted : UInt32 → LootStoreItem → Prop} {new : List Ref} {env : Env} {c : UInt8}

/-! ### Handing out -/

variable {f : LootItem → LootItem}

theorem itemAt_modifyAt :
    (l.modifyAt r f).itemAt r' = if r' = r then (l.itemAt r').map f else l.itemAt r' := by
  cases r with
  | item i =>
    cases r' with
    | item i' =>
      show (l.items.modify i f)[i']? = _
      rw [getElem?_modify]
      simp only [item.injEq, itemAt_item, @eq_comm _ i]
      split_ifs <;> simp
    | quest j' => rfl
  | quest j =>
    cases r' with
    | item i' => rfl
    | quest j' =>
      show (l.questItems.modify j f)[j']? = _
      rw [getElem?_modify]
      simp only [quest.injEq, itemAt_quest, @eq_comm _ j]
      split_ifs <;> simp

theorem modifyAt_frame : (l.modifyAt r f).views = l.views ∧
    (l.modifyAt r f).awards = l.awards ∧ (l.modifyAt r f).unlootedCount = l.unlootedCount ∧
    (l.modifyAt r f).items.length = l.items.length := by
  cases r with
  | item i => exact ⟨rfl, rfl, rfl, length_modify ..⟩
  | quest j => exact ⟨rfl, rfl, rfl, rfl⟩

@[simp] theorem itemAt_award : (l.award r' p c).itemAt r = l.itemAt r := by
  cases r <;> rfl

theorem listed_congr (h : ∀ q, (l'.view q).lists r = (l.view q).lists r) :
    l'.listed r = l.listed r := by
  rw [Bool.eq_iff_iff, listed_iff, listed_iff]
  simp only [h]

/-- **An item for everybody is handed out**: its own flag goes up, whatever happens to
the flags of the entries for it. -/
theorem handed_shared {l1 : Loot}
    (hitems : ∀ r', l1.itemAt r' = l.itemAt r') (hlength : l1.items.length = l.items.length)
    (hcounter : l1.unlootedCount = l.unlootedCount) (hawards : l1.awards = l.awards)
    (hother : ∀ r' ≠ r, (∀ q, (l1.view q).entriesFor r' = (l.view q).entriesFor r') ∧
      l1.views.sum (unlooted r') = l.views.sum (unlooted r'))
    (hself : ∀ q, ((l1.view q).entriesFor r).length = ((l.view q).entriesFor r).length)
    (hit : l.itemAt r = some it) (hfree : l.free r it = true)
    (hf : ∀ it, (f it).store = it.store ∧ (f it).isLooted = true) :
    Handed l ((l1.modifyAt r f).award r p c) r p := by
  simp only [free, Bool.and_eq_true, Bool.not_eq_true'] at hfree
  obtain ⟨⟨hffa, hlooted⟩, hoffer⟩ := hfree
  obtain ⟨hviews, haw, hcount, hlen⟩ := modifyAt_frame (l := l1) (r := r) (f := f)
  obtain ⟨l2, hl2⟩ : ∃ l2, l2 = (l1.modifyAt r f).award r p c := ⟨_, rfl⟩
  have hitem : ∀ r', l2.itemAt r' = if r' = r then (l.itemAt r').map f else l.itemAt r' := by
    intro r'
    rw [hl2, itemAt_award, itemAt_modifyAt, hitems]
  have hview : ∀ q, l2.view q = l1.view q := by
    intro q
    rw [hl2]
    show ((l1.modifyAt r f).views.get? q).getD _ = _
    rw [hviews]
    rfl
  have hviews2 : l2.views = l1.views := by rw [hl2]; exact hviews
  have hlength2 : ∀ q r', ((l2.view q).entriesFor r').length =
      ((l.view q).entriesFor r').length := by
    intro q r'
    rw [hview]
    by_cases hr : r' = r
    · rw [hr, hself]
    · rw [(hother r' hr).1]
  have hlists : ∀ q r', (l2.view q).lists r' = (l.view q).lists r' := by
    intro q r'
    exact lists_congr (hlength2 q r')
  rw [← hl2]
  refine ⟨⟨?_, fun r' => ?_⟩, ⟨c, ?_⟩, ?_, ?_, fun r' hr => ?_, ?_, hlists, hlength2, ?_⟩
  · rw [hl2]
    exact hlen.trans hlength
  · rw [hitem]
    split_ifs with hr
    · rw [Option.map_map]
      exact congrArg (fun g => (l.itemAt r').map g) (funext fun it => (hf it).1)
    · rfl
  · rw [hl2]
    show (l1.modifyAt r f).awards ++ _ = _
    rw [haw, hawards]
  · rw [hl2]
    show (l1.modifyAt r f).unlootedCount - 1 = _
    rw [hcount, hcounter]
  · have hit2 : l2.itemAt r = some (f it) := by rw [hitem, if_pos rfl, hit, map_some]
    have hffa2 : (f it).freeforall = false := by
      rw [← hffa]
      exact congrArg LootStoreItem.partyLoot (hf it).1
    rw [due_of_shared hit2 hffa2, due_of_shared hit hffa, if_neg (by simp [(hf it).2]),
      if_pos ⟨hlooted, hoffer⟩]
  · refine due_congr (by rw [hitem, if_neg hr]) ?_ (listed_congr fun q => hlists q r')
    rw [hviews2]
    exact (hother r' hr).2
  · intro r' it1 it2 h1 hffa1 h2
    rw [hitem] at h2
    split_ifs with hr
    · subst hr
      rw [if_pos rfl, hit, map_some, some.injEq] at h2
      rw [hit, some.injEq] at h1
      exact ⟨h1 ▸ hlooted, h2 ▸ (hf it).2⟩
    rw [if_neg hr, h1, some.injEq] at h2
    rw [h2]
  intro r' it1 h1 hffa1 q
  have hr : r' ≠ r := by
    rintro rfl
    rw [hit, some.injEq] at h1
    rw [h1, hffa1] at hffa
    cases hffa
  rw [hview, (hother r' hr).1, if_neg fun h => hr h.1, add_zero]

/-- **A free-for-all item is handed to one player**: the flag of the player's entry
goes up. -/
theorem handed_ffa {e : QuestItem} (hguid : v.guid = p)
    (hit : l.itemAt r = some it) (hffa : it.freeforall = true)
    (hold : (l.view p).entriesFor r = [e]) (he : e.isLooted = false)
    (hnew : v.entriesFor r = [{ e with isLooted := true }])
    (hother : ∀ r' ≠ r, v.entriesFor r' = (l.view p).entriesFor r') :
    Handed l ((l.setView v).award r p c) r p := by
  obtain ⟨l2, hl2⟩ : ∃ l2, l2 = (l.setView v).award r p c := ⟨_, rfl⟩
  have hitem : ∀ r', l2.itemAt r' = l.itemAt r' := by
    intro r'
    rw [hl2, itemAt_award, itemAt_setView]
  have hview : ∀ q, l2.view q = if q = p then v else l.view q := by
    intro q
    rw [hl2, ← hguid]
    exact view_setView
  have hsum : ∀ r', l2.views.sum (unlooted r') + (l.view p).unlooted r' =
      l.views.sum (unlooted r') + v.unlooted r' := by
    intro r'
    rw [hl2, ← hguid]
    exact sum_setView
  have hlength : ∀ q r', ((l2.view q).entriesFor r').length =
      ((l.view q).entriesFor r').length := by
    intro q r'
    rw [hview]
    split_ifs with hq
    · subst hq
      by_cases hr : r' = r
      · rw [hr, hnew, hold, length_singleton, length_singleton]
      · rw [hother r' hr]
    · rfl
  have hlists : ∀ q r', (l2.view q).lists r' = (l.view q).lists r' :=
    fun q r' => lists_congr (hlength q r')
  rw [← hl2]
  refine ⟨⟨by rw [hl2]; rfl, fun r' => by rw [hitem]⟩, ⟨c, by rw [hl2]; rfl⟩, by rw [hl2]; rfl,
    ?_, fun r' hr => ?_, ?_, hlists, hlength, ?_⟩
  · rw [due_of_ffa ((hitem r).trans hit) hffa, due_of_ffa hit hffa]
    have h := hsum r
    rw [unlooted, unlooted, hold, hnew] at h
    simpa [he] using h
  · refine due_congr (by rw [hitem]) ?_ (listed_congr fun q => hlists q r')
    have h := hsum r'
    rw [unlooted, unlooted, hother r' hr] at h
    exact Nat.add_right_cancel h
  · intro r' it1 it2 h1 hffa1 h2
    rw [hitem, h1, some.injEq] at h2
    have hr : r' ≠ r := by
      rintro rfl
      rw [hit, some.injEq] at h1
      rw [h1, hffa1] at hffa
      cases hffa
    rw [if_neg hr, h2]
  intro r' it1 h1 hffa1 q
  rw [hview]
  by_cases hq : q = p
  · subst hq
    by_cases hr : r' = r
    · rw [if_pos rfl, if_pos ⟨hr, rfl⟩, hr, hnew, hold]
      simp [he]
    · rw [if_pos rfl, if_neg fun h => hr h.1, hother r' hr, add_zero]
  · rw [if_neg hq, if_neg fun h => hq h.2, add_zero]

/-! ### Taking a slot -/

theorem filter_markLooted_ne {i j : ℕ} (h : i ≠ j) (es : List QuestItem) :
    (markLooted j es).filter (·.index = i) = es.filter fun e => e.index = i := by
  induction es with
  | nil => rfl
  | cons e es ih =>
    have ih' : (es.map fun e => if e.index = j then { e with isLooted := true } else e).filter
        (·.index = i) = es.filter fun e => e.index = i := ih
    rw [markLooted, map_cons, filter_cons, filter_cons, ih']
    split_ifs <;> simp_all

theorem filter_markLooted_self (j : ℕ) (es : List QuestItem) :
    (markLooted j es).filter (·.index = j) =
      (es.filter fun e => e.index = j).map fun e => { e with isLooted := true } := by
  induction es with
  | nil => rfl
  | cons e es ih =>
    have ih' : (es.map fun e => if e.index = j then { e with isLooted := true } else e).filter
        (·.index = j) =
        (es.filter fun e => e.index = j).map fun e => { e with isLooted := true } := ih
    rw [markLooted, map_cons, filter_cons, filter_cons, ih']
    split_ifs <;> simp_all

variable {kind : Kind} {slot : ℕ}

/-- **What `LootItemInSlot` finds**: the item at a place, and an entry of the player's
own that is not marked if that is what it looked at. -/
structure Found (l : Loot) (p : UInt32) (r : Ref) (it : LootItem) (kind : Kind) : Prop where
  item : l.itemAt r = some it
  place : match kind, r with
    | .quest, .item _ => False
    | .quest, .quest _ => True
    | _, .item _ => True
    | _, .quest _ => False
  own : kind = .quest ∨ kind = .ffa → ∃ e ∈ (l.view p).entriesFor r, e.isLooted = false
  cond : kind = .cond → it.freeforall = false

theorem flagOf_cases (es : List QuestItem) (i : ℕ) (it : LootItem) (k : Kind) :
    (∃ e ∈ es.filter (·.index = i), flagOf es i it k = (e.isLooted, k)) ∨
      flagOf es i it k = (it.isLooted, .shared) := by
  unfold flagOf
  cases h : es.find? fun e => e.index = i with
  | none => exact .inr rfl
  | some e =>
    have he := find?_some h
    exact .inl ⟨e, mem_filter.mpr ⟨mem_of_find?_eq_some h, by simpa using he⟩, rfl⟩

theorem lookedAt_cases (l : Loot) (p : UInt32) (i : ℕ) (it : LootItem) :
    (∃ e ∈ (l.view p).entriesFor (.item i), l.lookedAt p i it = (e.isLooted, .ffa)) ∨
    (it.freeforall = false ∧ ∃ b, l.lookedAt p i it = (b, .cond)) ∨
    l.lookedAt p i it = (it.isLooted, .shared) := by
  unfold lookedAt
  split_ifs with hffa hcond
  · rcases flagOf_cases (l.view p).ffaItems i it .ffa with h | h
    · exact .inl h
    · exact .inr (.inr h)
  · rcases flagOf_cases (l.view p).condItems i it .cond with ⟨e, -, h⟩ | h
    · exact .inr (.inl ⟨by simpa using hffa, e.isLooted, h⟩)
    · exact .inr (.inr h)
  · exact .inr (.inr rfl)

theorem lootItemInSlot_found (h : l.lootItemInSlot p slot = some (r, it, kind)) :
    Found l p r it kind := by
  unfold lootItemInSlot at h
  split at h
  · split at h
    · cases h
    next e he =>
      split at h
      · cases h
      next it' hit' =>
        split at h
        · cases h
        next hun =>
          obtain ⟨rfl, rfl, rfl⟩ := h
          refine ⟨hit', trivial, fun _ => ⟨e, ?_, by simpa using hun⟩, nofun⟩
          exact mem_filter.mpr ⟨mem_of_getElem? he, by simp⟩
  split at h
  · cases h
  next it' hit' =>
    split at h
    · cases h
    next hun =>
      simp only [some.injEq, Prod.mk.injEq] at h
      obtain ⟨rfl, rfl, rfl⟩ := h
      rcases lookedAt_cases l p slot it' with ⟨e, he, hl⟩ | ⟨hffa, b, hl⟩ | hl
      · rw [hl] at hun ⊢
        exact ⟨hit', trivial, fun _ => ⟨e, he, by simpa using hun⟩, nofun⟩
      · rw [hl]
        refine ⟨hit', trivial, ?_, fun _ => hffa⟩
        rintro (h | h) <;> cases h
      rw [hl]
      refine ⟨hit', trivial, ?_, nofun⟩
      rintro (h | h) <;> cases h

theorem markEntry_spec (hf : Found l p r it kind) (hk : kind ≠ .shared) :
    ∃ v : View, l.markEntry p r kind = l.setView v ∧ v.guid = p ∧
      (∀ r' ≠ r, v.entriesFor r' = (l.view p).entriesFor r') ∧
      (v.entriesFor r).length = ((l.view p).entriesFor r).length ∧ (kind ≠ .cond → v.entriesFor r =
        ((l.view p).entriesFor r).map fun e => { e with isLooted := true }) := by
  obtain ⟨v, hv⟩ : ∃ v, v = l.view p := ⟨_, rfl⟩
  have hguid : v.guid = p := by rw [hv]; exact view_guid
  have hplace := hf.place
  cases kind with
  | quest =>
    cases r with
    | item i => exact hplace.elim
    | quest j =>
      refine ⟨{ v with questItems := markLooted j v.questItems }, by rw [hv]; rfl, hguid, ?_⟩
      rw [← hv]
      have hmark := filter_markLooted_self j v.questItems
      refine ⟨?_, ?_, fun _ => hmark⟩
      · rintro (i | j') hr
        · rfl
        · exact filter_markLooted_ne (fun h => hr (by rw [h])) _
      · exact (congrArg List.length hmark).trans (length_map _)
  | ffa =>
    cases r with
    | quest j => exact hplace.elim
    | item i =>
      refine ⟨{ v with ffaItems := markLooted i v.ffaItems }, by rw [hv]; rfl, hguid, ?_⟩
      rw [← hv]
      have hmark := filter_markLooted_self i v.ffaItems
      refine ⟨?_, ?_, fun _ => hmark⟩
      · rintro (i' | j) hr
        · exact filter_markLooted_ne (fun h => hr (by rw [h])) _
        · rfl
      · exact (congrArg List.length hmark).trans (length_map _)
  | cond =>
    refine ⟨{ v with condItems := markLooted r.index v.condItems }, by rw [hv]; rfl, hguid, ?_⟩
    rw [← hv]
    exact ⟨fun r' _ => by cases r' <;> rfl, by cases r <;> rfl, fun h => (h rfl).elim⟩
  | shared => exact (hk rfl).elim

/-- **Taking a slot hands it out**, if the item is free or the entry the player's own. -/
theorem handed_take (hf : Found l p r it kind) (hsingle : ((l.view p).entriesFor r).length ≤ 1)
    (hfit : if it.freeforall then kind ≠ .shared else l.free r it = true) :
    Handed l (l.take p r it kind) r p := by
  cases hffa : it.freeforall with
  | true =>
    rw [hffa, if_pos rfl] at hfit
    have hcond : kind ≠ .cond := by
      rintro rfl
      rw [hf.cond rfl] at hffa
      cases hffa
    have hkind : kind = .quest ∨ kind = .ffa := by
      cases kind with
      | quest => exact .inl rfl
      | ffa => exact .inr rfl
      | cond => exact (hcond rfl).elim
      | shared => exact (hfit rfl).elim
    obtain ⟨v, hmark, hguid, hother, -, hself⟩ := markEntry_spec hf hfit
    obtain ⟨e, he, hun⟩ := hf.own hkind
    have hone : (l.view p).entriesFor r = [e] := by
      cases hE : (l.view p).entriesFor r with
      | nil => rw [hE] at he; cases he
      | cons a as =>
        rw [hE, length_cons] at hsingle
        have has : as = [] := length_eq_zero_iff.mp (by omega)
        rw [hE, has, mem_singleton] at he
        rw [has, he]
    have htake : l.take p r it kind = (l.setView v).award r p it.count := by
      rw [take, hmark, if_pos hffa]
    rw [htake]
    refine handed_ffa hguid hf.item hffa hone hun ?_ hother
    rw [hself hcond, hone]
    rfl
  | false =>
    simp only [hffa, Bool.false_eq_true, if_false] at hfit
    have htake : l.take p r it kind = ((l.markEntry p r kind).modifyAt r
        fun it => { it with isLooted := true }).award r p it.count := by
      rw [take, hffa]
      rfl
    rw [htake]
    by_cases hk : kind = .shared
    · subst hk
      exact handed_shared (fun _ => rfl) rfl rfl rfl (fun _ _ => ⟨fun _ => rfl, rfl⟩)
        (fun _ => rfl) hf.item hfit fun _ => ⟨rfl, rfl⟩
    obtain ⟨v, hmark, hguid, hother, hlength, -⟩ := markEntry_spec hf hk
    rw [hmark]
    refine handed_shared (fun _ => itemAt_setView) rfl rfl rfl (fun r' hr => ⟨fun q => ?_, ?_⟩)
      (fun q => ?_) hf.item hfit fun _ => ⟨rfl, rfl⟩
    · rw [view_setView, hguid]
      split_ifs with hq
      · rw [hother r' hr, hq]
      · rfl
    · have h := sum_setView (l := l) (r := r') (v := v)
      rw [hguid, unlooted, unlooted, hother r' hr] at h
      exact Nat.add_right_cancel h
    rw [view_setView, hguid]
    split_ifs with hq
    · rw [hlength, hq]
    · rfl

/-! ### Every step keeps the books right -/

section

variable (hs : Sound Permitted l)

include hs

theorem Sound.storeLootItem (hfit : l.StoreFits env p slot) :
    Sound Permitted (l.storeLootItem env p slot).1 := by
  unfold Loot.storeLootItem
  split
  · exact hs
  next r it kind hlook =>
    dsimp only
    split_ifs with hblocked hok
    · exact hs
    · have hfound := lootItemInSlot_found hlook
      refine hs.hand (handed_take hfound (hs.single p r) (hfit _ hlook ?_ hok))
      by_cases hk : kind = .quest
      · exact .inl hk
      · exact .inr (by simpa [hk] using hblocked)
    · exact hs

theorem Sound.autoStore (hfit : AutoFits env p l slot) :
    Sound Permitted (l.autoStore env p slot) := by
  unfold Loot.autoStore
  split
  · exact hs
  next it hit =>
    split_ifs with h
    · simp only [Bool.and_eq_true, Bool.not_eq_true'] at h
      exact hs.storeLootItem (hfit it hit h.1.1.1 h.1.1.2 h.1.2 h.2)
    · exact hs

theorem Sound.handleLootMasterGive {s : UInt8} (hfit : l.Fits (env, .masterGive p s)) :
    Sound Permitted (l.handleLootMasterGive env p s.toNat) := by
  unfold Loot.handleLootMasterGive
  split_ifs with hmay
  · exact hs
  split
  · exact hs
  next it hit =>
    split_ifs with hno
    · exact hs
    simp only [ne_eq, Bool.or_eq_true, decide_eq_true_eq, Bool.and_eq_true,
      Bool.not_eq_true', not_or, not_not, not_and, Bool.not_eq_false] at hno
    have hfree := hfit it hit (by simpa using hmay) hno.1 hno.2
    exact hs.hand (handed_shared (fun _ => rfl) rfl rfl rfl
      (fun _ _ => ⟨fun _ => rfl, rfl⟩) (fun _ => rfl) hit hfree fun _ => ⟨rfl, rfl⟩)

theorem Sound.modifyAt (hf : ∀ it, flags (f it) = flags it) : Sound Permitted (l.modifyAt r f) := by
  obtain ⟨hviews, haw, hcount, hlen⟩ := modifyAt_frame (l := l) (r := r) (f := f)
  refine hs.offer (offered_of_flags hviews (fun r' => ?_) hlen haw hcount) ?_
  · rw [itemAt_modifyAt]
    split_ifs
    · rw [Option.map_map]
      exact congrArg (fun g => (l.itemAt r').map g) (funext hf)
    · rfl
  · exact l.unlootedCount.toNat_lt

theorem Sound.frame {gold : UInt32} {rolls : List ℕ} : Sound Permitted { l with gold, rolls } := by
  refine hs.offer (offered_of_flags rfl (fun r => by cases r <;> rfl) rfl rfl rfl) ?_
  exact l.unlootedCount.toNat_lt

theorem Sound.startRoll : Sound Permitted (l.startRoll slot) := by
  have hblock : Sound Permitted (l.modifyAt (l.refOfSlot slot)
      fun it => { it with isBlocked := true }) := hs.modifyAt fun _ => rfl
  unfold Loot.startRoll
  split
  · exact hs
  next it hit =>
    dsimp only
    generalize (if slot < l.items.length then !it.freeforall
      else it.store.followLootRules) = rolled
    split_ifs
    · exact hblock.frame
    · exact hs

theorem Sound.countTheRoll {how : RollEnd}
    (hfit : l.Fits (env, .endRoll slot how)) : Sound Permitted (l.countTheRoll env slot how) := by
  unfold Loot.countTheRoll
  split_ifs with hslot
  · obtain ⟨l1, hl1⟩ : ∃ l1 : Loot, l1 = { l with rolls := l.rolls.erase slot } := ⟨_, rfl⟩
    have hs1 : Sound Permitted l1 := by rw [hl1]; exact hs.frame
    have hitem : ∀ r, l1.itemAt r = l.itemAt r := fun r => by rw [hl1]; cases r <;> rfl
    have hunblock : Sound Permitted (l1.modifyAt (l.refOfSlot slot)
        fun it => { it with isBlocked := false }) := hs1.modifyAt fun _ => rfl
    have hgive : ∀ it q, l.itemAt (l.refOfSlot slot) = some it →
        l.free (l.refOfSlot slot) it = true →
        Sound Permitted ((l1.modifyAt (l.refOfSlot slot)
          fun it => { it with isLooted := true }).award (l.refOfSlot slot) q it.count) := by
      intro it q hit hfree
      refine hs.hand (handed_shared hitem (by rw [hl1]) (by rw [hl1]) (by rw [hl1])
        (fun r' _ => ⟨fun q => by rw [hl1]; rfl, by rw [hl1]⟩) (fun q => by rw [hl1]; rfl) hit hfree
        fun _ => ⟨rfl, rfl⟩)
    dsimp only
    rw [← hl1, hitem]
    split
    · exact hs1
    next it hit =>
      have hfit := hfit it hit hslot
      cases how with
      | won q =>
        dsimp only
        split_ifs with hok
        · exact hgive it q hit (hfit (by simp [RollEnd.handsOut, hok]))
        · exact hunblock
      | disenchanted q => exact hgive it q hit (hfit rfl)
      | winnerGone => exact hs1
      | allPassed => exact hunblock
  · exact hs

/-- **The step lemma**: a step that fits keeps the books right. -/
theorem Sound.step {x : Env × Step} (hfit : l.Fits x) (hP : ∀ p present, x.2 = .fill p present →
      ∀ st, x.1.allowedForPlayer p st = true → Permitted p st) : Sound Permitted (l.step x) := by
  obtain ⟨env, what⟩ := x
  cases what with
  | fill p present =>
    have hlists := hs.fillLists (hP p present rfl) hfit.1
    show Sound Permitted (l.fillNotNormalLootFor env p present)
    cases present with
    | false => exact hlists
    | true => exact (hfit.2 rfl).invariant_foldl (fun l slot hs hf => hs.autoStore hf) hlists
  | store p slot => exact hs.storeLootItem hfit
  | money => exact hs.frame
  | masterGive p slot => exact hs.handleLootMasterGive hfit
  | startRoll slot => exact hs.startRoll
  | endRoll slot how => exact hs.countTheRoll hfit

end

/-! ### Runs -/

/-- A loot nobody has seen: no lists, no awards, no flags, and the counter at the plain
items. -/
structure Fresh (l : Loot) : Prop where
  small : l.items.length ≤ maxNrLootItems
  views : l.views = .empty _
  awards : l.awards = []
  unlooted : ∀ r it, l.itemAt r = some it → it.isLooted = false ∧ it.isCounted = false
  counter : l.unlootedCount =
    UInt8.ofNat (l.items.countP fun it => !it.conditional && !it.freeforall)

theorem Fresh.addItem (h : Fresh l) (li : LootStoreItem) : Fresh (l.addItem li) := by
  unfold Loot.addItem
  have hold : ∀ {its : List LootItem} {i : ℕ} {it : LootItem},
      (∀ it, its[i]? = some it → it.isLooted = false ∧ it.isCounted = false) →
      (its ++ [ofStore li])[i]? = some it →
      it.isLooted = false ∧ it.isCounted = false := by
    intro its i it hits hi
    rw [getElem?_append] at hi
    split_ifs at hi
    · exact hits it hi
    rw [getElem?_singleton] at hi
    split_ifs at hi
    · rw [← some.inj hi]
      exact ⟨rfl, rfl⟩
  split
  · split
    · refine { h with unlooted := ?_ }
      rintro (i | j) it hit
      · exact h.unlooted (.item i) it hit
      · exact hold (fun it => h.unlooted (.quest j) it) hit
    · exact h
  split
  · next hroom =>
      refine ⟨?_, h.views, h.awards, ?_, ?_⟩
      · show (l.items ++ [ofStore li]).length ≤ _
        rw [length_append, length_singleton]
        omega
      · rintro (i | j) it hit
        · exact hold (fun it => h.unlooted (.item i) it) hit
        · exact h.unlooted (.quest j) it hit
      show _ = UInt8.ofNat ((l.items ++ [ofStore li]).countP _)
      have hplain : (!(ofStore li).conditional && !(ofStore li).freeforall) =
          (decide (li.conditions = 0) && !li.partyLoot) := by
        show (!decide (li.conditions ≠ 0) && !li.partyLoot) = _
        by_cases hc : li.conditions = 0 <;> simp [hc]
      rw [countP_append, countP_singleton, h.counter, hplain]
      split_ifs
      · rw [UInt8.ofNat_add]
        rfl
      · rfl
  · exact h

theorem fresh_ofDrops (gold : UInt32) (drops : List LootStoreItem) :
    Fresh (ofDrops gold drops) := by
  have hstart : Fresh ({ gold } : Loot) := by
    refine ⟨Nat.zero_le _, rfl, rfl, ?_, rfl⟩
    rintro (i | j) it hit <;> cases hit
  have hrun : ∀ {l : Loot} (drops : List LootStoreItem), Fresh l →
      Fresh (drops.foldl addItem l) := by
    intro l drops
    induction drops generalizing l with
    | nil => exact id
    | cons li drops ih => exact fun h => ih (h.addItem li)
  exact hrun drops hstart

theorem Fresh.sound (h : Fresh l) : Sound Permitted l := by
  have hview : ∀ q, l.view q = { guid := q } := by
    intro q
    rw [view, h.views]
    rfl
  have hentries : ∀ q r, (l.view q).entriesFor r = [] := by
    intro q r
    rw [hview]
    exact entriesFor_absent
  have hsum : ∀ r, l.views.sum (View.unlooted r) = 0 := by
    intro r
    rw [h.views]
    rfl
  have hlisted : ∀ r, l.listed r = false := by
    intro r
    rw [listed, h.views]
    rfl
  have hdue : ∀ r, l.due r = if r ∈ (indicesOf
      (fun it => !it.conditional && !it.freeforall) l.items).map item then 1 else 0 := by
    rintro (i | j)
    · have hmem : item i ∈ (indicesOf (fun it => !it.conditional && !it.freeforall)
          l.items).map item ↔
          ∃ it, l.items[i]? = some it ∧ (!it.conditional && !it.freeforall) = true := by
        rw [← mem_indicesOf]
        simp
      cases hit : l.itemAt (.item i) with
      | none =>
        rw [if_neg (fun hm => ?_), due, hit]
        obtain ⟨it, h', -⟩ := hmem.mp hm
        rw [itemAt_item, h'] at hit
        cases hit
      | some it =>
        have hiff : item i ∈ (indicesOf (fun it => !it.conditional && !it.freeforall)
            l.items).map item ↔ it.conditional = false ∧ it.freeforall = false := by
          rw [hmem]
          constructor
          · rintro ⟨it', h', hP⟩
            rw [itemAt_item, h', some.injEq] at hit
            simpa [hit] using hP
          · exact fun hP => ⟨it, hit, by simp [hP.1, hP.2]⟩
        obtain ⟨hl, hc⟩ := h.unlooted _ it hit
        cases hffa : it.freeforall with
        | true => rw [due_of_ffa hit hffa, hsum, if_neg (by simp [hiff, hffa])]
        | false =>
          rw [due_of_shared hit hffa]
          simp [onOffer, hl, hc, hiff, hffa]
    rw [if_neg (by simp)]
    cases hit : l.itemAt (.quest j) with
    | none => rw [due, hit]
    | some it =>
      cases hffa : it.freeforall with
      | true => rw [due_of_ffa hit hffa, hsum]
      | false => rw [due_of_shared hit hffa, if_neg (by simp [onOffer, hlisted])]
  constructor
  case small => exact h.small
  case counted =>
    have hle := countP_le_length (p := fun it : LootItem => !it.conditional && !it.freeforall)
      (l := l.items)
    have hsmall := h.small
    rw [outstanding, Finset.sum_congr rfl fun r _ => hdue r,
      sum_mem_list (nodup_map_item (nodup_indicesOf _ _)) fun r => mem_refs_of_indicesOf,
      length_map, length_indicesOf, h.counter, UInt8.toNat_ofNat']
    unfold maxNrLootItems at hsmall
    omega
  case single => exact fun q r => by rw [hentries]; exact Nat.zero_le _
  case once => exact fun r it hit _ => by rw [h.awards, (h.unlooted r it hit).1]; rfl
  case each => exact fun r it _ _ q => by rw [h.awards, hentries]; rfl
  case allowed =>
    intro r it _ _ q hlist
    rw [lists_eq_false.mpr (hentries q r)] at hlist
    cases hlist

/-- In the run the lists of the player were filled at a moment when the item was allowed
for the player. -/
def AllowedIn (steps : List (Env × Step)) (player : UInt32) (st : LootStoreItem) : Prop :=
  ∃ x ∈ steps, (∃ present, x.2 = .fill player present) ∧ x.1.allowedForPlayer player st = true

/-- **Loot is handed out once** in every run from freshly made drops whose steps fit. -/
theorem handed_out_once_along (gold : UInt32) (drops : List LootStoreItem)
    (steps : List (Env × Step)) (h : Along step Fits (ofDrops gold drops) steps) :
    HandedOutOnce (AllowedIn steps) (steps.foldl step (ofDrops gold drops)) := by
  have hall := h.and_forall (Q := fun x => ∀ p present, x.2 = .fill p present →
      ∀ st, x.1.allowedForPlayer p st = true → AllowedIn steps p st)
    fun x hx p present hfill st hst => ⟨x, hx, ⟨present, hfill⟩, hst⟩
  have hs : Sound (AllowedIn steps) (steps.foldl step (ofDrops gold drops)) :=
    hall.invariant_foldl (fun _ _ hs hx => hs.step hx.1 hx.2) (fresh_ofDrops gold drops).sound
  exact hs.handedOutOnce

/-- Two players with room for everything and every item allowed for both. -/
def openHanded : Env where
  allowedForPlayer _ _ := true
  group _ := some { lootMethod := .freeForAll, looterGuid := 1 }
  canStoreNewItem _ _ _ := .ok
  masterMayGive := false

/-- A plain item, a free-for-all item and a quest drop. -/
def threeDrops : List LootStoreItem :=
  [{ itemid := 25 }, { itemid := 43228, partyLoot := true }, { itemid := 1080, needsQuest := true }]

/-- Two players see the loot; the first takes all three, the second the free-for-all item. -/
def sharing : List (Env × Step) :=
  [(openHanded, .fill 1 true), (openHanded, .fill 2 true), (openHanded, .store 1 0),
    (openHanded, .store 1 1), (openHanded, .store 2 1), (openHanded, .store 1 2)]

theorem handed_out_once_sharing : Along step Fits (ofDrops 0 threeDrops) sharing ∧
    HandedOutOnce (AllowedIn sharing) (sharing.foldl step (ofDrops 0 threeDrops)) := by
  have h : Along step Fits (ofDrops 0 threeDrops) sharing := by decide
  exact ⟨h, handed_out_once_along 0 threeDrops sharing h⟩

/-- Two players see a quest drop and take it both. -/
def bothTake : List (Env × Step) :=
  [(openHanded, .fill 1 true), (openHanded, .fill 2 true), (openHanded, .store 1 0),
    (openHanded, .store 2 0)]

/-- **A quest drop is handed out twice**, and the counter wraps. -/
theorem quest_drop_handed_out_twice : ¬ HandedOutOnce (AllowedIn bothTake) (bothTake.foldl step
      (ofDrops 0 [{ itemid := 1080, needsQuest := true }])) := by
  intro h
  have htwice := h.shared (.quest 0)
    { store := { itemid := 1080, needsQuest := true }, count := 1, isLooted := true,
      isBlocked := true } (by decide) rfl
  revert htwice
  decide

end Loot
end ZerosCore.Loots
