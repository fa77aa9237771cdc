/-
# The buyback slots of a player

`src/server/game/Entities/Player/Player.cpp` (`AddItemToBuyBackSlot`, `GetItemFromBuyBackSlot`,
`RemoveItemFromBuyBackSlot`), called by the vendor handlers of
`src/server/game/Handlers/ItemHandler.cpp`.

A sold item goes to the slot of the cursor, or, if that one is taken, to the slot the search for the
oldest comes to.  The search ends at the first free slot and keeps it in a variable that is written
over with the oldest slot so far: the item there is destroyed although a slot is free.  Whatever is
sold and bought back, a sale does right exactly if the slot of the cursor or the first slot is free
when it begins, or none is (`buyback_right_iff`).
-/

import ZerosCore.Lib.Run
import ZerosCore.Player.Inventory

namespace ZerosCore.Player

open Lib List Option

/-- What the buyback reads of an item; the price is that of its template, if it has one. -/
structure SoldItem where
  guid : UInt64
  sellPrice : Option UInt32
  count : UInt32
  deriving DecidableEq

/-- The buyback slots, their fields by the number of the slot among them, and the cursor. -/
structure Buyback where
  items : ℕ → Option SoldItem
  currentBuybackSlot : ℕ
  /-- `PLAYER_FIELD_VENDORBUYBACK_SLOT_1`. -/
  vendorBuybackSlot : ℕ → UInt64
  /-- `PLAYER_FIELD_BUYBACK_PRICE_1`. -/
  buybackPrice : ℕ → UInt32
  /-- `PLAYER_FIELD_BUYBACK_TIMESTAMP_1`. -/
  buybackTimestamp : ℕ → UInt32
  /-- The items that were set to `ITEM_REMOVED`. -/
  removed : List SoldItem

namespace Buyback

/-- The slots of a new player. -/
def empty : Buyback :=
  ⟨fun _ => none, buybackSlotStart, fun _ => 0, fun _ => 0, fun _ => 0, []⟩

def InRange (slot : ℕ) : Prop := buybackSlotStart ≤ slot ∧ slot < buybackSlotEnd

instance (slot : ℕ) : Decidable (InRange slot) := inferInstanceAs (Decidable (_ ∧ _))

def getItemFromBuyBackSlot (s : Buyback) (slot : ℕ) : Option SoldItem :=
  if InRange slot then s.items slot else none

def setField {α : Type} (f : ℕ → α) (eslot : ℕ) (x : α) : ℕ → α :=
  fun i => if i = eslot then x else f i

def removeItemFromBuyBackSlot (s : Buyback) (slot : ℕ) (del : Bool) : Buyback :=
  if InRange slot then
    let eslot := slot - buybackSlotStart
    let s :=
      { s with
        removed :=
          match s.items slot with
          | some pItem => if del then s.removed ++ [pItem] else s.removed
          | none => s.removed
        items := setField s.items slot none
        vendorBuybackSlot := setField s.vendorBuybackSlot eslot 0
        buybackPrice := setField s.buybackPrice eslot 0
        buybackTimestamp := setField s.buybackTimestamp eslot 0 }
    if (s.items s.currentBuybackSlot).isSome then { s with currentBuybackSlot := slot } else s
  else s

/-- The loop of `AddItemToBuyBackSlot` over the slots after the first, with its variables `slot`,
`oldest_time` and `oldest_slot`; it gives back `slot` and `oldest_slot`. -/
def search (s : Buyback) : List ℕ → ℕ → UInt32 → ℕ → ℕ × ℕ
  | [], slot, _, oldestSlot => (slot, oldestSlot)
  | i :: rest, slot, oldestTime, oldestSlot =>
    if (s.items i).isNone then (i, oldestSlot)
    else
      let time := s.buybackTimestamp (i - buybackSlotStart)
      if time < oldestTime then search s rest slot time i
      else search s rest slot oldestTime oldestSlot

/-- The slots from `BUYBACK_SLOT_START + 1` to before `BUYBACK_SLOT_END`. -/
def laterSlots : List ℕ :=
  List.range' (buybackSlotStart + 1) (buybackSlotEnd - (buybackSlotStart + 1))

/-- The slot a sold item goes to. -/
def slotFor (s : Buyback) : ℕ :=
  let slot := s.currentBuybackSlot
  if (s.items slot).isSome then
    let found := s.search laterSlots slot (s.buybackTimestamp 0) buybackSlotStart
    -- A free slot that was found is written over.
    found.2
  else slot

/-- `AddItemToBuyBackSlot` at a time, after a login. -/
def addItemToBuyBackSlot (s : Buyback) (base logintime : ℤ) (pItem : SoldItem) : Buyback :=
  let slot := s.slotFor
  let s := s.removeItemFromBuyBackSlot slot true
  let etime := UInt32.ofInt (base - logintime + 30 * 3600)
  let eslot := slot - buybackSlotStart
  { s with
    items := setField s.items slot (some pItem)
    vendorBuybackSlot := setField s.vendorBuybackSlot eslot pItem.guid
    buybackPrice := setField s.buybackPrice eslot
      (match pItem.sellPrice with
      | some sellPrice => sellPrice * pItem.count
      | none => 0)
    buybackTimestamp := setField s.buybackTimestamp eslot etime
    currentBuybackSlot :=
      if s.currentBuybackSlot < buybackSlotEnd - 1 then s.currentBuybackSlot + 1
      else s.currentBuybackSlot }

/-- What is asked of the slots. -/
inductive Request where
  | addItem (base logintime : ℤ) (pItem : SoldItem)
  | removeItem (slot : ℕ) (del : Bool)

def step (s : Buyback) : Request → Buyback
  | .addItem base logintime pItem => s.addItemToBuyBackSlot base logintime pItem
  | .removeItem slot del => s.removeItemFromBuyBackSlot slot del

/-! ### The fields and the cursor -/

variable {s t : Buyback} {slot i j k : ℕ}

/-- The price of what is in a slot, as the client is told. -/
def price : Option SoldItem → UInt32
  | none => 0
  | some x =>
    match x.sellPrice with
    | some sellPrice => sellPrice * x.count
    | none => 0

/-- The slots outside the buyback are not touched, the fields tell what is in the slots, and the
cursor is in the range. -/
structure Inv (s : Buyback) : Prop where
  cursor : InRange s.currentBuybackSlot
  outside : ∀ k, ¬InRange k → s.items k = none
  guids : ∀ k, InRange k →
    s.vendorBuybackSlot (k - buybackSlotStart) = ((s.items k).map SoldItem.guid).getD 0
  prices : ∀ k, InRange k → s.buybackPrice (k - buybackSlotStart) = price (s.items k)
  times : ∀ k, InRange k → s.items k = none → s.buybackTimestamp (k - buybackSlotStart) = 0

theorem setField_self {α : Type} (f : ℕ → α) (eslot : ℕ) (x : α) : setField f eslot x eslot = x :=
  if_pos rfl

theorem setField_of_ne {α : Type} (f : ℕ → α) {eslot : ℕ} (x : α) (h : i ≠ eslot) :
    setField f eslot x i = f i := if_neg h

theorem sub_ne (hi : InRange i) (hj : InRange j) (h : i ≠ j) :
    i - buybackSlotStart ≠ j - buybackSlotStart := by
  unfold InRange at hi hj
  omega

theorem inv_empty : Inv empty := by
  refine ⟨by decide, fun _ _ => rfl, fun _ _ => rfl, fun _ _ => rfl, fun _ _ _ => rfl⟩

theorem remove_spec (s : Buyback) (hslot : InRange slot) (del : Bool) :
    (s.removeItemFromBuyBackSlot slot del).items = setField s.items slot none ∧
      (s.removeItemFromBuyBackSlot slot del).removed =
        s.removed ++ (if del then (s.items slot).toList else []) ∧
      (s.removeItemFromBuyBackSlot slot del).vendorBuybackSlot =
        setField s.vendorBuybackSlot (slot - buybackSlotStart) 0 ∧
      (s.removeItemFromBuyBackSlot slot del).buybackPrice =
        setField s.buybackPrice (slot - buybackSlotStart) 0 ∧
      (s.removeItemFromBuyBackSlot slot del).buybackTimestamp =
        setField s.buybackTimestamp (slot - buybackSlotStart) 0 ∧
      ((s.removeItemFromBuyBackSlot slot del).currentBuybackSlot = s.currentBuybackSlot ∨
        (s.removeItemFromBuyBackSlot slot del).currentBuybackSlot = slot) := by
  have hremoved : (match s.items slot with
      | some pItem => if del then s.removed ++ [pItem] else s.removed
      | none => s.removed) = s.removed ++ (if del then (s.items slot).toList else []) := by
    cases s.items slot with
    | none | some x => cases del <;> simp
  unfold removeItemFromBuyBackSlot
  rw [if_pos hslot]
  dsimp only
  split
  · exact ⟨rfl, hremoved, rfl, rfl, rfl, .inr rfl⟩
  · exact ⟨rfl, hremoved, rfl, rfl, rfl, .inl rfl⟩

theorem Inv.remove (h : Inv s) (slot : ℕ) (del : Bool) :
    Inv (s.removeItemFromBuyBackSlot slot del) := by
  by_cases hslot : InRange slot
  · obtain ⟨hitems, -, hguids, hprices, htimes, hcursor⟩ := remove_spec s hslot del
    refine ⟨?_, fun k hk => ?_, fun k hk => ?_, fun k hk => ?_, fun k hk => ?_⟩
    · rcases hcursor with heq | heq
      · rw [heq]
        exact h.cursor
      rw [heq]
      exact hslot
    · have hne : k ≠ slot := fun heq => hk (heq ▸ hslot)
      rw [hitems, setField_of_ne _ _ hne]
      exact h.outside k hk
    · rw [hitems, hguids]
      by_cases hne : k = slot
      · subst hne
        rw [setField_self, setField_self]
        rfl
      rw [setField_of_ne _ _ hne, setField_of_ne _ _ (sub_ne hk hslot hne)]
      exact h.guids k hk
    · rw [hitems, hprices]
      by_cases hne : k = slot
      · subst hne
        rw [setField_self, setField_self]
        rfl
      rw [setField_of_ne _ _ hne, setField_of_ne _ _ (sub_ne hk hslot hne)]
      exact h.prices k hk
    rw [hitems, htimes]
    by_cases hne : k = slot
    · subst hne
      rw [setField_self, setField_self]
      exact fun _ => rfl
    rw [setField_of_ne _ _ hne, setField_of_ne _ _ (sub_ne hk hslot hne)]
    exact h.times k hk
  unfold removeItemFromBuyBackSlot
  rw [if_neg hslot]
  exact h

/-! ### The search -/

theorem search_mem (s : Buyback) (l : List ℕ) (slot : ℕ) (time : UInt32) (oldest : ℕ) :
    (s.search l slot time oldest).2 = oldest ∨
      ((s.search l slot time oldest).2 ∈ l ∧ s.items (s.search l slot time oldest).2 ≠ none) := by
  induction l generalizing time oldest with
  | nil => exact .inl rfl
  | cons i l ih =>
    unfold search
    by_cases hfree : (s.items i).isNone = true
    · rw [if_pos hfree]
      exact .inl rfl
    rw [if_neg hfree]
    dsimp only
    split
    · rcases ih (s.buybackTimestamp (i - buybackSlotStart)) i with heq | ⟨hmem, htaken⟩
      · rw [heq]
        refine .inr ⟨mem_cons_self, fun hnone => hfree ?_⟩
        rw [hnone]
        rfl
      · exact .inr ⟨mem_cons_of_mem i hmem, htaken⟩
    rcases ih time oldest with heq | ⟨hmem, htaken⟩
    · exact .inl heq
    · exact .inr ⟨mem_cons_of_mem i hmem, htaken⟩

theorem search_zero (s : Buyback) (l : List ℕ) (slot oldest : ℕ) :
    (s.search l slot 0 oldest).2 = oldest := by
  induction l with
  | nil => rfl
  | cons i l ih =>
    unfold search
    split
    · rfl
    have hnot : ¬s.buybackTimestamp (i - buybackSlotStart) < 0 := UInt32.not_lt_zero
    dsimp only
    rw [if_neg hnot]
    exact ih

theorem search_full (s : Buyback) (l : List ℕ) (slot oldest : ℕ)
    (hfull : ∀ i ∈ l, s.items i ≠ none) (time : UInt32)
    (htime : time = s.buybackTimestamp (oldest - buybackSlotStart)) : ∀ i ∈ oldest :: l,
      s.buybackTimestamp ((s.search l slot time oldest).2 - buybackSlotStart) ≤
        s.buybackTimestamp (i - buybackSlotStart) := by
  induction l generalizing time oldest with
  | nil =>
    intro i hi
    rw [mem_singleton.mp hi]
    exact UInt32.le_refl _
  | cons x l ih =>
    have htaken : ¬(s.items x).isNone = true := fun hnone =>
      hfull x mem_cons_self (isNone_iff_eq_none.mp hnone)
    have hrest (i : ℕ) (hi : i ∈ l) : s.items i ≠ none := hfull i (mem_cons_of_mem x hi)
    unfold search
    rw [if_neg htaken]
    dsimp only
    by_cases hless : s.buybackTimestamp (x - buybackSlotStart) < time
    · rw [if_pos hless]
      have hle := ih x hrest _ rfl
      intro i hi
      rcases mem_cons.mp hi with rfl | hi
      · rw [htime] at hless
        exact UInt32.le_trans (hle x mem_cons_self) (UInt32.le_of_lt hless)
      · exact hle i hi
    rw [if_neg hless]
    have hle := ih oldest hrest time htime
    intro i hi
    rcases mem_cons.mp hi with rfl | hi
    · exact hle i mem_cons_self
    rcases mem_cons.mp hi with rfl | hi
    · rw [UInt32.not_lt, htime] at hless
      exact UInt32.le_trans (hle oldest mem_cons_self) hless
    · exact hle i (mem_cons_of_mem oldest hi)

def Full (s : Buyback) : Prop := ∀ k < buybackSlotEnd, buybackSlotStart ≤ k → s.items k ≠ none

instance : Decidable (Full s) := inferInstanceAs (Decidable (∀ k < buybackSlotEnd, _))

theorem mem_laterSlots : k ∈ laterSlots ↔ InRange k ∧ k ≠ buybackSlotStart := by
  unfold InRange laterSlots
  rw [mem_range'_1]
  unfold buybackSlotStart buybackSlotEnd
  omega

theorem Inv.slotFor (h : Inv s) : InRange s.slotFor := by
  unfold Buyback.slotFor
  dsimp only
  split
  · rcases search_mem s laterSlots s.currentBuybackSlot (s.buybackTimestamp 0) buybackSlotStart with
      heq | ⟨hmem, -⟩
    · rw [heq]
      decide
    · exact (mem_laterSlots.mp hmem).1
  · exact h.cursor

/-- The slot of the cursor or the first slot is free when an item is sold, or none is. -/
def Fits (s : Buyback) : Prop :=
  s.items s.currentBuybackSlot = none ∨ s.items buybackSlotStart = none ∨ Full s

/-- **Where a sold item goes**: to a free slot, or, if all are occupied, to one with the smallest
time, or else to one that is taken though another is free. -/
theorem Inv.slotFor_spec (h : Inv s) : (Fits s ∧ s.items s.slotFor = none) ∨
    (Fits s ∧ Full s ∧ ∀ k, InRange k → s.buybackTimestamp (s.slotFor - buybackSlotStart) ≤
      s.buybackTimestamp (k - buybackSlotStart)) ∨ (¬Fits s ∧ s.items s.slotFor ≠ none) := by
  unfold Buyback.slotFor
  dsimp only
  by_cases hcursor : s.items s.currentBuybackSlot = none
  · rw [hcursor, isSome_none, if_neg Bool.false_ne_true]
    exact .inl ⟨.inl hcursor, hcursor⟩
  rw [if_pos (isSome_iff_ne_none.mpr hcursor)]
  by_cases hfirst : s.items buybackSlotStart = none
  · have hzero : s.buybackTimestamp 0 = 0 := h.times buybackSlotStart (by decide) hfirst
    rw [hzero, search_zero]
    exact .inl ⟨.inr (.inl hfirst), hfirst⟩
  by_cases hfull : Full s
  · refine .inr (.inl ⟨.inr (.inr hfull), hfull, fun k hk => ?_⟩)
    refine search_full s laterSlots s.currentBuybackSlot buybackSlotStart (fun i hi => ?_)
      (s.buybackTimestamp 0) rfl k ?_
    · obtain ⟨hi, -⟩ := mem_laterSlots.mp hi
      exact hfull i hi.2 hi.1
    by_cases hk' : k = buybackSlotStart
    · exact mem_cons.mpr (.inl hk')
    · exact mem_cons_of_mem _ (mem_laterSlots.mpr ⟨hk, hk'⟩)
  refine .inr (.inr ⟨?_, ?_⟩)
  · rintro (hfree | hfree | hfree)
    · exact hcursor hfree
    · exact hfirst hfree
    · exact hfull hfree
  rcases search_mem s laterSlots s.currentBuybackSlot (s.buybackTimestamp 0)
    buybackSlotStart with heq | ⟨-, htaken⟩
  · rw [heq]
    exact hfirst
  · exact htaken

/-! ### Sales -/

theorem Inv.add_spec (h : Inv s) (base logintime : ℤ) (pItem : SoldItem) :
    (s.addItemToBuyBackSlot base logintime pItem).items = setField s.items s.slotFor (some pItem) ∧
      (s.addItemToBuyBackSlot base logintime pItem).removed =
        s.removed ++ (s.items s.slotFor).toList := by
  obtain ⟨hitems, hremoved, -⟩ := remove_spec s h.slotFor true
  unfold addItemToBuyBackSlot
  dsimp only
  refine ⟨?_, hremoved⟩
  rw [hitems]
  funext i
  by_cases hi : i = s.slotFor
  · rw [hi, setField_self, setField_self]
  · rw [setField_of_ne _ _ hi, setField_of_ne _ _ hi, setField_of_ne _ _ hi]

theorem Inv.add (h : Inv s) (base logintime : ℤ) (pItem : SoldItem) :
    Inv (s.addItemToBuyBackSlot base logintime pItem) := by
  have hslot := h.slotFor
  have hremove := h.remove s.slotFor true
  obtain ⟨hitems, -⟩ := h.add_spec base logintime pItem
  have hother {k : ℕ} (hne : k ≠ s.slotFor) :
      (s.addItemToBuyBackSlot base logintime pItem).items k =
        (s.removeItemFromBuyBackSlot s.slotFor true).items k := by
    rw [hitems, (remove_spec s hslot true).1, setField_of_ne _ _ hne, setField_of_ne _ _ hne]
  refine ⟨?_, fun k hk => ?_, fun k hk => ?_, fun k hk => ?_, fun k hk => ?_⟩
  · have hcursor := hremove.cursor
    unfold addItemToBuyBackSlot
    unfold InRange at hcursor ⊢
    dsimp only
    split
    · omega
    · exact hcursor
  · have hne : k ≠ s.slotFor := fun heq => hk (heq ▸ hslot)
    rw [hother hne]
    exact hremove.outside k hk
  · by_cases hne : k = s.slotFor
    · rw [hitems, hne, setField_self]
      exact setField_self _ _ _
    rw [hother hne, ← hremove.guids k hk]
    exact setField_of_ne _ _ (sub_ne hk hslot hne)
  · by_cases hne : k = s.slotFor
    · rw [hitems, hne, setField_self]
      exact setField_self _ _ _
    rw [hother hne, ← hremove.prices k hk]
    exact setField_of_ne _ _ (sub_ne hk hslot hne)
  by_cases hne : k = s.slotFor
  · rw [hitems, hne, setField_self]
    intro hnone
    cases hnone
  rw [hother hne]
  intro hnone
  rw [← hremove.times k hk hnone]
  exact setField_of_ne _ _ (sub_ne hk hslot hne)

/-- What a sale owes. -/
structure AddedRight (s t : Buyback) (pItem : SoldItem) : Prop where
  /-- Nothing stored is destroyed, unless all slots are occupied, and then one with the smallest
  time. -/
  evicts : (t.removed = s.removed ∧ ∀ j x, s.items j = some x → t.items j = some x) ∨
    (Full s ∧ ∃ k x, InRange k ∧ s.items k = some x ∧
      (∀ j, InRange j → s.buybackTimestamp (k - buybackSlotStart) ≤
        s.buybackTimestamp (j - buybackSlotStart)) ∧
      t.removed = s.removed ++ [x] ∧ ∀ j, j ≠ k → t.items j = s.items j)
  /-- A new item is in one slot. -/
  stored : (∀ k, s.getItemFromBuyBackSlot k ≠ some pItem) →
    ∃! k, t.getItemFromBuyBackSlot k = some pItem

/-- What a request owes. -/
def Right (s : Buyback) (r : Request) : Prop :=
  InRange (step s r).currentBuybackSlot ∧
    match r with
    | .addItem _ _ pItem => AddedRight s (step s r) pItem
    | .removeItem _ _ => True

def FitsIn (s : Buyback) : Request → Prop
  | .addItem _ _ _ => Fits s
  | .removeItem _ _ => True

/-- **Both requests** keep the slots. -/
theorem Inv.step (h : Inv s) (r : Request) : Inv (step s r) := by
  cases r with
  | addItem base logintime pItem => exact h.add base logintime pItem
  | removeItem slot del => exact h.remove slot del

/-- **One sale** is right exactly if the item fits in. -/
theorem Inv.added_iff (h : Inv s) (base logintime : ℤ) (pItem : SoldItem) :
    AddedRight s (s.addItemToBuyBackSlot base logintime pItem) pItem ↔ Fits s := by
  have hslot := h.slotFor
  obtain ⟨hitems, hremoved⟩ := h.add_spec base logintime pItem
  have hstored (hnew : ∀ k, s.getItemFromBuyBackSlot k ≠ some pItem) :
      ∃! k, (s.addItemToBuyBackSlot base logintime pItem).getItemFromBuyBackSlot k =
        some pItem := by
    refine ⟨s.slotFor, ?_, ?_⟩
    · exact (if_pos hslot).trans (by rw [hitems, setField_self])
    intro k hk
    by_contra hne
    unfold getItemFromBuyBackSlot at hk
    rw [hitems, setField_of_ne _ _ hne] at hk
    exact hnew k hk
  rcases h.slotFor_spec with ⟨hfits, hfree⟩ | ⟨hfits, hfull, holdest⟩ | ⟨hnot, htaken⟩
  · refine iff_of_true ⟨.inl ⟨?_, fun j x hj => ?_⟩, hstored⟩ hfits
    · rw [hremoved, hfree, toList_none, append_nil]
    have hne : j ≠ s.slotFor := fun heq => by
      rw [heq, hfree] at hj
      cases hj
    rw [hitems, setField_of_ne _ _ hne]
    exact hj
  · obtain ⟨x, hx⟩ := ne_none_iff_exists'.mp (hfull s.slotFor hslot.2 hslot.1)
    refine iff_of_true ⟨.inr ⟨hfull, s.slotFor, x, hslot, hx, holdest, ?_, fun j hj => ?_⟩, hstored⟩
      hfits
    · rw [hremoved, hx, toList_some]
    · rw [hitems, setField_of_ne _ _ hj]
  refine iff_of_false (fun hright => ?_) hnot
  obtain ⟨x, hx⟩ := ne_none_iff_exists'.mp htaken
  rcases hright.evicts with ⟨hkept, -⟩ | ⟨hfull, -⟩
  · rw [hremoved, hx, toList_some] at hkept
    have hlength := congrArg List.length hkept
    rw [length_append, length_singleton] at hlength
    omega
  · exact hnot (.inr (.inr hfull))

/-- **The buyback slots.**  Whatever is sold and removed, the cursor stays in the range, and the
sales destroy an item only if all slots are occupied, and then one with the smallest time, and leave
the new item in one slot, exactly if at each of them the slot of the cursor or the first slot is
free or none is. -/
theorem buyback_right_iff (rs : List Request) :
    Along step Right empty rs ↔ Along step FitsIn empty rs := by
  refine Along.congr_of_invariant (I := Inv) (fun s r h => ?_) (fun s r h _ => h.step r) inv_empty
  unfold Right
  rw [and_iff_right (h.step r).cursor]
  cases r with
  | addItem base logintime pItem => exact h.added_iff base logintime pItem
  | removeItem slot del => exact Iff.rfl

/-- Twelve items are sold, the second of which was bought back when there were five, so that its
slot is free; the next one to be sold destroys the first. -/
theorem first_destroyed : ¬Along step Right empty
      ((List.range 5).map (fun i => .addItem (100 + i) 0 ⟨i.toUInt64, some 1, 1⟩) ++
        .removeItem 75 false ::
        (List.range 8).map fun i => .addItem (200 + i) 0 ⟨i.toUInt64 + 10, some 1, 1⟩) := by
  rintro ⟨-, -, -, -, -, -, -, -, -, -, -, -, -, hlast, -⟩
  rcases hlast.2.evicts with ⟨hkept, -⟩ | ⟨hfull, -⟩
  · exact absurd hkept (by decide +kernel)
  · exact absurd hfull (by decide +kernel)

end Buyback
end ZerosCore.Player
