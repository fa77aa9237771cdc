/-
# Listing is all or nothing

`HandleAuctionSellItem` of `src/server/game/Handlers/AuctionHouseHandler.cpp`.  Whatever items and
counts a client sends, either a check refuses them and nothing changes, or one auction is made,
whose stack is what leaves the bags: all checks stand before the first effect, equal guids are
refused, and the loop that lists returns in its first round.  What goes wrong is the charge: the
deposit is cast to `int32` before it is negated, and one of `2^31` or more is paid out instead of
taken (`sell_right_iff`).
-/

import ZerosCore.Auction.Basic

namespace ZerosCore.Auction

open Lib Player State List Option Keyed Item Keyed.Table

variable {s : State} {env : Env} {p : Character} {bags : List Item} {item : Item}
  {count : UInt32} {listed rest : List (Item × UInt32)} {items : List (UInt64 × UInt32)}

/-! ### What leaves the bags -/

def countAll (bags : List Item) : ℕ := (bags.map fun item => item.count.toNat).sum

def left (item : Item) (count : UInt32) : Option Item :=
  if item.count = count then none else some { item with count := item.count - count }

def takeOne (bags : List Item) (item : Item) (count : UInt32) : List Item :=
  if item.count = count then Keyed.erase Item.guidLow bags item.guidLow
  else Keyed.modify Item.guidLow bags item.guidLow
    fun item => { item with count := item.count - count }

theorem takeListed_cons :
    takeListed bags ((item, count) :: rest) = takeListed (takeOne bags item count) rest := rfl

theorem get?_takeOne_self (hat : get? guidLow bags item.guidLow = some item) :
    get? guidLow (takeOne bags item count) item.guidLow = left item count := by
  unfold takeOne left
  split_ifs
  · exact get?_erase_self
  have hself : get? guidLow (modify guidLow bags item.guidLow
      fun item => { item with count := item.count - count }) item.guidLow =
      (get? guidLow bags item.guidLow).map fun item => { item with count := item.count - count } :=
    get?_modify_self fun a ha => ha
  rw [hself, hat, map_some]

variable {low : UInt32}

theorem get?_takeOne_ne (hne : low ≠ item.guidLow) :
    get? guidLow (takeOne bags item count) low = get? guidLow bags low := by
  unfold takeOne
  split_ifs
  · exact get?_erase_ne hne
  · exact get?_modify_ne hne fun a ha => ha

theorem distinct_takeOne (h : Keyed.Distinct guidLow bags) :
    Keyed.Distinct guidLow (takeOne bags item count) := by
  unfold takeOne
  split_ifs
  · exact h.erase _
  · exact h.modify fun a ha => ha

theorem countAll_takeOne (h : Keyed.Distinct guidLow bags)
    (hat : get? guidLow bags item.guidLow = some item) (hle : count ≤ item.count) :
    countAll (takeOne bags item count) + count.toNat = countAll bags := by
  unfold countAll takeOne
  split_ifs with hall
  · rw [sum_erase (fun item : Item => item.count.toNat) h hat, hall, Nat.add_comm]
  have hsum := sum_modify (fun item : Item => item.count.toNat) h hat
    fun item => { item with count := item.count - count }
  have hsub : (item.count - count).toNat = item.count.toNat - count.toNat :=
    UInt32.toNat_sub_of_le _ _ hle
  have hle' : count.toNat ≤ item.count.toNat := UInt32.le_iff_toNat_le.mp hle
  dsimp only at hsum
  omega

/-- The items of a list: each is in the bags, no count is too high, and none is there twice. -/
structure Takeable (bags : List Item) (listed : List (Item × UInt32)) : Prop where
  nodup : (listed.map fun x => x.1.guidLow).Nodup
  inBags : ∀ x ∈ listed, Keyed.get? Item.guidLow bags x.1.guidLow = some x.1 ∧ x.2 ≤ x.1.count

theorem Takeable.tail (h : Takeable bags ((item, count) :: rest)) :
    Takeable (takeOne bags item count) rest := by
  obtain ⟨hhead, htail⟩ := nodup_cons.mp h.nodup
  refine ⟨htail, fun x hx => ?_⟩
  obtain ⟨hat, hle⟩ := h.inBags x (mem_cons_of_mem _ hx)
  have hne : x.1.guidLow ≠ item.guidLow := by
    intro heq
    have hmem : x.1.guidLow ∈ rest.map fun x => x.1.guidLow := mem_map_of_mem hx
    rw [heq] at hmem
    exact hhead hmem
  exact ⟨(get?_takeOne_ne hne).trans hat, hle⟩

theorem get?_takeListed_ne (hnot : ∀ x ∈ listed, x.1.guidLow ≠ low) :
    get? guidLow (takeListed bags listed) low = get? guidLow bags low := by
  induction listed generalizing bags with
  | nil => rfl
  | cons x rest ih =>
    obtain ⟨item, count⟩ := x
    rw [takeListed_cons, ih fun y hy => hnot y (mem_cons_of_mem _ hy)]
    exact get?_takeOne_ne (hnot _ mem_cons_self).symm

/-- **Of what is on the list** the count leaves. -/
theorem get?_takeListed (h : Takeable bags listed) :
    ∀ x ∈ listed, get? guidLow (takeListed bags listed) x.1.guidLow = left x.1 x.2 := by
  induction listed generalizing bags with
  | nil =>
    intro x hx
    cases hx
  | cons y rest ih =>
    obtain ⟨item, count⟩ := y
    intro x hx
    rw [takeListed_cons]
    rcases mem_cons.mp hx with rfl | hx
    · have hnot : ∀ y ∈ rest, y.1.guidLow ≠ item.guidLow := by
        intro y hy heq
        have hmem : y.1.guidLow ∈ rest.map fun x => x.1.guidLow := mem_map_of_mem hy
        rw [heq] at hmem
        exact (nodup_cons.mp h.nodup).1 hmem
      rw [get?_takeListed_ne hnot]
      exact get?_takeOne_self (h.inBags _ mem_cons_self).1
    · exact ih h.tail x hx

/-- **What leaves the bags** is the sum of the counts. -/
theorem countAll_takeListed (hbags : Keyed.Distinct guidLow bags) (h : Takeable bags listed) :
    countAll (takeListed bags listed) + (listed.map fun x => x.2.toNat).sum = countAll bags := by
  induction listed generalizing bags with
  | nil => rfl
  | cons x rest ih =>
    obtain ⟨item, count⟩ := x
    obtain ⟨hat, hle⟩ := h.inBags _ mem_cons_self
    have hone := countAll_takeOne hbags hat hle
    have hrest := ih (distinct_takeOne hbags) h.tail
    rw [takeListed_cons, map_cons, sum_cons]
    dsimp only at hone ⊢
    omega

/-! ### What is collected -/

variable {itemEntry : UInt32}

theorem collectItems_cons {guid : UInt64}
    (h : s.collectItems p itemEntry ((guid, count) :: items) = .ok listed) :
    ∃ item rest, p.items.find? (fun item => itemGuid item.guidLow = guid) = some item ∧
      count ≤ item.count ∧ (itemEntry = 0 ∨ itemEntry = item.entry) ∧
      s.collectItems p item.entry items = .ok rest ∧ listed = (item, count) :: rest := by
  unfold collectItems at h
  cases hfind : p.items.find? fun item => itemGuid item.guidLow = guid with
  | none =>
    rw [hfind] at h
    cases h
  | some item =>
    rw [hfind] at h
    dsimp only at h
    generalize hentry : (if itemEntry = 0 then item.entry else itemEntry) = entry at h
    split at h
    · cases h
    rename_i hpassed
    simp only [Bool.or_eq_true, decide_eq_true_eq, not_or, UInt32.not_lt, not_not] at hpassed
    obtain ⟨⟨-, hle⟩, rfl⟩ := hpassed
    have hsame : itemEntry = 0 ∨ itemEntry = item.entry := by
      by_cases hzero : itemEntry = 0
      · exact .inl hzero
      rw [if_neg hzero] at hentry
      exact .inr hentry
    generalize hrest : s.collectItems p item.entry items = collected at h
    cases collected with
    | error e => cases h
    | ok collected =>
      cases h
      exact ⟨item, collected, rfl, hle, hsame, hrest, rfl⟩

/-- **The items that were collected** are those that were asked for, in their order: each is in the
bags under its guid and has the count. -/
theorem collectItems_spec (h : s.collectItems p itemEntry items = .ok listed) :
    Forall₂ (fun x y => y.1 ∈ p.items ∧ itemGuid y.1.guidLow = x.1 ∧ y.2 = x.2 ∧
      y.2 ≤ y.1.count) items listed := by
  induction items generalizing itemEntry listed with
  | nil =>
    cases h
    exact .nil
  | cons x items ih =>
    obtain ⟨item, rest, hfind, hle, -, hrest, rfl⟩ := collectItems_cons h
    have hguid : itemGuid item.guidLow = x.1 := by
      have hfound := find?_some hfind
      exact of_decide_eq_true hfound
    exact .cons ⟨mem_of_find?_eq_some hfind, hguid, rfl, hle⟩ (ih hrest)

theorem collectItems_entry (hentry : itemEntry ≠ 0)
    (h : s.collectItems p itemEntry items = .ok listed) : ∀ x ∈ listed, x.1.entry = itemEntry := by
  induction items generalizing itemEntry listed with
  | nil =>
    cases h
    intro x hx
    cases hx
  | cons x items ih =>
    obtain ⟨item, rest, hfind, -, hsame, hrest, rfl⟩ := collectItems_cons h
    obtain rfl := hsame.resolve_left hentry
    intro x hx
    rcases mem_cons.mp hx with rfl | hx
    · rfl
    · exact ih hentry hrest x hx

theorem collectItems_entries (h : s.collectItems p 0 items = .ok ((item, count) :: rest))
    (hentry : item.entry ≠ 0) : ∀ x ∈ (item, count) :: rest, x.1.entry = item.entry := by
  cases items with
  | nil => cases h
  | cons x items =>
    obtain ⟨item', rest', -, -, -, hrest, heq⟩ := collectItems_cons h
    cases heq
    intro x hx
    rcases mem_cons.mp hx with rfl | hx
    · rfl
    · exact collectItems_entry hentry hrest x hx

theorem toNat_sum {l : List UInt32} (h : (l.map UInt32.toNat).sum < 2 ^ 32) :
    l.sum.toNat = (l.map UInt32.toNat).sum := by
  induction l with
  | nil => rfl
  | cons x l ih =>
    rw [map_cons, sum_cons] at h
    rw [map_cons, sum_cons, sum_cons, UInt32.toNat_add, ih (by omega)]
    exact Nat.mod_eq_of_lt h

/-! ### The checks -/

def finalCount (listed : List (Item × UInt32)) : UInt32 := (listed.map (·.2)).sum

/-- **A listing that is accepted**: the checks of the handler let it through, and the player has the
money for the deposit. -/
structure Accepted (s : State) (env : Env) (p : Character) (auctioneer : UInt64)
    (items : List (UInt64 × UInt32)) (bid : UInt64) (etime : UInt32) (npc : Npc)
    (houseEntry : HouseEntry) (item : Item) (count : UInt32) (rest : List (Item × UInt32)) :
    Prop where
  few : items.length ≤ maxAuctionItems
  counts : ∀ x ∈ items, x.1 ≠ 0 ∧ x.2 ≠ 0 ∧ x.2 ≤ 1000
  price : bid ≠ 0
  lasts : etime ≠ 0
  near : env.npc auctioneer = some npc
  house : npc.houseEntry = some houseEntry
  time : etime * 60 = minAuctionTime ∨ etime * 60 = 2 * minAuctionTime ∨
    etime * 60 = 4 * minAuctionTime
  collected : s.collectItems p 0 items = .ok ((item, count) :: rest)
  ofSome : finalCount ((item, count) :: rest) ≠ 0
  nodup : (items.map (·.1)).Nodup
  stack : ∀ x ∈ (item, count) :: rest, finalCount ((item, count) :: rest) ≤ x.1.maxStackCount
  money : (getAuctionDeposit env houseEntry (etime * 60) item
    (finalCount ((item, count) :: rest))).toNat ≤ p.money

variable {auctioneer bid buyout : UInt64} {etime : UInt32} {npc : Npc} {houseEntry : HouseEntry}

/-- **What is accepted is listed.** -/
theorem sell_of_accepted
    (h : Accepted s env p auctioneer items bid etime npc houseEntry item count rest) :
    s.handleAuctionSellItem env p auctioneer items bid buyout etime =
      s.listItems env p npc houseEntry ((item, count) :: rest) item count
        (finalCount ((item, count) :: rest)) bid buyout (etime * 60) := by
  have htime : ¬(etime * 60 ≠ minAuctionTime && etime * 60 ≠ 2 * minAuctionTime &&
      etime * 60 ≠ 4 * minAuctionTime) = true := by
    simp only [Bool.and_eq_true, decide_eq_true_eq, not_and, not_not]
    rintro ⟨hone, htwo⟩
    rcases h.time with htime | htime | htime
    · exact absurd htime hone
    · exact absurd htime htwo
    · exact htime
  unfold handleAuctionSellItem
  rw [if_neg (not_lt.mpr h.few), if_neg, if_neg (by simp [h.price, h.lasts]), h.near]
  · dsimp only
    rw [h.house]
    dsimp only
    rw [if_neg htime, h.collected]
    refine if_neg ?_
    simp only [Bool.or_eq_true, decide_eq_true_eq, Bool.not_eq_true', decide_eq_false_iff_not,
      not_or, not_not, List.any_eq_true, not_exists, not_and, UInt32.not_lt]
    exact ⟨⟨h.ofSome, h.nodup⟩, fun x hx => h.stack x hx⟩
  · rw [List.any_eq_true]
    rintro ⟨x, hx, hbad⟩
    obtain ⟨hguid, hcount, hle⟩ := h.counts x hx
    simp only [Bool.or_eq_true, decide_eq_true_eq] at hbad
    rcases hbad with (hbad | hbad) | hbad
    · exact hguid hbad
    · exact hcount hbad
    · exact absurd hle (UInt32.not_le.mpr hbad)

/-- **What is not accepted changes nothing.** -/
theorem sell_cases : (s.handleAuctionSellItem env p auctioneer items bid buyout etime).1 = s ∨
      ∃ npc houseEntry item count rest,
        Accepted s env p auctioneer items bid etime npc houseEntry item count rest := by
  unfold handleAuctionSellItem
  split
  · exact .inl rfl
  rename_i hfew
  split
  · exact .inl rfl
  rename_i hcounts
  split
  · exact .inl rfl
  rename_i hprice
  cases hnpc : env.npc auctioneer with
  | none => exact .inl rfl
  | some npc =>
    cases hentry : npc.houseEntry with
    | none =>
      refine .inl ?_
      dsimp only
      rw [hentry]
    | some houseEntry =>
      dsimp only
      rw [hentry]
      dsimp only
      split
      · exact .inl rfl
      rename_i htime
      cases hcollected : s.collectItems p 0 items with
      | error e => exact .inl rfl
      | ok listed =>
        cases listed with
        | nil => exact .inl rfl
        | cons x rest =>
          obtain ⟨item, count⟩ := x
          dsimp only
          split
          · exact .inl rfl
          rename_i hlast
          unfold listItems
          dsimp only
          split
          · exact .inl rfl
          rename_i hmoney
          simp only [Bool.or_eq_true, decide_eq_true_eq, Bool.not_eq_true',
            decide_eq_false_iff_not, not_or, not_not, List.any_eq_true,
            not_exists, not_and, UInt32.not_lt] at hlast hprice
          rw [Bool.not_eq_true', Bool.not_eq_false] at hmoney
          unfold hasEnoughMoney at hmoney
          rw [decide_eq_true_eq, UInt32.toNat_toUInt64] at hmoney
          refine .inr ⟨npc, houseEntry, item, count, rest, not_lt.mp hfew,
            fun x hx => ?_, hprice.1, hprice.2, hnpc, hentry, ?_, hcollected,
            hlast.1.1, hlast.1.2, fun x hx => hlast.2 x hx, hmoney⟩
          · rw [List.any_eq_true, not_exists] at hcounts
            have hgood := hcounts x
            simp only [Bool.or_eq_true, decide_eq_true_eq, not_and, not_or,
              UInt32.not_lt, hx, forall_const] at hgood
            exact ⟨hgood.1.1, hgood.1.2, hgood.2⟩
          simp only [Bool.and_eq_true, decide_eq_true_eq, not_and, not_not] at htime
          by_cases hone : etime * 60 = minAuctionTime
          · exact .inl hone
          by_cases htwo : etime * 60 = 2 * minAuctionTime
          · exact .inr (.inl htwo)
          · exact .inr (.inr (htime ⟨hone, htwo⟩))

/-! ### The listing -/

/-- **One auction is made**: its stack is the sum of the counts and is what the bags lose, item by
item, and the player's money falls by the deposit. -/
structure Listed (s : State) (p : Character) (items : List (UInt64 × UInt32)) (s' : State)
    (l : Listing) (p' : Character) : Prop where
  fresh : s.auctions.get? l.key = none
  auctions : s'.auctions = s.auctions.put l
  player : s'.players.get? p.guid = some p'
  others : ∀ q, q ≠ p.guid → s'.players.get? q = s.players.get? q
  mails : s'.mails = s.mails
  stack : l.entry.itemCount.toNat = (items.map fun x => x.2.toNat).sum
  taken : ∀ x ∈ items, ∃ item ∈ p.items, itemGuid item.guidLow = x.1 ∧ x.2 ≤ item.count ∧
    (l.entry.itemEntry ≠ 0 → item.entry = l.entry.itemEntry) ∧
    Keyed.get? Item.guidLow p'.items item.guidLow = left item x.2
  kept : ∀ item ∈ p.items, (∀ x ∈ items, x.1 ≠ itemGuid item.guidLow) →
    Keyed.get? Item.guidLow p'.items item.guidLow = some item
  total : countAll p'.items + l.entry.itemCount.toNat = countAll p.items
  money : p'.money + l.entry.deposit.toNat = p.money

/-- **All or nothing.** -/
def SellRight (s : State) (p : Character) (items : List (UInt64 × UInt32)) (s' : State) : Prop :=
  s' = s ∨ ∃ l p', Listed s p items s' l p'

variable {α : Type*}
variable {l : List α} {β : Type*}

theorem forall₂_mem {R : α → β → Prop} {l' : List β}
    (h : Forall₂ R l l') : (∀ x ∈ l, ∃ y ∈ l', R x y) ∧ ∀ y ∈ l', ∃ x ∈ l, R x y := by
  induction h with
  | nil => exact ⟨nofun, nofun⟩
  | cons hR _ ih =>
    refine ⟨fun x hx => ?_, fun y hy => ?_⟩
    · rcases mem_cons.mp hx with rfl | hx
      · exact ⟨_, mem_cons_self, hR⟩
      obtain ⟨y, hy, hxy⟩ := ih.1 x hx
      exact ⟨y, mem_cons_of_mem _ hy, hxy⟩
    rcases mem_cons.mp hy with rfl | hy
    · exact ⟨_, mem_cons_self, hR⟩
    obtain ⟨x, hx, hxy⟩ := ih.2 y hy
    exact ⟨x, mem_cons_of_mem _ hx, hxy⟩

theorem forall₂_map {γ : Type*} {R : α → β → Prop} {f : α → γ} {g : β → γ}
    {l' : List β} (h : Forall₂ R l l') (hR : ∀ x y, R x y → f x = g y) : l.map f = l'.map g := by
  induction h with
  | nil => rfl
  | cons hxy _ ih => rw [map_cons, map_cons, hR _ _ hxy, ih]

theorem sum_map_le {f : α → ℕ} {n : ℕ} (h : ∀ x ∈ l, f x ≤ n) : (l.map f).sum ≤ l.length * n := by
  induction l with
  | nil => exact Nat.zero_le _
  | cons x l ih =>
    have hhead := h x mem_cons_self
    have htail := ih fun y hy => h y (mem_cons_of_mem _ hy)
    rw [map_cons, sum_cons, length_cons, Nat.succ_mul]
    omega

theorem Accepted.takeable (hbags : Keyed.Distinct guidLow p.items)
    (h : Accepted s env p auctioneer items bid etime npc houseEntry item count rest) :
    Takeable p.items ((item, count) :: rest) := by
  have hspec := collectItems_spec h.collected
  have hguids : items.map (·.1) =
      (((item, count) :: rest).map fun x => x.1.guidLow).map itemGuid := by
    rw [List.map_map]
    exact forall₂_map hspec fun x y hxy => hxy.2.1.symm
  refine ⟨Nodup.of_map itemGuid (hguids ▸ h.nodup), fun y hy => ?_⟩
  obtain ⟨x, -, hin, -, -, hle⟩ := (forall₂_mem hspec).2 y hy
  exact ⟨hbags.get?_eq_some.mpr ⟨hin, rfl⟩, hle⟩

theorem Accepted.finalCount_toNat
    (h : Accepted s env p auctioneer items bid etime npc houseEntry item count rest) :
    (finalCount ((item, count) :: rest)).toNat = (items.map fun x => x.2.toNat).sum := by
  have hspec := collectItems_spec h.collected
  have hcounts : items.map (·.2) = ((item, count) :: rest).map (·.2) :=
    forall₂_map hspec fun x y hxy => hxy.2.2.1.symm
  have hbound : (items.map fun x => x.2.toNat).sum ≤ items.length * 1000 :=
    sum_map_le fun x hx => UInt32.le_iff_toNat_le.mp (h.counts x hx).2.2
  have hfew : items.length ≤ 160 := h.few
  unfold finalCount
  rw [← hcounts, toNat_sum]
  · rw [List.map_map]
    rfl
  rw [List.map_map]
  refine lt_of_le_of_lt hbound ?_
  omega

theorem modifyMoney_deposit_iff {money : ℕ} {deposit : UInt32} (hmoney : money ≤ maxMoneyAmount)
    (hle : deposit.toNat ≤ money) :
    Player.modifyMoney money (-int32 deposit) + deposit.toNat = money ↔ deposit.toNat < 2 ^ 31 := by
  constructor
  · intro hpaid
    by_contra hlarge
    have hcast : int32 deposit = deposit.toNat - 2 ^ 32 := by
      unfold int32
      rw [Int.bmod_def]
      have hlt := deposit.toNat_lt
      omega
    unfold Player.modifyMoney at hpaid
    split_ifs at hpaid <;> omega
  intro hlt
  rw [int32_of_lt hlt, modifyMoney_neg hle hmoney]
  exact Nat.sub_add_cancel hle

/-- **What a listing leaves**: one auction more, and the player without the items and the
deposit. -/
structure Made (s : State) (p : Character) (item : Item) (listed : List (Item × UInt32))
    (deposit : UInt32) (s' : State) (l : Listing) (p' : Character) : Prop where
  auctions : s'.auctions = s.auctions.put l
  player : s'.players.get? p.guid = some p'
  others : ∀ q, q ≠ p.guid → s'.players.get? q = s.players.get? q
  mails : s'.mails = s.mails
  counter : s'.auctionId = s.auctionId + 1
  id : l.entry.id = s.auctionId
  entry : l.entry.itemEntry = item.entry
  stack : l.entry.itemCount = finalCount listed
  cost : l.entry.deposit = deposit
  bags : p'.items = takeListed p.items listed
  money : p'.money = Player.modifyMoney p.money (-int32 deposit)

theorem sell_made {s' : State} (hp : s.players.get? p.guid = some p)
    (h : Accepted s env p auctioneer items bid etime npc houseEntry item count rest)
    (hs' : (s.handleAuctionSellItem env p auctioneer items bid buyout etime).1 = s') :
    ∃ l p', Made s p item ((item, count) :: rest) (getAuctionDeposit env houseEntry (etime * 60)
      item (finalCount ((item, count) :: rest))) s' l p' := by
  rw [sell_of_accepted h] at hs'
  unfold listItems at hs'
  have hpays : ¬(!hasEnoughMoney p.money (getAuctionDeposit env houseEntry (etime * 60) item
      (finalCount ((item, count) :: rest))).toUInt64) = true := by
    have hmoney := h.money
    unfold hasEnoughMoney
    rw [UInt32.toNat_toUInt64, Bool.not_eq_true', Bool.not_eq_false, decide_eq_true_eq]
    exact hmoney
  rw [if_neg hpays] at hs'
  subst hs'
  generalize getAuctionDeposit env houseEntry (etime * 60) item
    (finalCount ((item, count) :: rest)) = deposit
  refine ⟨_, { p with
    money := Player.modifyMoney p.money (-int32 deposit)
    items := takeListed p.items ((item, count) :: rest) }, rfl, ?_, fun q hq => ?_, rfl, rfl, rfl,
    rfl, ?_, rfl, rfl, by dsimp only⟩
  · dsimp only [takeItems, State.modifyMoney]
    rw [get?_modify, if_pos rfl, get?_modify, if_pos rfl, hp, map_some, map_some]
  · dsimp only [takeItems, State.modifyMoney]
    rw [get?_modify, if_neg hq, get?_modify, if_neg hq]
  dsimp only
  split
  · rename_i hwhole
    simp only [Bool.and_eq_true, decide_eq_true_eq, length_cons] at hwhole
    have hrest : rest = [] := eq_nil_of_length_eq_zero (by omega)
    rw [hrest, hwhole.2]
    unfold finalCount
    simp
  · rfl

/-- **Listings are all or nothing exactly if the deposit is below `2^31`.** -/
theorem sell_right_iff (hp : s.players.get? p.guid = some p)
    (hbags : Keyed.Distinct guidLow p.items) (hmoney : p.money ≤ maxMoneyAmount)
    (hids : ∀ l ∈ s.auctions.rows, l.entry.id < s.auctionId) :
    SellRight s p items (s.handleAuctionSellItem env p auctioneer items bid buyout etime).1 ↔
      ∀ npc houseEntry item count rest,
        Accepted s env p auctioneer items bid etime npc houseEntry item count rest →
        (getAuctionDeposit env houseEntry (etime * 60) item
          (finalCount ((item, count) :: rest))).toNat < 2 ^ 31 := by
  generalize hs' : (s.handleAuctionSellItem env p auctioneer items bid buyout etime).1 = s'
  constructor
  · intro hright npc houseEntry item count rest h
    obtain ⟨l, p', hmade⟩ := sell_made hp h hs'
    rcases hright with hsame | ⟨l', p'', hlisted⟩
    · have hcounter := hmade.counter
      exact absurd hcounter (by grind)
    refine (modifyMoney_deposit_iff hmoney h.money).mp ?_
    have hplayer := hmade.player
    rw [hlisted.player] at hplayer
    cases hplayer
    have hput : s.auctions.put l = s.auctions.put l' := hmade.auctions.symm.trans hlisted.auctions
    have hrow : l = l' := (cons.inj (congrArg rows hput)).1
    have hpaid := hlisted.money
    rw [← hrow, hmade.cost, hmade.money] at hpaid
    exact hpaid
  intro hcheap
  rcases @sell_cases s env p items auctioneer bid buyout etime with
    hsame | ⟨npc, houseEntry, item, count, rest, h⟩
  · exact .inl (hs'.symm.trans hsame)
  obtain ⟨l, p', hmade⟩ := sell_made hp h hs'
  have htakeable := h.takeable hbags
  have hspec := collectItems_spec h.collected
  have hcount := h.finalCount_toNat
  have hmap : (items.map fun x => x.2.toNat) = ((item, count) :: rest).map fun x => x.2.toNat :=
    forall₂_map hspec fun x y hxy => congrArg UInt32.toNat hxy.2.2.1.symm
  refine .inr ⟨l, p', ?_, hmade.auctions, hmade.player, hmade.others, hmade.mails, ?_,
    fun x hx => ?_, fun item' hin hnot => ?_, ?_, ?_⟩
  · refine Keyed.Table.get?_eq_none.mpr fun l' hl' hkey => ?_
    have hlt := hids l' hl'
    have hid : l'.entry.id = l.entry.id := congrArg Prod.snd hkey
    rw [hid, hmade.id] at hlt
    exact absurd hlt (UInt32.lt_irrefl _)
  · rw [hmade.stack]
    exact hcount
  · obtain ⟨y, hy, hin, hguid, hsame, hle⟩ := (forall₂_mem hspec).1 x hx
    refine ⟨y.1, hin, hguid, hsame ▸ hle, fun hentry => ?_, ?_⟩
    · rw [hmade.entry] at hentry ⊢
      exact collectItems_entries h.collected hentry y hy
    rw [hmade.bags, ← hsame]
    exact get?_takeListed htakeable y hy
  · rw [hmade.bags, get?_takeListed_ne fun y hy heq => ?_]
    · exact hbags.get?_eq_some.mpr ⟨hin, rfl⟩
    obtain ⟨x, hx, -, hguid, -⟩ := (forall₂_mem hspec).2 y hy
    exact hnot x hx (hguid.symm.trans (congrArg itemGuid heq))
  · rw [hmade.bags, hmade.stack, hcount, hmap]
    exact countAll_takeListed hbags htakeable
  rw [hmade.money, hmade.cost]
  exact (modifyMoney_deposit_iff hmoney h.money).mpr (hcheap npc houseEntry item count rest h)

def seller (money : ℕ) (item : Item) : Character where
  guid := 1
  money := money
  items := [item]
  guid_ne := one_ne

/-- The sword is listed for a deposit of 2 silver and 25 copper. -/
theorem sell_right_sword : SellRight openingDay (seller 1000 sword) [(itemGuid 7, 1)]
      (openingDay.handleAuctionSellItem market (seller 1000 sword) 1 [(itemGuid 7, 1)] 1000 0
        720).1 := by
  refine (sell_right_iff rfl (by decide) (by decide) fun l hl => ?_).mpr
    fun npc houseEntry item count rest h => ?_
  · cases hl
  have hmoney := h.money
  exact lt_of_le_of_lt hmoney (by decide)

/-- The market with the deposit computed without overflow. -/
def wideMarket : Env :=
  { market with
    rawDeposit := fun pct time sellPrice count => UInt32.ofNat
      (pct.toNat * 3 * sellPrice.toNat * count.toNat * (time.toNat / 43200) / 100) }

/-- A crown that sells for `2^30`. -/
def crown : Item := { guidLow := 7, entry := 25, count := 1, sellPrice := 1073741824 }

/-- An empty auction house and the seller of the crown, with 300000 gold. -/
def coronation : State where
  players := ⟨[seller 3000000000 crown], by decide⟩
  auctions := .empty _
  aItems := []
  mails := []
  auctionId := 1

/-- **The deposit is paid out**: the seller has 187904 gold more afterwards. -/
theorem deposit_paid_out :
    let s' := (coronation.handleAuctionSellItem wideMarket (seller 3000000000 crown) 1
      [(itemGuid 7, 1)] 1000 0 720).1
    s'.auctions.rows.map (·.entry.deposit) = [2415919104] ∧ s'.moneyOf 1 = 4879048192 ∧
      ¬SellRight coronation (seller 3000000000 crown) [(itemGuid 7, 1)] s' := by
  intro s'
  have hmoney : s'.moneyOf 1 = 4879048192 := by decide +kernel
  have hcounter : s'.auctionId = 2 := by decide +kernel
  refine ⟨by decide +kernel, hmoney, ?_⟩
  rintro (hsame | ⟨l, p', hlisted⟩)
  · rw [hsame] at hcounter
    exact absurd hcounter (by decide)
  have hpaid : p'.money + l.entry.deposit.toNat = 3000000000 := hlisted.money
  have hplayer : s'.players.get? 1 = some p' := hlisted.player
  unfold moneyOf at hmoney
  rw [hplayer] at hmoney
  have hp : p'.money = 4879048192 := hmoney
  omega

end ZerosCore.Auction
