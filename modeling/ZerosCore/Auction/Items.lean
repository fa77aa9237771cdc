/-
# Where the auction house leaves the items

The item of an auction is held in `mAitems`, apart from the entry.  When the
auction ends (`HandleAuctionPlaceBid` at the buyout, `HandleAuctionRemoveItem`,
`AuctionHouseObject::Update`) it belongs in one mail: to the winner, if there is
one whose character still exists, and otherwise to the owner, if that one does.

`SendAuctionWonMail` looks up the account of an offline winner inside the branch
of `CONFIG_GM_LOG_TRADE`: with the log off, an auction won by a player who is
offline when it expires ends without a mail (`offline_winner_loses_item`).  Its
siblings look the account up whenever the receiver is offline.  Nor does it fall
back on the owner when the winner is gone.  `settles_iff` says exactly when an
end delivers.
-/

import ZerosCore.Auction.Basic
import ZerosCore.Lib.Run

namespace ZerosCore.Auction

open Lib Player List Keyed.Table State

/-! ### Deliveries -/

/-- The receivers of an item, one for each time it lies in a mail. -/
def deliveries (item : UInt32) (ms : List SentMail) : List UInt32 :=
  ms.flatMap fun m => (m.items.filter (· = item)).map fun _ => m.receiver

@[simp] theorem deliveries_append (item : UInt32) (ms ms' : List SentMail) :
    deliveries item (ms ++ ms') = deliveries item ms ++ deliveries item ms' := by
  simp [deliveries]

variable {item : UInt32} {ms : List SentMail}

theorem deliveries_of_empty (h : ∀ m ∈ ms, m.items = []) : deliveries item ms = [] := by
  simp only [deliveries, flatMap_eq_nil_iff]
  intro m hm
  simp [h m hm]

theorem deliveries_of_ne {i : UInt32}
    (h : ∀ m ∈ ms, ∀ j ∈ m.items, j = item) (hi : i ≠ item) : deliveries i ms = [] := by
  simp only [deliveries, flatMap_eq_nil_iff, map_eq_nil_iff, filter_eq_nil_iff, decide_eq_true_eq]
  intro m hm j hj heq
  exact hi (heq ▸ h m hm j hj)

/-- Who wins an auction that a step ends. -/
def winner : Step → Listing → Option UInt32
  | .bid player .., _ => some player
  | .update .., l => if l.entry.bidder = 0 then none else some l.entry.bidder
  | _, _ => none

/-- Who is to have the item of an auction that a step ends. -/
def receiver (env : Env) (step : Step) (l : Listing) : Option UInt32 :=
  match winner step l with
  | some w => if env.exists w then some w
      else if env.exists l.entry.owner then some l.entry.owner else none
  | none => if env.exists l.entry.owner then some l.entry.owner else none

/-- From `s` to `s'` the item of every auction that ended went to the receivers
`who`, and is no longer held; the items of the others are held still, and were
sent to nobody; and nothing was sent that was not held. -/
def Sends (s s' : State) (who : Listing → List UInt32) : Prop :=
  ∃ ms, s'.mails = s.mails ++ ms ∧ (∀ i ∉ s.aItems, deliveries i ms = []) ∧ ∀ l ∈ s.auctions.rows,
      if s'.auctions.get? l.key = none then
        deliveries l.entry.itemGuidLow ms = who l ∧ l.entry.itemGuidLow ∉ s'.aItems
      else deliveries l.entry.itemGuidLow ms = [] ∧ l.entry.itemGuidLow ∈ s'.aItems

/-- Every auction a step ends is settled: its item is in one mail, to its
receiver, or in none when there is no receiver. -/
def Settles (s : State) (a : Env × Step) : Prop :=
  Sends s (s.step a) fun l => (receiver a.1 a.2 l).toList

/-- Every entry has its own item, and the auction house holds it. -/
structure Held (s : State) : Prop where
  held : ∀ l ∈ s.auctions.rows, l.entry.itemGuidLow ∈ s.aItems
  own : ∀ l ∈ s.auctions.rows, ∀ l' ∈ s.auctions.rows,
    l.entry.itemGuidLow = l'.entry.itemGuidLow → l = l'
  ids : ∀ l ∈ s.auctions.rows, l.entry.id < s.auctionId

/-- What the server promises a handler: a request comes from a player in the
world, and the generators of ids have not run out and return what is new. -/
def Promised (s : State) : Env × Step → Prop
  | (env, .sell ..) => s.auctionId < 0xFFFFFFFE ∧ env.freshItem ∉ s.aItems
  | (env, .bid player ..) => env.online player
  | (env, .cancel player ..) => env.online player
  | (_, .update ..) => True

/-- The mail to the winner of an expired auction is sent, or nobody is to have
the item. -/
def WinnerReached (env : Env) (a : AuctionEntry) : Prop :=
  env.online a.bidder ∨ (env.gmLogTrade ∧ env.accountId a.bidder ≠ 0) ∨
    (env.accountId a.bidder = 0 ∧ ¬ env.exists a.owner)

/-- What a step has to meet: an update reaches the winner of every auction with a
bidder that it ends. -/
def Reaches (s : State) : Env × Step → Prop
  | (env, .update house ids) => ∀ id ∈ ids, ∀ l, s.auctions.get? (house, id) = some l →
      l.entry.bidder ≠ 0 → WinnerReached env l.entry
  | _ => True

variable {s s' s'' : State} {env : Env} {p : Character} {l : Listing}

/-! ### Composing -/

variable {who : Listing → List UInt32}

theorem Sends.congr {who' : Listing → List UInt32} (h : Sends s s' who) : Sends s s' who' ↔
      ∀ l ∈ s.auctions.rows, s'.auctions.get? l.key = none → who l = who' l := by
  obtain ⟨ms, hms, hheld, hl⟩ := h
  constructor
  · rintro ⟨ms', hms', -, hl'⟩ l hmem hgone
    obtain rfl : ms = ms' := append_cancel_left (hms ▸ hms')
    have h1 := hl l hmem
    have h2 := hl' l hmem
    rw [if_pos hgone] at h1 h2
    rw [← h1.1, h2.1]
  intro heq
  refine ⟨ms, hms, hheld, fun l hmem => ?_⟩
  have h1 := hl l hmem
  split_ifs at h1 ⊢ with hgone
  · rw [← heq l hmem hgone]
    exact h1
  · exact h1

theorem sends_of_keys (hs : Held s)
    (hms : s'.mails = s.mails ++ ms) (hempty : ∀ m ∈ ms, m.items = [])
    (hkeys : ∀ l ∈ s.auctions.rows, s'.auctions.get? l.key ≠ none)
    (hitems : ∀ i ∈ s.aItems, i ∈ s'.aItems) : Sends s s' who := by
  refine ⟨ms, hms, fun i _ => deliveries_of_empty hempty, fun l hl => ?_⟩
  rw [if_neg (hkeys l hl)]
  exact ⟨deliveries_of_empty hempty, hitems _ (hs.held l hl)⟩

theorem sends_self (hs : Held s) : Sends s s who :=
  sends_of_keys hs (append_nil _).symm (fun m hm => absurd hm not_mem_nil)
    (fun l hl => by simp [get?_key hl]) fun _ hi => hi

theorem sends_of_end (hs : Held s) (hl : s.auctions.get? l.key = some l)
    (hms : s'.mails = s.mails ++ ms) (hitem : ∀ m ∈ ms, ∀ i ∈ m.items, i = l.entry.itemGuidLow)
    (hto : deliveries l.entry.itemGuidLow ms = who l)
    (hauctions : s'.auctions = s.auctions.erase l.key)
    (haItems : s'.aItems = s.aItems.filter (· ≠ l.entry.itemGuidLow)) : Sends s s' who := by
  have hmem := (get?_eq_some.mp hl).1
  refine ⟨ms, hms, fun i hi => ?_, fun l' hl' => ?_⟩
  · exact deliveries_of_ne hitem fun h => hi (h ▸ hs.held l hmem)
  rw [hauctions, get?_erase]
  by_cases hk : l'.key = l.key
  · obtain rfl := s.auctions.distinct.eq_of_key hl' hmem hk
    rw [if_pos rfl, if_pos rfl]
    exact ⟨hto, by simp [haItems]⟩
  have hne : l'.entry.itemGuidLow ≠ l.entry.itemGuidLow := by
    intro h
    rw [hs.own l' hl' l hmem h] at hk
    exact hk rfl
  rw [if_neg hk, get?_key hl', if_neg (by simp)]
  refine ⟨?_, ?_⟩
  · exact deliveries_of_ne hitem hne
  rw [haItems, mem_filter]
  exact ⟨hs.held l' hl', by simpa using hne⟩

theorem held_of_end (hs : Held s) (hmem : l ∈ s.auctions.rows)
    (hauctions : s'.auctions = s.auctions.erase l.key)
    (haItems : s'.aItems = s.aItems.filter (· ≠ l.entry.itemGuidLow))
    (hid : s'.auctionId = s.auctionId) : Held s' := by
  have hrow (l') (h : l' ∈ s'.auctions.rows) : l' ∈ s.auctions.rows ∧ l'.key ≠ l.key := by
    rw [hauctions] at h
    exact mem_rows_erase.mp h
  refine ⟨fun l' hl' => ?_, fun l1 h1 l2 h2 => hs.own l1 (hrow l1 h1).1 l2 (hrow l2 h2).1,
    fun l' hl' => ?_⟩
  · obtain ⟨hl', hne⟩ := hrow l' hl'
    rw [haItems, mem_filter]
    refine ⟨hs.held l' hl', ?_⟩
    simp only [ne_eq, decide_not, Bool.not_eq_true', decide_eq_false_iff_not]
    intro h
    rw [hs.own l' hl' l hmem h] at hne
    exact hne rfl
  rw [hid]
  exact hs.ids l' (hrow l' hl').1

/-! ### Bids and cancellations -/

/-- A charge touches purses and sends mails without items. -/
structure Charges (s s' : State) (ms : List SentMail) : Prop where
  mails : s'.mails = s.mails ++ ms
  empty : ∀ m ∈ ms, m.items = []
  auctions : s'.auctions = s.auctions
  aItems : s'.aItems = s.aItems
  auctionId : s'.auctionId = s.auctionId

theorem charges_modifyMoney (s : State) (player : UInt32) (d : ℤ) :
    Charges s (s.modifyMoney player d) [] :=
  ⟨(append_nil _).symm, by simp, rfl, rfl, rfl⟩

theorem items_outbidded (a : AuctionEntry) :
    ∀ m ∈ sendAuctionOutbiddedMail env a, m.items = [] := by
  unfold sendAuctionOutbiddedMail
  split_ifs <;> simp

theorem charges_chargeBid (s : State) (env : Env) (player : UInt32) (a : AuctionEntry)
    (price : UInt64) : ∃ ms, Charges s (s.chargeBid env player a price) ms := by
  unfold chargeBid
  split_ifs
  · exact ⟨[], charges_modifyMoney s player _⟩
  · exact ⟨sendAuctionOutbiddedMail env a, rfl, items_outbidded a, rfl, rfl, rfl⟩
  · exact ⟨[], charges_modifyMoney s player _⟩

theorem charges_chargeBuyout (s : State) (env : Env) (player : UInt32) (a : AuctionEntry) :
    ∃ ms, Charges s (s.chargeBuyout env player a) ms := by
  unfold chargeBuyout
  split_ifs
  · exact ⟨[], charges_modifyMoney s player _⟩
  · exact ⟨sendAuctionOutbiddedMail env a, rfl, items_outbidded a, rfl, rfl, rfl⟩
  · exact ⟨[], charges_modifyMoney s player _⟩

theorem sends_placeBid (env : Env) (hs : Held s) (player : UInt32) (price : UInt64)
    (hl : s.auctions.get? l.key = some l) :
    Sends s (s.placeBid env player l price) who ∧ Held (s.placeBid env player l price) := by
  have hmem := (get?_eq_some.mp hl).1
  obtain ⟨ms, hc⟩ := charges_chargeBid s env player l.entry price
  generalize hs' : s.placeBid env player l price = s'
  unfold placeBid at hs'
  dsimp only at hs'
  rw [hc.auctions] at hs'
  generalize (if l.entry.bidder = player then _ else _ : ℤ) = paid at hs'
  have hauctions : s'.auctions = s.auctions.modify l.key
      (Listing.setBid player price.toUInt32 paid) (Listing.key_setBid _ _ _) := by rw [← hs']
  have hrow (l') (h : l' ∈ s'.auctions.rows) :
      ∃ l0 ∈ s.auctions.rows, l'.entry.itemGuidLow = l0.entry.itemGuidLow ∧ l'.key = l0.key ∧
        (l' = l0 ∨ l0 = l ∧ l' = l.setBid player price.toUInt32 paid) := by
    simp only [hauctions, mem_rows_modify] at h
    rcases h with ⟨h, -⟩ | ⟨l0, hl0, hk, rfl⟩
    · exact ⟨l', h, rfl, rfl, .inl rfl⟩
    obtain rfl := s.auctions.distinct.eq_of_key hl0 hmem hk
    exact ⟨l0, hl0, rfl, rfl, .inr ⟨rfl, rfl⟩⟩
  constructor
  · have hmails : s'.mails = s.mails ++ ms := by rw [← hs']; exact hc.mails
    refine sends_of_keys hs hmails hc.empty (fun l' hl' => ?_) ?_
    · rw [hauctions, get?_modify, get?_key hl']
      split_ifs <;> simp
    rw [← hs']
    exact fun i hi => by simpa [hc.aItems] using hi
  refine ⟨fun l' hl' => ?_, fun l1 h1 l2 h2 heq => ?_, fun l' hl' => ?_⟩
  · obtain ⟨l0, hl0, hitem, -⟩ := hrow l' hl'
    rw [hitem, ← hs']
    simpa [hc.aItems] using hs.held l0 hl0
  · obtain ⟨k1, hk1, hi1, hkey1, -⟩ := hrow l1 h1
    obtain ⟨k2, hk2, hi2, hkey2, -⟩ := hrow l2 h2
    have := hs.own k1 hk1 k2 hk2 (by rw [← hi1, ← hi2, heq])
    exact s'.auctions.distinct.eq_of_key h1 h2 (by rw [hkey1, hkey2, this])
  obtain ⟨l0, hl0, -, hkey, -⟩ := hrow l' hl'
  have hid : l'.entry.id = l0.entry.id := congrArg Prod.snd hkey
  rw [hid, ← hs']
  simpa [hc.auctionId] using hs.ids l0 hl0

/-- **The end of an auction**: a charge, the mails of the end, of which at most
the item of the auction is sent, and the removal. -/
theorem sends_endAuction (hs : Held s) (hl : s.auctions.get? l.key = some l) {s1 : State}
    {last : List SentMail} (hc : Charges s s1 ms)
    (hitem : ∀ m ∈ last, ∀ i ∈ m.items, i = l.entry.itemGuidLow)
    (hwho : deliveries l.entry.itemGuidLow last = who l) :
    Sends s ((s1.send last).endAuction l) who ∧ Held ((s1.send last).endAuction l) := by
  have hmem := (get?_eq_some.mp hl).1
  have hauctions : ((s1.send last).endAuction l).auctions = s.auctions.erase l.key := by
    simp [endAuction, removeAuction, removeAItem, send, hc.auctions]
  have haItems : ((s1.send last).endAuction l).aItems =
      s.aItems.filter (· ≠ l.entry.itemGuidLow) := by
    simp [endAuction, removeAuction, removeAItem, send, hc.aItems]
  have hmails : ((s1.send last).endAuction l).mails = s.mails ++ (ms ++ last) := by
    simp [endAuction, removeAuction, removeAItem, send, hc.mails]
  refine ⟨sends_of_end hs hl hmails ?_ ?_ hauctions haItems,
    held_of_end hs hmem hauctions haItems hc.auctionId⟩
  · intro m hm i hi
    rcases mem_append.mp hm with hm | hm
    · rw [hc.empty m hm] at hi
      simp at hi
    · exact hitem m hm i hi
  · rw [deliveries_append, deliveries_of_empty hc.empty, nil_append, hwho]

theorem items_sale (a : AuctionEntry) :
    ∀ m ∈ sendAuctionSalePendingMail env a ++ sendAuctionSuccessfulMail env a, m.items = [] := by
  unfold sendAuctionSalePendingMail sendAuctionSuccessfulMail
  split_ifs <;> simp

variable {player : UInt32}

/-- **A buyout** sends the item to the buyer. -/
theorem sends_buyout (hs : Held s) (hl : s.auctions.get? l.key = some l)
    (honline : env.online player) (who : Listing → List UInt32) (hwho : who l = [player]) :
    Sends s (s.buyout env player l) who ∧ Held (s.buyout env player l) := by
  have hmem := (get?_eq_some.mp hl).1
  obtain ⟨ms, hc⟩ := charges_chargeBuyout s env player l.entry
  have hwon : sendAuctionWonMail env (s.chargeBuyout env player l.entry).aItems
      (l.entry.boughtOut player) =
        [{ receiver := player, answer := .won, items := [l.entry.itemGuidLow] }] := by
    simp [sendAuctionWonMail, AuctionEntry.boughtOut, hc.aItems, hs.held l hmem, honline]
  refine sends_endAuction hs hl hc (fun m hm i hi => ?_) ?_
  · rw [hwon] at hm
    rcases mem_append.mp hm with hm | hm
    · rw [items_sale _ m hm] at hi
      simp at hi
    rw [mem_singleton.mp hm] at hi
    exact mem_singleton.mp hi
  rw [hwon, deliveries_append, deliveries_of_empty (items_sale _), hwho]
  simp [deliveries]

/-- **A cancellation** sends the item back to the owner. -/
theorem sends_cancel (hs : Held s) (hl : s.auctions.get? l.key = some l) {d : ℤ}
    (who : Listing → List UInt32) (hwho : who l = [player]) (hs' : s' = ((if l.entry.bidder > 0 then
        (s.send (sendAuctionCancelledToBidderMail env l.entry)).modifyMoney player d
      else s).send [{ receiver := player, answer := .canceled
                      items := [l.entry.itemGuidLow] }]).endAuction l) :
    Sends s s' who ∧ Held s' := by
  obtain ⟨ms, hc⟩ : ∃ ms, Charges s (if l.entry.bidder > 0 then
      (s.send (sendAuctionCancelledToBidderMail env l.entry)).modifyMoney player d else s) ms := by
    split_ifs
    · refine ⟨_, rfl, ?_, rfl, rfl, rfl⟩
      unfold sendAuctionCancelledToBidderMail
      split_ifs <;> simp
    · exact ⟨[], (append_nil _).symm, by simp, rfl, rfl, rfl⟩
  subst hs'
  refine sends_endAuction hs hl hc (fun m hm i hi => ?_) ?_
  · rw [mem_singleton.mp hm] at hi
    exact mem_singleton.mp hi
  rw [hwho]
  simp [deliveries]

/-! ### Expiry -/

/-- Who gets a mail with the item when an auction expires. -/
def arrives (env : Env) (l : Listing) : List UInt32 :=
  if l.entry.bidder = 0 then if env.exists l.entry.owner then [l.entry.owner] else []
  else if env.online l.entry.bidder || (env.gmLogTrade && env.accountId l.entry.bidder ≠ 0) then
    [l.entry.bidder]
  else []

variable {aItems : List UInt32} {a : AuctionEntry} {m : SentMail}

theorem items_won (h : m ∈ sendAuctionWonMail env aItems a) : ∀ i ∈ m.items, i = a.itemGuidLow := by
  unfold sendAuctionWonMail at h
  split_ifs at h <;> simp_all

theorem items_expired
    (h : m ∈ sendAuctionExpiredMail env aItems a) : ∀ i ∈ m.items, i = a.itemGuidLow := by
  unfold sendAuctionExpiredMail at h
  split_ifs at h <;> simp_all

theorem deliveries_won (h : a.itemGuidLow ∈ aItems) :
    deliveries a.itemGuidLow (sendAuctionWonMail env aItems a) =
      if env.online a.bidder || (env.gmLogTrade && env.accountId a.bidder ≠ 0) then [a.bidder]
      else [] := by
  unfold sendAuctionWonMail
  cases env.gmLogTrade with
  | false => by_cases hon : env.online a.bidder <;> simp [h, hon, deliveries]
  | true =>
    by_cases hon : env.online a.bidder <;> by_cases hacc : env.accountId a.bidder = 0 <;>
      simp [h, hon, hacc, deliveries]

theorem deliveries_expired (h : a.itemGuidLow ∈ aItems) :
    deliveries a.itemGuidLow (sendAuctionExpiredMail env aItems a) =
      if env.exists a.owner then [a.owner] else [] := by
  unfold sendAuctionExpiredMail
  by_cases hex : env.exists a.owner <;> simp [h, hex, deliveries]

variable {house : House} {id : UInt32}

/-- **One expiry.** -/
theorem sends_expire (env : Env) (hs : Held s) (hl : s.auctions.get? (house, id) = some l) :
    Sends s (s.expire env house id) (arrives env) ∧ Held (s.expire env house id) := by
  obtain ⟨hmem, hkey⟩ := get?_eq_some.mp hl
  rw [← hkey] at hl
  have hself : Charges s s [] := ⟨(append_nil _).symm, by simp, rfl, rfl, rfl⟩
  have hsale : ∀ m ∈ sendAuctionSuccessfulMail env l.entry, m.items = [] := fun m hm =>
    items_sale l.entry m (mem_append_right _ hm)
  unfold expire
  rw [← hkey, hl]
  refine sends_endAuction hs hl hself (fun m hm i hi => ?_) ?_
  · split_ifs at hm
    · exact items_expired hm i hi
    rcases mem_append.mp hm with hm | hm
    · rw [hsale m hm] at hi
      simp at hi
    · exact items_won hm i hi
  unfold arrives
  by_cases h0 : l.entry.bidder = 0
  · rw [if_pos h0, if_pos h0, deliveries_expired (hs.held l hmem)]
  rw [if_neg h0, if_neg h0, deliveries_append, deliveries_of_empty hsale,
    deliveries_won (hs.held l hmem), nil_append]

theorem aItems_expire {i : UInt32} (h : i ∈ (s.expire env house id).aItems) : i ∈ s.aItems := by
  unfold expire at h
  split at h
  · exact h
  · exact (mem_filter.mp h).1

/-- **The loop of `Update`.** -/
theorem sends_expireAll (env : Env) (house : House) (ids : List UInt32) (hs : Held s)
    (hs' : s' = ids.foldl (fun s id => s.expire env house id) s) :
    Sends s s' (arrives env) ∧ Held s' ∧ (∀ i ∈ s'.aItems, i ∈ s.aItems) ∧ ∀ k, s'.auctions.get? k =
        if k.1 = house ∧ k.2 ∈ ids then none else s.auctions.get? k := by
  induction ids generalizing s with
  | nil =>
    subst hs'
    exact ⟨sends_self hs, hs, fun i hi => hi, by simp⟩
  | cons id ids ih =>
    rw [foldl_cons] at hs'
    cases hl : s.auctions.get? (house, id) with
    | none =>
      have hsame : s.expire env house id = s := by
        unfold expire
        rw [hl]
      rw [hsame] at hs'
      obtain ⟨hsend, hheld, hitems, hkeys⟩ := ih hs hs'
      refine ⟨hsend, hheld, hitems, fun k => ?_⟩
      rw [hkeys]
      by_cases hk : k = (house, id)
      · subst hk
        simp [hl]
      have : k.1 = house → k.2 ≠ id := fun h1 h2 => hk (Prod.ext h1 h2)
      by_cases h1 : k.1 = house
      · simp [h1, this h1]
      · simp [h1]
    | some l0 =>
      obtain ⟨⟨ms, hms, hun, hl1⟩, hheld1⟩ := sends_expire env hs hl
      obtain ⟨⟨ms', hms', hun', hl2⟩, hheld, hitems, hkeys⟩ := ih hheld1 hs'
      refine ⟨⟨ms ++ ms', ?_, ?_, ?_⟩, hheld, fun i hi => aItems_expire (hitems i hi), ?_⟩
      · rw [hms', hms, append_assoc]
      · intro i hi
        rw [deliveries_append, hun i hi, hun' i fun h => hi (aItems_expire h)]
        rfl
      · intro l hmem
        have h1 := hl1 l hmem
        rw [deliveries_append]
        by_cases hgone : (s.expire env house id).auctions.get? l.key = none
        · rw [if_pos hgone] at h1
          have hgone' : s'.auctions.get? l.key = none := by
            rw [hkeys, hgone]
            split_ifs <;> rfl
          rw [if_pos hgone', h1.1, hun' _ h1.2, append_nil]
          exact ⟨rfl, fun h => h1.2 (hitems _ h)⟩
        rw [if_neg hgone] at h1
        have hmem1 : l ∈ (s.expire env house id).auctions.rows := by
          rw [get?_expire] at hgone
          split_ifs at hgone with hk
          · exact absurd rfl hgone
          have : (s.expire env house id).auctions.get? l.key = some l := by
            rw [get?_expire, if_neg hk, get?_key hmem]
          exact (get?_eq_some.mp this).1
        rw [h1.1, nil_append]
        exact hl2 l hmem1
      intro k
      rw [hkeys, get?_expire]
      by_cases hk : k = (house, id)
      · subst hk
        simp
      have : k.1 = house → k.2 ≠ id := fun h1 h2 => hk (Prod.ext h1 h2)
      by_cases h1 : k.1 = house
      · simp [h1, this h1, hk]
      · simp [h1, hk]

/-! ### Listing -/

theorem collectItems_notMem {itemEntry count : UInt32} {items : List (UInt64 × UInt32)}
    {item : Item} {rest : List (Item × UInt32)}
    (h : s.collectItems p itemEntry items = .ok ((item, count) :: rest)) :
    item.guidLow ∉ s.aItems := by
  cases items with
  | nil => simp [collectItems] at h
  | cons x items =>
    obtain ⟨guid, c⟩ := x
    unfold collectItems at h
    split at h
    · simp at h
    rename_i item' hfind
    dsimp only at h
    generalize (if itemEntry = 0 then item'.entry else itemEntry) = entry at h
    split at h
    · simp at h
    rename_i hok
    cases hrest : s.collectItems p entry items with
    | error e =>
      rw [hrest] at h
      cases h
    | ok listed =>
      rw [hrest] at h
      obtain rfl : item' = item := by cases h; rfl
      intro hmem
      simp [hmem] at hok

theorem sends_listItems (hs : Held s) {npc : Npc} {entry : HouseEntry}
    {listed : List (Item × UInt32)} {item : Item} {count finalCount : UInt32}
    {bid buyout : UInt64} {etime : UInt32} (hid : s.auctionId < 0xFFFFFFFE)
    (hfresh : env.freshItem ∉ s.aItems) (hitem : item.guidLow ∉ s.aItems)
    (hs' : (s.listItems env p npc entry listed item count finalCount bid buyout etime).1 = s')
    : Sends s s' who ∧ Held s' := by
  unfold listItems at hs'
  dsimp only at hs'
  split at hs'
  · subst hs'
    exact ⟨sends_self hs, hs⟩
  have hnot : (if listed.length = 1 && item.count = count then item.guidLow
      else env.freshItem) ∉ s.aItems := by
    split_ifs
    · exact hitem
    · exact hfresh
  generalize (if listed.length = 1 && item.count = count then item.guidLow
    else env.freshItem) = guidLow at hs' hnot
  generalize hnew : ({ house := npc.house, entry := _ } : Listing) = new at hs'
  have hguid : new.entry.itemGuidLow = guidLow := by rw [← hnew]
  have hauctions : s'.auctions = s.auctions.put new := by rw [← hs']; rfl
  have haItems : s'.aItems = s.aItems ++ [guidLow] := by rw [← hs']; rfl
  have hmails : s'.mails = s.mails ++ [] := by rw [← hs', append_nil]; rfl
  have hsucc : s.auctionId < s'.auctionId := by
    have hcounter : s'.auctionId = s.auctionId + 1 := by rw [← hs']; rfl
    grind
  have hne (l) (hl : l ∈ s.auctions.rows) : l.key ≠ new.key := by
    intro hkey
    have hlt := hs.ids l hl
    have heq : l.entry.id = s.auctionId := by
      rw [← hnew] at hkey
      exact congrArg Prod.snd hkey
    rw [heq] at hlt
    exact absurd hlt (UInt32.lt_irrefl _)
  have hother (l) (hl : l ∈ s.auctions.rows) : l.entry.itemGuidLow ≠ guidLow := fun h =>
    hnot (h ▸ hs.held l hl)
  have hrow (l) (hl : l ∈ s'.auctions.rows) : l = new ∨ l ∈ s.auctions.rows := by
    rw [hauctions, mem_rows_put] at hl
    exact hl.imp_right And.left
  constructor
  · refine sends_of_keys hs hmails (by simp) (fun l hl => ?_) fun i hi => ?_
    · rw [hauctions, get?_key (mem_rows_put.mpr (.inr ⟨hl, hne l hl⟩))]
      simp
    rw [haItems]
    exact mem_append_left _ hi
  refine ⟨fun l hl => ?_, fun l1 h1 l2 h2 heq => ?_, fun l hl => ?_⟩
  · rw [haItems]
    rcases hrow l hl with rfl | h
    · simp [hguid]
    · exact mem_append_left _ (hs.held l h)
  · rcases hrow l1 h1 with rfl | h1 <;> rcases hrow l2 h2 with rfl | h2
    · rfl
    · exact absurd (heq.symm.trans hguid) (hother l2 h2)
    · exact absurd (heq.trans hguid) (hother l1 h1)
    · exact hs.own l1 h1 l2 h2 heq
  rcases hrow l hl with rfl | h
  · rw [← hnew]
    exact hsucc
  · exact UInt32.lt_trans (hs.ids l h) hsucc

/-! ### Steps and runs -/

/-- A listing, a bid or a cancellation always settles, and every step keeps the
items held. -/
theorem step_held (hs : Held s) {a : Env × Step} (hp : Promised s a) :
    Held (s.step a) ∧ ((∀ house ids, a.2 ≠ .update house ids) → Settles s a) := by
  obtain ⟨env, step⟩ := a
  cases step with
  | sell player auctioneer items bid buyout etime =>
    unfold Settles
    dsimp only [step]
    cases hplayer : s.players.get? player with
    | none => exact ⟨hs, fun _ => sends_self hs⟩
    | some p =>
      dsimp only
      rcases handleAuctionSellItem_cases (r := s.handleAuctionSellItem env p auctioneer items
        bid buyout etime) rfl with heq | ⟨npc, entry, item, count, rest, -, -, hc, heq⟩
      · rw [heq]
        exact ⟨hs, fun _ => sends_self hs⟩
      rw [heq]
      obtain ⟨hsend, hheld⟩ := sends_listItems hs hp.1 hp.2 (collectItems_notMem hc) rfl
      exact ⟨hheld, fun _ => hsend⟩
  | bid player auctioneer auctionId price =>
    unfold Settles
    dsimp only [step]
    cases hplayer : s.players.get? player with
    | none => exact ⟨hs, fun _ => sends_self hs⟩
    | some p =>
      obtain rfl : p.guid = player := (get?_eq_some.mp hplayer).2
      dsimp only
      rcases handleAuctionPlaceBid_cases (r := s.handleAuctionPlaceBid env p auctioneer
        auctionId price) rfl with heq | ⟨npc, l, -, hl, -, heq⟩
      · rw [heq]
        exact ⟨hs, fun _ => sends_self hs⟩
      rw [← (get?_eq_some.mp hl).2] at hl
      have honline : env.online p.guid := hp
      rw [heq]
      split_ifs
      · obtain ⟨hsend, hheld⟩ := sends_placeBid env hs p.guid price hl
        exact ⟨hheld, fun _ => hsend⟩
      obtain ⟨hsend, hheld⟩ := sends_buyout hs hl honline
        (fun l => (receiver env (.bid p.guid auctioneer auctionId price) l).toList)
        (by simp [receiver, winner, Env.exists, honline])
      exact ⟨hheld, fun _ => hsend⟩
  | cancel player auctioneer auctionId =>
    unfold Settles
    dsimp only [step]
    cases hplayer : s.players.get? player with
    | none => exact ⟨hs, fun _ => sends_self hs⟩
    | some p =>
      obtain rfl : p.guid = player := (get?_eq_some.mp hplayer).2
      dsimp only
      rcases handleAuctionRemoveItem_cases (r := s.handleAuctionRemoveItem env p auctioneer
        auctionId) rfl with heq | ⟨npc, l, -, hl, hown, -, -, heq⟩
      · rw [heq]
        exact ⟨hs, fun _ => sends_self hs⟩
      rw [← (get?_eq_some.mp hl).2] at hl
      have honline : env.online p.guid := hp
      obtain ⟨hsend, hheld⟩ := sends_cancel hs hl
        (fun l => (receiver env (.cancel p.guid auctioneer auctionId) l).toList)
        (by simp [receiver, winner, Env.exists, hown, honline]) heq
      exact ⟨hheld, fun _ => hsend⟩
  | update house ids =>
    refine ⟨?_, fun h => absurd rfl (h house ids)⟩
    dsimp only [step]
    unfold update
    split_ifs
    · exact hs
    · exact (sends_expireAll env house ids hs rfl).2.1

theorem arrives_eq_iff (env : Env) (l : Listing) (house : House) (ids : List UInt32) :
    arrives env l = (receiver env (.update house ids) l).toList ↔
      (l.entry.bidder ≠ 0 → WinnerReached env l.entry) := by
  unfold arrives receiver winner WinnerReached
  by_cases h0 : l.entry.bidder = 0
  · simp only [h0, if_true, ne_eq, not_true_eq_false, false_imp_iff, iff_true]
    split_ifs <;> rfl
  cases hon : env.online l.entry.bidder with
  | true => simp [h0, hon, Env.exists]
  | false =>
    by_cases hacc : env.accountId l.entry.bidder = 0
    · by_cases hex : env.exists l.entry.owner
      all_goals
        have hgone : env.exists l.entry.bidder = false := by simp [Env.exists, hon, hacc]
        simp [h0, hacc, hex, hgone]
    have hthere : env.exists l.entry.bidder = true := by simp [Env.exists, hacc]
    cases env.gmLogTrade <;> simp [h0, hacc, hthere]

theorem settles_update_iff (hs : Held s) (house : House) (ids : List UInt32) :
    Settles s (env, .update house ids) ↔ Reaches s (env, .update house ids) := by
  unfold Settles Reaches
  dsimp only [step]
  unfold update
  split_ifs with hempty
  · refine iff_of_true (sends_self hs) fun id _ l hl => ?_
    obtain ⟨hmem, hkey⟩ := get?_eq_some.mp hl
    have hne : l.house ≠ house := by simpa using all_eq_true.mp hempty l hmem
    exact absurd (congrArg Prod.fst hkey) hne
  obtain ⟨hsend, -, -, hkeys⟩ := sends_expireAll env house ids hs rfl
  rw [hsend.congr]
  constructor
  · intro h id hid l hl h0
    obtain ⟨hmem, hkey⟩ := get?_eq_some.mp hl
    have hgone := hkeys l.key
    rw [hkey, if_pos ⟨rfl, hid⟩, ← hkey] at hgone
    exact (arrives_eq_iff env l house ids).mp (h l hmem hgone) h0
  intro h l hmem hgone
  refine (arrives_eq_iff env l house ids).mpr fun h0 => ?_
  rw [hkeys] at hgone
  have hl := get?_key hmem
  split_ifs at hgone with hk
  · obtain ⟨rfl, hid⟩ := hk
    exact h l.entry.id hid l hl h0
  rw [hl] at hgone
  simp at hgone

theorem settles_iff (hs : Held s) {a : Env × Step} (hp : Promised s a) :
    Settles s a ↔ Reaches s a := by
  obtain ⟨env, step⟩ := a
  cases step with
  | update house ids => exact settles_update_iff hs house ids
  | sell player auctioneer items bid buyout etime | bid player auctioneer auctionId price
  | cancel player auctioneer auctionId =>
    exact iff_of_true ((step_held hs hp).2 fun _ _ => by simp) trivial

/-- **The auction house conserves items.**  Where every entry has its item held, a
step settles the auctions it ends exactly when it reaches their winners; and in
every run of steps that do, every step settles what it ends. -/
theorem settles_iff_and_along (hs : Held s) : (∀ a, Promised s a → (Settles s a ↔ Reaches s a)) ∧
      ∀ as, Along step (fun s a => Promised s a ∧ Reaches s a) s as → Along step Settles s as := by
  refine ⟨fun a hp => settles_iff hs hp, fun as h => ?_⟩
  exact Along.of_invariant (I := Held) (fun s a hs h => (step_held hs h.1).1)
    (fun s a hs h => (settles_iff hs h.1).mpr h.2) hs h

theorem held_openingDay : Held openingDay where
  held _ h := absurd h not_mem_nil
  own _ h := absurd h not_mem_nil
  ids _ h := absurd h not_mem_nil

/-- The item is listed, bid for, and won by a player who is in the world. -/
theorem settles_along_sale : Along step Settles openingDay
      [listing, (market, .bid 2 1 1 1000), (market, .update .neutral [1])] := by
  refine (settles_iff_and_along held_openingDay).2 _ ⟨?_, ?_, ?_, trivial⟩
  · exact ⟨⟨by decide, by decide⟩, trivial⟩
  · exact ⟨rfl, trivial⟩
  · exact ⟨trivial, fun _ _ _ _ _ => .inl rfl⟩

/-- The market when nobody but the seller is in the world. -/
def night : Env := { market with online := fun guid => guid = 1 }

/-- **A winner who is offline loses the item.**  Player `2` bids and logs out; when
the auction expires the account is there, the gm log is off, the seller is paid,
and no mail holds the item. -/
theorem offline_winner_loses_item :
    (([listing, (market, .bid 2 1 1 1000), (night, .update .neutral [1])].foldl step
        openingDay).mails = [{ receiver := 1, answer := .successful, money := 1075 }] ∧
      night.exists 2) ∧
    ¬ ∀ (s : State) (as : List (Env × Step)), Held s → Along step Promised s as →
      Along step Settles s as := by
  refine ⟨by decide, fun h => ?_⟩
  have hrun := h openingDay [listing, (market, .bid 2 1 1 1000), (night, .update .neutral [1])]
    held_openingDay ⟨⟨by decide, by decide⟩, rfl, trivial, trivial⟩
  obtain ⟨ms, hms, -, hl⟩ := hrun.2.2.1
  obtain rfl : ms = [{ receiver := 1, answer := .successful, money := 1075 }] :=
    (nil_append ms).symm.trans hms.symm
  exact absurd (hl _ mem_cons_self) (by decide)

end ZerosCore.Auction
