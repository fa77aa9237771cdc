/-
# Where the auction house leaves the money

Money lies in the purses of players, in the live bids (`AuctionEntry::bid`) and
in the mails sent.  A listing takes a deposit, a sale gives the deposit back and
keeps a cut, a cancelled auction with a bidder costs the owner the cut; nothing
else leaves or enters (`named`).

The source breaks this where an amount changes its width: a bid at or above
`2^32` on an auction without buyout is charged in full and recorded modulo
`2^32` (`placeBid_truncates`), a deposit at or above `2^31` is charged through
`int32`, and `uint32 profit` wraps.  It also sends nothing to a character that
is gone.  `PaysInFull` excludes these, and `conserves_along` is the rest.
-/

import ZerosCore.Auction.Basic
import ZerosCore.Lib.Run
import Mathlib.Tactic.Linarith
import Mathlib.Tactic.Ring

namespace ZerosCore.Auction

open Lib Player List Option Keyed.Table State

/-! ### What is conserved -/

/-- The money in purses, live bids and mails. -/
def State.total (s : State) : ℤ :=
  s.players.sum (fun p => (p.money : ℤ)) + s.auctions.sum (fun l => (l.entry.bid.toNat : ℤ)) +
    (s.mails.map fun m => (m.money.toNat : ℤ)).sum

/-- What the end of an auction puts into circulation: the deposit returned less
the cut of a sale, the fee of a cancellation (taken out), nothing otherwise. -/
def endFee (env : Env) : Step → Listing → ℤ
  | .sell .., _ => 0
  | .bid .., l =>
    l.entry.deposit.toNat - (({ l.entry with bid := l.entry.buyout } : AuctionEntry).getAuctionCut
      env).toNat
  | .cancel .., l => if l.entry.bidder = 0 then 0 else -((l.entry.getAuctionCut env).toNat : ℤ)
  | .update .., l =>
    if l.entry.bidder = 0 then 0
    else l.entry.deposit.toNat - (l.entry.getAuctionCut env).toNat

/-- The amounts a step from `s` to `s'` names: the fees of the auctions that
ended, less the deposits of the auctions that were listed. -/
def named (env : Env) (step : Step) (s s' : State) : ℤ :=
  s.auctions.sum (fun l => if s'.auctions.get? l.key = none then endFee env step l else 0) -
    s'.auctions.sum fun l =>
      if s.auctions.get? l.key = none then (l.entry.deposit.toNat : ℤ) else 0

def Recorded (s : State) : Prop := ∀ l ∈ s.auctions.rows, l.paid = l.entry.bid.toNat

/-- A step keeps the money together, but for the amounts it names, and the
recorded bids true. -/
def Conserves (s : State) (a : Env × Step) : Prop :=
  (s.step a).total = s.total + named a.1 a.2 s (s.step a) ∧ Recorded (s.step a)

/-- The invariant: purses up to the gold limit, bids paid in full and below the
buyout, no bid without bidder, and ids from the generator. -/
structure Sound (s : State) : Prop where
  capped : ∀ p ∈ s.players.rows, p.money ≤ maxMoneyAmount
  recorded : Recorded s
  unbid : ∀ l ∈ s.auctions.rows, l.entry.bidder = 0 → l.entry.bid = 0
  below : ∀ l ∈ s.auctions.rows, l.entry.buyout ≠ 0 → l.entry.bid < l.entry.buyout
  ids : ∀ l ∈ s.auctions.rows, l.entry.id < s.auctionId

/-! ### What a step has to meet -/

/-- The profit of a sale is a `uint32`. -/
def ProfitFits (env : Env) (a : AuctionEntry) : Prop :=
  (a.getAuctionCut env).toNat ≤ a.bid.toNat + a.deposit.toNat ∧
    a.bid.toNat + a.deposit.toNat - (a.getAuctionCut env).toNat < 2 ^ 32

instance (env : Env) (a : AuctionEntry) : Decidable (ProfitFits env a) :=
  inferInstanceAs (Decidable (_ ∧ _))

/-- What a step has to meet, where the checks of its handler let it through: the
deposit is below `2^31` (and the auction ids have not run out), a bid is below
`2^32`, the character who is owed money exists, and the profit of a sale fits. -/
def PaysInFull (s : State) : Env × Step → Prop
  | (env, .sell player auctioneer items _ _ etime) =>
    ∀ p npc entry item count rest, s.players.get? player = some p →
    env.npc auctioneer = some npc → npc.houseEntry = some entry →
    s.collectItems p 0 items = .ok ((item, count) :: rest) →
    s.auctionId < 0xFFFFFFFE ∧ (getAuctionDeposit env entry (etime * 60) item
        (((item, count) :: rest).map (·.2)).sum).toNat < 2 ^ 31
  | (env, .bid player auctioneer auctionId price) =>
    ∀ p npc l, s.players.get? player = some p → env.npc auctioneer = some npc →
    s.auctions.get? (npc.house, auctionId) = some l → Accepts env p l.entry price →
    (l.entry.bidder ≠ 0 → l.entry.bidder ≠ player → env.exists l.entry.bidder) ∧
      if l.entry.isBid price then price.toNat < 2 ^ 32
      else env.exists l.entry.owner ∧ ProfitFits env { l.entry with bid := l.entry.buyout }
  | (env, .cancel player auctioneer auctionId) =>
    ∀ p npc l, s.players.get? player = some p → env.npc auctioneer = some npc →
    s.auctions.get? (npc.house, auctionId) = some l → l.entry.owner = player →
    l.entry.itemGuidLow ∈ s.aItems → l.entry.bidder ≠ 0 →
    (l.entry.getAuctionCut env).toNat ≤ p.money → env.exists l.entry.bidder
  | (env, .update house ids) =>
    ∀ id ∈ ids, ∀ l, s.auctions.get? (house, id) = some l → l.entry.bidder ≠ 0 →
    env.exists l.entry.owner ∧ ProfitFits env l.entry

/-! ### The parts of a step -/

variable {s s' : State} {env : Env} {p : Character} {l : Listing}
variable {n : ℕ}

theorem total_modifyMoney (hp : s.players.get? p.guid = some p) (hcap : p.money ≤ maxMoneyAmount)
    (hn : n ≤ p.money) : (s.modifyMoney p.guid (-n)).total = s.total - n := by
  have hsum := sum_modify (w := fun p : Character => (p.money : ℤ)) hp
    (fun p => { p with money := Player.modifyMoney p.money (-n) }) fun _ => rfl
  rw [show Player.modifyMoney p.money (-n) = p.money - n from modifyMoney_neg hn hcap] at hsum
  simp only [State.total, State.modifyMoney]
  push_cast [hn] at hsum
  linarith

theorem moneyOf_modifyMoney (hp : s.players.get? p.guid = some p)
    (hcap : p.money ≤ maxMoneyAmount) (hn : n ≤ p.money) :
    (s.moneyOf p.guid : ℤ) - (s.modifyMoney p.guid (-n)).moneyOf p.guid = n := by
  simp only [State.moneyOf, State.modifyMoney, get?_modify, hp, if_true,
    map_some, getD_some, modifyMoney_neg hn hcap]
  omega

variable {player : UInt32} {q : Character}

theorem mem_modifyMoney {d : ℤ}
    (h : q ∈ (s.modifyMoney player d).players.rows) : q ∈ s.players.rows ∨
      ∃ q' ∈ s.players.rows, q = { q' with money := Player.modifyMoney q'.money d } := by
  simp only [State.modifyMoney, mem_rows_modify] at h
  rcases h with ⟨h, -⟩ | ⟨q', hq', -, rfl⟩
  · exact .inl h
  · exact .inr ⟨q', hq', rfl⟩

@[simp] theorem total_takeItems (player : UInt32) (listed : List (Item × UInt32)) :
    (s.takeItems player listed).total = s.total := by
  have hsum : (s.takeItems player listed).players.sum (fun p => (p.money : ℤ)) =
      s.players.sum fun p => (p.money : ℤ) := by
    refine sum_modify_of_eq (w := fun p : Character => (p.money : ℤ)) ?_ fun _ => ?_
    · exact fun _ => rfl
    · rfl
  simp only [total, hsum]
  rfl

variable {listed : List (Item × UInt32)}

theorem money_takeItems (h : q ∈ (s.takeItems player listed).players.rows) :
    ∃ q' ∈ s.players.rows, q.money = q'.money := by
  simp only [takeItems, mem_rows_modify] at h
  rcases h with ⟨h, -⟩ | ⟨q', hq', -, rfl⟩
  · exact ⟨q, h, rfl⟩
  · exact ⟨q', hq', rfl⟩

def mailed (ms : List SentMail) : ℤ := (ms.map fun m => (m.money.toNat : ℤ)).sum

@[simp] theorem total_send (ms : List SentMail) : (s.send ms).total = s.total + mailed ms := by
  simp only [total, send, mailed, map_append, sum_append]
  ring

@[simp] theorem mailed_append (ms ms' : List SentMail) :
    mailed (ms ++ ms') = mailed ms + mailed ms' := by simp [mailed]

theorem total_endAuction (hl : s.auctions.get? l.key = some l) :
    (s.endAuction l).total = s.total - l.entry.bid.toNat := by
  have hsum := sum_erase (w := fun l : Listing => (l.entry.bid.toNat : ℤ)) hl
  simp only [total, endAuction, removeAuction, removeAItem]
  rw [hsum]
  ring

/-! ### The money of the mails -/

theorem mailed_won (aItems : List UInt32) (a : AuctionEntry) :
    mailed (sendAuctionWonMail env aItems a) = 0 := by
  unfold sendAuctionWonMail
  dsimp only
  split_ifs <;> rfl

theorem mailed_salePending (a : AuctionEntry) : mailed (sendAuctionSalePendingMail env a) = 0 := by
  unfold sendAuctionSalePendingMail
  split_ifs <;> rfl

theorem mailed_expired (aItems : List UInt32) (a : AuctionEntry) :
    mailed (sendAuctionExpiredMail env aItems a) = 0 := by
  unfold sendAuctionExpiredMail
  split_ifs <;> rfl

variable {a : AuctionEntry}

theorem mailed_outbidded (h : env.exists a.bidder) :
    mailed (sendAuctionOutbiddedMail env a) = a.bid.toNat := by
  simp [sendAuctionOutbiddedMail, h, mailed]

theorem mailed_cancelledToBidder (h : env.exists a.bidder) :
    mailed (sendAuctionCancelledToBidderMail env a) = a.bid.toNat := by
  simp [sendAuctionCancelledToBidderMail, h, mailed]

theorem mailed_successful (h : env.exists a.owner) (hfits : ProfitFits env a) :
    mailed (sendAuctionSuccessfulMail env a) =
      a.bid.toNat + a.deposit.toNat - (a.getAuctionCut env).toNat := by
  have hprofit : ((a.profit env).toNat : ℤ) =
      a.bid.toNat + a.deposit.toNat - (a.getAuctionCut env).toNat := by
    obtain ⟨hcut, hlt⟩ := hfits
    have hcut32 := (a.getAuctionCut env).toNat_lt
    simp only [AuctionEntry.profit, UInt32.toNat_sub, UInt32.toNat_add]
    omega
  simp [sendAuctionSuccessfulMail, h, mailed, hprofit]

/-! ### The amounts a step names -/

theorem listed_eq_zero (h : ∀ l ∈ s'.auctions.rows, s.auctions.get? l.key ≠ none) :
    s'.auctions.sum (fun l =>
      if s.auctions.get? l.key = none then (l.entry.deposit.toNat : ℤ) else 0) = 0 := by
  refine sum_eq_zero fun x hx => ?_
  obtain ⟨l, hl, rfl⟩ := mem_map.mp hx
  rw [if_neg (h l hl)]

theorem named_of_keys {step : Step}
    (h : ∀ k, s'.auctions.get? k = none ↔ s.auctions.get? k = none) : named env step s s' = 0 := by
  have hgone : s.auctions.sum (fun l =>
      if s'.auctions.get? l.key = none then endFee env step l else 0) = 0 := by
    refine sum_eq_zero fun x hx => ?_
    obtain ⟨l, hl, rfl⟩ := mem_map.mp hx
    rw [if_neg]
    rw [h, get?_key hl]
    simp
  rw [named, hgone, listed_eq_zero fun l hl => ?_, sub_zero]
  rw [ne_eq, ← h, get?_key hl]
  simp

theorem gone_erase {step : Step} (hl : s.auctions.get? l.key = some l)
    (hgone : s'.auctions.get? l.key = none) :
    s.auctions.sum (fun l => if s'.auctions.get? l.key = none then endFee env step l else 0) =
      endFee env step l + (s.auctions.erase l.key).sum
        fun l => if s'.auctions.get? l.key = none then endFee env step l else 0 := by
  rw [sum_erase (w := fun l =>
    if s'.auctions.get? l.key = none then endFee env step l else 0) hl, if_pos hgone]

theorem named_of_erase {step : Step} (hl : s.auctions.get? l.key = some l)
    (h : s'.auctions = s.auctions.erase l.key) : named env step s s' = endFee env step l := by
  have hself : s'.auctions.get? l.key = none := by rw [h, get?_erase, if_pos rfl]
  have hrest : (s.auctions.erase l.key).sum (fun l =>
      if s'.auctions.get? l.key = none then endFee env step l else 0) = 0 := by
    refine sum_eq_zero fun x hx => ?_
    obtain ⟨l', hl', rfl⟩ := mem_map.mp hx
    rw [h, get?_key hl']
    simp
  have hnew : ∀ l' ∈ s'.auctions.rows, s.auctions.get? l'.key ≠ none := by
    intro l' hl'
    rw [h, mem_rows_erase] at hl'
    rw [get?_key hl'.1]
    simp
  rw [named, gone_erase hl hself, hrest, listed_eq_zero hnew, add_zero, sub_zero]

theorem named_of_put {step : Step} (hl : s.auctions.get? l.key = none)
    (h : s'.auctions = s.auctions.put l) : named env step s s' = -(l.entry.deposit.toNat : ℤ) := by
  have hgone : s.auctions.sum (fun l =>
      if s'.auctions.get? l.key = none then endFee env step l else 0) = 0 := by
    refine sum_eq_zero fun x hx => ?_
    obtain ⟨l', hl', rfl⟩ := mem_map.mp hx
    have hne : l'.key ≠ l.key := fun hk => get?_eq_none.mp hl l' hl' hk
    rw [h, get?_key (mem_rows_put.mpr (.inr ⟨hl', hne⟩))]
    simp
  have hold : s.auctions.sum (fun l =>
      if s.auctions.get? l.key = none then (l.entry.deposit.toNat : ℤ) else 0) = 0 :=
    listed_eq_zero fun l' hl' => by
      rw [get?_key hl']
      simp
  rw [named, hgone, h, sum_put hl, if_pos hl, hold]
  ring

/-! ### Bids -/

/-- The money taken from `p` is `n`, and `back` is mailed: what a bidder's charge
leaves of the state. -/
structure Charged (s s' : State) (p : Character) (n back : ℕ) : Prop where
  total : s'.total = s.total + back - n
  taken : (s.moneyOf p.guid : ℤ) - s'.moneyOf p.guid = n
  auctions : s'.auctions = s.auctions
  auctionId : s'.auctionId = s.auctionId
  capped : ∀ q ∈ s'.players.rows, q.money ≤ maxMoneyAmount

theorem charged_modifyMoney (hs : Sound s) (hp : s.players.get? p.guid = some p) {n : UInt64}
    (hn : n.toNat ≤ p.money) : Charged s (s.modifyMoney p.guid (-int64 n)) p n.toNat 0 := by
  have hcap := hs.capped p (get?_eq_some.mp hp).1
  have hint : int64 n = n.toNat := int64_of_lt (by unfold maxMoneyAmount at hcap; omega)
  rw [hint]
  refine ⟨?_, moneyOf_modifyMoney hp hcap hn, rfl, rfl, fun q hq => ?_⟩
  · rw [total_modifyMoney hp hcap hn]
    ring
  rcases mem_modifyMoney hq with hq | ⟨q', hq', rfl⟩
  · exact hs.capped q hq
  · exact modifyMoney_le (hs.capped q' hq') (by unfold maxMoneyAmount; omega)

variable {ms : List SentMail}

theorem charged_send {back m : ℕ} (h : Charged s s' p n back)
    (hms : mailed ms = m) : Charged s (s'.send ms) p n (back + m) := by
  refine { h with total := ?_ }
  rw [total_send, h.total, hms]
  push_cast
  ring

theorem charged_send_modifyMoney (hs : Sound s) (hp : s.players.get? p.guid = some p) {m : ℕ}
    (hms : mailed ms = m) {n : UInt64} (hn : n.toNat ≤ p.money) :
    Charged s ((s.send ms).modifyMoney p.guid (-int64 n)) p n.toNat m := by
  have h := charged_send (charged_modifyMoney hs hp hn) hms
  rw [Nat.zero_add] at h
  exact h

variable {price : UInt64}

/-- **The charge of a bid**: the whole price from a new bidder, the difference
from the old one, who else gets the old bid back. -/
theorem charged_chargeBid (hs : Sound s) (hp : s.players.get? p.guid = some p)
    (hacc : Accepts env p a price) (hex : a.bidder ≠ 0 → a.bidder ≠ p.guid → env.exists a.bidder) :
    Charged s (s.chargeBid env p.guid a price) p
      (if a.bidder = p.guid then price.toNat - a.bid.toNat else price.toNat)
      (if a.bidder = 0 ∨ a.bidder = p.guid then 0 else a.bid.toNat) := by
  unfold chargeBid
  by_cases h0 : a.bidder = 0
  · have hne : ¬ a.bidder = p.guid := fun h => p.guid_ne (h ▸ h0)
    simp only [h0, gt_iff_lt, UInt32.lt_irrefl, if_false, true_or, if_true]
    rw [if_neg (h0 ▸ hne)]
    exact charged_modifyMoney hs hp hacc.money
  have hpos : a.bidder > 0 := UInt32.pos_iff_ne_zero.mpr h0
  rw [if_pos hpos]
  by_cases hself : a.bidder = p.guid
  · have hsub : (price - a.bid.toUInt64).toNat = price.toNat - a.bid.toNat := by
      rw [UInt64.toNat_sub_of_le _ _ (UInt64.le_of_lt hacc.higher), UInt32.toNat_toUInt64]
    have hmoney := hacc.money
    rw [if_pos hself, if_pos hself, if_pos (.inr hself), ← hsub]
    exact charged_modifyMoney hs hp (by omega)
  rw [if_neg hself, if_neg hself, if_neg (by simp [h0, hself])]
  exact charged_send_modifyMoney hs hp (mailed_outbidded (hex h0 hself)) hacc.money

/-- **A bid below the buyout** moves money between purses, mails and the live bid,
and records what was paid. -/
theorem placeBid_spec (hs : Sound s) (hp : s.players.get? p.guid = some p)
    (hl : s.auctions.get? l.key = some l) (hacc : Accepts env p l.entry price)
    (hex : l.entry.bidder ≠ 0 → l.entry.bidder ≠ p.guid → env.exists l.entry.bidder)
    (hbid : l.entry.isBid price) (hlt : price.toNat < 2 ^ 32) :
    (s.placeBid env p.guid l price).total = s.total ∧ Sound (s.placeBid env p.guid l price) ∧
      ∀ k, (s.placeBid env p.guid l price).auctions.get? k = none ↔ s.auctions.get? k = none := by
  have hmem := (get?_eq_some.mp hl).1
  have hrec := hs.recorded l hmem
  have hhigher : l.entry.bid.toNat < price.toNat := by
    simpa [UInt64.lt_iff_toNat_lt] using hacc.higher
  have htrunc : price.toUInt32.toNat = price.toNat := by
    rw [UInt64.toNat_toUInt32]
    omega
  have hc := charged_chargeBid hs hp hacc hex
  have hzero : l.entry.bidder = 0 → l.entry.bid.toNat = 0 := fun h => by
    rw [hs.unbid l hmem h]
    rfl
  set paid : ℤ := if l.entry.bidder = p.guid
    then l.paid + (s.moneyOf p.guid - (s.chargeBid env p.guid l.entry price).moneyOf p.guid)
    else s.moneyOf p.guid - (s.chargeBid env p.guid l.entry price).moneyOf p.guid with hpaid
  have hpaid' : paid = price.toNat := by
    rw [hpaid, hc.taken]
    split_ifs <;> omega
  have hplace : s.placeBid env p.guid l price = { s.chargeBid env p.guid l.entry price with
        auctions := s.auctions.modify l.key (Listing.setBid p.guid price.toUInt32 paid)
          (Listing.key_setBid _ _ _) } := by
    unfold placeBid
    simp only [hc.auctions, ← hpaid]
  have hkeys (k) : (s.placeBid env p.guid l price).auctions.get? k = none ↔
      s.auctions.get? k = none := by
    rw [hplace]
    rw [get?_modify]
    split_ifs <;> simp
  refine ⟨?_, ?_, hkeys⟩
  · have hsum := sum_modify (w := fun l : Listing => (l.entry.bid.toNat : ℤ)) hl
      (Listing.setBid p.guid price.toUInt32 paid) (Listing.key_setBid _ _ _)
    have htotal := hc.total
    rw [hplace]
    simp only [total, hc.auctions] at htotal hsum ⊢
    simp only [Listing.setBid, htrunc] at hsum ⊢
    by_cases hself : l.entry.bidder = p.guid
    · rw [if_pos hself, if_pos (.inr hself)] at htotal
      omega
    by_cases h0 : l.entry.bidder = 0
    · have hbid0 := hzero h0
      rw [if_neg hself, if_pos (.inl h0)] at htotal
      omega
    rw [if_neg hself, if_neg (by simp [h0, hself])] at htotal
    omega
  have hrow (l') (hl' : l' ∈ (s.placeBid env p.guid l price).auctions.rows) :
      l' ∈ s.auctions.rows ∨ l' = l.setBid p.guid price.toUInt32 paid := by
    rw [hplace] at hl'
    simp only [mem_rows_modify] at hl'
    rcases hl' with ⟨h, -⟩ | ⟨l0, hl0, hk, rfl⟩
    · exact .inl h
    rw [s.auctions.distinct.eq_of_key hl0 hmem hk]
    exact .inr rfl
  refine ⟨?_, ?_, ?_, ?_, ?_⟩
  · rw [hplace]
    exact hc.capped
  · intro l' hl'
    rcases hrow l' hl' with h | rfl
    · exact hs.recorded l' h
    · simp [Listing.setBid, hpaid', htrunc]
  · intro l' hl' h0
    rcases hrow l' hl' with h | rfl
    · exact hs.unbid l' h h0
    · exact absurd h0 p.guid_ne
  · intro l' hl' hb
    rcases hrow l' hl' with h | rfl
    · exact hs.below l' h hb
    have hlt' : price < l.entry.buyout.toUInt64 := by
      simpa [AuctionEntry.isBid, show l.entry.buyout ≠ 0 from hb] using hbid
    rw [UInt32.lt_iff_toNat_lt]
    simp only [Listing.setBid, htrunc]
    simpa [UInt64.lt_iff_toNat_lt] using hlt'
  intro l' hl'
  rw [hplace]
  simp only [hc.auctionId]
  rcases hrow l' hl' with h | rfl
  · exact hs.ids l' h
  · exact hs.ids l hmem

/-! ### Ends -/

theorem sound_endAuction (hs : Sound s) (hauctions : s'.auctions = s.auctions)
    (hid : s'.auctionId = s.auctionId) (hcap : ∀ q ∈ s'.players.rows, q.money ≤ maxMoneyAmount)
    (ms : List SentMail) (l : Listing) : Sound ((s'.send ms).endAuction l) := by
  have hrow (l') (h : l' ∈ ((s'.send ms).endAuction l).auctions.rows) : l' ∈ s.auctions.rows := by
    rw [← hauctions]
    exact (mem_rows_erase.mp h).1
  refine ⟨hcap, ?_, ?_, ?_, ?_⟩
  · exact fun l' hl' => hs.recorded l' (hrow l' hl')
  · exact fun l' hl' => hs.unbid l' (hrow l' hl')
  · exact fun l' hl' => hs.below l' (hrow l' hl')
  intro l' hl'
  have := hs.ids l' (hrow l' hl')
  rwa [← hid] at this

/-- **The charge of a buyout**: the buyout, or what is missing from the own bid. -/
theorem charged_chargeBuyout (hs : Sound s) (hp : s.players.get? p.guid = some p)
    (hbid : a.bid < a.buyout) (hmoney : a.buyout.toNat ≤ p.money)
    (hex : a.bidder ≠ 0 → a.bidder ≠ p.guid → env.exists a.bidder) :
    Charged s (s.chargeBuyout env p.guid a) p
      (if a.bidder = p.guid then a.buyout.toNat - a.bid.toNat else a.buyout.toNat)
      (if a.bidder = 0 ∨ a.bidder = p.guid then 0 else a.bid.toNat) := by
  unfold chargeBuyout
  by_cases hself : a.bidder = p.guid
  · have hsub : (a.buyout - a.bid).toUInt64.toNat = a.buyout.toNat - a.bid.toNat := by
      rw [UInt32.toNat_toUInt64, UInt32.toNat_sub_of_le _ _ (UInt32.le_of_lt hbid)]
    rw [if_pos hself.symm, if_pos hself, if_pos (.inr hself), ← hsub]
    exact charged_modifyMoney hs hp (by omega)
  rw [if_neg (Ne.symm hself), if_neg hself]
  have hpay : Charged s (s.modifyMoney p.guid (-int64 a.buyout.toUInt64)) p a.buyout.toNat 0 :=
    charged_modifyMoney hs hp (by simpa using hmoney)
  by_cases h0 : a.bidder = 0
  · simpa [h0] using hpay
  have h := charged_send hpay (mailed_outbidded (hex h0 hself))
  simpa [h0, hself] using h

/-- **A buyout** pays the owner the buyout and the deposit less the cut. -/
theorem buyout_spec (hs : Sound s) (hp : s.players.get? p.guid = some p)
    (hl : s.auctions.get? l.key = some l) (hacc : Accepts env p l.entry price)
    (hbid : ¬ l.entry.isBid price)
    (hex : l.entry.bidder ≠ 0 → l.entry.bidder ≠ p.guid → env.exists l.entry.bidder)
    (howner : env.exists l.entry.owner)
    (hfits : ProfitFits env { l.entry with bid := l.entry.buyout }) :
    (s.buyout env p.guid l).total = s.total + l.entry.deposit.toNat -
        (({ l.entry with bid := l.entry.buyout } : AuctionEntry).getAuctionCut env).toNat ∧
      Sound (s.buyout env p.guid l) ∧
      (s.buyout env p.guid l).auctions = s.auctions.erase l.key := by
  have hmem := (get?_eq_some.mp hl).1
  simp only [AuctionEntry.isBid, Bool.or_eq_true, decide_eq_true_eq, not_or, UInt64.not_lt] at hbid
  have hbelow := hs.below l hmem hbid.2
  have hmoney : l.entry.buyout.toNat ≤ p.money := by
    have h := UInt64.le_iff_toNat_le.mp hbid.1
    have h' := hacc.money
    rw [UInt32.toNat_toUInt64] at h
    omega
  have hlt : l.entry.bid.toNat < l.entry.buyout.toNat := UInt32.lt_iff_toNat_lt.mp hbelow
  have hc := charged_chargeBuyout hs hp hbelow hmoney hex
  have hzero : l.entry.bidder = 0 → l.entry.bid.toNat = 0 := fun h => by
    rw [hs.unbid l hmem h]
    rfl
  have hsold : mailed (sendAuctionSuccessfulMail env (l.entry.boughtOut p.guid)) = _ :=
    mailed_successful howner hfits
  refine ⟨?_, sound_endAuction hs hc.auctions hc.auctionId hc.capped _ l, ?_⟩
  · unfold buyout
    rw [total_endAuction (by simpa [send, hc.auctions] using hl), total_send, hc.total,
      mailed_append, mailed_append, mailed_salePending, mailed_won, hsold]
    simp only [AuctionEntry.getAuctionCut, AuctionEntry.boughtOut]
    by_cases hself : l.entry.bidder = p.guid
    · rw [if_pos hself, if_pos (.inr hself)]
      omega
    by_cases h0 : l.entry.bidder = 0
    · have hbid0 := hzero h0
      rw [if_neg hself, if_pos (.inl h0)]
      omega
    rw [if_neg hself, if_neg (by simp [h0, hself])]
    omega
  · simp only [buyout, endAuction, removeAuction, removeAItem, send, hc.auctions]

/-- **A cancellation** returns the bid and costs the owner the cut. -/
theorem cancel_spec (hs : Sound s) (hp : s.players.get? p.guid = some p)
    (hl : s.auctions.get? l.key = some l)
    (hmoney : l.entry.bidder ≠ 0 → (l.entry.getAuctionCut env).toNat ≤ p.money)
    (hex : l.entry.bidder ≠ 0 → env.exists l.entry.bidder)
    (hms : mailed ms = 0) (hs' : s' = ((if l.entry.bidder > 0 then
        (s.send (sendAuctionCancelledToBidderMail env l.entry)).modifyMoney p.guid
          (-int64 (l.entry.getAuctionCut env).toUInt64) else s).send ms).endAuction l) :
    s'.total = s.total + (if l.entry.bidder = 0 then 0
        else -((l.entry.getAuctionCut env).toNat : ℤ)) ∧
      Sound s' ∧ s'.auctions = s.auctions.erase l.key := by
  have hmem := (get?_eq_some.mp hl).1
  by_cases h0 : l.entry.bidder = 0
  · have hbid : l.entry.bid.toNat = 0 := by
      rw [hs.unbid l hmem h0]
      rfl
    rw [if_neg (by simp [h0])] at hs'
    subst hs'
    refine ⟨?_, sound_endAuction hs rfl rfl hs.capped ms l, rfl⟩
    rw [total_endAuction (by simpa [send] using hl), total_send, hms, if_pos h0]
    omega
  have hc := charged_send_modifyMoney (n := (l.entry.getAuctionCut env).toUInt64) hs hp
    (mailed_cancelledToBidder (hex h0)) (by simpa using hmoney h0)
  rw [if_pos (UInt32.pos_iff_ne_zero.mpr h0)] at hs'
  subst hs'
  refine ⟨?_, sound_endAuction hs hc.auctions hc.auctionId hc.capped _ l, ?_⟩
  · rw [total_endAuction (by exact hl), total_send, hc.total, hms, if_neg h0,
      UInt32.toNat_toUInt64]
    omega
  simp only [endAuction, removeAuction, removeAItem, send]
  rfl

/-! ### Expiry -/

variable {house : House}

/-- **One expiry** of an auction names its fee. -/
theorem expire_spec (ids : List UInt32) (hs : Sound s) {id : UInt32}
    (hl : s.auctions.get? (house, id) = some l)
    (hpay : l.entry.bidder ≠ 0 → env.exists l.entry.owner ∧ ProfitFits env l.entry) :
    (s.expire env house id).total = s.total + endFee env (.update house ids) l ∧
      Sound (s.expire env house id) := by
  obtain ⟨hmem, hkey⟩ := get?_eq_some.mp hl
  rw [← hkey] at hl
  unfold expire
  rw [← hkey, hl]
  refine ⟨?_, sound_endAuction hs rfl rfl hs.capped _ l⟩
  rw [total_endAuction (by exact hl), total_send]
  simp only [endFee]
  by_cases h0 : l.entry.bidder = 0
  · have hbid : l.entry.bid.toNat = 0 := by
      rw [hs.unbid l hmem h0]
      rfl
    rw [if_pos h0, if_pos h0, mailed_expired]
    omega
  obtain ⟨hex, hfits⟩ := hpay h0
  rw [if_neg h0, if_neg h0, mailed_append, mailed_successful hex hfits, mailed_won]
  omega

variable {ids : List UInt32}

/-- **The loop of `Update`**: the money put into circulation is the fees of the
auctions that are gone after it. -/
theorem expireAll_spec (all : List UInt32) (hs : Sound s)
    (hpay : ∀ id ∈ ids, ∀ l, s.auctions.get? (house, id) = some l → l.entry.bidder ≠ 0 →
      env.exists l.entry.owner ∧ ProfitFits env l.entry)
    (hs' : s' = ids.foldl (fun s id => s.expire env house id) s) :
    s'.total = s.total + s.auctions.sum (fun l =>
        if s'.auctions.get? l.key = none then endFee env (.update house all) l else 0) ∧
      Sound s' ∧ ∀ k, s'.auctions.get? k = none ∨ s'.auctions.get? k = s.auctions.get? k := by
  induction ids generalizing s with
  | nil =>
    subst hs'
    refine ⟨?_, hs, fun k => .inr rfl⟩
    rw [left_eq_add]
    refine sum_eq_zero fun x hx => ?_
    obtain ⟨l, hl, rfl⟩ := mem_map.mp hx
    rw [get?_key hl]
    simp
  | cons id ids ih =>
    rw [foldl_cons] at hs'
    have hpay' : ∀ id' ∈ ids, ∀ l, (s.expire env house id).auctions.get? (house, id') = some l →
        l.entry.bidder ≠ 0 → env.exists l.entry.owner ∧ ProfitFits env l.entry := by
      intro id' hid' l hl
      rw [get?_expire] at hl
      split_ifs at hl
      exact hpay id' (mem_cons_of_mem _ hid') l hl
    cases hl : s.auctions.get? (house, id) with
    | none =>
      have hsame : s.expire env house id = s := by
        unfold expire
        rw [hl]
      rw [hsame] at hs' hpay'
      exact ih hs hpay' hs'
    | some l =>
      obtain ⟨htotal, hsound⟩ :=
        expire_spec all hs hl (hpay id mem_cons_self l hl)
      obtain ⟨htotal', hsound', hkeys⟩ := ih hsound hpay' hs'
      have hkey := (get?_eq_some.mp hl).2
      have hgone : s'.auctions.get? l.key = none := by
        rcases hkeys l.key with h | h
        · exact h
        · rw [h, get?_expire, hkey, if_pos rfl]
      have herase : (s.expire env house id).auctions = s.auctions.erase l.key := by
        unfold expire
        rw [hl]
        rfl
      refine ⟨?_, hsound', fun k => ?_⟩
      · have hl' : s.auctions.get? l.key = some l := by rw [hkey, hl]
        rw [htotal', htotal, gone_erase hl' hgone, herase]
        ring
      rcases hkeys k with h | h
      · exact .inl h
      rw [h, get?_expire]
      split_ifs
      · exact .inl rfl
      · exact .inr rfl

theorem update_spec (hs : Sound s)
    (hpay : PaysInFull s (env, .update house ids)) : (s.update env house ids).total =
        s.total + named env (.update house ids) s (s.update env house ids) ∧
      Sound (s.update env house ids) := by
  unfold update
  split_ifs
  · rw [named_of_keys fun k => Iff.rfl, add_zero]
    exact ⟨rfl, hs⟩
  obtain ⟨htotal, hsound, hkeys⟩ := expireAll_spec ids hs hpay rfl
  refine ⟨?_, hsound⟩
  have hnew : ∀ l ∈ (ids.foldl (fun s id => s.expire env house id) s).auctions.rows,
      s.auctions.get? l.key ≠ none := by
    intro l hl
    have hget := get?_key hl
    rcases hkeys l.key with h | h
    · rw [hget] at h
      simp at h
    rw [← h, hget]
    simp
  rw [named, listed_eq_zero hnew, sub_zero]
  exact htotal

/-! ### Listing -/

/-- **A listing** takes the deposit. -/
theorem listItems_spec (hs : Sound s) (hp : s.players.get? p.guid = some p) {npc : Npc}
    {entry : HouseEntry} {item : Item} {count finalCount : UInt32}
    {bid buyout : UInt64} {etime : UInt32} {step : Step} (hid : s.auctionId < 0xFFFFFFFE)
    (hdep : (getAuctionDeposit env entry etime item finalCount).toNat < 2 ^ 31)
    (hs' : (s.listItems env p npc entry listed item count finalCount bid buyout etime).1 = s') :
    s'.total = s.total + named env step s s' ∧ Sound s' := by
  unfold listItems at hs'
  dsimp only at hs'
  split at hs'
  · subst hs'
    rw [named_of_keys fun k => Iff.rfl, add_zero]
    exact ⟨rfl, hs⟩
  rename_i hmoney
  have hcap := hs.capped p (get?_eq_some.mp hp).1
  have hle : (getAuctionDeposit env entry etime item finalCount).toNat ≤ p.money := by
    simpa [hasEnoughMoney] using hmoney
  rw [int32_of_lt hdep] at hs'
  generalize getAuctionDeposit env entry etime item finalCount = deposit at hs' hle hdep
  generalize hnew : ({ house := npc.house, entry := _ } : Listing) = new at hs'
  have hauctions : s'.auctions = s.auctions.put new := by rw [← hs']; rfl
  have hcounter : s'.auctionId = s.auctionId + 1 := by rw [← hs']; rfl
  have hfresh : s.auctions.get? new.key = none := by
    refine get?_eq_none.mpr fun l hl hkey => ?_
    have hlt := hs.ids l hl
    have heq : l.entry.id = s.auctionId := by
      rw [← hnew] at hkey
      exact congrArg Prod.snd hkey
    rw [heq] at hlt
    exact absurd hlt (UInt32.lt_irrefl _)
  have htotal : s'.total = (s.modifyMoney p.guid (-deposit.toNat)).total := by
    have hsum : s'.auctions.sum (fun l => (l.entry.bid.toNat : ℤ)) =
        s.auctions.sum fun l => (l.entry.bid.toNat : ℤ) := by
      rw [hauctions, sum_put hfresh, ← hnew]
      simp
    rw [← total_takeItems (s := s.modifyMoney p.guid (-deposit.toNat)) p.guid listed]
    simp only [total, hsum]
    rw [← hs']
    rfl
  have hrow (l) (hl : l ∈ s'.auctions.rows) : l = new ∨ l ∈ s.auctions.rows := by
    rw [hauctions, mem_rows_put] at hl
    exact hl.imp_right And.left
  refine ⟨?_, ?_, ?_, ?_, ?_, ?_⟩
  · rw [htotal, total_modifyMoney hp hcap hle, named_of_put hfresh hauctions, ← hnew]
    ring
  · intro q hq
    rw [← hs'] at hq
    obtain ⟨q1, hq1, heq⟩ := money_takeItems hq
    rw [heq]
    rcases mem_modifyMoney hq1 with h | ⟨q2, hq2, rfl⟩
    · exact hs.capped q1 h
    · exact modifyMoney_le (hs.capped q2 hq2) (by unfold maxMoneyAmount; omega)
  · intro l hl
    rcases hrow l hl with rfl | h
    · rw [← hnew]
      rfl
    · exact hs.recorded l h
  · intro l hl h0
    rcases hrow l hl with rfl | h
    · rw [← hnew]
    · exact hs.unbid l h h0
  · intro l hl hb
    rcases hrow l hl with rfl | h
    · rw [← hnew] at hb ⊢
      exact UInt32.pos_iff_ne_zero.mpr hb
    · exact hs.below l h hb
  intro l hl
  have hsucc : s.auctionId < s'.auctionId := by
    grind
  rcases hrow l hl with rfl | h
  · rw [← hnew]
    exact hsucc
  · exact UInt32.lt_trans (hs.ids l h) hsucc

/-! ### Runs -/

/-- **One step** that `PaysInFull` conserves and keeps the invariant. -/
theorem step_spec (hs : Sound s) {a : Env × Step} (h : PaysInFull s a) :
    (s.step a).total = s.total + named a.1 a.2 s (s.step a) ∧ Sound (s.step a) := by
  have hsame (step : Step) (env : Env) : s.total = s.total + named env step s s := by
    rw [named_of_keys fun k => Iff.rfl, add_zero]
  obtain ⟨env, step⟩ := a
  cases step with
  | sell player auctioneer items bid buyout etime =>
    dsimp only [step]
    cases hp : s.players.get? player with
    | none => exact ⟨hsame _ _, hs⟩
    | some p =>
      obtain rfl : p.guid = player := (get?_eq_some.mp hp).2
      dsimp only
      rcases handleAuctionSellItem_cases (r := s.handleAuctionSellItem env p auctioneer items
        bid buyout etime) rfl with heq | ⟨npc, entry, item, count, rest, hnpc, hentry, hc, heq⟩
      · rw [heq]
        exact ⟨hsame _ _, hs⟩
      obtain ⟨hid, hdep⟩ := h p npc entry item count rest hp hnpc hentry hc
      exact listItems_spec hs hp hid hdep (by rw [heq])
  | bid player auctioneer auctionId price =>
    dsimp only [step]
    cases hp : s.players.get? player with
    | none => exact ⟨hsame _ _, hs⟩
    | some p =>
      obtain rfl : p.guid = player := (get?_eq_some.mp hp).2
      dsimp only
      rcases handleAuctionPlaceBid_cases (r := s.handleAuctionPlaceBid env p auctioneer
        auctionId price) rfl with heq | ⟨npc, l, hnpc, hl, hacc, heq⟩
      · rw [heq]
        exact ⟨hsame _ _, hs⟩
      obtain ⟨hex, hrest⟩ := h p npc l hp hnpc hl hacc
      have hkey := (get?_eq_some.mp hl).2
      rw [← hkey] at hl
      rw [heq]
      split_ifs at hrest ⊢ with hbid
      · obtain ⟨htotal, hsound, hkeys⟩ := placeBid_spec hs hp hl hacc hex hbid hrest
        rw [named_of_keys hkeys, htotal, add_zero]
        exact ⟨rfl, hsound⟩
      obtain ⟨htotal, hsound, herase⟩ :=
        buyout_spec hs hp hl hacc hbid hex hrest.1 hrest.2
      refine ⟨?_, hsound⟩
      rw [named_of_erase hl herase, htotal]
      simp only [endFee]
      ring
  | cancel player auctioneer auctionId =>
    dsimp only [step]
    cases hp : s.players.get? player with
    | none => exact ⟨hsame _ _, hs⟩
    | some p =>
      obtain rfl : p.guid = player := (get?_eq_some.mp hp).2
      dsimp only
      rcases handleAuctionRemoveItem_cases (r := s.handleAuctionRemoveItem env p auctioneer
        auctionId) rfl with heq | ⟨npc, l, hnpc, hl, hown, hitem, hmoney, heq⟩
      · rw [heq]
        exact ⟨hsame _ _, hs⟩
      have hkey := (get?_eq_some.mp hl).2
      have hex (h0 : l.entry.bidder ≠ 0) := h p npc l hp hnpc hl hown hitem h0 (hmoney h0)
      rw [← hkey] at hl
      obtain ⟨htotal, hsound, herase⟩ := cancel_spec hs hp hl hmoney hex rfl heq
      refine ⟨?_, hsound⟩
      rw [named_of_erase hl herase, htotal]
      rfl
  | update house ids => exact update_spec hs h

/-- **The auction house conserves money.**  From every sound state, in every run
of listings, bids, cancellations and updates that all `PaysInFull`, each step
keeps the sum of purses, live bids and mails but for the deposits, cuts and fees
it names, and every live bid is what its bidder has paid. -/
theorem conserves_along (hs : Sound s) {as : List (Env × Step)}
    (h : Along step PaysInFull s as) : Along step Conserves s as := by
  refine Along.of_invariant (I := Sound) (fun s a hs h => (step_spec hs h).2)
    (fun s a hs h => ?_) hs h
  obtain ⟨htotal, hsound⟩ := step_spec hs h
  exact ⟨htotal, hsound.recorded⟩

theorem sound_openingDay : Sound openingDay where
  capped := by decide
  recorded _ h := absurd h not_mem_nil
  unbid _ h := absurd h not_mem_nil
  below _ h := absurd h not_mem_nil
  ids _ h := absurd h not_mem_nil

/-- The item is listed, bid for twice and sold. -/
theorem conserves_along_sale : Along step Conserves openingDay
      [listing, (market, .bid 2 1 1 1000), (market, .bid 3 1 1 2000),
        (market, .update .neutral [1])] := by
  refine conserves_along sound_openingDay ⟨?_, ?_, ?_, ?_, trivial⟩
  · intro p npc entry item count rest hp hnpc hentry hc
    obtain rfl := some.inj hp
    obtain rfl := some.inj hnpc
    obtain rfl := some.inj hentry
    obtain ⟨⟨rfl, rfl⟩, rfl⟩ := by simpa using Except.ok.inj hc
    decide
  · intro p npc l hp hnpc hl _
    obtain rfl := some.inj hnpc
    obtain rfl := some.inj hl
    decide
  · intro p npc l hp hnpc hl _
    obtain rfl := some.inj hnpc
    obtain rfl := some.inj hl
    decide
  intro id hid l hl _
  obtain rfl := mem_singleton.mp hid
  obtain rfl := some.inj hl
  decide

/-- The listing, and a bid of `2^32 + 1000` copper for it. -/
def hugeBid : List (Env × Step) := [listing, (market, .bid 2 1 1 4294968296)]

/-- **A bid at `2^32` is paid and not recorded.**  A bid of `2^32 + 1000` copper on
an auction without buyout takes `2^32 + 1000` from the bidder, records `1000`,
and `2^32` copper are gone. -/
theorem placeBid_truncates :
    ((hugeBid.foldl step openingDay).auctions.rows.map (fun l => (l.entry.bid, l.paid)) =
        [(1000, 4294968296)] ∧ (hugeBid.foldl step openingDay).moneyOf 2 = 5000000000 - 4294968296 ∧
      (hugeBid.foldl step openingDay).total = openingDay.total - 225 - 4294967296) ∧
    ¬ ∀ (s : State) (as : List (Env × Step)), Sound s → Along step Conserves s as := by
  refine ⟨by decide, fun h => ?_⟩
  have hrec := (h openingDay hugeBid sound_openingDay).2.1.2
  exact absurd (hrec _ (mem_cons_self)) (by decide)

end ZerosCore.Auction
