/-
# Nobody takes more than a rank allows

The money of a guild changes by what its members lose or gain, a refused
withdrawal changes nothing, and what a member takes while it is not guild master,
between two resets, stays within the largest limit its ranks had in that time.

The last holds in every run whose 32-bit arithmetic stays in range.  It is the
guild master who can leave it: its withdrawals have no limit and are counted all
the same, so that from `2^31` on the counter reads as a negative number, and a
guild master who steps down then has the limit of its new rank and the missing
part of the counter besides.
-/

import ZerosCore.Guild.Treasury

namespace ZerosCore.Guild.Treasury

open Lib Player Option Function

/-! ### What is promised and what is proved -/

/-- What a player has of the guild and of its own. -/
def worth (s : Treasury) (p : UInt32) : ℕ := s.money p + s.repairs p

/-- One player has lost or gained what the guild has gained or lost. -/
def Conserved (s s' : Treasury) : Prop :=
  ∃ p, s'.bankMoney.toNat + s'.worth p = s.bankMoney.toNat + s.worth p ∧
    ∀ q, q ≠ p → s'.worth q = s.worth q

/-- The payment stays below the limit of the one who gets it. -/
def BelowCap (s : Treasury) : Event → Prop
  | .deposit _ money => s.bankMoney.toNat + money.toNat < 2 ^ 64
  | .withdraw player money => s.money player + money.toUInt32.toNat ≤ maxMoneyAmount
  | _ => True

/-- A withdrawal or a repair that the guild refuses. -/
def Refused (s : Treasury) : Event → Prop
  | .withdraw player money => s.handleMemberWithdrawMoney player money.toUInt32 false = none
  | .repair player costs => s.handleMemberWithdrawMoney player costs true = none
  | _ => False

/-- Nobody has taken more than its ranks allowed. -/
def WithinLimits (s : Treasury) : Prop :=
  ∀ p, s.taken p ≤ s.peak p ∧ ∀ t, s.takenSlots p t ≤ s.peakSlots p t

/-- **What an event has to do.** -/
structure Fair (s : Treasury) (e : Event) : Prop where
  conserved : BelowCap s e → Conserved s (s.step e)
  refused : Refused s e → s.step e = s
  within : WithinLimits (s.step e)

/-- A withdrawal in range: what the guild master takes keeps its counter below `2^31`; for the
others the subtraction of the counter from the limit does not overflow. -/
def WithdrawInRange (s : Treasury) (player amount : UInt32) : Prop :=
  ∀ m, s.guild.members.get? player = some m →
    (m.rankId = grGuildmaster → amount.toUInt64 ≤ s.bankMoney →
      (s.withdrawn player).toNat + amount.toNat < 2 ^ 31) ∧
    (m.rankId ≠ grGuildmaster →
      -2 ^ 31 ≤ int32 (s.guild.getRankBankMoneyPerDay m.rankId) - int32 (s.withdrawn player))

/-- **The 32-bit arithmetic of an event stays in range.** -/
def InRange (s : Treasury) : Event → Prop
  | .withdraw player money => s.WithdrawInRange player money.toUInt32
  | .repair player costs => s.WithdrawInRange player costs
  | .withdrawItem player tabId => ∀ m, s.guild.members.get? player = some m →
      m.rankId ≠ grGuildmaster →
      -2 ^ 31 ≤ int32 (s.guild.getRankBankTabSlotsPerDay m.rankId tabId) -
        int32 (s.withdrawnSlots player tabId)
  | _ => True

/-! ### The invariant -/

/-- The counters are in range and count at least what was taken without being guild master, which
is within the limits. -/
structure Counted (s : Treasury) : Prop where
  money_le : ∀ p, s.money p ≤ maxMoneyAmount
  withdrawn_lt : ∀ p, (s.withdrawn p).toNat < 2 ^ 31
  taken_le : ∀ p, s.taken p ≤ (s.withdrawn p).toNat
  withdrawnSlots_lt : ∀ p t, (s.withdrawnSlots p t).toNat < 2 ^ 31
  takenSlots_eq : ∀ p t, s.takenSlots p t = (s.withdrawnSlots p t).toNat
  within : s.WithinLimits

/-- The record of the limits is up to date. -/
structure Observed (s : Treasury) : Prop where
  peak : ∀ p, limit s.guild p ≤ s.peak p
  peakSlots : ∀ p t, limitSlots s.guild p t ≤ s.peakSlots p t

variable {s s' : Treasury} {player p : UInt32} {amount : UInt32} {tabId : UInt8}

theorem observed_observe (s : Treasury) : s.observe.Observed where
  peak _ := Nat.le_max_right _ _
  peakSlots _ _ := Nat.le_max_right _ _

theorem Observed.observe_eq (h : s.Observed) : s.observe = s := by
  have hpeak : (fun p => max (s.peak p) (limit s.guild p)) = s.peak :=
    funext fun p => Nat.max_eq_left (h.peak p)
  have hslots : (fun p t => max (s.peakSlots p t) (limitSlots s.guild p t)) = s.peakSlots :=
    funext fun p => funext fun t => Nat.max_eq_left (h.peakSlots p t)
  unfold observe
  rw [hpeak, hslots]

theorem Counted.observe (h : s.Counted) : s.observe.Counted :=
  { h with
    within p := ⟨(h.within p).1.trans (Nat.le_max_left _ _),
      fun t => ((h.within p).2 t).trans (Nat.le_max_left _ _)⟩ }

theorem counted_start (g : State) (bankMoney : UInt64) (wallets : UInt32 → Wallet) :
    (start g bankMoney wallets).Counted := by
  refine Counted.observe ⟨fun p => (wallets p).property, ?_, ?_, ?_, ?_, ?_⟩
  · exact fun p => (by decide : (0 : UInt32).toNat < 2 ^ 31)
  · exact fun p => Nat.zero_le _
  · exact fun p t => (by decide : (0 : UInt32).toNat < 2 ^ 31)
  · exact fun p t => rfl
  · exact fun p => ⟨Nat.zero_le _, fun t => Nat.zero_le _⟩

/-! ### The arithmetic of limits -/

theorem int32_eq (x : UInt32) :
    int32 x = if x.toNat < 2 ^ 31 then (x.toNat : ℤ) else x.toNat - 2 ^ 32 := by
  have hx := x.toNat_lt
  unfold int32 Int.bmod
  dsimp only
  split_ifs <;> omega

/-- **What is left, in range**: a limit leaves something only above the counter, and then below
`2^31`. -/
theorem lt_limit_of_remaining_pos {limit withdrawn : UInt32} (hw : withdrawn.toNat < 2 ^ 31)
    (hrange : -2 ^ 31 ≤ int32 limit - int32 withdrawn) (hpos : 0 < State.remaining limit withdrawn) :
    State.remaining limit withdrawn = limit.toNat - withdrawn.toNat ∧ limit.toNat < 2 ^ 31 := by
  have hlimit := int32_eq limit
  have hwithdrawn := int32_of_lt hw
  have hexact : State.remaining limit withdrawn = int32 limit - int32 withdrawn := by
    apply Int.bmod_eq_of_le
    · omega
    have hlt := limit.toNat_lt
    split_ifs at hlimit <;> omega
  rw [hexact] at hpos ⊢
  split_ifs at hlimit with hsmall
  · exact ⟨by rw [hlimit, hwithdrawn], hsmall⟩
  have hlt := limit.toNat_lt
  omega

/-! ### Withdrawals of money -/

/-- **What a withdrawal does.** -/
theorem handleMemberWithdrawMoney_eq_some {repair : Bool}
    (h : s.handleMemberWithdrawMoney player amount repair = some s') :
    ∃ m, s.guild.members.get? player = some m ∧ amount.toUInt64 ≤ s.bankMoney ∧
      amount.toNat ≤ (s.guild.getMemberRemainingMoney m.rankId (s.withdrawn player) % 2 ^ 64).toNat ∧
      s' = { s with
        withdrawn := update s.withdrawn player (s.withdrawn player + amount)
        bankMoney := s.bankMoney - amount.toUInt64
        money :=
          if repair then s.money
          else update s.money player (modifyMoney (s.money player) amount.toNat)
        repairs :=
          if repair then update s.repairs player (s.repairs player + amount.toNat)
          else s.repairs
        taken :=
          if m.rankId = grGuildmaster then s.taken
          else update s.taken player (s.taken player + amount.toNat) } := by
  unfold handleMemberWithdrawMoney at h
  split at h
  · cases h
  next hbank =>
  split at h
  · cases h
  next m hm =>
  dsimp only at h
  split at h
  · cases h
  next hleft =>
  exact ⟨m, hm, UInt64.not_lt.mp hbank, Nat.le_of_not_lt hleft, (some.inj h).symm⟩

/-- A member that is not guild master takes nothing, or not more than its limit leaves. -/
theorem le_limit_of_le_remainingMoney {m : Member} (hs : s.Counted)
    (hm : s.guild.members.get? player = some m) (hrank : m.rankId ≠ grGuildmaster)
    (hrange : s.WithdrawInRange player amount) (hleft : amount.toNat ≤
      (s.guild.getMemberRemainingMoney m.rankId (s.withdrawn player) % 2 ^ 64).toNat) :
    amount.toNat = 0 ∨ (s.withdrawn player).toNat + amount.toNat ≤ limit s.guild player ∧
      limit s.guild player < 2 ^ 31 := by
  have hlimit : limit s.guild player = (s.guild.getRankBankMoneyPerDay m.rankId).toNat := by
    unfold limit
    rw [hm]
    exact if_neg hrank
  have hwithdrawn := hs.withdrawn_lt player
  unfold State.getMemberRemainingMoney at hleft
  rw [if_neg hrank, hlimit] at *
  split at hleft
  · dsimp only at hleft
    split at hleft
    · next hpos =>
      obtain ⟨hexact, hlt⟩ :=
        lt_limit_of_remaining_pos hwithdrawn ((hrange m hm).2 hrank) hpos
      right
      omega
    left
    simpa using hleft
  left
  simpa using hleft

theorem toNat_add_of_lt {a b : UInt32} (h : a.toNat + b.toNat < 2 ^ 31) :
    (a + b).toNat = a.toNat + b.toNat := by
  rw [UInt32.toNat_add]
  exact Nat.mod_eq_of_lt (by omega)

/-- **A withdrawal in range keeps the count.** -/
theorem Counted.withdrawMoney {repair : Bool} (hs : s.Counted) (ho : s.Observed)
    (hrange : s.WithdrawInRange player amount)
    (h : s.handleMemberWithdrawMoney player amount repair = some s') : s'.Counted := by
  obtain ⟨m, hm, hbank, hleft, rfl⟩ := handleMemberWithdrawMoney_eq_some h
  have hcount := hs.withdrawn_lt player
  have htaken := hs.taken_le player
  have hsum : (s.withdrawn player).toNat + amount.toNat < 2 ^ 31 := by
    by_cases hrank : m.rankId = grGuildmaster
    · exact (hrange m hm).1 hrank hbank
    · rcases le_limit_of_le_remainingMoney hs hm hrank hrange hleft with h0 | ⟨hle, hlt⟩ <;> omega
  refine ⟨?_, ?_, ?_, hs.withdrawnSlots_lt, hs.takenSlots_eq, ?_⟩
  · intro p
    dsimp only
    cases repair with
    | true => exact hs.money_le p
    | false =>
      rcases eq_or_ne p player with rfl | hne
      · rw [if_neg Bool.false_ne_true, update_self]
        refine modifyMoney_le (hs.money_le p) ?_
        unfold maxMoneyAmount
        omega
      rw [if_neg Bool.false_ne_true, update_of_ne hne]
      exact hs.money_le p
  · intro p
    dsimp only
    rcases eq_or_ne p player with rfl | hne
    · rw [update_self, toNat_add_of_lt hsum]
      exact hsum
    rw [update_of_ne hne]
    exact hs.withdrawn_lt p
  · intro p
    dsimp only
    rcases eq_or_ne p player with rfl | hne
    · rw [update_self, toNat_add_of_lt hsum]
      split
      · omega
      rw [update_self]
      omega
    rw [update_of_ne hne]
    split
    · exact hs.taken_le p
    rw [update_of_ne hne]
    exact hs.taken_le p
  intro p
  refine ⟨?_, (hs.within p).2⟩
  dsimp only
  split
  · exact (hs.within p).1
  next hrank =>
  rcases eq_or_ne p player with rfl | hne
  · have hpeak := ho.peak p
    have hwithin := (hs.within p).1
    rw [update_self]
    rcases le_limit_of_le_remainingMoney hs hm hrank hrange hleft with h0 | ⟨hle, hlt⟩ <;> omega
  rw [update_of_ne hne]
  exact (hs.within p).1

/-! ### Withdrawals of items -/

/-- **An item in range is counted**, and within the limit. -/
theorem Counted.withdrawItem (hs : s.Counted) (ho : s.Observed)
    (hrange : s.InRange (.withdrawItem player tabId)) : (s.withdrawItem player tabId).Counted := by
  unfold Treasury.withdrawItem
  split
  · exact hs
  next m hm =>
  split
  · exact hs
  next hleft =>
  by_cases hrank : m.rankId = grGuildmaster
  · -- the guild master is not counted
    have hsame : s.updateMemberWithdrawSlots player m tabId = s.withdrawnSlots player tabId :=
      if_neg fun h => h.1 hrank
    rw [if_pos hrank, hsame, update_eq_self, update_eq_self]
    exact hs
  have hcount := hs.withdrawnSlots_lt player tabId
  have hlimit : limitSlots s.guild player tabId =
      (s.guild.getRankBankTabSlotsPerDay m.rankId tabId).toNat := by
    unfold limitSlots
    rw [hm]
    exact if_neg hrank
  have hpos : 0 < State.remaining (s.guild.getRankBankTabSlotsPerDay m.rankId tabId)
      (s.withdrawnSlots player tabId) := by
    unfold State.getMemberRemainingSlots at hleft
    rw [if_neg hrank] at hleft
    split at hleft
    · dsimp only at hleft
      split at hleft
      · assumption
      · exact (hleft rfl).elim
    · exact (hleft rfl).elim
  obtain ⟨hexact, hlt⟩ := lt_limit_of_remaining_pos hcount (hrange m hm hrank) hpos
  have hcounted : s.updateMemberWithdrawSlots player m tabId =
      s.withdrawnSlots player tabId + 1 := by
    refine if_pos ⟨hrank, ?_⟩
    rw [int32_of_lt hcount, int32_of_lt hlt]
    omega
  have hadd : (s.withdrawnSlots player tabId + 1).toNat =
      (s.withdrawnSlots player tabId).toNat + 1 :=
    toNat_add_of_lt (b := 1) (show _ + 1 < _ by omega)
  rw [if_neg hrank, hcounted]
  -- the counter of one member and one tab moves
  have hcases : ∀ (p : UInt32) (t : UInt8), p = player ∧ t = tabId ∨ ∀ {β : Type}
      (f : UInt32 → UInt8 → β) (b : β),
        update f player (update (f player) tabId b) p t = f p t := by
    intro p t
    rcases eq_or_ne p player with rfl | hne
    · rcases eq_or_ne t tabId with rfl | hne
      · exact Or.inl ⟨rfl, rfl⟩
      right
      intro β f b
      rw [update_self, update_of_ne hne]
    right
    intro β f b
    rw [update_of_ne hne]
  have hpeak := ho.peakSlots player tabId
  have htaken := hs.takenSlots_eq player tabId
  refine ⟨hs.money_le, hs.withdrawn_lt, hs.taken_le, ?_, ?_, fun p => ⟨(hs.within p).1, ?_⟩⟩
  · intro p t
    rcases hcases p t with ⟨rfl, rfl⟩ | hsame
    · dsimp only
      rw [update_self, update_self, hadd]
      omega
    dsimp only
    rw [hsame]
    exact hs.withdrawnSlots_lt p t
  · intro p t
    rcases hcases p t with ⟨rfl, rfl⟩ | hsame
    · dsimp only
      rw [update_self, update_self, update_self, update_self, hadd, htaken]
    dsimp only
    rw [hsame, hsame]
    exact hs.takenSlots_eq p t
  intro t
  rcases hcases p t with ⟨rfl, rfl⟩ | hsame
  · dsimp only
    rw [update_self, update_self]
    omega
  dsimp only
  rw [hsame]
  exact (hs.within p).2 t

/-! ### Everything else -/

theorem Counted.deposit (hs : s.Counted) (money : UInt64) :
    (s.handleGuildBankDepositMoney player money).Counted := by
  unfold handleGuildBankDepositMoney
  split
  · next hmoney =>
    have henough : money.toNat ≤ s.money player := of_decide_eq_true hmoney.2.1
    have hle := hs.money_le player
    unfold maxMoneyAmount at hle
    refine { hs with money_le := fun p => ?_ }
    unfold handleMemberDepositMoney
    dsimp only
    rcases eq_or_ne p player with rfl | hne
    · rw [update_self, int64_of_lt (by omega)]
      refine modifyMoney_le (hs.money_le p) ?_
      omega
    rw [update_of_ne hne]
    exact hs.money_le p
  · exact hs

theorem Counted.runGuild (hs : s.Counted) (op : Op) : (s.runGuild op).Counted := by
  unfold Treasury.runGuild
  split
  · dsimp only
    refine ⟨hs.money_le, fun p => ?_, fun p => ?_, fun p t => ?_, fun p t => ?_, fun p => ?_⟩
    · dsimp only
      split
      · decide
      · exact hs.withdrawn_lt p
    · dsimp only
      split
      · exact Nat.zero_le _
      · exact hs.taken_le p
    · dsimp only
      split
      · decide
      · exact hs.withdrawnSlots_lt p t
    · dsimp only
      split
      · rfl
      · exact hs.takenSlots_eq p t
    dsimp only
    split
    · exact ⟨Nat.zero_le _, fun _ => Nat.zero_le _⟩
    · exact hs.within p
  · exact hs

theorem Counted.resetTimes (hs : s.Counted) : s.resetTimes.Counted where
  money_le := hs.money_le
  withdrawn_lt _ := (by decide : (0 : UInt32).toNat < 2 ^ 31)
  taken_le _ := Nat.zero_le _
  withdrawnSlots_lt _ _ := (by decide : (0 : UInt32).toNat < 2 ^ 31)
  takenSlots_eq _ _ := rfl
  within _ := ⟨Nat.zero_le _, fun _ => Nat.zero_le _⟩

variable {e : Event}

/-- **One event in range keeps the count.** -/
theorem Counted.apply (hs : s.Counted) (ho : s.Observed) (hrange : s.InRange e) :
    (s.apply e).Counted := by
  have hwithdraw : ∀ {player amount : UInt32} {repair : Bool}, s.WithdrawInRange player amount →
      ((s.handleMemberWithdrawMoney player amount repair).getD s).Counted := by
    intro player amount repair hrange
    cases h : s.handleMemberWithdrawMoney player amount repair with
    | none => exact hs
    | some s' => exact hs.withdrawMoney ho hrange h
  cases e with
  | deposit player money => exact hs.deposit money
  | withdraw player money =>
    show (s.handleGuildBankWithdrawMoney player money).Counted
    unfold handleGuildBankWithdrawMoney
    split
    · exact hwithdraw hrange
    · exact hs
  | repair player costs => exact hwithdraw hrange
  | withdrawItem player tabId => exact hs.withdrawItem ho hrange
  | guild op => exact hs.runGuild op
  | resetTimes => exact hs.resetTimes

/-! ### The money -/

theorem conserved_of_eq (hbank : s'.bankMoney = s.bankMoney) (hmoney : s'.money = s.money)
    (hrepairs : s'.repairs = s.repairs) : Conserved s s' := by
  have hworth : ∀ p, s'.worth p = s.worth p := by
    intro p
    unfold worth
    rw [hmoney, hrepairs]
  exact ⟨0, by rw [hbank, hworth], fun q _ => hworth q⟩

theorem conserved_deposit (hs : s.Counted) {money : UInt64}
    (hcap : s.bankMoney.toNat + money.toNat < 2 ^ 64) :
    Conserved s (s.handleGuildBankDepositMoney player money) := by
  unfold handleGuildBankDepositMoney
  split
  · next hmoney =>
    have henough : money.toNat ≤ s.money player := of_decide_eq_true hmoney.2.1
    have hle := hs.money_le player
    have hpaid : modifyMoney (s.money player) (-int64 money) = s.money player - money.toNat := by
      rw [int64_of_lt (by unfold maxMoneyAmount at hle; omega)]
      exact modifyMoney_neg henough hle
    have hbank : (s.bankMoney + money).toNat = s.bankMoney.toNat + money.toNat := by
      exact Nat.mod_eq_of_lt hcap
    refine ⟨player, ?_, fun q hne => ?_⟩
    · unfold worth handleMemberDepositMoney
      dsimp only
      rw [update_self, hpaid, hbank]
      omega
    unfold worth handleMemberDepositMoney
    dsimp only
    rw [update_of_ne hne]
  · exact conserved_of_eq rfl rfl rfl

theorem conserved_withdraw {repair : Bool}
    (hcap : repair = false → s.money player + amount.toNat ≤ maxMoneyAmount) :
    Conserved s ((s.handleMemberWithdrawMoney player amount repair).getD s) := by
  cases h : s.handleMemberWithdrawMoney player amount repair with
  | none => exact conserved_of_eq rfl rfl rfl
  | some s' =>
    obtain ⟨m, -, hbank, -, rfl⟩ := handleMemberWithdrawMoney_eq_some h
    have hle : amount.toNat ≤ s.bankMoney.toNat := UInt64.le_iff_toNat_le.mp hbank
    have hsub : (s.bankMoney - amount.toUInt64).toNat = s.bankMoney.toNat - amount.toNat :=
      UInt64.toNat_sub_of_le _ _ hbank
    refine ⟨player, ?_, fun q hne => ?_⟩
    · unfold worth
      dsimp only [getD_some]
      cases repair with
      | true =>
        rw [if_pos rfl, if_pos rfl, update_self, hsub]
        omega
      | false =>
        rw [if_neg Bool.false_ne_true, if_neg Bool.false_ne_true, update_self,
          modifyMoney_add (hcap rfl), hsub]
        omega
    unfold worth
    dsimp only [getD_some]
    cases repair with
    | true => rw [if_pos rfl, if_pos rfl, update_of_ne hne]
    | false =>
      rw [if_neg Bool.false_ne_true, if_neg Bool.false_ne_true, update_of_ne hne]

/-- **One event changes the money of the guild by what a player loses or gains.** -/
theorem conserved_apply (hs : s.Counted) (hcap : BelowCap s e) : Conserved s (s.apply e) := by
  cases e with
  | deposit player money => exact conserved_deposit hs hcap
  | withdraw player money =>
    show Conserved s (s.handleGuildBankWithdrawMoney player money)
    unfold handleGuildBankWithdrawMoney
    split
    · exact conserved_withdraw fun _ => hcap
    · exact conserved_of_eq rfl rfl rfl
  | repair player costs => exact conserved_withdraw nofun
  | withdrawItem player tabId =>
    show Conserved s (s.withdrawItem player tabId)
    unfold withdrawItem
    split
    · exact conserved_of_eq rfl rfl rfl
    · split <;> exact conserved_of_eq rfl rfl rfl
  | guild op =>
    show Conserved s (s.runGuild op)
    unfold runGuild
    split <;> exact conserved_of_eq rfl rfl rfl
  | resetTimes => exact conserved_of_eq rfl rfl rfl

theorem apply_of_refused (h : Refused s e) : s.apply e = s := by
  cases e with
  | withdraw player money =>
    show s.handleGuildBankWithdrawMoney player money = s
    unfold handleGuildBankWithdrawMoney
    rw [show s.handleMemberWithdrawMoney player money.toUInt32 false = none from h]
    exact ite_self s
  | repair player costs =>
    show (s.handleMemberWithdrawMoney player costs true).getD s = s
    rw [show s.handleMemberWithdrawMoney player costs true = none from h]
    rfl
  | deposit | withdrawItem | guild | resetTimes => exact h.elim

/-! ### Whole runs -/

theorem Counted.fair (hs : s.Counted) (ho : s.Observed) (hrange : s.InRange e) : Fair s e where
  conserved hcap := conserved_apply hs hcap
  refused h := by rw [step, apply_of_refused h, ho.observe_eq]
  within := (hs.apply ho hrange).observe.within

/-- **The treasury of a guild.**  In every run from the start of a day whose 32-bit arithmetic
stays in range, every event is fair: below the gold limits the money of the guild changes by what
a player loses or gains, a refused withdrawal changes nothing, and nobody has taken more than the
largest limit its ranks had since the last reset. -/
theorem fair_of_inRange (g : State) (bankMoney : UInt64) (wallets : UInt32 → Wallet)
    (events : List Event) (h : Along step InRange (start g bankMoney wallets) events) :
    Along step Fair (start g bankMoney wallets) events :=
  Along.of_invariant (I := fun s => s.Counted ∧ s.Observed)
    (fun _ _ hs hrange => ⟨(hs.1.apply hs.2 hrange).observe, observed_observe _⟩)
    (fun _ _ hs hrange => hs.1.fair hs.2 hrange)
    ⟨counted_start g bankMoney wallets, observed_observe _⟩ h

/-- The founder of a guild of two takes money, makes the other member guild master and is given a
limit of 50, of which it takes 30 and then asks for 30 more. -/
theorem fair_of_inRange_stepDown :
    Along step Fair (start guildOfTwo 1000 fun _ => ⟨500, by decide⟩)
      [.withdraw 1 20, .deposit 2 70, .guild (.setNewGuildMaster 1 "Initiate"),
        .guild (.setRankInfo 2 4 "" 0 50 []), .withdraw 1 30, .withdraw 1 30] := by
  refine fair_of_inRange _ _ _ _ ⟨?_, trivial, trivial, trivial, ?_, ?_, trivial⟩
  all_goals
    rintro m hm
    obtain rfl := some.inj hm
    decide +kernel

/-- A guild master takes `2^31 + 1` copper, steps down to a rank that may take nothing, and takes
1000 more. -/
def steppedDown : Treasury :=
  [.withdraw 1 2147483649, .guild (.setNewGuildMaster 1 "Initiate"), .withdraw 1 1000].foldl step
    (start guildOfTwo 5000000000 fun _ => ⟨0, Nat.zero_le _⟩)

theorem steppedDown_exceeds :
    steppedDown.money 1 = 2147484649 ∧ steppedDown.taken 1 = 1000 ∧ steppedDown.peak 1 = 0 ∧
      ¬ WithinLimits steppedDown := by
  have htaken : steppedDown.taken 1 = 1000 := by decide +kernel
  have hpeak : steppedDown.peak 1 = 0 := by decide +kernel
  refine ⟨by decide +kernel, htaken, hpeak, fun h => ?_⟩
  have hle := (h 1).1
  omega

end ZerosCore.Guild.Treasury
