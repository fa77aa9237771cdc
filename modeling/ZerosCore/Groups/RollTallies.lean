/-
# Votes and their tallies

`CountRollVote` adds to a tally whenever a player chooses, and does not ask what he chose
before: a vote that is repeated or changed is counted again, while the map keeps the last
one only.  The tallies decide when a roll is over and which votes are looked at, so that
then a roll may be over before all have voted, and the item may go to the first player of
the map, who did not ask for it.  A member who leaves takes one vote back.

In a run the tallies are those of the votes whenever a request is served and whenever a roll
is counted, and the winners are who they should be, exactly if nobody chooses twice in one
roll (`rolls_right_iff`).
-/

import ZerosCore.Groups.LootRolls
import ZerosCore.Lib.Run
import Mathlib.Data.List.Count

namespace ZerosCore.Groups.LootRolls

open Lib List Option Roll LootRolls.State RollVote

/-! ### What rolls should keep -/

/-- The number of votes of a kind. -/
def votesFor (p : RollVote → Bool) (votes : List (ℕ × RollVote)) : ℕ := votes.countP fun e => p e.2

/-- The tallies are those of the votes. -/
structure Roll.Tallied (roll : Roll) : Prop where
  need : roll.totalNeed = votesFor (· = .need) roll.playerVote
  greed : roll.totalGreed = votesFor RollVote.isGreed roll.playerVote
  pass : roll.totalPass = votesFor (· = .pass) roll.playerVote

/-- A roll was counted with the tallies of its votes, and was won by a player with a vote of
need if there was one, else by one with a vote of greed if there was one, else by nobody;
the item went to the winner or to nobody. -/
structure Counted.Right (c : Counted) : Prop where
  tallied : c.roll.Tallied
  need : 0 < votesFor (· = .need) c.roll.playerVote →
    ∃ g, c.won = some g ∧ (g, RollVote.need) ∈ c.roll.playerVote
  greed : votesFor (· = .need) c.roll.playerVote = 0 →
    0 < votesFor RollVote.isGreed c.roll.playerVote →
      ∃ g v, c.won = some g ∧ v.isGreed = true ∧ (g, v) ∈ c.roll.playerVote
  nobody : votesFor (· = .need) c.roll.playerVote = 0 →
    votesFor RollVote.isGreed c.roll.playerVote = 0 → c.won = none
  given : c.awarded = none ∨ c.awarded = c.won

def Roll.isFor (loot slot : ℕ) (roll : Roll) : Bool := roll.loot = some loot && roll.itemSlot = slot

def Counted.gave (loot slot : ℕ) (c : Counted) : Bool := c.awarded.isSome && c.roll.isFor loot slot

/-- All tallies are right, all counted rolls were, and each item was given away at most
once. -/
structure State.Right (s : State) : Prop where
  tallied : ∀ roll ∈ s.rolls, roll.Tallied
  counted : ∀ c ∈ s.counted, c.Right
  once : ∀ loot slot, s.counted.countP (Counted.gave loot slot) ≤ 1

/-- Nobody chooses who has voted in the roll already. -/
def Fresh (s : State) : Request → Prop
  | .vote _ player itemGUID choice => ∀ roll ∈ s.getRoll itemGUID, choice < 4 →
      (∀ loot ∈ s.getLoot roll, loot.items ≠ []) → ∀ v ∈ roll.vote player, v = .notEmitedYet
  | _ => True

/-! ### Votes -/

variable {s t : State} {roll r : Roll} {w : World} {guid player choice loot slot : ℕ}
  {v v' : RollVote} {votes : List (ℕ × RollVote)} {p : RollVote → Bool}

@[simp] theorem votesFor_nil (p : RollVote → Bool) : votesFor p [] = 0 := rfl

@[simp] theorem votesFor_cons (p : RollVote → Bool) (e : ℕ × RollVote)
    (votes : List (ℕ × RollVote)) :
    votesFor p (e :: votes) = votesFor p votes + if p e.2 then 1 else 0 :=
  countP_cons

theorem votesFor_le (p : RollVote → Bool) (votes : List (ℕ × RollVote)) :
    votesFor p votes ≤ votes.length :=
  countP_le_length

/-- **A vote is set**: its kind is counted instead of the old one's. -/
theorem votesFor_setVote (h : (votes.find? fun e => e.1 = guid).map Prod.snd = some v)
    (v' : RollVote) : votesFor p (setVote guid v' votes) + (if p v then 1 else 0) =
      votesFor p votes + if p v' then 1 else 0 := by
  induction votes with
  | nil => cases h
  | cons e votes ih =>
    by_cases he : e.1 = guid
    · rw [find?_cons_of_pos (by simpa using he)] at h
      cases h
      rw [setVote, if_pos he, votesFor_cons, votesFor_cons]
      dsimp only
      omega
    rw [find?_cons_of_neg (by simpa using he)] at h
    have hrest := ih h
    rw [setVote, if_neg he, votesFor_cons, votesFor_cons]
    omega

theorem votesFor_erase (h : (votes.find? fun e => e.1 = guid).map Prod.snd = some v) :
    votesFor p (votes.eraseP fun e => e.1 = guid) + (if p v then 1 else 0) = votesFor p votes := by
  induction votes with
  | nil => cases h
  | cons e votes ih =>
    by_cases he : e.1 = guid
    · rw [find?_cons_of_pos (by simpa using he)] at h
      cases h
      rw [eraseP_cons_of_pos (by simpa using he), votesFor_cons]
    rw [find?_cons_of_neg (by simpa using he)] at h
    have hrest := ih h
    rw [eraseP_cons_of_neg (by simpa using he), votesFor_cons, votesFor_cons]
    omega

theorem votesFor_insertVote (h : guid ∉ votes.map Prod.fst) (v : RollVote) :
    votesFor p (insertVote guid v votes) = votesFor p votes + if p v then 1 else 0 := by
  induction votes with
  | nil => rw [insertVote, votesFor_cons]
  | cons e votes ih =>
    rw [map_cons, mem_cons, not_or] at h
    rw [insertVote]
    split
    · rw [votesFor_cons]
    rw [if_neg h.1, votesFor_cons, votesFor_cons, ih h.2]
    omega

theorem length_setVote (guid : ℕ) (v : RollVote) (votes : List (ℕ × RollVote)) :
    (setVote guid v votes).length = votes.length := by
  induction votes with
  | nil => rfl
  | cons e votes ih =>
    rw [setVote]
    split
    · rfl
    · rw [length_cons, ih, length_cons]

theorem length_insertVote (guid : ℕ) (v : RollVote) (votes : List (ℕ × RollVote)) :
    (insertVote guid v votes).length ≤ votes.length + 1 := by
  induction votes with
  | nil => exact Nat.le_refl 1
  | cons e votes ih =>
    rw [insertVote]
    split
    · exact Nat.le_refl _
    split
    · exact Nat.le_succ _
    rw [length_cons, length_cons]
    omega

theorem mem_insertVote (guid : ℕ) (v : RollVote) (votes : List (ℕ × RollVote)) :
    ∀ g ∈ (insertVote guid v votes).map Prod.fst, g = guid ∨ g ∈ votes.map Prod.fst := by
  induction votes with
  | nil =>
    intro g hg
    exact .inl (mem_singleton.mp hg)
  | cons e votes ih =>
    intro g hg
    rw [insertVote] at hg
    split at hg
    · exact mem_cons.mp hg
    split at hg
    · exact (mem_cons.mp hg).imp_right (mem_cons_of_mem _)
    rcases mem_cons.mp hg with rfl | hrest
    · exact .inr mem_cons_self
    · exact (ih g hrest).imp_right (mem_cons_of_mem _)

/-! ### A choice, and a member who leaves -/

/-- What a choice adds to the tallies. -/
def choiceVote : ℕ → Option RollVote
  | 0 => some .pass
  | 1 => some .need
  | 2 => some .greed
  | 3 => some .disenchant
  | _ => none

theorem choose_none (roll : Roll) (guid : ℕ) (h : choiceVote choice = none) :
    roll.choose guid choice = roll := by
  match choice, h with
  | n + 4, _ => rfl

theorem choose_some (roll : Roll) (guid : ℕ) (h : choiceVote choice = some v) :
    (roll.choose guid choice).playerVote = setVote guid v roll.playerVote ∧
      (roll.choose guid choice).totalNeed =
        (if v = .need then (roll.totalNeed + 1) % 256 else roll.totalNeed) ∧
      (roll.choose guid choice).totalGreed =
        (if v.isGreed then (roll.totalGreed + 1) % 256 else roll.totalGreed) ∧
      (roll.choose guid choice).totalPass =
        if v = .pass then (roll.totalPass + 1) % 256 else roll.totalPass := by
  match choice, h with
  | 0, rfl => exact ⟨rfl, rfl, rfl, rfl⟩
  | 1, rfl => exact ⟨rfl, rfl, rfl, rfl⟩
  | 2, rfl => exact ⟨rfl, rfl, rfl, rfl⟩
  | 3, rfl => exact ⟨rfl, rfl, rfl, rfl⟩

/-- One tally after a choice: it is right exactly if the old vote was not of its kind. -/
theorem tally_iff {n : ℕ} (hn : n = votesFor p votes) (hfew : votes.length ≤ maxRaidSize)
    (hv : (votes.find? fun e => e.1 = guid).map Prod.snd = some v) (v' : RollVote) :
    (if p v' = true then (n + 1) % 256 else n) = votesFor p (setVote guid v' votes) ↔
      p v = false := by
  have hset := votesFor_setVote (p := p) hv v'
  have hle := votesFor_le p votes
  have hmax : maxRaidSize = 40 := rfl
  cases hold : p v with
  | false =>
    rw [hold] at hset
    simp only [Bool.false_eq_true, if_false] at hset
    refine ⟨fun _ => rfl, fun _ => ?_⟩
    split
    · rename_i hnew
      rw [if_pos hnew] at hset
      omega
    rename_i hnew
    rw [if_neg hnew] at hset
    omega
  | true =>
    rw [hold, if_pos rfl] at hset
    refine ⟨fun heq => ?_, nofun⟩
    split at heq
    · rename_i hnew
      rw [if_pos hnew] at hset
      omega
    rename_i hnew
    rw [if_neg hnew] at hset
    omega

/-- **A choice** keeps the tallies right exactly if the player has not voted before. -/
theorem choose_tallied_iff (h : roll.Tallied) (hfew : roll.playerVote.length ≤ maxRaidSize)
    (hvalid : v ≠ .notValid) (hv : roll.vote guid = some v) (hchoice : choiceVote choice = some v') :
    (roll.choose guid choice).Tallied ↔ v = .notEmitedYet := by
  obtain ⟨hvotes, hneed, hgreed, hpass⟩ := choose_some roll guid hchoice
  have hneedIff := tally_iff h.need hfew hv v'
  have hgreedIff := tally_iff h.greed hfew hv v'
  have hpassIff := tally_iff h.pass hfew hv v'
  rw [← hvotes] at hneedIff hgreedIff hpassIff
  simp only [decide_eq_true_eq] at hneedIff hpassIff
  rw [← hneed] at hneedIff
  rw [← hgreed] at hgreedIff
  rw [← hpass] at hpassIff
  constructor
  · intro ht
    have hnotNeed := hneedIff.mp ht.need
    have hnotGreed := hgreedIff.mp ht.greed
    have hnotPass := hpassIff.mp ht.pass
    cases v with
    | notEmitedYet => rfl
    | notValid => exact absurd rfl hvalid
    | pass => cases hnotPass
    | need => cases hnotNeed
    | greed | disenchant => cases hnotGreed
  rintro rfl
  exact ⟨hneedIff.mpr rfl, hgreedIff.mpr rfl, hpassIff.mpr rfl⟩

/-- **A member who leaves** takes his vote back. -/
theorem drop_tallied (h : roll.Tallied) (hfew : roll.playerVote.length ≤ maxRaidSize)
    (guid : ℕ) : (roll.drop guid).Tallied := by
  unfold Roll.drop
  cases hv : roll.vote guid with
  | none => exact h
  | some v =>
    have hmax : maxRaidSize = 40 := rfl
    have herase (p : RollVote → Bool) := votesFor_erase (p := p) hv
    have hle (p : RollVote → Bool) := votesFor_le p roll.playerVote
    constructor
    · have hone := herase (· = .need)
      have hall := hle (· = .need)
      rw [← h.need] at hone hall
      simp only [decide_eq_true_eq] at hone
      dsimp only
      split
      · rename_i hneed
        rw [if_pos hneed] at hone
        omega
      rename_i hneed
      rw [if_neg hneed] at hone
      omega
    · have hone := herase isGreed
      have hall := hle isGreed
      rw [← h.greed] at hone hall
      dsimp only
      split
      · rename_i hgreed
        rw [if_pos (by simpa [isGreed] using hgreed)] at hone
        omega
      rename_i hgreed
      rw [if_neg (by simpa [isGreed] using hgreed)] at hone
      omega
    have hone := herase (· = .pass)
    have hall := hle (· = .pass)
    rw [← h.pass] at hone hall
    simp only [decide_eq_true_eq] at hone
    dsimp only
    split
    · rename_i hpass
      rw [if_pos hpass] at hone
      omega
    rename_i hpass
    rw [if_neg hpass] at hone
    omega

/-! ### The winner -/

theorem throwDice_keep (w : World) (p : RollVote → Bool) (votes : List (ℕ × RollVote))
    (b : ℕ × ℕ × RollVote) : votes.foldl (throwDice w p) b = b ∨
      ((votes.foldl (throwDice w p) b).1, (votes.foldl (throwDice w p) b).2.2) ∈ votes ∧
        p (votes.foldl (throwDice w p) b).2.2 = true := by
  induction votes generalizing b with
  | nil => exact .inl rfl
  | cons e votes ih =>
    rw [foldl_cons]
    rcases ih (throwDice w p b e) with hsame | ⟨hmem, hcounts⟩
    · rw [hsame]
      unfold throwDice
      split
      · rename_i hcounts
        dsimp only
        split
        · exact .inr ⟨mem_cons_self, hcounts⟩
        · exact .inl rfl
      · exact .inl rfl
    · exact .inr ⟨mem_cons_of_mem e hmem, hcounts⟩

/-- **The dice** find a vote that counts, if there is one. -/
theorem throwDice_found (w : World) {p : RollVote → Bool} {votes : List (ℕ × RollVote)}
    {b : ℕ × ℕ × RollVote} (hb : b.2.1 = 0) (hvotes : 0 < votesFor p votes) :
    ((votes.foldl (throwDice w p) b).1, (votes.foldl (throwDice w p) b).2.2) ∈ votes ∧
      p (votes.foldl (throwDice w p) b).2.2 = true := by
  induction votes generalizing b with
  | nil => exact absurd hvotes (by simp)
  | cons e votes ih =>
    rw [foldl_cons]
    by_cases hcounts : p e.2 = true
    · have hthrow : throwDice w p b e = (e.1, w.urand e.1 % 100 + 1, e.2) := by
        unfold throwDice
        rw [if_pos hcounts, hb]
        exact if_pos (Nat.succ_pos _)
      rw [hthrow]
      rcases throwDice_keep w p votes (e.1, w.urand e.1 % 100 + 1, e.2) with hsame | hrest
      · rw [hsame]
        exact ⟨mem_cons_self, hcounts⟩
      · exact ⟨mem_cons_of_mem e hrest.1, hrest.2⟩
    rw [votesFor_cons, if_neg hcounts] at hvotes
    have hthrow : throwDice w p b e = b := if_neg hcounts
    rw [hthrow]
    obtain ⟨hmem, hright⟩ := ih hb hvotes
    exact ⟨mem_cons_of_mem e hmem, hright⟩

/-! ### The end of a roll -/

/-- Two lists of loots that differ in items only, and there in what was blocked or looted. -/
def SameLoots (s t : State) : Prop :=
  ∀ id : ℕ, (t.loots[id]?).map Loot.rolled = (s.loots[id]?).map Loot.rolled

theorem SameLoots.refl (s : State) : SameLoots s s := fun _ => rfl

theorem rolled_modify (loot : Loot) (slot : ℕ) (f : LootItem → LootItem) :
    (loot.modify slot f).rolled = loot.rolled := by
  unfold Loot.modify
  split <;> rfl

theorem sameLoots_modifyItem (s : State) (roll : Roll) (f : LootItem → LootItem) :
    SameLoots s (s.modifyItem roll f) := by
  intro id
  unfold modifyItem
  split
  · rfl
  rename_i other _
  rw [getElem?_modify]
  cases hloot : s.loots[id]? with
  | none => rfl
  | some loot =>
    rw [Option.map_eq_map, Option.map_some, Option.map_some, Option.map_some]
    split
    · rw [rolled_modify]
    · rfl

/-- What the end of a roll leaves: the roll is gone, and an entry says who won. -/
structure Over (s t : State) (roll : Roll) : Prop where
  lootThreshold : t.lootThreshold = s.lootThreshold
  nextGUID : t.nextGUID = s.nextGUID
  loots : SameLoots s t
  rolls : t.rolls = s.rolls.filter fun r => r.itemGUID ≠ roll.itemGUID
  counted : ∃ won awarded, t.counted = s.counted ++ [⟨roll, won, awarded⟩] ∧
    (roll.Tallied → Counted.Right ⟨roll, won, awarded⟩)

theorem award_spec (s : State) (roll : Roll) (won : Option ℕ) (given : Bool) :
    (s.award roll won given).lootThreshold = s.lootThreshold ∧
      (s.award roll won given).nextGUID = s.nextGUID ∧ SameLoots s (s.award roll won given) ∧
      (s.award roll won given).rolls = s.rolls ∧
      (s.award roll won given).counted = s.counted ++ [⟨roll, won, if given then won else none⟩] := by
  have hsame := sameLoots_modifyItem s roll fun item =>
    if given then { item with isLooted := true } else { item with isBlocked := false }
  unfold award
  unfold modifyItem at hsame ⊢
  split
  · exact ⟨rfl, rfl, .refl s, rfl, rfl⟩
  rename_i hid
  rw [hid] at hsame
  exact ⟨rfl, rfl, hsame, rfl, rfl⟩

/-- The state of a roll that ends, before it is said who won. -/
def State.without (s : State) (roll : Roll) : State :=
  { s with rolls := s.rolls.filter fun r => r.itemGUID ≠ roll.itemGUID }

theorem over_award (won : Option ℕ) (given : Bool)
    (h : roll.Tallied → Counted.Right ⟨roll, won, if given then won else none⟩) :
    Over s ((s.without roll).award roll won given) roll := by
  obtain ⟨hthreshold, hnext, hloots, hrolls, hcounted⟩ := award_spec (s.without roll) roll won given
  exact ⟨hthreshold, hnext, hloots, hrolls, won, _, hcounted, h⟩

theorem over_close (won : Option ℕ) (h : roll.Tallied → Counted.Right ⟨roll, won, none⟩) :
    Over s ((s.without roll).close roll won) roll :=
  ⟨rfl, rfl, .refl s, rfl, won, none, rfl, h⟩

theorem right_of_need {awarded : Option ℕ} (h : roll.Tallied) (hpos : roll.totalNeed > 0)
    (first : ℕ) (hgiven : awarded = none ∨
      awarded = some (best w (· = .need) first roll.playerVote).1) :
    Counted.Right ⟨roll, some (best w (· = .need) first roll.playerVote).1, awarded⟩ := by
  have hvotes : 0 < votesFor (· = .need) roll.playerVote := h.need ▸ hpos
  obtain ⟨hmem, hneed⟩ := throwDice_found w (b := (first, 0, .notValid)) rfl hvotes
  refine ⟨h, fun _ => ⟨_, rfl, ?_⟩, fun hzero => ?_, fun hzero => ?_, hgiven⟩
  · rw [of_decide_eq_true hneed] at hmem
    exact hmem
  · exact absurd hzero (Nat.ne_of_gt hvotes)
  · exact absurd hzero (Nat.ne_of_gt hvotes)

theorem over_countNeed (hpos : roll.totalNeed > 0) (w : World) :
    Over s ((s.without roll).countNeed w roll) roll := by
  unfold countNeed
  split
  · rename_i hnil
    refine over_close none fun h => ?_
    have hneed := h.need
    rw [hnil] at hneed
    exact absurd hneed (Nat.ne_of_gt hpos)
  rename_i first _ _
  dsimp only
  split
  · refine over_award _ _ fun h => right_of_need h hpos first.1 ?_
    split
    · exact .inr rfl
    · exact .inl rfl
  · exact over_close _ fun h => right_of_need h hpos first.1 (.inl rfl)

theorem right_of_greed {awarded : Option ℕ} (h : roll.Tallied) (hzero : ¬roll.totalNeed > 0)
    (hpos : roll.totalGreed > 0) (first : ℕ) (hgiven : awarded = none ∨
      awarded = some (best w isGreed first roll.playerVote).1) :
    Counted.Right ⟨roll, some (best w isGreed first roll.playerVote).1, awarded⟩ := by
  have hnone : votesFor (· = .need) roll.playerVote = 0 := by
    rw [← h.need]
    omega
  have hvotes : 0 < votesFor isGreed roll.playerVote := h.greed ▸ hpos
  obtain ⟨hmem, hgreed⟩ := throwDice_found w (b := (first, 0, .notValid)) rfl hvotes
  refine ⟨h, fun hneed => ?_, fun _ _ => ⟨_, _, rfl, hgreed, hmem⟩, fun _ hno => ?_, hgiven⟩
  · exact absurd hnone (Nat.ne_of_gt hneed)
  · exact absurd hno (Nat.ne_of_gt hvotes)

theorem over_countGreed (hzero : ¬roll.totalNeed > 0) (hpos : roll.totalGreed > 0) (w : World) :
    Over s ((s.without roll).countGreed w roll) roll := by
  unfold countGreed
  split
  · rename_i hnil
    refine over_close none fun h => ?_
    have hgreed := h.greed
    rw [hnil] at hgreed
    exact absurd hgreed (Nat.ne_of_gt hpos)
  rename_i first _ _
  dsimp only
  have hclose : Over s ((s.without roll).close roll
      (some (best w isGreed first.1 roll.playerVote).1)) roll :=
    over_close _ fun h => right_of_greed h hzero hpos first.1 (.inl rfl)
  split
  · split
    · refine over_award _ _ fun h => right_of_greed h hzero hpos first.1 ?_
      split
      · exact .inr rfl
      · exact .inl rfl
    · exact over_award _ _ fun h => right_of_greed h hzero hpos first.1 (.inr rfl)
    · exact hclose
  · exact hclose

/-- **The end of a roll.** -/
theorem countTheRoll_spec (hloot : roll.loot ≠ none) (w : World) :
    Over s (s.countTheRoll w roll) roll := by
  unfold countTheRoll
  rw [if_neg hloot]
  split
  · rename_i hneed
    exact over_countNeed hneed w
  rename_i hneed
  split
  · rename_i hgreed
    exact over_countGreed hneed hgreed w
  rename_i hgreed
  refine over_award none false fun h => ⟨h, fun hpos => ?_, fun _ hpos => ?_, fun _ _ => rfl, .inl rfl⟩
  · rw [← h.need] at hpos
    exact absurd hpos hneed
  rw [← h.greed] at hpos
  exact absurd hpos hgreed

/-! ### The invariant -/

/-- What holds of a run whatever is asked: a map has a key once, nobody's vote is invalid, a
roll has a guid of its own and is for a loot whose rolls were started, and each item is rolled
for or given away at most once. -/
structure Frame (s : State) : Prop where
  few : ∀ roll ∈ s.rolls, roll.playerVote.length ≤ maxRaidSize
  keys : ∀ roll ∈ s.rolls, (roll.playerVote.map Prod.fst).Nodup
  valid : ∀ roll ∈ s.rolls, ∀ e ∈ roll.playerVote, e.2 ≠ .notValid
  guid : ∀ roll ∈ s.rolls, roll.itemGUID < s.nextGUID
  distinct : (s.rolls.map Roll.itemGUID).Nodup
  rolled : ∀ roll ∈ s.rolls, ∀ id : ℕ, roll.loot = some id →
    (s.loots[id]?).map Loot.rolled = some true
  gave : ∀ c ∈ s.counted, ∀ id slot : ℕ, c.gave id slot = true →
    (s.loots[id]?).map Loot.rolled = some true
  once : ∀ id slot, s.rolls.countP (Roll.isFor id slot) + s.counted.countP (Counted.gave id slot) ≤ 1

/-- The invariant of a run. -/
structure Inv (s : State) : Prop where
  frame : Frame s
  right : s.Right

theorem Frame.right (h : Frame s) (htallied : ∀ roll ∈ s.rolls, roll.Tallied)
    (hcounted : ∀ c ∈ s.counted, c.Right) : s.Right :=
  ⟨htallied, hcounted, fun id slot => Nat.le_trans (Nat.le_add_left _ _) (h.once id slot)⟩

theorem Frame.eq_of_guid (h : Frame s) (hr : r ∈ s.rolls) (hroll : roll ∈ s.rolls)
    (hguid : r.itemGUID = roll.itemGUID) : r = roll :=
  inj_on_of_nodup_map h.distinct hr hroll hguid

/-- The roll is the same one with other votes. -/
structure Roll.Again (roll roll' : Roll) : Prop where
  itemGUID : roll'.itemGUID = roll.itemGUID
  loot : roll'.loot = roll.loot
  itemSlot : roll'.itemSlot = roll.itemSlot
  few : roll.playerVote.length ≤ maxRaidSize → roll'.playerVote.length ≤ maxRaidSize
  keys : (roll.playerVote.map Prod.fst).Nodup → (roll'.playerVote.map Prod.fst).Nodup
  valid : (∀ e ∈ roll.playerVote, e.2 ≠ .notValid) → ∀ e ∈ roll'.playerVote, e.2 ≠ .notValid

theorem Roll.Again.refl (roll : Roll) : roll.Again roll := ⟨rfl, rfl, rfl, id, id, id⟩

theorem mem_setRoll {roll' : Roll} (hr : r ∈ (s.setRoll roll').rolls) :
    r = roll' ∨ r ∈ s.rolls ∧ r.itemGUID ≠ roll'.itemGUID := by
  obtain ⟨old, hold, rfl⟩ := mem_map.mp hr
  split
  · exact .inl rfl
  rename_i hne
  exact .inr ⟨hold, hne⟩

theorem setRoll_mem {roll' : Roll} (hroll : roll ∈ s.rolls)
    (hguid : roll'.itemGUID = roll.itemGUID) : roll' ∈ (s.setRoll roll').rolls :=
  mem_map.mpr ⟨roll, hroll, if_pos hguid.symm⟩

theorem setRoll_guids (s : State) (roll' : Roll) :
    (s.setRoll roll').rolls.map itemGUID = s.rolls.map itemGUID := by
  unfold setRoll
  rw [List.map_map]
  refine List.map_congr_left fun r _ => ?_
  rw [Function.comp_apply]
  split
  · rename_i hguid
    exact hguid.symm
  · rfl

theorem Frame.setRoll (h : Frame s) (hroll : roll ∈ s.rolls) {roll' : Roll}
    (hagain : roll.Again roll') : Frame (s.setRoll roll') := by
  have hsame (r : Roll) (hr : r ∈ s.rolls) (id slot : ℕ) :
      (if r.itemGUID = roll'.itemGUID then roll' else r).isFor id slot = r.isFor id slot := by
    split
    · rename_i hguid
      obtain rfl := h.eq_of_guid hr hroll (hguid.trans hagain.itemGUID)
      unfold isFor
      rw [hagain.loot, hagain.itemSlot]
    · rfl
  constructor
  · intro r hr
    rcases mem_setRoll hr with rfl | ⟨hold, -⟩
    · exact hagain.few (h.few roll hroll)
    · exact h.few r hold
  · intro r hr
    rcases mem_setRoll hr with rfl | ⟨hold, -⟩
    · exact hagain.keys (h.keys roll hroll)
    · exact h.keys r hold
  · intro r hr
    rcases mem_setRoll hr with rfl | ⟨hold, -⟩
    · exact hagain.valid (h.valid roll hroll)
    · exact h.valid r hold
  · intro r hr
    rcases mem_setRoll hr with rfl | ⟨hold, -⟩
    · rw [hagain.itemGUID]
      exact h.guid roll hroll
    · exact h.guid r hold
  · rw [setRoll_guids]
    exact h.distinct
  · intro r hr id hid
    rcases mem_setRoll hr with rfl | ⟨hold, -⟩
    · exact h.rolled roll hroll id (hagain.loot ▸ hid)
    · exact h.rolled r hold id hid
  · exact h.gave
  intro id slot
  have hcount : (s.setRoll roll').rolls.countP (isFor id slot) =
      s.rolls.countP (isFor id slot) := by
    unfold State.setRoll
    rw [countP_map]
    refine countP_congr fun r hr => ?_
    rw [Function.comp_apply, hsame r hr id slot]
  rw [hcount]
  exact h.once id slot

theorem countP_filter_add_le (p : Roll → Bool) {l : List Roll} (hroll : roll ∈ l) :
    (l.filter fun r => r.itemGUID ≠ roll.itemGUID).countP p + (if p roll then 1 else 0) ≤
      l.countP p := by
  induction l with
  | nil => cases hroll
  | cons r l ih =>
    have hsub : (l.filter fun r => r.itemGUID ≠ roll.itemGUID).countP p ≤ l.countP p :=
      Sublist.countP_le filter_sublist
    rw [countP_cons]
    by_cases hguid : r.itemGUID = roll.itemGUID
    · rw [filter_cons_of_neg (by simpa using hguid)]
      rcases mem_cons.mp hroll with rfl | hmem
      · omega
      have hrest := ih hmem
      omega
    rw [filter_cons_of_pos (by simpa using hguid), countP_cons]
    rcases mem_cons.mp hroll with rfl | hmem
    · exact absurd rfl hguid
    have hrest := ih hmem
    omega

theorem Frame.over (h : Frame s) (hroll : roll ∈ s.rolls) (ho : Over s t roll) : Frame t := by
  obtain ⟨won, awarded, hcounted, -⟩ := ho.counted
  have hmem (r : Roll) (hr : r ∈ t.rolls) : r ∈ s.rolls := by
    rw [ho.rolls] at hr
    exact (mem_filter.mp hr).1
  constructor
  · exact fun r hr => h.few r (hmem r hr)
  · exact fun r hr => h.keys r (hmem r hr)
  · exact fun r hr => h.valid r (hmem r hr)
  · intro r hr
    rw [ho.nextGUID]
    exact h.guid r (hmem r hr)
  · rw [ho.rolls]
    exact h.distinct.sublist (List.Sublist.map _ filter_sublist)
  · intro r hr id hid
    rw [ho.loots id]
    exact h.rolled r (hmem r hr) id hid
  · intro c hc id slot hgave
    rw [ho.loots id]
    rw [hcounted] at hc
    rcases mem_append.mp hc with hold | hnew
    · exact h.gave c hold id slot hgave
    rw [mem_singleton.mp hnew] at hgave
    simp only [Counted.gave, isFor, Bool.and_eq_true, decide_eq_true_eq] at hgave
    exact h.rolled roll hroll id hgave.2.1
  intro id slot
  have hle := countP_filter_add_le (isFor id slot) hroll
  have hold := h.once id slot
  rw [ho.rolls, hcounted, countP_append, countP_singleton]
  have hnew : (if Counted.gave id slot ⟨roll, won, awarded⟩ = true then 1 else 0) ≤
      if roll.isFor id slot = true then 1 else 0 := by
    split
    · rename_i hgave
      exact Nat.le_of_eq (if_pos (Bool.and_eq_true_iff.mp hgave).2).symm
    · exact Nat.zero_le _
  omega

theorem Inv.over (h : Inv s) (hroll : roll ∈ s.rolls) (ho : Over s t roll) : Inv t := by
  have hframe := h.frame.over hroll ho
  obtain ⟨won, awarded, hcounted, hright⟩ := ho.counted
  refine ⟨hframe, hframe.right (fun r hr => ?_) fun c hc => ?_⟩
  · rw [ho.rolls] at hr
    exact h.right.tallied r (mem_filter.mp hr).1
  rw [hcounted] at hc
  rcases mem_append.mp hc with hold | hnew
  · exact h.right.counted c hold
  rw [mem_singleton.mp hnew]
  exact hright (h.right.tallied roll hroll)

theorem Inv.setRoll (h : Inv s) (hroll : roll ∈ s.rolls) {roll' : Roll}
    (hagain : roll.Again roll') (htallied : roll'.Tallied) : Inv (s.setRoll roll') := by
  have hframe := h.frame.setRoll hroll hagain
  refine ⟨hframe, hframe.right (fun r hr => ?_) h.right.counted⟩
  rcases mem_setRoll hr with rfl | ⟨hold, -⟩
  · exact htallied
  · exact h.right.tallied r hold

/-! ### Votes that are counted -/

theorem keys_setVote (guid : ℕ) (v : RollVote) (votes : List (ℕ × RollVote)) :
    (setVote guid v votes).map Prod.fst = votes.map Prod.fst := by
  induction votes with
  | nil => rfl
  | cons e votes ih =>
    rw [setVote]
    split
    · rename_i he
      rw [map_cons, map_cons, he]
    · rw [map_cons, map_cons, ih]

theorem mem_setVote {e : ℕ × RollVote} (he : e ∈ setVote guid v votes) :
    e = (guid, v) ∨ e ∈ votes := by
  induction votes with
  | nil => exact .inr he
  | cons a votes ih =>
    rw [setVote] at he
    split at he
    · exact (mem_cons.mp he).imp_right (mem_cons_of_mem a)
    rcases mem_cons.mp he with rfl | hrest
    · exact .inr mem_cons_self
    · exact (ih hrest).imp_right (mem_cons_of_mem a)

theorem choiceVote_valid (h : choiceVote choice = some v) : v ≠ .notValid := by
  match choice, h with
  | 0, rfl => decide
  | 1, rfl => decide
  | 2, rfl => decide
  | 3, rfl => decide

theorem choiceVote_none_iff : choiceVote choice = none ↔ ¬choice < 4 := by
  match choice with
  | 0 => simp [choiceVote]
  | 1 => simp [choiceVote]
  | 2 => simp [choiceVote]
  | 3 => simp [choiceVote]
  | n + 4 => simp [choiceVote]

theorem again_choose (roll : Roll) (guid choice : ℕ) : roll.Again (roll.choose guid choice) := by
  have hfixed : (roll.choose guid choice).itemGUID = roll.itemGUID ∧
      (roll.choose guid choice).loot = roll.loot ∧
      (roll.choose guid choice).itemSlot = roll.itemSlot := by
    match choice with
    | 0 => exact ⟨rfl, rfl, rfl⟩
    | 1 => exact ⟨rfl, rfl, rfl⟩
    | 2 => exact ⟨rfl, rfl, rfl⟩
    | 3 => exact ⟨rfl, rfl, rfl⟩
    | n + 4 => exact ⟨rfl, rfl, rfl⟩
  cases hchoice : choiceVote choice with
  | none =>
    rw [choose_none roll guid hchoice]
    exact .refl roll
  | some v =>
    have hvotes := (choose_some roll guid hchoice).1
    refine ⟨hfixed.1, hfixed.2.1, hfixed.2.2, fun hfew => ?_, fun hkeys => ?_, fun hvalid e he => ?_⟩
    · rw [hvotes, length_setVote]
      exact hfew
    · rw [hvotes, keys_setVote]
      exact hkeys
    rw [hvotes] at he
    rcases mem_setVote he with rfl | hold
    · exact choiceVote_valid hchoice
    · exact hvalid e hold

theorem again_drop (roll : Roll) (guid : ℕ) : roll.Again (roll.drop guid) := by
  unfold Roll.drop
  cases roll.vote guid with
  | none => exact .refl roll
  | some v =>
    refine ⟨rfl, rfl, rfl, fun hfew => ?_, fun hkeys => ?_, fun hvalid e he => ?_⟩
    · exact Nat.le_trans length_eraseP_le hfew
    · exact hkeys.sublist (List.Sublist.map _ eraseP_sublist)
    · exact hvalid e (mem_of_mem_eraseP he)

theorem vote_valid (h : Frame s) (hroll : roll ∈ s.rolls) (hv : roll.vote guid = some v) :
    v ≠ .notValid := by
  obtain ⟨e, he, rfl⟩ := map_eq_some_iff.mp hv
  exact h.valid roll hroll e (mem_of_find?_eq_some he)

theorem mem_of_getRoll {itemGUID : ℕ} (h : s.getRoll itemGUID = some roll) :
    roll ∈ s.rolls ∧ roll.itemGUID = itemGUID ∧ roll.loot ≠ none := by
  have hfound := find?_some h
  simp only [Bool.and_eq_true, decide_eq_true_eq] at hfound
  refine ⟨mem_of_find?_eq_some h, hfound.1, fun hnone => ?_⟩
  rw [hnone] at hfound
  cases hfound.2

theorem countChoice_right_iff (h : Inv s) (hroll : roll ∈ s.rolls) (hloot : roll.loot ≠ none)
    (w : World) (player choice : ℕ) :
    let u := s.setRoll (roll.choose player choice)
    let t := if (roll.choose player choice).totalPass + (roll.choose player choice).totalNeed +
        (roll.choose player choice).totalGreed ≥ (roll.choose player choice).totalPlayersRolling then
      u.countTheRoll w (roll.choose player choice) else u
    Frame t ∧ (t.Right ↔ (roll.choose player choice).Tallied) := by
  have hagain := again_choose roll player choice
  have hmem : roll.choose player choice ∈ (s.setRoll (roll.choose player choice)).rolls :=
    setRoll_mem hroll hagain.itemGUID
  have hframe := h.frame.setRoll hroll hagain
  have hover : Over (s.setRoll (roll.choose player choice))
      ((s.setRoll (roll.choose player choice)).countTheRoll w (roll.choose player choice))
      (roll.choose player choice) := countTheRoll_spec (hagain.loot ▸ hloot) w
  split
  · refine ⟨hframe.over hmem hover, fun hright => ?_, fun htallied => ?_⟩
    · obtain ⟨won, awarded, hcounted, -⟩ := hover.counted
      refine (hright.counted ⟨_, won, awarded⟩ ?_).tallied
      rw [hcounted]
      exact mem_append_right _ (mem_singleton_self _)
    · exact ((h.setRoll hroll hagain htallied).over hmem hover).right
  refine ⟨hframe, fun hright => hright.tallied _ hmem, fun htallied => ?_⟩
  exact (h.setRoll hroll hagain htallied).right

/-- **A vote** leaves everything right exactly if it is the player's first. -/
theorem vote_right_iff (h : Inv s) (w : World) (player itemGUID choice : ℕ) :
    Frame (s.countRollVote w player itemGUID choice) ∧
      ((s.countRollVote w player itemGUID choice).Right ↔
        Fresh s (.vote w player itemGUID choice)) := by
  have hkeep (hfresh : Fresh s (.vote w player itemGUID choice)) :
      Frame s ∧ (s.Right ↔ Fresh s (.vote w player itemGUID choice)) :=
    ⟨h.frame, fun _ => hfresh, fun _ => h.right⟩
  unfold countRollVote
  cases hget : s.getRoll itemGUID with
  | none =>
    refine hkeep fun roll hroll => ?_
    rw [hget] at hroll
    cases hroll
  | some roll =>
    obtain ⟨hroll, -, hloot⟩ := mem_of_getRoll hget
    have hfreshIff : Fresh s (.vote w player itemGUID choice) ↔ (choice < 4 →
        (∀ loot ∈ s.getLoot roll, loot.items ≠ []) →
          ∀ v ∈ roll.vote player, v = .notEmitedYet) := by
      constructor
      · intro hfresh
        exact hfresh roll hget
      intro hfresh other hother
      rw [hget] at hother
      cases hother
      exact hfresh
    dsimp only
    split
    · rename_i hvote
      refine hkeep (hfreshIff.mpr fun _ _ v hv => ?_)
      rw [hvote] at hv
      cases hv
    rename_i hvote
    obtain ⟨v, hv⟩ := ne_none_iff_exists'.mp hvote
    split
    · rename_i hempty
      obtain ⟨loot, hloot, hitems⟩ := hempty
      exact hkeep (hfreshIff.mpr fun _ hall => absurd hitems (hall loot hloot))
    rename_i hitems
    obtain ⟨hframe, hright⟩ := countChoice_right_iff h hroll hloot w player choice
    refine ⟨hframe, hright.trans (Iff.trans ?_ hfreshIff.symm)⟩
    cases hchoice : choiceVote choice with
    | none =>
      rw [choose_none roll player hchoice]
      exact ⟨fun _ hlt => absurd hlt (choiceVote_none_iff.mp hchoice),
        fun _ => h.right.tallied roll hroll⟩
    | some v' =>
      rw [choose_tallied_iff (h.right.tallied roll hroll) (h.frame.few roll hroll)
        (vote_valid h.frame hroll hv) hv hchoice, hv]
      have hlt : choice < 4 := by
        by_contra hge
        rw [choiceVote_none_iff.mpr hge] at hchoice
        cases hchoice
      constructor
      · rintro rfl _ _ v hv
        cases hv
        rfl
      intro hfresh
      refine hfresh hlt (fun loot hloot hnil => hitems ⟨loot, hloot, hnil⟩) v rfl

/-! ### Members who leave, and timers -/

theorem vote_drop (hkeys : (roll.playerVote.map Prod.fst).Nodup) (guid : ℕ) :
    (roll.drop guid).vote guid = none := by
  have herase (votes : List (ℕ × RollVote)) (hnodup : (votes.map Prod.fst).Nodup) :
      (votes.eraseP fun e => e.1 = guid).find? (·.1 = guid) = none := by
    induction votes with
    | nil => rfl
    | cons e votes ih =>
      rw [map_cons, nodup_cons] at hnodup
      by_cases he : e.1 = guid
      · rw [eraseP_cons_of_pos (by simpa using he), find?_eq_none]
        intro other hother heq
        refine hnodup.1 (he ▸ mem_map.mpr ⟨other, hother, ?_⟩)
        simpa using heq
      rw [eraseP_cons_of_neg (by simpa using he),
        find?_cons_of_neg (by simpa using he)]
      exact ih hnodup.2
  unfold Roll.drop
  cases hv : roll.vote guid with
  | none => exact hv
  | some v =>
    unfold vote
    rw [herase roll.playerVote hkeys]
    rfl

/-- One roll of a member who leaves: his vote is taken back, and nothing else happens. -/
theorem removeMember_one (hdistinct : (s.rolls.map itemGUID).Nodup) (hroll : roll ∈ s.rolls)
    (hkeys : (roll.playerVote.map Prod.fst).Nodup) (w : World) (guid : ℕ) :
    (s.setRoll (roll.drop guid)).countRollVote w guid roll.itemGUID 4 =
      s.setRoll (roll.drop guid) := by
  have hagain := again_drop roll guid
  unfold countRollVote
  cases hget : (s.setRoll (roll.drop guid)).getRoll roll.itemGUID with
  | none => rfl
  | some other =>
    obtain ⟨hother, hguid, -⟩ := mem_of_getRoll hget
    have hsame : other = roll.drop guid := by
      rw [← setRoll_guids s (roll.drop guid)] at hdistinct
      exact inj_on_of_nodup_map hdistinct hother (setRoll_mem hroll hagain.itemGUID)
        (hguid.trans hagain.itemGUID.symm)
    dsimp only
    rw [hsame, vote_drop hkeys, if_pos rfl]

theorem inv_removeMember (h : Inv s) (w : World) (guid : ℕ) : Inv (s.removeMember w guid) := by
  have hloop (rolls : List Roll) (s : State) (h : Inv s) (hrolls : ∀ roll ∈ rolls, roll ∈ s.rolls)
      (hnodup : (rolls.map itemGUID).Nodup) :
      Inv (rolls.foldl (fun s roll => if roll.vote guid = none then s
        else (s.setRoll (roll.drop guid)).countRollVote w guid roll.itemGUID 4) s) := by
    induction rolls generalizing s with
    | nil => exact h
    | cons roll rolls ih =>
      have hroll := hrolls roll mem_cons_self
      rw [map_cons, nodup_cons] at hnodup
      rw [foldl_cons]
      split
      · exact ih s h (fun r hr => hrolls r (mem_cons_of_mem roll hr)) hnodup.2
      rw [removeMember_one h.frame.distinct hroll (h.frame.keys roll hroll) w guid]
      refine ih _ (h.setRoll hroll (again_drop roll guid) (drop_tallied
        (h.right.tallied roll hroll) (h.frame.few roll hroll) guid)) (fun r hr => ?_) hnodup.2
      have hne : r.itemGUID ≠ (roll.drop guid).itemGUID := by
        rw [(again_drop roll guid).itemGUID]
        exact fun heq => hnodup.1 (heq ▸ mem_map_of_mem hr)
      exact mem_map.mpr ⟨r, hrolls r (mem_cons_of_mem roll hr), if_neg hne⟩
  exact hloop s.rolls s h (fun _ hr => hr) h.frame.distinct

theorem inv_endRoll (h : Inv s) (w : World) (loot : ℕ) : Inv (s.endRoll w loot) := by
  have hloop (rolls : List Roll) (s : State) (h : Inv s)
      (hrolls : ∀ roll ∈ rolls, roll ∈ s.rolls ∧ roll.loot ≠ none)
      (hnodup : (rolls.map itemGUID).Nodup) :
      Inv (rolls.foldl (fun s roll => s.countTheRoll w roll) s) := by
    induction rolls generalizing s with
    | nil => exact h
    | cons roll rolls ih =>
      obtain ⟨hroll, hloot⟩ := hrolls roll mem_cons_self
      rw [map_cons, nodup_cons] at hnodup
      have hover := countTheRoll_spec (s := s) hloot w
      refine ih _ (h.over hroll hover) (fun r hr => ?_) hnodup.2
      obtain ⟨hmem, hlink⟩ := hrolls r (mem_cons_of_mem roll hr)
      refine ⟨?_, hlink⟩
      rw [hover.rolls]
      refine mem_filter.mpr ⟨hmem, decide_eq_true fun heq => ?_⟩
      exact hnodup.1 (heq ▸ mem_map_of_mem hr)
  refine hloop _ s h (fun roll hroll => ?_) (h.frame.distinct.sublist
    (List.Sublist.map _ filter_sublist))
  obtain ⟨hmem, hlink⟩ := mem_filter.mp hroll
  refine ⟨hmem, fun hnone => ?_⟩
  rw [hnone] at hlink
  cases of_decide_eq_true hlink

/-! ### New rolls -/

theorem nodup_insertVote (h : guid ∉ votes.map Prod.fst) (hnodup : (votes.map Prod.fst).Nodup)
    (v : RollVote) : ((insertVote guid v votes).map Prod.fst).Nodup := by
  induction votes with
  | nil => exact nodup_singleton guid
  | cons e votes ih =>
    rw [map_cons, mem_cons, not_or] at h
    rw [map_cons, nodup_cons] at hnodup
    rw [insertVote]
    split
    · rw [map_cons, map_cons, nodup_cons, mem_cons, not_or, nodup_cons]
      exact ⟨h, hnodup⟩
    rw [if_neg h.1, map_cons, nodup_cons]
    refine ⟨fun hmem => ?_, ih h.2 hnodup.2⟩
    rcases mem_insertVote guid v votes e.1 hmem with heq | hold
    · exact h.1 heq.symm
    · exact hnodup.1 hold

theorem mem_entry_insertVote {e : ℕ × RollVote} (he : e ∈ insertVote guid v votes) :
    e = (guid, v) ∨ e ∈ votes := by
  induction votes with
  | nil => exact .inl (mem_singleton.mp he)
  | cons a votes ih =>
    rw [insertVote] at he
    split at he
    · exact mem_cons.mp he
    split at he
    · exact (mem_cons.mp he).imp_right (mem_cons_of_mem a)
    rcases mem_cons.mp he with rfl | hrest
    · exact .inr mem_cons_self
    · exact (ih hrest).imp_right (mem_cons_of_mem a)

/-- A roll that is being made: it has the votes of those who are in. -/
structure Roll.Made (roll : Roll) (loot slot itemGUID : ℕ) : Prop where
  tallied : roll.Tallied
  keys : (roll.playerVote.map Prod.fst).Nodup
  valid : ∀ e ∈ roll.playerVote, e.2 ≠ .notValid
  itemGUID : roll.itemGUID = itemGUID
  loot : roll.loot = some loot
  itemSlot : roll.itemSlot = slot

theorem Roll.Made.enter {itemGUID : ℕ} (h : roll.Made loot slot itemGUID)
    (hlt : roll.playerVote.length < maxRaidSize) {m : RollMember}
    (hm : m.guid ∉ roll.playerVote.map Prod.fst) (pass : Bool) :
    (roll.enter m pass).Made loot slot itemGUID := by
  have hmax : maxRaidSize = 40 := rfl
  have hle := votesFor_le (· = .pass) roll.playerVote
  have hnew (p : RollVote → Bool) := votesFor_insertVote (p := p) hm
    (if pass then RollVote.pass else .notEmitedYet)
  refine ⟨⟨?_, ?_, ?_⟩, nodup_insertVote hm h.keys _, fun e he => ?_, h.itemGUID, h.loot,
    h.itemSlot⟩
  · refine h.tallied.need.trans (Eq.trans ?_ (hnew (· = .need)).symm)
    cases pass <;> rfl
  · refine h.tallied.greed.trans (Eq.trans ?_ (hnew isGreed).symm)
    cases pass <;> rfl
  · refine Eq.trans ?_ (hnew (· = .pass)).symm
    have hpass := h.tallied.pass
    cases pass with
    | false => exact hpass
    | true =>
      simp only [Roll.enter, if_true, decide_true]
      omega
  rcases mem_entry_insertVote he with rfl | hold
  · cases pass <;> simp
  · exact h.valid e hold

theorem made_fold {itemGUID : ℕ} (mayPass : Bool) (ms : List RollMember)
    (hnodup : (ms.map RollMember.guid).Nodup) (roll : Roll) (h : roll.Made loot slot itemGUID)
    (hapart : ∀ m ∈ ms, m.guid ∉ roll.playerVote.map Prod.fst)
    (hlength : roll.playerVote.length + ms.length ≤ maxRaidSize) :
    (ms.foldl (fun roll m => roll.enter m (mayPass && m.passOnGroupLoot)) roll).Made
        loot slot itemGUID ∧
      (ms.foldl (fun roll m => roll.enter m (mayPass && m.passOnGroupLoot)) roll).playerVote.length ≤
        maxRaidSize := by
  induction ms generalizing roll with
  | nil => exact ⟨h, hlength⟩
  | cons m ms ih =>
    rw [map_cons, nodup_cons] at hnodup
    rw [length_cons] at hlength
    have hgrow := length_insertVote m.guid
      (if (mayPass && m.passOnGroupLoot) = true then pass else .notEmitedYet)
      roll.playerVote
    refine ih hnodup.2 _ (h.enter (by omega) (hapart m mem_cons_self) _)
      (fun other hother hmem => ?_) ?_
    · rcases mem_insertVote _ _ _ other.guid hmem with heq | hold
      · exact hnodup.1 (heq ▸ mem_map_of_mem hother)
      · exact hapart other (mem_cons_of_mem m hother) hold
    refine Nat.le_trans (Nat.add_le_add_right hgrow _) ?_
    omega

/-- The rolls of a loot are being started, from a slot on. -/
structure Ready (s : State) (id slot : ℕ) : Prop where
  inv : Inv s
  rolled : (s.loots[id]?).map Loot.rolled = some true
  free : ∀ k, slot ≤ k → s.rolls.countP (Roll.isFor id k) + s.counted.countP (Counted.gave id k) = 0

theorem Ready.next (h : Ready s loot slot) : Ready s loot (slot + 1) :=
  ⟨h.inv, h.rolled, fun k hk => h.free k (by omega)⟩

theorem Ready.add (h : Ready s loot slot) (hnext : t.nextGUID = s.nextGUID + 1)
    (hloots : SameLoots s t) (hcounted : t.counted = s.counted) (new : List Roll)
    (hrolls : t.rolls = s.rolls ++ new) (hlength : new.length ≤ 1)
    (hnew : ∀ roll ∈ new, roll.Made loot slot s.nextGUID ∧
      roll.playerVote.length ≤ maxRaidSize) : Ready t loot (slot + 1) := by
  have hf := h.inv.frame
  have hmem (r : Roll) (hr : r ∈ t.rolls) : r ∈ s.rolls ∨ r ∈ new := by
    rw [hrolls] at hr
    exact mem_append.mp hr
  have hcount (id k : ℕ) : t.rolls.countP (isFor id k) + t.counted.countP (Counted.gave id k) =
      s.rolls.countP (isFor id k) + s.counted.countP (Counted.gave id k) +
        new.countP (isFor id k) := by
    rw [hrolls, hcounted, countP_append]
    omega
  have hother (id k : ℕ) (hne : ¬(id = loot ∧ k = slot)) : new.countP (isFor id k) = 0 := by
    refine countP_eq_zero.mpr fun roll hroll hfor => hne ?_
    obtain ⟨hmade, -⟩ := hnew roll hroll
    rw [isFor, hmade.loot, hmade.itemSlot] at hfor
    simp only [some.injEq, Bool.and_eq_true, decide_eq_true_eq] at hfor
    exact ⟨hfor.1.symm, hfor.2.symm⟩
  have hframe : Frame t := by
    constructor
    · intro r hr
      rcases hmem r hr with hold | hmade
      · exact hf.few r hold
      · exact (hnew r hmade).2
    · intro r hr
      rcases hmem r hr with hold | hmade
      · exact hf.keys r hold
      · exact (hnew r hmade).1.keys
    · intro r hr
      rcases hmem r hr with hold | hmade
      · exact hf.valid r hold
      · exact (hnew r hmade).1.valid
    · intro r hr
      rw [hnext]
      rcases hmem r hr with hold | hmade
      · exact Nat.lt_succ_of_lt (hf.guid r hold)
      rw [(hnew r hmade).1.itemGUID]
      exact Nat.lt_succ_self _
    · rw [hrolls, map_append]
      refine nodup_append.mpr ⟨hf.distinct, ?_, fun a ha c hc heq => ?_⟩
      · match new, hlength with
        | [], _ => exact nodup_nil
        | [r], _ => exact nodup_singleton _
      obtain ⟨old, hold, rfl⟩ := mem_map.mp ha
      obtain ⟨made, hmade, rfl⟩ := mem_map.mp hc
      have hlt := hf.guid old hold
      rw [heq, (hnew made hmade).1.itemGUID] at hlt
      exact Nat.lt_irrefl _ hlt
    · intro r hr id hid
      rw [hloots id]
      rcases hmem r hr with hold | hmade
      · exact hf.rolled r hold id hid
      rw [(hnew r hmade).1.loot] at hid
      cases hid
      exact h.rolled
    · intro c hc id k hgave
      rw [hloots id]
      exact hf.gave c (hcounted ▸ hc) id k hgave
    intro id k
    rw [hcount]
    by_cases heq : id = loot ∧ k = slot
    · rw [heq.1, heq.2, h.free slot (Nat.le_refl _), Nat.zero_add]
      exact Nat.le_trans countP_le_length hlength
    rw [hother id k heq]
    exact hf.once id k
  refine ⟨⟨hframe, hframe.right (fun r hr => ?_) fun c hc => ?_⟩, ?_, fun k hk => ?_⟩
  · rcases hmem r hr with hold | hmade
    · exact h.inv.right.tallied r hold
    · exact (hnew r hmade).1.tallied
  · exact h.inv.right.counted c (hcounted ▸ hc)
  · rw [hloots loot]
    exact h.rolled
  · rw [hcount, h.free k (by omega), hother loot k (by omega)]

theorem ready_startRoll (h : Ready s loot slot) (party : Party) (item : LootItem)
    (mayPass : Bool) : Ready (s.startRoll party loot slot item mayPass) loot (slot + 1) := by
  have hsub : (party.members.filter fun m => m.session && item.allowed m.guid && m.near).Sublist
      party.members := filter_sublist
  have hmade := made_fold mayPass
    (party.members.filter fun m => m.session && item.allowed m.guid && m.near)
    (party.nodup.sublist (hsub.map _))
    ⟨s.nextGUID, item.itemid, some loot, slot, [], 0, 0, 0, 0⟩
    ⟨⟨rfl, rfl, rfl⟩, nodup_nil, nofun, rfl, rfl, rfl⟩
    nofun
    (by rw [length_nil, Nat.zero_add]; exact Nat.le_trans hsub.length_le party.few)
  unfold startRoll
  dsimp only
  generalize (party.members.filter fun m => m.session && item.allowed m.guid && m.near).foldl _ _ =
    roll at hmade ⊢
  split
  · have hsame := sameLoots_modifyItem s roll fun item => { item with isBlocked := true }
    refine h.add ?_ ?_ ?_ [roll] ?_ (Nat.le_refl 1) fun r hr => ?_
    · unfold modifyItem
      split <;> rfl
    · unfold modifyItem at hsame ⊢
      split
      · exact .refl s
      rename_i hid
      rw [hid] at hsame
      exact hsame
    · unfold modifyItem
      split <;> rfl
    · rfl
    rw [mem_singleton.mp hr]
    exact hmade
  refine h.add rfl (.refl s) rfl [] ?_ (Nat.zero_le 1) nofun
  exact (append_nil _).symm

theorem ready_foldl {f : State → LootItem × ℕ → State} (party : Party)
    (hf : ∀ s item slot, f s (item, slot) = s ∨
      ∃ mayPass, f s (item, slot) = s.startRoll party loot slot item mayPass)
    (items : List LootItem) (s : State) (slot : ℕ) (h : Ready s loot slot) :
    Ready ((items.zipIdx slot).foldl f s) loot (slot + items.length) := by
  induction items generalizing s slot with
  | nil => exact h
  | cons item items ih =>
    have hone : Ready (f s (item, slot)) loot (slot + 1) := by
      rcases hf s item slot with hsame | ⟨mayPass, hstart⟩
      · rw [hsame]
        exact h.next
      rw [hstart]
      exact ready_startRoll h party item mayPass
    have hrest := ih _ _ hone
    rw [Nat.add_assoc, Nat.add_comm 1] at hrest
    exact hrest

theorem ready_first (h : Inv s) {id : ℕ} {l : Loot} (hloot : s.loots[id]? = some l)
    (hrolled : l.rolled = false) :
    Ready { s with loots := s.loots.modify id fun loot => { loot with rolled := true } } id 0 := by
  have hmodify (k : ℕ) (hk : (s.loots[k]?).map Loot.rolled = some true) :
      ((s.loots.modify id fun loot => { loot with rolled := true })[k]?).map Loot.rolled =
        some true := by
    rw [getElem?_modify]
    obtain ⟨loot, hk, htrue⟩ := map_eq_some_iff.mp hk
    rw [hk]
    by_cases hid : id = k
    · simp [hid]
    · simp [hid, htrue]
  have hnone : (s.loots[id]?).map Loot.rolled ≠ some true := by
    rw [hloot, map_some, hrolled]
    simp
  have hf := h.frame
  refine ⟨⟨⟨hf.few, hf.keys, hf.valid, hf.guid, hf.distinct, fun roll hroll k hk =>
    hmodify k (hf.rolled roll hroll k hk), fun c hc k slot hgave =>
      hmodify k (hf.gave c hc k slot hgave), hf.once⟩, h.right.tallied, h.right.counted,
    h.right.once⟩, ?_, fun k _ => ?_⟩
  · dsimp only
    rw [getElem?_modify, hloot]
    simp
  have hrolls : s.rolls.countP (isFor id k) = 0 := by
    refine countP_eq_zero.mpr fun roll hroll hfor => hnone (hf.rolled roll hroll id ?_)
    exact of_decide_eq_true (Bool.and_eq_true_iff.mp hfor).1
  have hgave : s.counted.countP (Counted.gave id k) = 0 :=
    countP_eq_zero.mpr fun c hc hgave => hnone (hf.gave c hc id k hgave)
  rw [hrolls, hgave]

/-- **Rolls are started.** -/
theorem inv_groupLoot (h : Inv s) (party : Party) (id : ℕ) : Inv (s.groupLoot party id) := by
  unfold groupLoot
  split
  · exact h
  rename_i loot hloot
  split
  · exact h
  rename_i hrolled
  have hitems := ready_foldl party (f := lootItem party id) (fun s item slot => ?_)
    loot.items _ 0 (ready_first h hloot (by simpa using hrolled))
  · rw [Nat.zero_add] at hitems
    refine (ready_foldl party (fun s item slot => ?_) loot.questItems _ _ hitems).inv
    unfold lootQuestItem
    split
    · exact .inr ⟨false, rfl⟩
    · exact .inl rfl
  unfold lootItem
  split
  · exact .inl rfl
  split
  · exact .inr ⟨true, rfl⟩
  · exact .inl rfl

/-! ### Loots -/

theorem inv_fill (h : Inv s) (items questItems : List LootItem) :
    Inv (s.fill items questItems) := by
  have happend (k : ℕ) (hk : (s.loots[k]?).map Loot.rolled = some true) :
      ((s.loots ++ [⟨items, questItems, false⟩])[k]?).map Loot.rolled = some true := by
    obtain ⟨loot, hk, htrue⟩ := map_eq_some_iff.mp hk
    obtain ⟨hlt, -⟩ := List.getElem?_eq_some_iff.mp hk
    rw [getElem?_append_left hlt, hk, map_some, htrue]
  have hf := h.frame
  exact ⟨⟨hf.few, hf.keys, hf.valid, hf.guid, hf.distinct, fun roll hroll k hk =>
    happend k (hf.rolled roll hroll k hk), fun c hc k slot hgave =>
      happend k (hf.gave c hc k slot hgave), hf.once⟩, h.right.tallied, h.right.counted,
    h.right.once⟩

/-- The link of a roll to a loot that is cleared is cut. -/
def Roll.cut (id : ℕ) (roll : Roll) : Roll :=
  if roll.loot = some id then { roll with loot := none } else roll

theorem cut_spec (id : ℕ) (roll : Roll) :
    (roll.cut id).playerVote = roll.playerVote ∧ (roll.cut id).itemGUID = roll.itemGUID ∧
      (roll.Tallied → (roll.cut id).Tallied) ∧
      (∀ k, (roll.cut id).loot = some k → roll.loot = some k) ∧
      ∀ k slot, (roll.cut id).isFor k slot = true → roll.isFor k slot = true := by
  unfold cut
  split
  · refine ⟨rfl, rfl, fun h => { h with }, nofun,
      fun k slot hfor => ?_⟩
    have hnone := of_decide_eq_true (Bool.and_eq_true_iff.mp hfor).1
    cases hnone
  · exact ⟨rfl, rfl, fun h => h, fun _ hk => hk, fun _ _ hfor => hfor⟩

theorem inv_clear (h : Inv s) (id : ℕ) : Inv (s.clear id) := by
  have hrolls : (s.clear id).rolls = s.rolls.map (cut id) := rfl
  have hloots (k : ℕ) : ((s.clear id).loots[k]?).map Loot.rolled = (s.loots[k]?).map Loot.rolled := by
    change ((s.loots.modify id fun loot => ⟨[], [], loot.rolled⟩)[k]?).map Loot.rolled = _
    rw [getElem?_modify]
    cases s.loots[k]? with
    | none => rfl
    | some loot =>
      split <;> rfl
  have hmem (r : Roll) (hr : r ∈ (s.clear id).rolls) : ∃ roll ∈ s.rolls, r = roll.cut id := by
    obtain ⟨roll, hroll, rfl⟩ := mem_map.mp hr
    exact ⟨roll, hroll, rfl⟩
  have hf := h.frame
  have hframe : Frame (s.clear id) := by
    constructor
    · intro r hr
      obtain ⟨roll, hroll, rfl⟩ := hmem r hr
      rw [(cut_spec id roll).1]
      exact hf.few roll hroll
    · intro r hr
      obtain ⟨roll, hroll, rfl⟩ := hmem r hr
      rw [(cut_spec id roll).1]
      exact hf.keys roll hroll
    · intro r hr
      obtain ⟨roll, hroll, rfl⟩ := hmem r hr
      rw [(cut_spec id roll).1]
      exact hf.valid roll hroll
    · intro r hr
      obtain ⟨roll, hroll, rfl⟩ := hmem r hr
      rw [(cut_spec id roll).2.1]
      exact hf.guid roll hroll
    · have hguids : (s.clear id).rolls.map itemGUID = s.rolls.map itemGUID := by
        rw [hrolls, List.map_map]
        exact List.map_congr_left fun roll _ => (cut_spec id roll).2.1
      rw [hguids]
      exact hf.distinct
    · intro r hr k hk
      obtain ⟨roll, hroll, rfl⟩ := hmem r hr
      rw [hloots]
      exact hf.rolled roll hroll k ((cut_spec id roll).2.2.2.1 k hk)
    · intro c hc k slot hgave
      rw [hloots]
      exact hf.gave c hc k slot hgave
    intro k slot
    have hle : (s.clear id).rolls.countP (isFor k slot) ≤ s.rolls.countP (isFor k slot) := by
      rw [hrolls, countP_map]
      refine countP_mono_left fun roll _ hfor => ?_
      exact (cut_spec id roll).2.2.2.2 k slot hfor
    exact Nat.le_trans (Nat.add_le_add_right hle _) (hf.once k slot)
  refine ⟨hframe, hframe.right (fun r hr => ?_) h.right.counted⟩
  obtain ⟨roll, hroll, rfl⟩ := hmem r hr
  exact (cut_spec id roll).2.2.1 (h.right.tallied roll hroll)

/-! ### Runs -/

/-- **One request** leaves everything right exactly if no vote is a second one. -/
theorem step_right_iff (h : Inv s) (r : Request) :
    ((step s r).Right ↔ Fresh s r) ∧ ((step s r).Right → Inv (step s r)) := by
  have hinv (h : Inv (step s r)) (hfresh : Fresh s r) :
      ((step s r).Right ↔ Fresh s r) ∧ ((step s r).Right → Inv (step s r)) :=
    ⟨⟨fun _ => hfresh, fun _ => h.right⟩, fun _ => h⟩
  cases r with
  | fill items questItems => exact hinv (inv_fill h items questItems) trivial
  | groupLoot party loot => exact hinv (inv_groupLoot h party loot) trivial
  | vote w player itemGUID choice =>
    obtain ⟨hframe, hright⟩ := vote_right_iff h w player itemGUID choice
    exact ⟨hright, fun ht => ⟨hframe, ht⟩⟩
  | removeMember w guid => exact hinv (inv_removeMember h w guid) trivial
  | endRoll w loot => exact hinv (inv_endRoll h w loot) trivial
  | clear loot => exact hinv (inv_clear h loot) trivial

theorem inv_start (lootThreshold : ℕ) : Inv (start lootThreshold) := by
  have hframe : Frame (start lootThreshold) :=
    ⟨nofun, nofun, nofun,
      nofun, nodup_nil, nofun, nofun,
      fun _ _ => Nat.zero_le 1⟩
  exact ⟨hframe, hframe.right nofun nofun⟩

/-- **The rolls of a group.**  From no rolls: after every request of a run the tallies are
those of the votes, all counted rolls had right tallies and right winners and no item was
given away twice, exactly if nobody chooses twice in one roll. -/
theorem rolls_right_iff (lootThreshold : ℕ) (rs : List Request) :
    Along step (fun s r => (step s r).Right) (start lootThreshold) rs ↔
      Along step Fresh (start lootThreshold) rs :=
  Along.iff_of_invariant (I := Inv) (fun _ r h => (step_right_iff h r).1)
    (fun _ r h => (step_right_iff h r).2) (inv_start lootThreshold)

/-- Players `1` and `2`. -/
def two : Party := ⟨[⟨1, true, true, false⟩, ⟨2, true, true, false⟩], by decide, by decide⟩

/-- Everybody is found and has room for everything, and the dice say zero. -/
def openHanded : World := ⟨fun _ => true, fun _ _ => true, fun _ => 0⟩

/-- A loot of one item, of quality 3 and allowed for everybody. -/
def oneItem : Request := .fill [⟨7, 3, false, false, fun _ => true, false, false⟩] []

/-- One item, rolled for by players `1` and `2`; player `2` chooses need and then pass, which
ends the roll. -/
def changedVote : List Request :=
  [oneItem, .groupLoot two 0, .vote openHanded 2 0 1, .vote openHanded 2 0 0]

/-- The item goes to player `1`, who has not voted, although nobody needs it any
more. -/
theorem changed_vote_awards_first : (changedVote.foldl step (start 2)).counted =
        [⟨⟨0, 7, some 0, 0, [(1, .notEmitedYet), (2, .pass)], 2, 1, 0, 1⟩, some 1, some 1⟩] ∧
      ¬Along step (fun s r => (step s r).Right) (start 2) changedVote := by
  have hcounted : (changedVote.foldl step (start 2)).counted =
      [⟨⟨0, 7, some 0, 0, [(1, .notEmitedYet), (2, .pass)], 2, 1, 0, 1⟩, some 1, some 1⟩] := by
    decide
  refine ⟨hcounted, ?_⟩
  rintro ⟨-, -, -, hright, -⟩
  have hneed := (hright.counted _ (hcounted ▸ mem_singleton_self _)).tallied.need
  exact absurd hneed (by decide)

end ZerosCore.Groups.LootRolls
