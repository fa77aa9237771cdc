/-
# When a roll is over

`CountRollVote` closes a roll when the tallies reach the number of players who take part.
`RemoveMember` takes the vote of a player who leaves out of the map and then calls
`CountRollVote` for him, which looks for his vote, finds none and returns before it compares
anything; `GroupLoot` starts a roll and never compares.  So a roll stays open if the last
player without an answer leaves, or if all players pass on group loot: until the next vote
or the timer.

A vote is recorded after the tallies are raised and these are never below the votes, so the
vote that answers for the last player does close the roll.  In a run every open roll waits
for somebody exactly if it is never the last undecided player who leaves and no roll is
started in which all pass (`rolls_open_iff`).
-/

import ZerosCore.Groups.RollTallies

namespace ZerosCore.Groups.LootRolls

open Lib List LootRolls.State Roll RollVote

/-! ### What should hold -/

/-- Somebody has not answered yet. -/
def Roll.Waits (roll : Roll) : Prop := ∃ e ∈ roll.playerVote, e.2 = .notEmitedYet

/-- Every roll that is open waits for somebody. -/
def State.Waits (s : State) : Prop := ∀ roll ∈ s.rolls, roll.Waits

/-- The members who take part in a roll for an item. -/
def Party.players (party : Party) (item : LootItem) : List RollMember :=
  party.members.filter fun m => m.session && item.allowed m.guid && m.near

/-- No roll is started in which all pass, and nobody leaves for whom alone a roll
waits. -/
def StillAsked (s : State) : Request → Prop
  | .groupLoot party id => ∀ loot : Loot, s.loots[id]? = some loot → loot.rolled = false →
      ∀ item ∈ loot.items, item.freeforall = false → item.quality ≥ s.lootThreshold →
        party.players item ≠ [] → ∃ m ∈ party.players item, m.passOnGroupLoot = false
  | .removeMember _ guid => ∀ roll ∈ s.rolls, roll.vote guid ≠ none →
      ∃ e ∈ roll.playerVote, e.1 ≠ guid ∧ e.2 = .notEmitedYet
  | _ => True

/-! ### Tallies that are not below the votes -/

variable {s t : State} {roll : Roll} {w : World} {guid player choice loot slot : ℕ}
  {v v' : RollVote} {votes : List (ℕ × RollVote)} {party : Party} {item : LootItem}

/-- The tallies of a roll count each vote at least once. -/
structure Roll.Covered (roll : Roll) : Prop where
  keys : (roll.playerVote.map Prod.fst).Nodup
  valid : ∀ e ∈ roll.playerVote, e.2 ≠ .notValid
  few : roll.playerVote.length ≤ maxRaidSize
  rolling : roll.totalPlayersRolling = roll.playerVote.length
  need : votesFor (· = .need) roll.playerVote ≤ roll.totalNeed
  greed : votesFor RollVote.isGreed roll.playerVote ≤ roll.totalGreed
  pass : votesFor (· = .pass) roll.playerVote ≤ roll.totalPass

/-- All votes that were counted for a roll. -/
def Roll.total (roll : Roll) : ℕ := roll.totalPass + roll.totalNeed + roll.totalGreed

theorem waits_iff (roll : Roll) :
    roll.Waits ↔ 0 < votesFor (· = .notEmitedYet) roll.playerVote := by
  unfold votesFor
  rw [countP_pos_iff]
  simp only [decide_eq_true_eq]
  exact Iff.rfl

/-- **Every vote is of one kind.** -/
theorem votes_partition (hvalid : ∀ e ∈ votes, e.2 ≠ .notValid) :
    votes.length = votesFor (· = .pass) votes + votesFor (· = .need) votes +
      votesFor isGreed votes + votesFor (· = .notEmitedYet) votes := by
  induction votes with
  | nil => rfl
  | cons e votes ih =>
    have hrest := ih fun e he => hvalid e (mem_cons_of_mem _ he)
    have hhead := hvalid e mem_cons_self
    obtain ⟨guid, v⟩ := e
    cases v with
    | notValid => exact absurd rfl hhead
    | pass | need | greed | disenchant | notEmitedYet => simp [isGreed]; omega

/-- **A roll in which all have answered** has reached the number of players. -/
theorem Roll.Covered.full (h : roll.Covered) (hwaits : ¬roll.Waits) :
    roll.total ≥ roll.totalPlayersRolling := by
  have hparts := votes_partition h.valid
  have hneed := h.need
  have hgreed := h.greed
  have hpass := h.pass
  rw [waits_iff] at hwaits
  rw [h.rolling, total]
  omega

theorem covered_choose (h : roll.Covered) (htotal : roll.total ≤ maxRaidSize)
    (hv : roll.vote guid = some v) (choice : ℕ) : (roll.choose guid choice).Covered := by
  have hmax : maxRaidSize = 40 := rfl
  have hagain := again_choose roll guid choice
  have hneed := h.need
  have hgreed := h.greed
  have hpass := h.pass
  rw [total] at htotal
  cases hchoice : choiceVote choice with
  | none =>
    rw [choose_none roll guid hchoice]
    exact h
  | some v' =>
    obtain ⟨hvotes, hneed', hgreed', hpass'⟩ := choose_some roll guid hchoice
    have hset (p : RollVote → Bool) := votesFor_setVote (p := p) hv v'
    refine ⟨hagain.keys h.keys, hagain.valid h.valid, hagain.few h.few, ?_, ?_, ?_, ?_⟩
    · have hrolling : (roll.choose guid choice).totalPlayersRolling = roll.totalPlayersRolling := by
        match choice with
        | 0 | 1 | 2 | 3 => rfl
        | n + 4 => rfl
      rw [hrolling, h.rolling, hvotes, length_setVote]
    · have hcount := hset (· = .need)
      simp only [decide_eq_true_eq] at hcount
      rw [hvotes, hneed']
      split
      · rename_i heq
        rw [if_pos heq] at hcount
        omega
      rename_i hne
      rw [if_neg hne] at hcount
      omega
    · have hcount := hset isGreed
      rw [hvotes, hgreed']
      split
      · rename_i heq
        rw [if_pos heq] at hcount
        omega
      rename_i hne
      rw [if_neg hne] at hcount
      omega
    have hcount := hset (· = .pass)
    simp only [decide_eq_true_eq] at hcount
    rw [hvotes, hpass']
    split
    · rename_i heq
      rw [if_pos heq] at hcount
      omega
    rename_i hne
    rw [if_neg hne] at hcount
    omega

theorem covered_erase {n : ℕ} {p : RollVote → Bool} {c : Prop} [Decidable c] (hc : c ↔ p v = true)
    (hle : votesFor p votes ≤ n) (hn : n ≤ maxRaidSize)
    (hv : (votes.find? fun e => e.1 = guid).map Prod.snd = some v) :
    votesFor p (votes.eraseP fun e => e.1 = guid) ≤ (if c then (n + 255) % 256 else n) ∧
      (if c then (n + 255) % 256 else n) ≤ n := by
  have hmax : maxRaidSize = 40 := rfl
  have hone := votesFor_erase (p := p) hv
  split
  · rename_i htrue
    rw [if_pos (hc.mp htrue)] at hone
    constructor <;> omega
  rename_i hfalse
  exact ⟨by omega, Nat.le_refl n⟩

theorem covered_drop (h : roll.Covered) (htotal : roll.total ≤ maxRaidSize) (guid : ℕ) :
    (roll.drop guid).Covered ∧ (roll.drop guid).total ≤ maxRaidSize := by
  have hagain := again_drop roll guid
  have hkeys := hagain.keys h.keys
  have hvalid := hagain.valid h.valid
  have hfew := hagain.few h.few
  rw [Roll.total] at htotal
  revert hkeys hvalid hfew
  unfold Roll.total Roll.drop
  cases hv : roll.vote guid with
  | none => exact fun _ _ _ => ⟨h, htotal⟩
  | some v =>
    intro hkeys hvalid hfew
    obtain ⟨e, hfound, he⟩ := Option.map_eq_some_iff.mp hv
    have hmem := mem_of_find?_eq_some hfound
    have hlength := length_eraseP_of_mem hmem (find?_some hfound)
    have hpos := length_pos_of_mem hmem
    have hmax : maxRaidSize = 40 := rfl
    have hfew' := h.few
    have hrolling := h.rolling
    obtain ⟨hneed, hneed'⟩ := covered_erase (c := v = .need) (by simp) h.need (by omega) hv
    obtain ⟨hgreed, hgreed'⟩ := covered_erase (c := v = .greed ∨ v = .disenchant)
      (by simp [isGreed]) h.greed (by omega) hv
    obtain ⟨hpass, hpass'⟩ := covered_erase (c := v = .pass) (by simp) h.pass (by omega) hv
    refine ⟨⟨hkeys, hvalid, hfew, ?_, hneed, hgreed, hpass⟩, ?_⟩
    · dsimp only
      rw [if_pos (he ▸ h.valid e hmem), hlength]
      omega
    dsimp only
    omega

/-! ### What every request keeps -/

/-- Tallies that cover the votes, and rolls with guids of their own. -/
structure Kept (s : State) : Prop where
  covered : ∀ roll ∈ s.rolls, roll.Covered ∧ roll.total ≤ maxRaidSize
  guid : ∀ roll ∈ s.rolls, roll.itemGUID < s.nextGUID
  distinct : (s.rolls.map Roll.itemGUID).Nodup

/-- Some rolls are gone, and nothing else happened to the rolls. -/
structure Fewer (s t : State) : Prop where
  rolls : t.rolls.Sublist s.rolls
  nextGUID : t.nextGUID = s.nextGUID

theorem Fewer.refl (s : State) : Fewer s s := ⟨Sublist.refl _, rfl⟩

theorem Fewer.trans {u : State} (h : Fewer s t) (h' : Fewer t u) : Fewer s u :=
  ⟨h'.rolls.trans h.rolls, h'.nextGUID.trans h.nextGUID⟩

theorem Kept.fewer (h : Kept s) (hfewer : Fewer s t) : Kept t := by
  have hmem (r : Roll) (hr : r ∈ t.rolls) : r ∈ s.rolls := hfewer.rolls.subset hr
  constructor
  · exact fun r hr => h.covered r (hmem r hr)
  · intro r hr
    rw [hfewer.nextGUID]
    exact h.guid r (hmem r hr)
  · exact h.distinct.sublist (hfewer.rolls.map _)

theorem State.Waits.fewer (h : s.Waits) (hfewer : Fewer s t) : t.Waits :=
  fun r hr => h r (hfewer.rolls.subset hr)

/-- **A roll that is counted** is gone, whether its loot is still there or not. -/
theorem countTheRoll_rolls (s : State) (w : World) (roll : Roll) :
    (s.countTheRoll w roll).rolls = s.rolls.filter (·.itemGUID ≠ roll.itemGUID) ∧
      (s.countTheRoll w roll).nextGUID = s.nextGUID := by
  by_cases hloot : roll.loot = none
  · unfold countTheRoll
    rw [if_pos hloot]
    exact ⟨rfl, rfl⟩
  have hover := countTheRoll_spec (s := s) hloot w
  exact ⟨hover.rolls, hover.nextGUID⟩

theorem fewer_countTheRoll (s : State) (w : World) (roll : Roll) :
    Fewer s (s.countTheRoll w roll) := by
  obtain ⟨hrolls, hnext⟩ := countTheRoll_rolls s w roll
  refine ⟨?_, hnext⟩
  rw [hrolls]
  exact filter_sublist

theorem Kept.setRoll (h : Kept s) {roll' : Roll} (hcovered : roll'.Covered)
    (htotal : roll'.total ≤ maxRaidSize) (hroll : roll ∈ s.rolls)
    (hguid : roll'.itemGUID = roll.itemGUID) : Kept (s.setRoll roll') := by
  constructor
  · intro r hr
    rcases mem_setRoll hr with rfl | ⟨hold, -⟩
    · exact ⟨hcovered, htotal⟩
    · exact h.covered r hold
  · intro r hr
    rcases mem_setRoll hr with rfl | ⟨hold, -⟩
    · rw [hguid]
      exact h.guid roll hroll
    · exact h.guid r hold
  rw [setRoll_guids]
  exact h.distinct

theorem fewer_setRoll (s : State) (w : World) (roll : Roll) :
    Fewer s ((s.setRoll roll).countTheRoll w roll) := by
  have hfilter (rolls : List Roll) :
      ((rolls.map fun r => if r.itemGUID = roll.itemGUID then roll else r).filter
        fun r => r.itemGUID ≠ roll.itemGUID) =
      rolls.filter fun r => r.itemGUID ≠ roll.itemGUID := by
    induction rolls with
    | nil => rfl
    | cons r rolls ih =>
      rw [map_cons]
      split
      · rename_i hguid
        rw [filter_cons_of_neg (by simp), filter_cons_of_neg (by simpa using hguid)]
        exact ih
      rename_i hguid
      rw [filter_cons_of_pos (by simpa using hguid),
        filter_cons_of_pos (by simpa using hguid), ih]
  obtain ⟨hrolls, hnext⟩ := countTheRoll_rolls (s.setRoll roll) w roll
  refine ⟨?_, hnext⟩
  rw [hrolls]
  exact (hfilter s.rolls).symm ▸ filter_sublist

/-- **A vote** closes its roll if it is the last one. -/
theorem kept_vote (h : Kept s) (w : World) (player itemGUID choice : ℕ) :
    Kept (s.countRollVote w player itemGUID choice) ∧
      (s.Waits → (s.countRollVote w player itemGUID choice).Waits) := by
  unfold countRollVote
  cases hget : s.getRoll itemGUID with
  | none => exact ⟨h, id⟩
  | some roll =>
    obtain ⟨hroll, -, -⟩ := mem_of_getRoll hget
    obtain ⟨hcovered, htotal⟩ := h.covered roll hroll
    dsimp only
    split
    · exact ⟨h, id⟩
    rename_i hvote
    obtain ⟨v, hv⟩ := Option.ne_none_iff_exists'.mp hvote
    have hchosen := covered_choose hcovered htotal hv choice
    have hguid := (again_choose roll player choice).itemGUID
    split
    · exact ⟨h, id⟩
    split
    · have hfewer := fewer_setRoll s w (roll.choose player choice)
      exact ⟨h.fewer hfewer, fun hwaits => hwaits.fewer hfewer⟩
    rename_i hopen
    have hrolling := hchosen.rolling
    have hfew := hchosen.few
    refine ⟨h.setRoll hchosen (by rw [total]; omega) hroll hguid,
      fun hwaits r hr => ?_⟩
    rcases mem_setRoll hr with rfl | ⟨hold, -⟩
    · by_contra hall
      exact hopen (hchosen.full hall)
    · exact hwaits r hold

theorem fewer_endRoll (s : State) (w : World) (loot : ℕ) : Fewer s (s.endRoll w loot) := by
  have hloop (rolls : List Roll) (s : State) :
      Fewer s (rolls.foldl (fun s roll => s.countTheRoll w roll) s) := by
    induction rolls generalizing s with
    | nil => exact .refl s
    | cons roll rolls ih => exact (fewer_countTheRoll s w roll).trans (ih _)
  exact hloop _ s

theorem kept_clear (h : Kept s) (id : ℕ) : Kept (s.clear id) ∧ (s.Waits → (s.clear id).Waits) := by
  have hmem (r : Roll) (hr : r ∈ (s.clear id).rolls) : ∃ roll ∈ s.rolls, r = roll.cut id := by
    obtain ⟨roll, hroll, rfl⟩ := mem_map.mp hr
    exact ⟨roll, hroll, rfl⟩
  have hcut (roll : Roll) : roll.cut id = roll ∨ roll.cut id = { roll with loot := none } := by
    unfold cut
    split
    · exact .inr rfl
    · exact .inl rfl
  refine ⟨⟨fun r hr => ?_, fun r hr => ?_, ?_⟩, fun hwaits r hr => ?_⟩
  · obtain ⟨roll, hroll, rfl⟩ := hmem r hr
    obtain ⟨hcovered, htotal⟩ := h.covered roll hroll
    rcases hcut roll with heq | heq
    · rw [heq]
      exact ⟨hcovered, htotal⟩
    rw [heq]
    exact ⟨{ hcovered with }, htotal⟩
  · obtain ⟨roll, hroll, rfl⟩ := hmem r hr
    rw [(cut_spec id roll).2.1]
    exact h.guid roll hroll
  · have hguids : (s.clear id).rolls.map itemGUID = s.rolls.map itemGUID := by
      unfold clear
      rw [map_map]
      exact map_congr_left fun roll _ => (cut_spec id roll).2.1
    rw [hguids]
    exact h.distinct
  obtain ⟨roll, hroll, rfl⟩ := hmem r hr
  unfold Roll.Waits
  rw [(cut_spec id roll).1]
  exact hwaits roll hroll

/-! ### Members who leave -/

theorem setRoll_append {before after : List Roll} {roll' : Roll}
    (hrolls : s.rolls = before ++ roll :: after) (hdistinct : (s.rolls.map itemGUID).Nodup)
    (hguid : roll'.itemGUID = roll.itemGUID) :
    (s.setRoll roll').rolls = before ++ roll' :: after := by
  rw [hrolls, map_append, map_cons, nodup_append, nodup_cons] at hdistinct
  obtain ⟨-, ⟨hafter, -⟩, hbefore⟩ := hdistinct
  have hkeep (rolls : List Roll) (hne : ∀ r ∈ rolls, r.itemGUID ≠ roll.itemGUID) :
      rolls.map (fun r => if r.itemGUID = roll'.itemGUID then roll' else r) = rolls := by
    refine (map_congr_left fun r hr => ?_).trans (map_id rolls)
    rw [hguid]
    exact if_neg (hne r hr)
  unfold setRoll
  rw [hrolls, map_append, map_cons, hkeep before, hkeep after, if_pos hguid.symm]
  · intro r hr heq
    exact hafter (heq ▸ mem_map_of_mem hr)
  intro r hr
  exact hbefore _ (mem_map_of_mem hr) _ mem_cons_self

/-- **A member who leaves** takes his votes back, and no roll is compared with its
tallies. -/
theorem removeMember_rolls (h : Kept s) (w : World) (guid : ℕ) :
    (s.removeMember w guid).rolls = s.rolls.map (·.drop guid) ∧
      (s.removeMember w guid).nextGUID = s.nextGUID := by
  have hloop (rolls before : List Roll) (t : State) (hrolls : t.rolls = before ++ rolls)
      (hdistinct : (t.rolls.map itemGUID).Nodup)
      (hkeys : ∀ roll ∈ rolls, (roll.playerVote.map Prod.fst).Nodup) :
      (rolls.foldl (fun s roll => if roll.vote guid = none then s
        else (s.setRoll (roll.drop guid)).countRollVote w guid roll.itemGUID 4) t).rolls =
          before ++ rolls.map (·.drop guid) ∧
      (rolls.foldl (fun s roll => if roll.vote guid = none then s
        else (s.setRoll (roll.drop guid)).countRollVote w guid roll.itemGUID 4) t).nextGUID =
          t.nextGUID := by
    induction rolls generalizing t before with
    | nil => exact ⟨hrolls, rfl⟩
    | cons roll rolls ih =>
      have hroll : roll ∈ t.rolls := by
        rw [hrolls]
        exact mem_append_right _ mem_cons_self
      have hkeys' (r : Roll) (hr : r ∈ rolls) := hkeys r (mem_cons_of_mem roll hr)
      rw [foldl_cons, map_cons, ← singleton_append, ← append_assoc]
      split
      · rename_i hvote
        have hsame : roll.drop guid = roll := by
          unfold Roll.drop
          rw [hvote]
        rw [hsame]
        refine ih (before ++ [roll]) t ?_ hdistinct hkeys'
        rw [hrolls, append_assoc, singleton_append]
      have hset := setRoll_append hrolls hdistinct (again_drop roll guid).itemGUID
      rw [removeMember_one hdistinct hroll (hkeys roll mem_cons_self) w guid]
      refine ih (before ++ [roll.drop guid]) _ ?_ ?_ hkeys'
      · rw [hset, append_assoc, singleton_append]
      rw [setRoll_guids]
      exact hdistinct
  exact hloop s.rolls [] s rfl h.distinct fun roll hroll => (h.covered roll hroll).1.keys

theorem kept_removeMember (h : Kept s) (w : World) (guid : ℕ) : Kept (s.removeMember w guid) := by
  obtain ⟨hrolls, hnext⟩ := removeMember_rolls h w guid
  have hmem (r : Roll) (hr : r ∈ (s.removeMember w guid).rolls) :
      ∃ roll ∈ s.rolls, r = roll.drop guid := by
    rw [hrolls] at hr
    obtain ⟨roll, hroll, rfl⟩ := mem_map.mp hr
    exact ⟨roll, hroll, rfl⟩
  constructor
  · intro r hr
    obtain ⟨roll, hroll, rfl⟩ := hmem r hr
    obtain ⟨hcovered, htotal⟩ := h.covered roll hroll
    exact covered_drop hcovered htotal guid
  · intro r hr
    obtain ⟨roll, hroll, rfl⟩ := hmem r hr
    rw [(again_drop roll guid).itemGUID, hnext]
    exact h.guid roll hroll
  have hguids : (s.removeMember w guid).rolls.map itemGUID = s.rolls.map itemGUID := by
    rw [hrolls, map_map]
    exact map_congr_left fun roll _ => (again_drop roll guid).itemGUID
  rw [hguids]
  exact h.distinct

/-- **The last one who is asked** must not leave. -/
theorem drop_waits_iff (hkeys : (roll.playerVote.map Prod.fst).Nodup) (hwaits : roll.Waits)
    (guid : ℕ) : (roll.drop guid).Waits ↔
      (roll.vote guid ≠ none → ∃ e ∈ roll.playerVote, e.1 ≠ guid ∧ e.2 = .notEmitedYet) := by
  have herase (votes : List (ℕ × RollVote)) (hnodup : (votes.map Prod.fst).Nodup)
      (hin : ∃ e ∈ votes, e.1 = guid) (e : ℕ × RollVote) :
      e ∈ votes.eraseP (·.1 = guid) ↔ e ∈ votes ∧ e.1 ≠ guid := by
    induction votes with
    | nil =>
      obtain ⟨e, he, -⟩ := hin
      cases he
    | cons a votes ih =>
      rw [map_cons, nodup_cons] at hnodup
      by_cases ha : a.1 = guid
      · have hne (b : ℕ × RollVote) (hb : b ∈ votes) : b.1 ≠ guid := fun heq =>
          hnodup.1 (ha ▸ heq ▸ mem_map_of_mem hb)
        rw [eraseP_cons_of_pos (by simpa using ha), mem_cons]
        constructor
        · exact fun he => ⟨.inr he, hne e he⟩
        rintro ⟨rfl | he, hguid⟩
        · exact absurd ha hguid
        · exact he
      have hin' : ∃ e ∈ votes, e.1 = guid := by
        obtain ⟨b, hb, hguid⟩ := hin
        rcases mem_cons.mp hb with rfl | hrest
        · exact absurd hguid ha
        · exact ⟨b, hrest, hguid⟩
      rw [eraseP_cons_of_neg (by simpa using ha), mem_cons, mem_cons,
        ih hnodup.2 hin']
      constructor
      · rintro (rfl | ⟨he, hguid⟩)
        · exact ⟨.inl rfl, ha⟩
        · exact ⟨.inr he, hguid⟩
      rintro ⟨rfl | he, hguid⟩
      · exact .inl rfl
      · exact .inr ⟨he, hguid⟩
  unfold Roll.drop
  cases hv : roll.vote guid with
  | none => exact ⟨fun _ hne => absurd rfl hne, fun _ => hwaits⟩
  | some v =>
    obtain ⟨a, hfound, -⟩ := Option.map_eq_some_iff.mp hv
    have hin : ∃ e ∈ roll.playerVote, e.1 = guid :=
      ⟨a, mem_of_find?_eq_some hfound, by simpa using find?_some hfound⟩
    have hmem := herase roll.playerVote hkeys hin
    constructor
    · rintro ⟨e, he, hpending⟩ -
      obtain ⟨hold, hne⟩ := (hmem e).mp he
      exact ⟨e, hold, hne, hpending⟩
    intro hother
    obtain ⟨e, he, hne, hpending⟩ := hother (Option.some_ne_none v)
    exact ⟨e, (hmem e).mpr ⟨he, hne⟩, hpending⟩

/-! ### New rolls -/

/-- A roll that is being started: it has the votes of the members who are in. -/
structure Roll.Entered (roll : Roll) (count : ℕ) : Prop where
  covered : roll.Covered
  total : roll.total ≤ roll.playerVote.length
  length : roll.playerVote.length = count

theorem Roll.Entered.enter {count : ℕ} (h : roll.Entered count) (hlt : count < maxRaidSize)
    {m : RollMember} (hm : m.guid ∉ roll.playerVote.map Prod.fst) (pass : Bool) :
    (roll.enter m pass).Entered (count + 1) ∧
      ((roll.enter m pass).Waits ↔ roll.Waits ∨ pass = false) := by
  have hmax : maxRaidSize = 40 := rfl
  have hnew (p : RollVote → Bool) := votesFor_insertVote (p := p) hm
    (if pass then RollVote.pass else .notEmitedYet)
  have hlength : (roll.enter m pass).playerVote.length = roll.playerVote.length + 1 := by
    have hall (votes : List (ℕ × RollVote)) : votesFor (fun _ => true) votes = votes.length :=
      congrFun countP_true votes
    have hone := hnew fun _ => true
    rw [hall, hall, if_pos rfl] at hone
    exact hone
  have hn := hnew (· = .need)
  have hg := hnew isGreed
  have hp := hnew (· = .pass)
  have hw := hnew (· = .notEmitedYet)
  have hrolling := h.covered.rolling
  have hcount := h.length
  have hneed := h.covered.need
  have hgreed := h.covered.greed
  have hpass := h.covered.pass
  have htotal := h.total
  have hrolling' : (roll.enter m pass).totalPlayersRolling = roll.totalPlayersRolling + 1 := by
    change (roll.totalPlayersRolling + 1) % 256 = _
    omega
  have hvalid : ∀ e ∈ (roll.enter m pass).playerVote, e.2 ≠ .notValid := by
    intro e he
    rcases mem_entry_insertVote he with rfl | hold
    · cases pass <;> simp
    · exact h.covered.valid e hold
  have hkeys := nodup_insertVote hm h.covered.keys (if pass then RollVote.pass else .notEmitedYet)
  rw [Roll.total] at htotal
  rw [waits_iff, waits_iff]
  cases pass with
  | false =>
    refine ⟨⟨⟨hkeys, hvalid, by omega, by omega, ?_, ?_, ?_⟩, ?_, by omega⟩, ?_⟩
    · exact Nat.le_trans (Nat.le_of_eq hn) hneed
    · exact Nat.le_trans (Nat.le_of_eq hg) hgreed
    · exact Nat.le_trans (Nat.le_of_eq hp) hpass
    · rw [hlength]
      exact Nat.le_succ_of_le htotal
    refine ⟨fun _ => .inr rfl, fun _ => ?_⟩
    exact Nat.lt_of_lt_of_eq (Nat.succ_pos _) hw.symm
  | true =>
    have hpass' : (roll.enter m true).totalPass = roll.totalPass + 1 := by
      change (roll.totalPass + 1) % 256 = _
      omega
    refine ⟨⟨⟨hkeys, hvalid, by omega, by omega, ?_, ?_, ?_⟩, ?_, by omega⟩, ?_⟩
    · exact Nat.le_trans (Nat.le_of_eq hn) hneed
    · exact Nat.le_trans (Nat.le_of_eq hg) hgreed
    · rw [hpass']
      exact Nat.le_trans (Nat.le_of_eq hp) (Nat.succ_le_succ hpass)
    · rw [hlength, Roll.total, hpass']
      change roll.totalPass + 1 + roll.totalNeed + roll.totalGreed ≤ _
      omega
    have hsame : votesFor (· = .notEmitedYet) (roll.enter m true).playerVote =
        votesFor (· = .notEmitedYet) roll.playerVote := hw
    rw [hsame]
    exact ⟨.inl, fun hor => hor.resolve_right (by decide)⟩

/-- **All who take part are entered**, and the roll waits for those who do not pass. -/
theorem entered_fold (mayPass : Bool) (ms : List RollMember)
    (hnodup : (ms.map RollMember.guid).Nodup) {count : ℕ} (roll : Roll) (h : roll.Entered count)
    (hapart : ∀ m ∈ ms, m.guid ∉ roll.playerVote.map Prod.fst)
    (hfew : count + ms.length ≤ maxRaidSize) :
    (ms.foldl (fun roll m => roll.enter m (mayPass && m.passOnGroupLoot)) roll).Entered
        (count + ms.length) ∧
      (ms.foldl (fun roll m => roll.enter m (mayPass && m.passOnGroupLoot)) roll).itemGUID =
        roll.itemGUID ∧
      ((ms.foldl (fun roll m => roll.enter m (mayPass && m.passOnGroupLoot)) roll).Waits ↔
        roll.Waits ∨ ∃ m ∈ ms, (mayPass && m.passOnGroupLoot) = false) := by
  induction ms generalizing roll count with
  | nil => exact ⟨h, rfl, ⟨.inl, fun hor => hor.elim id fun ⟨_, hm, _⟩ => by cases hm⟩⟩
  | cons m ms ih =>
    rw [map_cons, nodup_cons] at hnodup
    rw [length_cons] at hfew
    obtain ⟨henter, hwaits⟩ := h.enter (by omega) (hapart m mem_cons_self)
      (mayPass && m.passOnGroupLoot)
    have hapart' (other : RollMember) (hother : other ∈ ms) :
        other.guid ∉ (roll.enter m (mayPass && m.passOnGroupLoot)).playerVote.map Prod.fst := by
      intro hmem
      rcases mem_insertVote _ _ _ other.guid hmem with heq | hold
      · exact hnodup.1 (heq ▸ mem_map_of_mem hother)
      · exact hapart other (mem_cons_of_mem m hother) hold
    obtain ⟨hentered, hguid, hiff⟩ := ih hnodup.2 _ henter hapart' (by omega)
    rw [foldl_cons, length_cons, Nat.add_comm ms.length 1, ← Nat.add_assoc]
    refine ⟨hentered, hguid, ?_⟩
    rw [hiff, hwaits, exists_mem_cons_iff, or_assoc]

theorem startRoll_rolls (s : State) (party : Party) (loot slot : ℕ) (item : LootItem)
    (mayPass : Bool) : ∃ roll : Roll, roll.Entered (party.players item).length ∧
      roll.itemGUID = s.nextGUID ∧
      (roll.Waits ↔ ∃ m ∈ party.players item, (mayPass && m.passOnGroupLoot) = false) ∧
      (s.startRoll party loot slot item mayPass).rolls =
        s.rolls ++ (if (party.players item).length > 0 then [roll] else []) ∧
      (s.startRoll party loot slot item mayPass).nextGUID = s.nextGUID + 1 ∧
      (s.startRoll party loot slot item mayPass).lootThreshold = s.lootThreshold := by
  have hsub : (party.players item).Sublist party.members := filter_sublist
  have hempty : Roll.Entered ⟨s.nextGUID, item.itemid, some loot, slot, [], 0, 0, 0, 0⟩ 0 :=
    ⟨⟨nodup_nil, nofun, Nat.zero_le _, rfl, Nat.le_refl 0, Nat.le_refl 0,
      Nat.le_refl 0⟩, Nat.le_refl 0, rfl⟩
  have hfew : 0 + (party.players item).length ≤ maxRaidSize := by
    rw [Nat.zero_add]
    exact Nat.le_trans hsub.length_le party.few
  obtain ⟨hentered, hguid, hwaits⟩ := entered_fold mayPass (party.players item)
    (party.nodup.sublist (hsub.map _)) _ hempty nofun hfew
  rw [Nat.zero_add] at hentered
  unfold startRoll
  dsimp only
  unfold Party.players at *
  generalize (party.members.filter fun m => m.session && item.allowed m.guid && m.near).foldl _ _ =
    roll at hentered hguid hwaits ⊢
  have hcount : roll.totalPlayersRolling = _ := hentered.covered.rolling.trans hentered.length
  refine ⟨roll, hentered, hguid, hwaits.trans ⟨fun hor => ?_, .inr⟩, ?_⟩
  · rcases hor with ⟨e, he, -⟩ | hsome
    · cases he
    · exact hsome
  rw [hcount]
  split
  · refine ⟨?_, ?_, ?_⟩
    · rfl
    · unfold modifyItem
      split <;> rfl
    unfold modifyItem
    split <;> rfl
  · exact ⟨(append_nil _).symm, rfl, rfl⟩

/-- **A roll is started** for an item: then some player must not pass. -/
theorem startRoll_waits_iff (h : Kept s) (party : Party) (loot slot : ℕ) (item : LootItem)
    (mayPass : Bool) : Kept (s.startRoll party loot slot item mayPass) ∧
      ((s.startRoll party loot slot item mayPass).Waits ↔ s.Waits ∧ (party.players item ≠ [] →
          ∃ m ∈ party.players item, (mayPass && m.passOnGroupLoot) = false)) := by
  obtain ⟨roll, hentered, hguid, hwaits, hrolls, hnext, -⟩ :=
    startRoll_rolls s party loot slot item mayPass
  by_cases hnone : party.players item = []
  · rw [hnone, length_nil, if_neg (Nat.lt_irrefl 0), append_nil] at hrolls
    have hmem (r : Roll) (hr : r ∈ (s.startRoll party loot slot item mayPass).rolls) :
        r ∈ s.rolls := hrolls ▸ hr
    refine ⟨⟨fun r hr => h.covered r (hmem r hr), fun r hr => ?_, ?_⟩, ?_⟩
    · rw [hnext]
      exact Nat.lt_succ_of_lt (h.guid r (hmem r hr))
    · rw [hrolls]
      exact h.distinct
    unfold State.Waits
    rw [hrolls]
    exact ⟨fun hall => ⟨hall, fun hne => absurd hnone hne⟩, fun hand => hand.1⟩
  rw [if_pos (length_pos_iff.mpr hnone)] at hrolls
  have hmem (r : Roll) (hr : r ∈ (s.startRoll party loot slot item mayPass).rolls) :
      r ∈ s.rolls ∨ r = roll := by
    rw [hrolls] at hr
    exact (mem_append.mp hr).imp_right mem_singleton.mp
  refine ⟨⟨fun r hr => ?_, fun r hr => ?_, ?_⟩, ?_⟩
  · rcases hmem r hr with hold | rfl
    · exact h.covered r hold
    · exact ⟨hentered.covered, Nat.le_trans hentered.total hentered.covered.few⟩
  · rw [hnext]
    rcases hmem r hr with hold | rfl
    · exact Nat.lt_succ_of_lt (h.guid r hold)
    rw [hguid]
    exact Nat.lt_succ_self _
  · rw [hrolls, map_append, nodup_append]
    refine ⟨h.distinct, nodup_singleton _, fun a ha b hb heq => ?_⟩
    obtain ⟨old, hold, rfl⟩ := mem_map.mp ha
    have hlt := h.guid old hold
    rw [heq, mem_singleton.mp hb, hguid] at hlt
    exact Nat.lt_irrefl _ hlt
  unfold State.Waits
  rw [hrolls]
  constructor
  · intro hall
    exact ⟨fun r hr => hall r (mem_append_left _ hr), fun _ => hwaits.mp
      (hall roll (mem_append_right _ (mem_singleton_self _)))⟩
  rintro ⟨hold, hnew⟩ r hr
  rcases mem_append.mp hr with hmem | hmem
  · exact hold r hmem
  rw [mem_singleton.mp hmem]
  exact hwaits.mpr (hnew hnone)

theorem foldl_waits_iff {f : State → LootItem × ℕ → State} {C : ℕ → LootItem → Prop}
    (hf : ∀ s e, Kept s → Kept (f s e) ∧ (f s e).lootThreshold = s.lootThreshold ∧
      ((f s e).Waits ↔ s.Waits ∧ C s.lootThreshold e.1))
    (items : List LootItem) (slot : ℕ) (s : State) (h : Kept s) :
    Kept ((items.zipIdx slot).foldl f s) ∧
      ((items.zipIdx slot).foldl f s).lootThreshold = s.lootThreshold ∧
      (((items.zipIdx slot).foldl f s).Waits ↔ s.Waits ∧ ∀ item ∈ items, C s.lootThreshold item) := by
  induction items generalizing s slot with
  | nil => exact ⟨h, rfl, (and_iff_left nofun).symm⟩
  | cons item items ih =>
    obtain ⟨hkept, hthreshold, hone⟩ := hf s (item, slot) h
    obtain ⟨hkept', hthreshold', hrest⟩ := ih (slot + 1) _ hkept
    rw [zipIdx_cons, foldl_cons]
    refine ⟨hkept', hthreshold'.trans hthreshold, ?_⟩
    rw [hrest, hone, hthreshold, forall_mem_cons, and_assoc]

theorem lootItem_waits_iff (h : Kept s) (party : Party) (id : ℕ) (e : LootItem × ℕ) :
    Kept (lootItem party id s e) ∧ (lootItem party id s e).lootThreshold = s.lootThreshold ∧
      ((lootItem party id s e).Waits ↔ s.Waits ∧
        (e.1.freeforall = false → e.1.quality ≥ s.lootThreshold → party.players e.1 ≠ [] →
          ∃ m ∈ party.players e.1, m.passOnGroupLoot = false)) := by
  unfold lootItem
  split
  · rename_i hfree
    refine ⟨h, rfl, (and_iff_left fun hnot => ?_).symm⟩
    rw [hfree] at hnot
    cases hnot
  rename_i hfree
  split
  · rename_i hquality
    obtain ⟨-, -, -, -, -, -, hsame⟩ := startRoll_rolls s party id e.2 e.1 true
    obtain ⟨hstarted, hiff⟩ := startRoll_waits_iff h party id e.2 e.1 true
    refine ⟨hstarted, hsame, hiff.trans (and_congr_right fun _ => ?_)⟩
    exact ⟨fun hnew _ _ => hnew, fun hnew => hnew (by simpa using hfree) hquality⟩
  rename_i hquality
  exact ⟨h, rfl, (and_iff_left fun _ hge => absurd hge hquality).symm⟩

theorem lootQuestItem_waits_iff (h : Kept s) (party : Party) (id : ℕ) (e : LootItem × ℕ) :
    Kept (lootQuestItem party id s e) ∧
      (lootQuestItem party id s e).lootThreshold = s.lootThreshold ∧
      ((lootQuestItem party id s e).Waits ↔ s.Waits ∧ True) := by
  unfold lootQuestItem
  split
  · obtain ⟨-, -, -, -, -, -, hsame⟩ := startRoll_rolls s party id e.2 e.1 false
    obtain ⟨hstarted, hiff⟩ := startRoll_waits_iff h party id e.2 e.1 false
    refine ⟨hstarted, hsame, hiff.trans (and_congr_right fun _ => ?_)⟩
    refine ⟨fun _ => trivial, fun _ hne => ?_⟩
    obtain ⟨m, hm⟩ := exists_mem_of_ne_nil _ hne
    exact ⟨m, hm, rfl⟩
  · exact ⟨h, rfl, (and_iff_left trivial).symm⟩

/-- **Rolls are started** for a loot: in each some player must not pass. -/
theorem groupLoot_waits_iff (h : Kept s) (hwaits : s.Waits) (party : Party) (id : ℕ) :
    Kept (s.groupLoot party id) ∧
      ((s.groupLoot party id).Waits ↔ StillAsked s (.groupLoot party id)) := by
  unfold groupLoot
  cases hloot : s.loots[id]? with
  | none =>
    refine ⟨h, fun _ loot hsome => ?_, fun _ => hwaits⟩
    rw [hloot] at hsome
    cases hsome
  | some loot =>
    dsimp only
    split
    · rename_i hrolled
      refine ⟨h, fun _ other hsome hnot => ?_, fun _ => hwaits⟩
      rw [hloot, Option.some.injEq] at hsome
      rw [← hsome, hrolled] at hnot
      cases hnot
    rename_i hrolled
    obtain ⟨hkept, -, hitems⟩ := foldl_waits_iff (f := lootItem party id)
      (C := fun threshold item => item.freeforall = false → item.quality ≥ threshold →
        party.players item ≠ [] → ∃ m ∈ party.players item, m.passOnGroupLoot = false)
      (fun s e hs => lootItem_waits_iff hs party id e) loot.items 0
      { s with loots := s.loots.modify id fun loot => { loot with rolled := true } }
      { h with }
    obtain ⟨hkept', -, hquest⟩ := foldl_waits_iff (f := lootQuestItem party id)
      (C := fun _ _ => True) (fun s e hs => lootQuestItem_waits_iff hs party id e)
      loot.questItems loot.items.length _ hkept
    refine ⟨hkept', hquest.trans ((and_iff_left fun _ _ => trivial).trans (hitems.trans ⟨?_, ?_⟩))⟩
    · rintro ⟨-, hall⟩ other hsome -
      rw [hloot, Option.some.injEq] at hsome
      exact hsome ▸ hall
    · exact fun hall => ⟨hwaits, hall loot hloot (by simpa using hrolled)⟩

/-! ### Runs -/

/-- **One request** leaves only rolls that wait for somebody exactly if it takes the last
undecided player from none and starts none in which all pass. -/
theorem step_waits_iff (h : Kept s) (hwaits : s.Waits) (r : Request) :
    Kept (step s r) ∧ ((step s r).Waits ↔ StillAsked s r) := by
  cases r with
  | fill items questItems =>
    exact ⟨{ h with }, fun _ => trivial, fun _ => hwaits⟩
  | groupLoot party loot => exact groupLoot_waits_iff h hwaits party loot
  | vote w player itemGUID choice =>
    obtain ⟨hkept, hvote⟩ := kept_vote h w player itemGUID choice
    exact ⟨hkept, fun _ => trivial, fun _ => hvote hwaits⟩
  | removeMember w guid =>
    refine ⟨kept_removeMember h w guid, ?_⟩
    have hdrop (roll : Roll) (hroll : roll ∈ s.rolls) :=
      drop_waits_iff (h.covered roll hroll).1.keys (hwaits roll hroll) guid
    change (s.removeMember w guid).Waits ↔ _
    unfold State.Waits
    rw [(removeMember_rolls h w guid).1, forall_mem_map]
    exact forall₂_congr hdrop
  | endRoll w loot =>
    have hfewer := fewer_endRoll s w loot
    exact ⟨h.fewer hfewer, fun _ => trivial, fun _ => hwaits.fewer hfewer⟩
  | clear loot =>
    obtain ⟨hkept, hclear⟩ := kept_clear h loot
    exact ⟨hkept, fun _ => trivial, fun _ => hclear hwaits⟩

/-- **Open rolls.**  From no rolls: after every request of a run each roll that is open waits
for the answer of somebody, exactly if no member leaves for whom alone a roll waits and no
roll is started in which all pass on group loot. -/
theorem rolls_open_iff (lootThreshold : ℕ) (rs : List Request) :
    Along step (fun s r => (step s r).Waits) (start lootThreshold) rs ↔
      Along step StillAsked (start lootThreshold) rs := by
  have hstart : Kept (start lootThreshold) :=
    ⟨nofun, nofun, nodup_nil⟩
  exact Along.iff_of_invariant (I := fun s => Kept s ∧ s.Waits)
    (fun _ r h => (step_waits_iff h.1 h.2 r).2)
    (fun _ r h hwaits => ⟨(step_waits_iff h.1 h.2 r).1, hwaits⟩) ⟨hstart, nofun⟩

/-- One item, rolled for by players `1` and `2`; player `1` chooses need, and player `2`, who
has not answered, leaves the group. -/
def lastLeaves : List Request :=
  [oneItem, .groupLoot two 0, .vote openHanded 1 0 1, .removeMember openHanded 2]

/-- The roll is still open, though its only voter has chosen; and so is the roll of a group in
which all pass on group loot. -/
theorem roll_open_after_last_left :
    (lastLeaves.foldl step (start 2)).rolls = [⟨0, 7, some 0, 0, [(1, .need)], 1, 1, 0, 0⟩] ∧
      ¬Along step (fun s r => (step s r).Waits) (start 2) lastLeaves ∧
      (step (step (start 2) oneItem)
        (.groupLoot ⟨[⟨1, true, true, true⟩], by decide, by decide⟩ 0)).rolls =
          [⟨0, 7, some 0, 0, [(1, .pass)], 1, 0, 0, 1⟩] := by
  have hrolls : (lastLeaves.foldl step (start 2)).rolls =
      [⟨0, 7, some 0, 0, [(1, .need)], 1, 1, 0, 0⟩] := by
    decide
  refine ⟨hrolls, ?_, by decide⟩
  rintro ⟨-, -, -, hwaits, -⟩
  obtain ⟨e, he, hpending⟩ := hwaits _ (hrolls ▸ mem_singleton_self _)
  rw [mem_singleton.mp he] at hpending
  cases hpending

end ZerosCore.Groups.LootRolls
