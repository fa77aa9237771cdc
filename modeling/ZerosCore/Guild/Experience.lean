/-
# The experience of a guild

`Guild::GiveXP` and `Guild::ResetDailyExperience` of `src/server/game/Guilds/Guild.cpp`, with
`GuildMgr::LoadGuildXpForLevel` and `GuildMgr::GetXPForGuildLevel` of
`src/server/game/Guilds/GuildMgr.cpp`.

A table without rows is left at zero, as the gaps are filled behind the early return: a new guild
then already has the experience for its next level, and the first point of experience takes it to
the last one.  `experience_right_iff` says for which tables and level limits a guild is never in
such a state; the daily cap and the end of the level loop hold of all of them.

The numbers of the configuration and of a gain are 32 bits wide and stay below `2 ^ 33` in the
64-bit sums.  A level is 8 bits wide, so the loop over the levels never ends for a limit above
`255`; a loop takes fuel and is `none` when it is used up.
-/

import Mathlib.Data.List.Basic
import Mathlib.Algebra.Ring.Nat

namespace ZerosCore.GuildExperience

open List Option

/-- `CONFIG_GUILD_LEVELING_ENABLED`, `CONFIG_GUILD_MAX_LEVEL` and `CONFIG_GUILD_DAILY_XP_CAP`. -/
structure Config where
  levelingEnabled : Bool
  maxLevel : ℕ
  dailyXpCap : UInt32

/-- A row of `guild_xp_for_level`. -/
structure XpRow where
  lvl : UInt8
  xpForNextLevel : UInt64

/-- `GuildXPperLevel` -/
abbrev XpTable := List ℕ

/-! ### The table -/

/-- `for (uint8 level = …; level < CONFIG_GUILD_MAX_LEVEL; ++level)` -/
def eachLevel (maxLevel : ℕ) (body : ℕ → XpTable → XpTable) : ℕ → ℕ → XpTable → Option XpTable
  | 0, _, _ => none
  | fuel + 1, level, t =>
    if level < maxLevel then eachLevel maxLevel body fuel ((level + 1) % 2 ^ 8) (body level t)
    else some t

/-- What a row does: `requiredXP` is a `uint32`. -/
def readRow (maxLevel : ℕ) (t : XpTable) (row : XpRow) : XpTable :=
  if row.lvl.toNat ≥ maxLevel then t
  else t.set row.lvl.toNat (row.xpForNextLevel.toNat % 2 ^ 32)

def fillGap (level : ℕ) (t : XpTable) : XpTable :=
  if t.getD level 0 = 0 then t.set level (t.getD (level - 1) 0 + 1660000) else t

def loadGuildXpForLevel (fuel maxLevel : ℕ) (rows : List XpRow) : Option XpTable :=
  match eachLevel maxLevel (fun level t => t.set level 0) fuel 0 (List.replicate maxLevel 0) with
  | none => none
  | some t =>
    if rows.isEmpty then some t
    else eachLevel maxLevel fillGap fuel 1 (rows.foldl (readRow maxLevel) t)

/-- `GetXPForGuildLevel`: a `uint32`. -/
def getXPForGuildLevel (t : XpTable) (level : ℕ) : ℕ :=
  if level < t.length then t.getD level 0 % 2 ^ 32 else 0

/-! ### A guild -/

/-- The guild; `credited` is what the gains without a challenge have added to the experience since
the last reset. -/
structure Guild where
  level : ℕ
  experience : ℕ
  todayExperience : ℕ
  credited : ℕ

def create : Guild := ⟨1, 0, 0, 0⟩

/-- The loop of `GiveXP`: `_level` is a `uint8`. -/
def dingLoop (cfg : Config) (t : XpTable) : ℕ → Guild → Option Guild
  | 0, _ => none
  | fuel + 1, g =>
    if g.experience ≥ getXPForGuildLevel t g.level ∧ g.level < cfg.maxLevel then
      dingLoop cfg t fuel { g with
        experience := g.experience - getXPForGuildLevel t g.level
        level := (g.level + 1) % 2 ^ 8 }
    else some g

/-- What is added to the experience, and to that of today. -/
def gained (cap today xp : ℕ) : ℕ :=
  if today + xp ≥ cap ∧ today < cap then cap - today else if today < cap then xp else 0

def giveXP (cfg : Config) (t : XpTable) (fuel : ℕ) (g : Guild) (xp : UInt32) (challenge : Bool) :
    Option Guild :=
  let cap := cfg.dailyXpCap.toNat
  if !cfg.levelingEnabled then some g
  else if g.todayExperience = cap then some g
  else
    let xp :=
      if g.level ≥ cfg.maxLevel then 0
      else if g.level < 20 ∧ g.todayExperience % 2 ^ 32 > cap then 0
      else xp.toNat
    let today := g.todayExperience
    let g := { g with experience := g.experience + gained cap today xp }
    let g :=
      if challenge then g
      else { g with
        todayExperience := today + gained cap today xp
        credited := g.credited + gained cap today xp }
    if xp = 0 then some g else dingLoop cfg t fuel g

def resetDailyExperience (g : Guild) : Guild := { g with todayExperience := 0, credited := 0 }

inductive Op where
  | giveXP (xp : UInt32) (challenge : Bool)
  | resetDaily

def step (cfg : Config) (t : XpTable) (fuel : ℕ) (g : Guild) : Op → Option Guild
  | .giveXP xp challenge => giveXP cfg t fuel g xp challenge
  | .resetDaily => some (resetDailyExperience g)

/-- The states that a new guild comes to. -/
inductive Reachable (cfg : Config) (t : XpTable) : Guild → Prop
  | new : Reachable cfg t create
  | step {fuel : ℕ} {g g' : Guild} {op : Op} (hg : Reachable cfg t g)
      (hstep : step cfg t fuel g op = some g') : Reachable cfg t g'

/-- What is promised of a guild: its level is not above the maximum, below it the experience is less
than the next level needs, the cap holds, and every gain and every reset ends with a level that is
not lower. -/
structure Sound (cfg : Config) (t : XpTable) (g : Guild) : Prop where
  level_le : g.level ≤ cfg.maxLevel
  experience_lt : g.level < cfg.maxLevel → g.experience < getXPForGuildLevel t g.level
  credited_le : g.credited ≤ cfg.dailyXpCap.toNat
  ends : ∀ op, ∃ fuel g', step cfg t fuel g op = some g'
  grows : ∀ op fuel g', step cfg t fuel g op = some g' → g.level ≤ g'.level

variable {cfg : Config} {t t' : XpTable} {g g' : Guild} {op : Op} {xp : UInt32} {rows : List XpRow}
  {fuel level i maxLevel today cap gain : ℕ} {challenge : Bool} {levels : List ℕ}

/-! ### Gaining levels -/

/-- What a gain keeps of a guild, whatever is in the table. -/
structure Kept (cfg : Config) (g : Guild) : Prop where
  level_le : g.level ≤ cfg.maxLevel
  today_le : g.todayExperience ≤ cfg.dailyXpCap.toNat
  credited_eq : g.credited = g.todayExperience

/-- The experience is below what the next level needs. -/
def Below (cfg : Config) (t : XpTable) (g : Guild) : Prop :=
  g.level < cfg.maxLevel → g.experience < getXPForGuildLevel t g.level

/-- **The level loop** raises the level up to the maximum and stops where the experience is below
what the next level needs. -/
theorem dingLoop_spec (hmax : cfg.maxLevel < 2 ^ 8) (hg : Kept cfg g)
    (h : dingLoop cfg t fuel g = some g') : Kept cfg g' ∧ Below cfg t g' ∧ g.level ≤ g'.level := by
  induction fuel generalizing g with
  | zero => cases h
  | succ fuel ih =>
    unfold dingLoop at h
    split_ifs at h with hding
    · have hlevel : (g.level + 1) % 2 ^ 8 = g.level + 1 := Nat.mod_eq_of_lt (by omega)
      rw [hlevel] at h
      have hnext : Kept cfg { g with
          experience := g.experience - getXPForGuildLevel t g.level
          level := g.level + 1 } := ⟨hding.2, hg.today_le, hg.credited_eq⟩
      obtain ⟨hkept, hbelow, hle⟩ := ih hnext h
      exact ⟨hkept, hbelow, Nat.le_trans (Nat.le_succ g.level) hle⟩
    obtain rfl := some.inj h
    exact ⟨hg, fun hlt => by omega, le_refl _⟩

/-- **The level loop ends.** -/
theorem dingLoop_ends (hmax : cfg.maxLevel < 2 ^ 8) (t : XpTable) (g : Guild) :
    ∃ fuel g', dingLoop cfg t fuel g = some g' := by
  induction hn : cfg.maxLevel - g.level generalizing g with
  | zero =>
    refine ⟨1, g, ?_⟩
    exact if_neg (by omega)
  | succ n ih =>
    by_cases hding : g.experience ≥ getXPForGuildLevel t g.level ∧ g.level < cfg.maxLevel
    · have hlevel : (g.level + 1) % 2 ^ 8 = g.level + 1 := Nat.mod_eq_of_lt (by omega)
      obtain ⟨fuel, g', h⟩ := ih { g with
        experience := g.experience - getXPForGuildLevel t g.level
        level := (g.level + 1) % 2 ^ 8 } (by dsimp only; omega)
      refine ⟨fuel + 1, g', ?_⟩
      unfold dingLoop
      rw [if_pos hding, h]
    refine ⟨1, g, ?_⟩
    exact if_neg hding

theorem gained_le (h : today ≤ cap) : today + gained cap today gain ≤ cap := by
  unfold gained
  split_ifs <;> omega

theorem gained_zero (h : today ≤ cap) : gained cap today 0 = 0 := by
  unfold gained
  split_ifs <;> omega

/-- The gain of `GiveXP`: none at the maximum. -/
def usedXp (cfg : Config) (g : Guild) (xp : UInt32) : ℕ :=
  if g.level ≥ cfg.maxLevel then 0
  else if g.level < 20 ∧ g.todayExperience % 2 ^ 32 > cfg.dailyXpCap.toNat then 0
  else xp.toNat

/-- The guild before the level loop. -/
def credit (cfg : Config) (g : Guild) (xp : ℕ) (challenge : Bool) : Guild :=
  let more := gained cfg.dailyXpCap.toNat g.todayExperience xp
  if challenge then { g with experience := g.experience + more }
  else { g with
    experience := g.experience + more
    todayExperience := g.todayExperience + more
    credited := g.credited + more }

theorem giveXP_eq (cfg : Config) (t : XpTable) (fuel : ℕ) (g : Guild) (xp : UInt32)
    (challenge : Bool) : giveXP cfg t fuel g xp challenge =
      if !cfg.levelingEnabled ∨ g.todayExperience = cfg.dailyXpCap.toNat then some g
      else if usedXp cfg g xp = 0 then some (credit cfg g (usedXp cfg g xp) challenge)
      else dingLoop cfg t fuel (credit cfg g (usedXp cfg g xp) challenge) := by
  unfold giveXP usedXp credit
  cases hon : cfg.levelingEnabled
  · simp
  · cases challenge <;> simp

theorem Kept.credit (hg : Kept cfg g) (gain : ℕ) (challenge : Bool) :
    Kept cfg (credit cfg g gain challenge) := by
  have hle := @gained_le _ _ gain hg.today_le
  have heq := hg.credited_eq
  unfold GuildExperience.credit
  split_ifs
  · exact ⟨hg.level_le, hg.today_le, heq⟩
  · exact ⟨hg.level_le, hle, by dsimp only; omega⟩

theorem credit_level (cfg : Config) (g : Guild) (gain : ℕ) (challenge : Bool) :
    (credit cfg g gain challenge).level = g.level := by
  unfold credit
  split_ifs <;> rfl

theorem credit_zero (hg : Kept cfg g) (challenge : Bool) : credit cfg g 0 challenge = g := by
  unfold credit
  rw [gained_zero hg.today_le]
  split_ifs <;> rfl

/-- **A gain or a reset keeps the guild.** -/
theorem step_spec (hmax : cfg.maxLevel < 2 ^ 8) (hg : Kept cfg g) (hbelow : Below cfg t g)
    (h : step cfg t fuel g op = some g') : Kept cfg g' ∧ Below cfg t g' ∧ g.level ≤ g'.level := by
  cases op with
  | resetDaily =>
    obtain rfl := some.inj h
    exact ⟨⟨hg.level_le, Nat.zero_le _, rfl⟩, hbelow, le_refl _⟩
  | giveXP xp challenge =>
    replace h : giveXP cfg t fuel g xp challenge = some g' := h
    rw [giveXP_eq] at h
    split_ifs at h with hoff hzero
    · obtain rfl := some.inj h
      exact ⟨hg, hbelow, le_refl _⟩
    · obtain rfl := some.inj h
      rw [hzero, credit_zero hg]
      exact ⟨hg, hbelow, le_refl _⟩
    have hding := dingLoop_spec hmax (hg.credit _ challenge) h
    rwa [credit_level] at hding

/-- **A gain or a reset ends.** -/
theorem step_ends (hmax : cfg.maxLevel < 2 ^ 8) (t : XpTable) (g : Guild) (op : Op) :
    ∃ fuel g', step cfg t fuel g op = some g' := by
  cases op with
  | resetDaily => exact ⟨0, _, rfl⟩
  | giveXP xp challenge =>
    obtain ⟨fuel, g', h⟩ := dingLoop_ends hmax t (credit cfg g (usedXp cfg g xp) challenge)
    show ∃ fuel g', giveXP cfg t fuel g xp challenge = some g'
    simp only [giveXP_eq]
    split_ifs
    · exact ⟨0, _, rfl⟩
    · exact ⟨0, _, rfl⟩
    · exact ⟨fuel, g', h⟩

/-- **Every state of a guild is sound** if a new guild is below its next level. -/
theorem Reachable.sound (hmax : cfg.maxLevel < 2 ^ 8) (hpos : 1 ≤ cfg.maxLevel)
    (hnew : Below cfg t create) (hg : Reachable cfg t g) : Sound cfg t g := by
  have hkept : Kept cfg g ∧ Below cfg t g := by
    induction hg with
    | new => exact ⟨⟨hpos, Nat.zero_le _, rfl⟩, hnew⟩
    | step hg hstep ih =>
      obtain ⟨hk, hb, -⟩ := step_spec hmax ih.1 ih.2 hstep
      exact ⟨hk, hb⟩
  obtain ⟨hk, hb⟩ := hkept
  refine ⟨hk.level_le, hb, hk.credited_eq.symm ▸ hk.today_le, step_ends hmax t g, ?_⟩
  intro op fuel g' h
  exact (step_spec hmax hk hb h).2.2

/-! ### Loading the table -/

variable {body : ℕ → XpTable → XpTable}

theorem eachLevel_eq (hmax : maxLevel < 2 ^ 8) :
    eachLevel maxLevel body fuel level t = if maxLevel - level < fuel then
        some ((range' level (maxLevel - level)).foldl (fun t level => body level t) t)
      else none := by
  induction fuel generalizing level t with
  | zero => rfl
  | succ fuel ih =>
    unfold eachLevel
    by_cases hlt : level < maxLevel
    · rw [if_pos hlt, Nat.mod_eq_of_lt (by omega), ih,
        show maxLevel - level = (maxLevel - (level + 1)) + 1 by omega, range'_succ,
        foldl_cons]
      by_cases hfuel : maxLevel - (level + 1) < fuel
      · rw [if_pos hfuel, if_pos (by omega)]
      · rw [if_neg hfuel, if_neg (by omega)]
    rw [if_neg hlt, if_pos (by omega), show maxLevel - level = 0 by omega]
    rfl

/-- **It never ends for a higher limit.** -/
theorem eachLevel_endless (hmax : 2 ^ 8 ≤ maxLevel)
    (hlevel : level < 2 ^ 8) : eachLevel maxLevel body fuel level t = none := by
  induction fuel generalizing level t with
  | zero => rfl
  | succ fuel ih =>
    unfold eachLevel
    rw [if_pos (by omega)]
    exact ih (Nat.mod_lt _ (by decide))

def rowXp (rows : List XpRow) (level : ℕ) : ℕ :=
  rows.foldl (fun xp row =>
    if row.lvl.toNat = level then row.xpForNextLevel.toNat % 2 ^ 32 else xp) 0

theorem readRow_length (maxLevel : ℕ) (t : XpTable) (row : XpRow) :
    (readRow maxLevel t row).length = t.length := by
  unfold readRow
  split_ifs
  · rfl
  · exact length_set

theorem getD_set (t : XpTable) (i level v : ℕ) (hi : i < t.length) :
    (t.set i v).getD level 0 = if i = level then v else t.getD level 0 := by
  rw [getD_eq_getElem?_getD, getElem?_set, getD_eq_getElem?_getD]
  split_ifs <;> rfl

theorem readRows_spec (hlevel : level < maxLevel) (hlen : t.length = maxLevel) :
    (rows.foldl (readRow maxLevel) t).length = maxLevel ∧
      (rows.foldl (readRow maxLevel) t).getD level 0 = rows.foldl (fun xp row =>
          if row.lvl.toNat = level then row.xpForNextLevel.toNat % 2 ^ 32 else xp)
            (t.getD level 0) := by
  induction rows generalizing t with
  | nil => exact ⟨hlen, rfl⟩
  | cons row rows ih =>
    have hrow : (readRow maxLevel t row).getD level 0 =
        if row.lvl.toNat = level then row.xpForNextLevel.toNat % 2 ^ 32 else t.getD level 0 := by
      unfold readRow
      by_cases hlarge : row.lvl.toNat ≥ maxLevel
      · rw [if_pos hlarge, if_neg (by omega)]
      · rw [if_neg hlarge, getD_set t _ _ _ (by omega)]
    obtain ⟨hlength, hget⟩ := ih ((readRow_length maxLevel t row).trans hlen)
    rw [foldl_cons, foldl_cons]
    exact ⟨hlength, by rw [hget, hrow]⟩

theorem fillGap_length (level : ℕ) (t : XpTable) : (fillGap level t).length = t.length := by
  unfold fillGap
  split_ifs
  · exact length_set
  · rfl

theorem fillGaps_other (hlevels : ∀ l ∈ levels, l ≠ level) :
    (levels.foldl (fun t level => fillGap level t) t).length = t.length ∧
      (levels.foldl (fun t level => fillGap level t) t).getD level 0 = t.getD level 0 := by
  induction levels generalizing t with
  | nil => exact ⟨rfl, rfl⟩
  | cons l levels ih =>
    have hfirst : (fillGap l t).getD level 0 = t.getD level 0 := by
      unfold fillGap
      split_ifs
      · rw [getD_eq_getElem?_getD, getElem?_set_ne (hlevels l mem_cons_self), getD_eq_getElem?_getD]
      · rfl
    obtain ⟨hlength, hget⟩ := ih (t := fillGap l t) fun l' h => hlevels l' (mem_cons_of_mem l h)
    exact ⟨hlength.trans (fillGap_length l t), hget.trans hfirst⟩

theorem rowXp_lt (rows : List XpRow) (level : ℕ) : rowXp rows level < 2 ^ 32 := by
  have h : ∀ (rows : List XpRow) (xp : ℕ), xp < 2 ^ 32 → rows.foldl (fun xp row =>
      if row.lvl.toNat = level then row.xpForNextLevel.toNat % 2 ^ 32 else xp) xp < 2 ^ 32 := by
    intro rows
    induction rows with
    | nil => exact fun xp hxp => hxp
    | cons row rows ih =>
      intro xp hxp
      rw [foldl_cons]
      refine ih _ ?_
      split_ifs
      · exact Nat.mod_lt _ (by decide)
      · exact hxp
  exact h rows 0 (by decide)

theorem clear_levels (maxLevel : ℕ) (levels : List ℕ) :
    levels.foldl (fun t level => t.set level 0) (replicate maxLevel 0) = replicate maxLevel 0 := by
  induction levels with
  | nil => rfl
  | cons level levels ih =>
    rw [foldl_cons, set_replicate_self, ih]

theorem getD_replicate_zero (maxLevel level : ℕ) : (replicate maxLevel 0).getD level 0 = 0 := by
  rw [getD_eq_getElem?_getD, getElem?_replicate]
  split_ifs <;> rfl

theorem load_empty (hmax : maxLevel < 2 ^ 8) : loadGuildXpForLevel fuel maxLevel [] =
      if maxLevel < fuel then some (replicate maxLevel 0) else none := by
  unfold loadGuildXpForLevel
  rw [eachLevel_eq hmax, clear_levels, Nat.sub_zero]
  by_cases hfuel : maxLevel < fuel
  · rw [if_pos hfuel]
    rfl
  · rw [if_neg hfuel]

theorem load_rows (hmax : maxLevel < 2 ^ 8) (hrows : rows ≠ []) :
    loadGuildXpForLevel fuel maxLevel rows = if maxLevel < fuel then
        some ((range' 1 (maxLevel - 1)).foldl (fun t level => fillGap level t)
          (rows.foldl (readRow maxLevel) (replicate maxLevel 0))) else none := by
  unfold loadGuildXpForLevel
  rw [eachLevel_eq hmax, clear_levels, Nat.sub_zero]
  by_cases hfuel : maxLevel < fuel
  · rw [if_pos hfuel, if_pos hfuel]
    dsimp only
    rw [if_neg (by simpa using hrows), eachLevel_eq hmax, if_pos (by omega)]
  · rw [if_neg hfuel, if_neg hfuel]

/-- **The table is loaded** for limits of a byte. -/
theorem load_ends (hmax : maxLevel < 2 ^ 8) (rows : List XpRow) :
    ∃ fuel t, loadGuildXpForLevel fuel maxLevel rows = some t := by
  by_cases hrows : rows = []
  · subst hrows
    exact ⟨maxLevel + 1, _, by rw [load_empty hmax, if_pos (Nat.lt_succ_self _)]⟩
  · exact ⟨maxLevel + 1, _, by rw [load_rows hmax hrows, if_pos (Nat.lt_succ_self _)]⟩

def FirstLevelNeeds (rows : List XpRow) : Prop :=
  rows ≠ [] ∧ (rowXp rows 1 ≠ 0 ∨ rowXp rows 0 ≠ 2 ^ 32 - 1660000)

/-- **What the first level needs** is in the rows or comes from the level before. -/
theorem load_first (hmax : maxLevel < 2 ^ 8) (htwo : 2 ≤ maxLevel)
    (h : loadGuildXpForLevel fuel maxLevel rows = some t) :
    0 < getXPForGuildLevel t 1 ↔ FirstLevelNeeds rows := by
  unfold FirstLevelNeeds
  by_cases hrows : rows = []
  · subst hrows
    rw [load_empty hmax] at h
    split_ifs at h
    obtain rfl := some.inj h
    unfold getXPForGuildLevel
    rw [length_replicate, if_pos (by omega), getD_replicate_zero]
    simp
  rw [load_rows hmax hrows] at h
  split_ifs at h
  have hread := fun level hlevel => @readRows_spec (replicate maxLevel 0) rows level maxLevel
    hlevel length_replicate
  have hrow : ∀ level, level < maxLevel →
      (rows.foldl (readRow maxLevel) (replicate maxLevel 0)).getD level 0 = rowXp rows level := by
    intro level hlevel
    rw [(hread level hlevel).2, getD_replicate_zero]
    rfl
  have hlength := (hread 1 (by omega)).1
  have hfirst : (fillGap 1 (rows.foldl (readRow maxLevel) (replicate maxLevel 0))).getD 1 0 =
      if rowXp rows 1 = 0 then rowXp rows 0 + 1660000 else rowXp rows 1 := by
    unfold fillGap
    rw [hrow 1 (by omega), hrow (1 - 1) (by omega)]
    split_ifs with hzero
    · rw [getD_set _ _ _ _ (by omega), if_pos rfl]
    · exact hrow 1 (by omega)
  obtain ⟨hfilled, hother⟩ := @fillGaps_other
    (fillGap 1 (rows.foldl (readRow maxLevel) (replicate maxLevel 0))) 1
    (range' 2 (maxLevel - 2)) fun l hl => by
      have hge := (mem_range'_1.mp hl).1
      omega
  rw [show maxLevel - 1 = (maxLevel - 2) + 1 by omega, range'_succ, foldl_cons] at h
  obtain rfl := some.inj h
  unfold getXPForGuildLevel
  rw [hfilled, fillGap_length, hlength, if_pos (by omega), hother, hfirst]
  have hzeroth := rowXp_lt rows 0
  have hone := rowXp_lt rows 1
  split_ifs with hzero
  · simp only [hrows, hzero, not_false_eq_true, ne_eq, not_true_eq_false, false_or, true_and]
    omega
  simp only [hrows, hzero, not_false_eq_true, ne_eq, true_or, true_and, iff_true]
  omega

/-- **Guilds are sound if and only if the first level needs experience**, unless there is none
above it or the table is never loaded. -/
theorem experience_right_iff (cfg : Config) (rows : List XpRow) :
    (∀ fuel t g, loadGuildXpForLevel fuel cfg.maxLevel rows = some t → Reachable cfg t g →
      Sound cfg t g) ↔
      2 ^ 8 ≤ cfg.maxLevel ∨ cfg.maxLevel = 1 ∨ 2 ≤ cfg.maxLevel ∧ FirstLevelNeeds rows := by
  by_cases hmax : cfg.maxLevel < 2 ^ 8
  · constructor
    · intro h
      obtain ⟨fuel, t, hload⟩ := load_ends hmax rows
      have hnew := h fuel t create hload .new
      have hpos : 1 ≤ cfg.maxLevel := hnew.level_le
      by_cases htwo : 2 ≤ cfg.maxLevel
      · have hlt := hnew.experience_lt htwo
        exact .inr (.inr ⟨htwo, (load_first hmax htwo hload).mp hlt⟩)
      · exact .inr (.inl (by omega))
    intro h fuel t g hload hg
    have hpos : 1 ≤ cfg.maxLevel := by omega
    refine hg.sound hmax hpos fun hlt => ?_
    have htwo : 2 ≤ cfg.maxLevel := hlt
    exact (load_first hmax htwo hload).mpr (by
      rcases h with h | h | h
      · omega
      · omega
      · exact h.2)
  refine iff_of_true (fun fuel t g hload => ?_) (.inl (by omega))
  unfold loadGuildXpForLevel at hload
  rw [eachLevel_endless (by omega) (by decide)] at hload
  cases hload

def defaults : Config := ⟨true, 25, 7807500⟩

/-- Without rows the first point of experience takes a new guild to the last level. -/
theorem last_level_for_one_point :
    loadGuildXpForLevel 26 defaults.maxLevel [] = some (replicate 25 0) ∧
      (giveXP defaults (replicate 25 0) 26 create 1 false).map (·.level) = some 25 ∧
      ¬Sound defaults (replicate 25 0) create := by
  refine ⟨by decide, by decide, fun h => ?_⟩
  exact absurd (h.experience_lt (by decide)) (by decide)

end ZerosCore.GuildExperience
