/-
# The roles of a group

`LFGMgr::CheckGroupRoles` of `src/server/game/DungeonFinding/LFGMgr.cpp`: a search for one
role for each player of a map of role masks.

The function walks the map and counts the players who have one role.  A player with several
loses one of them in the map and the function calls itself; if that fails the role is given
back and the walk goes on.  Each call takes a bit from a mask, so the depth is bounded by the
sum of the masks, which is the fuel of the model (`solve_fuel`: more makes no difference).
Behind a player with several roles the walk can not succeed by its count, for he is not
counted; that it may fail there rests on the failed calls (`solve_spec`).

The count is compared with the size of the map as a `uint8`, so that 256 players who are not
counted pass for a group (`roles_not_exact`).
-/

import Mathlib.Algebra.Ring.Nat
import Mathlib.Data.List.Count
import Mathlib.Data.List.Forall2

namespace ZerosCore.Lfg

open List Option

/-! ### The search -/

/-- A mask of `LfgRoles`, a `uint8`. -/
abbrev RoleMask := BitVec 8

def playerRoleNone : RoleMask := 0x00
def playerRoleLeader : RoleMask := 0x01
def playerRoleTank : RoleMask := 0x02
def playerRoleHealer : RoleMask := 0x04
def playerRoleDamage : RoleMask := 0x08

def lfgTanksNeeded : ℕ := 1
def lfgHealersNeeded : ℕ := 1
def lfgDpsNeeded : ℕ := 3

/-- `LfgRolesMap`, by guid. -/
abbrev RolesMap := List (ℕ × RoleMask)

/-- `it->second -= role`. -/
def takeRole (role : RoleMask) (i : ℕ) (groles : RolesMap) : RolesMap :=
  groles.modify i fun e => (e.1, e.2 - role)

/-- `it->second += role`. -/
def giveRole (role : RoleMask) (i : ℕ) (groles : RolesMap) : RolesMap :=
  groles.modify i fun e => (e.1, e.2 + role)

/-- The block for one role in the loop of `CheckGroupRoles`, with the count of the role so
far: an answer, or the map and the count with which the loop goes on. -/
def checkRole (solve : RolesMap → Bool × RolesMap) (role : RoleMask) (needed i : ℕ)
    (mask : RoleMask) (groles : RolesMap) (count : ℕ) : Except (Bool × RolesMap) (RolesMap × ℕ) :=
  if mask &&& role = 0 then .ok (groles, count)
  else if mask ≠ role then
    let r := solve (takeRole role i groles)
    if r.1 then .error (true, r.2) else .ok (giveRole role i r.2, count)
  else if count = needed then .error (false, groles)
  else .ok (groles, count + 1)

/-- The loop of `CheckGroupRoles` from an index on. -/
def walk (solve : RolesMap → Bool × RolesMap) :
    (left i damage healer tank : ℕ) → RolesMap → Bool × RolesMap
  | 0, _, damage, healer, tank, groles => (tank + healer + damage = groles.length % 256, groles)
  | left + 1, i, damage, healer, tank, groles =>
    match groles[i]? with
    | none => (false, groles)
    | some (_, mask) =>
      if mask = playerRoleNone then (false, groles)
      else
        match checkRole solve playerRoleDamage lfgDpsNeeded i mask groles damage with
        | .error r => r
        | .ok (groles, damage) =>
          match checkRole solve playerRoleHealer lfgHealersNeeded i mask groles healer with
          | .error r => r
          | .ok (groles, healer) =>
            match checkRole solve playerRoleTank lfgTanksNeeded i mask groles tank with
            | .error r => r
            | .ok (groles, tank) => walk solve left (i + 1) damage healer tank groles

/-- `LFGMgr::CheckGroupRoles` without the removal of the leader flag. -/
def solve : ℕ → RolesMap → Bool × RolesMap
  | 0, groles => (false, groles)
  | fuel + 1, groles =>
    if groles = [] then (false, groles) else walk (solve fuel) groles.length 0 0 0 0 groles

/-- The leader flag is removed from all masks. -/
def clearLeader (groles : RolesMap) : RolesMap :=
  groles.map fun e => (e.1, e.2 &&& ~~~playerRoleLeader)

def total (groles : RolesMap) : ℕ := (groles.map fun e => e.2.toNat).sum

/-- `LFGMgr::CheckGroupRoles`: the answer, and what is in the map then. -/
def checkGroupRoles (groles : RolesMap) : Bool × RolesMap :=
  if groles = [] then (false, groles) else solve (total (clearLeader groles) + 1) (clearLeader groles)

/-! ### Assignments -/

def IsRole (mask : RoleMask) : Prop :=
  mask = playerRoleTank ∨ mask = playerRoleHealer ∨ mask = playerRoleDamage

instance (mask : RoleMask) : Decidable (IsRole mask) :=
  inferInstanceAs (Decidable (_ ∨ _ ∨ _))

def Takes (e e' : ℕ × RoleMask) : Prop := e'.1 = e.1 ∧ IsRole e'.2 ∧ e'.2 &&& e.2 = e'.2

/-- The number of players with a mask. -/
def holders (role : RoleMask) (groles : RolesMap) : ℕ := groles.countP fun e => e.2 = role

/-- Every player takes one role of his own mask, and there are no more tanks, healers and
damage dealers than a group has. -/
structure Assignment (groles a : RolesMap) : Prop where
  takes : List.Forall₂ Takes groles a
  tank : holders playerRoleTank a ≤ lfgTanksNeeded
  healer : holders playerRoleHealer a ≤ lfgHealersNeeded
  damage : holders playerRoleDamage a ≤ lfgDpsNeeded

/-- The mask has no bits but those of `LfgRoles`. -/
def Known (mask : RoleMask) : Prop := mask &&& 0xF0 = 0

/-- The mask has no bits but those of the three roles. -/
def Clean (groles : RolesMap) : Prop := ∀ e ∈ groles, e.2 &&& 0xF1 = 0

/-! ### Masks -/

variable {groles a : RolesMap} {mask role : RoleMask} {i count fuel : ℕ} {e : ℕ × RoleMask}

/-- The role is one of the mask, and there are others. -/
def Splits (role mask : RoleMask) : Prop := IsRole role ∧ mask &&& role ≠ 0 ∧ mask ≠ role

theorem sub_add_role (mask role : RoleMask) : mask - role + role = mask := by
  rw [BitVec.sub_add_cancel]

theorem IsRole.toNat_mem (h : IsRole role) : role.toNat ∈ [2, 4, 8] := by
  rcases h with rfl | rfl | rfl <;> decide

theorem isRole_of_toNat (h : role.toNat ∈ [2, 4, 8]) : IsRole role := by
  simp only [mem_cons, not_mem_nil, or_false] at h
  rcases h with h | h | h
  · exact .inl (BitVec.eq_of_toNat_eq h)
  · exact .inr (.inl (BitVec.eq_of_toNat_eq h))
  · exact .inr (.inr (BitVec.eq_of_toNat_eq h))

theorem and_eq_zero_iff (mask other : RoleMask) : mask &&& other = 0 ↔ mask.toNat &&& other.toNat = 0 := by
  rw [← BitVec.toNat_inj, BitVec.toNat_and]
  exact Iff.rfl

theorem and_eq_iff (r mask : RoleMask) : r &&& mask = r ↔ r.toNat &&& mask.toNat = r.toNat := by
  rw [← BitVec.toNat_inj, BitVec.toNat_and]

/-- **A role that is in a mask** is taken out of it without a borrow. -/
theorem toNat_sub_role (hrole : IsRole role) (hin : mask &&& role ≠ 0) :
    role.toNat ≤ mask.toNat ∧ (mask - role).toNat = mask.toNat - role.toNat := by
  have htable : ∀ m < 256, ∀ k ∈ [2, 4, 8], m &&& k ≠ 0 → k ≤ m := by decide +kernel
  have hle := htable mask.toNat mask.isLt role.toNat hrole.toNat_mem
    fun heq => hin ((and_eq_zero_iff mask role).mpr heq)
  exact ⟨hle, BitVec.toNat_sub_of_le hle⟩

theorem sub_role_lt (h : Splits role mask) : (mask - role).toNat < mask.toNat := by
  obtain ⟨hle, hsub⟩ := toNat_sub_role h.1 h.2.1
  have hpos : ∀ k ∈ [2, 4, 8], 0 < k := by decide
  have hrole := hpos role.toNat h.1.toNat_mem
  omega

theorem sub_role_clean (h : Splits role mask) : (mask - role) &&& 0xF1 = mask &&& 0xF1 := by
  have htable : ∀ m < 256, ∀ k ∈ [2, 4, 8], m &&& k ≠ 0 → (m - k) &&& 0xF1 = m &&& 0xF1 := by
    decide +kernel
  have hone := htable mask.toNat mask.isLt role.toNat h.1.toNat_mem
    fun heq => h.2.1 ((and_eq_zero_iff mask role).mpr heq)
  refine BitVec.eq_of_toNat_eq ?_
  rw [BitVec.toNat_and, BitVec.toNat_and, (toNat_sub_role h.1 h.2.1).2]
  exact hone

variable {r : RoleMask}

theorem takes_of_sub (h : Splits role mask) (hr : IsRole r)
    (htakes : r &&& (mask - role) = r) : r &&& mask = r := by
  have htable : ∀ m < 256, ∀ k ∈ [2, 4, 8], ∀ r ∈ [2, 4, 8], m &&& k ≠ 0 →
      r &&& (m - k) = r → r &&& m = r := by
    decide +kernel
  rw [and_eq_iff, (toNat_sub_role h.1 h.2.1).2] at htakes
  exact (and_eq_iff r mask).mpr (htable mask.toNat mask.isLt role.toNat h.1.toNat_mem r.toNat
    hr.toNat_mem (fun heq => h.2.1 ((and_eq_zero_iff mask role).mpr heq)) htakes)

/-- **One of several roles can be spared**, whichever is taken. -/
theorem exists_spare (hclean : mask &&& 0xF1 = 0) (hnone : mask ≠ playerRoleNone)
    (hmany : ¬IsRole mask) (hr : IsRole r) (htakes : r &&& mask = r) :
    ∃ role, Splits role mask ∧ r &&& (mask - role) = r := by
  have hmasks : ∀ m < 256, m &&& 0xF1 = 0 → m ∈ [0, 2, 4, 6, 8, 10, 12, 14] := by decide +kernel
  have hmany' : ∀ m ∈ [0, 2, 4, 6, 8, 10, 12, 14], m ≠ 0 → m ∉ [2, 4, 8] → m ∈ [6, 10, 12, 14] := by
    decide
  have htable : ∀ m ∈ [6, 10, 12, 14], ∀ r ∈ [2, 4, 8], r &&& m = r →
      ∃ k ∈ [2, 4, 8], m &&& k ≠ 0 ∧ m ≠ k ∧ r &&& (m - k) = r := by
    decide
  have hmask := hmany' mask.toNat
    (hmasks mask.toNat mask.isLt ((and_eq_zero_iff mask 0xF1).mp hclean))
    (fun heq => hnone (BitVec.eq_of_toNat_eq heq)) (fun hmem => hmany (isRole_of_toNat hmem))
  obtain ⟨k, hk, hin, hne, hsub⟩ := htable mask.toNat hmask r.toNat hr.toNat_mem
    ((and_eq_iff r mask).mp htakes)
  have hlt : ∀ k ∈ [2, 4, 8], k < 2 ^ 8 := by decide
  have htoNat : (BitVec.ofNat 8 k).toNat = k := by
    rw [BitVec.toNat_ofNat, Nat.mod_eq_of_lt (hlt k hk)]
  have hrole : IsRole (BitVec.ofNat 8 k) := isRole_of_toNat (htoNat.symm ▸ hk)
  have hin' : mask &&& BitVec.ofNat 8 k ≠ 0 := by
    rw [Ne, and_eq_zero_iff, htoNat]
    exact hin
  refine ⟨BitVec.ofNat 8 k, ⟨hrole, hin', fun heq => hne ?_⟩, ?_⟩
  · rw [← htoNat, ← heq]
  rw [and_eq_iff, (toNat_sub_role hrole hin').2, htoNat]
  exact hsub

theorem takes_unique (hmask : IsRole mask) (hr : IsRole r) (htakes : r &&& mask = r) :
    r = mask := by
  rcases hmask with rfl | rfl | rfl <;> rcases hr with rfl | rfl | rfl <;>
    first | rfl | exact absurd htakes (by decide)

theorem takes_self (h : IsRole mask) : mask &&& mask = mask := by
  rcases h with rfl | rfl | rfl <;> rfl

/-! ### Maps -/

theorem forall₂_modify {α β : Type*} {R : α → β → Prop} {l : List α} {l' : List β} {f : α → α}
    (h : Forall₂ R l l') (hi : ∀ x y, l[i]? = some x → l'[i]? = some y → R (f x) y) :
    Forall₂ R (l.modify i f) l' := by
  induction h generalizing i with
  | nil =>
    rw [modify_nil]
    exact .nil
  | @cons x y l l' hxy hrest ih =>
    cases i with
    | zero => exact .cons (hi x y rfl rfl) hrest
    | succ i => exact .cons hxy (ih fun x' y' hx hy => hi x' y' hx hy)

theorem forall₂_getElem? {α β : Type*} {R : α → β → Prop} {l : List α} {l' : List β}
    (h : Forall₂ R l l') {x : α} (hx : l[i]? = some x) : ∃ y, l'[i]? = some y ∧ R x y := by
  induction h generalizing i with
  | nil => cases hx
  | @cons a b l l' hab hrest ih =>
    cases i with
    | zero =>
      cases hx
      exact ⟨b, rfl, hab⟩
    | succ i => exact ih hx

theorem giveRole_takeRole (role : RoleMask) (i : ℕ) (groles : RolesMap) :
    giveRole role i (takeRole role i groles) = groles := by
  refine ext_getElem? fun k => ?_
  unfold giveRole takeRole
  rw [getElem?_modify, getElem?_modify]
  cases groles[k]? with
  | none => rfl
  | some e =>
    by_cases hk : i = k
    · simp only [hk, if_true, Option.map_eq_map, map_some, sub_add_role]
    · simp [hk]

theorem length_takeRole (role : RoleMask) (i : ℕ) (groles : RolesMap) :
    (takeRole role i groles).length = groles.length :=
  length_modify _ _ _

theorem total_takeRole (hi : groles[i]? = some e) (h : Splits role e.2) :
    total (takeRole role i groles) < total groles := by
  have hlt := sub_role_lt h
  unfold takeRole total
  induction groles generalizing i with
  | nil => cases hi
  | cons e' groles ih =>
    cases i with
    | zero =>
      cases hi
      exact Nat.add_lt_add_right hlt _
    | succ i =>
      have hrest := ih hi
      rw [modify_succ_cons, map_cons, map_cons, sum_cons, sum_cons]
      omega

/-- **A solution with fewer roles** is one with all. -/
theorem Assignment.of_takeRole (hi : groles[i]? = some e) (h : Splits role e.2)
    (ha : Assignment (takeRole role i groles) a) : Assignment groles a := by
  refine { ha with takes := ?_ }
  have hgive := forall₂_modify (f := fun e => (e.1, e.2 + role)) (i := i) ha.takes
    fun x y hx hy => ?_
  · have hback := giveRole_takeRole role i groles
    unfold giveRole at hback
    rw [hback] at hgive
    exact hgive
  obtain ⟨y', hy', hxy⟩ := forall₂_getElem? ha.takes hx
  rw [hy, some.injEq] at hy'
  subst hy'
  unfold takeRole at hx
  rw [getElem?_modify_eq, hi] at hx
  cases hx
  obtain ⟨hguid, hrole, htakes⟩ := hxy
  refine ⟨hguid, hrole, ?_⟩
  rw [sub_add_role]
  exact takes_of_sub h hrole htakes

theorem clean_takeRole (hi : groles[i]? = some e) (h : Splits role e.2) :
    Clean (takeRole role i groles) ↔ Clean groles := by
  have hmap : (takeRole role i groles).map (·.2 &&& 0xF1) =
      groles.map fun e => e.2 &&& 0xF1 := by
    refine ext_getElem? fun k => ?_
    unfold takeRole
    rw [getElem?_map, getElem?_map, getElem?_modify]
    by_cases hk : i = k
    · subst hk
      rw [hi]
      simp only [if_true, Option.map_eq_map, Option.map_some]
      exact congrArg some (sub_role_clean h)
    cases groles[k]? with
    | none => rfl
    | some e' => simp [hk]
  have hall (l : RolesMap) : Clean l ↔ ∀ m ∈ l.map fun e => e.2 &&& 0xF1, m = 0 := by
    rw [List.forall_mem_map]
    exact Iff.rfl
  rw [hall, hall, hmap]

/-- A map that can be solved: no unknown bits, and roles for all. -/
def Solvable (groles : RolesMap) : Prop := Clean groles ∧ ∃ a, Assignment groles a

/-- **A player with several roles** can give up one of them, if there is a solution. -/
theorem Solvable.exists_takeRole (hs : Solvable groles) (hi : groles[i]? = some e)
    (hmany : ¬IsRole e.2) : ∃ role, Splits role e.2 ∧ Solvable (takeRole role i groles) := by
  obtain ⟨hclean, a, ha⟩ := hs
  obtain ⟨e', he', hguid, hrole, htakes⟩ := forall₂_getElem? ha.takes hi
  have hnone : e.2 ≠ playerRoleNone := by
    rintro heq
    rw [heq] at htakes
    have hzero : e'.2 = 0 := htakes.symm.trans (BitVec.and_zero)
    rw [hzero] at hrole
    exact absurd hrole (by decide)
  obtain ⟨role, hsplits, hsub⟩ := exists_spare (hclean e (mem_of_getElem? hi)) hnone hmany
    hrole htakes
  refine ⟨role, hsplits, (clean_takeRole hi hsplits).mpr hclean, a, ?_, ha.tank, ha.healer,
    ha.damage⟩
  refine forall₂_modify ha.takes fun x y hx hy => ?_
  rw [hi] at hx
  rw [he'] at hy
  cases hx
  cases hy
  exact ⟨hguid, hrole, hsub⟩

theorem holders_le (ha : Forall₂ Takes groles a) (hrole : IsRole role) :
    holders role groles ≤ holders role a := by
  unfold holders
  induction ha with
  | nil => exact Nat.le_refl 0
  | @cons e e' groles a htake hrest ih =>
    rw [countP_cons, countP_cons]
    have hone : (if decide (e.2 = role) = true then 1 else 0) ≤
        if decide (e'.2 = role) = true then 1 else 0 := by
      by_cases heq : e.2 = role
      · have hsame := takes_unique (heq ▸ hrole) htake.2.1 htake.2.2
        simp [heq, hsame.trans heq]
      · simp [heq]
    omega

theorem holders_le_length (groles : RolesMap) :
    holders playerRoleTank groles + holders playerRoleHealer groles +
        holders playerRoleDamage groles ≤ groles.length ∧
      (holders playerRoleTank groles + holders playerRoleHealer groles +
        holders playerRoleDamage groles = groles.length ↔ ∀ e ∈ groles, IsRole e.2) := by
  unfold holders
  induction groles with
  | nil => exact ⟨Nat.le_refl 0, nofun, fun _ => rfl⟩
  | cons e groles ih =>
    obtain ⟨hle, hiff⟩ := ih
    rw [countP_cons, countP_cons, countP_cons, length_cons, forall_mem_cons, ← hiff]
    simp only [decide_eq_true_eq]
    by_cases ht : e.2 = playerRoleTank
    · have hone : IsRole e.2 := .inl ht
      have hh : e.2 ≠ playerRoleHealer := by rw [ht]; decide
      have hd : e.2 ≠ playerRoleDamage := by rw [ht]; decide
      rw [if_pos ht, if_neg hh, if_neg hd]
      constructor
      · omega
      rw [and_iff_right hone]
      omega
    by_cases hh : e.2 = playerRoleHealer
    · have hone : IsRole e.2 := .inr (.inl hh)
      have hd : e.2 ≠ playerRoleDamage := by rw [hh]; decide
      rw [if_neg ht, if_pos hh, if_neg hd]
      constructor
      · omega
      rw [and_iff_right hone]
      omega
    by_cases hd : e.2 = playerRoleDamage
    · have hone : IsRole e.2 := .inr (.inr hd)
      rw [if_neg ht, if_neg hh, if_pos hd]
      constructor
      · omega
      rw [and_iff_right hone]
      omega
    have hnone : ¬IsRole e.2 := fun h => h.elim ht fun h => h.elim hh hd
    rw [if_neg ht, if_neg hh, if_neg hd]
    constructor
    · omega
    constructor
    · omega
    · exact fun h => absurd h.1 hnone

/-! ### The walk -/

/-- An answer is right: the map ends with a solution, or is as it was and has none. -/
structure Solves (r : Bool × RolesMap) (groles : RolesMap) : Prop where
  found : r.1 = true → Clean groles ∧ Assignment groles r.2
  none : r.1 = false → r.2 = groles ∧ ¬Solvable groles

theorem Solves.of_found (hclean : Clean groles) (ha : Assignment groles a) : Solves (true, a) groles :=
  ⟨fun _ => ⟨hclean, ha⟩, nofun⟩

theorem Solves.of_none (h : ¬Solvable groles) : Solves (false, groles) groles :=
  ⟨nofun, fun _ => ⟨rfl, h⟩⟩

/-- **The block for one role.** -/
theorem checkRole_spec {solve : RolesMap → Bool × RolesMap} (needed count : ℕ)
    (hi : groles[i]? = some e) (hrole : IsRole role)
    (hsolve : Splits role e.2 → Solves (solve (takeRole role i groles)) (takeRole role i groles)) :
    (∃ a, checkRole solve role needed i e.2 groles count = .error (true, a) ∧ Clean groles ∧
      Assignment groles a) ∨
    (checkRole solve role needed i e.2 groles count = .error (false, groles) ∧ e.2 = role ∧
      count = needed) ∨ (checkRole solve role needed i e.2 groles count =
        .ok (groles, count + if e.2 = role then 1 else 0) ∧ (e.2 = role → count ≠ needed) ∧
      (Splits role e.2 → ¬Solvable (takeRole role i groles))) := by
  unfold checkRole
  by_cases hin : e.2 &&& role = 0
  · rw [if_pos hin]
    have hne : e.2 ≠ role := by
      intro heq
      rw [heq, takes_self hrole] at hin
      rw [hin] at hrole
      exact absurd hrole (by decide)
    rw [if_neg hne]
    exact .inr (.inr ⟨rfl, fun heq => absurd heq hne, fun hsplits => absurd hin hsplits.2.1⟩)
  rw [if_neg hin]
  by_cases heq : e.2 = role
  · rw [if_neg (not_not_intro heq), if_pos heq]
    by_cases hfull : count = needed
    · rw [if_pos hfull]
      exact .inr (.inl ⟨rfl, heq, hfull⟩)
    rw [if_neg hfull]
    exact .inr (.inr ⟨rfl, fun _ => hfull, fun hsplits => absurd heq hsplits.2.2⟩)
  have hsplits : Splits role e.2 := ⟨hrole, hin, heq⟩
  have hright := hsolve hsplits
  rw [if_pos heq, if_neg heq]
  dsimp only
  cases hr : (solve (takeRole role i groles)).1 with
  | true =>
    obtain ⟨hclean, ha⟩ := hright.found hr
    exact .inl ⟨_, rfl, (clean_takeRole hi hsplits).mp hclean, ha.of_takeRole hi hsplits⟩
  | false =>
    obtain ⟨hsame, hnone⟩ := hright.none hr
    rw [if_neg Bool.false_ne_true, hsame, giveRole_takeRole]
    exact .inr (.inr ⟨rfl, fun h => absurd h heq, fun _ => hnone⟩)

/-- The loop stops with the answer of a block, or goes on with what the block has found. -/
def afterBlock (k : RolesMap → ℕ → Bool × RolesMap) :
    Except (Bool × RolesMap) (RolesMap × ℕ) → Bool × RolesMap
  | .error r => r
  | .ok (groles, count) => k groles count

variable {k k' : RolesMap → ℕ → Bool × RolesMap} {needed : ℕ}

theorem Solves.afterBlock {solve : RolesMap → Bool × RolesMap}
    (needed count : ℕ) (hi : groles[i]? = some e) (hrole : IsRole role)
    (hsolve : Splits role e.2 → Solves (solve (takeRole role i groles)) (takeRole role i groles))
    (hfull : e.2 = role ∧ count = needed → ¬Solvable groles)
    (hk : (e.2 = role → count ≠ needed) → (Splits role e.2 → ¬Solvable (takeRole role i groles)) →
      Solves (k groles (count + if e.2 = role then 1 else 0)) groles) :
    Solves (afterBlock k (checkRole solve role needed i e.2 groles count)) groles := by
  rcases checkRole_spec needed count hi hrole hsolve with
    ⟨a, heq, hclean, ha⟩ | ⟨heq, hone⟩ | ⟨heq, hless, hsplits⟩
  · rw [heq]
    exact .of_found hclean ha
  · rw [heq]
    exact .of_none (hfull hone)
  · rw [heq]
    exact hk hless hsplits

theorem not_solvable_none (hi : groles[i]? = some e) (hnone : e.2 = playerRoleNone) :
    ¬Solvable groles := by
  rintro ⟨-, a, ha⟩
  obtain ⟨e', -, -, hrole, htakes⟩ := forall₂_getElem? ha.takes hi
  rw [hnone] at htakes
  have hzero : e'.2 = 0 := htakes.symm.trans (BitVec.and_zero)
  rw [hzero] at hrole
  exact absurd hrole (by decide)

theorem take_succ_of_getElem? (hi : groles[i]? = some e) : groles.take (i + 1) = groles.take i ++ [e] := by
  rw [take_add_one, hi, toList_some]

theorem holders_take_succ (hi : groles[i]? = some e) (role : RoleMask) :
    holders role (groles.take (i + 1)) =
      holders role (groles.take i) + if e.2 = role then 1 else 0 := by
  rw [take_succ_of_getElem? hi]
  unfold holders
  rw [countP_append, countP_singleton]
  simp only [decide_eq_true_eq]

theorem lt_holders (hcount : count = holders role (groles.take i))
    (hi : groles[i]? = some e) (heq : e.2 = role) : count < holders role groles := by
  have hsucc := holders_take_succ hi role
  have hsub : holders role (groles.take (i + 1)) ≤ holders role groles :=
    (take_sublist _ _).countP_le
  rw [if_pos heq] at hsucc
  omega

/-- What the walk knows when it comes to an index. -/
structure Walked (groles : RolesMap) (i damage healer tank : ℕ) : Prop where
  damages : damage = holders playerRoleDamage (groles.take i)
  healers : healer = holders playerRoleHealer (groles.take i)
  tanks : tank = holders playerRoleTank (groles.take i)
  few : damage ≤ lfgDpsNeeded ∧ healer ≤ lfgHealersNeeded ∧ tank ≤ lfgTanksNeeded
  many : (∃ e ∈ groles.take i, ¬IsRole e.2) → ¬Solvable groles

/-- **The end of the walk**: all have been counted, or somebody has several roles. -/
theorem Walked.finish {damage healer tank : ℕ} (h : Walked groles groles.length damage healer tank)
    (hlength : groles.length < 256) :
    Solves (decide (tank + healer + damage = groles.length % 256), groles) groles := by
  obtain ⟨hdamage, hhealer, htank, ⟨hd, hh, ht⟩, hmany⟩ := h
  rw [take_length] at hdamage hhealer htank hmany
  obtain ⟨-, hiff⟩ := holders_le_length groles
  rw [← hdamage, ← hhealer, ← htank] at hiff
  rw [Nat.mod_eq_of_lt hlength]
  by_cases hall : ∀ e ∈ groles, IsRole e.2
  · rw [decide_eq_true (hiff.mpr hall)]
    refine .of_found (fun e he => ?_) ⟨?_, htank ▸ ht, hhealer ▸ hh, hdamage ▸ hd⟩
    · rcases hall e he with heq | heq | heq
      all_goals
        rw [heq]
        decide
    · exact forall₂_same.mpr fun e he => ⟨rfl, hall e he, takes_self (hall e he)⟩
  rw [decide_eq_false fun heq => hall (hiff.mp heq)]
  refine .of_none (hmany ?_)
  by_contra hnot
  exact hall fun e he => by_contra fun hrole => hnot ⟨e, he, hrole⟩

/-- **The walk** answers right, by induction on the players that are left. -/
theorem walk_spec {solve : RolesMap → Bool × RolesMap} (hlength : groles.length < 256)
    (hsolve : ∀ i e role, groles[i]? = some e → Splits role e.2 →
      Solves (solve (takeRole role i groles)) (takeRole role i groles))
    (left i damage healer tank : ℕ) (hleft : i + left = groles.length)
    (h : Walked groles i damage healer tank) :
    Solves (walk solve left i damage healer tank groles) groles := by
  induction left generalizing i damage healer tank with
  | zero =>
    obtain rfl : i = groles.length := hleft
    exact h.finish hlength
  | succ left ih =>
    obtain ⟨e, hi⟩ : ∃ e, groles[i]? = some e :=
      ⟨_, getElem?_eq_getElem (show i < groles.length by omega)⟩
    obtain ⟨hdamage, hhealer, htank, ⟨hd, hh, ht⟩, hmany⟩ := h
    have hfull (role : RoleMask) (hrole : IsRole role) {count needed : ℕ}
        (hcount : count = holders role (groles.take i)) (heq : e.2 = role ∧ count = needed)
        (hneeded : ∀ a, Assignment groles a → holders role a ≤ needed) : ¬Solvable groles := by
      rintro ⟨-, a, ha⟩
      have hlt := lt_holders hcount hi heq.1
      have hle := holders_le ha.takes hrole
      have hmax := hneeded a ha
      omega
    unfold walk
    rw [hi]
    obtain ⟨guid, mask⟩ := e
    dsimp only
    split
    · rename_i hnone
      exact .of_none (not_solvable_none hi hnone)
    refine .afterBlock lfgDpsNeeded damage hi (.inr (.inr rfl)) (hsolve i _ _ hi)
      (hfull _ (.inr (.inr rfl)) hdamage · fun _ ha => ha.damage) fun hdamage' hsplitD => ?_
    refine .afterBlock lfgHealersNeeded healer hi (.inr (.inl rfl)) (hsolve i _ _ hi)
      (hfull _ (.inr (.inl rfl)) hhealer · fun _ ha => ha.healer) fun hhealer' hsplitH => ?_
    refine .afterBlock lfgTanksNeeded tank hi (.inl rfl) (hsolve i _ _ hi)
      (hfull _ (.inl rfl) htank · fun _ ha => ha.tank) fun htank' hsplitT => ?_
    refine ih (i + 1) _ _ _ (by omega) ⟨?_, ?_, ?_, ⟨?_, ?_, ?_⟩, ?_⟩
    · rw [holders_take_succ hi, hdamage]
    · rw [holders_take_succ hi, hhealer]
    · rw [holders_take_succ hi, htank]
    · split
      · rename_i hone
        have hne := hdamage' hone
        omega
      · omega
    · split
      · rename_i hone
        have hne := hhealer' hone
        omega
      · omega
    · split
      · rename_i hone
        have hne := htank' hone
        omega
      · omega
    rintro ⟨e', he', hnot⟩
    rw [take_succ_of_getElem? hi] at he'
    rcases mem_append.mp he' with hold | hnew
    · exact hmany ⟨e', hold, hnot⟩
    rw [mem_singleton.mp hnew] at hnot
    intro hs
    obtain ⟨role, hsplits, hless⟩ := hs.exists_takeRole hi hnot
    rcases hsplits.1 with rfl | rfl | rfl
    · exact hsplitT hsplits hless
    · exact hsplitH hsplits hless
    · exact hsplitD hsplits hless

/-- **The search is exact**, by induction on the fuel: each call has fewer bits. -/
theorem solve_spec (hne : groles ≠ []) (hlength : groles.length < 256)
    (hfuel : total groles < fuel) : Solves (solve fuel groles) groles := by
  induction fuel generalizing groles with
  | zero => exact absurd hfuel (Nat.not_lt_zero _)
  | succ fuel ih =>
    unfold solve
    rw [if_neg hne]
    refine walk_spec hlength (fun i e role hi hsplits => ?_) _ 0 0 0 0 (Nat.zero_add _)
      ⟨?_, ?_, ?_, ⟨Nat.zero_le _, Nat.zero_le _, Nat.zero_le _⟩, ?_⟩
    · refine ih (fun hnil => hne ?_) ?_ ?_
      · have hlen := length_takeRole role i groles
        rw [hnil] at hlen
        exact length_eq_zero_iff.mp hlen.symm
      · rw [length_takeRole]
        exact hlength
      have hlt := total_takeRole hi hsplits
      omega
    · rfl
    · rfl
    · rfl
    rintro ⟨e, he, -⟩
    cases he

/-! ### Fuel -/

theorem checkRole_congr {solve solve' : RolesMap → Bool × RolesMap} (hrole : IsRole role)
    (hsame : Splits role mask → solve (takeRole role i groles) = solve' (takeRole role i groles)) :
    checkRole solve role needed i mask groles count =
      checkRole solve' role needed i mask groles count := by
  unfold checkRole
  by_cases hin : mask &&& role = 0
  · rw [if_pos hin, if_pos hin]
  by_cases heq : mask = role
  · rw [if_neg (not_not_intro heq), if_neg (not_not_intro heq)]
  · rw [hsame ⟨hrole, hin, heq⟩]

theorem afterBlock_congr {solve solve' : RolesMap → Bool × RolesMap}
    (hi : groles[i]? = some e) (hrole : IsRole role)
    (hsolve : Splits role e.2 → Solves (solve (takeRole role i groles)) (takeRole role i groles))
    (hsame : Splits role e.2 → solve (takeRole role i groles) = solve' (takeRole role i groles))
    (hk : ∀ n, k groles n = k' groles n) :
    afterBlock k (checkRole solve role needed i e.2 groles count) =
      afterBlock k' (checkRole solve' role needed i e.2 groles count) := by
  rw [← checkRole_congr hrole hsame]
  rcases checkRole_spec needed count hi hrole hsolve with ⟨a, heq, -⟩ | ⟨heq, -⟩ | ⟨heq, -⟩
  all_goals rw [heq]
  · rfl
  · rfl
  · exact hk _

theorem walk_congr {solve solve' : RolesMap → Bool × RolesMap}
    (hsolve : ∀ i e role, groles[i]? = some e → Splits role e.2 →
      Solves (solve (takeRole role i groles)) (takeRole role i groles))
    (hsame : ∀ i e role, groles[i]? = some e → Splits role e.2 →
      solve (takeRole role i groles) = solve' (takeRole role i groles))
    (left i damage healer tank : ℕ) :
    walk solve left i damage healer tank groles = walk solve' left i damage healer tank groles := by
  induction left generalizing i damage healer tank with
  | zero => rfl
  | succ left ih =>
    unfold walk
    cases hi : groles[i]? with
    | none => rfl
    | some e =>
      obtain ⟨guid, mask⟩ := e
      dsimp only
      split
      · rfl
      refine afterBlock_congr hi (.inr (.inr rfl)) (hsolve i _ _ hi) (hsame i _ _ hi) fun _ => ?_
      refine afterBlock_congr hi (.inr (.inl rfl)) (hsolve i _ _ hi) (hsame i _ _ hi) fun _ => ?_
      exact afterBlock_congr hi (.inl rfl) (hsolve i _ _ hi) (hsame i _ _ hi) fun _ => ih _ _ _ _

/-- **The search ends**: with more fuel than bits no call comes to the end of it. -/
theorem solve_fuel (hlength : groles.length < 256) {fuel' : ℕ} (hfuel : total groles < fuel)
    (hfuel' : total groles < fuel') : solve fuel groles = solve fuel' groles := by
  induction fuel generalizing fuel' groles with
  | zero => exact absurd hfuel (Nat.not_lt_zero _)
  | succ fuel ih =>
    cases fuel' with
    | zero => exact absurd hfuel' (Nat.not_lt_zero _)
    | succ fuel' =>
      unfold solve
      by_cases hne : groles = []
      · rw [if_pos hne, if_pos hne]
      rw [if_neg hne, if_neg hne]
      refine walk_congr (fun i e role hi hsplits => ?_) (fun i e role hi hsplits => ?_) _ _ _ _ _
      · have hlt := total_takeRole hi hsplits
        refine solve_spec (fun hnil => hne ?_) ?_ (by omega)
        · have hlen := length_takeRole role i groles
          rw [hnil] at hlen
          exact length_eq_zero_iff.mp hlen.symm
        rw [length_takeRole]
        exact hlength
      have hlt := total_takeRole hi hsplits
      refine ih ?_ (by omega) (by omega)
      rw [length_takeRole]
      exact hlength

/-! ### The leader flag -/

theorem takes_clearLeader (e e' : ℕ × RoleMask) :
    Takes (e.1, e.2 &&& ~~~playerRoleLeader) e' ↔ Takes e e' := by
  have htable : ∀ m < 256, ∀ r ∈ [2, 4, 8], r &&& (m &&& 0xFE) = r ↔ r &&& m = r := by
    decide +kernel
  refine and_congr_right fun _ => and_congr_right fun hrole => ?_
  rw [and_eq_iff, and_eq_iff, BitVec.toNat_and]
  exact htable e.2.toNat e.2.isLt e'.2.toNat hrole.toNat_mem

theorem assignment_clearLeader : Assignment (clearLeader groles) a ↔ Assignment groles a := by
  have htakes : Forall₂ Takes (clearLeader groles) a ↔ Forall₂ Takes groles a := by
    unfold clearLeader
    rw [forall₂_map_left_iff]
    simp only [takes_clearLeader]
  exact ⟨fun h => { h with takes := htakes.mp h.takes },
    fun h => { h with takes := htakes.mpr h.takes }⟩

theorem clean_clearLeader : Clean (clearLeader groles) ↔ ∀ e ∈ groles, Known e.2 := by
  have htable : ∀ m < 256, (m &&& 0xFE) &&& 0xF1 = 0 ↔ m &&& 0xF0 = 0 := by decide +kernel
  unfold Clean clearLeader
  rw [List.forall_mem_map]
  refine forall₂_congr fun e _ => ?_
  unfold Known
  rw [and_eq_zero_iff, and_eq_zero_iff, BitVec.toNat_and]
  exact htable e.2.toNat e.2.isLt

/-! ### More players than a byte counts -/

theorem checkRole_restores {solve : RolesMap → Bool × RolesMap}
    (hsolve : ∀ groles, (solve groles).1 = false → (solve groles).2 = groles) :
    (∀ b a, checkRole solve role needed i mask groles count = .error (b, a) → b = false →
      a = groles) ∧
    ∀ a n, checkRole solve role needed i mask groles count = .ok (a, n) → a = groles := by
  unfold checkRole
  split
  · exact ⟨nofun, fun _ _ h => by cases h; rfl⟩
  split
  · dsimp only
    cases hr : (solve (takeRole role i groles)).1 with
    | true =>
      exact ⟨fun _ _ h hb => (by cases h; cases hb), nofun⟩
    | false =>
      rw [if_neg Bool.false_ne_true, hsolve _ hr, giveRole_takeRole]
      exact ⟨nofun, fun _ _ h => by cases h; rfl⟩
  split
  · exact ⟨fun _ _ h _ => (by cases h; rfl), nofun⟩
  · exact ⟨nofun, fun _ _ h => by cases h; rfl⟩

theorem afterBlock_restores {solve : RolesMap → Bool × RolesMap}
    (hsolve : ∀ groles, (solve groles).1 = false → (solve groles).2 = groles)
    (hk : ∀ n, (k groles n).1 = false → (k groles n).2 = groles)
    (h : (afterBlock k (checkRole solve role needed i mask groles count)).1 = false) :
    (afterBlock k (checkRole solve role needed i mask groles count)).2 = groles := by
  cases hr : checkRole solve role needed i mask groles count with
  | error r =>
    rw [hr] at h
    exact (checkRole_restores hsolve).1 _ _ hr h
  | ok r =>
    rw [hr] at h
    obtain ⟨a, n⟩ := r
    obtain rfl := (checkRole_restores hsolve).2 a n hr
    exact hk n h

theorem walk_restores {solve : RolesMap → Bool × RolesMap}
    (hsolve : ∀ groles, (solve groles).1 = false → (solve groles).2 = groles)
    (left i damage healer tank : ℕ) (h : (walk solve left i damage healer tank groles).1 = false) :
    (walk solve left i damage healer tank groles).2 = groles := by
  induction left generalizing i damage healer tank with
  | zero => rfl
  | succ left ih =>
    unfold walk at h ⊢
    cases hi : groles[i]? with
    | none => rfl
    | some e =>
      rw [hi] at h
      dsimp only at h ⊢
      split
      · rfl
      rename_i hnone
      rw [if_neg hnone] at h
      exact afterBlock_restores hsolve (fun _ => afterBlock_restores hsolve fun _ =>
        afterBlock_restores hsolve fun _ => ih _ _ _ _) h

/-- **A search that fails** leaves the map as it was, however many players there are. -/
theorem solve_restores (fuel : ℕ) (groles : RolesMap) (h : (solve fuel groles).1 = false) :
    (solve fuel groles).2 = groles := by
  induction fuel generalizing groles with
  | zero => rfl
  | succ fuel ih =>
    unfold solve at h ⊢
    split
    · rfl
    rename_i hne
    rw [if_neg hne] at h
    exact walk_restores ih _ _ _ _ _ h

theorem afterBlock_unsplit {solve : RolesMap → Bool × RolesMap}
    (hsolve : ∀ groles, (solve groles).1 = false → (solve groles).2 = groles) (hne : mask ≠ role)
    (hk : (k groles count).1 = true) :
    (afterBlock k (checkRole solve role needed i mask groles count)).1 = true := by
  unfold checkRole
  by_cases hin : mask &&& role = 0
  · rw [if_pos hin]
    exact hk
  rw [if_neg hin, if_pos hne]
  dsimp only
  cases hr : (solve (takeRole role i groles)).1 with
  | true => rfl
  | false =>
    rw [if_neg Bool.false_ne_true, hsolve _ hr, giveRole_takeRole]
    exact hk

/-- **Players who are not counted**: if all have several roles and their number is nothing as
a byte, the answer is yes. -/
theorem solve_unsplit (hlength : groles.length % 256 = 0) (hne : groles ≠ [])
    (hmany : ∀ e ∈ groles, e.2 ≠ playerRoleNone ∧ ¬IsRole e.2) (fuel : ℕ) :
    (solve (fuel + 1) groles).1 = true := by
  have hwalk (left i : ℕ) (hleft : i + left = groles.length) :
      (walk (solve fuel) left i 0 0 0 groles).1 = true := by
    induction left generalizing i with
    | zero => exact decide_eq_true hlength.symm
    | succ left ih =>
      obtain ⟨e, hi⟩ : ∃ e, groles[i]? = some e :=
        ⟨_, getElem?_eq_getElem (show i < groles.length by omega)⟩
      obtain ⟨hnone, hrole⟩ := hmany e (mem_of_getElem? hi)
      unfold walk
      rw [hi]
      dsimp only
      rw [if_neg hnone]
      refine afterBlock_unsplit (solve_restores fuel) (fun heq => hrole (.inr (.inr heq))) ?_
      refine afterBlock_unsplit (solve_restores fuel) (fun heq => hrole (.inr (.inl heq))) ?_
      exact afterBlock_unsplit (solve_restores fuel) (fun heq => hrole (.inl heq)) (ih (i + 1) (by omega))
  unfold solve
  rw [if_neg hne]
  exact hwalk _ 0 (Nat.zero_add _)

theorem Assignment.isRole (h : Assignment groles a) : ∀ e ∈ a, IsRole e.2 := by
  intro e he
  obtain ⟨i, hi⟩ := mem_iff_getElem?.mp he
  have hlt : i < groles.length := by
    rw [h.takes.length_eq]
    exact (List.getElem?_eq_some_iff.mp hi).1
  obtain ⟨e', he', -, hrole, -⟩ := forall₂_getElem? h.takes (getElem?_eq_getElem hlt)
  rw [hi] at he'
  cases he'
  exact hrole

theorem Assignment.length_le (h : Assignment groles a) : groles.length ≤ 5 := by
  have hsum := (holders_le_length a).2.mpr h.isRole
  have ht := h.tank
  have hh := h.healer
  have hd := h.damage
  have hone : lfgTanksNeeded = 1 := rfl
  have hone' : lfgHealersNeeded = 1 := rfl
  have hthree : lfgDpsNeeded = 3 := rfl
  rw [h.takes.length_eq]
  omega

/-! ### What the function answers -/

theorem checkGroupRoles_spec (hlength : groles.length < 256) : ((checkGroupRoles groles).1 = true ↔
      groles ≠ [] ∧ (∀ e ∈ groles, Known e.2) ∧ ∃ a, Assignment groles a) ∧
    ((checkGroupRoles groles).1 = true → Assignment groles (checkGroupRoles groles).2) := by
  have hlength' : (clearLeader groles).length < 256 := by
    rwa [clearLeader, length_map]
  unfold checkGroupRoles
  by_cases hne : groles = []
  · rw [if_pos hne]
    exact ⟨⟨nofun, fun h => absurd hne h.1⟩, nofun⟩
  rw [if_neg hne]
  have hne' : clearLeader groles ≠ [] := fun h => hne (map_eq_nil_iff.mp h)
  have hright := solve_spec hne' hlength' (Nat.lt_succ_self _)
  refine ⟨?_, fun htrue => ?_⟩
  · rw [← clean_clearLeader]
    constructor
    · intro htrue
      obtain ⟨hclean, ha⟩ := hright.found htrue
      exact ⟨hne, hclean, _, assignment_clearLeader.mp ha⟩
    rintro ⟨-, hclean, a, ha⟩
    by_contra hfalse
    exact (hright.none (Bool.not_eq_true _ ▸ hfalse)).2 ⟨hclean, a, assignment_clearLeader.mpr ha⟩
  · exact assignment_clearLeader.mp (hright.found htrue).2

/-- **The roles of a group.**  For up to 255 players the search ends, it finds roles exactly if
there is a player, no mask has an unknown bit and there is an assignment, and then it leaves
an assignment in the map. -/
theorem checkGroupRoles_iff (groles : RolesMap) (hlength : groles.length < 256) :
    (∀ fuel, total (clearLeader groles) < fuel → groles ≠ [] →
      solve fuel (clearLeader groles) = checkGroupRoles groles) ∧
    ((checkGroupRoles groles).1 = true ↔
      groles ≠ [] ∧ (∀ e ∈ groles, Known e.2) ∧ ∃ a, Assignment groles a) ∧
    ((checkGroupRoles groles).1 = true → Assignment groles (checkGroupRoles groles).2) := by
  refine ⟨fun fuel hfuel hne => ?_, checkGroupRoles_spec hlength⟩
  have hlength' : (clearLeader groles).length < 256 := by
    rwa [clearLeader, length_map]
  unfold checkGroupRoles
  rw [if_neg hne]
  exact solve_fuel hlength' hfuel (Nat.lt_succ_self _)

/-- A leader who can only be the tank, and two who could both be the healer. -/
theorem checkGroupRoles_three : ((checkGroupRoles [(1, 0x03), (2, 0x0E), (3, 0x0C)]).1 = true ↔
      [(1, (0x03 : RoleMask)), (2, 0x0E), (3, 0x0C)] ≠ [] ∧
        (∀ e ∈ [(1, (0x03 : RoleMask)), (2, 0x0E), (3, 0x0C)], Known e.2) ∧
        ∃ a, Assignment [(1, 0x03), (2, 0x0E), (3, 0x0C)] a) ∧
      checkGroupRoles [(1, 0x03), (2, 0x0E), (3, 0x0C)] = (true, [(1, 0x02), (2, 0x04), (3, 0x08)]) :=
  ⟨(checkGroupRoles_iff [(1, 0x03), (2, 0x0E), (3, 0x0C)] (by decide)).2.1, by decide +kernel⟩

/-- The map of nobody has the empty assignment and is refused; so is a tank with an unknown bit;
and 256 players who could be tank or healer are a group. -/
theorem roles_not_exact : ((checkGroupRoles []).1 = false ∧ Assignment [] []) ∧
      ((checkGroupRoles [(1, 0x12)]).1 = false ∧ Assignment [(1, 0x12)] [(1, 0x02)]) ∧
      ((checkGroupRoles ((List.range 256).map fun guid => (guid, 0x06))).1 = true ∧
        ¬∃ a, Assignment ((List.range 256).map fun guid => (guid, 0x06)) a) := by
  refine ⟨⟨rfl, .nil, ?_, ?_, ?_⟩, ⟨by decide +kernel, .cons ⟨rfl, ?_, ?_⟩ .nil, ?_, ?_, ?_⟩, ?_, ?_⟩
  · decide
  · decide
  · decide
  · decide
  · decide
  · decide
  · decide
  · decide
  · have hclear : clearLeader ((List.range 256).map fun guid => (guid, 0x06)) =
        (List.range 256).map fun guid => (guid, 0x06) := by
      have hmask : (0x06 : RoleMask) &&& ~~~playerRoleLeader = 0x06 := by decide
      unfold clearLeader
      rw [List.map_map]
      refine List.map_congr_left fun guid _ => ?_
      rw [Function.comp_apply, hmask]
    have hlength : ((List.range 256).map fun guid => (guid, (0x06 : RoleMask))).length = 256 := by
      rw [length_map, length_range]
    have hne : ((List.range 256).map fun guid => (guid, (0x06 : RoleMask))) ≠ [] := by
      intro heq
      rw [heq] at hlength
      cases hlength
    unfold checkGroupRoles
    rw [if_neg hne, hclear]
    refine solve_unsplit (by rw [hlength]) hne (fun e he => ?_) _
    obtain ⟨guid, -, rfl⟩ := mem_map.mp he
    dsimp only
    decide
  rintro ⟨a, ha⟩
  have hle := ha.length_le
  rw [length_map, length_range] at hle
  exact absurd hle (by decide)

end ZerosCore.Lfg
