/-
# Who owns a channel, and who may change its members

A custom channel with ownership should have, whenever anybody is in it, exactly
one member with the owner flag: the one `_ownerGUID` names, who is a moderator
too; nobody banned should be in it, and every entry should store its own key.
Only moderators and game masters should change another member, and the owner
nobody but itself or a game master (`Governed`, `Authorised`).

`KickOrBan` lets an owner kick or ban itself.  With others in the channel the
last lines then make the one who asked the owner: `playersStore[good]` creates
the entry just erased, with guid zero, and the kicked or banned player is a
member and the owner (`owner_bans_itself`).  Alone, the owner leaves an empty
channel behind that still names it, and whoever joins finds no owner.
`governed_of_regular` proves everything in every run without these two.

The invariant is in two parts.  `Sound` says what holds of every entry, the
owner flag being allowed to the owner only; it survives while the seat is
vacant, in the middle of a hand-over.  `Kept` adds that the owner is there.
`Sound.setOwner` turns the first into the second.
-/

import ZerosCore.Chat.Channel
import ZerosCore.Lib.Run

namespace ZerosCore.Chat

open Lib Lib.Keyed List Option PlayerInfo Channel

/-! ### What is promised -/

/-- The entry of `guid` in the channel of some name. -/
def memberAt (s : Option Channel) (guid : ℕ) : Option (ℕ × PlayerInfo) :=
  s.bind fun c => c.playersStore.get? guid

/-- **A well-governed channel.** -/
structure Channel.Governed (c : Channel) : Prop where
  one_owner : c.playersStore.rows ≠ [] → ∃! row, row ∈ c.playersStore.rows ∧ row.2.isOwner
  owner_eq : ∀ row ∈ c.playersStore.rows, row.2.isOwner → row.1 = c.ownerGUID
  owner_moderator : ∀ row ∈ c.playersStore.rows, row.2.isOwner → row.2.isModerator
  not_banned : ∀ row ∈ c.playersStore.rows, row.1 ∉ c.bannedStore
  stored : ∀ row ∈ c.playersStore.rows, row.2.player = row.1

/-- The channel, while it exists, is well governed. -/
def Governed (s : Option Channel) : Prop := ∀ c ∈ s, c.Governed

/-- **Whoever changes another member may.**  A request that changes the entry of
somebody else comes from a moderator or a game master, and from a game master if
it changes the entry of the owner. -/
def Authorised (s : Option Channel) (r : Request) : Prop :=
  ∀ c ∈ s, ∀ k ≠ r.player.guid, memberAt (serve s r) k ≠ memberAt s k →
    (c.isModerator r.player.guid ∨ isGMAccount r.player.security) ∧
      (k = c.ownerGUID → isGMAccount r.player.security)

/-- The player a handler finds under the name a client sent. -/
def World.target (w : World) (name : WString) : Option Player :=
  (normalizePlayerName name).bind w.findPlayerByName

/-- **The condition.**  The owner does not kick or ban itself while others are in
the channel, and nobody joins a channel that its owner emptied by kicking itself. -/
def Regular (s : Option Channel) (r : Request) : Prop :=
  ∀ c ∈ s, match r.action with
    | .kick name | .ban name => ∀ bad ∈ r.world.target name,
        r.player.guid = c.ownerGUID → bad.guid = c.ownerGUID → (c.erase bad.guid).playersStore.rows = []
    | .join _ => c.playersStore.rows = [] → c.ownerGUID = 0
    | _ => True

/-! ### Flags -/

namespace PlayerInfo

variable (i : PlayerInfo) (flag : BitVec 8) (b : Bool)

theorem flags_apart : ∀ x ∈ [memberFlagOwner, memberFlagModerator, memberFlagMuted],
    ∀ y ∈ [memberFlagOwner, memberFlagModerator, memberFlagMuted],
      (x = y ∧ y ≠ 0) ∨ (x ≠ y ∧ x &&& y = 0 ∧ ~~~x &&& y = y) := by
  decide

theorem bits (f : BitVec 8) :
    ∀ b : Bool, ∀ x ∈ [memberFlagOwner, memberFlagModerator, memberFlagMuted],
      ∀ y ∈ [memberFlagOwner, memberFlagModerator, memberFlagMuted],
        (decide ((if b then f ||| x else f &&& ~~~x) &&& y ≠ 0)) =
          if x = y then b else decide (f &&& y ≠ 0) := by
  intro b x hx y hy
  rcases flags_apart x hx y hy with ⟨rfl, hne⟩ | ⟨hne, hand, hnot⟩
  · have hset : (f ||| x) &&& x = x := by
      ext i
      simpa using Or.inr
    have hclear : (f &&& ~~~x) &&& x = 0 := by
      rw [BitVec.and_assoc, BitVec.and_comm (~~~x), BitVec.and_not_self]
      exact BitVec.and_zero
    cases b
    · simp [hclear]
    · simp only [if_true, hset, decide_eq_true hne]
  have hset : (f ||| x) &&& y = f &&& y := by
    have hor : (f ||| x) &&& y = (f &&& y) ||| (x &&& y) := by
      ext i
      simp [Bool.and_or_distrib_right]
    rw [hor, hand]
    exact BitVec.or_zero
  have hclear : (f &&& ~~~x) &&& y = f &&& y := by
    rw [BitVec.and_assoc, hnot]
  rw [if_neg hne]
  cases b
  · simp only [Bool.false_eq_true, if_false, hclear]
  · simp only [if_true, hset]

@[simp] theorem isOwner_setOwner : (i.setOwner b).isOwner = b :=
  bits i.flags b memberFlagOwner (by simp) memberFlagOwner (by simp)

@[simp] theorem isOwner_setModerator : (i.setModerator b).isOwner = i.isOwner :=
  bits i.flags b memberFlagModerator (by simp) memberFlagOwner (by simp)

@[simp] theorem isOwner_setMuted : (i.setMuted b).isOwner = i.isOwner :=
  bits i.flags b memberFlagMuted (by simp) memberFlagOwner (by simp)

@[simp] theorem isModerator_setOwner : (i.setOwner b).isModerator = i.isModerator :=
  bits i.flags b memberFlagOwner (by simp) memberFlagModerator (by simp)

@[simp] theorem isModerator_setModerator : (i.setModerator b).isModerator = b :=
  bits i.flags b memberFlagModerator (by simp) memberFlagModerator (by simp)

@[simp] theorem isModerator_setMuted : (i.setMuted b).isModerator = i.isModerator :=
  bits i.flags b memberFlagMuted (by simp) memberFlagModerator (by simp)

@[simp] theorem isOwner_memberFlagNone (p : ℕ) : (mk p memberFlagNone).isOwner = false := by
  simp [isOwner, hasFlag, memberFlagNone]

end PlayerInfo

/-! ### Names -/

theorem tolower_wcharToLower (c : ℕ) : tolower (wcharToLower c) = wcharToLower c := by
  unfold tolower wcharToLower
  split_ifs <;> omega

theorem wcharToUpper_inj_of_tolower {c d : ℕ}
    (h : tolower (wcharToUpper c) = tolower (wcharToUpper d)) :
    wcharToUpper c = wcharToUpper d := by
  have hupper (c : ℕ) : ¬ (0x61 ≤ wcharToUpper c ∧ wcharToUpper c ≤ 0x7A) := by
    unfold wcharToUpper
    split_ifs <;> omega
  have hc := hupper c
  have hd := hupper d
  unfold tolower at h
  split_ifs at h <;> omega

theorem eq_of_map_tolower {n m n' m' : WString} (hn : normalizePlayerName n = some n')
    (hm : normalizePlayerName m = some m') (h : n'.map tolower = m'.map tolower) : n' = m' := by
  have htail (cs : WString) : (cs.map wcharToLower).map tolower = cs.map wcharToLower := by
    rw [List.map_map]
    exact List.map_congr_left fun c _ => tolower_wcharToLower c
  cases n with
  | nil => cases hn
  | cons c cs =>
    cases m with
    | nil => cases hm
    | cons d ds =>
      rw [normalizePlayerName] at hn hm
      split_ifs at hn hm
      obtain rfl := some.inj hn
      obtain rfl := some.inj hm
      rw [map_cons, map_cons, htail, htail, cons.injEq] at h
      rw [wcharToUpper_inj_of_tolower h.1, h.2]

variable {w : World} {name : WString} {p : Player}

/-- **A player is found under its own name only.** -/
theorem World.name_of_find {n : WString}
    (hn : normalizePlayerName n = some name) (h : w.findPlayerByName name = some p) :
    p.name = name := by
  have hp : p.name.map tolower = name.map tolower := by
    simpa using find?_some h
  exact eq_of_map_tolower p.normal hn hp

theorem World.mem_of_find (h : w.findPlayerByName name = some p) : p ∈ w.players.rows :=
  mem_of_find?_eq_some h

/-! ### The invariant -/

namespace Channel

variable {c : Channel} {g k : ℕ} {i : PlayerInfo} {row : ℕ × PlayerInfo}
  {f : PlayerInfo → PlayerInfo}

/-- What holds of the entry `i` under `k`, whoever the owner is. -/
structure SoundEntry (c : Channel) (k : ℕ) (i : PlayerInfo) : Prop where
  stored : i.player = k
  not_banned : k ∉ c.bannedStore
  ne_zero : k ≠ 0
  owner_eq : i.isOwner → k = c.ownerGUID

/-- A custom channel with ownership whose entries are sound; the seat may be vacant. -/
structure Sound (c : Channel) : Prop where
  ownership : c.ownership = true
  custom : c.channelId = 0
  entry : ∀ k row, c.playersStore.get? k = some row → c.SoundEntry k row.2

/-- The owner is in the channel, as owner and moderator. -/
def Seated (c : Channel) : Prop :=
  ∃ row, c.playersStore.get? c.ownerGUID = some row ∧ row.2.isOwner ∧ row.2.isModerator

/-- **The invariant** of a channel between two requests. -/
structure Kept (c : Channel) : Prop where
  sound : c.Sound
  seated : c.playersStore.rows = [] ∨ c.Seated

/-! ### Reading after a write -/

theorem get?_eq_none_of_rows (h : c.playersStore.rows = []) : c.playersStore.get? k = none :=
  Table.get?_eq_none.mpr fun a ha => by rw [h] at ha; cases ha

theorem rows_ne_nil (h : c.playersStore.get? k = some row) : c.playersStore.rows ≠ [] := fun h0 => by
  rw [get?_eq_none_of_rows h0] at h
  cases h

theorem get?_subscript (c : Channel) (g k : ℕ) (f : PlayerInfo → PlayerInfo) :
    (c.subscript g f).playersStore.get? k =
      if k = g then some (g, f (((c.playersStore.get? g).map Prod.snd).getD ⟨0, 0⟩))
      else c.playersStore.get? k :=
  Table.get?_put k

theorem get?_subscript_of_ne (h : k ≠ g) :
    (c.subscript g f).playersStore.get? k = c.playersStore.get? k := by
  rw [get?_subscript, if_neg h]

theorem get?_subscript_self (h : c.playersStore.get? g = some row) :
    (c.subscript g f).playersStore.get? g = some (g, f row.2) := by
  rw [get?_subscript, if_pos rfl, h]
  rfl

theorem get?_erase (c : Channel) (g k : ℕ) :
    (c.erase g).playersStore.get? k = if k = g then none else c.playersStore.get? k :=
  Table.get?_erase k

theorem get?_dropOwner_of_ne (h : k ≠ c.ownerGUID) :
    c.dropOwner.playersStore.get? k = c.playersStore.get? k := by
  unfold dropOwner
  split_ifs
  · exact get?_subscript_of_ne h
  · rfl

theorem exists_get?_dropOwner (h : c.dropOwner.playersStore.get? k = some row) (hk : k ≠ 0) :
    ∃ old, c.playersStore.get? k = some old ∧ row.2.player = old.2.player ∧
      (row.2.isOwner → k ≠ c.ownerGUID ∧ old.2.isOwner) := by
  by_cases hko : k = c.ownerGUID
  · subst hko
    have hon : c.isOn c.ownerGUID := by
      by_contra hon
      rw [dropOwner, if_neg fun h => hon h.2] at h
      exact hon (by rw [isOn, h]; rfl)
    obtain ⟨old, hold⟩ := isSome_iff_exists.mp hon
    rw [dropOwner, if_pos ⟨hk, hon⟩, get?_subscript_self hold] at h
    obtain rfl := some.inj h
    exact ⟨old, hold, rfl, fun h => by simp at h⟩
  rw [get?_dropOwner_of_ne hko] at h
  exact ⟨row, h, rfl, fun h => ⟨hko, h⟩⟩

theorem get?_setOwner_of_ne (hg : k ≠ g) :
    (c.setOwner g).playersStore.get? k = c.dropOwner.playersStore.get? k := by
  unfold setOwner
  split_ifs
  · exact (get?_subscript_of_ne hg).trans (get?_subscript_of_ne hg)
  · rfl

theorem exists_get?_setOwner_self (hg : g ≠ 0) (h : c.playersStore.get? g = some row) :
    ∃ new, (c.setOwner g).playersStore.get? g = some new ∧ new.2.player = row.2.player ∧
      new.2.isOwner ∧ new.2.isModerator := by
  -- the flag that dropOwner may take away is set again
  obtain ⟨mid, hmid, hplayer⟩ : ∃ mid, c.dropOwner.playersStore.get? g = some mid ∧
      mid.2.player = row.2.player := by
    unfold dropOwner
    split_ifs with ho
    · by_cases hgo : g = c.ownerGUID
      · subst hgo
        exact ⟨_, get?_subscript_self h, rfl⟩
      · exact ⟨row, by rw [get?_subscript_of_ne hgo, h], rfl⟩
    · exact ⟨row, h, rfl⟩
  have hmid' : ({ c.dropOwner with ownerGUID := g } : Channel).playersStore.get? g = some mid := hmid
  refine ⟨_, by rw [setOwner, if_pos hg, get?_subscript_self (get?_subscript_self hmid')], ?_, ?_, ?_⟩
  · exact hplayer
  · simp
  · simp

@[simp] theorem ownerGUID_setOwner (c : Channel) (g : ℕ) : (c.setOwner g).ownerGUID = g := by
  unfold setOwner
  split_ifs <;> rfl

theorem dropOwner_rest (c : Channel) : c.dropOwner.ownership = c.ownership ∧
    c.dropOwner.channelId = c.channelId ∧ c.dropOwner.bannedStore = c.bannedStore := by
  unfold dropOwner
  split_ifs <;> exact ⟨rfl, rfl, rfl⟩

theorem setOwner_rest (c : Channel) (g : ℕ) : (c.setOwner g).ownership = c.ownership ∧
    (c.setOwner g).channelId = c.channelId ∧ (c.setOwner g).bannedStore = c.bannedStore := by
  unfold setOwner
  split_ifs <;> exact c.dropOwner_rest

/-! ### What the writes keep -/

theorem Sound.erase (h : c.Sound) (g : ℕ) : (c.erase g).Sound where
  ownership := h.ownership
  custom := h.custom
  entry k row hk := by
    rw [get?_erase] at hk
    split_ifs at hk
    have he := h.entry k row hk
    exact { he with }

theorem Sound.subscript (h : c.Sound) (hg : c.playersStore.get? g = some row)
    (hplayer : ∀ i, (f i).player = i.player) (howner : ∀ i, (f i).isOwner = i.isOwner) :
    (c.subscript g f).Sound where
  ownership := h.ownership
  custom := h.custom
  entry k new hk := by
    by_cases hkg : k = g
    · subst hkg
      rw [get?_subscript_self hg] at hk
      obtain rfl := some.inj hk
      have he := h.entry k row hg
      exact ⟨(hplayer _).trans he.stored, he.not_banned, he.ne_zero, fun ho =>
        he.owner_eq (by rw [← howner]; exact ho)⟩
    rw [get?_subscript_of_ne hkg] at hk
    have he := h.entry k new hk
    exact { he with }

/-- **A hand-over seats the new owner**, whether the old one is still there or not. -/
theorem Sound.setOwner (h : c.Sound) (hg : c.playersStore.get? g = some row) :
    (c.setOwner g).Kept := by
  obtain ⟨hownership, hcustom, hbanned⟩ := c.setOwner_rest g
  have hrow := h.entry g row hg
  obtain ⟨new, hnew, hplayer, howner, hmod⟩ := exists_get?_setOwner_self hrow.ne_zero hg
  refine ⟨⟨hownership.trans h.ownership, hcustom.trans h.custom, fun k row' hk => ?_⟩,
    Or.inr ⟨new, by rw [ownerGUID_setOwner]; exact hnew, howner, hmod⟩⟩
  by_cases hkg : k = g
  · subst hkg
    obtain rfl := some.inj (hnew.symm.trans hk)
    exact ⟨hplayer.trans hrow.stored, by rw [hbanned]; exact hrow.not_banned, hrow.ne_zero,
      fun _ => (ownerGUID_setOwner c k).symm⟩
  rw [get?_setOwner_of_ne hkg] at hk
  have hk0 : k ≠ 0 := by
    rintro rfl
    have hdrop : c.dropOwner.playersStore.get? 0 = c.playersStore.get? 0 := by
      by_cases h0 : (0 : ℕ) = c.ownerGUID
      · rw [dropOwner, if_neg fun h => h.1 h0.symm]
      · exact get?_dropOwner_of_ne h0
    exact (h.entry 0 row' (hdrop ▸ hk)).ne_zero rfl
  obtain ⟨old, hold, hp, ho⟩ := exists_get?_dropOwner hk hk0
  have he := h.entry k old hold
  refine ⟨hp.trans he.stored, by rw [hbanned]; exact he.not_banned, hk0, fun h => ?_⟩
  exact absurd (he.owner_eq (ho h).2) (ho h).1

theorem Kept.erase (h : c.Kept) (hg : g ≠ c.ownerGUID) : (c.erase g).Kept := by
  refine ⟨h.sound.erase g, h.seated.imp (fun h0 => ?_) ?_⟩
  · exact filter_eq_nil_iff.mpr fun a ha => by rw [h0] at ha; cases ha
  rintro ⟨row, hrow, howner, hmod⟩
  refine ⟨row, ?_, howner, hmod⟩
  exact (get?_erase c g c.ownerGUID).trans ((if_neg fun h => hg h.symm).trans hrow)

theorem Kept.subscript (h : c.Kept) (hg : c.playersStore.get? g = some row)
    (hplayer : ∀ i, (f i).player = i.player) (howner : ∀ i, (f i).isOwner = i.isOwner)
    (hmod : g = c.ownerGUID → ∀ i, i.isModerator → (f i).isModerator) : (c.subscript g f).Kept := by
  refine ⟨h.sound.subscript hg hplayer howner, Or.inr ?_⟩
  obtain ⟨old, hold, ho, hm⟩ := h.seated.resolve_left (rows_ne_nil hg)
  by_cases hgo : g = c.ownerGUID
  · subst hgo
    refine ⟨_, get?_subscript_self hold, ?_, hmod rfl _ hm⟩
    rw [howner]
    exact ho
  · exact ⟨old, (get?_subscript_of_ne fun h => hgo h.symm).trans hold, ho, hm⟩

/-- Nothing a channel's members or owner depend on has changed, the banned apart. -/
theorem Kept.of_rest {c' : Channel} (h : c.Kept) (hown : c'.ownership = c.ownership)
    (hid : c'.channelId = c.channelId) (howner : c'.ownerGUID = c.ownerGUID)
    (hplayers : c'.playersStore = c.playersStore)
    (hbanned : ∀ k row, c.playersStore.get? k = some row → k ∉ c.bannedStore → k ∉ c'.bannedStore) :
    c'.Kept := by
  refine ⟨⟨hown.trans h.sound.ownership, hid.trans h.sound.custom, fun k row hk => ?_⟩, ?_⟩
  · rw [hplayers] at hk
    have he := h.sound.entry k row hk
    exact ⟨he.stored, hbanned k row hk he.not_banned, he.ne_zero, fun ho => by
      rw [howner]; exact he.owner_eq ho⟩
  unfold Seated
  rw [hplayers, howner]
  exact h.seated

end Channel

/-! ### One request -/

namespace Channel

variable {c c' : Channel} {w : World} {player : Player} {g k : ℕ} {name n : WString}
  {row : ℕ × PlayerInfo}

/-- What `player` may do to the members of `c`. -/
def Lawful (c : Channel) (player : Player) (c' : Channel) : Prop :=
  ∀ k ≠ player.guid, c'.playersStore.get? k ≠ c.playersStore.get? k →
    (c.isModerator player.guid ∨ isGMAccount player.security) ∧
      (k = c.ownerGUID → isGMAccount player.security)

/-- A request after which the invariant holds and that was `player`'s to make. -/
def Good (c : Channel) (player : Player) (c' : Channel) : Prop := c'.Kept ∧ c.Lawful player c'

theorem Lawful.of_eq (h : ∀ k ≠ player.guid, c'.playersStore.get? k = c.playersStore.get? k) :
    c.Lawful player c' := fun k hk hne => absurd (h k hk) hne

theorem Lawful.of_master (h : isGMAccount player.security) : c.Lawful player c' :=
  fun _ _ _ => ⟨Or.inr h, fun _ => h⟩

theorem Lawful.of_moderator (h : c.isModerator player.guid ∨ isGMAccount player.security)
    (hk : ∀ k ≠ player.guid, k = c.ownerGUID →
      c'.playersStore.get? k = c.playersStore.get? k ∨ isGMAccount player.security) :
    c.Lawful player c' :=
  fun k hne hch => ⟨h, fun ho => (hk k hne ho).resolve_left hch⟩

theorem isModerator_of_get? (h : c.playersStore.get? g = some row) :
    c.isModerator g = row.2.isModerator := by
  rw [isModerator, h]
  rfl

theorem Kept.seated_of_get? (h : c.Kept) (hg : c.playersStore.get? g = some row) : c.Seated :=
  h.seated.resolve_left (rows_ne_nil hg)

theorem Kept.isModerator_ownerGUID (h : c.Kept) (hg : c.playersStore.get? g = some row) :
    c.isModerator c.ownerGUID := by
  obtain ⟨old, hold, -, hm⟩ := h.seated_of_get? hg
  rw [isModerator_of_get? hold]
  exact hm

theorem exists_of_isOn (h : c.isOn g) : ∃ row, c.playersStore.get? g = some row :=
  isSome_iff_exists.mp h

theorem get?_addMember (c : Channel) (g k : ℕ) : (c.addMember g).playersStore.get? k =
    if k = g then some (g, ⟨g, memberFlagNone⟩) else c.playersStore.get? k :=
  Table.get?_put k

theorem Sound.addMember (h : c.Sound) (hg : g ≠ 0) (hban : g ∉ c.bannedStore) :
    (c.addMember g).Sound where
  ownership := h.ownership
  custom := h.custom
  entry k row hk := by
    rw [get?_addMember] at hk
    split_ifs at hk with hkg
    · subst hkg
      obtain rfl := some.inj hk
      exact ⟨rfl, hban, hg, fun ho => absurd ho (by simp)⟩
    have he := h.entry k row hk
    exact { he with }

theorem Kept.addMember (h : c.Kept) (hg : g ≠ 0) (hban : g ∉ c.bannedStore) (hon : ¬ c.isOn g)
    (hs : c.Seated) : (c.addMember g).Kept := by
  refine ⟨h.sound.addMember hg hban, Or.inr ?_⟩
  obtain ⟨row, hrow, ho, hm⟩ := hs
  have hne : c.ownerGUID ≠ g := by
    intro he
    rw [he] at hrow
    exact hon (by rw [isOn, hrow]; rfl)
  exact ⟨row, (get?_addMember c g c.ownerGUID).trans ((if_neg hne).trans hrow), ho, hm⟩

variable {pass : String}

/-- **Joining**, unless a channel its owner has emptied. -/
theorem good_joinChannel (h : c.Kept) (hreg : c.playersStore.rows = [] → c.ownerGUID = 0)
    (hok : c.joinChannel w player pass = .ok c') : c.Good player c' := by
  unfold joinChannel at hok
  split_ifs at hok with hon hban hpass hlfg hfirst
  all_goals
    obtain rfl := Except.ok.inj hok
    have hban' : player.guid ∉ c.bannedStore := by simpa [isBanned] using hban
  · have hself : (c.addMember player.guid).playersStore.get? player.guid =
        some (player.guid, ⟨player.guid, memberFlagNone⟩) :=
      (get?_addMember c _ _).trans (if_pos rfl)
    have hkept := (h.sound.addMember player.guid_ne hban').setOwner hself
    obtain ⟨new, hnew, -, -, -⟩ := exists_get?_setOwner_self player.guid_ne hself
    refine ⟨hkept.subscript hnew (fun _ => rfl) (fun i => isOwner_setModerator i true)
      (fun _ i _ => isModerator_setModerator i true), Lawful.of_eq fun k hk => ?_⟩
    -- there is no old owner to lose its flag
    have hdrop : (c.addMember player.guid).dropOwner = c.addMember player.guid := by
      rw [dropOwner, if_neg fun h => h.1 hfirst.2.1]
    rw [get?_subscript_of_ne hk, get?_setOwner_of_ne hk, hdrop, get?_addMember, if_neg hk]
  have hseated : c.Seated := by
    refine h.seated.resolve_left fun h0 => hfirst ⟨?_, hreg h0, h.sound.ownership⟩
    rw [isConstant, h.sound.custom]
    decide
  exact ⟨h.addMember player.guid_ne hban' hon hseated,
    Lawful.of_eq fun k hk => (get?_addMember c _ k).trans (if_neg hk)⟩

/-- **A hand-over** to somebody in the channel, as `LeaveChannel`, `KickOrBan` and `SetOwner`
make it. -/
theorem Sound.handOver (h : c.Sound) (hg : c.playersStore.get? g = some row) :
    ((c.subscript g (setModerator true)).setOwner g).Kept :=
  (h.subscript (f := setModerator true) hg (fun _ => rfl)
    fun i => isOwner_setModerator i true).setOwner (get?_subscript_self hg)

variable {t : PlayerContainer}

theorem first_eq_none : t.first = none ↔ t.rows = [] := argmin_eq_none

theorem get?_of_first (h : t.first = some row) : t.get? row.1 = some row :=
  Table.get?_key (argmin_mem h)

/-- **Leaving.** -/
theorem good_leaveChannel (h : c.Kept) (hok : c.leaveChannel player.guid = .ok c') :
    c.Good player c' := by
  unfold leaveChannel at hok
  split at hok
  · cases hok
  rename_i row hrow
  have herase (k : ℕ) (hk : k ≠ player.guid) :
      (c.erase player.guid).playersStore.get? k = c.playersStore.get? k := by
    rw [get?_erase, if_neg hk]
  have hmove := h.sound.erase player.guid
  obtain ⟨old, hold, ho, hm⟩ := h.seated_of_get? hrow
  dsimp only at hok
  split_ifs at hok with hchange
  · have hown : player.guid = c.ownerGUID := (h.sound.entry _ row hrow).owner_eq hchange.2.1
    split at hok
    · rename_i hnone
      obtain rfl := Except.ok.inj hok
      exact ⟨⟨hmove, Or.inl (first_eq_none.mp hnone)⟩, Lawful.of_eq herase⟩
    rename_i key i hfirst
    obtain rfl := Except.ok.inj hok
    -- the entry stores its own key, so the hand-over finds it
    have hget := get?_of_first hfirst
    have hkey : i.player = key := (hmove.entry _ _ hget).stored
    rw [← hkey] at hget
    refine ⟨hmove.handOver hget, Lawful.of_moderator (Or.inl ?_) fun k hk hko => ?_⟩
    · rw [hown]
      exact h.isModerator_ownerGUID hrow
    · exact absurd (hko.trans hown.symm) hk
  obtain rfl := Except.ok.inj hok
  have hne : player.guid ≠ c.ownerGUID := by
    intro he
    have hrow' : row = old := some.inj (hrow.symm.trans (he ▸ hold))
    refine hchange ⟨?_, hrow' ▸ ho, h.sound.ownership⟩
    have hid : (c.erase player.guid).channelId = 0 := h.sound.custom
    rw [isConstant, hid]
    decide
  exact ⟨h.erase hne, Lawful.of_eq herase⟩

theorem moderator_or_master (h : ¬ (¬ c.isModerator player.guid ∧ ¬ isGMAccount player.security)) :
    c.isModerator player.guid ∨ isGMAccount player.security := by
  by_contra hn
  exact h (not_or.mp hn)

theorem Sound.removeMember (h : c.Sound) (g : ℕ) (ban : Bool) : (c.removeMember g ban).Sound where
  ownership := h.ownership
  custom := h.custom
  entry k row hk := by
    have hk' : (c.erase g).playersStore.get? k = some row := hk
    rw [get?_erase] at hk'
    split_ifs at hk' with hkg
    have he := h.entry k row hk'
    refine { he with not_banned := ?_ }
    cases ban with
    | false => exact he.not_banned
    | true => exact fun hb => (Finset.mem_insert.mp hb).elim hkg he.not_banned

variable {ban : Bool}

section

variable (h : c.Kept)

include h

theorem Kept.removeMember (hg : g ≠ c.ownerGUID) : (c.removeMember g ban).Kept :=
  ⟨h.sound.removeMember g ban, (h.erase hg).seated⟩

/-- **Kicking or banning**, unless the owner does it to itself with others in the channel. -/
theorem good_kickOrBan (hreg : ∀ bad ∈ w.findPlayerByName name, player.guid = c.ownerGUID →
      bad.guid = c.ownerGUID → (c.erase bad.guid).playersStore.rows = [])
    (hok : c.kickOrBan w player name ban = .ok c') : c.Good player c' := by
  unfold kickOrBan at hok
  dsimp only at hok
  split_ifs at hok with hon hmod
  have hact := moderator_or_master hmod
  split at hok
  · cases hok
  rename_i bad hbad
  split_ifs at hok with honv hown hchange
  all_goals
    obtain rfl := Except.ok.inj hok
    have hget (k : ℕ) : (c.removeMember bad.guid ban).playersStore.get? k =
        if k = bad.guid then none else c.playersStore.get? k := get?_erase c bad.guid k
  · -- the owner goes and whoever removed it takes over; it is somebody else, and still there
    obtain ⟨hvictim, -, hrest⟩ := hchange
    have hne : player.guid ≠ bad.guid := fun he =>
      hrest (hreg bad hbad (he.trans hvictim.symm) hvictim.symm)
    have hmaster : isGMAccount player.security := by
      by_contra hgm
      exact hown ⟨hgm, hvictim, fun he => hne (he.trans hvictim)⟩
    obtain ⟨row, hrow⟩ := exists_of_isOn hon
    have hstill := (hget player.guid).trans ((if_neg hne).trans hrow)
    exact ⟨(h.sound.removeMember bad.guid ban).handOver hstill, Lawful.of_master hmaster⟩
  by_cases hvictim : c.ownerGUID = bad.guid
  · -- the owner was alone
    have hempty : (c.removeMember bad.guid ban).playersStore.rows = [] := by
      by_contra hrest
      exact hchange ⟨hvictim, h.sound.ownership, hrest⟩
    refine ⟨⟨h.sound.removeMember bad.guid ban, Or.inl hempty⟩,
      Lawful.of_moderator hact fun k hk hko => ?_⟩
    by_contra hn
    rw [not_or] at hn
    exact hown ⟨hn.2, hvictim, fun he => hk (hko.trans he.symm)⟩
  refine ⟨h.removeMember fun he => hvictim he.symm,
    Lawful.of_moderator hact fun k _ hko => Or.inl ?_⟩
  exact (hget k).trans (if_neg fun he => hvictim (hko.symm.trans he))

/-- **Lifting a ban.** -/
theorem good_unBan (hok : c.unBan w player name = .ok c') : c.Good player c' := by
  unfold unBan at hok
  split_ifs at hok with hon hmod
  split at hok
  · cases hok
  rename_i bad hbad
  split_ifs at hok
  obtain rfl := Except.ok.inj hok
  exact ⟨h.of_rest rfl rfl rfl rfl fun k _ _ hk hm => hk (Finset.mem_of_mem_erase hm),
    Lawful.of_eq fun _ _ => rfl⟩

theorem good_setPassword (hok : c.setPassword player pass = .ok c') : c.Good player c' := by
  unfold setPassword at hok
  split_ifs at hok
  obtain rfl := Except.ok.inj hok
  exact ⟨h.of_rest rfl rfl rfl rfl fun _ _ _ hk => hk, Lawful.of_eq fun _ _ => rfl⟩

theorem good_toggleAnnounce (hok : c.toggleAnnounce player = .ok c') : c.Good player c' := by
  unfold toggleAnnounce at hok
  split_ifs at hok
  obtain rfl := Except.ok.inj hok
  exact ⟨h.of_rest rfl rfl rfl rfl fun _ _ _ hk => hk, Lawful.of_eq fun _ _ => rfl⟩

/-- **Flags.**  The name is normalized, so an owner that names itself is recognized. -/
theorem good_setMode {mod set : Bool} (hin : player ∈ w.players.rows)
    (hn : normalizePlayerName n = some name)
    (hok : c.setMode w player name mod set = .ok c') : c.Good player c' := by
  rw [setMode] at hok
  split at hok
  · cases hok
  split at hok
  · cases hok
  rename_i hact
  have hact' := moderator_or_master hact
  split at hok
  · obtain rfl := Except.ok.inj hok
    exact ⟨h, Lawful.of_eq fun _ _ => rfl⟩
  rename_i hself
  split at hok
  · cases hok
  rename_i newp hnewp
  dsimp only at hok
  split_ifs at hok with hfound hown hmod
  all_goals
    obtain rfl := Except.ok.inj hok
    obtain ⟨row, hrow⟩ := exists_of_isOn (not_not.mp (not_or.mp hfound).1)
    have hlawful (f : PlayerInfo → PlayerInfo) : c.Lawful player (c.subscript newp.guid f) := by
      refine Lawful.of_moderator hact' fun k hk hko => Or.inl (get?_subscript_of_ne ?_)
      rintro rfl
      exact hown ⟨hko.symm, fun he => hk (hko.trans he)⟩
  · refine ⟨h.subscript hrow (fun _ => rfl) (fun i => isOwner_setModerator i set) ?_, hlawful _⟩
    -- an owner that names itself was sent away above
    intro hvictim
    have hguid : player.guid = newp.guid := by
      by_contra hne
      exact hown ⟨hvictim.symm, fun he => hne (he.symm.trans hvictim.symm)⟩
    have hsame : player = newp := w.players.distinct.eq_of_key hin (World.mem_of_find hnewp) hguid
    exact absurd ⟨hguid.trans hvictim, by rw [hsame, World.name_of_find hn hnewp], hmod⟩ hself
  refine ⟨h.subscript hrow (fun _ => rfl) (fun i => isOwner_setMuted i set)
    (fun _ i hi => ?_), hlawful _⟩
  rw [isModerator_setMuted]
  exact hi

/-- **Naming a new owner.** -/
theorem good_setOwnerByName (hok : c.setOwnerByName w player name = .ok c') : c.Good player c' := by
  unfold setOwnerByName at hok
  split_ifs at hok with hon hown
  split at hok
  · cases hok
  rename_i newp hnewp
  split_ifs at hok with hfound
  obtain rfl := Except.ok.inj hok
  obtain ⟨row, hrow⟩ := exists_of_isOn (not_not.mp (not_or.mp hfound).1)
  refine ⟨h.sound.handOver hrow, ?_⟩
  by_cases hgm : isGMAccount player.security
  · exact Lawful.of_master hgm
  have heq : player.guid = c.ownerGUID := by
    by_contra hne
    exact hown ⟨hgm, hne⟩
  refine Lawful.of_moderator (Or.inl ?_) fun k hk hko => absurd (hko.trans heq.symm) hk
  rw [heq]
  exact h.isModerator_ownerGUID hrow

end

theorem named_ok {k : WString → Except ChatNotify Channel} (h : named c n k = .ok c') :
    c' = c ∨ ∃ name, normalizePlayerName n = some name ∧ k name = .ok c' := by
  unfold named at h
  split at h
  · exact Or.inl (Except.ok.inj h).symm
  rename_i name hname
  exact Or.inr ⟨name, hname, h⟩

theorem Kept.good_self (h : c.Kept) : c.Good player c := ⟨h, Lawful.of_eq fun _ _ => rfl⟩

variable {r : Request}

/-- **One request**, whichever it is. -/
theorem good_handle (h : c.Kept) (hreg : Regular (some c) r)
    (hok : c.handle r = .ok c') : c.Good r.player c' := by
  obtain ⟨w, player, hin, action⟩ := r
  have hreg := hreg c rfl
  cases action with
  | join pass => exact good_joinChannel h hreg hok
  | leave => exact good_leaveChannel h hok
  | kick n | ban n =>
    obtain rfl | ⟨name, hname, hok⟩ := named_ok hok
    · exact h.good_self
    refine good_kickOrBan h (fun bad hbad => hreg bad ?_) hok
    rw [World.target, hname]
    exact hbad
  | unBan n =>
    obtain rfl | ⟨name, hname, hok⟩ := named_ok hok
    · exact h.good_self
    · exact good_unBan h hok
  | setMode n mod set =>
    obtain rfl | ⟨name, hname, hok⟩ := named_ok hok
    · exact h.good_self
    · exact good_setMode h hin hname hok
  | setOwner n =>
    obtain rfl | ⟨name, hname, hok⟩ := named_ok hok
    · exact h.good_self
    · exact good_setOwnerByName h hok
  | password pass => exact good_setPassword h hok
  | announce => exact good_toggleAnnounce h hok

theorem good_answer (h : c.Kept) (hreg : Regular (some c) r) : c.Good r.player (c.answer r) := by
  unfold answer
  split
  · rename_i c' hok
    exact good_handle h hreg hok
  · exact h.good_self

theorem Kept.governed (h : c.Kept) : c.Governed := by
  have hentry (row : ℕ × PlayerInfo) (hrow : row ∈ c.playersStore.rows) :=
    h.sound.entry row.1 row (Table.get?_key hrow)
  have howner (row : ℕ × PlayerInfo) (hrow : row ∈ c.playersStore.rows) (ho : row.2.isOwner) :
      c.playersStore.get? c.ownerGUID = some row := by
    rw [← (hentry row hrow).owner_eq ho]
    exact Table.get?_key hrow
  refine ⟨fun hne => ?_, fun row hrow => (hentry row hrow).owner_eq, fun row hrow ho => ?_,
    fun row hrow => (hentry row hrow).not_banned, fun row hrow => (hentry row hrow).stored⟩
  · obtain ⟨row, hrow, ho, -⟩ := h.seated.resolve_left hne
    refine ⟨row, ⟨(Table.get?_eq_some.mp hrow).1, ho⟩, ?_⟩
    rintro row' ⟨hrow', ho'⟩
    exact some.inj ((howner row' hrow' ho').symm.trans hrow)
  obtain ⟨old, hold, -, hm⟩ := h.seated_of_get? (howner row hrow ho)
  obtain rfl := some.inj ((howner row hrow ho).symm.trans hold)
  exact hm

theorem kept_newCustom (announce : Bool) (password : String) (banned : Finset ℕ) :
    (newCustom announce password banned).Kept :=
  ⟨⟨rfl, rfl, nofun⟩, Or.inl rfl⟩

end Channel

/-! ### Runs -/

/-- The invariant of the channel of some name. -/
def Kept (s : Option Channel) : Prop := ∀ c ∈ s, c.Kept

theorem memberAt_leftChannel (c : Channel) (k : ℕ) :
    memberAt c.leftChannel k = c.playersStore.get? k := by
  unfold leftChannel
  split_ifs with h
  · exact (get?_eq_none_of_rows h.1).symm
  · rfl

theorem mem_leftChannel {c c' : Channel} (h : c' ∈ c.leftChannel) : c' = c := by
  unfold leftChannel at h
  split_ifs at h
  · cases h
  · exact (some.inj h).symm

theorem serve_some (c : Channel) (r : Request) : (∀ c' ∈ serve (some c) r, c' = c.answer r) ∧
      ∀ k, memberAt (serve (some c) r) k = (c.answer r).playersStore.get? k := by
  simp only [serve]
  split
  · exact ⟨fun _ => mem_leftChannel, memberAt_leftChannel _⟩
  · exact ⟨fun _ h => (some.inj h).symm, fun _ => rfl⟩

variable {s : Option Channel} {r : Request}

/-- **Every regular request** leaves a governed channel. -/
theorem Kept.serve (h : Kept s) (hreg : Regular s r) : Kept (serve s r) := by
  cases s with
  | none => exact nofun
  | some c =>
    intro c' hc'
    rw [(serve_some c r).1 c' hc']
    exact (good_answer (h c rfl) hreg).1

theorem Kept.authorised (h : Kept s) (hreg : Regular s r) : Authorised s r := by
  cases s with
  | none => exact nofun
  | some c =>
    intro c' hc' k hk hne
    obtain rfl := some.inj hc'
    rw [(serve_some c r).2 k] at hne
    exact (good_answer (h c rfl) hreg).2 k hk hne

/-- **Membership.**  Along every run of requests to a new custom channel in which
the owner does not kick or ban itself while others are in the channel, and nobody
joins a channel its owner emptied that way, every request that changes another
member was authorised and the channel is well governed after every request. -/
theorem governed_of_regular (announce : Bool) (password : String) (banned : Finset ℕ)
    (rs : List Request) (h : Along serve Regular (some (newCustom announce password banned)) rs) :
    Along serve (fun s r => Authorised s r ∧ Governed (serve s r))
      (some (newCustom announce password banned)) rs := by
  refine Along.of_invariant (I := Kept) (fun s r hs hr => hs.serve hr) (fun s r hs hr => ?_) ?_ h
  · exact ⟨hs.authorised hr, fun c hc => (hs.serve hr c hc).governed⟩
  intro c hc
  obtain rfl := some.inj hc
  exact kept_newCustom announce password banned

/-- Abel and Cain, of one side. -/
def abel : Player := ⟨1, by decide, [0x41, 0x62, 0x65, 0x6C], by decide, 0, 469, false⟩

def cain : Player := ⟨2, by decide, [0x43, 0x61, 0x69, 0x6E], by decide, 0, 469, false⟩

def eden : World := ⟨⟨[abel, cain], by decide⟩, false, false⟩

/-- A request of one of them. -/
def byAbel (action : Action) : Request := ⟨eden, abel, List.mem_cons_self, action⟩

def byCain (action : Action) : Request :=
  ⟨eden, cain, List.mem_cons_of_mem _ List.mem_cons_self, action⟩

/-- Abel and Cain join, Abel makes Cain the owner and Cain bans Abel. -/
def banishment : List Request :=
  [byAbel (.join ""), byCain (.join ""), byAbel (.setOwner cain.name), byCain (.ban abel.name)]

theorem regular_banishment : Along serve Regular (some (newCustom true "" ∅)) banishment := by
  refine ⟨?_, ?_, ?_, ?_, trivial⟩
  · rintro c ⟨⟩
    exact fun _ => rfl
  · rintro c ⟨⟩
    show _ = _ → _ = _
    decide +kernel
  · rintro c ⟨⟩
    trivial
  rintro c ⟨⟩ bad hbad _ howner
  obtain rfl : abel = bad := some.inj hbad
  revert howner
  decide +kernel

/-- A run the condition allows. -/
theorem governed_of_regular_banishment :
    Along serve Regular (some (newCustom true "" ∅)) banishment ∧
      Along serve (fun s r => Authorised s r ∧ Governed (serve s r))
        (some (newCustom true "" ∅)) banishment :=
  ⟨regular_banishment, governed_of_regular true "" ∅ banishment regular_banishment⟩

/-- **The owner bans itself** and is a member still, banned, and the owner. -/
theorem owner_bans_itself : ¬ ∀ (announce : Bool) (password : String) (banned : Finset ℕ)
    (rs : List Request), Along serve (fun s r => Authorised s r ∧ Governed (serve s r))
      (some (newCustom announce password banned)) rs := by
  intro h
  obtain ⟨-, -, ⟨-, hgov⟩, -⟩ := h true "" ∅
    [byAbel (.join ""), byCain (.join ""), byAbel (.ban abel.name)]
  obtain ⟨-, -, -, hbanned, -⟩ := hgov _ rfl
  revert hbanned
  decide +kernel

end ZerosCore.Chat
