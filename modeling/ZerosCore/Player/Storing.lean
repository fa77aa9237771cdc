/-
# Storing by the plan of `CanStoreItem`

`StoreItem` of `src/server/game/Entities/Player/Player.cpp` carries out what `CanStoreItem` planned,
after the item was taken out of its slot.  The plan holds what it promises and the counts come out
right exactly if the bag that was asked for is not the item itself (`canStoreItem_right_iff`):
`CanStoreItem_InBag` passes over a "self targeted bag", `CanStoreItem_InSpecificSlot` does not, and
when an empty bag is stored into itself, which is in no slot any more, it replaces what is in the
slot of that number of the player.
-/

import ZerosCore.Player.Room

namespace ZerosCore.Player.Inventory

open Lib Stacks Stackable List Option Slots

variable {db : ItemStore} {inv inv' : Inventory} {p q r : Pos} {it : Item} {src : Option Item}
  {entry n guid : ℕ} {merge clone : Bool} {pl pl' : Plan Pos} {dest : List (Pos × ℕ)}

/-! ### What a plan may hold -/

/-- An empty slot the item may enter: a slot of the player, or one of a bag that takes the item and
is not the item itself. -/
def Enters (db : ItemStore) (inv : Inventory) (src : Option Item) (entry : ℕ) (r : Pos) : Prop :=
  (r.bag = inventorySlotBag0 ∧ r.slot < bankSlotBagEnd) ∨
    ∃ bag, inv.getBagByPos db r.bag = some bag ∧ r.slot < bagSize db bag ∧
      (db.template entry).canGoIntoBag (db.template bag.entry) = true ∧ ∀ s ∈ src, s.guid ≠ bag.guid

/-- The slot is empty, but for the item itself, and may be entered, or holds a stack that can be
merged with. -/
def Offers (db : ItemStore) (inv : Inventory) (src : Option Item) (entry : ℕ) (r : Pos) : Prop :=
  match inv.otherItem db r src with
  | none => Enters db inv src entry r
  | some it => db.canBeMergedPartlyWith it entry = .ok

/-- The slot has room for the amount. -/
def HasRoom (db : ItemStore) (inv : Inventory) (src : Option Item) (entry : ℕ) (r : Pos) (n : ℕ) :
    Prop :=
  match inv.otherItem db r src with
  | none => n ≤ db.maxStack entry
  | some it => it.count + n ≤ db.maxStack entry

/-- The bag that is asked for is the item itself. -/
def IntoItself (db : ItemStore) (inv : Inventory) (src : Option Item) (p : Pos) : Prop :=
  ∃ s ∈ src, ∃ bag, inv.getBagByPos db p.bag = some bag ∧ s.guid = bag.guid

/-- The slot offers room and is not in the item itself. -/
def Planned (db : ItemStore) (inv : Inventory) (src : Option Item) (entry : ℕ) (r : Pos) : Prop :=
  Offers db inv src entry r ∧ ¬IntoItself db inv src r

/-- An attempt that finds something adds to the plan slots with a property. -/
def Adds (Q : Pos → Prop) (f : Plan Pos → Attempt) : Prop :=
  ∀ pl pl', f pl = .found pl' → ∃ more, pl'.dest = pl.dest ++ more ∧ ∀ x ∈ more, Q x.1

variable {Q : Pos → Prop}
variable {ps : List Pos}

/-- **The scanning loop** adds slots that have space. -/
theorem adds_scan (hQ : ∀ r ∈ ps, inv.spaceAt db entry merge src r ≠ none → Q r) (pl : Plan Pos) :
    ∃ more, (inv.scan db entry merge src ps pl).dest = pl.dest ++ more ∧ ∀ x ∈ more, Q x.1 := by
  induction ps generalizing pl with
  | nil => exact ⟨[], (append_nil _).symm, nofun⟩
  | cons r ps ih =>
    have hrest := ih fun r' hr' => hQ r' (mem_cons_of_mem r hr')
    unfold scan
    cases hspace : inv.spaceAt db entry merge src r with
    | none => exact hrest pl
    | some space =>
      have hr : Q r := hQ r mem_cons_self (by rw [hspace]; exact some_ne_none _)
      dsimp only
      by_cases hin : r ∈ pl.dest.map Prod.fst
      · rw [if_pos hin]
        exact hrest pl
      rw [if_neg hin]
      by_cases hzero : (pl.push r space).count = 0
      · rw [if_pos hzero]
        refine ⟨[(r, min space pl.count)], rfl, fun x hx => ?_⟩
        rw [mem_singleton.mp hx]
        exact hr
      rw [if_neg hzero]
      obtain ⟨more, hmore, hall⟩ := hrest (pl.push r space)
      refine ⟨(r, min space pl.count) :: more, ?_, fun x hx => ?_⟩
      · rw [hmore]
        unfold Plan.push
        rw [append_assoc]
        rfl
      rcases mem_cons.mp hx with rfl | hx
      · exact hr
      · exact hall x hx

theorem offers_of_spaceAt (h : inv.spaceAt db entry merge src r ≠ none)
    (henters : Enters db inv src entry r) : Offers db inv src entry r := by
  unfold spaceAt at h
  unfold Offers
  cases hother : inv.otherItem db r src with
  | none => exact henters
  | some it =>
    rw [hother] at h
    cases merge with
    | false => exact absurd rfl h
    | true =>
      dsimp only at h ⊢
      by_contra hnot
      exact h (if_neg hnot)

theorem getBagByPos_main : inv.getBagByPos db inventorySlotBag0 = none := rfl

theorem not_intoItself_of_main (h : r.bag = inventorySlotBag0) : ¬IntoItself db inv src r := by
  rintro ⟨s, -, bag, hbag, -⟩
  rw [h, getBagByPos_main] at hbag
  cases hbag

variable {nonSpecialized : Bool} {skip : Pos}

theorem adds_inBag {bag : ℕ}
    (hok : inv.canStoreItemInBag db bag entry merge nonSpecialized src skip pl = .ok pl') :
    ∃ more, pl'.dest = pl.dest ++ more ∧ ∀ x ∈ more, Planned db inv src entry x.1 := by
  unfold canStoreItemInBag at hok
  split at hok
  · cases hok
  cases hbag : inv.getBagByPos db bag with
  | none =>
    rw [hbag] at hok
    cases hok
  | some b =>
    rw [hbag] at hok
    dsimp only at hok
    split_ifs at hok with hself hnonempty hplain hgoes
    rw [← Except.ok.inj hok]
    have hother : ∀ s ∈ src, s.guid ≠ b.guid := by
      intro s hs heq
      rw [mem_def.mp hs] at hself
      exact hself (decide_eq_true heq)
    refine adds_scan (fun r hr hspace => ?_) pl
    obtain ⟨j, hj, rfl⟩ := mem_map.mp hr
    refine ⟨offers_of_spaceAt hspace (.inr ⟨b, hbag, ?_, ?_, hother⟩), ?_⟩
    · exact mem_range.mp (mem_filter.mp hj).1
    · simpa using hgoes
    rintro ⟨s, hs, b', hb', heq⟩
    cases hbag.symm.trans hb'
    exact hother s hs heq

theorem adds_inInventorySlots {first last : ℕ} (hlast : last ≤ bankSlotBagEnd)
    (hok : inv.canStoreItemInInventorySlots db first last entry merge src skip pl = .ok pl') :
    ∃ more, pl'.dest = pl.dest ++ more ∧ ∀ x ∈ more, Planned db inv src entry x.1 := by
  unfold canStoreItemInInventorySlots at hok
  split_ifs at hok
  rw [← Except.ok.inj hok]
  refine adds_scan (fun r hr hspace => ?_) pl
  obtain ⟨j, hj, rfl⟩ := mem_map.mp hr
  have hrange := mem_range'_1.mp (mem_filter.mp hj).1
  exact ⟨offers_of_spaceAt hspace (.inl ⟨rfl, by dsimp only; omega⟩), not_intoItself_of_main rfl⟩

theorem add_dest (pl : Plan Pos) (r : Pos) (space : ℕ) (hQ : Q r) :
    ∃ more, (pl.add r space).dest = pl.dest ++ more ∧ ∀ x ∈ more, Q x.1 := by
  unfold Plan.add
  split
  · exact ⟨[], (append_nil _).symm, nofun⟩
  refine ⟨[(r, min space pl.count)], rfl, fun x hx => ?_⟩
  rw [mem_singleton.mp hx]
  exact hQ

theorem adds_inSpecificSlot (hself : ¬IntoItself db inv src p)
    (hok : inv.canStoreItemInSpecificSlot db p entry false src pl = .ok pl') :
    ∃ more, pl'.dest = pl.dest ++ more ∧ ∀ x ∈ more, Planned db inv src entry x.1 := by
  unfold canStoreItemInSpecificSlot at hok
  split at hok
  · cases hok
  cases hother : inv.otherItem db p src with
  | some it =>
    rw [hother] at hok
    dsimp only at hok
    cases hmerge : db.canBeMergedPartlyWith it entry with
    | ok =>
      rw [hmerge] at hok
      rw [← Except.ok.inj hok]
      refine add_dest pl p _ ⟨?_, hself⟩
      unfold Offers
      rw [hother]
      exact hmerge
    | _ =>
      rw [hmerge] at hok
      cases hok
  | none =>
    rw [hother] at hok
    dsimp only at hok
    have hoffers (henters : Enters db inv src entry p) : Offers db inv src entry p := by
      unfold Offers
      rw [hother]
      exact henters
    by_cases hmain : p.bag = inventorySlotBag0
    · rw [if_pos hmain] at hok
      split at hok
      · cases hok
      rename_i hslot
      rw [← Except.ok.inj hok]
      refine add_dest pl p _ ⟨hoffers (.inl ⟨hmain, ?_⟩), hself⟩
      unfold buybackSlotStart buybackSlotEnd playerSlotEnd at hslot
      unfold bankSlotBagEnd
      omega
    rw [if_neg hmain] at hok
    cases hbag : inv.getBagByPos db p.bag with
    | none =>
      rw [hbag] at hok
      cases hok
    | some bag =>
      rw [hbag] at hok
      dsimp only at hok
      split at hok
      · cases hok
      rename_i hfit
      rw [← Except.ok.inj hok]
      simp only [Bool.or_eq_true, decide_eq_true_eq, not_or, not_le, ge_iff_le,
        Bool.not_eq_true', Bool.not_eq_false] at hfit
      refine add_dest pl p _ ⟨hoffers (.inr ⟨bag, hbag, hfit.1, hfit.2, ?_⟩), hself⟩
      exact fun s hs heq => hself ⟨s, hs, bag, hbag, heq⟩

variable {side : Side}

theorem adds_inBags : ∀ f ∈ inv.inBags db side entry merge nonSpecialized src skip,
      Adds (Planned db inv src entry) f := by
  intro f hf pl pl' hfound
  obtain ⟨i, -, rfl⟩ := mem_map.mp hf
  exact adds_inBag (may_eq_found hfound)

theorem adds_inSlots (hside : side.itemEnd ≤ bankSlotBagEnd) :
    Adds (Planned db inv src entry) (inv.inSlots db side entry merge src skip) :=
  fun _ _ hfound => adds_inInventorySlots hside (must_eq_found hfound)

theorem adds_inAskedBag (hside : side.itemEnd ≤ bankSlotBagEnd) :
    Adds (Planned db inv src entry) (inv.inAskedBag db side p entry merge src) := by
  unfold inAskedBag
  split_ifs
  · exact adds_inSlots hside
  intro pl pl' hfound
  have hok := must_eq_found hfound
  unfold inThisBag at hok
  cases hspecial : inv.canStoreItemInBag db p.bag entry merge false src ⟨nullBag, p.slot⟩ pl with
  | ok pl1 =>
    rw [hspecial] at hok
    exact Except.ok.inj hok ▸ adds_inBag hspecial
  | error msg =>
    rw [hspecial] at hok
    exact adds_inBag hok

theorem Adds.imp {Q' : Pos → Prop} {f : Plan Pos → Attempt} (h : Adds Q f)
    (hQ : ∀ r, Q r → Q' r) : Adds Q' f := by
  intro pl pl' hfound
  obtain ⟨more, hmore, hall⟩ := h pl pl' hfound
  exact ⟨more, hmore, fun x hx => hQ x.1 (hall x hx)⟩

/-- The attempt at the slot that is asked for. -/
def asked (db : ItemStore) (inv : Inventory) (p : Pos) (entry : ℕ) (src : Option Item) :
    Plan Pos → Attempt :=
  fun pl => must (inv.canStoreItemInSpecificSlot db p entry false src pl)

/-- **Every attempt of `CanStoreItem`** adds slots that offer room, if the one at the slot asked for
does. -/
theorem adds_attempts (hside : side.itemEnd ≤ bankSlotBagEnd)
    (hasked : Adds Q (asked db inv p entry src)) (hQ : ∀ r, Planned db inv src entry r → Q r) :
    ∀ f ∈ inv.attempts db side p entry false src, Adds Q f := by
  have happ {L1 L2 : List (Plan Pos → Attempt)} (h1 : ∀ f ∈ L1, Adds Q f)
      (h2 : ∀ f ∈ L2, Adds Q f) : ∀ f ∈ L1 ++ L2, Adds Q f :=
    forall_mem_append.mpr ⟨h1, h2⟩
  have hif {c : Prop} [Decidable c] {L : List (Plan Pos → Attempt)} (h : ∀ f ∈ L, Adds Q f) :
      ∀ f ∈ if c then L else [], Adds Q f := by
    split_ifs
    · exact h
    · exact nofun
  have hone {f : Plan Pos → Attempt} (h : Adds Q f) : ∀ g ∈ [f], Adds Q g :=
    fun g hg => mem_singleton.mp hg ▸ h
  have hbags {merge nonSpecialized : Bool} :
      ∀ f ∈ inv.inBags db side entry merge nonSpecialized src p, Adds Q f :=
    fun f hf => (adds_inBags f hf).imp hQ
  unfold attempts
  refine happ (happ (happ (happ (happ (happ (hif (hone hasked)) (hif (happ ?_ ?_))) (hif ?_)) ?_)
    (hif (hone ?_))) (hone ((adds_inSlots hside).imp hQ))) hbags
  · exact hif (hone ((adds_inAskedBag hside).imp hQ))
  · exact hone ((adds_inAskedBag hside).imp hQ)
  · exact happ (happ (hone ((adds_inSlots hside).imp hQ)) (hif hbags)) hbags
  · exact hif hbags
  intro pl pl' hfound
  cases hfound

theorem search_adds {fs : List (Plan Pos → Attempt)} {full msg : InventoryResult}
    (hfs : ∀ f ∈ fs, Adds Q f) (hsearch : search full fs pl = (msg, pl')) :
    ∃ more, pl'.dest = pl.dest ++ more ∧ ∀ x ∈ more, Q x.1 := by
  induction fs generalizing pl with
  | nil =>
    cases hsearch
    exact ⟨[], (append_nil _).symm, nofun⟩
  | cons f fs ih =>
    have hrest (g : Plan Pos → Attempt) (hg : g ∈ fs) : Adds Q g := hfs g (mem_cons_of_mem f hg)
    unfold search at hsearch
    cases hf : f pl with
    | refuse msg' =>
      rw [hf] at hsearch
      cases hsearch
      exact ⟨[], (append_nil _).symm, nofun⟩
    | skip =>
      rw [hf] at hsearch
      exact ih hrest hsearch
    | found pl1 =>
      rw [hf] at hsearch
      obtain ⟨more, hmore, hall⟩ := hfs f mem_cons_self pl pl1 hf
      dsimp only at hsearch
      split_ifs at hsearch with hzero
      · cases hsearch
        exact ⟨more, hmore, hall⟩
      obtain ⟨more', hmore', hall'⟩ := ih hrest hsearch
      refine ⟨more ++ more', ?_, forall_mem_append.mpr ⟨hall, hall'⟩⟩
      rw [hmore', hmore, append_assoc]

/-- **What a plan holds**, unless the bag that is asked for is the item itself. -/
theorem planned_of_canStoreItem (hself : ¬IntoItself db inv src p)
    (hok : inv.canStoreItem db p entry n src false = (.ok, dest)) :
    ∀ x ∈ dest, Planned db inv src entry x.1 := by
  have hside : carried.itemEnd ≤ bankSlotBagEnd := by decide
  have hasked : Adds (Planned db inv src entry) (asked db inv p entry src) :=
    fun pl pl' hfound => adds_inSpecificSlot hself (must_eq_found hfound)
  obtain ⟨more, hmore, hall⟩ := search_adds (adds_attempts hside hasked fun _ h => h)
    (search_of_canStoreItem hok)
  rw [nil_append] at hmore
  subst hmore
  exact hall

theorem hasRoom_of_canStoreItem (hok : inv.canStoreItem db p entry n src false = (.ok, dest)) :
    ∀ x ∈ dest, HasRoom db inv src entry x.1 x.2 := by
  intro x hx
  have htakes := (canStoreItem_sound hok).takes x hx
  unfold HasRoom
  cases hother : inv.otherItem db x.1 src with
  | none => exact htakes.le
  | some it =>
    rcases htakes.room it hother with htarget | hroom
    · cases htarget
    · exact hroom.2

variable {bag : Item}

theorem isBagSlot_of_getBagByPos (h : inv.getBagByPos db p.bag = some bag) :
    Pos.isBagSlot p.bag = true ∧ inv.slots.stackAt ⟨inventorySlotBag0, p.bag⟩ = some bag ∧
      db.isBag bag = true := by
  unfold getBagByPos at h
  split at h
  · rename_i hslot
    obtain ⟨hat, hbag⟩ := filter_eq_some_iff.mp h
    exact ⟨hslot, hat, hbag⟩
  · cases h

theorem isBagPos_iff :
    p.isBagPos = true ↔ p.bag = inventorySlotBag0 ∧ Pos.isBagSlot p.slot = true := by
  unfold Pos.isBagPos
  rw [Bool.and_eq_true, decide_eq_true_eq]

theorem isBagSlot_bounds {k : ℕ} (h : Pos.isBagSlot k = true) : 19 ≤ k ∧ k < 74 := by
  unfold Pos.isBagSlot inventorySlotBagStart inventorySlotBagEnd bankSlotBagStart
    bankSlotBagEnd at h
  simp only [Bool.or_eq_true, Bool.and_eq_true, decide_eq_true_eq] at h
  omega

theorem inSpecificSlot_eq_add
    (hok : inv.canStoreItemInSpecificSlot db p entry false src pl = .ok pl') :
    (¬(src.any fun s => inv.isNotEmptyBag db s) = true ∨ p.isBagPos = true) ∧
      ∃ space, pl' = pl.add p space := by
  unfold canStoreItemInSpecificSlot at hok
  split at hok
  · cases hok
  rename_i hempty
  refine ⟨?_, ?_⟩
  · by_contra hnot
    rw [not_or, not_not] at hnot
    refine hempty ?_
    rw [hnot.1, Bool.true_and, Bool.not_eq_true']
    exact Bool.eq_false_iff.mpr hnot.2
  cases hother : inv.otherItem db p src with
  | some it =>
    rw [hother] at hok
    dsimp only at hok
    cases hmerge : db.canBeMergedPartlyWith it entry with
    | ok =>
      rw [hmerge] at hok
      exact ⟨_, (Except.ok.inj hok).symm⟩
    | _ =>
      rw [hmerge] at hok
      cases hok
  | none =>
    rw [hother] at hok
    dsimp only at hok
    split at hok
    · split at hok
      · cases hok
      · exact ⟨_, (Except.ok.inj hok).symm⟩
    cases hbag : inv.getBagByPos db p.bag with
    | none =>
      rw [hbag] at hok
      cases hok
    | some bag =>
      rw [hbag] at hok
      dsimp only at hok
      split at hok
      · cases hok
      · exact ⟨_, (Except.ok.inj hok).symm⟩

theorem mem_add_dest (pl : Plan Pos) (r : Pos) (space : ℕ) :
    r ∈ (pl.add r space).dest.map Prod.fst := by
  unfold Plan.add
  split
  · assumption
  unfold Plan.push
  rw [map_append]
  exact mem_append_right _ (mem_singleton_self r)

theorem otherItem_of_intoItself (hbag : inv.getBagByPos db p.bag = some bag)
    (hempty : ¬inv.isNotEmptyBag db bag = true) : inv.otherItem db p (some bag) = none := by
  by_contra hsome
  obtain ⟨it, hit⟩ := ne_none_iff_exists'.mp hsome
  obtain ⟨hget, -⟩ := otherItem_eq_some hit
  obtain ⟨hslot, -, hisBag⟩ := isBagSlot_of_getBagByPos hbag
  have hbounds := isBagSlot_bounds hslot
  refine hempty ?_
  unfold isNotEmptyBag
  rw [hisBag, Bool.true_and, List.any_eq_true]
  refine ⟨⟨p, it⟩, ?_, ?_⟩
  · unfold cells
    refine mem_filter.mpr ⟨stackAt_eq_some.mp (exists_of_getItemByPos hget).2, ?_⟩
    dsimp only
    rw [hget]
    rfl
  dsimp only
  have hmain : p.bag ≠ inventorySlotBag0 := by
    unfold inventorySlotBag0
    omega
  rw [hbag, any_some]
  simp [hmain]

/-- **A bag that is stored into itself**: the slot that was asked for is in the plan. -/
theorem not_offers_of_intoItself (hbag : inv.getBagByPos db p.bag = some bag)
    (hok : inv.canStoreItem db p entry n (some bag) false = (.ok, dest)) :
    ∃ x ∈ dest, ¬Offers db inv (some bag) entry x.1 := by
  have hside : carried.itemEnd ≤ bankSlotBagEnd := by decide
  obtain ⟨hslot, -, -⟩ := isBagSlot_of_getBagByPos hbag
  have hbounds := isBagSlot_bounds hslot
  have hmain : p.bag ≠ inventorySlotBag0 := by
    unfold inventorySlotBag0
    omega
  have hnull : p.bag ≠ nullBag := by
    unfold nullBag
    omega
  have hsearch := search_of_canStoreItem hok
  have hinBag {merge nonSpecialized : Bool} {skip : Pos} {pl pl' : Plan Pos} :
      inv.canStoreItemInBag db p.bag entry merge nonSpecialized (some bag) skip pl ≠ .ok pl' := by
    unfold canStoreItemInBag
    rw [hbag]
    dsimp only
    rw [any_some, if_pos (decide_eq_true rfl)]
    split <;> exact nofun
  by_cases hasked : p.slot = nullSlot
  · -- No attempt goes into the bag, which is the item itself.
    have hrefused (merge : Bool) (rest : List (Plan Pos → Attempt)) (pl : Plan Pos) :
        (search .invFull (inv.inAskedBag db carried p entry merge (some bag) :: rest) pl).1 ≠
          .ok := by
      unfold search inAskedBag
      rw [if_neg hmain]
      cases hthis : inv.inThisBag db p.bag entry merge (some bag) p.slot pl with
      | error msg =>
        intro hmsg
        have heq : msg = .ok := hmsg
        unfold inThisBag at hthis
        rw [heq] at hthis
        split at hthis
        · cases hthis
        · exact inBag_ne_ok hthis
      | ok pl1 =>
        unfold inThisBag at hthis
        split at hthis
        · rename_i hspecial
          exact absurd hspecial hinBag
        · exact absurd hthis hinBag
    have hhead : ∃ merge rest, inv.attempts db carried p entry false (some bag) =
        inv.inAskedBag db carried p entry merge (some bag) :: rest := by
      unfold attempts
      dsimp only
      rw [if_neg fun h => h.2 hasked, if_pos hnull]
      by_cases hstacked : (db.template entry).stackable ≠ 1
      · rw [if_pos hstacked]
        exact ⟨true, _, rfl⟩
      rw [if_neg hstacked]
      exact ⟨false, _, rfl⟩
    obtain ⟨merge, rest, hhead⟩ := hhead
    rw [hhead] at hsearch
    exact absurd (congrArg Prod.fst hsearch) (hrefused merge rest _)
  have hhead : ∃ rest, inv.attempts db carried p entry false (some bag) =
      asked db inv p entry (some bag) :: rest := by
    unfold attempts
    dsimp only
    rw [if_pos ⟨hnull, hasked⟩]
    exact ⟨_, rfl⟩
  obtain ⟨rest, hhead⟩ := hhead
  have hadds : Adds (fun _ => True) (asked db inv p entry (some bag)) := by
    intro pl pl' hfound
    obtain ⟨-, space, rfl⟩ := inSpecificSlot_eq_add (must_eq_found hfound)
    exact add_dest (Q := fun _ => True) pl p space trivial
  have hall := adds_attempts hside hadds fun _ _ => trivial
  rw [hhead] at hall
  have hrest (f : Plan Pos → Attempt) (hf : f ∈ rest) : Adds (fun _ => True) f :=
    hall f (mem_cons_of_mem _ hf)
  rw [hhead] at hsearch
  unfold search asked at hsearch
  cases hspec : inv.canStoreItemInSpecificSlot db p entry false (some bag) { count := n } with
  | error msg =>
    rw [hspec] at hsearch
    have hmsg : msg = .ok := congrArg Prod.fst hsearch
    rw [hmsg] at hspec
    exact absurd hspec inSpecificSlot_ne_ok
  | ok pl =>
    rw [hspec] at hsearch
    obtain ⟨hempty, space, rfl⟩ := inSpecificSlot_eq_add hspec
    have hplanned : p ∈ dest.map Prod.fst := by
      have hadded := mem_add_dest { count := n } p space
      unfold must at hsearch
      dsimp only at hsearch
      split at hsearch
      · obtain ⟨-, heq⟩ := Prod.mk.inj hsearch
        rw [heq] at hadded
        exact hadded
      obtain ⟨more, hmore, -⟩ := search_adds hrest hsearch
      dsimp only at hmore
      rw [hmore, map_append]
      exact mem_append_left _ hadded
    obtain ⟨x, hx, hxp⟩ := mem_map.mp hplanned
    refine ⟨x, hx, ?_⟩
    rw [hxp]
    have hnot : ¬inv.isNotEmptyBag db bag = true := by
      rcases hempty with hempty | hpos
      · exact hempty
      · exact absurd (isBagPos_iff.mp hpos).1 hmain
    unfold Offers
    rw [otherItem_of_intoItself hbag hnot]
    rintro (⟨heq, -⟩ | ⟨bag', hbag', -, -, hother⟩)
    · exact hmain heq
    rw [hbag] at hbag'
    cases hbag'
    exact hother bag rfl rfl

/-! ### Carrying out a plan -/

/-- **What storing does**: the total of the kind grows by the amount, stacks stay within their
maximum, and what is outside the slots of the plan is left alone. -/
structure Stored (db : ItemStore) (inv : Inventory) (entry n : ℕ) (ps : List Pos)
    (inv' : Inventory) : Prop where
  there : ∀ q, inv.SlotExists db q → inv'.SlotExists db q
  total : ∀ k, inv'.slots.total k = inv.slots.total k + if entry = k then n else 0
  bounded : Slots.Bounded db.maxStack inv.slots → Slots.Bounded db.maxStack inv'.slots
  frame : ∀ q, inv.SlotExists db q → q ∉ ps → inv'.slots.stackAt q = inv.slots.stackAt q

theorem Stored.refl : Stored db inv entry 0 [] inv where
  there _ h := h
  total k := by
    rw [ite_self]
    rfl
  bounded h := h
  frame _ _ _ := rfl

theorem Stored.trans {n' : ℕ} {ps' : List Pos} {inv'' : Inventory}
    (h : Stored db inv entry n ps inv') (h' : Stored db inv' entry n' ps' inv'') :
    Stored db inv entry (n + n') (ps ++ ps') inv'' where
  there q hq := h'.there q (h.there q hq)
  total k := by
    rw [h'.total k, h.total k]
    split_ifs <;> omega
  bounded hb := h'.bounded (h.bounded hb)
  frame q hq hnot := by
    rw [mem_append, not_or] at hnot
    rw [h'.frame q (h.there q hq) hnot.2, h.frame q hq hnot.1]

variable {slots : Slots Pos Item}

theorem stackAt_withContents (hslot : p.isBagPos = true → q.bag ≠ p.slot)
    (hheld : q.bag ≠ held it.guid) : (withContents db slots p it).stackAt q = slots.stackAt q := by
  unfold withContents
  split
  · rename_i hbag
    rw [stackAt_rekey]
    congr 1
    unfold carry
    rw [if_neg (hslot hbag.2), if_neg hheld]
  · rfl

theorem total_withContents (k : ℕ) : (withContents db slots p it).total k = slots.total k := by
  unfold withContents
  split
  · exact total_rekey
  · rfl

theorem bounded_withContents (h : Slots.Bounded db.maxStack slots) :
    Slots.Bounded db.maxStack (withContents db slots p it) := by
  unfold withContents
  split
  · exact h.rekey _
  · exact h

theorem SlotExists.ne_held (h : inv.SlotExists db q) (guid : ℕ) : q.bag ≠ held guid := by
  unfold held
  rcases h with ⟨hmain, -⟩ | ⟨bag, hbag, -⟩
  · unfold inventorySlotBag0 at hmain
    omega
  have hbounds := isBagSlot_bounds (isBagSlot_of_getBagByPos hbag).1
  omega

/-- What enters a free slot brings its contents to slots that were not there. -/
theorem stackAt_withContents_of_free (hfree : inv.slots.stackAt p = none)
    (hq : inv.SlotExists db q) :
    (withContents db inv.slots p it).stackAt q = inv.slots.stackAt q := by
  refine stackAt_withContents (fun hpos heq => ?_) (hq.ne_held it.guid)
  obtain ⟨hmain, hslot⟩ := isBagPos_iff.mp hpos
  rcases hq with ⟨hmain', -⟩ | ⟨bag, hbag, -⟩
  · have hbounds := isBagSlot_bounds hslot
    unfold inventorySlotBag0 at hmain'
    omega
  obtain ⟨-, hat, -⟩ := isBagSlot_of_getBagByPos hbag
  rw [heq, ← hmain, hfree] at hat
  cases hat

theorem SlotExists.of_kind (hq : inv.SlotExists db q) (hbags : ∀ bag, Pos.isBagSlot q.bag = true →
      inv.slots.stackAt ⟨inventorySlotBag0, q.bag⟩ = some bag →
      ∃ bag', inv'.slots.stackAt ⟨inventorySlotBag0, q.bag⟩ = some bag' ∧ bag'.entry = bag.entry) :
    inv'.SlotExists db q := by
  rcases hq with hmain | ⟨bag, hbag, hlt⟩
  · exact .inl hmain
  obtain ⟨hslot, hat, hisBag⟩ := isBagSlot_of_getBagByPos hbag
  obtain ⟨bag', hat', hentry⟩ := hbags bag hslot hat
  refine .inr ⟨bag', ?_, ?_⟩
  · unfold getBagByPos
    rw [if_pos hslot, hat', filter_some]
    refine if_pos ?_
    unfold ItemStore.isBag at hisBag ⊢
    rw [hentry]
    exact hisBag
  unfold bagSize at hlt ⊢
  rw [hentry]
  exact hlt

theorem storedAt_of_exists (h : inv.SlotExists db r) : inv.storedAt db r = r := by
  unfold storedAt
  split_ifs with hcase
  · rcases hcase with hmain | hnone
    · rw [← hmain]
    rcases h with ⟨hmain, -⟩ | ⟨bag, hbag, -⟩
    · rw [← hmain]
    rw [hbag] at hnone
    cases hnone
  · rfl

/-- The slots `_StoreItem` puts a stack in. -/
def ready (db : ItemStore) (inv : Inventory) (guid : ℕ) (it : Item) (r : Pos) (clone : Bool) :
    Slots Pos Item :=
  match inv.slots.stackAt r with
  | some _ => inv.slots
  | none => withContents db inv.slots r (if clone then Stackable.clone guid it else it)

theorem stackAt_ready (hq : inv.SlotExists db q) :
    (inv.ready db guid it r clone).stackAt q = inv.slots.stackAt q := by
  unfold ready
  cases hr : inv.slots.stackAt r with
  | some it2 => rfl
  | none => exact stackAt_withContents_of_free hr hq

theorem storeOne_slots (hr : inv.SlotExists db r) : (inv.storeOne db guid it r n clone).1.slots =
      ((inv.ready db guid it r clone).storeAt (inv.mark db) guid it r n (!clone)).1 := by
  have hat : (inv.ready db guid it r clone).stackAt r = inv.slots.stackAt r := stackAt_ready hr
  unfold storeOne storeAt
  rw [hat, getItemByPos_of_exists hr]
  unfold ready
  cases inv.slots.stackAt r with
  | some it2 => rfl
  | none =>
    dsimp only
    rw [storedAt_of_exists hr]
    cases clone with
    | true => rfl
    | false => rfl

/-- **One entry of a plan.** -/
theorem stored_storeOne (hr : inv.SlotExists db r) (hroom : inv.slots.Room db.maxStack it r n) :
    Stored db inv it.entry n [r] (inv.storeOne db guid it r n clone).1 := by
  have hroom' : (inv.ready db guid it r clone).Room db.maxStack it r n := by
    unfold Slots.Room at hroom ⊢
    rwa [stackAt_ready hr]
  refine ⟨fun q hq => ?_, fun k => ?_, fun hb => ?_, fun q hq hne => ?_⟩
  · refine hq.of_kind fun bag hslot hat => ?_
    have hbounds := isBagSlot_bounds hslot
    have hthere : inv.SlotExists db ⟨inventorySlotBag0, q.bag⟩ := .inl ⟨rfl, hbounds.2⟩
    have hat' : (inv.ready db guid it r clone).stackAt ⟨inventorySlotBag0, q.bag⟩ = some bag :=
      (stackAt_ready hthere).trans hat
    rw [storeOne_slots hr]
    exact (kind_stackAt_storeAt _ _ _ _ _ _ hat').imp fun _ hb => ⟨hb.1, hb.2.1⟩
  · rw [storeOne_slots hr, total_storeAt hroom']
    congr 1
    unfold ready
    split
    · rfl
    · exact total_withContents k
  · rw [storeOne_slots hr]
    refine Slots.Bounded.storeAt ?_ hroom'
    unfold ready
    split
    · exact hb
    · exact bounded_withContents hb
  have hqr : q ≠ r := by
    rintro rfl
    exact hne (mem_singleton_self q)
  rw [storeOne_slots hr, stackAt_storeAt_ne hqr]
  exact stackAt_ready hq

/-- **A plan whose slots are there and have room is carried out.** -/
theorem stored_storeItem (hnodup : (dest.map Prod.fst).Nodup)
    (hdest : ∀ x ∈ dest, inv.SlotExists db x.1 ∧ inv.slots.Room db.maxStack it x.1 x.2) :
    Stored db inv it.entry (dest.map Prod.snd).sum (dest.map Prod.fst)
      (inv.storeItem db guid it dest).1 := by
  induction dest generalizing inv guid with
  | nil => exact Stored.refl
  | cons x dest ih =>
    obtain ⟨r, n⟩ := x
    obtain ⟨hr, hroom⟩ := hdest (r, n) mem_cons_self
    cases dest with
    | nil => exact stored_storeOne hr hroom
    | cons y dest =>
      have hone : Stored db inv it.entry n [r] (inv.storeOne db guid it r n true).1 :=
        stored_storeOne hr hroom
      rw [map_cons, nodup_cons] at hnodup
      have hrest : ∀ z ∈ y :: dest, (inv.storeOne db guid it r n true).1.SlotExists db z.1 ∧
            (inv.storeOne db guid it r n true).1.slots.Room db.maxStack it z.1 z.2 := by
        intro z hz
        obtain ⟨hthere, hroomz⟩ := hdest z (mem_cons_of_mem _ hz)
        refine ⟨hone.there z.1 hthere, ?_⟩
        have hne : z.1 ∉ [r] := by
          intro hmem
          have hin : z.1 ∈ (y :: dest).map Prod.fst := mem_map_of_mem hz
          rw [mem_singleton.mp hmem] at hin
          exact hnodup.1 hin
        unfold Slots.Room at hroomz ⊢
        rwa [hone.frame z.1 hthere hne]
      exact hone.trans (ih hnodup.2 hrest)

/-! ### The item leaves its slot -/

/-- **The item that is stored**: it is taken out of its slot, it was in none, or it is made
for the plan. -/
inductive Origin (db : ItemStore) (inv : Inventory) (it : Item) : Option Item → Inventory → Prop
  | held (q : Pos) (h : inv.getItemByPos db q = some it) :
      Origin db inv it (some it) (inv.removeItem db q)
  | outside (h : ¬inv.slots.Holds it.guid) : Origin db inv it (some it) inv
  | made (h : ¬inv.slots.Holds it.guid) : Origin db inv it none inv

theorem stackAt_removeItem (hq : inv.getItemByPos db q = some it) (hr : inv.SlotExists db r)
    (hself : ¬IntoItself db inv (some it) r) :
    (inv.removeItem db q).slots.stackAt r = if r = q then none else inv.slots.stackAt r := by
  unfold removeItem
  rw [hq, ← stackAt_eraseAt]
  refine stackAt_withContents (fun hpos heq => ?_) (hr.ne_held it.guid)
  obtain ⟨hmain, hslot⟩ := isBagPos_iff.mp hpos
  rcases hr with ⟨hmain', -⟩ | ⟨bag, hbag, -⟩
  · have hbounds := isBagSlot_bounds hslot
    unfold inventorySlotBag0 at hmain'
    omega
  obtain ⟨-, hat, -⟩ := isBagSlot_of_getBagByPos hbag
  rw [heq, ← hmain, (exists_of_getItemByPos hq).2] at hat
  cases hat
  exact hself ⟨it, rfl, it, hbag, rfl⟩

theorem there_removeItem (hq : inv.getItemByPos db q = some it) (hr : inv.SlotExists db r)
    (hself : ¬IntoItself db inv (some it) r) : (inv.removeItem db q).SlotExists db r := by
  have hat := (exists_of_getItemByPos hq).2
  refine hr.of_kind fun bag hslot hbag => ⟨bag, ?_, rfl⟩
  have hbounds := isBagSlot_bounds hslot
  rw [stackAt_removeItem hq (.inl ⟨rfl, hbounds.2⟩) (not_intoItself_of_main rfl), hbag]
  refine if_neg fun heq => ?_
  rw [heq, hat] at hbag
  cases hbag
  rcases hr with ⟨hmain, -⟩ | ⟨bag', hbag', -⟩
  · unfold inventorySlotBag0 at hmain
    omega
  obtain ⟨-, hat', -⟩ := isBagSlot_of_getBagByPos hbag'
  rw [heq, hat] at hat'
  cases hat'
  exact hself ⟨it, rfl, it, hbag', rfl⟩

theorem room_of_takes (htakes : Takes db inv none it.entry src r n)
    (hother : ∀ b, inv.slots.stackAt r = some b → ∀ s ∈ src, s.guid ≠ b.guid) :
    inv.slots.Room db.maxStack it r n := by
  unfold Slots.Room
  cases hat : inv.slots.stackAt r with
  | none => exact htakes.le
  | some b =>
    refine (htakes.room b ?_).resolve_left nofun
    unfold otherItem
    rw [getItemByPos_of_exists htakes.there, hat, filter_some]
    refine if_pos ?_
    cases src with
    | none => rfl
    | some s => exact decide_eq_true (hother b hat s rfl)

variable {inv0 : Inventory}

/-- **The slots of a plan, once the item is out**: they are there and have room. -/
theorem room_of_planned (hapart : inv.slots.Apart)
    (horigin : Origin db inv it src inv0) (hplanned : Planned db inv src it.entry r)
    (htakes : Takes db inv none it.entry src r n) :
    inv0.SlotExists db r ∧ inv0.slots.Room db.maxStack it r n := by
  cases horigin with
  | held q hq =>
    refine ⟨there_removeItem hq htakes.there hplanned.2, ?_⟩
    have hatq := (exists_of_getItemByPos hq).2
    by_cases hrq : r = q
    · unfold Slots.Room
      rw [stackAt_removeItem hq htakes.there hplanned.2, if_pos hrq]
      exact htakes.le
    have hroom : inv.slots.Room db.maxStack it r n := by
      refine room_of_takes htakes fun b hat s hs hguid => hrq ?_
      cases hs
      exact hapart ⟨r, b⟩ (stackAt_eq_some.mp hat) ⟨q, it⟩ (stackAt_eq_some.mp hatq) hguid.symm
    unfold Slots.Room at hroom ⊢
    rw [stackAt_removeItem hq htakes.there hplanned.2, if_neg hrq]
    exact hroom
  | outside hnot =>
    refine ⟨htakes.there, room_of_takes htakes fun b hat s hs hguid => hnot ?_⟩
    cases hs
    exact hguid ▸ holds_of_stackAt hat
  | made => exact ⟨htakes.there, room_of_takes htakes nofun⟩

/-- **A new item is stored.** -/
theorem stored_of_canStoreItem_none
    (hok : inv.canStoreItem db p it.entry n none false = (.ok, dest)) (guid : ℕ) :
    Stored db inv it.entry n (dest.map Prod.fst) (inv.storeItem db guid it dest).1 := by
  have hsound := canStoreItem_sound hok
  have hsum : (dest.map Prod.snd).sum = n := hsound.sum
  rw [← hsum]
  refine stored_storeItem hsound.nodup fun x hx => ?_
  have htakes := hsound.takes x hx
  exact ⟨htakes.there, room_of_takes htakes nofun⟩

/-! ### The plan is right -/

/-- **A plan is sound and can be carried out**: its slots are distinct, the amounts add up to what
was asked for, each slot offers room for its amount, and `StoreItem` adds that much to the total of
the entry, leaves every stack within its maximum and the other slots as they are. -/
structure StoreRight (db : ItemStore) (inv inv0 : Inventory) (src : Option Item) (n guid : ℕ)
    (it : Item) (dest : List (Pos × ℕ)) : Prop where
  distinct : (dest.map Prod.fst).Nodup
  sum : (dest.map Prod.snd).sum = n
  offers : ∀ x ∈ dest, Offers db inv src it.entry x.1 ∧ HasRoom db inv src it.entry x.1 x.2
  total : ∀ k, (inv0.storeItem db guid it dest).1.slots.total k =
    inv0.slots.total k + if it.entry = k then n else 0
  bounded : Slots.Bounded db.maxStack (inv0.storeItem db guid it dest).1.slots
  frame : ∀ q, inv0.SlotExists db q → q ∉ dest.map Prod.fst →
    (inv0.storeItem db guid it dest).1.slots.stackAt q = inv0.slots.stackAt q

theorem eq_of_intoItself (hapart : inv.slots.Apart)
    (horigin : Origin db inv it src inv0) (hself : IntoItself db inv src p) :
    src = some it ∧ inv.getBagByPos db p.bag = some it := by
  obtain ⟨s, hs, bag, hbag, hguid⟩ := hself
  obtain ⟨-, hat, -⟩ := isBagSlot_of_getBagByPos hbag
  cases horigin with
  | held q hq =>
    cases hs
    have hatq := (exists_of_getItemByPos hq).2
    have hpos := hapart ⟨q, it⟩ (stackAt_eq_some.mp hatq) ⟨_, bag⟩ (stackAt_eq_some.mp hat) hguid
    dsimp only at hpos
    rw [← hpos, hatq] at hat
    cases hat
    exact ⟨rfl, hbag⟩
  | outside hnot =>
    cases hs
    exact absurd (hguid ▸ holds_of_stackAt hat) hnot
  | made => cases hs

theorem bounded_origin (hbounded : Slots.Bounded db.maxStack inv.slots)
    (horigin : Origin db inv it src inv0) : Slots.Bounded db.maxStack inv0.slots := by
  cases horigin with
  | held q hq =>
    unfold removeItem
    rw [hq]
    exact bounded_withContents hbounded.eraseAt
  | outside | made => exact hbounded

/-- **Plans are sound exactly if nothing is stored into itself.**  The item is taken out of its slot
first, and the guids and stacks of the inventory are as they should be. -/
theorem canStoreItem_right_iff {inv0 : Inventory} (hbounded : Slots.Bounded db.maxStack inv.slots)
    (hapart : inv.slots.Apart) (horigin : Origin db inv it src inv0) (guid : ℕ)
    (hok : inv.canStoreItem db p it.entry n src false = (.ok, dest)) :
    StoreRight db inv inv0 src n guid it dest ↔ ¬IntoItself db inv src p := by
  constructor
  · intro hright hself
    obtain ⟨rfl, hbag⟩ := eq_of_intoItself hapart horigin hself
    obtain ⟨x, hx, hnot⟩ := not_offers_of_intoItself hbag hok
    exact hnot (hright.offers x hx).1
  intro hself
  have hsound := canStoreItem_sound hok
  have hplanned := planned_of_canStoreItem hself hok
  have hroom := hasRoom_of_canStoreItem hok
  have hstored : Stored db inv0 it.entry (dest.map Prod.snd).sum (dest.map Prod.fst)
      (inv0.storeItem db guid it dest).1 := by
    refine stored_storeItem hsound.nodup fun x hx => ?_
    exact room_of_planned hapart horigin (hplanned x hx) (hsound.takes x hx)
  have hsum : (dest.map Prod.snd).sum = n := hsound.sum
  rw [hsum] at hstored
  refine ⟨hsound.nodup, hsum, fun x hx => ⟨(hplanned x hx).1, hroom x hx⟩, hstored.total,
    hstored.bounded (bounded_origin hbounded horigin), hstored.frame⟩

/-- Helmets, bags of four slots, and cloth that stacks to 20. -/
def wardrobe : ItemStore where
  template entry :=
    if entry = 1 then { itemClass := 4, inventoryType := 1 }
    else if entry = 2 then { itemClass := 1, inventoryType := 18, containerSlots := 4 }
    else { stackable := 20 }
  limitCategory _ := none

/-- A player with a helmet on, an empty bag in its first bag slot and 15 pieces of cloth. -/
def dressed : Inventory where
  guid := 1
  slots :=
    { rows := [⟨⟨255, 0⟩, { guid := 11, entry := 1, count := 1, owner := 1 }⟩,
        ⟨⟨255, 19⟩, { guid := 12, entry := 2, count := 1, owner := 1 }⟩,
        ⟨⟨255, 23⟩, { guid := 13, entry := 3, count := 15, owner := 1 }⟩]
      distinct := by decide }

/-- Ten more pieces fill the stack up, and the rest goes to the next slot. -/
theorem canStoreItem_right_cloth :
    StoreRight wardrobe dressed dressed none 10 14 { guid := 14, entry := 3, count := 10 }
      [(⟨255, 23⟩, 5), (⟨255, 24⟩, 5)] := by
  have hbounded : Slots.Bounded wardrobe.maxStack dressed.slots := by
    unfold Slots.Bounded
    decide
  have hapart : dressed.slots.Apart := by
    unfold Slots.Apart
    decide
  have horigin : Origin wardrobe dressed { guid := 14, entry := 3, count := 10 } none dressed := by
    refine .made ?_
    unfold Slots.Holds
    decide
  refine (canStoreItem_right_iff (p := ⟨nullBag, nullSlot⟩) hbounded hapart horigin 14
    (by decide +kernel)).mpr ?_
  rintro ⟨s, hs, -⟩
  cases hs

/-- **The bag goes into itself and the helmet is gone.** -/
theorem bag_stored_in_itself :
    let bag : Item := { guid := 12, entry := 2, count := 1, owner := 1 }
    dressed.getItemByPos wardrobe ⟨255, 19⟩ = some bag ∧
      dressed.canStoreItem wardrobe ⟨19, 0⟩ 2 1 (some bag) false = (.ok, [(⟨19, 0⟩, 1)]) ∧
      dressed.slots.total 1 = 1 ∧
      ((dressed.removeItem wardrobe ⟨255, 19⟩).storeItem wardrobe 14 bag
        [(⟨19, 0⟩, 1)]).1.slots.total 1 = 0 ∧
      ¬StoreRight wardrobe dressed (dressed.removeItem wardrobe ⟨255, 19⟩) (some bag) 1 14 bag
        [(⟨19, 0⟩, 1)] := by
  intro bag
  have htotal : ((dressed.removeItem wardrobe ⟨255, 19⟩).storeItem wardrobe 14 bag
      [(⟨19, 0⟩, 1)]).1.slots.total 1 = 0 := by decide +kernel
  refine ⟨by decide +kernel, by decide +kernel, by decide +kernel, htotal, fun hright => ?_⟩
  have hkept := hright.total 1
  rw [htotal] at hkept
  revert hkept
  decide +kernel

end ZerosCore.Player.Inventory
