/-
The draft of the editor after any sequence of its operations.
-/
import GSSquared.Config.ConfigDraft

set_option linter.all false

namespace GSSquared.Config

open Bits Wire Machine

structure Fits (platform : PlatformId) (slot : Fin numSlots) (id : DeviceId) : Prop where
  card : (deviceInfo id).slotsAllowed ≠ 0
  platform : platform ∈ (deviceInfo id).platforms
  slot : slotAllowsDevice slot (deviceInfo id)

def Shares (slots : Slots) (a b : Fin numSlots) : Prop :=
  ∀ id, slots a = some id → slots b = some id → (deviceInfo id).multipleInstances

structure Housed (platform : PlatformId) (slots : Slots) : Prop where
  fits : ∀ slot id, slots slot = some id → Fits platform slot id
  shares : ∀ a b, a ≠ b → Shares slots a b

variable {platform : PlatformId} {slots : Slots}

theorem validateSlot_ok {seen seen' : List DeviceId} {slot : Fin numSlots} :
    validateSlot platform slots seen slot = .ok seen' ↔
      (∀ id, slots slot = some id → Fits platform slot id ∧ (id ∈ seen → (deviceInfo id).multipleInstances)) ∧
        seen' = (slots slot).toList ++ seen := by
  unfold validateSlot fail
  cases hslot : slots slot with
  | none => exact ⟨fun h => ⟨fun _ hid => (by cases hid), (Except.ok.inj h).symm⟩, fun h => congrArg _ h.2.symm⟩
  | some id =>
    dsimp only
    constructor
    · intro h
      split at h
      · cases h
      split at h
      · cases h
      split at h
      · cases h
      split at h
      · cases h
      next hcard hplatform hallows hseen =>
        rw [Decidable.not_not] at hplatform
        rw [Bool.not_eq_true', Bool.not_eq_false] at hallows
        refine ⟨?_, (Except.ok.inj h).symm⟩
        rintro _ ⟨⟩
        refine ⟨⟨hcard, hplatform, hallows⟩, fun hmem => ?_⟩
        by_contra hsingle
        exact hseen ⟨by rw [Bool.not_eq_true] at hsingle; rw [hsingle]; rfl, hmem⟩
    · rintro ⟨h, rfl⟩
      obtain ⟨hfits, hseen⟩ := h id rfl
      rw [if_neg hfits.card, if_neg (not_not.mpr hfits.platform), if_neg (by rw [hfits.slot]; decide), if_neg]
      · rfl
      · rintro ⟨hsingle, hmem⟩
        rw [hseen hmem] at hsingle
        cases hsingle

theorem validate_fold (l : List (Fin numSlots)) : ∀ seen, (∃ r, l.foldlM (validateSlot platform slots) seen = .ok r) ↔
    (∀ slot ∈ l, ∀ id, slots slot = some id → Fits platform slot id ∧ (id ∈ seen → (deviceInfo id).multipleInstances)) ∧
      l.Pairwise (Shares slots) := by
  induction l with
  | nil => exact fun seen => ⟨fun _ => ⟨fun _ h => (by cases h), .nil⟩, fun _ => ⟨seen, rfl⟩⟩
  | cons slot l ih =>
    intro seen
    have hturn : (∃ r, (slot :: l).foldlM (validateSlot platform slots) seen = .ok r) ↔
        ∃ seen', validateSlot platform slots seen slot = .ok seen' ∧
          ∃ r, l.foldlM (validateSlot platform slots) seen' = .ok r := by
      rw [List.foldlM_cons]
      cases validateSlot platform slots seen slot with
      | error stop => exact ⟨fun ⟨_, h⟩ => (by cases h), fun ⟨_, h, _⟩ => (by cases h)⟩
      | ok seen' => exact ⟨fun h => ⟨seen', rfl, h⟩, fun ⟨_, h, hr⟩ => (by cases h; exact hr)⟩
    have hboth : ∀ id, id ∈ (slots slot).toList ++ seen ↔ slots slot = some id ∨ id ∈ seen := by
      intro id
      rw [List.mem_append, Option.mem_toList]
    rw [hturn, List.pairwise_cons]
    constructor
    · rintro ⟨seen', hslot, hrest⟩
      obtain ⟨hhead, rfl⟩ := validateSlot_ok.mp hslot
      obtain ⟨htail, hpairs⟩ := (ih _).mp hrest
      refine ⟨?_, ?_, hpairs⟩
      · intro s hs id hid
        rcases List.mem_cons.mp hs with rfl | hs
        · exact hhead id hid
        · exact ⟨(htail s hs id hid).1, fun hmem => (htail s hs id hid).2 ((hboth id).mpr (.inr hmem))⟩
      · intro s hs id hslot hid
        exact (htail s hs id hid).2 ((hboth id).mpr (.inl hslot))
    · rintro ⟨hall, hshares, hpairs⟩
      refine ⟨_, validateSlot_ok.mpr ⟨hall slot List.mem_cons_self, rfl⟩, (ih _).mpr ⟨?_, hpairs⟩⟩
      intro s hs id hid
      obtain ⟨hfits, hseen⟩ := hall s (List.mem_cons_of_mem slot hs) id hid
      refine ⟨hfits, fun hmem => ?_⟩
      rcases (hboth id).mp hmem with hslot | hmem
      · exact hshares s hs id hslot hid
      · exact hseen hmem

theorem validateCards_ok : validateCards platform slots = .ok () ↔ Housed platform slots := by
  have hfold : validateCards platform slots = .ok () ↔
      ∃ r, (List.finRange numSlots).foldlM (validateSlot platform slots) [] = .ok r := by
    unfold validateCards
    cases (List.finRange numSlots).foldlM (validateSlot platform slots) [] with
    | error stop => exact ⟨fun h => (by cases h), fun ⟨_, h⟩ => (by cases h)⟩
    | ok r => exact ⟨fun _ => ⟨r, rfl⟩, fun _ => rfl⟩
  have hsymm : Std.Symm (Shares slots) := ⟨fun a b h id hb ha => h id ha hb⟩
  rw [hfold, validate_fold]
  constructor
  · rintro ⟨hall, hpairs⟩
    exact ⟨fun slot id hid => (hall slot (List.mem_finRange slot) id hid).1,
      fun a b hne => hpairs.forall (List.mem_finRange a) (List.mem_finRange b) hne⟩
  · intro h
    exact ⟨fun slot _ id hid => ⟨h.fits slot id hid, fun hmem => (by cases hmem)⟩,
      (List.nodup_finRange numSlots).pairwise_of_forall_ne fun a _ b _ hne => h.shares a b hne⟩

structure ConfigDraft.Consistent (d : ConfigDraft) : Prop where
  cards : validateCards d.platform d.slots = .ok ()
  mounts : ∀ m ∈ d.mounts, ∃ spec ∈ deriveDrives d.platform d.slots, spec.target = m.target
  mountOnce : (d.mounts.map DiskMount.target).Nodup
  connections : ∀ c ∈ d.connections, ∃ port ∈ derivePorts d.platform d.slots,
    port.key = c.key ∧ (ConnectionDevice.fromString c.device).allowed port.kind
  connectionOnce : (d.connections.map ConnectionConfig.key).Nodup

namespace ConfigDraft

variable {d e : ConfigDraft}

theorem key_normal (c : ConnectionConfig) : normalizeConnectionKey (some c.key.slot) c.key.port = c.key := by
  unfold ConnectionConfig.key normalizeConnectionKey
  dsimp only
  split
  · rfl
  · split <;> rfl

theorem prune_allowed {c c' : ConnectionConfig} (h : d.prune c = some c') : c'.key = c.key ∧
    ∃ port ∈ derivePorts d.platform d.slots, port.key = c'.key ∧ (ConnectionDevice.fromString c'.device).allowed port.kind := by
  have hserial : ∀ device : ConnectionDevice, ∀ kind, ¬ (kind = .parallel ∧ (device = .modem ∨ device = .serial)) →
      device.allowed kind = true := by
    intro device kind
    cases device <;> cases kind <;> decide
  have hkey : (⟨some c.key.slot, c.key.port, c.device, c.path, c.remoteUrl⟩ : ConnectionConfig).key = c.key := key_normal c
  unfold prune at h
  dsimp only at h
  rw [hkey] at h
  split at h
  · cases h
  next port hport =>
    obtain ⟨hmem, hport⟩ := Upsert.mem_of_find hport
    split at h
    · cases h
      exact ⟨key_normal c, port, hmem, hport.trans (key_normal c).symm, rfl⟩
    next hnot =>
      cases h
      exact ⟨hkey, port, hmem, hport.trans hkey.symm, hserial _ _ hnot⟩

theorem pruneOrphanConnections_consistent (hcards : Housed d.platform d.slots)
    (hmounts : ∀ m ∈ d.mounts, ∃ spec ∈ deriveDrives d.platform d.slots, spec.target = m.target)
    (honce : (d.mounts.map DiskMount.target).Nodup) (hkeys : (d.connections.map ConnectionConfig.key).Nodup) :
    d.pruneOrphanConnections.Consistent := by
  have hsublist : ∀ cs : List ConnectionConfig,
      ((cs.filterMap d.prune).map ConnectionConfig.key).Sublist (cs.map ConnectionConfig.key) := by
    intro cs
    induction cs with
    | nil => exact .slnil
    | cons c cs ih =>
      cases hprune : d.prune c with
      | none =>
        rw [List.filterMap_cons_none hprune]
        exact ih.cons _
      | some c' =>
        rw [List.filterMap_cons_some hprune, List.map_cons, List.map_cons, (prune_allowed hprune).1]
        exact ih.cons_cons _
  refine ⟨validateCards_ok.mpr hcards, hmounts, honce, fun c' hc' => ?_, hkeys.sublist (hsublist d.connections)⟩
  obtain ⟨c, -, hprune⟩ := List.mem_filterMap.mp hc'
  exact (prune_allowed hprune).2

theorem setConnection_consistent (h : d.Consistent) (key : ConnectionKey) (device : ConnectionDevice) (path : Text) :
    (d.setConnection key device path).Consistent := by
  have hname : ConnectionDevice.fromString device.name = device := by cases device <;> decide
  unfold setConnection
  dsimp only
  split
  · exact h
  next port hport =>
    obtain ⟨hmem, hkey⟩ := Upsert.mem_of_find hport
    split
    next hallowed =>
      refine ⟨h.cards, h.mounts, h.mountOnce, fun c hc => ?_, Upsert.nodup_upsert _ h.connectionOnce⟩
      rcases Upsert.mem_of_mem_upsert hc with rfl | hc
      · exact ⟨port, hmem, hkey, by rw [hname]; exact hallowed⟩
      · exact h.connections c hc
    · exact h

def OnCard (d : ConfigDraft) (m : DiskMount) : Prop := ∃ slot, ∃ spec ∈ cardDrives slot (d.slots slot), spec.target = m.target

theorem cardDrives_slot {slot : Fin numSlots} {id : Option DeviceId} {spec : DriveSpec} (h : spec ∈ cardDrives slot id) :
    spec.slot = slot := by
  unfold cardDrives at h
  split at h
  · rcases List.mem_pair.mp h with rfl | rfl <;> rfl
  · obtain ⟨drive, -, rfl⟩ := List.mem_map.mp h
    rfl
  · rcases List.mem_pair.mp h with rfl | rfl <;> rfl
  · rcases List.mem_pair.mp h with rfl | rfl <;> rfl
  · cases h

theorem listed_iff (m : DiskMount) : (∃ spec ∈ deriveDrives d.platform d.slots, spec.target = m.target) ↔
    (∃ spec ∈ builtinDrives d.platform, spec.target = m.target) ∨ d.OnCard m := by
  unfold deriveDrives OnCard
  constructor
  · rintro ⟨spec, hspec, htarget⟩
    rw [List.mem_insertionSort, List.mem_append, List.mem_flatMap] at hspec
    rcases hspec with hboard | ⟨slot, -, hcard⟩
    · exact .inl ⟨spec, hboard, htarget⟩
    · exact .inr ⟨slot, spec, hcard, htarget⟩
  · rintro (⟨spec, hspec, htarget⟩ | ⟨slot, spec, hspec, htarget⟩)
    · exact ⟨spec, (List.mem_insertionSort _).mpr (List.mem_append_left _ hspec), htarget⟩
    · exact ⟨spec, (List.mem_insertionSort _).mpr (List.mem_append_right _
        (List.mem_flatMap.mpr ⟨slot, List.mem_finRange slot, hspec⟩)), htarget⟩

structure Kept (d e : ConfigDraft) : Prop where
  mounts : e.mounts.Sublist d.mounts
  slots : ∀ m ∈ e.mounts, ∀ slot : Fin numSlots, slot.val = m.slot → e.slots slot = d.slots slot
  connections : e.connections = d.connections
  platform : e.platform = d.platform

theorem Kept.trans {f : ConfigDraft} (h : Kept d e) (h' : Kept e f) : Kept d f where
  mounts := h'.mounts.trans h.mounts
  slots := fun m hm slot hslot => (h'.slots m hm slot hslot).trans (h.slots m (h'.mounts.subset hm) slot hslot)
  connections := h'.connections.trans h.connections
  platform := h'.platform.trans h.platform

theorem Kept.refl (d : ConfigDraft) : Kept d d := ⟨.refl _, fun _ _ _ _ => rfl, rfl, rfl⟩

theorem Kept.onCard (h : Kept d e) {m : DiskMount} (hm : m ∈ e.mounts) (hcard : d.OnCard m) : e.OnCard m := by
  obtain ⟨slot, spec, hspec, htarget⟩ := hcard
  have hslot : slot.val = m.slot := (cardDrives_slot hspec).symm.trans (congrArg Prod.fst htarget)
  exact ⟨slot, spec, by rw [h.slots m hm slot hslot]; exact hspec, htarget⟩

theorem putCard_kept (slot : Fin numSlots) (id : Option DeviceId) (d : ConfigDraft) : Kept d (d.putCard slot id) := by
  refine ⟨List.filter_sublist, fun m hm s hs => ?_, rfl, rfl⟩
  have hother : m.slot ≠ slot.val := of_decide_eq_true (List.mem_filter.mp hm).2
  exact Function.update_of_ne (fun h => hother (hs.symm.trans (congrArg Fin.val h))) id d.slots

theorem housed_sub {platform platform' : PlatformId} {slots slots' : Slots} (h : Housed platform slots)
    (hslots : ∀ slot id, slots' slot = some id → slots slot = some id ∧ platform' ∈ (deviceInfo id).platforms) :
    Housed platform' slots' where
  fits := fun slot id hid =>
    let ⟨hold, hplatform⟩ := hslots slot id hid
    ⟨(h.fits slot id hold).card, hplatform, (h.fits slot id hold).slot⟩
  shares := fun a b hne id ha hb => h.shares a b hne id (hslots a id ha).1 (hslots b id hb).1

theorem mem_cards {slot : Fin numSlots} {occupied : Option Slots} {id : DeviceId}
    (h : id ∈ cardsAllowedForSlot platform slot occupied) : Fits platform slot id ∧ ∀ slots, occupied = some slots →
      ∀ s, s ≠ slot → slots s = some id → (deviceInfo id).multipleInstances := by
  obtain ⟨hcard, hplatform, hslot, hfree⟩ := of_decide_eq_true (List.mem_filter.mp h).2
  refine ⟨⟨hcard, hplatform, decide_eq_true ⟨hcard, hslot⟩⟩, ?_⟩
  rintro slots rfl s hs hid
  have hused : ((List.finRange numSlots).any fun s => s ≠ slot ∧ slots s = some id) = true :=
    List.any_eq_true.mpr ⟨s, List.mem_finRange s, decide_eq_true ⟨hs, hid⟩⟩
  dsimp only at hfree
  rw [hused, Bool.and_true] at hfree
  exact Bool.not_eq_eq_eq_not.mp hfree

theorem platform_of_allowed {id : DeviceId} (h : deviceAllowedOnPlatform id platform) :
    platform ∈ (deviceInfo id).platforms := by
  obtain ⟨slot, -, hmem⟩ := List.any_eq_true.mp h
  exact (mem_cards (List.contains_iff_mem.mp hmem)).1.platform

theorem putCard_none {s slot : Fin numSlots} {id : DeviceId} (h : (d.putCard s none).slots slot = some id) :
    d.slots slot = some id ∧ slot ≠ s := by
  have h : Function.update d.slots s none slot = some id := h
  by_cases hs : slot = s
  · rw [hs, Function.update_self] at h
    cases h
  · rw [Function.update_of_ne hs] at h
    exact ⟨h, hs⟩

theorem keepCards (platform : PlatformId) (l : List (Fin numSlots)) : ∀ d : ConfigDraft, Kept d (l.foldl (keepCard platform) d) ∧
    ∀ slot id, (l.foldl (keepCard platform) d).slots slot = some id →
      d.slots slot = some id ∧ (slot ∈ l → deviceAllowedOnPlatform id platform) := by
  induction l with
  | nil => exact fun d => ⟨.refl d, fun _ _ h => ⟨h, fun hmem => (by cases hmem)⟩⟩
  | cons s l ih =>
    intro d
    obtain ⟨hkept, hslots⟩ := ih (d.keepCard platform s)
    have hturn : Kept d (d.keepCard platform s) ∧ ∀ slot id, (d.keepCard platform s).slots slot = some id →
        d.slots slot = some id ∧ (slot = s → deviceAllowedOnPlatform id platform) := by
      unfold keepCard
      split
      next hnone => exact ⟨.refl d, fun slot id h => ⟨h, fun hs => by rw [hs, hnone] at h; cases h⟩⟩
      next id' hid' =>
        split
        next hallowed =>
          refine ⟨.refl d, fun slot id h => ⟨h, fun hs => ?_⟩⟩
          rw [hs, hid'] at h
          cases h
          exact hallowed
        · exact ⟨putCard_kept s none d, fun slot id h => (putCard_none h).imp_right fun hne hs => absurd hs hne⟩
    refine ⟨hturn.1.trans hkept, fun slot id h => ?_⟩
    obtain ⟨hid, hrest⟩ := hslots slot id h
    obtain ⟨hid, hhead⟩ := hturn.2 slot id hid
    exact ⟨hid, fun hmem => (List.mem_cons.mp hmem).elim hhead hrest⟩

def Offered (d : ConfigDraft) : Op → Prop
  | .setSlotDevice slot (some id) => ∃ h : slot < numSlots, id ∈ cardsAllowedForSlot d.platform ⟨slot, h⟩ (some d.slots)
  | .setMount slot drive _ => ∃ spec ∈ deriveDrives d.platform d.slots, spec.target = (slot, drive)
  | _ => True

def Suits (d : ConfigDraft) : Op → Prop
  | .setPlatform platform => d.platform.isIigs → ¬ platform.isIigs → ∀ m ∈ d.mounts,
      d.OnCard m ∨ ∃ slot id, slot.val = m.slot ∧ d.slots slot = some id ∧ ¬ deviceAllowedOnPlatform id platform
  | _ => True

theorem setSlotDevice_consistent (h : d.Consistent) {slot : Nat} {id : Option DeviceId}
    (hoffered : d.Offered (.setSlotDevice slot id)) : (d.setSlotDevice slot id).Consistent := by
  have hcards := validateCards_ok.mp h.cards
  unfold setSlotDevice
  split
  · next hlt =>
    have hput : ∀ s id', (d.putCard ⟨slot, hlt⟩ id).slots s = some id' →
        s = ⟨slot, hlt⟩ ∧ id = some id' ∨ s ≠ ⟨slot, hlt⟩ ∧ d.slots s = some id' := by
      intro s id' hid'
      have hid' : Function.update d.slots ⟨slot, hlt⟩ id s = some id' := hid'
      by_cases hs : s = ⟨slot, hlt⟩
      · rw [hs, Function.update_self] at hid'
        exact .inl ⟨hs, hid'⟩
      · rw [Function.update_of_ne hs] at hid'
        exact .inr ⟨hs, hid'⟩
    have hnew : ∀ id', id = some id' → Fits d.platform ⟨slot, hlt⟩ id' ∧
        ∀ s, s ≠ ⟨slot, hlt⟩ → d.slots s = some id' → (deviceInfo id').multipleInstances := by
      rintro id' rfl
      obtain ⟨hlt', hmem⟩ := hoffered
      exact (mem_cards hmem).imp_right fun hfree => hfree d.slots rfl
    refine pruneOrphanConnections_consistent ⟨?_, ?_⟩ ?_ (h.mountOnce.sublist (List.filter_sublist.map _)) h.connectionOnce
    · intro s id' hid'
      rcases hput s id' hid' with ⟨rfl, hid⟩ | ⟨-, hold⟩
      · exact (hnew id' hid).1
      · exact hcards.fits s id' hold
    · intro a b hne id' ha hb
      rcases hput a id' ha with ⟨rfl, hida⟩ | ⟨hna, holda⟩ <;> rcases hput b id' hb with ⟨rfl, hidb⟩ | ⟨hnb, holdb⟩
      · exact absurd rfl hne
      · exact (hnew id' hida).2 b hnb holdb
      · exact (hnew id' hidb).2 a hna holda
      · exact hcards.shares a b hne id' holda holdb
    · intro m hm
      have hkept := putCard_kept ⟨slot, hlt⟩ id d
      exact (listed_iff m).mpr (((listed_iff m).mp (h.mounts m (hkept.mounts.subset hm))).imp_right (hkept.onCard hm))
  · exact h

theorem setPlatform_consistent (h : d.Consistent) {platform : PlatformId} (hsuits : d.Suits (.setPlatform platform)) :
    (d.setPlatform platform).Consistent := by
  have hcards := validateCards_ok.mp h.cards
  have hend : ∀ e : ConfigDraft, Kept (d.onPlatform platform) e →
      (∀ slot id, e.slots slot = some id → d.slots slot = some id ∧ deviceAllowedOnPlatform id platform) →
      e.pruneOrphanConnections.Consistent := by
    intro e hkept hallowed
    have hkeys : (e.connections.map ConnectionConfig.key).Nodup := by
      rw [hkept.connections]
      exact h.connectionOnce
    have hplatform : e.platform = platform := hkept.platform
    refine pruneOrphanConnections_consistent ?_ ?_ (h.mountOnce.sublist (hkept.mounts.map _)) hkeys
    · rw [hplatform]
      exact housed_sub hcards fun slot id hid => (hallowed slot id hid).imp_right platform_of_allowed
    · intro m hm
      have hmem : m ∈ d.mounts := hkept.mounts.subset hm
      rw [listed_iff, hplatform]
      rcases (listed_iff m).mp (h.mounts m hmem) with hbuiltin | hcard
      · unfold builtinDrives at hbuiltin ⊢
        split at hbuiltin
        next hold =>
          by_cases hnew : platform.isIigs
          · rw [if_pos hnew]
            exact .inl hbuiltin
          rcases hsuits hold hnew m hmem with hcard | ⟨slot, id, hslot, hid, hgoes⟩
          · exact .inr (hkept.onCard hm hcard)
          · -- the card goes, and the mount with it
            have hstays : e.slots slot = some id := (hkept.slots m hm slot hslot).trans hid
            exact absurd (hallowed slot id hstays).2 hgoes
        · obtain ⟨spec, hspec, -⟩ := hbuiltin
          cases hspec
      · exact .inr (hkept.onCard hm hcard)
  unfold setPlatform
  dsimp only
  obtain ⟨hkept, hslots⟩ := keepCards platform (List.finRange numSlots) (d.onPlatform platform)
  split
  · refine hend _ (hkept.trans (putCard_kept 6 none _)) fun slot id hid => ?_
    exact (hslots slot id (putCard_none hid).1).imp_right fun hall => hall (List.mem_finRange slot)
  · exact hend _ hkept fun slot id hid => (hslots slot id hid).imp_right fun hall => hall (List.mem_finRange slot)

theorem step_consistent (h : d.Consistent) {op : Op} (hoffered : d.Offered op) (hsuits : d.Suits op) :
    (d.step op).Consistent := by
  cases op with
  | setPlatform platform => exact setPlatform_consistent h hsuits
  | setSlotDevice slot id => exact setSlotDevice_consistent h hoffered
  | setMount slot drive filename =>
    refine ⟨h.cards, fun m hm => ?_, Upsert.nodup_upsert _ h.mountOnce, h.connections, h.connectionOnce⟩
    rcases Upsert.mem_of_mem_upsert hm with rfl | hm
    · exact hoffered
    · exact h.mounts m hm
  | clearMount slot drive =>
    exact ⟨h.cards, fun m hm => h.mounts m (List.mem_filter.mp hm).1, h.mountOnce.sublist (List.filter_sublist.map _),
      h.connections, h.connectionOnce⟩
  | setConnection key device path => exact setConnection_consistent h key device path
  | clearConnection key =>
    exact ⟨h.cards, h.mounts, h.mountOnce, fun c hc => h.connections c (List.mem_filter.mp hc).1,
      h.connectionOnce.sublist (List.filter_sublist.map _)⟩

def Starts (d : ConfigDraft) : Prop := (∃ platform, d = resetForPlatform platform) ∨ ∃ config : ConfigDraft, config.Consistent ∧ d = loadFrom config

theorem starts_consistent (h : d.Starts) : d.Consistent := by
  rcases h with ⟨platform, rfl⟩ | ⟨config, hconfig, rfl⟩
  · have hcards : validateCards platform (resetForPlatform platform).slots = .ok () := by cases platform <;> decide +kernel
    exact ⟨hcards, fun _ hm => (by cases hm), .nil, fun _ hc => (by cases hc), .nil⟩
  · exact pruneOrphanConnections_consistent (validateCards_ok.mp hconfig.cards) hconfig.mounts hconfig.mountOnce
      hconfig.connectionOnce

theorem draft_consistent (start : ConfigDraft) (hstart : start.Starts) (ops : List Op)
    (h : Guarded step (fun d op => d.Offered op ∧ d.Suits op) start ops) : (Machine.run step start ops).Consistent :=
  Guarded.invariant (P := Consistent) (fun _ _ hop hd => step_consistent hd hop.1 hop.2) ops start h (starts_consistent hstart)

/-- A drive of the Disk II in slot 6 holds an image when the draft becomes a IIgs. -/
theorem draft_consistent_toIigs :
    (Machine.run step (resetForPlatform .appleIIe) [.setMount 6 0 (ascii "dos.dsk"), .setPlatform .appleIIgs]).Consistent :=
  draft_consistent (resetForPlatform .appleIIe) (.inl ⟨.appleIIe, rfl⟩) _
    ⟨⟨⟨⟨6, 0, .diskII⟩, by decide +kernel, rfl⟩, trivial⟩, ⟨trivial, fun hold => absurd hold (by decide)⟩, trivial⟩

def madeIie : ConfigDraft :=
  Machine.run step (resetForPlatform .appleIIgs) [.setMount 6 0 (ascii "dos.dsk"), .setPlatform .appleIIe]

theorem builtin_mount_left : ¬ madeIie.Consistent := by
  intro h
  obtain ⟨spec, hspec, -⟩ := h.mounts ⟨6, 0, ascii "dos.dsk"⟩ (by decide +kernel)
  have hnone : deriveDrives madeIie.platform madeIie.slots = [] := by decide +kernel
  rw [hnone] at hspec
  cases hspec

end ConfigDraft

end GSSquared.Config
