/-
The order of a settings file.
-/
import GSSquared.Config.Settings

set_option linter.all false

namespace GSSquared.Config

open Bits Wire Upsert

def DistinctKeys (lines : List Text) : Prop := ((lines.filterMap settingsEntry).map Prod.fst).Nodup

instance (lines : List Text) : Decidable (DistinctKeys lines) := inferInstanceAs (Decidable (List.Nodup _))

section Map

variable {es es' : List Entry}

theorem settingsMap_of_distinct {lines : List Text} (h : DistinctKeys lines) :
    settingsMap lines = lines.filterMap settingsEntry :=
  build_of_nodup h

theorem setting_perm (h : (es.map Prod.fst).Nodup) (hperm : es.Perm es') (key : Text) :
    setting es key = setting es' key := by
  rw [setting, setting, find_perm h hperm]

theorem setting_concat (e : Entry) (key : Text) :
    setting (es ++ [e]) key = (setting es key).or (if e.1 = key then some e.2 else none) := by
  rw [setting, setting, find, find, List.find?_append, List.find?_singleton]
  cases es.find? (fun y => decide (y.1 = key)) with
  | some y => rfl
  | none => by_cases hkey : e.1 = key <;> simp [hkey]

theorem setting_eq_none {key : Text} (h : key ∉ es.map Prod.fst) : setting es key = none := by
  rw [setting, Option.map_eq_none_iff, find_eq_none]
  exact fun e he hkey => h (hkey ▸ List.mem_map_of_mem he)

def slotName (slot : Fin numSlots) : Text := ascii "slot" ++ toText slot

theorem slotName_inj : ∀ slot slot' : Fin numSlots, slotName slot = slotName slot' → slot = slot' := by
  decide +kernel

theorem slotKey_eq_some {key : Text} {slot : Fin numSlots} : slotKey key = some slot ↔ key = slotName slot := by
  constructor
  · intro h
    have hname := List.find?_some h
    exact of_decide_eq_true hname
  · rintro rfl
    cases hfind : slotKey (slotName slot) with
    | none =>
      have hnone := List.find?_eq_none.mp hfind slot (List.mem_finRange slot)
      exact absurd (decide_eq_true rfl) hnone
    | some slot' =>
      have hname := List.find?_some hfind
      rw [slotName_inj slot slot' (of_decide_eq_true hname)]

def cardOf (es : List Entry) (slot : Fin numSlots) : Option DeviceId :=
  (setting es (slotName slot)).bind parseCardType

theorem installCards_eq (h : (es.map Prod.fst).Nodup) : installCards es = .ok (cardOf es) := by
  induction es using List.reverseRecOn with
  | nil => rfl
  | append_singleton es e ih =>
    rw [List.map_append, List.nodup_append] at h
    have hnew : e.1 ∉ es.map Prod.fst := fun hmem => h.2.2 _ hmem _ List.mem_cons_self rfl
    have hstep : installCards (es ++ [e]) = installCard (cardOf es) e := by
      rw [installCards, List.foldlM_append, ← installCards, ih h.1]
      show (List.foldlM installCard (cardOf es) [e]) = _
      rw [List.foldlM_cons]
      cases installCard (cardOf es) e <;> rfl
    have hold : ∀ slot, e.1 ≠ slotName slot → cardOf (es ++ [e]) slot = cardOf es slot := by
      intro slot hne
      rw [cardOf, setting_concat, if_neg hne, Option.or_none, cardOf]
    rw [hstep, installCard]
    cases hkey : slotKey e.1 with
    | none =>
      refine congrArg _ (funext fun slot => (hold slot fun heq => ?_).symm)
      rw [slotKey_eq_some.mpr heq] at hkey
      cases hkey
    | some slot =>
      have hname := slotKey_eq_some.mp hkey
      have hfree : setting es (slotName slot) = none := setting_eq_none (hname ▸ hnew)
      have hhere : cardOf (es ++ [e]) slot = parseCardType e.2 := by
        rw [cardOf, setting_concat, hfree, if_pos hname]
        rfl
      have hempty : cardOf es slot = none := by rw [cardOf, hfree]; rfl
      have hothers : ∀ slot', slot' ≠ slot → cardOf (es ++ [e]) slot' = cardOf es slot' :=
        fun slot' hne => hold slot' fun heq => hne (slotName_inj _ _ (heq.symm.trans hname))
      cases hcard : parseCardType e.2 with
      | none =>
        refine congrArg Except.ok (funext fun slot' => ?_)
        by_cases hslot : slot' = slot
        · rw [hslot, hhere, hcard, hempty]
        · rw [hothers slot' hslot]
      | some id =>
        dsimp only
        rw [if_neg (not_not_intro hempty)]
        refine congrArg Except.ok (funext fun slot' => ?_)
        by_cases hslot : slot' = slot
        · rw [hslot, hhere, hcard, Function.update_self]
        · rw [hothers slot' hslot, Function.update_of_ne hslot]

theorem slot7Specified_perm (hperm : es.Perm es') : slot7Specified es = slot7Specified es' := by
  rw [slot7Specified, slot7Specified, Bool.eq_iff_iff, List.any_eq_true, List.any_eq_true]
  exact exists_congr fun e => and_congr_left' hperm.mem_iff

variable (fs : Filesystem) (path : Text)

theorem parseHeader_perm (h : (es.map Prod.fst).Nodup) (hperm : es.Perm es') :
    parseHeader fs path es = parseHeader fs path es' := by
  simp only [parseHeader, setting_perm h hperm]

theorem board_perm (h : (es.map Prod.fst).Nodup) (hperm : es.Perm es') :
    board fs path es = board fs path es' := by
  have h' : (es'.map Prod.fst).Nodup := (hperm.map Prod.fst).nodup_iff.mp h
  have hcards : cardOf es = cardOf es' := funext fun slot => by rw [cardOf, cardOf, setting_perm h hperm]
  rw [board, board, parseHeader_perm fs path h hperm, installCards_eq h, installCards_eq h', hcards,
    slot7Specified_perm hperm]

end Map

section Disks

variable (fs : Filesystem) (baseDir : Text) (b : Board)

def request (e : Entry) : Option DiskMount :=
  match diskMount fs baseDir b e with
  | .ok m => m
  | .error _ => none

def requests (es : List Entry) : List DiskMount := es.filterMap (request fs baseDir b)

/-- An `int` holds the number of every floppy controller. -/
def Numbered (es : List Entry) : Prop :=
  ∀ e ∈ es, ∀ name drive, controllerDisk e.1 = some (name, drive) → floppyControllerIndex name ≠ .error .threw

variable {fs baseDir b}

theorem Numbered.perm {es es' : List Entry} (h : Numbered es) (hperm : es.Perm es') : Numbered es' :=
  fun e he => h e (hperm.mem_iff.mpr he)

theorem floppyControllerIndex_error {name : Text} {stop : Stop} (h : floppyControllerIndex name = .error stop) :
    stop = .threw := by
  simp only [floppyControllerIndex] at h
  split at h
  · split at h
    · cases h
    · split at h <;> cases h
      rfl
  · cases h

theorem floppyControllerIndex_smartport : floppyControllerIndex (ascii "smartport") = .ok (-1) := by decide

theorem diskMount_error {e : Entry} {stop : Stop} :
    diskMount fs baseDir b e = .error stop ↔
      ∃ name drive, controllerDisk e.1 = some (name, drive) ∧ floppyControllerIndex name = .error stop := by
  rw [diskMount, smartportDisk]
  cases controllerDisk e.1 with
  | none => simp
  | some found =>
    obtain ⟨name, drive⟩ := found
    by_cases hname : name = ascii "smartport"
    · simp [hname, floppyControllerIndex_smartport]
    · cases hindex : floppyControllerIndex name with
      | error stop' => simp [hname, hindex]
      | ok controller =>
        simp only [hname, if_false, hindex, Option.some.injEq, Prod.mk.injEq]
        constructor
        · intro h
          split at h <;> cases h
        · rintro ⟨name', drive', ⟨rfl, rfl⟩, h⟩
          rw [hindex] at h
          cases h

theorem diskMount_of_numbered {es : List Entry} (h : Numbered es) {e : Entry} (he : e ∈ es) :
    diskMount fs baseDir b e = .ok (request fs baseDir b e) := by
  rw [request]
  cases hmount : diskMount fs baseDir b e with
  | ok m => rfl
  | error stop =>
    obtain ⟨name, drive, hkey, hindex⟩ := diskMount_error.mp hmount
    cases floppyControllerIndex_error hindex
    exact absurd hindex (h e he name drive hkey)

theorem mountDisks_eq {es : List Entry} (h : Numbered es) :
    mountDisks fs baseDir b es = .ok (build DiskMount.target (requests fs baseDir b es)) := by
  induction es using List.reverseRecOn with
  | nil => rfl
  | append_singleton es e ih =>
    have hstep : mountDisks fs baseDir b (es ++ [e]) =
        mountDisk fs baseDir b (build DiskMount.target (requests fs baseDir b es)) e := by
      rw [mountDisks, List.foldlM_append, ← mountDisks, ih fun d hd => h d (List.mem_append_left _ hd)]
      show List.foldlM (mountDisk fs baseDir b) _ [e] = _
      rw [List.foldlM_cons]
      cases mountDisk fs baseDir b (build DiskMount.target (requests fs baseDir b es)) e <;> rfl
    have hreqs : requests fs baseDir b (es ++ [e]) =
        requests fs baseDir b es ++ [e].filterMap (request fs baseDir b) := List.filterMap_append
    rw [hstep, mountDisk, diskMount_of_numbered h (List.mem_append_right _ List.mem_cons_self), hreqs]
    cases hreq : request fs baseDir b e with
    | none => rw [List.filterMap_cons_none hreq, List.filterMap_nil, List.append_nil]
    | some m =>
      rw [List.filterMap_cons_some hreq, List.filterMap_nil, build_concat]
      rfl

theorem mountDisks_threw {es : List Entry} (h : ¬ Numbered es) : mountDisks fs baseDir b es = .error .threw := by
  have hrun : ∀ (es : List Entry) (mounts : List DiskMount), ¬ Numbered es →
      es.foldlM (mountDisk fs baseDir b) mounts = .error .threw := by
    intro es
    induction es with
    | nil => exact fun _ hnot => absurd (fun e he => by cases he) hnot
    | cons e es ih =>
      intro mounts hnot
      rw [List.foldlM_cons]
      cases hmount : diskMount fs baseDir b e with
      | error stop =>
        obtain ⟨name, drive, -, hindex⟩ := diskMount_error.mp hmount
        cases floppyControllerIndex_error hindex
        rw [mountDisk, hmount]
        rfl
      | ok m =>
        have hrest : ¬ Numbered es := by
          intro hnum
          refine hnot fun d hd name drive hkey hindex => ?_
          rcases List.mem_cons.mp hd with rfl | hd
          · rw [diskMount_error.mpr ⟨name, drive, hkey, hindex⟩] at hmount
            cases hmount
          · exact hnum d hd name drive hkey hindex
        rw [mountDisk, hmount]
        cases m with
        | none => exact ih mounts hrest
        | some m => exact ih (upsertMount mounts m) hrest
  exact hrun es [] h

theorem floppySlot_lt (controller : Nat) : floppySlot b controller < numSlots := by
  have hdefault : defaultFloppySlot b.header.platform = 6 := by rw [defaultFloppySlot, ite_self]
  simp only [floppySlot, hdefault]
  split
  · split
    next found _ => exact found.isLt
    next => decide
  · split <;> decide

theorem slot_lt_of_request {e : Entry} {m : DiskMount} (h : request fs baseDir b e = some m) :
    m.slot < numSlots := by
  rw [request, diskMount] at h
  split at h
  next m' hm =>
      subst h
      split at hm
      · cases hm
        exact Fin.isLt _
      · split at hm
        · cases hm
        · split at hm
          · cases hm
          · split at hm
            · cases hm
            · split at hm <;> cases hm
              exact floppySlot_lt _
  next => cases h

end Disks

/-- A mount that `validate_storage` takes. -/
def DiskMount.Fit (m : DiskMount) : Prop := m.drive < 6 ∧ m.filename ≠ []

theorem validateMounts_ne_threw (seen : List (Nat × Nat)) (ms : List DiskMount) :
    validateMounts seen ms ≠ .error .threw := by
  induction ms generalizing seen with
  | nil => exact fun h => by cases h
  | cons m ms ih =>
    rw [validateMounts]
    split
    · exact fun h => by cases h
    · split
      · exact fun h => by cases h
      · split
        · exact fun h => by cases h
        · split
          · exact fun h => by cases h
          · exact ih _

theorem validateMounts_ok {ms : List DiskMount} {seen : List (Nat × Nat)} (hslots : ∀ m ∈ ms, m.slot < numSlots)
    (hnodup : (ms.map DiskMount.target).Nodup) (hseen : ∀ m ∈ ms, m.target ∉ seen) :
    validateMounts seen ms = .ok () ↔ ∀ m ∈ ms, m.Fit := by
  induction ms generalizing seen with
  | nil => exact ⟨fun _ m hm => (by cases hm), fun _ => rfl⟩
  | cons m ms ih =>
    rw [List.map_cons, List.nodup_cons] at hnodup
    have hnew : ∀ d ∈ ms, d.target ∉ m.target :: seen := by
      intro d hd hmem
      rcases List.mem_cons.mp hmem with heq | hmem
      · exact hnodup.1 (heq ▸ List.mem_map_of_mem hd)
      · exact hseen d (List.mem_cons_of_mem _ hd) hmem
    have hrest := ih (fun d hd => hslots d (List.mem_cons_of_mem _ hd)) hnodup.2 hnew
    have hslot : ¬ numSlots ≤ m.slot := Nat.not_le_of_lt (hslots m List.mem_cons_self)
    rw [validateMounts, if_neg hslot, List.forall_mem_cons, DiskMount.Fit]
    by_cases hdrive : m.drive < 6
    · rw [if_neg (by omega), if_neg (hseen m List.mem_cons_self)]
      by_cases hfile : m.filename = []
      · rw [if_pos hfile]
        exact ⟨fun h => (by cases h), fun h => absurd hfile h.1.2⟩
      · rw [if_neg hfile, hrest]
        exact ⟨fun h => ⟨⟨hdrive, hfile⟩, h⟩, fun h => h.2⟩
    · rw [if_pos (by omega)]
      exact ⟨fun h => (by cases h), fun h => absurd h.1.1 hdrive⟩

def SameLoad : Except Stop Loaded → Except Stop Loaded → Prop
  | .ok c, .ok c' =>
    c.board.header.platform = c'.board.header.platform ∧ c.board.header.clockSet = c'.board.header.clockSet ∧
      c.board.header.scanner = c'.board.header.scanner ∧ c.board.slots = c'.board.slots ∧
      ∀ slot drive, c.mounted slot drive = c'.mounted slot drive
  | .error (.failed _), .error (.failed _) => True
  | .error .threw, .error .threw => True
  | _, _ => False

theorem SameLoad.refl (r : Except Stop Loaded) : SameLoad r r := by
  match r with
  | .ok c => exact ⟨rfl, rfl, rfl, rfl, fun _ _ => rfl⟩
  | .error (.failed _) => trivial
  | .error .threw => trivial

theorem SameLoad.mounted {r r' : Except Stop Loaded} (h : SameLoad r r') (slot drive : Nat) :
    r.toOption.map (fun c => c.mounted slot drive) = r'.toOption.map (fun c => c.mounted slot drive) := by
  match r, r', h with
  | .ok _, .ok _, h => exact congrArg some (h.2.2.2.2 slot drive)
  | .error (.failed _), .error (.failed _), _ => rfl
  | .error .threw, .error .threw, _ => rfl

def OrderFree (fs : Filesystem) (path : Text) (lines : List Text) : Prop :=
  ∀ lines' es es', lines.Perm lines' → es.Perm (settingsMap lines) → es'.Perm (settingsMap lines') →
    SameLoad (loadEntries fs path es) (loadEntries fs path es')

/-- Every drive that a disk is asked for is one that storage has, and some key has an
image for it. -/
def Fillable (ms : List DiskMount) : Prop :=
  ∀ m ∈ ms, m.drive < 6 ∧ ∃ m' ∈ ms, m'.target = m.target ∧ m'.filename ≠ []

structure Mountable (fs : Filesystem) (baseDir : Text) (b : Board) (es : List Entry) : Prop where
  numbered : Numbered es
  cards : validateCards b.header.platform b.slots = .ok ()
  drives : Fillable (requests fs baseDir b es)

def OneImage (fs : Filesystem) (baseDir : Text) (b : Board) (es : List Entry) : Prop :=
  Agreeing DiskMount.target (requests fs baseDir b es)

theorem fillable_of_fit {ms : List DiskMount} (h : ∀ m ∈ build DiskMount.target ms, m.Fit) : Fillable ms := by
  intro m hm
  obtain ⟨m', hfind⟩ := Option.isSome_iff_exists.mp (find_build_isSome DiskMount.target hm)
  obtain ⟨hm', htarget⟩ := mem_of_find hfind
  have hdrive : m'.drive = m.drive := congrArg Prod.snd htarget
  exact ⟨hdrive ▸ (h m' hm').1, m', mem_of_mem_build hm', htarget, (h m' hm').2⟩

section Load

variable {fs : Filesystem} {path : Text} {b : Board} {es es' : List Entry}

theorem requests_perm {baseDir : Text} (hperm : es.Perm es') :
    (requests fs baseDir b es).Perm (requests fs baseDir b es') :=
  hperm.filterMap _

theorem Mountable.perm {baseDir : Text} (h : Mountable fs baseDir b es) (hperm : es.Perm es') :
    Mountable fs baseDir b es' where
  numbered := h.numbered.perm hperm
  cards := h.cards
  drives := by
    intro m hm
    obtain ⟨hdrive, m', hm', hfile⟩ := h.drives m ((requests_perm hperm).mem_iff.mpr hm)
    exact ⟨hdrive, m', (requests_perm hperm).mem_iff.mp hm', hfile⟩

theorem validateStorage_build {baseDir : Text} :
    validateStorage (build DiskMount.target (requests fs baseDir b es)) = .ok () ↔
      ∀ m ∈ build DiskMount.target (requests fs baseDir b es), m.Fit := by
  refine validateMounts_ok (fun m hm => ?_) (nodup_build _) fun m hm => List.not_mem_nil
  obtain ⟨e, -, hreq⟩ := List.mem_filterMap.mp (mem_of_mem_build hm)
  exact slot_lt_of_request hreq

variable (hboard : board fs path es = .ok b)

include hboard

theorem loadEntries_threw (hnum : ¬ Numbered es) : loadEntries fs path es = .error .threw := by
  rw [loadEntries, hboard]
  show (mountDisks fs (fs.parentPath path) b es >>= _) = _
  rw [mountDisks_threw hnum]
  rfl

theorem loadEntries_numbered (hnum : Numbered es) :
    loadEntries fs path es = (do
      validateCards b.header.platform b.slots
      validateStorage (build DiskMount.target (requests fs (fs.parentPath path) b es))
      return ⟨b, build DiskMount.target (requests fs (fs.parentPath path) b es)⟩) := by
  rw [loadEntries, hboard]
  show (mountDisks fs (fs.parentPath path) b es >>= _) = _
  rw [mountDisks_eq hnum]
  rfl

theorem loadEntries_ok (hnum : Numbered es) (hcards : validateCards b.header.platform b.slots = .ok ())
    (hfit : ∀ m ∈ build DiskMount.target (requests fs (fs.parentPath path) b es), m.Fit) :
    loadEntries fs path es = .ok ⟨b, build DiskMount.target (requests fs (fs.parentPath path) b es)⟩ := by
  rw [loadEntries_numbered hboard hnum, hcards]
  show (validateStorage _ >>= _) = _
  rw [validateStorage_build.mpr hfit]
  rfl

theorem loadEntries_eq_ok {c : Loaded} (h : loadEntries fs path es = .ok c) :
    Mountable fs (fs.parentPath path) b es ∧ c = ⟨b, build DiskMount.target (requests fs (fs.parentPath path) b es)⟩ := by
  by_cases hnum : Numbered es
  · rw [loadEntries_numbered hboard hnum] at h
    cases hcards : validateCards b.header.platform b.slots with
    | error stop => rw [hcards] at h; cases h
    | ok u =>
      cases u
      rw [hcards] at h
      cases hstorage : validateStorage (build DiskMount.target (requests fs (fs.parentPath path) b es)) with
      | error stop =>
        change (validateStorage _ >>= _) = _ at h
        rw [hstorage] at h
        cases h
      | ok u =>
        cases u
        change (validateStorage _ >>= _) = _ at h
        rw [hstorage] at h
        cases h
        exact ⟨⟨hnum, hcards, fillable_of_fit (validateStorage_build.mp hstorage)⟩, rfl⟩
  · rw [loadEntries_threw hboard hnum] at h
    cases h

theorem loadEntries_failed (hnum : Numbered es) (hcards : validateCards b.header.platform b.slots = .ok ())
    (hfit : ¬ ∀ m ∈ build DiskMount.target (requests fs (fs.parentPath path) b es), m.Fit) :
    ∃ message, loadEntries fs path es = .error (.failed message) := by
  rw [loadEntries_numbered hboard hnum, hcards]
  cases hstorage : validateStorage (build DiskMount.target (requests fs (fs.parentPath path) b es)) with
  | ok u => exact absurd (validateStorage_build.mp hstorage) hfit
  | error stop =>
    cases stop with
    | failed message =>
      exact ⟨message, rfl⟩
    | threw => exact absurd hstorage (validateMounts_ne_threw _ _)

variable (hboard' : board fs path es' = .ok b) (hperm : es.Perm es')

include hboard' hperm

theorem sameLoad_of_not_mountable (h : ¬ Mountable fs (fs.parentPath path) b es) :
    SameLoad (loadEntries fs path es) (loadEntries fs path es') := by
  by_cases hnum : Numbered es
  · have hnum' := hnum.perm hperm
    cases hcards : validateCards b.header.platform b.slots with
    | error stop =>
      have hstop : loadEntries fs path es = .error stop ∧ loadEntries fs path es' = .error stop := by
        rw [loadEntries_numbered hboard hnum, loadEntries_numbered hboard' hnum', hcards]
        exact ⟨rfl, rfl⟩
      rw [hstop.1, hstop.2]
      exact SameLoad.refl _
    | ok u =>
      cases u
      have hfit : ¬ ∀ m ∈ build DiskMount.target (requests fs (fs.parentPath path) b es), m.Fit :=
        fun hfit => h ⟨hnum, hcards, fillable_of_fit hfit⟩
      have hfit' : ¬ ∀ m ∈ build DiskMount.target (requests fs (fs.parentPath path) b es'), m.Fit :=
        fun hfit => h (Mountable.perm ⟨hnum', hcards, fillable_of_fit hfit⟩ hperm.symm)
      obtain ⟨message, hload⟩ := loadEntries_failed hboard hnum hcards hfit
      obtain ⟨message', hload'⟩ := loadEntries_failed hboard' hnum' hcards hfit'
      rw [hload, hload']
      trivial
  · have hnum' : ¬ Numbered es' := fun hnum' => hnum (hnum'.perm hperm.symm)
    rw [loadEntries_threw hboard hnum, loadEntries_threw hboard' hnum']
    trivial

theorem sameLoad_of_oneImage (h : Mountable fs (fs.parentPath path) b es)
    (hone : OneImage fs (fs.parentPath path) b es) :
    SameLoad (loadEntries fs path es) (loadEntries fs path es') := by
  have hreqs : (requests fs (fs.parentPath path) b es).Perm (requests fs (fs.parentPath path) b es') :=
    requests_perm hperm
  have hfit : ∀ m ∈ build DiskMount.target (requests fs (fs.parentPath path) b es), m.Fit := by
    intro m hm
    obtain ⟨hdrive, m', hm', htarget, hfile⟩ := h.drives m (mem_of_mem_build hm)
    cases hone m' hm' m (mem_of_mem_build hm) htarget
    exact ⟨hdrive, hfile⟩
  have hbuild := hone.build_perm hreqs
  have hfit' : ∀ m ∈ build DiskMount.target (requests fs (fs.parentPath path) b es'), m.Fit :=
    fun m hm => hfit m (hbuild.mem_iff.mpr hm)
  rw [loadEntries_ok hboard h.numbered h.cards hfit,
    loadEntries_ok hboard' (h.numbered.perm hperm) h.cards hfit']
  refine ⟨rfl, rfl, rfl, rfl, fun slot drive => ?_⟩
  rw [Loaded.mounted, Loaded.mounted, find_perm (nodup_build _) hbuild]

end Load

theorem exists_order {fs : Filesystem} {baseDir : Text} {b : Board} {es : List Entry} {ms : List DiskMount}
    (h : (requests fs baseDir b es).Perm ms) : ∃ es', es.Perm es' ∧ requests fs baseDir b es' = ms :=
  exists_perm_filterMap _ h

theorem oneImage_of_same {fs : Filesystem} {path : Text} {b : Board} {es : List Entry}
    (hboard : ∀ es', es.Perm es' → board fs path es' = .ok b) (h : Mountable fs (fs.parentPath path) b es)
    (hsame : ∀ es₁ es₂, es.Perm es₁ → es.Perm es₂ → SameLoad (loadEntries fs path es₁) (loadEntries fs path es₂)) :
    OneImage fs (fs.parentPath path) b es := by
  have hlast : ∀ m ∈ requests fs (fs.parentPath path) b es, ∀ m' ∈ requests fs (fs.parentPath path) b es,
      m.target = m'.target → m.filename ≠ [] → m = m' := by
    intro m hm m' hm' htarget hfile
    have hkeys : ∀ x ∈ requests fs (fs.parentPath path) b es, ∃ y ∈ requests fs (fs.parentPath path) b es,
        y.target = x.target ∧ decide (y.filename ≠ []) = true := by
      intro x hx
      obtain ⟨-, y, hy, hxy, hyfile⟩ := h.drives x hx
      exact ⟨y, hy, hxy, decide_eq_true hyfile⟩
    -- `m` stays and the load succeeds, or `m'` stays
    obtain ⟨ms₁, hms₁, hstays₁, hfiles⟩ :=
      exists_last_fit DiskMount.target (fun x : DiskMount => decide (x.filename ≠ [])) hkeys hm (decide_eq_true hfile)
    obtain ⟨ms₂, hms₂, hstays₂⟩ := exists_last DiskMount.target hm'
    obtain ⟨es₁, hes₁, rfl⟩ := exists_order hms₁
    obtain ⟨es₂, hes₂, rfl⟩ := exists_order hms₂
    have h₁ := h.perm hes₁
    have hfit : ∀ x ∈ build DiskMount.target (requests fs (fs.parentPath path) b es₁), x.Fit :=
      fun x hx => ⟨(h₁.drives x (mem_of_mem_build hx)).1, of_decide_eq_true (hfiles x hx)⟩
    have hload := hsame es₁ es₂ hes₁ hes₂
    rw [loadEntries_ok (hboard es₁ hes₁) h₁.numbered h₁.cards hfit] at hload
    cases hload₂ : loadEntries fs path es₂ with
    | error stop =>
      rw [hload₂] at hload
      cases hload
    | ok c =>
      obtain ⟨-, rfl⟩ := loadEntries_eq_ok (hboard es₂ hes₂) hload₂
      rw [hload₂] at hload
      have hfind₁ := (mem_iff_find (nodup_build _) m).mp hstays₁
      have hfind₂ := (mem_iff_find (nodup_build _) m').mp hstays₂
      rw [← htarget] at hfind₂
      have hmounted := hload.2.2.2.2 m.slot m.drive
      rw [Loaded.mounted, Loaded.mounted, ← DiskMount.target, hfind₁, hfind₂] at hmounted
      have hname : m.filename = m'.filename := Option.some.inj hmounted
      cases m
      cases m'
      cases htarget
      cases hname
      rfl
  intro m hm m' hm' htarget
  obtain ⟨-, m'', hm'', hsome, hfile⟩ := h.drives m hm
  rw [← hlast m'' hm'' m hm hsome hfile, ← hlast m'' hm'' m' hm' (hsome.trans htarget) hfile]

/-- The order of the lines and of the map is out of the result exactly where disk keys for
one slot and drive have one image, or the file is refused in any order. -/
theorem orderFree_iff (fs : Filesystem) (path : Text) (lines : List Text) (h : DistinctKeys lines) :
    OrderFree fs path lines ↔
      ∀ b, board fs path (settingsMap lines) = .ok b →
        Mountable fs (fs.parentPath path) b (settingsMap lines) →
        OneImage fs (fs.parentPath path) b (settingsMap lines) := by
  have hkeys : ((settingsMap lines).map Prod.fst).Nodup := nodup_build _
  constructor
  · intro hfree b hboard hmount
    refine oneImage_of_same (fun es hes => ?_) hmount fun es₁ es₂ hes₁ hes₂ => ?_
    · rw [← board_perm fs path hkeys hes, hboard]
    · exact hfree lines es₁ es₂ (.refl _) hes₁.symm hes₂.symm
  · intro hone lines' es es' hlines hes hes'
    have hentries : (settingsMap lines).Perm (settingsMap lines') := by
      have h' : DistinctKeys lines' := ((hlines.filterMap _).map Prod.fst).nodup_iff.mp h
      rw [settingsMap_of_distinct h, settingsMap_of_distinct h']
      exact hlines.filterMap _
    have hperm : es.Perm es' := hes.trans (hentries.trans hes'.symm)
    have hboards := board_perm fs path ((hes.map Prod.fst).nodup_iff.mpr hkeys) hperm
    cases hboard : board fs path es with
    | error stop =>
      have hload : loadEntries fs path es = .error stop := by rw [loadEntries, hboard]; rfl
      have hload' : loadEntries fs path es' = .error stop := by rw [loadEntries, ← hboards, hboard]; rfl
      rw [hload, hload']
      exact SameLoad.refl _
    | ok b =>
      have hboard' : board fs path es' = .ok b := hboards ▸ hboard
      by_cases hmount : Mountable fs (fs.parentPath path) b es
      · refine sameLoad_of_oneImage hboard hboard' hperm hmount ?_
        have hmap : board fs path (settingsMap lines) = .ok b := by
          rw [board_perm fs path hkeys hes.symm, hboard]
        exact (hone b hmap (hmount.perm hes)).perm (requests_perm hes.symm)
      · exact sameLoad_of_not_mountable hboard hboard' hperm hmount

def plainNames : Filesystem where
  filename path := (path.reverse.takeWhile (· ≠ chr '/')).reverse
  parentPath path := ((path.reverse.dropWhile (· ≠ chr '/')).drop 1).reverse
  isAbsolute path := path.head? = some (chr '/')
  append dir file := dir ++ ascii "/" ++ file

def twoDisks : List Text := [ascii "floppy.disk1 a.dsk", ascii "smartport.disk1 b.po"]

theorem orderFree_iff_twoDisks : OrderFree plainNames (ascii "Zork Settings.txt") twoDisks := by
  refine (orderFree_iff plainNames (ascii "Zork Settings.txt") twoDisks (by decide +kernel)).mpr ?_
  intro b hboard _
  have hreqs : (board plainNames (ascii "Zork Settings.txt") (settingsMap twoDisks)).toOption.map
      (fun b => requests plainNames [] b (settingsMap twoDisks)) =
        some [⟨6, 0, ascii "a.dsk"⟩, ⟨7, 0, ascii "b.po"⟩] := by decide +kernel
  rw [hboard] at hreqs
  have hlist : requests plainNames (plainNames.parentPath (ascii "Zork Settings.txt")) b (settingsMap twoDisks) =
      [⟨6, 0, ascii "a.dsk"⟩, ⟨7, 0, ascii "b.po"⟩] := Option.some.inj hreqs
  rw [OneImage, hlist, Agreeing]
  decide

def twoNames : List Text := [ascii "floppy.disk1 a.dsk", ascii "floppy1.disk1 b.dsk"]

/-- Either disk can be the one that is mounted. -/
theorem two_names_differ :
    DistinctKeys twoNames ∧ ¬ OrderFree plainNames (ascii "Zork Settings.txt") twoNames := by
  refine ⟨by decide +kernel, fun h => ?_⟩
  have hsame := (h twoNames (settingsMap twoNames) (settingsMap twoNames).reverse (.refl _) (.refl _)
    (List.reverse_perm _)).mounted 6 0
  have hfirst : (loadEntries plainNames (ascii "Zork Settings.txt") (settingsMap twoNames)).toOption.map
      (fun c => c.mounted 6 0) = some (some (ascii "b.dsk")) := by decide +kernel
  have hsecond : (loadEntries plainNames (ascii "Zork Settings.txt") (settingsMap twoNames).reverse).toOption.map
      (fun c => c.mounted 6 0) = some (some (ascii "a.dsk")) := by decide +kernel
  rw [hfirst, hsecond] at hsame
  exact absurd hsame (by decide)

end GSSquared.Config
