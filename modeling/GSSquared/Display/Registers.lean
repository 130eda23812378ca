/-
The video registers of the IIgs, and what the two generators have been told of them.
-/
import GSSquared.Lib.Bits
import GSSquared.Display.Generators

set_option linter.all false

namespace GSSquared.Display

open Bits

structure Settings where
  monoMode : Bool := false
  dhgrMonoMode : Bool := false
  charSet : Nat := 0

inductive Vsg where
  | vsgc
  | vsgr
deriving DecidableEq

def Engine.vsg : Engine → Vsg
  | .mono | .ntsc => .vsgc
  | .rgb => .vsgr

/-- `display_state_t` on a IIgs, when it has been made. -/
structure Registers where
  engine : Engine := .ntsc
  vsg : Vsg := .vsgr
  vsgc : Settings := {}
  vsgr : Settings := {}
  newVideo : Byte := 1
  langsel : Byte := 0

namespace Registers

def settings (d : Registers) : Vsg → Settings
  | .vsgc => d.vsgc
  | .vsgr => d.vsgr

def tell (f : Settings → Settings) (d : Registers) : Registers :=
  match d.vsg with
  | .vsgc => { d with vsgc := f d.vsgc }
  | .vsgr => { d with vsgr := f d.vsgr }

def setNewVideo (value : Byte) (d : Registers) : Registers :=
  { d with newVideo := value }.tell (fun g => { g with dhgrMonoMode := value.getLsbD 5 })

/-- `display_write_C029`. -/
def writeC029 (value : Byte) (d : Registers) : Registers := d.setNewVideo value

/-- `display_write_C021`. -/
def writeC021 (value : Byte) (d : Registers) : Registers := d.tell (fun g => { g with monoMode := value.getLsbD 7 })

def setLangsel (value : Byte) (d : Registers) : Registers :=
  let langsel := value &&& 0xF8
  { d with langsel := langsel }.tell (fun g => { g with charSet := ((langsel &&& 0xE0) >>> 5).toNat })

/-- `display_write_C02B`. -/
def writeC02B (value : Byte) (d : Registers) : Registers := d.setLangsel (value &&& 0xF8)

def reset (d : Registers) : Registers := (d.writeC029 (d.newVideo &&& 1)).writeC021 0

/-- `display_A2GSPU_restore`. -/
def restore (langsel : Byte) (d : Registers) : Registers := { d with langsel := langsel }

/-- `display_A2GSPU_new_video_restore`. -/
def newVideoRestore (nv : Byte) (d : Registers) : Registers := d.setNewVideo nv

/-- `update_display_apple2_cycle`, as far as the frame is drawn. -/
def update (d : Registers) : Registers := { d with vsg := d.engine.vsg }

inductive Event where
  | writeC021 (value : Byte)
  | writeC029 (value : Byte)
  | writeC02B (value : Byte)
  | reset
  | restore (langsel : Byte)
  | newVideoRestore (nv : Byte)
  | engine (e : Engine)
  | frame

def step (d : Registers) : Event → Registers
  | .writeC021 value => d.writeC021 value
  | .writeC029 value => d.writeC029 value
  | .writeC02B value => d.writeC02B value
  | .reset => d.reset
  | .restore langsel => d.restore langsel
  | .newVideoRestore nv => d.newVideoRestore nv
  | .engine e => { d with engine := e }
  | .frame => d.update

def run (es : List Event) (d : Registers) : Registers := es.foldl step d

def monoWrite : Event → Option Bool
  | .writeC021 value => some (value.getLsbD 7)
  | .reset => some false
  | _ => none

def dhgrWrite : Event → Option Bool
  | .writeC029 value => some (value.getLsbD 5)
  | .newVideoRestore nv => some (nv.getLsbD 5)
  | .reset => some false
  | _ => none

/-- Bits 7 to 5 of LANGSEL. -/
def langWrite : Event → Option Nat
  | .writeC02B value => some (value >>> 5).toNat
  | _ => none

/-- And those that a restore brings. -/
def langChange : Event → Option Nat
  | .restore langsel => some (langsel >>> 5).toNat
  | e => langWrite e

/-- The value that was written last, and `a` before the first. -/
def last {α : Type} (write : Event → Option α) (a : α) (es : List Event) : α :=
  es.foldl (fun a e => (write e).getD a) a

def lastTold {α : Type} (write : Event → Option α) (vsg : Vsg) : Registers → α → List Event → α
  | _, a, [] => a
  | d, a, e :: es => lastTold write vsg (d.step e) (if d.vsg = vsg then (write e).getD a else a) es

def Follows (es : List Event) : Prop :=
  ∀ pre, pre ++ [.frame] <+: es →
    let d := ({} : Registers).run (pre ++ [.frame])
    (d.settings d.vsg).monoMode = last monoWrite false pre ∧
      (d.settings d.vsg).dhgrMonoMode = d.newVideo.getLsbD 5 ∧
      (d.settings d.vsg).charSet = (d.langsel >>> 5).toNat

def Told (es : List Event) : Prop :=
  ∀ pre, pre ++ [.frame] <+: es →
    let vsg := (({} : Registers).run pre).engine.vsg
    lastTold monoWrite vsg {} false pre = last monoWrite false pre ∧
      lastTold dhgrWrite vsg {} false pre = last dhgrWrite false pre ∧
      lastTold langWrite vsg {} 0 pre = last langChange 0 pre

section

variable {d : Registers} {es : List Event} {α : Type}

theorem settings_tell (f : Settings → Settings) (vsg : Vsg) :
    (d.tell f).settings vsg = if d.vsg = vsg then f (d.settings vsg) else d.settings vsg := by
  unfold tell settings
  cases d.vsg <;> cases vsg <;> rfl

theorem langsel_bits : ∀ value : Byte, ((value &&& 0xF8 &&& 0xF8) &&& 0xE0) >>> 5 = value >>> 5 ∧
    (value &&& 0xF8 &&& 0xF8) >>> 5 = value >>> 5 := by decide +kernel

theorem newVideo_bit : ∀ value : Byte, (value &&& 1).getLsbD 5 = false := by decide +kernel

theorem run_settings (get : Settings → α) (write : Event → Option α) {vsg : Vsg}
    (hstep : ∀ d e, get ((step d e).settings vsg) =
      if d.vsg = vsg then (write e).getD (get (d.settings vsg)) else get (d.settings vsg)) (d : Registers) (es : List Event) :
    get ((d.run es).settings vsg) = lastTold write vsg d (get (d.settings vsg)) es := by
  induction es generalizing d with
  | nil => rfl
  | cons e es ih =>
    show get (((step d e).run es).settings vsg) = _
    rw [ih, hstep]
    rfl

theorem run_register (get : Registers → α) (write : Event → Option α)
    (hstep : ∀ d e, get (step d e) = (write e).getD (get d)) (d : Registers) (es : List Event) :
    get (d.run es) = last write (get d) es := by
  induction es generalizing d with
  | nil => rfl
  | cons e es ih =>
    show get ((step d e).run es) = _
    rw [ih, hstep]
    rfl

/-- What a step tells the current generator. -/
def told : Event → Settings → Settings
  | .writeC021 value, g => { g with monoMode := value.getLsbD 7 }
  | .writeC029 value, g => { g with dhgrMonoMode := value.getLsbD 5 }
  | .writeC02B value, g => { g with charSet := (value >>> 5).toNat }
  | .reset, g => { g with monoMode := false, dhgrMonoMode := false }
  | .newVideoRestore nv, g => { g with dhgrMonoMode := nv.getLsbD 5 }
  | .restore _, g | .engine _, g | .frame, g => g

theorem tell_vsg (f : Settings → Settings) (d : Registers) : (d.tell f).vsg = d.vsg := by
  unfold tell
  split <;> rfl

theorem settings_step (vsg : Vsg) (d : Registers) (e : Event) :
    (step d e).settings vsg = if d.vsg = vsg then told e (d.settings vsg) else d.settings vsg := by
  cases e with
  | writeC021 value => exact settings_tell _ vsg
  | writeC029 value => exact settings_tell _ vsg
  | writeC02B value =>
    have htell := settings_tell (d := { d with langsel := value &&& 0xF8 &&& 0xF8 })
      (fun g => { g with charSet := (((value &&& 0xF8 &&& 0xF8) &&& 0xE0) >>> 5).toNat }) vsg
    rw [(langsel_bits value).1] at htell
    show ((d.writeC02B value).settings vsg) = _
    unfold writeC02B setLangsel
    dsimp only
    rw [(langsel_bits value).1]
    exact htell
  | reset =>
    have hinner := settings_tell (d := { d with newVideo := d.newVideo &&& 1 })
      (fun g => { g with dhgrMonoMode := (d.newVideo &&& 1).getLsbD 5 }) vsg
    show (((d.setNewVideo (d.newVideo &&& 1)).writeC021 0).settings vsg) = _
    unfold writeC021
    rw [settings_tell, setNewVideo, tell_vsg, hinner]
    by_cases hvsg : d.vsg = vsg
    · rw [if_pos hvsg, if_pos hvsg, if_pos hvsg, newVideo_bit]
      rfl
    · rw [if_neg hvsg, if_neg hvsg, if_neg hvsg]
      rfl
  | newVideoRestore nv => exact settings_tell _ vsg
  | restore langsel => exact (ite_self _).symm
  | engine e => exact (ite_self _).symm
  | frame => exact (ite_self _).symm

theorem told_monoMode (e : Event) (g : Settings) : (told e g).monoMode = (monoWrite e).getD g.monoMode := by
  cases e <;> rfl

theorem told_dhgrMonoMode (e : Event) (g : Settings) : (told e g).dhgrMonoMode = (dhgrWrite e).getD g.dhgrMonoMode := by
  cases e <;> rfl

theorem told_charSet (e : Event) (g : Settings) : (told e g).charSet = (langWrite e).getD g.charSet := by
  cases e <;> rfl

def stored (d : Registers) : Event → Byte × Byte
  | .writeC029 value => (value, d.langsel)
  | .newVideoRestore nv => (nv, d.langsel)
  | .reset => (d.newVideo &&& 1, d.langsel)
  | .writeC02B value => (d.newVideo, value &&& 0xF8 &&& 0xF8)
  | .restore langsel => (d.newVideo, langsel)
  | .writeC021 _ | .engine _ | .frame => (d.newVideo, d.langsel)

theorem tell_registers (f : Settings → Settings) (d : Registers) :
    ((d.tell f).newVideo, (d.tell f).langsel) = (d.newVideo, d.langsel) := by
  unfold tell
  split <;> rfl

theorem registers_step (d : Registers) (e : Event) : ((step d e).newVideo, (step d e).langsel) = stored d e := by
  cases e with
  | writeC021 value => exact tell_registers _ d
  | writeC029 value => exact tell_registers _ { d with newVideo := value }
  | writeC02B value => exact tell_registers _ { d with langsel := value &&& 0xF8 &&& 0xF8 }
  | reset => exact (tell_registers _ _).trans (tell_registers _ { d with newVideo := d.newVideo &&& 1 })
  | newVideoRestore nv => exact tell_registers _ { d with newVideo := nv }
  | restore langsel => rfl
  | engine e => rfl
  | frame => rfl

theorem stored_newVideo (d : Registers) (e : Event) :
    (stored d e).1.getLsbD 5 = (dhgrWrite e).getD (d.newVideo.getLsbD 5) := by
  cases e with
  | reset => exact newVideo_bit d.newVideo
  | _ => rfl

theorem stored_langsel (d : Registers) (e : Event) :
    ((stored d e).2 >>> 5).toNat = (langChange e).getD (d.langsel >>> 5).toNat := by
  cases e with
  | writeC02B value => exact congrArg BitVec.toNat (langsel_bits value).2
  | _ => rfl

theorem run_frame (d : Registers) (pre : List Event) : d.run (pre ++ [.frame]) = (d.run pre).update := by
  unfold run
  rw [List.foldl_append]
  rfl

end

/-- The picture follows the registers just where the generator of each frame has been told what came last. -/
theorem follows_iff_told (es : List Event) : Follows es ↔ Told es := by
  have hmono : ∀ vsg pre, ((run pre {}).settings vsg).monoMode = lastTold monoWrite vsg {} false pre := by
    intro vsg pre
    rw [run_settings Settings.monoMode monoWrite]
    · cases vsg <;> rfl
    · intro d e
      rw [settings_step, apply_ite Settings.monoMode, told_monoMode]
  have hdhgr : ∀ vsg pre, ((run pre {}).settings vsg).dhgrMonoMode = lastTold dhgrWrite vsg {} false pre := by
    intro vsg pre
    rw [run_settings Settings.dhgrMonoMode dhgrWrite]
    · cases vsg <;> rfl
    · intro d e
      rw [settings_step, apply_ite Settings.dhgrMonoMode, told_dhgrMonoMode]
  have hchar : ∀ vsg pre, ((run pre {}).settings vsg).charSet = lastTold langWrite vsg {} 0 pre := by
    intro vsg pre
    rw [run_settings Settings.charSet langWrite]
    · cases vsg <;> rfl
    · intro d e
      rw [settings_step, apply_ite Settings.charSet, told_charSet]
  have hnewVideo : ∀ pre, (run pre {}).newVideo.getLsbD 5 = last dhgrWrite false pre := by
    intro pre
    exact run_register (fun d => d.newVideo.getLsbD 5) dhgrWrite
      (fun d e => by rw [← stored_newVideo, ← registers_step]) {} pre
  have hlangsel : ∀ pre, ((run pre {}).langsel >>> 5).toNat = last langChange 0 pre := by
    intro pre
    exact run_register (fun d => (d.langsel >>> 5).toNat) langChange
      (fun d e => by rw [← stored_langsel, ← registers_step]) {} pre
  refine forall_congr' (fun pre => imp_congr_right (fun _ => ?_))
  rw [run_frame]
  show ((run pre {}).settings _).monoMode = _ ∧ ((run pre {}).settings _).dhgrMonoMode = (run pre {}).newVideo.getLsbD 5 ∧
    ((run pre {}).settings _).charSet = ((run pre {}).langsel >>> 5).toNat ↔ _
  rw [hmono, hdhgr, hchar, hnewVideo, hlangsel]
  exact Iff.rfl

def switched : List Event := [.writeC021 0x80, .frame]

theorem switched_unseen : ¬Follows switched := by
  intro h
  have hmono := (h [.writeC021 0x80] (List.prefix_refl _)).1
  exact absurd hmono (by decide)

end Registers

end GSSquared.Display
