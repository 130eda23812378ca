/-
Control strings: OSC and DCS, from ESC to their terminator. The bytes of a string do nothing.
-/
import GSSquared.Gpu.Vt100

set_option linter.all false

namespace GSSquared.Gpu

open Bits

namespace Vt

def feed (bytes : List Byte) (s : Vt) : Vt := bytes.foldl (fun s b => s.process b) s

def outputs : List Byte → Vt → List Emit
  | [], _ => []
  | b :: bytes, s => (s.process b).out ++ outputs bytes (s.process b)

def Payload (b : Byte) : Prop := 0x20 ≤ b.toNat ∧ b ≠ 0x7F ∧ b ≠ 0x9C

inductive Form where
  | oscBel
  | oscSt
  | dcsSt
deriving DecidableEq

namespace Form

def introducer : Form → Byte
  | .dcsSt => 0x50
  | _ => 0x5D

def terminator : Form → List Byte
  | .oscBel => [0x07]
  | _ => [0x1B, 0x5C]

def bytes (form : Form) (payload : List Byte) : List Byte := [0x1B, form.introducer] ++ payload ++ form.terminator

end Form

variable {s : Vt} {b : Byte} {bytes more : List Byte}

@[simp] theorem feed_cons : feed (b :: bytes) s = feed bytes (s.process b) := rfl

theorem feed_append : feed (bytes ++ more) s = feed more (feed bytes s) := List.foldl_append

theorem outputs_append : ∀ {bytes : List Byte} {s : Vt}, outputs (bytes ++ more) s = outputs bytes s ++ outputs more (feed bytes s) := by
  intro bytes
  induction bytes with
  | nil => exact rfl
  | cons b bytes ih =>
    intro s
    rw [List.cons_append, outputs, outputs, ih, List.append_assoc, feed_cons]

theorem outputs_out (bytes : List Byte) (out : List Emit) : outputs bytes { s with out := out } = outputs bytes s := by
  cases bytes with
  | nil => rfl
  | cons b bytes => rfl

/-- Nothing is called, the cursor and the attributes stay, and what follows is shown as if nothing had been. -/
structure Traceless (bytes : List Byte) (s : Vt) : Prop where
  silent : outputs bytes s = []
  cursor : (feed bytes s).cursorCol = s.cursorCol ∧ (feed bytes s).cursorRow = s.cursorRow
  pen : (feed bytes s).fg = s.fg ∧ (feed bytes s).bg = s.bg ∧ (feed bytes s).attr = s.attr
  normal : (feed bytes s).state = .normal
  text : ∀ more, outputs more (feed bytes s) = outputs more s

theorem osc_payload : ∀ {payload : List Byte} {s : Vt}, s.state = .osc → s.out = [] → (∀ b ∈ payload, Payload b) →
    feed payload s = s ∧ outputs payload s = [] := by
  intro payload
  induction payload with
  | nil => exact fun _ _ _ => ⟨rfl, rfl⟩
  | cons b payload ih =>
    intro s hs hout h
    obtain ⟨hlow, -, -⟩ := h b List.mem_cons_self
    have hne : ¬ (b = 0x07 ∨ b = 0x1B) := by
      rintro (rfl | rfl)
      · exact absurd hlow (by decide)
      · exact absurd hlow (by decide)
    have hbyte : s.process b = s := by
      unfold process
      rw [hs]
      dsimp only
      rw [if_neg hne]
      have hsame : ({ s with state := .osc, out := [] } : Vt) = s := by rw [← hs, ← hout]
      exact hsame
    have hrest := ih hs hout (fun c hc => h c (List.mem_cons_of_mem b hc))
    rw [feed_cons, outputs, hbyte, hout]
    exact hrest

theorem osc_opens (hs : s.state = .normal) :
    feed [0x1B, 0x5D] s = { s with state := .osc, out := [] } ∧ outputs [0x1B, 0x5D] s = [] := by
  have hesc : s.process 0x1B = { s with state := .esc, out := [] } := by
    unfold process
    rw [hs]
    rfl
  rw [feed_cons, outputs, hesc]
  exact ⟨rfl, rfl⟩

theorem osc_reads {payload : List Byte} (hs : s.state = .normal) (h : ∀ b ∈ payload, Payload b) :
    feed ([0x1B, 0x5D] ++ payload) s = { s with state := .osc, out := [] } ∧
      outputs ([0x1B, 0x5D] ++ payload) s = [] := by
  obtain ⟨hopen, hsilent⟩ := osc_opens hs
  have hpayload := osc_payload (s := { s with state := .osc, out := [] }) rfl rfl h
  rw [feed_append, outputs_append, hopen, hsilent]
  exact hpayload

theorem bel_traceless {payload : List Byte} (hs : s.state = .normal) (h : ∀ b ∈ payload, Payload b) :
    Traceless (Form.bytes .oscBel payload) s := by
  obtain ⟨hread, hsilent⟩ := osc_reads hs h
  have hend : feed (Form.bytes .oscBel payload) s = { s with out := [] } := by
    show feed (([0x1B, 0x5D] ++ payload) ++ [0x07]) s = _
    rw [feed_append, hread]
    show ({ s with state := VtState.normal, out := [] } : Vt) = _
    rw [← hs]
  have hquiet : outputs (Form.bytes .oscBel payload) s = [] := by
    show outputs (([0x1B, 0x5D] ++ payload) ++ [0x07]) s = _
    rw [outputs_append, hsilent, hread]
    rfl
  refine ⟨hquiet, ?_, ?_, ?_, fun more => ?_⟩
  · rw [hend]
    exact ⟨rfl, rfl⟩
  · rw [hend]
    exact ⟨rfl, rfl, rfl⟩
  · rw [hend]
    exact hs
  · rw [hend]
    exact outputs_out more []

theorem backslash_shown (hs : s.state = .normal) : outputs [0x5C] s ≠ [] := by
  have hprint : s.process 0x5C = ({ s with out := [] } : Vt).printable 0x5C := by
    unfold process
    rw [hs]
    rfl
  have hout : (s.process 0x5C).out ≠ [] := by
    rw [hprint]
    unfold printable
    dsimp only
    split
    · split
      · exact List.cons_ne_nil _ _
      · exact List.cons_ne_nil _ _
    · exact List.cons_ne_nil _ _
  intro hnone
  exact hout (List.append_eq_nil_iff.mp hnone).1

theorem oscSt_shown {payload : List Byte} (hs : s.state = .normal) (h : ∀ b ∈ payload, Payload b) :
    outputs (Form.bytes .oscSt payload) s ≠ [] := by
  obtain ⟨hread, -⟩ := osc_reads hs h
  show outputs (([0x1B, 0x5D] ++ payload) ++ ([0x1B] ++ [0x5C])) s ≠ []
  rw [outputs_append, hread, outputs_append]
  intro hnone
  have hlast := (List.append_eq_nil_iff.mp (List.append_eq_nil_iff.mp hnone).2).2
  exact backslash_shown (s := feed [0x1B] { s with state := .osc, out := [] }) rfl hlast

def InDcs (s : Vt) : Prop := s.state = .dcsEntry ∨ s.state = .dcsPass

theorem process_payload (hs : s.InDcs) (hb : Payload b) : (s.process b).InDcs := by
  have hesc : b ≠ 0x1B := by
    rintro rfl
    exact absurd hb.1 (by decide)
  unfold process
  rcases hs with hs | hs
  · rw [hs]
    unfold dcsEntry
    dsimp only
    split
    · exact .inl rfl
    split
    · refine .inl ?_
      unfold separator endParam
      split
      · rfl
      · rfl
    split
    · exact .inr rfl
    · exact .inl rfl
  · rw [hs]
    unfold dcsPass
    dsimp only
    rw [if_neg hesc, if_neg hb.2.2]
    exact .inr rfl

theorem feed_payload : ∀ {payload : List Byte} {s : Vt}, s.InDcs → (∀ b ∈ payload, Payload b) → (feed payload s).InDcs := by
  intro payload
  induction payload with
  | nil => exact fun hs _ => hs
  | cons b payload ih =>
    intro s hs h
    exact ih (process_payload hs (h b List.mem_cons_self)) (fun c hc => h c (List.mem_cons_of_mem b hc))

theorem InDcs.terminated (hs : s.InDcs) : outputs [0x1B, 0x5C] s ≠ [] ∨ (feed [0x1B, 0x5C] s).state = .dcsPass := by
  rcases hs with hs | hs
  · refine .inl (fun hnone => ?_)
    have hstate : (s.process 0x1B).state = .normal := by
      unfold process
      rw [hs]
      rfl
    exact backslash_shown hstate (List.append_eq_nil_iff.mp hnone).2
  · refine .inr ?_
    have hesc : s.process 0x1B = { s with state := .dcsEntry, out := [] } := by
      unfold process
      rw [hs]
      rfl
    rw [feed_cons, hesc]
    rfl

theorem dcs_opens (hs : s.state = .normal) : (feed [0x1B, 0x50] s).InDcs := by
  have hesc : s.process 0x1B = { s with state := .esc, out := [] } := by
    unfold process
    rw [hs]
    rfl
  rw [feed_cons, hesc]
  exact .inl rfl

theorem dcsSt_trace {payload : List Byte} (hs : s.state = .normal) (h : ∀ b ∈ payload, Payload b) :
    outputs (Form.bytes .dcsSt payload) s ≠ [] ∨ (feed (Form.bytes .dcsSt payload) s).state ≠ .normal := by
  have hread : (feed ([0x1B, 0x50] ++ payload) s).InDcs := by
    rw [feed_append]
    exact feed_payload (dcs_opens hs) h
  show outputs (([0x1B, 0x50] ++ payload) ++ [0x1B, 0x5C]) s ≠ [] ∨
    (feed (([0x1B, 0x50] ++ payload) ++ [0x1B, 0x5C]) s).state ≠ .normal
  rw [outputs_append]
  rcases hread.terminated with hshown | hpass
  · exact .inl (fun hnone => hshown (List.append_eq_nil_iff.mp hnone).2)
  · refine .inr ?_
    rw [← feed_append] at hpass
    rw [hpass]
    exact fun hstate => by cases hstate

/-- A string leaves no trace just in case BEL ends it. -/
theorem traceless_iff {s : Vt} (hs : s.state = .normal) {payload : List Byte} (h : ∀ b ∈ payload, Payload b)
    (form : Form) : Traceless (form.bytes payload) s ↔ form = .oscBel := by
  cases form with
  | oscBel => exact ⟨fun _ => rfl, fun _ => bel_traceless hs h⟩
  | oscSt =>
    refine ⟨fun ht => absurd ht.silent (oscSt_shown hs h), fun hform => by cases hform⟩
  | dcsSt =>
    refine ⟨fun ht => ?_, fun hform => by cases hform⟩
    rcases dcsSt_trace hs h with hshown | hstate
    · exact absurd ht.silent hshown
    · exact absurd ht.normal hstate

def title : List Byte := [0x30, 0x3B, 0x41]

theorem title_payload : ∀ b ∈ title, Payload b := by
  unfold Payload
  decide

theorem title_traceless : Traceless (Form.bytes .oscBel title) {} := (traceless_iff rfl title_payload .oscBel).mpr rfl

/-- Ended by ESC \ it leaves a \ on the screen. -/
theorem title_shown : ¬ Traceless (Form.bytes .oscSt title) {} := by
  intro ht
  have hshown : outputs (Form.bytes .oscSt title) {} = [⟨.putchar, 0x5C, 0, 0, 0⟩] := by decide
  rw [ht.silent] at hshown
  cases hshown

end Vt

end GSSquared.Gpu
