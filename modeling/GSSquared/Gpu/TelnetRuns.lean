/-
What the loop over the bytes of a connection makes of the grammar.
-/
import GSSquared.Gpu.Telnet

set_option linter.all false

namespace GSSquared.Gpu

open Bits

namespace Telnet

def Element.kept : Element → Option Byte
  | .plain b => some b
  | _ => none

def Answers (request : Byte × Byte) (message : List Byte) : Prop :=
  (request.1 = DO_ ∧ (message = [IAC, WILL, request.2] ∨ message = [IAC, WONT, request.2])) ∨
    (request.1 = WILL ∧ (message = [IAC, DO_, request.2] ∨ message = [IAC, DONT, request.2]))

def isAnswer : List Byte → Bool
  | [a, verb, _] => a == IAC && decide (isVerb verb)
  | _ => false

def Session.Decoded (elements : List Element) (s : Session) : Prop :=
  s.handed = elements.filterMap Element.data ∧
    List.Forall₂ Answers (elements.filterMap Element.request) (s.sent.filter isAnswer)

def stateOf : Rest → IacState
  | .nothing => .normal
  | .iac => .iac
  | .verb _ => .verb
  | .sb => .sbOption
  | .body _ _ => .sb
  | .bodyIac _ _ => .sbIac

structure Tracks (s : Session) (elements : List Element) (rest : Rest) : Prop where
  state : s.iacState = stateOf rest
  verb : ∀ v, rest = .verb v → s.iacVerb = v
  parser : ∃ vt, s.card.parser = some vt
  connected : s.card.telnetConnected = true
  handed : s.handed = elements.filterMap Element.kept
  answers : List.Forall₂ Answers (elements.filterMap Element.request) (s.sent.filter isAnswer)

variable {s : Session} {elements : List Element} {rest : Rest}

theorem forward_connection (cmd : Term.Command) (data : Nat) (c : Card) :
    (c.forward cmd data).parser = c.parser ∧ (c.forward cmd data).telnetConnected = c.telnetConnected := by
  unfold Card.forward Card.queueTermForHw
  split
  · split
    · exact ⟨rfl, rfl⟩
    · exact ⟨rfl, rfl⟩
  · exact ⟨rfl, rfl⟩

theorem callback_connection : ∀ (out : List Emit) (c : Card),
    (out.foldl Card.telnetVt100Callback c).parser = c.parser ∧
      (out.foldl Card.telnetVt100Callback c).telnetConnected = c.telnetConnected := by
  intro out
  induction out with
  | nil => exact fun c => ⟨rfl, rfl⟩
  | cons e out ih =>
    intro c
    obtain ⟨hparser, hconnected⟩ := ih (c.telnetVt100Callback e)
    have hone : (c.telnetVt100Callback e).parser = c.parser ∧
        (c.telnetVt100Callback e).telnetConnected = c.telnetConnected := by
      unfold Card.telnetVt100Callback
      split
      · exact forward_connection _ _ c
      · exact ⟨rfl, rfl⟩
    rw [List.foldl_cons]
    exact ⟨hparser.trans hone.1, hconnected.trans hone.2⟩

theorem feed_connection (b : Byte) (c : Card) :
    (∃ vt, (c.feed b).parser = some vt) ∧ (c.feed b).telnetConnected = c.telnetConnected := by
  obtain ⟨hparser, hconnected⟩ := callback_connection (c.parserOf.process b).out { c with parser := some (c.parserOf.process b) }
  exact ⟨⟨_, hparser⟩, hconnected⟩

theorem filterMap_concat {α β : Type} (f : α → Option β) (l : List α) (a : α) :
    (l ++ [a]).filterMap f = l.filterMap f ++ (f a).toList := by
  rw [List.filterMap_append]
  cases h : f a with
  | none => rw [List.filterMap_cons_none h]; rfl
  | some b => rw [List.filterMap_cons_some h]; rfl

theorem Tracks.quiet {t : Session} {rest' : Rest} (h : Tracks s elements rest) (hstate : t.iacState = stateOf rest')
    (hverb : ∀ v, rest' = .verb v → t.iacVerb = v) (hcard : t.card = s.card) (hhanded : t.handed = s.handed)
    (hsent : t.sent = s.sent) : Tracks t elements rest' where
  state := hstate
  verb := hverb
  parser := hcard ▸ h.parser
  connected := hcard ▸ h.connected
  handed := hhanded.trans h.handed
  answers := by rw [hsent]; exact h.answers

theorem Tracks.leave {t : Session} {e : Element} (h : Tracks s elements rest) (hstate : t.iacState = .normal)
    (hcard : t.card = s.card) (hhanded : t.handed = s.handed) (hkept : e.kept = none) (hrequest : e.request = none)
    (hsent : t.sent.filter isAnswer = s.sent.filter isAnswer) : Tracks t (elements ++ [e]) .nothing where
  state := hstate
  verb v hv := by cases hv
  parser := hcard ▸ h.parser
  connected := hcard ▸ h.connected
  handed := by
    rw [filterMap_concat, hkept, hhanded, h.handed]
    exact (List.append_nil _).symm
  answers := by
    rw [filterMap_concat, hrequest, hsent]
    exact (List.append_nil _).symm ▸ h.answers

theorem answer_sent (s : Session) (opt : Byte) : ∃ messages, (s.answer opt).sent = s.sent ++ messages ∧
    List.Forall₂ Answers (Element.request (.negotiation s.iacVerb opt)).toList (messages.filter isAnswer) := by
  have hasked : s.iacVerb = DO_ ∨ s.iacVerb = WILL →
      Element.request (.negotiation s.iacVerb opt) = some (s.iacVerb, opt) := fun h => if_pos h
  have hnot : ¬ (s.iacVerb = DO_ ∨ s.iacVerb = WILL) → Element.request (.negotiation s.iacVerb opt) = none :=
    fun h => if_neg h
  unfold Session.answer
  by_cases hdo : s.iacVerb = DO_
  · rw [if_pos hdo, hasked (.inl hdo)]
    by_cases htype : opt = optTtype
    · rw [if_pos htype, htype]
      exact ⟨_, rfl, .cons (.inl ⟨hdo, .inl rfl⟩) .nil⟩
    rw [if_neg htype]
    by_cases hsize : opt = optNaws
    · rw [if_pos hsize, hsize]
      exact ⟨_, List.append_assoc _ _ _, .cons (.inl ⟨hdo, .inl rfl⟩) .nil⟩
    · rw [if_neg hsize]
      exact ⟨_, rfl, .cons (.inl ⟨hdo, .inr rfl⟩) .nil⟩
  rw [if_neg hdo]
  by_cases hwill : s.iacVerb = WILL
  · rw [if_pos hwill, hasked (.inr hwill)]
    split
    · exact ⟨_, rfl, .cons (.inr ⟨hwill, .inl rfl⟩) .nil⟩
    · exact ⟨_, rfl, .cons (.inr ⟨hwill, .inr rfl⟩) .nil⟩
  · rw [if_neg hwill, hnot (not_or.mpr ⟨hdo, hwill⟩)]
    exact ⟨[], (List.append_nil _).symm, .nil⟩

theorem answer_rest (s : Session) (opt : Byte) : (s.answer opt).card = s.card ∧ (s.answer opt).handed = s.handed := by
  unfold Session.answer
  repeat' split
  all_goals exact ⟨rfl, rfl⟩

theorem Tracks.negotiated {verb opt : Byte} (h : Tracks s elements (.verb verb)) :
    Tracks ({ s.answer opt with iacState := .normal } : Session) (elements ++ [.negotiation verb opt]) .nothing := by
  obtain ⟨messages, hsent, hanswers⟩ := answer_sent s opt
  obtain ⟨hcard, hhanded⟩ := answer_rest s opt
  have hverb : s.iacVerb = verb := h.verb verb rfl
  rw [hverb] at hanswers
  refine ⟨rfl, fun _ hv => Rest.noConfusion hv, ?_, ?_, ?_, ?_⟩
  · show ∃ vt, (s.answer opt).card.parser = some vt
    rw [hcard]
    exact h.parser
  · show (s.answer opt).card.telnetConnected = true
    rw [hcard]
    exact h.connected
  · rw [filterMap_concat]
    show (s.answer opt).handed = _ ++ []
    rw [hhanded, h.handed, List.append_nil]
  · show List.Forall₂ _ _ ((s.answer opt).sent.filter isAnswer)
    rw [filterMap_concat, hsent, List.filter_append]
    exact List.rel_append h.answers hanswers

theorem Tracks.handedOn {b : Byte} (h : Tracks s elements .nothing) : Tracks (s.hand b) (elements ++ [.plain b]) .nothing := by
  obtain ⟨vt, hparser⟩ := h.parser
  have hhand : s.hand b = { s with card := s.card.feed b, handed := s.handed ++ [b] } := by
    unfold Session.hand
    rw [hparser]
  obtain ⟨hstill, hconnected⟩ := feed_connection b s.card
  rw [hhand]
  refine ⟨h.state, fun _ hv => Rest.noConfusion hv, hstill, hconnected.trans h.connected, ?_, ?_⟩
  · rw [filterMap_concat]
    exact congrArg (· ++ [b]) h.handed
  · rw [filterMap_concat]
    exact (List.append_nil _).symm ▸ h.answers

theorem keep_rest (b : Byte) (s : Session) : (s.keep b).iacState = s.iacState ∧ (s.keep b).card = s.card ∧
    (s.keep b).handed = s.handed ∧ (s.keep b).sent = s.sent := by
  unfold Session.keep
  split
  · exact ⟨rfl, rfl, rfl, rfl⟩
  · exact ⟨rfl, rfl, rfl, rfl⟩

theorem subnegotiated_rest (s : Session) : s.subnegotiated.card = s.card ∧ s.subnegotiated.handed = s.handed ∧
    s.subnegotiated.sent.filter isAnswer = s.sent.filter isAnswer := by
  unfold Session.subnegotiated
  split
  · refine ⟨rfl, rfl, ?_⟩
    show (s.sent ++ [_]).filter isAnswer = _
    rw [List.filter_append]
    exact List.append_nil _
  · exact ⟨rfl, rfl, rfl⟩

theorem Tracks.byte (h : Tracks s elements rest) (b : Byte) :
    Tracks (s.byte b) (push b (elements, rest)).1 (push b (elements, rest)).2 := by
  have hstate := h.state
  unfold Session.byte
  rw [hstate]
  cases rest with
  | nothing =>
    unfold push stateOf
    dsimp only
    by_cases hiac : b = IAC
    · rw [if_pos hiac, if_pos hiac]
      exact h.quiet rfl (fun _ hv => Rest.noConfusion hv) rfl rfl rfl
    · rw [if_neg hiac, if_neg hiac]
      exact h.handedOn
  | iac =>
    unfold push stateOf
    dsimp only
    by_cases hverb : isVerb b
    · have hrange : 0xFB ≤ b.toNat ∧ b.toNat ≤ 0xFE := hverb
      rw [if_pos hverb, if_pos hrange]
      exact h.quiet rfl (fun v hv => by cases hv; rfl) rfl rfl rfl
    have hrange : ¬ (0xFB ≤ b.toNat ∧ b.toNat ≤ 0xFE) := hverb
    rw [if_neg hverb, if_neg hrange]
    by_cases hsb : b = SB
    · rw [if_pos hsb, if_pos hsb]
      exact h.quiet rfl (fun _ hv => Rest.noConfusion hv) rfl rfl rfl
    rw [if_neg hsb, if_neg hsb]
    -- the code makes no difference between these two
    by_cases hiac : b = IAC
    · rw [if_pos hiac]
      exact h.leave rfl rfl rfl rfl rfl rfl
    · rw [if_neg hiac]
      exact h.leave rfl rfl rfl rfl rfl rfl
  | verb verb => exact h.negotiated
  | sb => exact h.quiet rfl (fun _ hv => Rest.noConfusion hv) rfl rfl rfl
  | body option parts =>
    obtain ⟨hsame, hcard, hhanded, hsent⟩ := keep_rest b s
    unfold push stateOf
    dsimp only
    by_cases hiac : b = IAC
    · rw [if_pos hiac, if_pos hiac]
      exact h.quiet rfl (fun _ hv => Rest.noConfusion hv) rfl rfl rfl
    · rw [if_neg hiac, if_neg hiac]
      exact h.quiet (hsame.trans hstate) (fun _ hv => Rest.noConfusion hv) hcard hhanded hsent
  | bodyIac option parts =>
    unfold push stateOf
    dsimp only
    by_cases hse : b = SE
    · obtain ⟨hcard, hhanded, hsent⟩ := subnegotiated_rest s
      rw [if_pos hse, if_pos hse]
      exact h.leave rfl hcard hhanded rfl rfl hsent
    rw [if_neg hse, if_neg hse]
    by_cases hiac : b = IAC
    · obtain ⟨_, hcard, hhanded, hsent⟩ := keep_rest 0xFF s
      rw [if_pos hiac, if_pos hiac]
      exact h.quiet rfl (fun _ hv => Rest.noConfusion hv) hcard hhanded hsent
    · rw [if_neg hiac, if_neg hiac]
      exact h.quiet rfl (fun _ hv => Rest.noConfusion hv) rfl rfl rfl

theorem Tracks.bytes : ∀ {bytes : List Byte} {s : Session} {p : List Element × Rest}, Tracks s p.1 p.2 →
    Tracks (bytes.foldl Session.byte s) (bytes.foldl (fun p b => push b p) p).1
      (bytes.foldl (fun p b => push b p) p).2 := by
  intro bytes
  induction bytes with
  | nil => exact fun h => h
  | cons b bytes ih => exact fun h => ih (h.byte b)

theorem Tracks.reads : ∀ {reads : List (List Byte)} {s : Session} {p : List Element × Rest}, Tracks s p.1 p.2 →
    Tracks ((reads.map Read.got).foldl Session.poll s) (reads.flatten.foldl (fun p b => push b p) p).1
      (reads.flatten.foldl (fun p b => push b p) p).2 := by
  intro reads
  induction reads with
  | nil => exact fun h => h
  | cons bytes reads ih =>
    intro s p h
    have hpoll : s.poll (.got bytes) = bytes.foldl Session.byte s := if_pos h.connected
    rw [List.map_cons, List.foldl_cons, List.flatten_cons, List.foldl_append, hpoll]
    exact ih h.bytes

theorem connected_tracks (c : Card) : Tracks (.connected c) [] .nothing where
  state := rfl
  verb v hv := by cases hv
  parser := ⟨_, rfl⟩
  connected := rfl
  handed := rfl
  answers := .nil

theorem kept_data : ∀ {elements : List Element},
    elements.filterMap Element.kept = elements.filterMap Element.data ↔ .escaped ∉ elements := by
  have hle : ∀ elements : List Element,
      (elements.filterMap Element.kept).length ≤ (elements.filterMap Element.data).length := by
    intro elements
    induction elements with
    | nil => exact Nat.le_refl 0
    | cons e elements ih =>
      cases e with
      | plain b => exact Nat.succ_le_succ ih
      | escaped => exact Nat.le_succ_of_le ih
      | command b => exact ih
      | negotiation verb option => exact ih
      | subnegotiation option parts => exact ih
  intro elements
  induction elements with
  | nil => exact ⟨fun _ => List.not_mem_nil, fun _ => rfl⟩
  | cons e elements ih =>
    have hcons : ∀ e : Element, e ≠ .escaped → (.escaped ∉ e :: elements ↔ .escaped ∉ elements) := by
      intro e he
      rw [List.mem_cons, not_or]
      exact and_iff_right (Ne.symm he)
    cases e with
    | plain b =>
      rw [hcons _ (fun h => by cases h)]
      exact (List.cons_inj_right b).trans ih
    | escaped =>
      refine ⟨fun h => ?_, fun h => absurd List.mem_cons_self h⟩
      have hlength := congrArg List.length h
      have hshort := hle elements
      change (elements.filterMap Element.kept).length = (elements.filterMap Element.data).length + 1 at hlength
      omega
    | command b =>
      rw [hcons _ (fun h => by cases h)]
      exact ih
    | negotiation verb option =>
      rw [hcons _ (fun h => by cases h)]
      exact ih
    | subnegotiation option parts =>
      rw [hcons _ (fun h => by cases h)]
      exact ih

/-- The data of a stream are handed on, and each of its requests is answered once, unless a byte 255 of the data
is escaped. -/
theorem poll_decodes (c : Card) (reads : List (List Byte)) : (∃ elements rest, Stream reads.flatten elements rest) ∧
    ∀ elements rest, Stream reads.flatten elements rest →
      (((reads.map Read.got).foldl Session.poll (.connected c)).Decoded elements ↔ .escaped ∉ elements) := by
  refine ⟨⟨_, _, parse_stream reads.flatten⟩, fun elements rest hstream => ?_⟩
  have htracks := @Tracks.reads reads _ ([], .nothing) (connected_tracks c)
  have hparse : reads.flatten.foldl (fun p b => push b p) ([], .nothing) = (elements, rest) := hstream.unique
  rw [hparse] at htracks
  unfold Session.Decoded
  rw [htracks.handed, kept_data]
  exact and_iff_left htracks.answers

def asking : List (List Byte) := [[0xFF, 0xFD], [24, 0x41]]

theorem asking_decoded : Stream asking.flatten [.negotiation DO_ optTtype, .plain 0x41] .nothing ∧
    ((asking.map Read.got).foldl Session.poll (.connected {})).Decoded [.negotiation DO_ optTtype, .plain 0x41] := by
  have hvalid : ∀ e ∈ [Element.negotiation DO_ optTtype, .plain 0x41], e.Valid := by
    intro e he
    rcases List.mem_cons.mp he with rfl | he
    · exact ⟨by decide, by decide⟩
    · rw [List.mem_singleton.mp he]
      exact (by decide : (0x41 : Byte) ≠ IAC)
  have hstream : Stream asking.flatten [.negotiation DO_ optTtype, .plain 0x41] .nothing := ⟨hvalid, trivial, rfl⟩
  refine ⟨hstream, ((poll_decodes {} asking).2 _ _ hstream).mpr (fun h => ?_)⟩
  rcases List.mem_cons.mp h with h | h
  · cases h
  · cases List.mem_singleton.mp h

/-- Of IAC IAC nothing is handed on. -/
theorem escaped_lost :
    ∃ elements rest, Stream [0xFF, 0xFF] elements rest ∧
      ¬ (((([[0xFF, 0xFF]] : List (List Byte)).map Read.got).foldl Session.poll (.connected {})).Decoded elements) := by
  refine ⟨[.escaped], .nothing, ⟨fun e he => ?_, trivial, rfl⟩, fun h => ?_⟩
  · rw [List.mem_singleton.mp he]
    exact trivial
  · have hnone : (((([[0xFF, 0xFF]] : List (List Byte)).map Read.got).foldl Session.poll (.connected {}))).handed = [] := rfl
    rw [Session.Decoded, hnone] at h
    cases h.1

end Telnet

end GSSquared.Gpu
