/-
The telnet connection of the terminal. The bytes of the server come in reads of any length.
-/
import GSSquared.Gpu.Proto

set_option linter.all false

namespace GSSquared.Gpu

open Bits

namespace Telnet

def IAC : Byte := 0xFF

def WILL : Byte := 0xFB

def WONT : Byte := 0xFC

def DO_ : Byte := 0xFD

def DONT : Byte := 0xFE

def SB : Byte := 0xFA

def SE : Byte := 0xF0

def optEcho : Byte := 1

def optSga : Byte := 3

def optTtype : Byte := 24

def optNaws : Byte := 31

/-- `iac_state`, from 0 on. -/
inductive IacState where
  | normal
  | iac
  | verb
  | sb
  | sbIac
  | sbOption
deriving DecidableEq

inductive Read where
  | got (bytes : List Byte)
  | closed

/-- The state of a connection, what has been handed to `vt100_process`, and what has been sent. -/
structure Session where
  card : Card
  iacState : IacState := .normal
  iacVerb : Byte := 0
  sbOption : Byte := 0
  sbBuf : List Byte := []
  handed : List Byte := []
  sent : List (List Byte) := []

/-- The size of `iac_sb_buf`. -/
def sbBufCap : Nat := 64

namespace Session

/-- Where `a2gspu_emu_telnet_connect` has come to an end. -/
def connected (c : Card) : Session := { card := { c with parser := some {}, telnetConnected := true } }

def write (message : List Byte) (s : Session) : Session := { s with sent := s.sent ++ [message] }

def hand (b : Byte) (s : Session) : Session :=
  match s.card.parser with
  | some _ => { s with card := s.card.feed b, handed := s.handed ++ [b] }
  | none => s

def keep (b : Byte) (s : Session) : Session :=
  if s.sbBuf.length < sbBufCap then { s with sbBuf := s.sbBuf ++ [b] } else s

/-- A subnegotiation is complete: of those only the request for the type of the terminal is answered. -/
def subnegotiated (s : Session) : Session :=
  if s.sbOption = optTtype ∧ s.sbBuf.head? = some 1 then
    s.write ([IAC, SB, optTtype, 0] ++ "ANSI".toList.map (fun c => BitVec.ofNat 8 c.toNat) ++ [IAC, SE])
  else s

def answer (opt : Byte) (s : Session) : Session :=
  if s.iacVerb = DO_ then
    if opt = optTtype then s.write [IAC, WILL, optTtype]
    else if opt = optNaws then (s.write [IAC, WILL, optNaws]).write [IAC, SB, optNaws, 0, 80, 0, 25, IAC, SE]
    else s.write [IAC, WONT, opt]
  else if s.iacVerb = WILL then
    if opt = optEcho ∨ opt = optSga then s.write [IAC, DO_, opt] else s.write [IAC, DONT, opt]
  else s

def byte (s : Session) (b : Byte) : Session :=
  match s.iacState with
  | .normal => if b = IAC then { s with iacState := .iac } else s.hand b
  | .sbOption => { s with sbOption := b, iacState := .sb }
  | .sb => if b = IAC then { s with iacState := .sbIac } else s.keep b
  | .sbIac =>
    if b = SE then { s.subnegotiated with iacState := .normal }
    else if b = IAC then { s.keep 0xFF with iacState := .sb }
    else { s with iacState := .sb }
  | .verb => { s.answer b with iacState := .normal }
  | .iac =>
    if 0xFB ≤ b.toNat ∧ b.toNat ≤ 0xFE then { s with iacVerb := b, iacState := .verb }
    else if b = SB then { s with iacState := .sbOption, sbBuf := [], sbOption := 0 }
    else { s with iacState := .normal }

/-- `a2gspu_emu_telnet_poll`. -/
def poll (s : Session) (read : Read) : Session :=
  if s.card.telnetConnected then
    match read with
    | .got bytes => bytes.foldl byte s
    | .closed =>
      { s with
        card := s.card.telnetDisconnect.showPrompt, iacState := .normal, iacVerb := 0, sbOption := 0, sbBuf := [] }
  else s

end Session

inductive Part where
  | plain (b : Byte)
  | escaped
  | command (b : Byte)

namespace Part

def bytes : Part → List Byte
  | .plain b => [b]
  | .escaped => [IAC, IAC]
  | .command b => [IAC, b]

def Valid : Part → Prop
  | .plain b => b ≠ IAC
  | .escaped => True
  | .command b => b ≠ SE ∧ b ≠ IAC

end Part

def isVerb (b : Byte) : Prop := 0xFB ≤ b.toNat ∧ b.toNat ≤ 0xFE

instance (b : Byte) : Decidable (isVerb b) := inferInstanceAs (Decidable (_ ∧ _))

inductive Element where
  | plain (b : Byte)
  | escaped
  | command (b : Byte)
  | negotiation (verb option : Byte)
  | subnegotiation (option : Byte) (parts : List Part)

namespace Element

def bytes : Element → List Byte
  | .plain b => [b]
  | .escaped => [IAC, IAC]
  | .command b => [IAC, b]
  | .negotiation verb option => [IAC, verb, option]
  | .subnegotiation option parts => [IAC, SB, option] ++ parts.flatMap Part.bytes ++ [IAC, SE]

def Valid : Element → Prop
  | .plain b => b ≠ IAC
  | .escaped => True
  | .command b => ¬ isVerb b ∧ b ≠ SB ∧ b ≠ IAC
  | .negotiation verb _ => isVerb verb
  | .subnegotiation _ parts => ∀ p ∈ parts, p.Valid

def data : Element → Option Byte
  | .plain b => some b
  | .escaped => some IAC
  | _ => none

def request : Element → Option (Byte × Byte)
  | .negotiation verb option => if verb = DO_ ∨ verb = WILL then some (verb, option) else none
  | _ => none

end Element

inductive Rest where
  | nothing
  | iac
  | verb (b : Byte)
  | sb
  | body (option : Byte) (parts : List Part)
  | bodyIac (option : Byte) (parts : List Part)

namespace Rest

def bytes : Rest → List Byte
  | .nothing => []
  | .iac => [IAC]
  | .verb b => [IAC, b]
  | .sb => [IAC, SB]
  | .body option parts => [IAC, SB, option] ++ parts.flatMap Part.bytes
  | .bodyIac option parts => [IAC, SB, option] ++ parts.flatMap Part.bytes ++ [IAC]

def Valid : Rest → Prop
  | .verb b => isVerb b
  | .body _ parts => ∀ p ∈ parts, p.Valid
  | .bodyIac _ parts => ∀ p ∈ parts, p.Valid
  | _ => True

end Rest

structure Stream (stream : List Byte) (elements : List Element) (rest : Rest) : Prop where
  elements_valid : ∀ e ∈ elements, e.Valid
  rest_valid : rest.Valid
  bytes : stream = elements.flatMap Element.bytes ++ rest.bytes

def push (b : Byte) : List Element × Rest → List Element × Rest
  | (elements, .nothing) => if b = IAC then (elements, .iac) else (elements ++ [.plain b], .nothing)
  | (elements, .iac) =>
    if isVerb b then (elements, .verb b)
    else if b = SB then (elements, .sb)
    else if b = IAC then (elements ++ [.escaped], .nothing)
    else (elements ++ [.command b], .nothing)
  | (elements, .verb verb) => (elements ++ [.negotiation verb b], .nothing)
  | (elements, .sb) => (elements, .body b [])
  | (elements, .body option parts) =>
    if b = IAC then (elements, .bodyIac option parts) else (elements, .body option (parts ++ [.plain b]))
  | (elements, .bodyIac option parts) =>
    if b = SE then (elements ++ [.subnegotiation option parts], .nothing)
    else if b = IAC then (elements, .body option (parts ++ [.escaped]))
    else (elements, .body option (parts ++ [.command b]))

def parse (stream : List Byte) : List Element × Rest := stream.foldl (fun p b => push b p) ([], .nothing)

variable {stream : List Byte} {elements : List Element} {rest : Rest}

theorem valid_concat {e : Element} (h : ∀ e ∈ elements, e.Valid) (he : e.Valid) : ∀ d ∈ elements ++ [e], d.Valid := by
  intro d hd
  rcases List.mem_append.mp hd with hd | hd
  · exact h d hd
  · rw [List.mem_singleton.mp hd]
    exact he

theorem part_concat {parts : List Part} {p : Part} (h : ∀ p ∈ parts, p.Valid) (hp : p.Valid) :
    ∀ q ∈ parts ++ [p], q.Valid := by
  intro q hq
  rcases List.mem_append.mp hq with hq | hq
  · exact h q hq
  · rw [List.mem_singleton.mp hq]
    exact hp

theorem Stream.complete (h : Stream stream elements rest) {b : Byte} {e : Element} (he : e.Valid)
    (hbytes : rest.bytes ++ [b] = e.bytes) : Stream (stream ++ [b]) (elements ++ [e]) .nothing where
  elements_valid := valid_concat h.elements_valid he
  rest_valid := trivial
  bytes := by
    rw [h.bytes, List.append_assoc, hbytes, List.flatMap_append, List.flatMap_singleton]
    exact (List.append_nil _).symm

theorem Stream.goOn (h : Stream stream elements rest) {b : Byte} {rest' : Rest} (hrest : rest'.Valid)
    (hbytes : rest.bytes ++ [b] = rest'.bytes) : Stream (stream ++ [b]) elements rest' where
  elements_valid := h.elements_valid
  rest_valid := hrest
  bytes := by rw [h.bytes, List.append_assoc, hbytes]

theorem Stream.push (h : Stream stream elements rest) (b : Byte) :
    Stream (stream ++ [b]) (Telnet.push b (elements, rest)).1 (Telnet.push b (elements, rest)).2 := by
  have hvalid := h.rest_valid
  cases rest with
  | nothing =>
    unfold Telnet.push
    dsimp only
    by_cases hiac : b = IAC
    · rw [if_pos hiac]
      exact h.goOn trivial (by rw [hiac]; rfl)
    · rw [if_neg hiac]
      exact h.complete hiac rfl
  | iac =>
    unfold Telnet.push
    dsimp only
    by_cases hverb : isVerb b
    · rw [if_pos hverb]
      exact h.goOn hverb rfl
    rw [if_neg hverb]
    by_cases hsb : b = SB
    · rw [if_pos hsb]
      exact h.goOn trivial (by rw [hsb]; rfl)
    rw [if_neg hsb]
    by_cases hiac : b = IAC
    · rw [if_pos hiac]
      exact h.complete trivial (by rw [hiac]; rfl)
    · rw [if_neg hiac]
      exact h.complete ⟨hverb, hsb, hiac⟩ rfl
  | verb verb => exact h.complete hvalid rfl
  | sb => exact h.goOn (fun p hp => absurd hp List.not_mem_nil) rfl
  | body option parts =>
    have hpart : ∀ p : Part, p.bytes = [b] → Rest.bytes (.body option parts) ++ [b] = Rest.bytes (.body option (parts ++ [p])) := by
      intro p hp
      show _ ++ [b] = _ ++ (parts ++ [p]).flatMap Part.bytes
      rw [List.flatMap_append, List.flatMap_singleton, hp]
      rfl
    unfold Telnet.push
    dsimp only
    by_cases hiac : b = IAC
    · rw [if_pos hiac]
      exact h.goOn hvalid (by rw [hiac]; rfl)
    · rw [if_neg hiac]
      exact h.goOn (part_concat hvalid hiac) (hpart (.plain b) rfl)
  | bodyIac option parts =>
    have hpart : ∀ p : Part, p.bytes = [IAC, b] →
        Rest.bytes (.bodyIac option parts) ++ [b] = Rest.bytes (.body option (parts ++ [p])) := by
      intro p hp
      show _ ++ [IAC] ++ [b] = _ ++ (parts ++ [p]).flatMap Part.bytes
      rw [List.flatMap_append, List.flatMap_singleton, hp, List.append_assoc, List.append_assoc]
      rfl
    unfold Telnet.push
    dsimp only
    by_cases hse : b = SE
    · rw [if_pos hse]
      apply h.complete (e := .subnegotiation option parts) hvalid
      rw [hse]
      show _ ++ [IAC] ++ [SE] = _ ++ [IAC, SE]
      rw [List.append_assoc]
      rfl
    rw [if_neg hse]
    by_cases hiac : b = IAC
    · rw [if_pos hiac]
      exact h.goOn (part_concat hvalid trivial) (hpart .escaped (by rw [hiac]; rfl))
    · rw [if_neg hiac]
      exact h.goOn (part_concat hvalid ⟨hse, hiac⟩) (hpart (.command b) rfl)

theorem Stream.pushes : ∀ {more stream : List Byte} {p : List Element × Rest}, Stream stream p.1 p.2 →
    Stream (stream ++ more) (more.foldl (fun p b => Telnet.push b p) p).1 (more.foldl (fun p b => Telnet.push b p) p).2 := by
  intro more
  induction more with
  | nil =>
    intro stream p h
    rw [List.append_nil]
    exact h
  | cons b more ih =>
    intro stream p h
    have hone := ih (h.push b)
    rw [List.append_assoc, List.singleton_append] at hone
    exact hone

theorem parse_stream (stream : List Byte) : Stream stream (parse stream).1 (parse stream).2 := by
  have hempty : Stream [] [] .nothing := ⟨fun e he => absurd he List.not_mem_nil, trivial, rfl⟩
  exact Stream.pushes (p := ([], .nothing)) hempty

theorem foldl_parts : ∀ {parts : List Part} (before : List Part) (elements : List Element) (option : Byte),
    (∀ p ∈ parts, p.Valid) →
      (parts.flatMap Part.bytes).foldl (fun p b => push b p) (elements, .body option before) =
        (elements, .body option (before ++ parts)) := by
  intro parts
  induction parts with
  | nil =>
    intro before elements option _
    rw [List.append_nil]
    rfl
  | cons p parts ih =>
    intro before elements option h
    have hp := h p List.mem_cons_self
    have hone : p.bytes.foldl (fun p b => push b p) (elements, .body option before) =
        (elements, .body option (before ++ [p])) := by
      cases p with
      | plain b => exact if_neg hp
      | escaped => rfl
      | command b =>
        show push b (elements, .bodyIac option before) = _
        exact (if_neg hp.1).trans (if_neg hp.2)
    rw [List.flatMap_cons, List.foldl_append, hone, ih _ _ _ (fun q hq => h q (List.mem_cons_of_mem p hq)),
      List.append_assoc, List.singleton_append]

theorem foldl_element {e : Element} (h : e.Valid) (elements : List Element) :
    e.bytes.foldl (fun p b => push b p) (elements, .nothing) = (elements ++ [e], .nothing) := by
  cases e with
  | plain b => exact if_neg h
  | escaped => rfl
  | command b =>
    show push b (elements, .iac) = _
    exact ((if_neg h.1).trans (if_neg h.2.1)).trans (if_neg h.2.2)
  | negotiation verb option =>
    show push option (push verb (elements, .iac)) = _
    have hverb : push verb (elements, .iac) = (elements, .verb verb) := if_pos h
    rw [hverb]
    rfl
  | subnegotiation option parts =>
    show (([IAC, SB, option] ++ parts.flatMap Part.bytes) ++ [IAC, SE]).foldl _ _ = _
    rw [List.foldl_append, List.foldl_append]
    show List.foldl _ (List.foldl _ (elements, Rest.body option []) _) [IAC, SE] = _
    rw [foldl_parts [] elements option h]
    rfl

theorem foldl_elements : ∀ {elements : List Element} (before : List Element), (∀ e ∈ elements, e.Valid) →
    (elements.flatMap Element.bytes).foldl (fun p b => push b p) (before, .nothing) = (before ++ elements, .nothing) := by
  intro elements
  induction elements with
  | nil =>
    intro before _
    rw [List.append_nil]
    rfl
  | cons e elements ih =>
    intro before h
    rw [List.flatMap_cons, List.foldl_append, foldl_element (h e List.mem_cons_self),
      ih _ (fun d hd => h d (List.mem_cons_of_mem e hd)), List.append_assoc, List.singleton_append]

theorem foldl_rest (h : rest.Valid) (elements : List Element) :
    rest.bytes.foldl (fun p b => push b p) (elements, .nothing) = (elements, rest) := by
  cases rest with
  | nothing => rfl
  | iac => rfl
  | verb b =>
    show push b (elements, .iac) = _
    exact if_pos h
  | sb => rfl
  | body option parts =>
    show List.foldl _ _ ([IAC, SB, option] ++ parts.flatMap Part.bytes) = _
    rw [List.foldl_append]
    exact foldl_parts [] elements option h
  | bodyIac option parts =>
    show List.foldl _ _ (([IAC, SB, option] ++ parts.flatMap Part.bytes) ++ [IAC]) = _
    rw [List.foldl_append, List.foldl_append]
    show List.foldl _ (List.foldl _ (elements, Rest.body option []) _) [IAC] = _
    rw [foldl_parts [] elements option h]
    rfl

theorem Stream.unique (h : Stream stream elements rest) : parse stream = (elements, rest) := by
  unfold parse
  rw [h.bytes, List.foldl_append, foldl_elements [] h.elements_valid, List.nil_append, foldl_rest h.rest_valid]

end Telnet

end GSSquared.Gpu
