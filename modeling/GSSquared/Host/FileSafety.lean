/-
`file_safety`: writing a file by writing another one and renaming it.
-/
import GSSquared.Lib.Bits

set_option linter.all false

namespace GSSquared.Host

open Bits

abbrev Files := String → Option (List Byte)

def Files.put (fs : Files) (path : String) (file : Option (List Byte)) : Files :=
  fun p => if p = path then file else fs p

theorem Files.put_self (fs : Files) (path : String) (file : Option (List Byte)) :
    fs.put path file path = file := if_pos rfl

theorem Files.put_ne {path p : String} (h : p ≠ path) (fs : Files) (file : Option (List Byte)) :
    fs.put path file p = fs p := if_neg h

/-- What the host answers during one `atomic_patch` or `atomic_write`. -/
structure Host where
  /-- `fopen(path, "rb")` on a file that exists. -/
  opensRead : Bool := true
  /-- `ferror` once the file has been read. -/
  readError : Bool := false
  /-- `fopen(tmp, "wb")`. -/
  opensTmp : Bool := true
  /-- How many bytes `fwrite` takes. -/
  takes : Nat := 0
  /-- `flush_to_disk`. -/
  flushes : Bool := true
  /-- `filesystem::rename`, and the text of its error. -/
  renames : Bool := true
  renameMessage : String := ""
  /-- `filesystem::remove` of the temporary file. -/
  removes : Bool := true

def tmpPath (path : String) : String := path ++ ".gs2tmp"

theorem tmpPath_ne (path : String) : path ≠ tmpPath path := by
  intro h
  have hlen := congrArg String.length h
  rw [tmpPath, String.length_append] at hlen
  have htail : ".gs2tmp".length = 7 := by decide
  omega

/-- `filesystem::remove(tmp)`, whose own failure is ignored. -/
def removeTmp (h : Host) (fs : Files) (path : String) : Files :=
  if h.removes then fs.put (tmpPath path) none else fs

/-- `atomic_write`: `none` for success, else the text of `err`. -/
def atomicWrite (h : Host) (fs : Files) (path : String) (data : List Byte) :
    Option String × Files :=
  let tmp := tmpPath path
  if !h.opensTmp then (some ("cannot create '" ++ tmp ++ "'"), fs)
  else
    let fs := fs.put tmp (some (data.take h.takes))
    let wrote := data.length = 0 ∨ min h.takes data.length = data.length
    if ¬ wrote ∨ ¬ h.flushes then
      (some ((if wrote then "flush" else "write") ++ " failed on '" ++ tmp ++ "'"),
        removeTmp h fs path)
    else if !h.renames then
      (some ("cannot replace '" ++ path ++ "': " ++ h.renameMessage), removeTmp h fs path)
    else (none, (fs.put path (fs tmp)).put tmp none)

/-- `whole` with `data` at `offset`, grown with zeros when it is too short. -/
def patched (whole : List Byte) (offset : Nat) (data : List Byte) : List Byte :=
  let whole := whole ++ List.replicate (offset + data.length - whole.length) 0
  whole.take offset ++ data ++ whole.drop (offset + data.length)

/-- `atomic_patch`.  A file that cannot be opened counts as an empty one. -/
def atomicPatch (h : Host) (fs : Files) (path : String) (offset : Nat) (data : List Byte) :
    Option String × Files :=
  match fs path with
  | some old =>
    if h.opensRead then
      if h.readError then (some ("read error on '" ++ path ++ "'"), fs)
      else atomicWrite h fs path (patched old offset data)
    else atomicWrite h fs path (patched [] offset data)
  | none => atomicWrite h fs path (patched [] offset data)

/-- The host takes a file of `size` bytes and puts it in place. -/
def Host.Writes (h : Host) (size : Nat) : Prop :=
  h.opensTmp = true ∧ size ≤ h.takes ∧ h.flushes = true ∧ h.renames = true

theorem removeTmp_path (h : Host) (fs : Files) (path : String) :
    removeTmp h fs path path = fs path := by
  unfold removeTmp
  split
  · exact Files.put_ne (tmpPath_ne path) fs none
  · rfl

theorem atomicWrite_spec (h : Host) (fs : Files) (path : String) (data : List Byte) :
    (h.Writes data.length → (atomicWrite h fs path data).1 = none ∧
      (atomicWrite h fs path data).2 path = some data) ∧
    (¬ h.Writes data.length → (atomicWrite h fs path data).1.isSome = true ∧
      (atomicWrite h fs path data).2 path = fs path) := by
  have hkeep : ∀ file, (fs.put (tmpPath path) file) path = fs path :=
    fun file => Files.put_ne (tmpPath_ne path) fs file
  have hwrote : (data.length = 0 ∨ min h.takes data.length = data.length) ↔
      data.length ≤ h.takes := by omega
  constructor
  · rintro ⟨htmp, htakes, hflush, hren⟩
    have htake : data.take h.takes = data := List.take_of_length_le htakes
    have hok : ¬ (¬ (data.length = 0 ∨ min h.takes data.length = data.length) ∨
        ¬ h.flushes = true) := by
      rw [hwrote]
      exact fun hc => hc.elim (fun hn => hn htakes) (fun hn => hn hflush)
    simp only [atomicWrite, htmp, Bool.not_true, Bool.false_eq_true, if_false, if_neg hok, hren,
      htake, Files.put_self]
    rw [Files.put_ne (tmpPath_ne path), Files.put_self]
    exact ⟨trivial, rfl⟩
  · intro hnot
    unfold atomicWrite
    by_cases htmp : h.opensTmp = true
    · simp only [htmp, Bool.not_true, Bool.false_eq_true, if_false]
      by_cases hok : ¬ (data.length = 0 ∨ min h.takes data.length = data.length) ∨
          ¬ h.flushes = true
      · rw [if_pos hok]
        exact ⟨rfl, (removeTmp_path h _ path).trans (hkeep _)⟩
      · rw [if_neg hok]
        have hren : h.renames = false := by
          rw [Bool.eq_false_iff]
          intro hren
          rw [not_or, hwrote, Classical.not_not, Classical.not_not] at hok
          exact hnot ⟨htmp, hok.1, hok.2, hren⟩
        rw [hren]
        exact ⟨rfl, (removeTmp_path h _ path).trans (hkeep _)⟩
    · rw [Bool.not_eq_true] at htmp
      rw [htmp]
      exact ⟨rfl, rfl⟩

theorem patched_length (whole : List Byte) (offset : Nat) (data : List Byte) :
    (patched whole offset data).length = max whole.length (offset + data.length) := by
  simp only [patched, List.length_append, List.length_take, List.length_drop, List.length_replicate]
  omega

theorem patched_inside (whole : List Byte) (offset : Nat) (data : List Byte) {i : Nat}
    (hi : i < data.length) : (patched whole offset data)[offset + i]? = data[i]? := by
  have hlen : (List.take offset (whole ++ List.replicate
      (offset + data.length - whole.length) 0)).length = offset := by
    simp only [List.length_take, List.length_append, List.length_replicate]
    omega
  simp only [patched]
  rw [List.append_assoc, List.getElem?_append_right (by omega), hlen, Nat.add_sub_cancel_left,
    List.getElem?_append_left hi]

theorem patched_outside (whole : List Byte) (offset : Nat) (data : List Byte) {i : Nat}
    (hi : (i < offset ∧ i < whole.length) ∨ offset + data.length ≤ i) :
    (patched whole offset data)[i]? = whole[i]? := by
  have hlen : (List.take offset (whole ++ List.replicate
      (offset + data.length - whole.length) 0)).length = offset := by
    simp only [List.length_take, List.length_append, List.length_replicate]
    omega
  simp only [patched]
  rcases hi with ⟨hlt, hin⟩ | hge
  · rw [List.append_assoc, List.getElem?_append_left (by omega), List.getElem?_take_of_lt hlt,
      List.getElem?_append_left hin]
  · rw [List.getElem?_append_right (by rw [List.length_append, hlen]; omega), List.getElem?_drop,
      List.length_append, hlen, show offset + data.length + (i - (offset + data.length)) = i by omega]
    by_cases hin : i < whole.length
    · rw [List.getElem?_append_left hin]
    · rw [List.getElem?_eq_none (by
          simp only [List.length_append, List.length_replicate]; omega),
        List.getElem?_eq_none (by omega)]

/-- `atomic_patch` puts the patched copy of what it read in place, or reports and leaves
the file. -/
theorem atomicPatch_cases (h : Host) (fs : Files) (path : String) (offset : Nat)
    (data : List Byte) :
    ((atomicPatch h fs path offset data).1 = none ∧
      ∃ whole, (atomicPatch h fs path offset data).2 path = some (patched whole offset data)) ∨
    ((atomicPatch h fs path offset data).1.isSome = true ∧
      (atomicPatch h fs path offset data).2 path = fs path) := by
  have hwrite : ∀ whole, ((atomicWrite h fs path (patched whole offset data)).1 = none ∧
        ∃ whole', (atomicWrite h fs path (patched whole offset data)).2 path =
          some (patched whole' offset data)) ∨
      ((atomicWrite h fs path (patched whole offset data)).1.isSome = true ∧
        (atomicWrite h fs path (patched whole offset data)).2 path = fs path) := by
    intro whole
    obtain ⟨hyes, hno⟩ := atomicWrite_spec h fs path (patched whole offset data)
    by_cases hw : h.Writes (patched whole offset data).length
    · exact .inl ⟨(hyes hw).1, whole, (hyes hw).2⟩
    · exact .inr (hno hw)
  unfold atomicPatch
  split
  · split
    · split
      · exact .inr ⟨rfl, rfl⟩
      · exact hwrite _
    · exact hwrite []
  · exact hwrite []

end GSSquared.Host
