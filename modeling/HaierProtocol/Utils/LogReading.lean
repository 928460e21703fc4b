import HaierProtocol.Utils.LogBounds

/-!
# Reading the log

A message of which every byte is printed can be read: behind the header there are two digits for
every byte of the first and of the second block, with a blank in between.
-/

namespace HaierProtocol.Log

open Fallible Writing

variable {p : Platform} {s s' : LogState} {text : List UInt8}

/-! ## Dumps -/

def hexChars (b : UInt8) : List UInt8 := [hexDigit (b / 16), hexDigit (b % 16), blank]

/-- Two digits for every byte, and a blank in between. -/
def hexLine (bytes : List UInt8) : List UInt8 := (bytes.flatMap hexChars).dropLast

def digitValue (c : UInt8) : Option UInt8 :=
  if 0x30 ≤ c ∧ c ≤ 0x39 then some (c - 0x30)
  else if 0x41 ≤ c ∧ c ≤ 0x46 then some (c - 0x37) else none

def readByte (high low : UInt8) : Option UInt8 :=
  (digitValue high).bind fun h => (digitValue low).map fun l => h * 16 + l

/-- The bytes that a dump shows. -/
def readDump : List UInt8 → Option (List UInt8)
  | [] => some []
  | [high, low] => (readByte high low).map ([·])
  | high :: low :: c :: rest =>
    if c = blank then (readByte high low).bind fun b => (readDump rest).map (b :: ·) else none
  | [_] => none

theorem readByte_hexDigit (b : UInt8) :
    readByte (hexDigit (b / 16)) (hexDigit (b % 16)) = some b := by
  have hall : ∀ i : Fin 256, readByte (hexDigit (UInt8.ofNat i.val / 16))
      (hexDigit (UInt8.ofNat i.val % 16)) = some (UInt8.ofNat i.val) := by decide +kernel
  have hb := hall ⟨b.toNat, b.toNat_lt⟩
  rwa [UInt8.ofNat_toNat] at hb

theorem hexLine_cons (b : UInt8) {bytes : List UInt8} (h : bytes ≠ []) :
    hexLine (b :: bytes) = hexChars b ++ hexLine bytes := by
  have hne : bytes.flatMap hexChars ≠ [] := by
    obtain ⟨c, rest, rfl⟩ := List.exists_cons_of_ne_nil h
    exact List.cons_ne_nil _ _
  rw [hexLine, List.flatMap_cons, List.dropLast_append_of_ne_nil hne, hexLine]

theorem readDump_hexLine (bytes : List UInt8) : readDump (hexLine bytes) = some bytes := by
  induction bytes with
  | nil => rfl
  | cons b bytes ih =>
    have hbyte := readByte_hexDigit b
    by_cases hnil : bytes = []
    · subst hnil
      show (readByte _ _).map _ = _
      rw [hbyte]
      rfl
    · rw [hexLine_cons b hnil]
      show readDump (_ :: _ :: blank :: hexLine bytes) = _
      rw [readDump, if_pos rfl, hbyte, ih]
      rfl

theorem hexLine_append {xs ys : List UInt8} (hx : xs ≠ []) (hy : ys ≠ []) :
    hexLine (xs ++ ys) = hexLine xs ++ [blank] ++ hexLine ys := by
  induction xs with
  | nil => exact absurd rfl hx
  | cons x xs ih =>
    by_cases hnil : xs = []
    · subst hnil
      exact hexLine_cons x hy
    · rw [List.cons_append, hexLine_cons x (List.append_ne_nil_of_left_ne_nil hnil _), ih hnil,
        hexLine_cons x hnil, List.append_assoc, List.append_assoc, List.append_assoc]

/-- The bytes of a block. -/
def blockBytes (block : Option (Nat → UInt8)) (size : Nat) : List UInt8 :=
  match block with
  | some bytes => (List.range size).map bytes
  | none => []

theorem hexText_eq (bytes : Nat → UInt8) (i n : Nat) :
    hexText bytes i n = ((List.range' i n).map bytes).flatMap hexChars := by
  induction n generalizing i with
  | zero => rfl
  | succ n ih =>
    rw [hexText, List.range'_succ, List.map_cons, List.flatMap_cons, ih]
    rfl

theorem dump_of_fits {bytes : Nat → UInt8} {space size : Nat} (h : Fits space size) :
    dump bytes space size = hexLine (blockBytes (some bytes) size) := by
  rw [dump, if_pos h, hexText_eq, hexLine, blockBytes, List.range_eq_range']

/-! ## Messages -/

/-- What a handler finds in the buffer that it is given. -/
def textOf (cells : Nat → UInt8) : List UInt8 :=
  ((List.range bufferSize).map cells).takeWhile (· != 0)

theorem map_range_of_holds {cells : Nat → UInt8} (h : Holds cells text) :
    (List.range text.length).map cells = text := by
  refine List.ext_getElem (by rw [List.length_map, List.length_range]) fun i hi hi' => ?_
  rw [List.getElem_map, List.getElem_range]
  exact h i hi'

theorem blockBytes_of_holds {bytes : Nat → UInt8} (h : Holds bytes text) :
    blockBytes (some bytes) text.length = text := map_range_of_holds h

theorem textOf_of_holds {cells : Nat → UInt8} (hlt : text.length < bufferSize) (hzero : 0 ∉ text)
    (h : Holds cells (text ++ [0])) : textOf cells = text := by
  have hall : ∀ c ∈ text, (c != 0) = true := fun c hc =>
    bne_iff_ne.mpr fun heq => hzero (heq ▸ hc)
  obtain ⟨rest, hrest⟩ := Nat.exists_eq_add_of_lt hlt
  have hsize : bufferSize = (text ++ [0]).length + rest := by
    rw [List.length_append, List.length_singleton]
    omega
  rw [textOf, hsize, List.range_add, List.map_append, map_range_of_holds h, List.append_assoc,
    List.takeWhile_append_of_pos hall, List.singleton_append,
    List.takeWhile_cons_of_neg (by decide), List.append_nil]

section Messages

variable {front : List UInt8} {bytes1 : Nat → UInt8} {buffer2 : Option (Nat → UInt8)}
  {size1 size2 : Nat}

theorem length_hexLine_block (bytes : Nat → UInt8) (size : Nat) :
    (hexLine (blockBytes (some bytes) size)).length = 3 * size - 1 := by
  have hfits : Fits (3 * size) size := Nat.le_refl _
  rw [← dump_of_fits hfits, length_dump_of_fits hfits]

theorem block_ne_nil (bytes : Nat → UInt8) {size : Nat} (hsize : 0 < size) :
    blockBytes (some bytes) size ≠ [] := by
  rw [blockBytes, ne_eq, List.map_eq_nil_iff, List.range_eq_nil]
  omega

/-- The second block, behind a first one of which every byte has been printed. -/
theorem run_printSecond (hsize : 0 < size1)
    (h : Front s (front ++ hexLine (blockBytes (some bytes1) size1)))
    (hnul : Holds s.msgBuffer (front ++ hexLine (blockBytes (some bytes1) size1) ++ [0]))
    (hblock : size2 = 0 ∨ buffer2.isSome)
    (hshort : front.length + 3 * (size1 + size2) ≤ bufferSize) :
    let text := front ++ hexLine (blockBytes (some bytes1) size1 ++ blockBytes buffer2 size2)
    ∃ s', (printSecond p buffer2 size2
        (front ++ hexLine (blockBytes (some bytes1) size1)).length).run s =
          some (text.length, s') ∧
      Front s' text ∧ Holds s'.msgBuffer (text ++ [0]) ∧ text.length < bufferSize := by
  intro text
  have hlen : (front ++ hexLine (blockBytes (some bytes1) size1)).length + 1 =
      front.length + 3 * size1 := by
    rw [List.length_append, length_hexLine_block]
    omega
  generalize htext : front ++ hexLine (blockBytes (some bytes1) size1) = before at h hnul hlen ⊢
  rw [printSecond, run_bind_some (run_sub (by omega) s)]
  by_cases hnone : size2 = 0
  · subst hnone
    have hempty : blockBytes buffer2 0 = [] := by cases buffer2 <;> rfl
    have hsame : text = before := by
      show front ++ hexLine (_ ++ _) = before
      rw [hempty, List.append_nil, htext]
    rw [if_neg (by omega), run_pure, hsame]
    exact ⟨s, rfl, h, hnul, by omega⟩
  · obtain ⟨bytes2, rfl⟩ := Option.isSome_iff_exists.mp (hblock.resolve_left hnone)
    have hblank : Front (s.put before.length [blank]) (before ++ [blank]) := by
      refine ⟨h.holds.write rfl _, ?_, h.underflow⟩
      rw [List.mem_append, not_or]
      exact ⟨h.nonzero, by decide⟩
    have hlast : before.length + 1 = (before ++ [blank]).length := by
      rw [List.length_append, List.length_singleton]
    have hfits : Fits (bufferSize - (before ++ [blank]).length) size2 := by
      unfold Fits
      omega
    obtain ⟨s', hrun, hfront, hholds, hlt⟩ :=
      printBuf_front (p := p) bytes2 hblank (by omega) (by omega) (.inl hfits)
    have hsame : text = before ++ [blank] ++
        dump bytes2 (bufferSize - (before ++ [blank]).length) size2 := by
      show front ++ hexLine (_ ++ _) = _
      rw [dump_of_fits hfits, hexLine_append (block_ne_nil bytes1 hsize)
        (block_ne_nil bytes2 (by omega)), ← htext]
      simp only [List.append_assoc]
    rw [if_pos (by omega), run_bind_some (run_store (by omega) blank s),
      run_bind_some (run_sub (by omega) _), hlast, run_bind_some hrun, run_pure, hsame,
      ← List.length_append]
    exact ⟨s', rfl, hfront, hholds, hlt⟩

/-- A call of which every byte is printed. -/
theorem run_logHaierBuffers (p : Platform) {level : HaierLogLevel} (hlevel : level ≠ .levelNone)
    (header : Option CString) (bytes1 : Nat → UInt8) (size1 size2 : Fin p.sizes)
    (buffer2 : Option (Nat → UInt8))
    (hsize : 0 < size1.val) (hblock : size2.val = 0 ∨ buffer2.isSome)
    (hshort : (headerText header).length + 3 * (size1.val + size2.val) ≤ bufferSize)
    (s : LogState) (hunderflow : s.underflow = false) :
    let text := headerText header ++
      hexLine (blockBytes (some bytes1) size1 ++ blockBytes buffer2 size2)
    ∃ s', (logHaierBuffers p true level header (some bytes1) size1 buffer2 size2).run s =
        some (text.length, s') ∧ s'.underflow = false ∧
      s'.handled = some (level, s'.msgBuffer) ∧ textOf s'.msgBuffer = text := by
  intro text
  have hsizes := p.le_sizes
  have hnonempty : (size1.val + size2.val) % p.sizes ≠ 0 := by
    unfold bufferSize at hshort
    rw [Nat.mod_eq_of_lt (by omega)]
    omega
  have hheader : Front (s.put 0 (headerText header)) (headerText header) :=
    ⟨(Holds.nil _).write rfl _, zero_notMem_headerText header, hunderflow⟩
  have hfits : Fits (bufferSize - (headerText header).length) size1.val := by
    unfold Fits
    omega
  obtain ⟨s₁, hfirst, hfront, hnul, hlt⟩ :=
    printBuf_front (p := p) bytes1 hheader (by omega) hsize (.inl hfits)
  rw [dump_of_fits hfits] at hfirst hfront hnul
  obtain ⟨s₂, hsecond, hfront₂, hnul₂, hlt₂⟩ :=
    run_printSecond (p := p) hsize hfront hnul hblock hshort
  refine ⟨{ s₂ with handled := some (level, s₂.msgBuffer) }, ?_, hfront₂.underflow, rfl,
    textOf_of_holds hlt₂ hfront₂.nonzero hnul₂⟩
  rw [logHaierBuffers, if_pos ⟨rfl, hlevel⟩, run_bind_some (run_printHeader header s), printBody,
    if_neg hnonempty, printBlocks, if_pos ⟨rfl, hsize⟩]
  have hroom : (sub p bufferSize (headerText header).length).run (s.put 0 (headerText header)) =
      some (bufferSize - (headerText header).length, s.put 0 (headerText header)) :=
    run_sub (by omega) _
  have hbody : (do
      let room ← sub p bufferSize (headerText header).length
      let length ← printBuf p (some bytes1) size1.val (headerText header).length room
      printSecond p buffer2 size2.val ((headerText header).length + length) :
        Logging Nat).run (s.put 0 (headerText header)) = some (text.length, s₂) := by
    rw [run_bind_some hroom, run_bind_some hfirst, ← List.length_append]
    exact hsecond
  rw [run_bind_some hbody]
  rfl

end Messages

end HaierProtocol.Log
