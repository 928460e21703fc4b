import HaierProtocol.Utils.HaierLog
import Mathlib.Tactic.Ring

/-!
# The bounds of the log

When `log_haier_buffers` stays within `msg_buffer` and hands over a text that ends where it says.  A
dump ends well if all of it fits, or if it is cut off with room for a byte at least; what is left
behind a dump that was cut off holds one more byte at most.
-/

namespace HaierProtocol.Log

open Fallible Writing

variable {p : Platform} {s s' : LogState} {i dst space size n : Nat} {c : UInt8}
  {cs text : List UInt8} {src : Option (Nat → UInt8)} {bytes : Nat → UInt8}

theorem Platform.le_sizes (p : Platform) : 65536 ≤ p.sizes :=
  Nat.pow_le_pow_right (n := 2) (by decide) p.prescribed

/-! ## Writes -/

/-- The characters in the buffer from `i` on. -/
def LogState.put (s : LogState) (i : Nat) (cs : List UInt8) : LogState :=
  { s with msgBuffer := write s.msgBuffer i cs }

theorem run_store (h : i < bufferSize) (c : UInt8) (s : LogState) :
    (store i c).run s = some ((), s.put i [c]) := by
  rw [store, if_pos h]
  rfl

theorem lt_of_run_store {r : Unit × LogState} (h : (store i c).run s = some r) :
    i < bufferSize := by
  by_contra hi
  rw [store, if_neg hi] at h
  cases h

theorem run_storeAll (h : i + cs.length ≤ bufferSize) (s : LogState) :
    (storeAll i cs).run s = some ((), s.put i cs) := by
  induction cs generalizing i s with
  | nil => rfl
  | cons c cs ih =>
    rw [List.length_cons] at h
    rw [storeAll, run_bind_some (run_store (by omega) c s), ih (by omega)]
    rfl

theorem run_storeAll_none (hi : i ≤ bufferSize) (h : bufferSize < i + cs.length) (s : LogState) :
    (storeAll i cs).run s = none := by
  induction cs generalizing i s with
  | nil =>
    rw [List.length_nil] at h
    omega
  | cons c cs ih =>
    rw [List.length_cons] at h
    by_cases hlt : i < bufferSize
    · rw [storeAll, run_bind_some (run_store hlt c s), ih hlt (by omega)]
    · rw [storeAll, store, if_neg hlt]
      rfl

theorem run_sub {a b : Nat} (h : b ≤ a) (s : LogState) : (sub p a b).run s = some (a - b, s) := by
  rw [sub, if_pos h]
  rfl

/-! ## An underflow stays recorded -/

abbrev Underflows (s : LogState) : Prop := s.underflow = true

theorem preserves_store (i : Nat) (c : UInt8) : Preserves Underflows (store i c) :=
  Preserves.ite (Preserves.modify fun _ hs => hs) Preserves.fault

theorem preserves_load (i : Nat) : Preserves Underflows (load src i) := by
  cases src with
  | none => exact Preserves.fault
  | some bytes => exact Preserves.pure _

theorem preserves_sub (a b : Nat) : Preserves Underflows (sub p a b) :=
  Preserves.ite (Preserves.pure _) (Preserves.bind (Preserves.modify fun _ _ => rfl)
    fun _ => Preserves.pure _)

theorem preserves_printBytes (i n : Nat) : Preserves Underflows (printBytes p src dst i n) := by
  induction n generalizing i with
  | zero => exact Preserves.pure _
  | succ n ih =>
    refine Preserves.bind (preserves_load i) fun c => ?_
    refine Preserves.bind (preserves_store _ _) fun _ => ?_
    refine Preserves.bind (preserves_store _ _) fun _ => ?_
    exact Preserves.bind (preserves_store _ _) fun _ => ih (i + 1)

theorem preserves_printDots (pos : Nat) : Preserves Underflows (printDots p dst pos) :=
  Preserves.bind (preserves_store _ _) fun _ => Preserves.bind (preserves_store _ _) fun _ =>
    Preserves.bind (preserves_store _ _) fun _ => Preserves.pure _

theorem preserves_finish (dots : Bool) (pos : Nat) :
    Preserves Underflows (finish p dots dst pos) :=
  Preserves.ite (preserves_printDots pos) (Preserves.pure pos)

theorem preserves_end (dots : Bool) (last : Nat) : Preserves Underflows (do
    let pos ← finish p dots dst last
    store (dst + pos) 0
    return pos) :=
  Preserves.bind (preserves_finish dots last) fun _ => Preserves.bind (preserves_store _ _)
    fun _ => Preserves.pure _

theorem preserves_printCounted (dots : Bool) (n : Nat) :
    Preserves Underflows (printCounted p src dst dots n) :=
  Preserves.bind (preserves_printBytes 0 n) fun _ => Preserves.bind (preserves_sub _ _)
    fun last => preserves_end dots last

theorem preserves_printBuf : Preserves Underflows (printBuf p src size dst space) := by
  refine Preserves.ite (Preserves.bind ?_ fun n => preserves_printCounted _ n) (Preserves.pure _)
  exact Preserves.ite (Preserves.bind (preserves_sub _ _) fun _ => Preserves.pure _)
    (Preserves.pure _)

/-- A difference that wraps around is recorded, whatever follows. -/
theorem underflows_of_sub {α : Type} {a b : Nat} {k : Nat → Logging α} {r : α × LogState}
    (hlt : a < b) (hk : ∀ d, Preserves Underflows (k d))
    (h : (sub p a b >>= k).run s = some r) : Underflows r.2 := by
  obtain ⟨d, s₁, hsub, hrest⟩ := run_bind_eq_some.mp h
  rw [sub, if_neg (Nat.not_le.mpr hlt)] at hsub
  cases hsub
  exact hk _ _ _ _ rfl hrest

/-! ## The bytes of a dump -/

/-- The characters for `n` bytes from the byte `i` on. -/
def hexText (bytes : Nat → UInt8) : Nat → Nat → List UInt8
  | _, 0 => []
  | i, n + 1 =>
    hexDigit (bytes i / 16) :: hexDigit (bytes i % 16) :: blank :: hexText bytes (i + 1) n

theorem length_hexText (bytes : Nat → UInt8) (i n : Nat) : (hexText bytes i n).length = 3 * n := by
  induction n generalizing i with
  | zero => rfl
  | succ n ih =>
    rw [hexText, List.length_cons, List.length_cons, List.length_cons, ih]
    omega

theorem hexDigit_ne_zero (b : UInt8) : hexDigit (b / 16) ≠ 0 ∧ hexDigit (b % 16) ≠ 0 := by
  have hall : ∀ i : Fin 256, hexDigit (UInt8.ofNat i.val / 16) ≠ 0 ∧
      hexDigit (UInt8.ofNat i.val % 16) ≠ 0 := by decide +kernel
  have hb := hall ⟨b.toNat, b.toNat_lt⟩
  rwa [UInt8.ofNat_toNat] at hb

theorem zero_notMem_hexText (bytes : Nat → UInt8) (i n : Nat) : 0 ∉ hexText bytes i n := by
  induction n generalizing i with
  | zero => exact List.not_mem_nil
  | succ n ih =>
    obtain ⟨hhigh, hlow⟩ := hexDigit_ne_zero (bytes i)
    rw [hexText]
    simp only [List.mem_cons, not_or]
    exact ⟨hhigh.symm, hlow.symm, by decide, ih (i + 1)⟩

/-- As long as it stays within the buffer, the loop is one row of writes. -/
theorem printBytes_eq (h : dst + 3 * i ≤ bufferSize) (s : LogState) :
    (printBytes p (some bytes) dst i n).run s =
      (storeAll (dst + 3 * i) (hexText bytes i n)).run s := by
  induction n generalizing i s with
  | zero => rfl
  | succ n ih =>
    have hsizes := p.le_sizes
    have hsmall : 3 * i + 2 < p.sizes := by
      unfold bufferSize at h
      omega
    have hload : (load (some bytes) i).run s = some (bytes i, s) := rfl
    rw [printBytes, run_bind_some hload, Nat.mod_eq_of_lt (a := 3 * i) (by omega),
      Nat.mod_eq_of_lt (a := 3 * i + 1) (by omega), Nat.mod_eq_of_lt hsmall, hexText]
    by_cases hin : dst + 3 * i + 3 ≤ bufferSize
    · have hnext : dst + 3 * (i + 1) ≤ bufferSize := by omega
      -- Three characters are stored on either side.
      rw [run_bind_some (run_store (by omega) _ _), run_bind_some (run_store (by omega) _ _),
        run_bind_some (run_store (by omega) _ _), ih hnext]
      rw [storeAll, run_bind_some (run_store (by omega) _ _), storeAll,
        run_bind_some (run_store (by omega) _ _), storeAll,
        run_bind_some (run_store (by omega) _ _)]
      rfl
    · rw [run_storeAll_none h (by simp only [List.length_cons]; omega)]
      -- The last of the three characters would be outside.
      refine Option.eq_none_iff_forall_ne_some.mpr fun r hr => hin ?_
      obtain ⟨_, s₁, -, h₁⟩ := run_bind_eq_some.mp hr
      obtain ⟨_, s₂, -, h₂⟩ := run_bind_eq_some.mp h₁
      obtain ⟨_, s₃, hstore, -⟩ := run_bind_eq_some.mp h₂
      have hlt := lt_of_run_store hstore
      omega

/-! ## One dump -/

/-- The whole dump, with a blank or the NUL behind every byte, fits into the room. -/
def Fits (space size : Nat) : Prop := 3 * size ≤ space

/-- The dump is found to be too long and is cut off, with room for a byte at least. -/
def Cut (p : Platform) (space size : Nat) : Prop := space < 3 * size % p.sizes ∧ 8 ≤ space

instance (space size : Nat) : Decidable (Fits space size) := inferInstanceAs (Decidable (_ ≤ _))

instance (space size : Nat) : Decidable (Cut p space size) := inferInstanceAs (Decidable (_ ∧ _))

/-- The text of a dump, without the NUL. -/
def dump (bytes : Nat → UInt8) (space size : Nat) : List UInt8 :=
  if Fits space size then (hexText bytes 0 size).dropLast
  else hexText bytes 0 ((space - 5) / 3) ++ [dot, dot, dot]

theorem length_dump_of_fits (h : Fits space size) :
    (dump bytes space size).length = 3 * size - 1 := by
  rw [dump, if_pos h, List.length_dropLast, length_hexText]

theorem length_dump_of_cut (h : ¬Fits space size) :
    (dump bytes space size).length = 3 * ((space - 5) / 3) + 3 := by
  rw [dump, if_neg h, List.length_append, length_hexText]
  rfl

theorem zero_notMem_dump : 0 ∉ dump bytes space size := by
  rw [dump]
  split
  · exact fun hmem => zero_notMem_hexText bytes 0 size (List.dropLast_subset _ hmem)
  · simp only [List.mem_append, not_or]
    exact ⟨zero_notMem_hexText bytes 0 _, by decide⟩

theorem Cut.not_fits (h : Cut p space size) : ¬Fits space size := fun hfits =>
  Nat.not_lt.mpr ((Nat.mod_le _ _).trans hfits) h.1

/-- The text and its NUL are in the buffer, and nothing else has happened. -/
structure Printed (s s' : LogState) (text : List UInt8) : Prop where
  holds : Holds s'.msgBuffer (text ++ [0])
  underflow : s'.underflow = s.underflow
  handled : s'.handled = s.handled

theorem run_printBytes (h : dst + 3 * n ≤ bufferSize) (s : LogState) :
    (printBytes p (some bytes) dst 0 n).run s = some ((), s.put dst (hexText bytes 0 n)) := by
  rw [printBytes_eq (by omega), Nat.mul_zero, Nat.add_zero]
  exact run_storeAll (by rwa [length_hexText]) s

/-- The NUL takes the place of the last blank. -/
theorem printBuf_fits (hdst : dst = text.length) (hroom : dst + space = bufferSize)
    (hholds : Holds s.msgBuffer text) (hsize : 0 < size) (h : Fits space size) :
    ∃ s', (printBuf p (some bytes) size dst space).run s =
        some ((dump bytes space size).length, s') ∧
      Printed s s' (text ++ dump bytes space size) := by
  have hle : 3 * size ≤ space := h
  have hsizes := p.le_sizes
  have hsmall : 3 * size < p.sizes := by
    unfold bufferSize at hroom
    omega
  have hmod : 3 * size % p.sizes = 3 * size := Nat.mod_eq_of_lt hsmall
  have hdots : decide (space < 3 * size % p.sizes) = false := by
    rw [hmod]
    exact decide_eq_false (by omega)
  have hcount : (countBytes p false size space).run s = some (size, s) := rfl
  have hlast : dst + (3 * size - 1) < bufferSize := by omega
  refine ⟨(s.put dst (hexText bytes 0 size)).put (dst + (3 * size - 1)) [0], ?_, ?_⟩
  · rw [printBuf, if_pos hsize, hdots, run_bind_some hcount, printCounted,
      run_bind_some (run_printBytes (by omega) s), hmod, run_bind_some (run_sub (by omega) _),
      finish, if_neg Bool.false_ne_true,
      run_bind_some (run_pure _ _), run_bind_some (run_store hlast 0 _), run_pure,
      length_dump_of_fits h]
  · have hhex := hholds.write hdst (hexText bytes 0 size)
    have hne : hexText bytes 0 size ≠ [] := by
      intro hnil
      have hlen := length_hexText bytes 0 size
      rw [hnil] at hlen
      simp at hlen
      omega
    have hall : Holds (write s.msgBuffer dst (hexText bytes 0 size))
        (text ++ (hexText bytes 0 size).dropLast ++ [(hexText bytes 0 size).getLast hne]) := by
      rwa [List.append_assoc, List.dropLast_concat_getLast]
    refine ⟨?_, rfl, rfl⟩
    rw [dump, if_pos h]
    refine hall.left.write ?_ [0]
    rw [List.length_append, List.length_dropLast, length_hexText, hdst]

theorem run_printDots {pos : Nat} (hsmall : pos + 4 < p.sizes) (h : dst + pos + 3 < bufferSize)
    (s : LogState) :
    (printDots p dst pos).run s = some (pos + 4, s.put (dst + pos + 1) [dot, dot, dot]) := by
  rw [printDots]
  dsimp only
  rw [Nat.mod_eq_of_lt (a := pos + 1) (by omega), Nat.mod_eq_of_lt (a := pos + 1 + 1) (by omega),
    Nat.mod_eq_of_lt (a := pos + 1 + 1 + 1) (by omega),
    Nat.mod_eq_of_lt (a := pos + 1 + 1 + 1 + 1) (by omega),
    run_bind_some (run_store (by omega) _ _), run_bind_some (run_store (by omega) _ _),
    run_bind_some (run_store (by omega) _ _)]
  rfl

/-- Three dots behind the bytes that there is room for. -/
theorem printBuf_cut (hdst : dst = text.length) (hroom : dst + space = bufferSize)
    (hholds : Holds s.msgBuffer text) (hsize : 0 < size) (h : Cut p space size) :
    ∃ s', (printBuf p (some bytes) size dst space).run s =
        some ((dump bytes space size).length, s') ∧
      Printed s s' (text ++ dump bytes space size) := by
  have hlong := h.1
  have hspace := h.2
  have hsizes := p.le_sizes
  have hcount : (countBytes p true size space).run s = some ((space - 5) / 3, s) := by
    rw [countBytes, if_pos rfl, run_bind_some (run_sub (by omega) s), run_pure]
  have hdump : dump bytes space size = hexText bytes 0 ((space - 5) / 3) ++ [dot, dot, dot] :=
    if_neg h.not_fits
  have hn : 1 ≤ (space - 5) / 3 := by omega
  have hn' : 3 * ((space - 5) / 3) + 5 ≤ space := by omega
  generalize (space - 5) / 3 = n at hcount hn hn' hdump
  have hsmall : 3 * n - 1 + 4 < p.sizes := by
    unfold bufferSize at hroom
    omega
  have hdots : dst + (3 * n - 1) + 1 = dst + 3 * n := by omega
  have hend : 3 * n - 1 + 4 = 3 * n + 3 := by omega
  refine ⟨((s.put dst (hexText bytes 0 n)).put (dst + 3 * n) [dot, dot, dot]).put
    (dst + (3 * n + 3)) [0], ?_, ?_⟩
  · rw [printBuf, if_pos hsize, decide_eq_true hlong, run_bind_some hcount, printCounted,
      run_bind_some (run_printBytes (by omega) s), Nat.mod_eq_of_lt (a := 3 * n) (by omega),
      run_bind_some (run_sub (by omega) _), finish, if_pos rfl,
      run_bind_some (run_printDots hsmall (by omega) _), hdots, hend,
      run_bind_some (run_store (by omega) 0 _), run_pure, hdump, List.length_append, length_hexText]
    rfl
  · have hhex := hholds.write hdst (hexText bytes 0 n)
    have hlen : dst + 3 * n = (text ++ hexText bytes 0 n).length := by
      rw [List.length_append, length_hexText, hdst]
    have hall := hhex.write hlen [dot, dot, dot]
    refine ⟨?_, rfl, rfl⟩
    rw [hdump, ← List.append_assoc]
    refine hall.write ?_ [0]
    rw [List.length_append, ← hlen]
    rfl

theorem printBuf_printed (bytes : Nat → UInt8) (hdst : dst = text.length)
    (hroom : dst + space = bufferSize) (hholds : Holds s.msgBuffer text) (hsize : 0 < size)
    (h : Fits space size ∨ Cut p space size) :
    ∃ s', (printBuf p (some bytes) size dst space).run s =
        some ((dump bytes space size).length, s') ∧
      Printed s s' (text ++ dump bytes space size) :=
  h.elim (printBuf_fits hdst hroom hholds hsize) (printBuf_cut hdst hroom hholds hsize)

/-- The bytes of a block are not printed if there are none, or if they end outside the buffer. -/
theorem run_printBytes_none (hdst : dst ≤ bufferSize) (hn : 0 < n)
    (h : src = none ∨ bufferSize < dst + 3 * n) (s : LogState) :
    (printBytes p src dst 0 n).run s = none := by
  cases src with
  | none =>
    obtain ⟨n, rfl⟩ : ∃ m, n = m + 1 := ⟨n - 1, by omega⟩
    rfl
  | some bytes =>
    have hlong : bufferSize < dst + 3 * n := h.resolve_left (Option.some_ne_none bytes)
    rw [printBytes_eq (by omega)]
    exact run_storeAll_none hdst (by rwa [length_hexText]) s

/-- Every other dump of a block that is not empty goes wrong, if it comes to its end at all. -/
theorem printBuf_underflows (hroom : dst + space = bufferSize) (hsize : 0 < size)
    (h : ¬(src.isSome ∧ (Fits space size ∨ Cut p space size))) {r : Nat × LogState}
    (hrun : (printBuf p src size dst space).run s = some r) : Underflows r.2 := by
  rw [printBuf, if_pos hsize] at hrun
  obtain ⟨n, s₁, hcount, hrest⟩ := run_bind_eq_some.mp hrun
  by_cases hlong : space < 3 * size % p.sizes
  · rw [decide_eq_true hlong, countBytes, if_pos rfl] at hcount
    by_cases hfive : space < 5
    · have hbefore : Underflows s₁ := underflows_of_sub hfive (fun _ => Preserves.pure _) hcount
      exact preserves_printCounted _ _ _ _ _ hbefore hrest
    · rw [run_bind_some (run_sub (by omega) s), run_pure] at hcount
      cases hcount
      by_cases height : space < 8
      · have hzero : (space - 5) / 3 = 0 := by omega
        have hbytes : (printBytes p src dst 0 0).run s = some ((), s) := rfl
        rw [hzero, printCounted, run_bind_some hbytes] at hrest
        -- No byte is printed, and the position before the first character is asked for.
        exact underflows_of_sub (by simp) (fun last => preserves_end _ last) hrest
      · have hnull : src = none := by
          by_contra hsome
          exact h ⟨Option.isSome_iff_ne_none.mpr hsome, .inr ⟨hlong, by omega⟩⟩
        rw [printCounted, run_bind_none (run_printBytes_none (by omega) (by omega)
          (.inl hnull) s)] at hrest
        cases hrest
  · rw [decide_eq_false hlong] at hcount
    cases hcount
    have hout : src = none ∨ bufferSize < dst + 3 * size := by
      by_contra hin
      obtain ⟨hsome, hle⟩ := not_or.mp hin
      exact h ⟨Option.isSome_iff_ne_none.mpr hsome, .inl (by unfold Fits; omega)⟩
    rw [printCounted, run_bind_none (run_printBytes_none (by omega) hsize hout s)] at hrest
    cases hrest

theorem length_dump_lt (bytes : Nat → UInt8) (hsize : 0 < size)
    (h : Fits space size ∨ Cut p space size) :
    (dump bytes space size).length < space := by
  obtain hfits | hcut := h
  · have hle : 3 * size ≤ space := hfits
    rw [length_dump_of_fits hfits]
    omega
  · have hspace := hcut.2
    rw [length_dump_of_cut hcut.not_fits]
    omega

/-! ## The header -/

/-- The part of the header that is copied, and the blank behind it. -/
def headerText (header : Option CString) : List UInt8 :=
  match header with
  | some header => header.chars.take (bufferSize - 6) ++ [blank]
  | none => []

theorem length_headerText (header : Option CString) :
    (headerText header).length + 5 ≤ bufferSize := by
  cases header with
  | none => decide
  | some header =>
    rw [headerText, List.length_append, List.length_take]
    simp only [bufferSize, List.length_singleton]
    omega

theorem zero_notMem_headerText (header : Option CString) : 0 ∉ headerText header := by
  cases header with
  | none => exact List.not_mem_nil
  | some header =>
    rw [headerText, List.mem_append, not_or]
    exact ⟨fun hmem => header.nonzero (List.mem_of_mem_take hmem), by decide⟩

theorem run_copyHeader {res : Nat} (h : res ≤ bufferSize - 6) (s : LogState) :
    (copyHeader cs res).run s = some (res + (cs.take (bufferSize - 6 - res)).length,
      s.put res (cs.take (bufferSize - 6 - res))) := by
  unfold bufferSize at h
  induction cs generalizing res s with
  | nil =>
    rw [List.take_nil]
    rfl
  | cons c cs ih =>
    by_cases hin : res ≤ bufferSize - 7
    · have hnext : res + 1 ≤ 4096 - 6 := by
        unfold bufferSize at hin
        omega
      have htake : bufferSize - 6 - res = bufferSize - 6 - (res + 1) + 1 := by
        unfold bufferSize
        omega
      rw [copyHeader, if_pos hin, run_bind_some (run_store (by unfold bufferSize; omega) c s),
        ih hnext, htake, List.take_succ_cons, List.length_cons]
      exact congrArg some (Prod.ext (by omega) rfl)
    · have htake : bufferSize - 6 - res = 0 := by
        unfold bufferSize at hin ⊢
        omega
      rw [copyHeader, if_neg hin, htake, List.take_zero]
      rfl

theorem run_printHeader (header : Option CString) (s : LogState) :
    (printHeader header).run s =
      some ((headerText header).length, s.put 0 (headerText header)) := by
  cases header with
  | none => rfl
  | some header =>
    have hlen := length_headerText (some header)
    rw [headerText, List.length_append, List.length_singleton] at hlen
    rw [printHeader, run_bind_some (run_copyHeader (Nat.zero_le _) s), Nat.sub_zero, Nat.zero_add,
      run_bind_some (run_store (by omega) blank _), run_pure, headerText, List.length_append,
      List.length_singleton]
    refine congrArg some (Prod.ext rfl ?_)
    simp only [LogState.put, write_append, Nat.zero_add]

/-! ## The text that is handed over -/

/-- The text ends with a NUL in the buffer, and that is at `res`. -/
structure Terminated (cells : Nat → UInt8) (res : Nat) : Prop where
  inside : res < bufferSize
  nul : cells res = 0
  before : ∀ i < res, cells i ≠ 0

theorem nul_of_holds {cells : Nat → UInt8} (h : Holds cells (text ++ [0])) :
    cells text.length = 0 := by
  rw [h _ (by simp), List.getElem_concat_length rfl]

theorem terminated_of_holds {cells : Nat → UInt8} (hlt : text.length < bufferSize)
    (hzero : 0 ∉ text) (h : Holds cells (text ++ [0])) : Terminated cells text.length := by
  refine ⟨hlt, nul_of_holds h, fun i hi heq => hzero ?_⟩
  rw [h.left i hi] at heq
  exact heq ▸ List.getElem_mem hi

/-- The program comes to its end, no difference wraps around, and the text ends where it says. -/
def Ends (x : Logging Nat) (s : LogState) : Prop :=
  ∃ res s', x.run s = some (res, s') ∧ s'.underflow = false ∧ Terminated s'.msgBuffer res

theorem not_ends_of_underflows {x : Logging Nat}
    (h : ∀ r, x.run s = some r → Underflows r.2) : ¬Ends x s := by
  rintro ⟨res, s', hrun, hunderflow, -⟩
  have hbad : s'.underflow = true := h _ hrun
  rw [hunderflow] at hbad
  cases hbad

theorem ends_of_run {x : Logging Nat} {res : Nat} (h : x.run s = some (res, s')) :
    Ends x s ↔ s'.underflow = false ∧ Terminated s'.msgBuffer res := by
  refine ⟨?_, fun hends => ⟨res, s', h, hends⟩⟩
  rintro ⟨res', s'', hrun, hends⟩
  rw [h] at hrun
  cases hrun
  exact hends

theorem ends_bind {α : Type} {x : Logging α} {k : α → Logging Nat} {a : α}
    (h : x.run s = some (a, s')) : Ends (x >>= k) s ↔ Ends (k a) s' := by
  rw [Ends, run_bind_some h]
  rfl

/-- The text in front is complete and in the buffer. -/
structure Front (s : LogState) (text : List UInt8) : Prop where
  holds : Holds s.msgBuffer text
  nonzero : 0 ∉ text
  underflow : s.underflow = false

/-- The word for an empty message, where it is not cut. -/
theorem printEmpty_ends_iff (h : Front s text) (hlen : text.length + 5 ≤ bufferSize) :
    Ends (printEmpty p text.length) s ↔ 9 ≤ bufferSize - text.length := by
  have hroom : (bufferSize - text.length - 1) > 0 := by omega
  generalize hn : bufferSize - text.length - 1 = n at hroom
  have hshort : (empty.take (n - 1)).length ≤ n - 1 := List.length_take_le _ _
  have hrun : (printEmpty p text.length).run s =
      some (text.length + 7, s.put text.length (empty.take (n - 1) ++ [0])) := by
    rw [printEmpty, run_bind_some (run_sub (by omega) s), run_bind_some (run_sub (by omega) s), hn,
      snprintf, if_pos hroom]
    have hstore : (storeAll text.length (empty.take (n - 1) ++ [0])).run s = some ((),
        s.put text.length (empty.take (n - 1) ++ [0])) :=
      run_storeAll (by rw [List.length_append, List.length_singleton]; omega) s
    rw [run_bind, run_bind_some hstore]
    rfl
  have hholds : Holds (write s.msgBuffer text.length (empty.take (n - 1) ++ [0]))
      (text ++ empty.take (n - 1) ++ [0]) := by
    rw [List.append_assoc]
    exact h.holds.write rfl _
  refine (ends_of_run hrun).trans ((and_iff_right h.underflow).trans ?_)
  refine ⟨fun hends => ?_, fun hlong => ?_⟩
  · by_contra hcut
    have hlt : (text ++ empty.take (n - 1)).length < text.length + 7 := by
      rw [List.length_append]
      omega
    exact hends.before _ hlt (nul_of_holds hholds)
  · have htake : empty.take (n - 1) = empty := List.take_of_length_le (show 7 ≤ n - 1 by omega)
    rw [htake] at hholds ⊢
    have hend : text.length + 7 = (text ++ empty).length := by
      rw [List.length_append]
      rfl
    rw [hend]
    refine terminated_of_holds (by omega) ?_ hholds
    rw [List.mem_append, not_or]
    exact ⟨h.nonzero, by decide⟩

/-- A complete text with its NUL. -/
theorem ends_pure (h : Front s text) (hnul : Holds s.msgBuffer (text ++ [0]))
    (hlt : text.length < bufferSize) : Ends (pure text.length) s :=
  (ends_of_run (run_pure _ s)).mpr ⟨h.underflow, terminated_of_holds hlt h.nonzero hnul⟩

/-- After a dump there is a longer text in front, with its NUL. -/
theorem printBuf_front (bytes : Nat → UInt8) (h : Front s text)
    (hroom : text.length + space = bufferSize) (hsize : 0 < size)
    (hdump : Fits space size ∨ Cut p space size) :
    ∃ s', (printBuf p (some bytes) size text.length space).run s =
        some ((dump bytes space size).length, s') ∧
      Front s' (text ++ dump bytes space size) ∧
      Holds s'.msgBuffer (text ++ dump bytes space size ++ [0]) ∧
      (text ++ dump bytes space size).length < bufferSize := by
  obtain ⟨s', hrun, hprinted⟩ := printBuf_printed bytes rfl hroom h.holds hsize hdump
  have hlt := length_dump_lt bytes hsize hdump
  have hzero : 0 ∉ text ++ dump bytes space size := by
    rw [List.mem_append, not_or]
    exact ⟨h.nonzero, zero_notMem_dump⟩
  refine ⟨s', hrun, ⟨hprinted.holds.left, hzero, hprinted.underflow.trans h.underflow⟩,
    hprinted.holds, ?_⟩
  rw [List.length_append]
  omega

/-- The second block ends well if it is empty or its dump does. -/
theorem printSecond_ends_iff {buffer2 : Option (Nat → UInt8)} (h : Front s text)
    (hnul : Holds s.msgBuffer (text ++ [0])) (hlt : text.length < bufferSize) :
    Ends (printSecond p buffer2 size text.length) s ↔
      size = 0 ∨ buffer2.isSome ∧ (Fits (bufferSize - (text.length + 1)) size ∨
        Cut p (bufferSize - (text.length + 1)) size) := by
  rw [printSecond, ends_bind (run_sub (by omega) s)]
  by_cases hsize : size = 0
  · rw [if_neg (by omega)]
    exact iff_of_true (ends_pure h hnul hlt) (.inl hsize)
  · have hblank : Front (s.put text.length [blank]) (text ++ [blank]) := by
      refine ⟨h.holds.write rfl _, ?_, h.underflow⟩
      rw [List.mem_append, not_or]
      exact ⟨h.nonzero, by decide⟩
    have hlen : text.length + 1 = (text ++ [blank]).length := by
      rw [List.length_append, List.length_singleton]
    rw [if_pos (by omega), ends_bind (run_store hlt blank s), ends_bind (run_sub (by omega) _),
      or_iff_right hsize, hlen]
    have hroom : (text ++ [blank]).length + (bufferSize - (text ++ [blank]).length) = bufferSize :=
      by omega
    by_cases hgood : buffer2.isSome ∧ (Fits (bufferSize - (text ++ [blank]).length) size ∨
        Cut p (bufferSize - (text ++ [blank]).length) size)
    · refine iff_of_true ?_ hgood
      obtain ⟨bytes, rfl⟩ := Option.isSome_iff_exists.mp hgood.1
      obtain ⟨s', hrun, hfront, hnul, hlt⟩ :=
        printBuf_front bytes hblank hroom (by omega) hgood.2
      rw [ends_bind hrun, ← List.length_append]
      exact ends_pure hfront hnul hlt
    · refine iff_of_false (not_ends_of_underflows fun r hr => ?_) hgood
      obtain ⟨length, s', hprint, hrest⟩ := run_bind_eq_some.mp hr
      cases hrest
      exact printBuf_underflows (r := (length, s')) hroom (by omega) hgood hprint

/-! ## A whole message -/

section Messages

variable {buffer1 buffer2 : Option (Nat → UInt8)} {size1 size2 : Nat} {header : Option CString}

/-- Both dumps end well.  Behind one that is cut off there is room for another byte only where
`space` leaves the rest 1 by 3. -/
def DumpsWell (p : Platform) (space size1 : Nat) (buffer2 : Option (Nat → UInt8)) (size2 : Nat) :
    Prop :=
  Fits space size1 ∧ (size2 = 0 ∨ buffer2.isSome ∧
      (Fits (space - 3 * size1) size2 ∨ Cut p (space - 3 * size1) size2)) ∨
    Cut p space size1 ∧ (size2 = 0 ∨ buffer2.isSome ∧ size2 = 1 ∧ space % 3 = 1)

theorem DumpsWell.first (h : DumpsWell p space size1 buffer2 size2) :
    Fits space size1 ∨ Cut p space size1 := h.imp And.left And.left

theorem dumpsWell_iff_of_fits (hsize : 0 < size1) (h : Fits space size1) :
    (size2 = 0 ∨ buffer2.isSome ∧ (Fits (space - ((dump bytes space size1).length + 1)) size2 ∨
        Cut p (space - ((dump bytes space size1).length + 1)) size2)) ↔
      DumpsWell p space size1 buffer2 size2 := by
  have hroom : (dump bytes space size1).length + 1 = 3 * size1 := by
    rw [length_dump_of_fits h]
    omega
  rw [hroom]
  exact (and_iff_right h).symm.trans (or_iff_left fun hcut => hcut.1.not_fits h).symm

theorem dumpsWell_iff_of_cut (h : Cut p space size1) :
    (size2 = 0 ∨ buffer2.isSome ∧ (Fits (space - ((dump bytes space size1).length + 1)) size2 ∨
        Cut p (space - ((dump bytes space size1).length + 1)) size2)) ↔
      DumpsWell p space size1 buffer2 size2 := by
  have hspace := h.2
  rw [length_dump_of_cut h.not_fits]
  refine Iff.trans ?_ ((and_iff_right h).symm.trans
    (or_iff_right fun hfits => h.not_fits hfits.1).symm)
  by_cases hsize : size2 = 0
  · exact iff_of_true (.inl hsize) (.inl hsize)
  · rw [or_iff_right hsize, or_iff_right hsize]
    refine and_congr_right fun _ => ?_
    -- One to three cells are left.
    have hcut : ¬Cut p (space - (3 * ((space - 5) / 3) + 3 + 1)) size2 := fun hcut => by
      have height := hcut.2
      omega
    rw [or_iff_left hcut, Fits]
    omega

theorem preserves_printSecond (res : Nat) :
    Preserves Underflows (printSecond p buffer2 size2 res) := by
  refine Preserves.bind (preserves_sub _ _) fun room => Preserves.ite ?_ (Preserves.pure _)
  refine Preserves.bind (preserves_store _ _) fun _ => ?_
  refine Preserves.bind (preserves_sub _ _) fun _ => ?_
  exact Preserves.bind preserves_printBuf fun _ => Preserves.pure _

theorem printBlocks_ends_iff (h : Front s text) (hlen : text.length + 5 ≤ bufferSize) :
    Ends (printBlocks p buffer1 size1 buffer2 size2 text.length) s ↔
      if buffer1.isSome ∧ 0 < size1 then DumpsWell p (bufferSize - text.length) size1 buffer2 size2
      else s.msgBuffer text.length = 0 := by
  by_cases hfirst : buffer1.isSome ∧ 0 < size1
  · rw [printBlocks, if_pos hfirst, if_pos hfirst, ends_bind (run_sub (by omega) s)]
    obtain ⟨hsome, hsize⟩ := hfirst
    have hroom : text.length + (bufferSize - text.length) = bufferSize := by omega
    generalize bufferSize - text.length = space at hroom
    by_cases hgood : Fits space size1 ∨ Cut p space size1
    · obtain ⟨bytes, rfl⟩ := Option.isSome_iff_exists.mp hsome
      obtain ⟨s', hrun, hfront, hnul, hlt⟩ := printBuf_front bytes h hroom hsize hgood
      have hleft : bufferSize - ((text ++ dump bytes space size1).length + 1) =
          space - ((dump bytes space size1).length + 1) := by
        rw [List.length_append]
        omega
      rw [ends_bind hrun, ← List.length_append, printSecond_ends_iff hfront hnul hlt, hleft]
      obtain hfits | hcut := hgood
      · exact dumpsWell_iff_of_fits hsize hfits
      · exact dumpsWell_iff_of_cut hcut
    · refine iff_of_false (not_ends_of_underflows fun r hr => ?_) fun hwell => hgood hwell.first
      obtain ⟨length, s', hprint, hrest⟩ := run_bind_eq_some.mp hr
      have hbad : Underflows s' :=
        printBuf_underflows hroom hsize (fun hboth => hgood hboth.2) hprint
      exact preserves_printSecond _ _ _ _ hbad hrest
  · rw [printBlocks, if_neg hfirst, if_neg hfirst, ends_of_run (run_pure _ s),
      and_iff_right h.underflow]
    refine ⟨Terminated.nul, fun hnul => ⟨by omega, hnul, fun i hi heq => h.nonzero ?_⟩⟩
    rw [h.holds i hi] at heq
    exact heq ▸ List.getElem_mem hi

/-- When a message stays inside the buffer, which held `m` before. -/
def Bounded (p : Platform) (m : Nat → UInt8) (header : Option CString)
    (buffer1 : Option (Nat → UInt8)) (size1 : Nat) (buffer2 : Option (Nat → UInt8)) (size2 : Nat) :
    Prop :=
  let space := bufferSize - (headerText header).length
  if (size1 + size2) % p.sizes = 0 then 9 ≤ space
  else if buffer1.isSome ∧ 0 < size1 then DumpsWell p space size1 buffer2 size2
  else m (headerText header).length = 0

theorem message_ends_iff (m : Nat → UInt8) :
    Ends (printHeader header >>= printBody p buffer1 size1 buffer2 size2) { msgBuffer := m } ↔
      Bounded p m header buffer1 size1 buffer2 size2 := by
  have hlen := length_headerText header
  have hfront : Front ({ msgBuffer := m : LogState }.put 0 (headerText header))
      (headerText header) :=
    ⟨(Holds.nil m).write rfl _, zero_notMem_headerText header, rfl⟩
  have hstale : ({ msgBuffer := m : LogState }.put 0 (headerText header)).msgBuffer
      (headerText header).length = m (headerText header).length :=
    write_of_le (Nat.le_of_eq (Nat.zero_add _))
  rw [ends_bind (run_printHeader header _), printBody, Bounded]
  by_cases hempty : (size1 + size2) % p.sizes = 0
  · rw [if_pos hempty, if_pos hempty]
    exact printEmpty_ends_iff hfront hlen
  · rw [if_neg hempty, if_neg hempty, printBlocks_ends_iff hfront hlen, hstale]

end Messages

/-- The call comes to its end without leaving `msg_buffer` and without a difference that wraps
around, and the text that the handler gets ends with a NUL at the result. -/
def LogsInside (p : Platform) (handler : Bool) (level : HaierLogLevel) (header : Option CString)
    (buffer1 : Option (Nat → UInt8)) (size1 : Fin p.sizes) (buffer2 : Option (Nat → UInt8))
    (size2 : Fin p.sizes) (m : Nat → UInt8) : Prop :=
  ∃ res s', (logHaierBuffers p handler level header buffer1 size1 buffer2 size2).run
      { msgBuffer := m } = some (res, s') ∧
    s'.underflow = false ∧ ∀ call, s'.handled = some call → Terminated call.2 res

section Calls

variable {handler : Bool} {level : HaierLogLevel} {header : Option CString}
  {buffer1 buffer2 : Option (Nat → UInt8)} {size1 size2 : Fin p.sizes} {m : Nat → UInt8}

/-- Messages of which every byte is printed. -/
theorem bounded_of_short {size1 size2 : Nat} (hsome : buffer1.isSome) (hsize : 0 < size1)
    (hsecond : size2 = 0 ∨ buffer2.isSome)
    (hshort : 3 * (size1 + size2) ≤ bufferSize - (headerText header).length) :
    Bounded p m header buffer1 size1 buffer2 size2 := by
  have hsizes := p.le_sizes
  have hlt : size1 + size2 < p.sizes := by
    unfold bufferSize at hshort
    omega
  have hnonempty : ¬(size1 + size2) % p.sizes = 0 := by
    rw [Nat.mod_eq_of_lt hlt]
    omega
  have hfirst : Fits (bufferSize - (headerText header).length) size1 := by
    unfold Fits
    omega
  rw [Bounded, if_neg hnonempty, if_pos ⟨hsome, hsize⟩]
  refine .inl ⟨hfirst, hsecond.imp_right fun hsome => ⟨hsome, .inl ?_⟩⟩
  unfold Fits
  omega

theorem logsInside_iff_ends (h : handler ∧ level ≠ .levelNone) :
    LogsInside p handler level header buffer1 size1 buffer2 size2 m ↔
      Ends (printHeader header >>= printBody p buffer1 size1 buffer2 size2) { msgBuffer := m } := by
  rw [LogsInside, logHaierBuffers, if_pos h]
  constructor
  · rintro ⟨res, s', hrun, hunderflow, hcall⟩
    obtain ⟨start, s₁, hheader, hrest⟩ := run_bind_eq_some.mp hrun
    obtain ⟨res', s₂, hbody, hlast⟩ := run_bind_eq_some.mp hrest
    cases hlast
    exact ⟨res, s₂, run_bind_eq_some.mpr ⟨start, s₁, hheader, hbody⟩, hunderflow, hcall _ rfl⟩
  · rintro ⟨res, s', hrun, hunderflow, hterminated⟩
    obtain ⟨start, s₁, hheader, hbody⟩ := run_bind_eq_some.mp hrun
    refine ⟨res, { s' with handled := some (level, s'.msgBuffer) }, ?_, hunderflow, ?_⟩
    · rw [run_bind_some hheader, run_bind_some hbody]
      rfl
    · rintro call hcall
      cases hcall
      exact hterminated

end Calls

/-- A call that is not enabled does nothing; any other one stays inside the buffer exactly if its
header and its blocks are so. -/
theorem logHaierBuffers_inside_iff (p : Platform) (handler : Bool) (level : HaierLogLevel)
    (header : Option CString) (buffer1 : Option (Nat → UInt8)) (size1 : Fin p.sizes)
    (buffer2 : Option (Nat → UInt8)) (size2 : Fin p.sizes) (m : Nat → UInt8) :
    LogsInside p handler level header buffer1 size1 buffer2 size2 m ↔
      (handler ∧ level ≠ .levelNone → Bounded p m header buffer1 size1 buffer2 size2) := by
  by_cases h : handler ∧ level ≠ .levelNone
  · rw [logsInside_iff_ends h, message_ends_iff, imp_iff_right h]
  · refine iff_of_true ⟨0, { msgBuffer := m }, ?_, rfl, fun call hcall => nomatch hcall⟩
      fun henabled => absurd henabled h
    rw [logHaierBuffers, if_neg h]
    rfl

theorem prescribed_sixtyFour : 16 ≤ 64 := by decide

def sixtyFour : Platform := ⟨64, prescribed_sixtyFour⟩

def receivedDataChars : List UInt8 :=
  [0x52, 0x65, 0x63, 0x65, 0x69, 0x76, 0x65, 0x64, 0x20, 0x64, 0x61, 0x74, 0x61, 0x3A]

theorem zero_notMem_receivedDataChars : 0 ∉ receivedDataChars := by decide

/-- The header of the messages of `read_data`. -/
def receivedData : CString := ⟨receivedDataChars, zero_notMem_receivedDataChars⟩

/-- Behind a block that is cut off there is no room for two bytes of the next one. -/
theorem secondBlock_outside :
    ¬LogsInside sixtyFour true .levelVerbose (some receivedData) (some fun _ => 0) 1400
      (some fun _ => 0) 2 fun _ => 0 := by
  have henabled : (true : Prop) ∧ HaierLogLevel.levelVerbose ≠ .levelNone := by decide
  rw [logsInside_iff_ends henabled, message_ends_iff]
  have hspace : bufferSize - (headerText (some receivedData)).length = 4081 := by decide
  have hsize : ((1400 : Fin sixtyFour.sizes).val + (2 : Fin sixtyFour.sizes).val) %
      sixtyFour.sizes ≠ 0 := by decide
  rw [Bounded, if_neg hsize, if_pos ⟨rfl, by decide⟩, hspace]
  rintro (⟨hfits, -⟩ | ⟨-, hnone | ⟨-, hone, -⟩⟩)
  · exact absurd hfits (by decide)
  · exact absurd hnone (by decide)
  · exact absurd hone (by decide)

end HaierProtocol.Log
