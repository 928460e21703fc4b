import HaierProtocol.Transport.Documented

/-!
# Corrupted frames

A frame with a CRC that was accepted is not accepted any more once one or two adjacent bytes of
what the CRC covers after the length have changed, or one byte of the checksum and the CRC
(`corrupted_refused`).  Positions are those of the logical bytes, header and body in a row: the
separators are the first two, and the data begin at the eleventh.
-/

namespace HaierProtocol
namespace HaierFrame

/-- The two words are the same but for what stands at `places`. -/
def AgreeOff (places : Nat → Prop) (word word' : List UInt8) : Prop :=
  word'.length = word.length ∧ ∀ j, ¬ places j → word'[j]? = word[j]?

/-- The places of one corruption: two adjacent ones from the flags through the data, or one of the
checksum and the CRC. -/
def Corruptible (header : List UInt8) (places : Nat → Prop) : Prop :=
  (∃ i, 3 ≤ i ∧ i + 1 < 10 + payloadSize header ∧ places = fun j => j = i ∨ j = i + 1) ∨
    ∃ i, 10 + payloadSize header ≤ i ∧ i < 13 + payloadSize header ∧ places = fun j => j = i

/-- A corruption of a frame that keeps the CRC flag.  The length stands at no corruptible place. -/
structure Corrupted (header body header' body' : List UInt8) : Prop where
  length : header'.length = 10
  flag : flagged header' = true
  changed : header' ++ body' ≠ header ++ body
  places : ∃ places, Corruptible header places ∧ AgreeOff places (header ++ body) (header' ++ body')

/-! ## Words that agree but for a few places -/

theorem take_eq_of_agree {l m : List UInt8} {k : Nat} (h : ∀ j, j < k → l[j]? = m[j]?) :
    l.take k = m.take k := by
  refine List.ext_getElem? (fun j => ?_)
  rw [List.getElem?_take, List.getElem?_take]
  by_cases hj : j < k
  · rw [if_pos hj, if_pos hj, h j hj]
  · rw [if_neg hj, if_neg hj]

theorem drop_eq_of_agree {l m : List UInt8} {k : Nat} (h : ∀ j, k ≤ j → l[j]? = m[j]?) :
    l.drop k = m.drop k := by
  refine List.ext_getElem? (fun j => ?_)
  rw [List.getElem?_drop, List.getElem?_drop, h (k + j) (Nat.le_add_right k j)]

/-- Words that agree off two adjacent places and have the same CRC are the same. -/
theorem eq_of_crc16_eq {l m : List UInt8} {i : Nat} {v : UInt16}
    (h : AgreeOff (fun j => j = i ∨ j = i + 1) l m) (hcrc : crc16 m v = crc16 l v) : m = l := by
  have hbefore : m.take i = l.take i := take_eq_of_agree fun j hj => h.2 j (by omega)
  have hafter : (m.drop i).drop 2 = (l.drop i).drop 2 := by
    rw [List.drop_drop, List.drop_drop]
    exact drop_eq_of_agree fun j hj => h.2 j (by omega)
  have hsplit : ∀ w : List UInt8, w = w.take i ++ ((w.drop i).take 2 ++ (w.drop i).drop 2) := by
    intro w
    rw [List.take_append_drop, List.take_append_drop]
  have hlen : ((m.drop i).take 2).length = ((l.drop i).take 2).length := by
    rw [List.length_take, List.length_take, List.length_drop, List.length_drop, h.1]
  rw [hsplit m, hsplit l, hbefore, hafter, crc16_append, crc16_append, crc16_append, crc16_append]
    at hcrc
  have hmiddle := crc16_burst hlen (List.length_take_le 2 _) (crc16_injective hcrc)
  rw [hsplit m, hsplit l, hbefore, hafter, hmiddle]

theorem getElem?_eq_of_getD {l m : List UInt8} {i : Nat} (hlen : m.length = l.length)
    (hi : i < l.length) (h : m.getD i 0 = l.getD i 0) : m[i]? = l[i]? := by
  have hi' : i < m.length := hlen ▸ hi
  rw [List.getD_eq_getElem _ _ hi, List.getD_eq_getElem _ _ hi'] at h
  rw [List.getElem?_eq_getElem hi, List.getElem?_eq_getElem hi', h]

theorem getD_eq_of_getElem? {l m : List UInt8} {i : Nat} (h : m[i]? = l[i]?) :
    m.getD i 0 = l.getD i 0 := by
  rw [List.getD_eq_getElem?_getD, List.getD_eq_getElem?_getD, h]

/-! ## A frame as one word -/

section Word

variable {header : List UInt8} (hlen : header.length = 10) (body : List UInt8)
include hlen

theorem getD_word (i : Nat) : body.getD i 0 = (header ++ body).getD (10 + i) 0 := by
  rw [List.getD_append_right _ _ _ _ (by omega), hlen, Nat.add_sub_cancel_left]

theorem covered_word :
    covered header body = ((header ++ body).drop 2).take (8 + payloadSize header) := by
  have hdrop : (header.drop 2).length = 8 := by
    rw [List.length_drop, hlen]
  rw [covered, List.drop_append_of_le_length (by omega), List.take_append,
    List.take_of_length_le (show (header.drop 2).length ≤ 8 + payloadSize header by omega), hdrop,
    Nat.add_sub_cancel_left]

/-- What the CRC of an accepted frame says of the word. -/
theorem crc_word (hflag : flagged header = true) (h : Accepted header body) :
    bigEndian ((header ++ body).getD (10 + (payloadSize header + 1)) 0)
        ((header ++ body).getD (10 + (payloadSize header + 2)) 0) =
      crc16 (((header ++ body).drop 2).take (8 + payloadSize header)) 0 := by
  have hcrc := (crcFits_iff h.admitted body).mp h.crc hflag
  rwa [getD_word hlen body (payloadSize header + 1), getD_word hlen body (payloadSize header + 2),
    covered_word hlen, ← crc16_eq] at hcrc

/-- What the checksum of an accepted frame says of the word. -/
theorem sum_word (h : Accepted header body) :
    (header ++ body).getD (10 + payloadSize header) 0 =
      documentedSum header body - UInt8.ofNat (uncounted header) * 0x55 := by
  have hsum := (sumFits_iff hlen h.admitted body).mp h.sum
  rwa [getD_word hlen] at hsum

end Word

theorem bigEndian_injective {high low high' low' : UInt8}
    (h : bigEndian high low = bigEndian high' low') : high = high' ∧ low = low' := by
  have hnat := congrArg UInt16.toNat h
  have h8 : 2 ^ ((8 : UInt16).toNat % 16) = 256 := rfl
  simp only [bigEndian, UInt16.toNat_add, UInt16.toNat_shiftLeft, UInt8.toNat_toUInt16,
    Nat.shiftLeft_eq, h8] at hnat
  have h1 := high.toNat_lt
  have h2 := low.toNat_lt
  have h3 := high'.toNat_lt
  have h4 := low'.toNat_lt
  exact ⟨UInt8.toNat_inj.mp (by omega), UInt8.toNat_inj.mp (by omega)⟩

theorem getElem?_window (word : List UInt8) (k j : Nat) :
    ((word.drop 2).take k)[j]? = if j < k then word[2 + j]? else none := by
  rw [List.getElem?_take, List.getElem?_drop]

theorem agreeOff_window {i k : Nat} {word word' : List UInt8} (hi : 2 ≤ i)
    (h : AgreeOff (fun j => j = i ∨ j = i + 1) word word') :
    AgreeOff (fun j => j = i - 2 ∨ j = i - 2 + 1) ((word.drop 2).take k)
      ((word'.drop 2).take k) := by
  constructor
  · rw [List.length_take, List.length_take, List.length_drop, List.length_drop, h.1]
  · intro j hj
    rw [getElem?_window, getElem?_window, h.2 (2 + j) (by omega)]

theorem eq_of_burst {header body header' body' : List UInt8} {i : Nat}
    (hlen : header.length = 10) (hlen' : header'.length = 10)
    (hflag : flagged header = true) (hflag' : flagged header' = true)
    (h : Accepted header body) (h' : Accepted header' body')
    (hsize : payloadSize header' = payloadSize header)
    (hi : 3 ≤ i) (hi' : i + 1 < 10 + payloadSize header)
    (hagree : AgreeOff (fun j => j = i ∨ j = i + 1) (header ++ body) (header' ++ body')) :
    header' ++ body' = header ++ body := by
  have hcrc := crc_word hlen body hflag h
  have hcrc' := crc_word hlen' body' hflag' h'
  rw [hsize, getD_eq_of_getElem? (hagree.2 (10 + (payloadSize header + 1)) (by omega)),
    getD_eq_of_getElem? (hagree.2 (10 + (payloadSize header + 2)) (by omega)), hcrc] at hcrc'
  have hwindow := eq_of_crc16_eq (agreeOff_window (by omega) hagree) hcrc'.symm
  refine List.ext_getElem? (fun j => ?_)
  by_cases hj : j = i ∨ j = i + 1
  · have hget := congrArg (fun l => l[j - 2]?) hwindow
    have hj2 : 2 + (j - 2) = j := by omega
    simp only [getElem?_window, hj2, if_pos (show j - 2 < 8 + payloadSize header by omega)] at hget
    exact hget
  · exact hagree.2 j hj

theorem eq_of_trailer {header body header' body' : List UInt8} {i : Nat}
    (hlen : header.length = 10) (hlen' : header'.length = 10)
    (hflag : flagged header = true)
    (h : Accepted header body) (h' : Accepted header' body')
    (hi : 10 + payloadSize header ≤ i) (hi' : i < 13 + payloadSize header)
    (hagree : AgreeOff (fun j => j = i) (header ++ body) (header' ++ body')) :
    header' ++ body' = header ++ body := by
  have hheader : header' = header := by
    have htake : (header' ++ body').take 10 = (header ++ body).take 10 :=
      take_eq_of_agree fun j hj => hagree.2 j (by omega)
    rwa [List.take_left' hlen', List.take_left' hlen] at htake
  rw [hheader] at hagree h' ⊢
  have hcovered : covered header body' = covered header body := by
    rw [covered_word hlen, covered_word hlen]
    refine List.ext_getElem? (fun j => ?_)
    rw [getElem?_window, getElem?_window]
    by_cases hj : j < 8 + payloadSize header
    · rw [if_pos hj, if_pos hj, hagree.2 (2 + j) (by omega)]
    · rw [if_neg hj, if_neg hj]
  have hsum : (header ++ body').getD (10 + payloadSize header) 0 =
      (header ++ body).getD (10 + payloadSize header) 0 := by
    rw [sum_word hlen body' h', sum_word hlen body h, documentedSum, hcovered]
    rfl
  have hcrc : bigEndian ((header ++ body').getD (10 + (payloadSize header + 1)) 0)
        ((header ++ body').getD (10 + (payloadSize header + 2)) 0) =
      bigEndian ((header ++ body).getD (10 + (payloadSize header + 1)) 0)
        ((header ++ body).getD (10 + (payloadSize header + 2)) 0) := by
    rw [crc_word hlen body' hflag h', crc_word hlen body hflag h, ← covered_word hlen,
      ← covered_word hlen, hcovered]
  obtain ⟨hhigh, hlow⟩ := bigEndian_injective hcrc
  have hin : i < (header ++ body).length := by
    have hsize := h.size
    rw [bodySize_between h.admitted, hflag, if_pos rfl] at hsize
    rw [List.length_append, hlen]
    omega
  refine List.ext_getElem? (fun j => ?_)
  by_cases hj : j = i
  · refine getElem?_eq_of_getD hagree.1 (hj ▸ hin) ?_
    have hplace : j = 10 + payloadSize header ∨ j = 10 + (payloadSize header + 1) ∨
        j = 10 + (payloadSize header + 2) := by omega
    rcases hplace with hplace | hplace | hplace
    · rw [hplace, hsum]
    · rw [hplace, hhigh]
    · rw [hplace, hlow]
  · exact hagree.2 j hj

/-- No corruption of an accepted frame is accepted. -/
theorem corrupted_refused {header body header' body' : List UInt8} (hlen : header.length = 10)
    (hcomplete : (parseTwice header body).2 = .completeFrame) (hflag : flagged header = true)
    (hcorrupted : Corrupted header body header' body') :
    (parseTwice header' body').2 ≠ .completeFrame := by
  intro hcomplete'
  have hlen' := hcorrupted.length
  have h := (parseTwice_complete_iff hlen body).mp hcomplete
  have h' := (parseTwice_complete_iff hlen' body').mp hcomplete'
  obtain ⟨places, hplaces, hagree⟩ := hcorrupted.places
  refine hcorrupted.changed ?_
  rcases hplaces with ⟨i, hi, hi', rfl⟩ | ⟨i, hi, hi', rfl⟩
  · have hsize : payloadSize header' = payloadSize header := by
      have hget := getD_eq_of_getElem? (hagree.2 2 (by omega))
      rw [List.getD_append _ _ _ _ (by omega), List.getD_append _ _ _ _ (by omega)] at hget
      rw [payloadSize, hget, payloadSize]
    exact eq_of_burst hlen hlen' hflag hcorrupted.flag h h' hsize hi hi' hagree
  · exact eq_of_trailer hlen hlen' hflag h h' hi hi' hagree

/-- A header with the CRC flag, for one byte of data. -/
def flaggedHeader : List UInt8 := [0xFF, 0xFF, 0x09, 0x40, 0x00, 0x00, 0x00, 0x00, 0x00, 0x01]

/-- The frame type and the data changed together, on the two sides of the split. -/
theorem corrupted_refused_split :
    (parseTwice (flaggedHeader.set 9 0x02) [0x06, 0x51, 0x32, 0x2E]).2 ≠ .completeFrame := by
  have hcomplete : (parseTwice flaggedHeader [0x07, 0x51, 0x32, 0x2E]).2 = .completeFrame := by
    decide +kernel
  refine corrupted_refused rfl hcomplete (by decide) ⟨rfl, by decide, by decide, _,
    Or.inl ⟨9, by decide, by decide, rfl⟩, rfl, fun j hj => ?_⟩
  have hset : flaggedHeader.set 9 0x02 ++ [0x06, 0x51, 0x32, 0x2E] =
      ((flaggedHeader ++ [0x07, 0x51, 0x32, 0x2E]).set 9 0x02).set 10 0x06 := rfl
  rw [hset, List.getElem?_set_ne (by omega), List.getElem?_set_ne (by omega)]

end HaierFrame
end HaierProtocol
