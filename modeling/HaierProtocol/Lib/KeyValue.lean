import Mathlib.Data.List.Nodup
import Mathlib.Data.List.TakeDrop

/-!
# Dictionaries and their text

A dictionary keeps its entries in the order in which the keys were first assigned.  As text, an
entry is a line: the key, a separator and the value.
-/

namespace KeyValue

/-! ## Dictionaries -/

section Dictionaries

variable {κ ν : Type*} [DecidableEq κ]

theorem lookup_cons_eq_if (k : κ) (e : κ × ν) (es : List (κ × ν)) :
    (e :: es).lookup k = if k = e.1 then some e.2 else es.lookup k := by
  obtain ⟨a, b⟩ := e
  rw [List.lookup_cons]
  by_cases hk : k = a
  · rw [if_pos hk, beq_iff_eq.mpr hk]
  · rw [if_neg hk, beq_false_of_ne hk]

@[ext]
structure Dict (κ ν : Type*) where
  entries : List (κ × ν)
  nodup_keys : (entries.map Prod.fst).Nodup
  deriving DecidableEq

namespace Dict

variable {d d' : Dict κ ν} {k k' : κ} {v : ν} {es : List (κ × ν)}

def keys (d : Dict κ ν) : List κ := d.entries.map Prod.fst

def values (d : Dict κ ν) : List ν := d.entries.map Prod.snd

def get? (d : Dict κ ν) (k : κ) : Option ν := d.entries.lookup k

def setEntries (k : κ) (v : ν) : List (κ × ν) → List (κ × ν)
  | [] => [(k, v)]
  | e :: es => if e.1 = k then (k, v) :: es else e :: setEntries k v es

theorem mem_keys_setEntries :
    k' ∈ (setEntries k v es).map Prod.fst ↔ k' = k ∨ k' ∈ es.map Prod.fst := by
  induction es with
  | nil => simp [setEntries]
  | cons e es ih =>
    by_cases he : e.1 = k
    · simp [setEntries, he]
    · simp only [setEntries, he, if_false, List.map_cons, List.mem_cons, ih]
      exact or_left_comm

theorem nodup_keys_setEntries (h : (es.map Prod.fst).Nodup) :
    ((setEntries k v es).map Prod.fst).Nodup := by
  induction es with
  | nil => simp [setEntries]
  | cons e es ih =>
    obtain ⟨hnotMem, hnodup⟩ := List.nodup_cons.mp h
    by_cases he : e.1 = k
    · rw [setEntries, if_pos he]
      exact List.nodup_cons.mpr ⟨he ▸ hnotMem, hnodup⟩
    · rw [setEntries, if_neg he]
      refine List.nodup_cons.mpr ⟨fun hmem => ?_, ih hnodup⟩
      obtain hk | hmem := mem_keys_setEntries.mp hmem
      · exact he hk
      · exact hnotMem hmem

/-- The assignment `d[k] = v`. -/
def set (d : Dict κ ν) (k : κ) (v : ν) : Dict κ ν where
  entries := setEntries k v d.entries
  nodup_keys := nodup_keys_setEntries d.nodup_keys

/-- The entries assigned one after the other. -/
def assignAll (d : Dict κ ν) (es : List (κ × ν)) : Dict κ ν :=
  es.foldl (fun d e => d.set e.1 e.2) d

/-- The dictionary `{k: f v for k, v in d.items() if p k}`. -/
def collect {μ : Type*} (p : κ → Bool) (f : ν → μ) (d : Dict κ ν) : Dict κ μ where
  entries := (d.entries.filter (p ·.1)).map (Prod.map id f)
  nodup_keys := by
    rw [List.map_map]
    exact d.nodup_keys.sublist (List.filter_sublist.map Prod.fst)

/-! ### Keys -/

theorem keys_set (hmem : k ∈ d.keys) : (d.set k v).keys = d.keys := by
  suffices h : ∀ es : List (κ × ν), k ∈ es.map Prod.fst →
      (setEntries k v es).map Prod.fst = es.map Prod.fst from h d.entries hmem
  intro es hmem
  induction es with
  | nil => cases hmem
  | cons e es ih =>
    by_cases he : e.1 = k
    · simp [setEntries, he]
    · have htail : k ∈ es.map Prod.fst :=
        (List.mem_cons.mp hmem).resolve_left fun hk => he hk.symm
      simp [setEntries, he, ih htail]

theorem keys_assignAll (h : ∀ e ∈ es, e.1 ∈ d.keys) : (d.assignAll es).keys = d.keys := by
  induction es generalizing d with
  | nil => rfl
  | cons e es ih =>
    have hset : (d.set e.1 e.2).keys = d.keys := keys_set (h e List.mem_cons_self)
    show ((d.set e.1 e.2).assignAll es).keys = d.keys
    rw [ih fun e' he' => hset ▸ h e' (List.mem_cons_of_mem _ he'), hset]

/-! ### Values -/

theorem get?_set : (d.set k v).get? k' = if k' = k then some v else d.get? k' := by
  suffices h : ∀ es : List (κ × ν),
      (setEntries k v es).lookup k' = if k' = k then some v else es.lookup k' from h d.entries
  intro es
  induction es with
  | nil => rw [setEntries, lookup_cons_eq_if]
  | cons e es ih =>
    by_cases he : e.1 = k
    · rw [setEntries, if_pos he, lookup_cons_eq_if, lookup_cons_eq_if, he]
      by_cases hk : k' = k <;> simp [hk]
    · rw [setEntries, if_neg he, lookup_cons_eq_if, lookup_cons_eq_if, ih]
      by_cases hk : k' = k
      · rw [if_neg fun h => he (h.symm.trans hk), if_pos hk, if_pos hk]
      · rw [if_neg hk, if_neg hk]

/-- The last assignment of a key is the one that counts. -/
theorem get?_assignAll : (d.assignAll es).get? k = (es.reverse.lookup k).or (d.get? k) := by
  induction es generalizing d with
  | nil => rfl
  | cons e es ih =>
    show ((d.set e.1 e.2).assignAll es).get? k = _
    rw [ih, get?_set, List.reverse_cons, List.lookup_append, Option.or_assoc, lookup_cons_eq_if]
    by_cases hk : k = e.1 <;> simp [hk]

theorem get?_eq_some_iff : d.get? k = some v ↔ (k, v) ∈ d.entries := by
  suffices h : ∀ es : List (κ × ν), (es.map Prod.fst).Nodup →
      (es.lookup k = some v ↔ (k, v) ∈ es) from h d.entries d.nodup_keys
  intro es hnodup
  induction es with
  | nil => simp
  | cons e es ih =>
    obtain ⟨hnotMem, hnodup⟩ := List.nodup_cons.mp hnodup
    rw [lookup_cons_eq_if, List.mem_cons]
    by_cases hk : k = e.1
    · have htail : (k, v) ∉ es := fun hmem => hnotMem (hk ▸ List.mem_map_of_mem hmem)
      simp [hk, Prod.ext_iff, eq_comm, hk ▸ htail]
    · simp [hk, ih hnodup, Prod.ext_iff]

/-- The entries in the other order give the same values. -/
theorem lookup_reverse : d.entries.reverse.lookup k = d.get? k := by
  have hnodup : (d.entries.reverse.map Prod.fst).Nodup := by
    rw [List.map_reverse]
    exact List.nodup_reverse.mpr d.nodup_keys
  ext v
  rw [get?_eq_some_iff, ← List.mem_reverse]
  exact get?_eq_some_iff (d := ⟨d.entries.reverse, hnodup⟩)

theorem exists_get? (hmem : k ∈ d.keys) : ∃ v, d.get? k = some v := by
  obtain ⟨⟨k, v⟩, he, rfl⟩ := List.mem_map.mp hmem
  exact ⟨v, get?_eq_some_iff.mpr he⟩

theorem mem_values : v ∈ d.values ↔ ∃ k, d.get? k = some v := by
  simp [values, get?_eq_some_iff]

theorem ext_get? (hkeys : d.keys = d'.keys) (hget : ∀ k ∈ d.keys, d.get? k = d'.get? k) :
    d = d' := by
  have hentries : ∀ e : κ × ν, e ∈ d.entries → e ∈ d'.entries := by
    intro e he
    have hmem : e.1 ∈ d.keys := List.mem_map_of_mem he
    exact get?_eq_some_iff.mp (hget e.1 hmem ▸ get?_eq_some_iff.mpr he)
  refine Dict.ext (List.ext_getElem (by simpa [keys] using congrArg List.length hkeys) ?_)
  intro i hi hi'
  have hkey : d.entries[i].1 = d'.entries[i].1 := by
    have h := congrArg (fun l => l[i]?) hkeys
    simpa [keys, hi, hi'] using h
  have hvalue : d.get? d.entries[i].1 = some d.entries[i].2 :=
    get?_eq_some_iff.mpr (List.getElem_mem hi)
  have hvalue' : d'.get? d'.entries[i].1 = some d'.entries[i].2 :=
    get?_eq_some_iff.mpr (List.getElem_mem hi')
  rw [hget _ (List.mem_map_of_mem (List.getElem_mem hi)), hkey, hvalue'] at hvalue
  exact Prod.ext hkey (Option.some.inj hvalue).symm

/-- A dictionary assigned over one that has the same keys. -/
theorem assignAll_entries (hkeys : d'.keys = d.keys) : d.assignAll d'.entries = d' := by
  have hmem : ∀ e ∈ d'.entries, e.1 ∈ d.keys := fun e he => hkeys ▸ List.mem_map_of_mem he
  have hassign : (d.assignAll d'.entries).keys = d.keys := keys_assignAll hmem
  refine ext_get? (hassign.trans hkeys.symm) fun k hk => ?_
  obtain ⟨v, hv⟩ := exists_get? (d := d') (hkeys ▸ hassign ▸ hk)
  rw [get?_assignAll, lookup_reverse, hv]
  rfl

theorem get?_collect {μ : Type*} {p : κ → Bool} {f : ν → μ} (hp : p k = true) :
    (d.collect p f).get? k = (d.get? k).map f := by
  ext w
  rw [get?_eq_some_iff, Option.map_eq_some_iff]
  simp [collect, get?_eq_some_iff, hp]

omit [DecidableEq κ] in
theorem mem_keys_collect {μ : Type*} {p : κ → Bool} {f : ν → μ}
    (hmem : k ∈ (d.collect p f).keys) : p k = true := by
  obtain ⟨e, he, rfl⟩ := List.mem_map.mp hmem
  obtain ⟨e', he', rfl⟩ := List.mem_map.mp he
  exact (List.mem_filter.mp he').2

/-- The values looked up key by key are the entries. -/
theorem map_keys_get? (default : ν) :
    d.keys.map (fun k => (k, (d.get? k).getD default)) = d.entries := by
  rw [keys, List.map_map]
  refine (List.map_congr_left fun e he => ?_).trans (List.map_id _)
  rw [Function.comp_apply, get?_eq_some_iff.mpr he]
  rfl

theorem values_assignAll {P : ν → Prop} (hd : ∀ v ∈ d.values, P v) (hes : ∀ e ∈ es, P e.2) :
    ∀ v ∈ (d.assignAll es).values, P v := by
  intro v hv
  obtain ⟨k, hk⟩ := mem_values.mp hv
  rw [get?_assignAll, Option.or_eq_some_iff] at hk
  obtain hk | ⟨-, hk⟩ := hk
  · obtain ⟨before, after, hsplit, -⟩ := List.lookup_eq_some_iff.mp hk
    have hmem : (k, v) ∈ es.reverse := by simp [hsplit]
    exact hes (k, v) (List.mem_reverse.mp hmem)
  · exact hd v (mem_values.mpr ⟨k, hk⟩)

end Dict

end Dictionaries

/-! ## Lines -/

section Lines

variable {α : Type*} [DecidableEq α] {sep brk : α}

/-- A text of lines, each with a break after it, is split into these lines and an empty one. -/
theorem splitOn_lines {lines : List (List α)} (h : ∀ line ∈ lines, brk ∉ line) :
    (lines.flatMap (· ++ [brk])).splitOn brk = lines ++ [[]] := by
  induction lines with
  | nil => rfl
  | cons line lines ih =>
    rw [List.flatMap_cons, List.append_assoc, List.singleton_append,
      List.splitOn_append_cons_self_of_not_mem (h line List.mem_cons_self),
      ih fun l hl => h l (List.mem_cons_of_mem _ hl), List.cons_append]

theorem mem_splitOn {text line : List α} (h : line ∈ text.splitOn brk) :
    brk ∉ line ∧ line ⊆ text := by
  induction text generalizing line with
  | nil =>
    rw [List.splitOn_nil, List.mem_singleton] at h
    simp [h]
  | cons a text ih =>
    rw [List.splitOn_cons_eq_if_modifyHead] at h
    by_cases ha : a = brk
    · rw [if_pos (beq_iff_eq.mpr ha)] at h
      obtain rfl | h := List.mem_cons.mp h
      · simp
      · exact ⟨(ih h).1, List.subset_cons_of_subset a (ih h).2⟩
    · rw [if_neg (by simpa using ha)] at h
      obtain ⟨first, rest, hsplit⟩ := List.exists_cons_of_ne_nil (List.splitOn_ne_nil brk text)
      rw [hsplit] at ih h
      rw [List.modifyHead_cons] at h
      obtain rfl | h := List.mem_cons.mp h
      · obtain ⟨hbrk, hsub⟩ := ih List.mem_cons_self
        exact ⟨by simp [hbrk, Ne.symm ha], List.cons_subset_cons a hsub⟩
      · obtain ⟨hbrk, hsub⟩ := ih (List.mem_cons_of_mem _ h)
        exact ⟨hbrk, List.subset_cons_of_subset a hsub⟩

/-- The key and the separator of a line are found again. -/
theorem span_entry {k : List α} (h : sep ∉ k) (v : List α) :
    (k ++ sep :: v).span (· != sep) = (k, sep :: v) := by
  have hk : ∀ a ∈ k, (a != sep) = true := fun a ha => bne_iff_ne.mpr fun hsep => h (hsep ▸ ha)
  rw [List.span_eq_takeWhile_dropWhile, List.takeWhile_append_of_pos hk,
    List.dropWhile_append_of_pos hk]
  simp

/-- What stands behind the first separator is the end of the line. -/
theorem span_suffix (line : List α) : (line.span (· != sep)).2 <:+ line := by
  rw [List.span_eq_takeWhile_dropWhile]
  exact List.dropWhile_suffix _

end Lines

end KeyValue
