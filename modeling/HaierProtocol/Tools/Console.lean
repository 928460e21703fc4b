import HaierProtocol.Lib.KeyValue
import HaierProtocol.Tools.Smartair2SimControl
import Mathlib.Data.List.DropRight

/-!
# The console and the control file

`haier_v1_console.py` writes the control file from the fields of a form and reads it back with
Python's treatment of lines; the simulator reads it with `read_cfg`.  Both see what the console has
reported exactly for values without a line break that do not end in a blank.
-/

namespace HaierProtocol.Smartair2.Console

open KeyValue

def defaultEntries : List (String × String) := [
  ("power", "1"),
  ("mode", "cool"),
  ("fan_mode", "auto"),
  ("target_temperature", "16"),
  ("room_temperature", "20"),
  ("humidity", "45"),
  ("ambient_temperature", "28"),
  ("room_drift_temperature", "28"),
  ("dynamics", "1"),
  ("seconds_to_target", "60"),
  ("hold_seconds", "20"),
  ("drift_delta", "1"),
  ("drift_seconds", "40"),
  ("hysteresis", "0.7"),
  ("passive_seconds_per_degree", "70"),
  ("swing_mode", "off"),
  ("turbo_mode", "0"),
  ("quiet_mode", "0"),
  ("display_status", "0")]

theorem nodup_defaultEntries : (defaultEntries.map Prod.fst).Nodup := by decide +kernel

def defaults : Dict String String := ⟨defaultEntries, nodup_defaultEntries⟩

/-! ## Python's text -/

/-- The characters that `str.strip` removes. -/
def isspace (c : Char) : Bool :=
  let n := c.toNat
  (0x9 ≤ n && n ≤ 0xD) || (0x1C ≤ n && n ≤ 0x20) || n == 0x85 || n == 0xA0 || n == 0x1680 ||
    (0x2000 ≤ n && n ≤ 0x200A) || n == 0x2028 || n == 0x2029 || n == 0x202F || n == 0x205F ||
    n == 0x3000

def strip (line : List Char) : List Char := (line.dropWhile isspace).rdropWhile isspace

/-- The text of a file opened for reading: every kind of line break is a newline. -/
def universalNewlines : List Char → List Char
  | [] => []
  | '\r' :: '\n' :: text => '\n' :: universalNewlines text
  | '\r' :: text => '\n' :: universalNewlines text
  | c :: text => c :: universalNewlines text

/-! ## The console -/

/-- The key and the value of a line that `read_control` does not skip. -/
def lineEntry (line : List Char) : Option (String × String) :=
  let line := strip line
  if line.isEmpty || line.head? == some '#' || !line.contains '=' then none
  else
    let (k, rest) := line.span (· != '=')
    some (String.ofList k, String.ofList rest.tail)

def readLines (content : String) (cfg : Dict String String) : Dict String String :=
  ((universalNewlines content.toList).splitOn '\n').foldl (fun cfg line =>
    match lineEntry line with
    | some (k, v) => if k ∈ defaults.keys then cfg.set k v else cfg
    | none => cfg) cfg

def readControl (file : Option String) : Dict String String :=
  match file with
  | some content => readLines content defaults
  | none => defaults

def outLine (k v : String) : List Char := k.toList ++ '=' :: v.toList ++ ['\n']

/-- The configuration that is returned and the file that is written. -/
def writeControl (cfg : Dict String String) : Dict String String × String :=
  let merged := defaults.assignAll (cfg.collect (· ∈ defaults.keys) id).entries
  (merged, String.ofList (defaults.keys.flatMap fun k => outLine k ((merged.get? k).getD "")))

/-- The fields of a form as `parse_qs` returns them: every key with the values it was sent with. -/
abbrev Fields := Dict String {vs : List String // vs ≠ []}

/-- The configuration that `do_POST` takes from the form. -/
def posted (fields : Fields) : Dict String String :=
  fields.collect (· ∈ defaults.keys) fun vs => vs.1.getLast vs.2

def doPost (fields : Fields) : Dict String String × String := writeControl (posted fields)

/-- The console and the simulator find in the file what the console has reported. -/
structure Agree (merged : Dict String String) (file : String) : Prop where
  console : readControl (some file) = merged
  simulator : ∀ k ∈ defaults.keys, ∃ v, merged.get? k = some v ∧ (readCfg file).lookup k = some v

/-- A value that stays as it is on a line of the file. -/
def Plain (v : String) : Prop :=
  '\n' ∉ v.toList ∧ '\r' ∉ v.toList ∧ v.toList.getLast?.any isspace = false

instance (v : String) : Decidable (Plain v) :=
  inferInstanceAs (Decidable ('\n' ∉ v.toList ∧ '\r' ∉ v.toList ∧
    v.toList.getLast?.any isspace = false))

theorem plain_defaults : ∀ v ∈ defaults.values, Plain v := by decide +kernel

/-- A key that stays as it is in front of the separator. -/
structure IsKey (k : List Char) : Prop where
  head : ∃ c ∈ k.head?, isspace c = false ∧ c ≠ '#'
  equals : '=' ∉ k
  newline : '\n' ∉ k
  carriage : '\r' ∉ k

theorem isKey_defaults : ∀ k ∈ defaults.keys, IsKey k.toList := by
  have h : ∀ k ∈ defaults.keys, (k.toList.head?.any fun c => !isspace c && c != '#') = true ∧
      '=' ∉ k.toList ∧ '\n' ∉ k.toList ∧ '\r' ∉ k.toList := by decide +kernel
  intro k hk
  obtain ⟨hhead, hequals, hnewline, hcarriage⟩ := h k hk
  refine ⟨?_, hequals, hnewline, hcarriage⟩
  simpa [Option.any_eq_true] using hhead

/-! ## One line -/

variable {k v : String} {line : List Char}

theorem strip_eq_self (hhead : ∃ c ∈ line.head?, isspace c = false)
    (hlast : ∃ c ∈ line.getLast?, isspace c = false) : strip line = line := by
  obtain ⟨c, hc, hspace⟩ := hhead
  obtain ⟨rest, rfl⟩ : ∃ rest, line = c :: rest := List.head?_eq_some_iff.mp hc
  obtain ⟨last, hmem, hlast⟩ := hlast
  rw [strip, List.dropWhile_cons_of_neg (by simp [hspace]), List.rdropWhile_eq_self_iff]
  intro hne
  rw [List.getLast?_eq_some_getLast hne] at hmem
  rw [Option.some.inj hmem, hlast]
  exact Bool.false_ne_true

theorem head?_text (hk : IsKey k.toList) (rest : List Char) :
    ∃ c ∈ (k.toList ++ rest).head?, isspace c = false ∧ c ≠ '#' := by
  obtain ⟨c, hc, hok⟩ := hk.head
  refine ⟨c, ?_, hok⟩
  rw [List.head?_append, Option.mem_def.mp hc]
  rfl

theorem readLine_text (hk : IsKey k.toList) (v : String) :
    readLine (k.toList ++ '=' :: v.toList) = some (k, v) := by
  obtain ⟨c, hc, -, hcomment⟩ := head?_text hk ('=' :: v.toList)
  rw [readLine, if_neg (by simp [Option.mem_def.mp hc, hcomment]), span_entry hk.equals]
  simp

theorem lineEntry_text (hk : IsKey k.toList) (hv : Plain v) :
    lineEntry (k.toList ++ '=' :: v.toList) = some (k, v) := by
  obtain ⟨c, hc, hspace, hcomment⟩ := head?_text hk ('=' :: v.toList)
  have hlast : ∃ c ∈ (k.toList ++ '=' :: v.toList).getLast?, isspace c = false := by
    rw [List.getLast?_append_cons, List.getLast?_cons]
    cases hlast : v.toList.getLast? with
    | none => exact ⟨'=', rfl, by decide⟩
    | some last =>
      have hspace := hv.2.2
      rw [hlast] at hspace
      exact ⟨last, rfl, hspace⟩
  have hstrip : strip (k.toList ++ '=' :: v.toList) = k.toList ++ '=' :: v.toList :=
    strip_eq_self ⟨c, hc, hspace⟩ hlast
  rw [lineEntry, hstrip, if_neg (by simp [Option.mem_def.mp hc, hcomment]), span_entry hk.equals]
  simp

/-- The console finds only plain values. -/
theorem plain_of_lineEntry (h : lineEntry line = some (k, v)) (hnewline : '\n' ∉ line)
    (hcarriage : '\r' ∉ line) : Plain v := by
  have hsuffix : v.toList <:+ strip line := by
    simp only [lineEntry] at h
    split at h
    · cases h
    · obtain ⟨-, rfl⟩ := Prod.ext_iff.mp (Option.some.inj h)
      rw [String.toList_ofList]
      exact (List.tail_suffix _).trans (span_suffix _)
  have hmem : ∀ c ∈ v.toList, c ∈ line := fun c hc =>
    (List.dropWhile_suffix _).subset ((List.rdropWhile_prefix _ _).subset (hsuffix.subset hc))
  refine ⟨fun hc => hnewline (hmem _ hc), fun hc => hcarriage (hmem _ hc), ?_⟩
  cases hlast : v.toList.getLast? with
  | none => rfl
  | some c =>
    have hstrip : (strip line).getLast? = some c := by
      obtain ⟨before, hbefore⟩ := hsuffix
      rw [← hbefore, List.getLast?_append, hlast]
      rfl
    have hne : strip line ≠ [] := fun hnil => by simp [hnil] at hstrip
    rw [List.getLast?_eq_some_getLast hne] at hstrip
    rw [← Option.some.inj hstrip]
    exact Bool.eq_false_iff.mpr (List.rdropWhile_last_not isspace (line.dropWhile isspace) hne)

/-! ## The whole file -/

theorem universalNewlines_eq_self {text : List Char} (h : '\r' ∉ text) :
    universalNewlines text = text := by
  fun_induction universalNewlines text with
  | case1 => rfl
  | case2 text ih => simp at h
  | case3 text hnext ih => simp at h
  | case4 c text hnext hc ih => rw [ih fun hmem => h (List.mem_cons_of_mem c hmem)]

theorem carriage_notMem (text : List Char) : '\r' ∉ universalNewlines text := by
  fun_induction universalNewlines text with
  | case1 => simp
  | case2 text ih => simpa using ih
  | case3 text hnext ih => simpa using ih
  | case4 c text hnext hc ih =>
    intro hmem
    obtain rfl | hmem := List.mem_cons.mp hmem
    · exact hc rfl
    · exact ih hmem

theorem readCfg_eq (content : String) :
    readCfg content = ((content.toList.splitOn '\n').filterMap readLine).reverse := by
  rw [readCfg, ← List.append_nil (List.reverse _)]
  generalize ([] : Cfg) = result
  induction content.toList.splitOn '\n' generalizing result with
  | nil => rfl
  | cons line lines ih =>
    rw [List.foldl_cons, ih]
    cases hentry : readLine line with
    | none => rw [List.filterMap_cons_none hentry]
    | some e =>
      rw [List.filterMap_cons_some hentry, List.reverse_cons, List.append_assoc]
      rfl

theorem readLines_eq (content : String) (cfg : Dict String String) :
    readLines content cfg = cfg.assignAll
      ((((universalNewlines content.toList).splitOn '\n').filterMap lineEntry).filter
        (·.1 ∈ defaults.keys)) := by
  rw [readLines]
  induction (universalNewlines content.toList).splitOn '\n' generalizing cfg with
  | nil => rfl
  | cons line lines ih =>
    rw [List.foldl_cons, ih]
    cases hentry : lineEntry line with
    | none => rw [List.filterMap_cons_none hentry]
    | some e =>
      rw [List.filterMap_cons_some hentry]
      by_cases hk : e.1 ∈ defaults.keys
      · simp only [hk, if_true, decide_true, List.filter_cons_of_pos]
        rfl
      · simp only [hk, if_false, decide_false, Bool.false_eq_true, not_false_eq_true,
          List.filter_cons_of_neg]

/-- Whatever the file holds, the console reads plain values. -/
theorem plain_readControl (file : Option String) : ∀ v ∈ (readControl file).values, Plain v := by
  cases file with
  | none => exact plain_defaults
  | some content =>
    show ∀ v ∈ (readLines content defaults).values, Plain v
    rw [readLines_eq]
    refine Dict.values_assignAll plain_defaults fun e he => ?_
    obtain ⟨line, hline, hentry⟩ := List.mem_filterMap.mp (List.mem_filter.mp he).1
    obtain ⟨hnewline, hsubset⟩ := mem_splitOn hline
    exact plain_of_lineEntry hentry hnewline fun hc => carriage_notMem _ (hsubset hc)

/-! ## What is written -/

/-- The lines of a configuration, without their breaks. -/
def linesOf (merged : Dict String String) : List (List Char) :=
  merged.entries.map fun e => e.1.toList ++ '=' :: e.2.toList

section Written

variable {merged : Dict String String} {content : String}

theorem written_eq (hkeys : merged.keys = defaults.keys) :
    (defaults.keys.flatMap fun k => outLine k ((merged.get? k).getD "")) =
      (linesOf merged).flatMap (· ++ ['\n']) := by
  have hentries := Dict.map_keys_get? (d := merged) ""
  rw [hkeys] at hentries
  rw [linesOf, ← hentries, List.map_map, List.flatMap_map]
  refine List.flatMap_congr fun k hk => ?_
  simp [outLine]

theorem mem_linesOf (hkeys : merged.keys = defaults.keys) (hplain : ∀ v ∈ merged.values, Plain v)
    {line : List Char} (hline : line ∈ linesOf merged) : '\n' ∉ line ∧ '\r' ∉ line := by
  obtain ⟨e, he, rfl⟩ := List.mem_map.mp hline
  have hk : IsKey e.1.toList := isKey_defaults e.1 (hkeys ▸ List.mem_map_of_mem he)
  obtain ⟨hnewline, hcarriage, -⟩ := hplain e.2 (List.mem_map_of_mem he)
  constructor
  · simp [hk.newline, hnewline]
  · simp [hk.carriage, hcarriage]

/-- The entries of the lines, for a reader of lines that finds each of them again. -/
theorem filterMap_linesOf {read : List Char → Option (String × String)} (hnil : read [] = none)
    (h : ∀ e ∈ merged.entries, read (e.1.toList ++ '=' :: e.2.toList) = some e) :
    (linesOf merged ++ [[]]).filterMap read = merged.entries := by
  rw [List.filterMap_append, List.filterMap_cons_none hnil, List.filterMap_nil, List.append_nil,
    linesOf, List.filterMap_map]
  exact (List.filterMap_congr h).trans List.filterMap_some

/-- With plain values, both readers find what was written. -/
theorem agree_of_plain (hkeys : merged.keys = defaults.keys)
    (hplain : ∀ v ∈ merged.values, Plain v)
    (hcontent : content.toList = (linesOf merged).flatMap (· ++ ['\n'])) :
    Agree merged content := by
  have hsplit : ((linesOf merged).flatMap (· ++ ['\n'])).splitOn '\n' = linesOf merged ++ [[]] :=
    splitOn_lines fun line hline => (mem_linesOf hkeys hplain hline).1
  have hcarriage : '\r' ∉ (linesOf merged).flatMap (· ++ ['\n']) := by
    intro hmem
    obtain ⟨line, hline, hmem⟩ := List.mem_flatMap.mp hmem
    simp [(mem_linesOf hkeys hplain hline).2] at hmem
  have hkey : ∀ e ∈ merged.entries, IsKey e.1.toList := fun e he =>
    isKey_defaults e.1 (hkeys ▸ List.mem_map_of_mem he)
  have hvalue : ∀ e ∈ merged.entries, Plain e.2 := fun e he => hplain e.2 (List.mem_map_of_mem he)
  constructor
  · have hentries : (linesOf merged ++ [[]]).filterMap lineEntry = merged.entries :=
      filterMap_linesOf (by decide) fun e he => lineEntry_text (hkey e he) (hvalue e he)
    have hknown : merged.entries.filter (·.1 ∈ defaults.keys) = merged.entries :=
      List.filter_eq_self.mpr fun e he => decide_eq_true (hkeys ▸ List.mem_map_of_mem he)
    show readLines content defaults = merged
    rw [readLines_eq, hcontent, universalNewlines_eq_self hcarriage, hsplit, hentries, hknown]
    exact Dict.assignAll_entries hkeys
  · intro k hk
    have hentries : (linesOf merged ++ [[]]).filterMap readLine = merged.entries :=
      filterMap_linesOf (by decide) fun e he => readLine_text (hkey e he) e.2
    obtain ⟨v, hv⟩ := Dict.exists_get? (d := merged) (hkeys ▸ hk)
    refine ⟨v, hv, ?_⟩
    rw [readCfg_eq, hcontent, hsplit, hentries, Dict.lookup_reverse, hv]

end Written

theorem keys_writeControl (cfg : Dict String String) :
    (writeControl cfg).1.keys = defaults.keys :=
  Dict.keys_assignAll fun e he => by
    simpa using Dict.mem_keys_collect (List.mem_map_of_mem he)

theorem get?_writeControl (cfg : Dict String String) {k : String} (hk : k ∈ defaults.keys) :
    (writeControl cfg).1.get? k = (cfg.get? k).or (defaults.get? k) := by
  show (defaults.assignAll _).get? k = _
  rw [Dict.get?_assignAll, Dict.lookup_reverse, Dict.get?_collect (by simpa using hk),
    Option.map_id, id_eq]

/-- The readers agree with the console exactly if the last value of every known key is plain. -/
theorem doPost_agree_iff (fields : Fields) :
    Agree (doPost fields).1 (doPost fields).2 ↔
      ∀ k ∈ defaults.keys, ∀ vs, fields.get? k = some vs → Plain (vs.1.getLast vs.2) := by
  have hkeys : (doPost fields).1.keys = defaults.keys := keys_writeControl _
  have hget : ∀ k ∈ defaults.keys, (doPost fields).1.get? k =
      ((fields.get? k).map fun vs => vs.1.getLast vs.2).or (defaults.get? k) := by
    intro k hk
    rw [doPost, get?_writeControl _ hk, posted, Dict.get?_collect (by simpa using hk)]
  constructor
  · intro hagree k hk vs hvs
    refine plain_readControl (some (doPost fields).2) _ ?_
    rw [hagree.console, Dict.mem_values]
    exact ⟨k, by rw [hget k hk, hvs]; rfl⟩
  · intro hplain
    refine agree_of_plain hkeys (fun v hv => ?_) ?_
    · obtain ⟨k, hv⟩ := Dict.mem_values.mp hv
      have hk : k ∈ defaults.keys := hkeys ▸ List.mem_map_of_mem (Dict.get?_eq_some_iff.mp hv)
      rw [hget k hk] at hv
      cases hvs : fields.get? k with
      | some vs =>
        rw [hvs] at hv
        exact Option.some.inj hv ▸ hplain k hk vs hvs
      | none =>
        rw [hvs] at hv
        exact plain_defaults v (Dict.mem_values.mpr ⟨k, hv⟩)
    · exact (String.toList_ofList ..).trans (written_eq hkeys)

/-- A line break in the mode switches the unit off. -/
theorem mode_switchesOff :
    let fields : Fields := ⟨[("mode", ⟨["cool\npower=0"], List.cons_ne_nil _ _⟩)], by simp⟩
    (doPost fields).1.get? "power" = some "1" ∧
      (readControl (some (doPost fields).2)).get? "power" = some "0" ∧
      (readCfg (doPost fields).2).lookup "power" = some "0" ∧
      ¬Agree (doPost fields).1 (doPost fields).2 := by
  intro fields
  have htext : (doPost fields).2.toList =
      (linesOf (doPost fields).1).flatMap (· ++ ['\n']) :=
    (String.toList_ofList ..).trans (written_eq (keys_writeControl _))
  have hreported : (doPost fields).1.get? "power" = some "1" := by decide +kernel
  have hconsole : (readControl (some (doPost fields).2)).get? "power" = some "0" := by
    show (readLines (doPost fields).2 defaults).get? "power" = some "0"
    rw [readLines_eq, htext]
    decide +kernel
  have hsimulator : (readCfg (doPost fields).2).lookup "power" = some "0" := by
    rw [readCfg_eq, htext]
    decide +kernel
  refine ⟨hreported, hconsole, hsimulator, fun hagree => ?_⟩
  rw [hagree.console, hreported] at hconsole
  exact absurd hconsole (by decide)

end HaierProtocol.Smartair2.Console
