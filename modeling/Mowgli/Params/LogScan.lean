import Mowgli.Params.LogWalk

/-!
# LogScan — the scanner on whatever the flash holds

The walk of `fw_param_log_scan` with every read of the array checked against its length. On no
array does a read fail, and what the walk reports can be appended to.
-/

namespace Mowgli
namespace Log

/-! ## The walk, with checked reads -/

/-- `count` words from `off` on. -/
def slice? (area : List Word) (off count : Nat) : Option (List Word) :=
  (List.range count).mapM fun i => area[off + i]?

def isTornPrefix? (area : List Word) (off : Nat) : Option Bool :=
  if off + HEADER_WORDS > area.length then some false
  else
    area[off]?.bind fun magic =>
      area[off + 1]?.map fun header =>
        (magic = 0xFFFF524D#32 ∧ header = ERASED) ∨
          (magic = MAGIC ∧ (header = ERASED ∨ header = 0xFFFF0001#32))

/-- The CRC word, then what it covers, and the commit word only after a match. -/
def isValid? (area : List Word) (off entries : Nat) : Option Bool :=
  let crcAt := off + HEADER_WORDS + 2 * entries
  area[crcAt]?.bind fun crc =>
    (slice? area off (crcAt - off)).bind fun words =>
      if crc = crc32 words then area[crcAt + 1]?.map fun commit => commit = COMMITTED
      else some false

def parse? (area : List Word) (off : Nat) : Option Parsed :=
  area[off]?.bind fun magic =>
    if magic = ERASED then some .endOfLog
    else if off + HEADER_WORDS > area.length then some .malformed
    else
      area[off + 1]?.bind fun header =>
        (isTornPrefix? area off).bind fun torn =>
          if torn then some .tornPrefix
          else if magic ≠ MAGIC then some .malformed
          else
            let entries := (header >>> 16).toNat
            let words := recordWords entries
            if header = ERASED ∨ (header &&& 0xFFFF#32) ≠ FORMAT ∨ entries > MAX_ENTRIES ∨
                off + words > area.length then some .malformed
            else (isValid? area off entries).map fun valid => .record words valid

/-- The array as an area. -/
def flash (area : List Word) : Flash := fun w => area.getD w ERASED

section Reads

variable {area : List Word} {off words : Nat}

theorem read_flash (h : off < area.length) : area[off]? = some (flash area off) := by
  unfold flash
  rw [List.getD_eq_getElem?_getD, List.getElem?_eq_getElem h]
  rfl

theorem slice?_flash {count : Nat} (h : off + count ≤ area.length) :
    slice? area off count = some (slice (flash area) off count) := by
  have hreads : ∀ is : List Nat, (∀ i ∈ is, off + i < area.length) →
      (is.mapM fun i => area[off + i]?) = some (is.map fun i => flash area (off + i)) := by
    intro is his
    induction is with
    | nil => rfl
    | cons i is ih =>
      rw [List.mapM_cons, read_flash (his i List.mem_cons_self),
        ih fun k hk => his k (List.mem_cons_of_mem i hk)]
      rfl
  refine hreads _ fun i hi => ?_
  have := List.mem_range.1 hi
  omega

theorem isTornPrefix?_flash :
    isTornPrefix? area off = some (isTornPrefix (flash area) off area.length) := by
  have h2 : HEADER_WORDS = 2 := rfl
  unfold isTornPrefix? isTornPrefix
  by_cases h : off + HEADER_WORDS > area.length
  · rw [if_pos h, if_pos h]
  · rw [if_neg h, if_neg h, read_flash (by omega), Option.bind_some, read_flash (by omega)]
    rfl

theorem isValid?_flash {entries : Nat} (h : off + recordWords entries ≤ area.length) :
    isValid? area off entries =
      some (decide (flash area (off + HEADER_WORDS + 2 * entries) =
          crc32 (slice (flash area) off (off + HEADER_WORDS + 2 * entries - off)) ∧
        flash area (off + HEADER_WORDS + 2 * entries + 1) = COMMITTED)) := by
  simp only [recordWords, HEADER_WORDS, TRAILER_WORDS] at h
  have h2 : HEADER_WORDS = 2 := rfl
  unfold isValid?
  dsimp only
  rw [read_flash (by omega), Option.bind_some, slice?_flash (by omega), Option.bind_some]
  by_cases hcrc : flash area (off + HEADER_WORDS + 2 * entries) =
      crc32 (slice (flash area) off (off + HEADER_WORDS + 2 * entries - off))
  · rw [if_pos hcrc, read_flash (by omega), Option.map_some]
    simp only [hcrc, true_and]
  · rw [if_neg hcrc]
    simp only [hcrc, false_and, decide_false]

/-- No read of a round is past the end. -/
theorem parse?_flash (h : off < area.length) :
    parse? area off = some (parseAt (flash area) area.length off) := by
  have h2 : HEADER_WORDS = 2 := rfl
  unfold parse? parseAt
  rw [read_flash h, Option.bind_some]
  dsimp only
  by_cases herased : flash area off = ERASED
  · rw [if_pos herased, if_pos herased]
  rw [if_neg herased, if_neg herased]
  by_cases hheader : off + HEADER_WORDS > area.length
  · rw [if_pos hheader, if_pos hheader]
  rw [if_neg hheader, if_neg hheader, read_flash (by omega), Option.bind_some,
    isTornPrefix?_flash, Option.bind_some]
  by_cases htorn : isTornPrefix (flash area) off area.length = true
  · rw [if_pos htorn, if_pos htorn]
  rw [if_neg htorn, if_neg htorn]
  by_cases hmagic : flash area off ≠ MAGIC
  · rw [if_pos hmagic, if_pos hmagic]
  rw [if_neg hmagic, if_neg hmagic]
  by_cases hbad : flash area (off + 1) = ERASED ∨ flash area (off + 1) &&& 0xFFFF#32 ≠ FORMAT ∨
      (flash area (off + 1) >>> 16).toNat > MAX_ENTRIES ∨
      off + recordWords (flash area (off + 1) >>> 16).toNat > area.length
  · rw [if_pos hbad, if_pos hbad]
  · have hfits : off + recordWords (flash area (off + 1) >>> 16).toNat ≤ area.length := by
      simp only [not_or, Nat.not_lt, gt_iff_lt] at hbad
      exact hbad.2.2.2
    rw [if_neg hbad, if_neg hbad, isValid?_flash hfits, Option.map_some]

theorem parse?_two_lt {valid : Bool} (hoff : off < area.length)
    (h : parse? area off = some (.record words valid)) : 2 < words := by
  rw [parse?_flash hoff] at h
  exact (parseAt_record.1 (Option.some.inj h)).1.two_lt

end Reads

/-- The inner loop: no word is anything but erased, up to the first that is. -/
def erasedFrom? (area : List Word) (w : Nat) : Option Bool :=
  if w < area.length then
    area[w]?.bind fun word => if word ≠ ERASED then some false else erasedFrom? area (w + 1)
  else some true
  termination_by area.length - w

/-- The loop. It has no fuel: every round moves on. -/
def scanFrom? (area : List Word) (off : Nat) (scan : Scan) : Option Scan :=
  if _hoff : off < area.length then
    match _h : parse? area off with
    | none => none
    | some .endOfLog =>
      (erasedFrom? area off).map fun erased =>
        { scan with needsErase := scan.needsErase || !erased, nextFree := off }
    | some .malformed => some { scan with needsErase := true, nextFree := area.length }
    | some .tornPrefix =>
      scanFrom? area (off + HEADER_WORDS) { scan with nextFree := off + HEADER_WORDS }
    | some (.record words true) =>
      scanFrom? area (off + words)
        { scan with lastValid := some off, validRecords := scan.validRecords + 1 }
    | some (.record words false) => scanFrom? area (off + words) scan
  else some { scan with nextFree := area.length }
  termination_by area.length - off
  decreasing_by
  · simp only [HEADER_WORDS]
    omega
  · have := parse?_two_lt _hoff _h
    omega
  · have := parse?_two_lt _hoff _h
    omega

def scan? (area : List Word) : Option Scan :=
  scanFrom? area 0 { lastValid := none, nextFree := 0, validRecords := 0, needsErase := false }

section Scan

variable {area : List Word} {off : Nat}

theorem erasedFrom?_flash :
    ∃ erased, erasedFrom? area off = some erased ∧
      (erased = true ↔ ErasedFrom (flash area) area.length off) := by
  fun_induction erasedFrom? area off with
  | case1 w hw ih =>
    obtain ⟨erased, herased, hiff⟩ := ih
    rw [read_flash hw, Option.bind_some]
    by_cases hword : flash area w = ERASED
    · rw [if_neg (not_not_intro hword)]
      refine ⟨erased, herased, hiff.trans ⟨?_, fun h => h.mono (Nat.le_succ w)⟩⟩
      intro h k hk hlt
      rcases Nat.eq_or_lt_of_le hk with rfl | hk
      · exact hword
      · exact h k hk hlt
    · rw [if_pos hword]
      exact ⟨false, rfl, fun h => absurd h Bool.false_ne_true,
        fun h => absurd (h w (Nat.le_refl w) hw) hword⟩
  | case2 w hw => exact ⟨true, rfl, fun _ k hk hlt => by omega, fun _ => rfl⟩

theorem scanFrom?_flash {fuel : Nat} (hfuel : area.length - off ≤ fuel) (scan : Scan) :
    scanFrom? area off scan = some (scanFrom (flash area) area.length fuel off scan) := by
  induction fuel generalizing off scan with
  | zero =>
    unfold scanFrom?
    rw [dif_neg (by omega)]
    rfl
  | succ fuel ih =>
    unfold scanFrom? scanFrom
    by_cases hoff : off < area.length
    · rw [dif_pos hoff, if_pos hoff]
      have hparse := parse?_flash hoff
      split
      · rename_i heq
        rw [hparse] at heq
        cases heq
      · rename_i heq
        rw [hparse] at heq
        rw [Option.some.inj heq]
        obtain ⟨erased, herased, hiff⟩ := @erasedFrom?_flash area off
        rw [herased, Option.map_some, ← Bool.eq_iff_iff.2 (hiff.trans erasedFrom_iff.symm)]
      · rename_i heq
        rw [hparse] at heq
        rw [Option.some.inj heq]
      · rename_i heq
        rw [hparse] at heq
        rw [Option.some.inj heq]
        exact ih (by simp only [HEADER_WORDS]; omega) _
      · rename_i words heq
        have hlt := parse?_two_lt hoff heq
        rw [hparse] at heq
        rw [Option.some.inj heq]
        exact ih (by omega) _
      · rename_i words heq
        have hlt := parse?_two_lt hoff heq
        rw [hparse] at heq
        rw [Option.some.inj heq]
        exact ih (by omega) _
    · rw [dif_neg hoff, if_neg hoff]

/-- **No read fails**, and without fuel the walk is the same. -/
theorem scan?_flash (area : List Word) : scan? area = some (scan (flash area) area.length) :=
  scanFrom?_flash (Nat.sub_le area.length 0) _

end Scan

/-! ## What a scan promises -/

/-- The array with the words of a record at an offset. -/
def program (area : List Word) (at' : Nat) (record : List Word) : List Word :=
  area.take at' ++ record ++ area.drop (at' + record.length)

/-- A record that is wholly in the array, sealed by its CRC and its commit word. -/
structure Committed (area : List Word) (off : Nat) : Prop where
  magic : flash area off = MAGIC
  format : flash area (off + 1) &&& 0xFFFF#32 = FORMAT
  inside : off + recordWords (entryCount (flash area) off) ≤ area.length
  count : entryCount (flash area) off ≤ MAX_ENTRIES
  sealed : Sealed (flash area) off

section Program

variable {area record : List Word} {at' off : Nat}

theorem program_length (h : at' + record.length ≤ area.length) :
    (program area at' record).length = area.length := by
  unfold program
  rw [List.length_append, List.length_append, List.length_take, List.length_drop]
  omega

theorem flash_program_lt (h : at' + record.length ≤ area.length) (hoff : off < at') :
    flash (program area at' record) off = flash area off := by
  unfold flash program
  rw [List.getD_eq_getElem?_getD, List.getD_eq_getElem?_getD, List.append_assoc,
    List.getElem?_append_left (by rw [List.length_take]; omega), List.getElem?_take_of_lt hoff]

theorem flash_program_record (h : at' + record.length ≤ area.length) :
    Holds (flash (program area at' record)) at' record := by
  intro i w hi
  have hlt : i < record.length := (List.getElem?_eq_some_iff.1 hi).1
  have htake : (area.take at').length = at' := by
    rw [List.length_take]
    omega
  unfold flash program
  rw [List.getD_eq_getElem?_getD, List.append_assoc, List.getElem?_append_right (by omega), htake,
    Nat.add_sub_cancel_left, List.getElem?_append_left hlt, hi]
  rfl

theorem flash_program_ge (h : at' + record.length ≤ area.length)
    (hoff : at' + record.length ≤ off) :
    flash (program area at' record) off = flash area off := by
  have hfront : (area.take at' ++ record).length = at' + record.length := by
    rw [List.length_append, List.length_take]
    omega
  unfold flash program
  rw [List.getD_eq_getElem?_getD, List.getD_eq_getElem?_getD,
    List.getElem?_append_right (by omega), hfront, List.getElem?_drop,
    Nat.add_sub_cancel' hoff]

end Program

/-- What is scanned without a need to erase can be appended to. -/
theorem scan_append {area : List Word} {entries : List Entry} {outWords : Nat}
    {record : List Word} (henc : encode entries outWords = some record)
    (hclean : (scan (flash area) area.length).needsErase = false)
    (hfit : (scan (flash area) area.length).nextFree + record.length ≤ area.length) :
    let sc := scan (flash area) area.length
    scan? (program area sc.nextFree record) =
      some { lastValid := some sc.nextFree, nextFree := sc.nextFree + record.length,
             validRecords := sc.validRecords + 1, needsErase := false } := by
  intro sc
  obtain ⟨off, hwalk, -, -, herased⟩ := scan_walk (flash area) area.length
  obtain ⟨rfl, herased⟩ := herased hclean
  have hlength := program_length hfit
  have hwalk' : Walk (flash (program area sc.nextFree record))
      (program area sc.nextFree record).length sc.nextFree sc.lastValid sc.validRecords := by
    rw [hlength]
    exact hwalk.congr fun w hw => (flash_program_lt hfit hw).symm
  have hparse : parseAt (flash (program area sc.nextFree record))
      (program area sc.nextFree record).length sc.nextFree = .record record.length true := by
    refine parseAt_written henc (flash_program_record hfit) ?_
    rw [hlength]
    exact hfit
  rw [scan?_flash]
  refine congrArg some ((hwalk'.valid hparse).scan_erased ?_)
  intro w hw hlt
  rw [flash_program_ge hfit hw]
  rw [hlength] at hlt
  exact herased w (Nat.le_trans (Nat.le_add_right _ _) hw) hlt

/-- **The scanner is safe on every array.** -/
theorem scanner_safe (area : List Word) :
    ∃ sc, scan? area = some sc ∧ sc.nextFree ≤ area.length ∧
      (∀ off, sc.lastValid = some off → Committed area off) ∧
      (sc.needsErase = false → ∀ w, sc.nextFree ≤ w → w < area.length → area[w]? = some ERASED) ∧
      ∀ entries outWords record, encode entries outWords = some record → sc.needsErase = false →
        sc.nextFree + record.length ≤ area.length →
        scan? (program area sc.nextFree record) =
          some { lastValid := some sc.nextFree, nextFree := sc.nextFree + record.length,
                 validRecords := sc.validRecords + 1, needsErase := false } := by
  obtain ⟨off, hwalk, -, hle, herased⟩ := scan_walk (flash area) area.length
  refine ⟨scan (flash area) area.length, scan?_flash area, hle, ?_, ?_, ?_⟩
  · intro newest hnewest
    obtain ⟨words, hframed, hsealed, -⟩ := hwalk.newest hnewest
    exact ⟨hframed.magic, hframed.format, hframed.length ▸ hframed.fits, hframed.count, hsealed⟩
  · intro hclean w hw hlt
    obtain ⟨rfl, herased⟩ := herased hclean
    rw [read_flash hlt, herased w hw hlt]
  · intro entries outWords record henc hclean hfit
    exact scan_append henc hclean hfit

end Log
end Mowgli
