import Mowgli.Params.Log

/-!
# LogWalk — the scan as a walk from record to record

`scan` steps over torn prefixes and records until it meets the end of the log, data it
cannot skip, or the end of the area. `Walk area areaWords off v n` says it **stands at
`off`**, having met `n` valid records of which `v` is the newest.

Two facts make walks useful where the loop is not. A walk to `off` depends on the words
below `off` and on no others (`Walk.congr`), so whatever is programmed behind it leaves
it standing. And a walk that has reached an erased tail decides the scan
(`Walk.scan_erased`). Appending is then one more step of the walk: behind a whole record
(`parseAt_written`), a torn one (`parseAt_unwritten`) or a torn prefix.
-/

namespace Mowgli
namespace Log

section

variable {area area' : Flash} {areaWords off words : Nat}

/-! ## One word -/

@[simp] theorem write_self {value : Word} : area.write off value off = value := if_pos rfl

theorem write_ne {at' : Nat} {value : Word} (h : off ≠ at') :
    area.write at' value off = area off := if_neg h

/-! ## What the scanner sees -/

/-- A record of `words` words at `off`, as far as the scanner checks before it looks at
    the CRC and the commit word. -/
structure Framed (area : Flash) (areaWords off words : Nat) : Prop where
  magic : area off = MAGIC
  format : area (off + 1) &&& 0xFFFF#32 = FORMAT
  count : entryCount area off ≤ MAX_ENTRIES
  length : words = recordWords (entryCount area off)
  fits : off + words ≤ areaWords

def Sealed (area : Flash) (off : Nat) : Prop :=
  area (off + HEADER_WORDS + 2 * entryCount area off) =
      crc32 (slice area off (HEADER_WORDS + 2 * entryCount area off)) ∧
    area (off + HEADER_WORDS + 2 * entryCount area off + 1) = COMMITTED

instance : Decidable (Sealed area off) := by unfold Sealed; infer_instance

theorem Framed.two_lt (h : Framed area areaWords off words) : 2 < words := by
  have := h.length
  simp only [recordWords, HEADER_WORDS, TRAILER_WORDS] at this
  omega

theorem magic_ne_erased : MAGIC ≠ ERASED := by decide

theorem Framed.header {h : Framed area areaWords off words} :
    area (off + 1) ≠ ERASED ∧ area (off + 1) ≠ 0xFFFF0001#32 := by
  have hc := h.count
  simp only [entryCount, MAX_ENTRIES] at hc
  constructor
  · intro he; rw [he] at hc; exact absurd hc (by decide)
  · intro he; rw [he] at hc; exact absurd hc (by decide)

theorem isTornPrefix_iff :
    isTornPrefix area off areaWords = true ↔ off + 2 ≤ areaWords ∧
      ((area off = 0xFFFF524D#32 ∧ area (off + 1) = ERASED) ∨
        (area off = MAGIC ∧ (area (off + 1) = ERASED ∨ area (off + 1) = 0xFFFF0001#32))) := by
  have h2 : HEADER_WORDS = 2 := rfl
  unfold isTornPrefix
  by_cases hfit : off + HEADER_WORDS > areaWords
  · rw [if_pos hfit]
    simp only [Bool.false_eq_true, false_iff, not_and]
    omega
  · rw [if_neg hfit, decide_eq_true_eq]
    exact ⟨fun h => ⟨by omega, h⟩, fun h => h.2⟩

theorem parseAt_endOfLog : parseAt area areaWords off = .endOfLog ↔ area off = ERASED := by
  unfold parseAt
  constructor
  · intro h
    by_contra hm
    simp only [hm, if_false] at h
    split_ifs at h
  · intro h; simp [h]

theorem parseAt_tornPrefix :
    parseAt area areaWords off = .tornPrefix ↔ isTornPrefix area off areaWords = true := by
  unfold parseAt
  constructor
  · intro h
    dsimp only at h
    split_ifs at h with h1 h2 h3
    exact h3
  · intro h
    obtain ⟨hfit, hw⟩ := isTornPrefix_iff.1 h
    have hne : area off ≠ ERASED := by
      rcases hw with ⟨hw, _⟩ | ⟨hw, _⟩
      · rw [hw]; decide
      · rw [hw]; decide
    dsimp only
    rw [if_neg hne, if_neg (by simp only [HEADER_WORDS]; omega), if_pos h]

theorem crcSpan {count : Nat} :
    off + HEADER_WORDS + 2 * count - off = HEADER_WORDS + 2 * count := by
  omega

theorem parseAt_record {valid : Bool} :
    parseAt area areaWords off = .record words valid ↔
      Framed area areaWords off words ∧ valid = decide (Sealed area off) := by
  constructor
  · intro h
    unfold parseAt at h
    dsimp only at h
    split_ifs at h with h1 h2 h3 h4 h5
    simp only [ne_eq, Decidable.not_not] at h4
    simp only [not_or, ne_eq, Decidable.not_not, Nat.not_lt, gt_iff_lt] at h5
    obtain ⟨_, hf, hc, hfit⟩ := h5
    simp only [Parsed.record.injEq] at h
    obtain ⟨rfl, rfl⟩ := h
    refine ⟨⟨h4, hf, hc, rfl, hfit⟩, ?_⟩
    rw [crcSpan, decide_eq_decide]
    rfl
  · rintro ⟨h, rfl⟩
    obtain ⟨hne, hne'⟩ := h.header
    have hlt := h.two_lt
    have hfit := h.fits
    have htorn : ¬isTornPrefix area off areaWords = true := by
      rw [isTornPrefix_iff]
      rintro ⟨_, ⟨hw, _⟩ | ⟨_, hw | hw⟩⟩
      · rw [h.magic] at hw; exact absurd hw (by decide)
      · exact hne hw
      · exact hne' hw
    have hcount := h.count
    have hlen := h.length
    unfold parseAt
    dsimp only
    rw [if_neg (by rw [h.magic]; exact magic_ne_erased),
      if_neg (by simp only [HEADER_WORDS]; omega), if_neg htorn,
      if_neg (by simp [h.magic])]
    unfold entryCount at hcount hlen
    rw [← hlen, if_neg (by
      simp only [h.format, ne_eq, hne, not_true, not_or, false_or, gt_iff_lt]; omega), crcSpan]
    rfl

/-! ## Locality -/

theorem slice_congr {count : Nat}
    (h : ∀ w, off ≤ w → w < off + count → area w = area' w) :
    slice area off count = slice area' off count := by
  unfold slice
  apply List.map_congr_left
  intro i hi
  exact h (off + i) (by omega) (by have := List.mem_range.1 hi; omega)

theorem entryCount_congr (h : area (off + 1) = area' (off + 1)) :
    entryCount area off = entryCount area' off := by
  unfold entryCount; rw [h]

theorem Framed.congr (hf : Framed area areaWords off words)
    (h : ∀ w, off ≤ w → w < off + words → area w = area' w) :
    Framed area' areaWords off words ∧ (Sealed area off ↔ Sealed area' off) := by
  have hlt := hf.two_lt
  have h0 := h off (by omega) (by omega)
  have h1 := h (off + 1) (by omega) (by omega)
  have hc : entryCount area off = entryCount area' off := entryCount_congr h1
  have hlen := hf.length
  simp only [recordWords, HEADER_WORDS, TRAILER_WORDS] at hlen
  constructor
  · exact ⟨h0 ▸ hf.magic, h1 ▸ hf.format, hc ▸ hf.count, hc ▸ hf.length, hf.fits⟩
  · unfold Sealed
    simp only [HEADER_WORDS]
    rw [← hc, slice_congr (fun w hw hw' => h w hw (by omega)),
      h (off + 2 + 2 * entryCount area off) (by omega) (by omega),
      h (off + 2 + 2 * entryCount area off + 1) (by omega) (by omega)]

theorem Framed.entries_congr (hf : Framed area areaWords off words)
    (h : ∀ w, off ≤ w → w < off + words → area w = area' w) :
    entries area off = entries area' off := by
  have hlt := hf.two_lt
  have hlen := hf.length
  simp only [recordWords, HEADER_WORDS, TRAILER_WORDS] at hlen
  unfold entries
  rw [← entryCount_congr (h (off + 1) (by omega) (by omega))]
  apply List.map_congr_left
  intro i hi
  have hi := List.mem_range.1 hi
  simp only [entry, HEADER_WORDS]
  rw [h _ (by omega) (by omega), h (off + 2 + 2 * i + 1) (by omega) (by omega)]

/-! ## Walks -/

/-- The scanner stands at `off`: it has met `n` valid records, `v` is the newest. -/
inductive Walk (area : Flash) (areaWords : Nat) : Nat → Option Nat → Nat → Prop
  | start : Walk area areaWords 0 none 0
  | torn {off n : Nat} {v : Option Nat} (hw : Walk area areaWords off v n)
      (hp : parseAt area areaWords off = .tornPrefix) : Walk area areaWords (off + 2) v n
  | skip {off words n : Nat} {v : Option Nat} (hw : Walk area areaWords off v n)
      (hp : parseAt area areaWords off = .record words false) :
      Walk area areaWords (off + words) v n
  | valid {off words n : Nat} {v : Option Nat} (hw : Walk area areaWords off v n)
      (hp : parseAt area areaWords off = .record words true) :
      Walk area areaWords (off + words) (some off) (n + 1)

variable {n : Nat} {v : Option Nat}

theorem Walk.le (hw : Walk area areaWords off v n) : off ≤ areaWords := by
  cases hw with
  | start => exact Nat.zero_le _
  | torn hw hp => exact (isTornPrefix_iff.1 (parseAt_tornPrefix.1 hp)).1
  | skip hw hp => exact (parseAt_record.1 hp).1.fits
  | valid hw hp => exact (parseAt_record.1 hp).1.fits

/-- **Locality**: a walk to `off` reads the words below `off` only. -/
theorem Walk.congr (hw : Walk area areaWords off v n)
    (h : ∀ w, w < off → area w = area' w) : Walk area' areaWords off v n := by
  induction hw with
  | start => exact .start
  | torn hw hp ih =>
    refine .torn (ih fun w hlt => h w (by omega)) ?_
    rw [parseAt_tornPrefix, isTornPrefix_iff] at hp ⊢
    rw [← h _ (by omega), ← h _ (by omega)]
    exact hp
  | skip hw hp ih =>
    rw [parseAt_record] at hp
    obtain ⟨hf, hs⟩ := hp.1.congr (fun w _ hlt => h w hlt)
    refine .skip (ih fun w hlt => h w (by omega)) ?_
    rw [parseAt_record]
    exact ⟨hf, by rw [hp.2, decide_eq_decide]; exact hs⟩
  | valid hw hp ih =>
    rw [parseAt_record] at hp
    obtain ⟨hf, hs⟩ := hp.1.congr (fun w _ hlt => h w hlt)
    refine .valid (ih fun w hlt => h w (by omega)) ?_
    rw [parseAt_record]
    exact ⟨hf, by rw [hp.2, decide_eq_decide]; exact hs⟩

theorem Walk.newest (hw : Walk area areaWords off v n) {o : Nat} (hv : v = some o) :
    ∃ words, Framed area areaWords o words ∧ Sealed area o ∧ o + words ≤ off := by
  induction hw with
  | start => exact absurd hv (by simp)
  | torn hw hp ih =>
    obtain ⟨words, hf, hs, hle⟩ := ih hv
    exact ⟨words, hf, hs, by omega⟩
  | skip hw hp ih =>
    obtain ⟨words, hf, hs, hle⟩ := ih hv
    exact ⟨words, hf, hs, by omega⟩
  | valid hw hp ih =>
    obtain ⟨hf, hs⟩ := parseAt_record.1 hp
    obtain rfl := Option.some.inj hv
    exact ⟨_, hf, of_decide_eq_true hs.symm, Nat.le_refl _⟩

/-! ## Walks and the loop -/

/-- The scan, resumed where a walk stands, with enough fuel for the rest of the area. -/
theorem Walk.resumes (hw : Walk area areaWords off v n) :
    ∃ fuel nextFree, areaWords - off ≤ fuel ∧
      scan area areaWords = scanFrom area areaWords fuel off ⟨v, nextFree, n, false⟩ := by
  induction hw with
  | start => exact ⟨areaWords, 0, by omega, rfl⟩
  | torn hw hp ih =>
    obtain ⟨fuel, nf, hfuel, hscan⟩ := ih
    have hle := (Walk.torn hw hp).le
    obtain ⟨fuel, rfl⟩ : ∃ k, fuel = k + 1 := ⟨fuel - 1, by omega⟩
    exact ⟨fuel, _, by omega, by rw [hscan, scanFrom, if_pos (by omega), hp]; rfl⟩
  | skip hw hp ih =>
    obtain ⟨fuel, nf, hfuel, hscan⟩ := ih
    have hle := (Walk.skip hw hp).le
    have hlt := (parseAt_record.1 hp).1.two_lt
    obtain ⟨fuel, rfl⟩ : ∃ k, fuel = k + 1 := ⟨fuel - 1, by omega⟩
    exact ⟨fuel, nf, by omega, by rw [hscan, scanFrom, if_pos (by omega), hp]⟩
  | valid hw hp ih =>
    obtain ⟨fuel, nf, hfuel, hscan⟩ := ih
    have hle := (Walk.valid hw hp).le
    have hlt := (parseAt_record.1 hp).1.two_lt
    obtain ⟨fuel, rfl⟩ : ∃ k, fuel = k + 1 := ⟨fuel - 1, by omega⟩
    exact ⟨fuel, nf, by omega, by rw [hscan, scanFrom, if_pos (by omega), hp]⟩

def Stops (area : Flash) (areaWords off : Nat) : Prop :=
  areaWords ≤ off ∨ parseAt area areaWords off = .endOfLog ∨
    parseAt area areaWords off = .malformed

theorem Walk.completes {off n : Nat} {v : Option Nat} (hw : Walk area areaWords off v n) :
    ∃ off' v' n', Walk area areaWords off' v' n' ∧ Stops area areaWords off' ∧
      off ≤ off' ∧ (v.isSome → v'.isSome) := by
  by_cases hend : areaWords ≤ off
  · exact ⟨off, v, n, hw, .inl hend, Nat.le_refl _, id⟩
  cases hp : parseAt area areaWords off with
  | endOfLog => exact ⟨off, v, n, hw, .inr (.inl hp), Nat.le_refl _, id⟩
  | malformed => exact ⟨off, v, n, hw, .inr (.inr hp), Nat.le_refl _, id⟩
  | tornPrefix =>
    obtain ⟨off', v', n', h, hs, hle, hv⟩ := (Walk.torn hw hp).completes
    exact ⟨off', v', n', h, hs, by omega, hv⟩
  | record words valid =>
    have hlt := (parseAt_record.1 hp).1.two_lt
    cases valid with
    | false =>
      obtain ⟨off', v', n', h, hs, hle, hv⟩ := (Walk.skip hw hp).completes
      exact ⟨off', v', n', h, hs, by omega, hv⟩
    | true =>
      obtain ⟨off', v', n', h, hs, hle, hv⟩ := (Walk.valid hw hp).completes
      exact ⟨off', v', n', h, hs, by omega, fun _ => hv rfl⟩
  termination_by areaWords - off
  decreasing_by all_goals omega

variable {sc : Scan}

theorem scanFrom_done {fuel : Nat} (h : areaWords ≤ off) :
    scanFrom area areaWords fuel off sc = { sc with nextFree := areaWords } := by
  cases fuel with
  | zero => rfl
  | succ fuel => rw [scanFrom, if_neg (by omega)]

theorem Walk.scan_done (hw : Walk area areaWords off v n) (h : areaWords ≤ off) :
    scan area areaWords = ⟨v, areaWords, n, false⟩ := by
  obtain ⟨fuel, nf, _, hscan⟩ := hw.resumes
  rw [hscan, scanFrom_done h]

theorem Walk.scan_endOfLog (hw : Walk area areaWords off v n) (h : off < areaWords)
    (he : area off = ERASED) :
    scan area areaWords = ⟨v, off, n, !erasedFrom area areaWords off⟩ := by
  obtain ⟨fuel, nf, hfuel, hscan⟩ := hw.resumes
  obtain ⟨fuel, rfl⟩ : ∃ k, fuel = k + 1 := ⟨fuel - 1, by omega⟩
  rw [hscan, scanFrom, if_pos h, parseAt_endOfLog.2 he, Bool.false_or]

theorem Walk.scan_malformed (hw : Walk area areaWords off v n) (h : off < areaWords)
    (hp : parseAt area areaWords off = .malformed) :
    scan area areaWords = ⟨v, areaWords, n, true⟩ := by
  obtain ⟨fuel, nf, hfuel, hscan⟩ := hw.resumes
  obtain ⟨fuel, rfl⟩ : ∃ k, fuel = k + 1 := ⟨fuel - 1, by omega⟩
  rw [hscan, scanFrom, if_pos h, hp]

/-! ## Erased tails -/

def ErasedFrom (area : Flash) (areaWords off : Nat) : Prop :=
  ∀ w, off ≤ w → w < areaWords → area w = ERASED

theorem erasedFrom_iff : erasedFrom area areaWords off = true ↔ ErasedFrom area areaWords off := by
  unfold erasedFrom ErasedFrom
  simp only [List.all_eq_true, List.mem_range, beq_iff_eq]
  constructor
  · intro h w hw hlt
    have := h (w - off) (by omega)
    rwa [Nat.add_sub_cancel' hw] at this
  · exact fun h i hi => h (off + i) (by omega) (by omega)

theorem ErasedFrom.mono {off' : Nat} (h : ErasedFrom area areaWords off) (hle : off ≤ off') :
    ErasedFrom area areaWords off' :=
  fun w hw hlt => h w (by omega) hlt

/-- **A walk that stands before an erased tail is what the scan reports.** -/
theorem Walk.scan_erased (hw : Walk area areaWords off v n)
    (he : ErasedFrom area areaWords off) : scan area areaWords = ⟨v, off, n, false⟩ := by
  by_cases h : off < areaWords
  · rw [hw.scan_endOfLog h (he off (Nat.le_refl _) h), erasedFrom_iff.2 he]; rfl
  · obtain rfl : off = areaWords := by have := hw.le; omega
    exact hw.scan_done (Nat.le_refl _)

/-- What a scan reports is always where some walk stops. -/
theorem scan_walk (area : Flash) (areaWords : Nat) :
    ∃ off, Walk area areaWords off (scan area areaWords).lastValid
        (scan area areaWords).validRecords ∧
      off ≤ (scan area areaWords).nextFree ∧ (scan area areaWords).nextFree ≤ areaWords ∧
      ((scan area areaWords).needsErase = false →
        off = (scan area areaWords).nextFree ∧ ErasedFrom area areaWords off) := by
  obtain ⟨off, v, n, hw, hs, _, _⟩ := (@Walk.start area areaWords).completes
  have hle := hw.le
  by_cases hend : areaWords ≤ off
  · rw [hw.scan_done hend]
    exact ⟨off, hw, hle, Nat.le_refl _, fun _ => ⟨by dsimp only; omega, fun w _ _ => by omega⟩⟩
  rcases hs with hs | hs | hs
  · exact absurd hs hend
  · rw [hw.scan_endOfLog (by omega) (parseAt_endOfLog.1 hs)]
    refine ⟨off, hw, Nat.le_refl _, hle, fun h => ⟨rfl, ?_⟩⟩
    rw [← erasedFrom_iff]
    simpa using h
  · rw [hw.scan_malformed (by omega) hs]
    exact ⟨off, hw, hle, Nat.le_refl _, fun h => absurd h (by simp)⟩

/-- A scan goes at least as far as any walk, and loses no valid record of it. -/
theorem Walk.scan_ge (hw : Walk area areaWords off v n) :
    off ≤ (scan area areaWords).nextFree ∧ (v.isSome → (scan area areaWords).lastValid.isSome) := by
  obtain ⟨off', v', n', hw', hs, hle, hv⟩ := hw.completes
  have hle' := hw'.le
  by_cases hend : areaWords ≤ off'
  · rw [hw'.scan_done hend]
    exact ⟨by dsimp only; omega, hv⟩
  rcases hs with hs | hs | hs
  · exact absurd hs hend
  · rw [hw'.scan_endOfLog (by omega) (parseAt_endOfLog.1 hs)]
    exact ⟨hle, hv⟩
  · rw [hw'.scan_malformed (by omega) hs]
    exact ⟨by dsimp only; omega, hv⟩

/-! ## The append point -/

theorem appendPoint_ready {nextFree : Nat} (h : appendPoint sc words areaWords = .ready nextFree) :
    nextFree = sc.nextFree ∧ sc.needsErase = false ∧ nextFree + words ≤ areaWords := by
  unfold appendPoint at h
  split_ifs at h with hbad
  simp only [AppendPoint.ready.injEq] at h
  simp only [not_or, Bool.not_eq_true] at hbad
  exact ⟨h.symm, hbad.1, by omega⟩

/-- **A committed record is never erased on the scanner's word.** -/
theorem appendPoint_erase (h : appendPoint sc words areaWords = .erase) : sc.lastValid = none := by
  unfold appendPoint at h
  split_ifs at h with hbad hsome
  simpa using hsome

end

/-!
## An encoded record, whole or torn, as the scanner meets it

`fw_param_log_encode` decides what is programmed; this module says what the scanner
makes of it. A record that stands whole in the area is a **valid record whose decoded
entries are the encoded ones** (`parseAt_written`, `entries_written`). A record whose
header stands but whose commit word does not is skipped at its full length
(`parseAt_unwritten`). What is left of a shorter cut is the torn prefix of two words.
-/

variable {area : Flash} {areaWords off : Nat}

/-- The words `ws` stand in the area from `off` on. -/
def Holds (area : Flash) (off : Nat) (ws : List Word) : Prop :=
  ∀ i w, ws[i]? = some w → area (off + i) = w

theorem Holds.left {ws vs : List Word} (h : Holds area off (ws ++ vs)) : Holds area off ws := by
  intro i w hi
  refine h i w ?_
  rw [List.getElem?_append_left (List.getElem?_eq_some_iff.1 hi).1, hi]

theorem Holds.slice {ws : List Word} (h : Holds area off ws) :
    slice area off ws.length = ws := by
  apply List.ext_getElem?
  intro i
  unfold Log.slice
  rw [List.getElem?_map]
  by_cases hi : i < ws.length
  · rw [List.getElem?_range hi, List.getElem?_eq_getElem hi]
    simp only [Option.map_some, h i ws[i] (List.getElem?_eq_getElem hi)]
  · rw [List.getElem?_eq_none (by simpa using hi), List.getElem?_eq_none (by omega)]
    rfl

/-! ## The words of a record -/

def headerWord (n : Nat) : Word :=
  (BitVec.ofNat 32 n <<< 16) ||| FORMAT

theorem headerWord_fields {n : Nat} (h : n ≤ MAX_ENTRIES) :
    (headerWord n >>> 16).toNat = n ∧ headerWord n &&& 0xFFFF#32 = FORMAT ∧
      headerWord n ||| 0xFFFF0000#32 = 0xFFFF0001#32 := by
  have hall : ∀ n, n < 65 → (headerWord n >>> 16).toNat = n ∧
      headerWord n &&& 0xFFFF#32 = FORMAT ∧
      headerWord n ||| 0xFFFF0000#32 = 0xFFFF0001#32 := by decide
  exact hall n (Nat.lt_succ_of_le h)

theorem idWord_low {id : BitVec 16} : (id.setWidth 32 &&& 0xFFFF#32).setWidth 16 = id := by
  apply BitVec.eq_of_toNat_eq
  have := id.isLt
  rw [BitVec.toNat_setWidth, BitVec.toNat_and, BitVec.toNat_setWidth,
    show (0xFFFF#32).toNat = 2 ^ 16 - 1 from rfl, Nat.and_two_pow_sub_one_eq_mod]
  omega

variable {es : List Entry}

theorem entryWords_length : (entryWords es).length = 2 * es.length := by
  induction es with
  | nil => rfl
  | cons e rest ih =>
    obtain ⟨id, value⟩ := e
    simp only [entryWords, List.length_cons, ih]
    omega

theorem entryWords_getElem {i : Nat} {e : Entry} (h : es[i]? = some e) :
    (entryWords es)[2 * i]? = some (e.1.setWidth 32) ∧
      (entryWords es)[2 * i + 1]? = some e.2 := by
  induction es generalizing i with
  | nil => simp at h
  | cons e' rest ih =>
    cases i with
    | zero =>
      obtain rfl := Option.some.inj h
      exact ⟨rfl, rfl⟩
    | succ i =>
      rw [List.getElem?_cons_succ] at h
      exact ih h

theorem bodyWords_length : (bodyWords es).length = HEADER_WORDS + 2 * es.length := by
  simp only [bodyWords, List.length_cons, entryWords_length, HEADER_WORDS]
  omega

theorem encode_some {outWords : Nat} {r : List Word} (h : encode es outWords = some r) :
    es.length ≤ MAX_ENTRIES ∧ r = bodyWords es ++ [crc32 (bodyWords es), COMMITTED] ∧
      r.length = recordWords es.length := by
  unfold encode at h
  split_ifs at h with hbad
  obtain rfl := Option.some.inj h
  refine ⟨by omega, rfl, ?_⟩
  simp only [List.length_append, bodyWords_length, List.length_cons, List.length_nil, recordWords,
    TRAILER_WORDS]

/-! ## What the scanner makes of it -/

variable {es : List Entry} {outWords : Nat} {r : List Word}

theorem framed_of_header {n : Nat} (hm : area off = MAGIC) (hh : area (off + 1) = headerWord n)
    (hn : n ≤ MAX_ENTRIES) (hfit : off + recordWords n ≤ areaWords) :
    Framed area areaWords off (recordWords n) ∧ entryCount area off = n := by
  obtain ⟨hcount, hformat, _⟩ := headerWord_fields hn
  have hc : entryCount area off = n := by unfold entryCount; rw [hh, hcount]
  exact ⟨⟨hm, hh ▸ hformat, hc ▸ hn, by rw [hc], hfit⟩, hc⟩

theorem Holds.framed (h : Holds area off (bodyWords es)) (hn : es.length ≤ MAX_ENTRIES)
    (hfit : off + recordWords es.length ≤ areaWords) :
    Framed area areaWords off (recordWords es.length) ∧ entryCount area off = es.length :=
  framed_of_header (h 0 MAGIC rfl) (h 1 (headerWord es.length) rfl) hn hfit

/-- **A whole record is valid.** -/
theorem parseAt_written (henc : encode es outWords = some r) (h : Holds area off r)
    (hfit : off + r.length ≤ areaWords) :
    parseAt area areaWords off = .record r.length true := by
  obtain ⟨hn, rfl, hlen⟩ := encode_some henc
  rw [hlen] at hfit ⊢
  obtain ⟨hf, hc⟩ := h.left.framed hn hfit
  have hsealed : Sealed area off := by
    have hb : (bodyWords es).length = HEADER_WORDS + 2 * es.length := bodyWords_length
    unfold Sealed
    rw [hc, Nat.add_assoc, Nat.add_assoc off, ← hb, h.left.slice]
    constructor
    · refine h _ _ ?_
      rw [List.getElem?_append_right (Nat.le_refl _), Nat.sub_self]
      rfl
    · refine h _ _ ?_
      rw [List.getElem?_append_right (by omega), Nat.add_sub_cancel_left]
      rfl
  exact parseAt_record.2 ⟨hf, by rw [decide_eq_true hsealed]⟩

/-- **A whole record decodes to what was encoded.** -/
theorem entries_written (henc : encode es outWords = some r) (h : Holds area off r) :
    entries area off = es := by
  obtain ⟨hn, rfl, hlen⟩ := encode_some henc
  have hc := (h.left.framed hn (Nat.le_refl _)).2
  unfold entries
  rw [hc]
  apply List.ext_getElem?
  intro i
  rw [List.getElem?_map]
  by_cases hi : i < es.length
  · obtain ⟨hid, hval⟩ := entryWords_getElem (List.getElem?_eq_getElem hi)
    rw [List.getElem?_range hi, List.getElem?_eq_getElem hi, Option.map_some]
    congr 1
    have hbody : ∀ j w, (entryWords es)[j]? = some w → area (off + HEADER_WORDS + j) = w := by
      intro j w hj
      rw [Nat.add_assoc]
      refine h.left _ _ ?_
      rw [Nat.add_comm]
      exact hj
    unfold entry
    rw [hbody _ _ hid, Nat.add_assoc, hbody _ _ hval]
    exact Prod.ext idWord_low rfl
  · rw [List.getElem?_eq_none (by simpa using hi), List.getElem?_eq_none (by omega)]
    rfl

/-- **A record without its commit word is skipped whole.** -/
theorem parseAt_unwritten {n : Nat} (hm : area off = MAGIC)
    (hh : area (off + 1) = headerWord n) (hn : n ≤ MAX_ENTRIES)
    (hfit : off + recordWords n ≤ areaWords)
    (hcommit : area (off + HEADER_WORDS + 2 * n + 1) ≠ COMMITTED) :
    parseAt area areaWords off = .record (recordWords n) false := by
  obtain ⟨hf, hc⟩ := framed_of_header hm hh hn hfit
  refine parseAt_record.2 ⟨hf, ?_⟩
  symm
  rw [decide_eq_false_iff_not]
  rintro ⟨_, hs⟩
  rw [hc] at hs
  exact hcommit hs

theorem parseAt_torn (hfit : off + 2 ≤ areaWords)
    (h : (area off = 0xFFFF524D#32 ∧ area (off + 1) = ERASED) ∨
      (area off = MAGIC ∧ (area (off + 1) = ERASED ∨ area (off + 1) = 0xFFFF0001#32))) :
    parseAt area areaWords off = .tornPrefix :=
  parseAt_tornPrefix.2 (isTornPrefix_iff.2 ⟨hfit, h⟩)

end Log
end Mowgli
