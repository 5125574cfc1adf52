import Mathlib.Data.List.Induction
import Mowgli.Params.LogWalk

/-!
# LogCrash — power cuts at every halfword of every commit

The F103 programs a 32-bit word as two halfwords, low half first, so a cut leaves a
record in one of `2 * (4 + 2n)` partial shapes. `Board` is the part of the firmware that
matters for that: the flash, the append point, the commit in progress. Its events are a
boot, which scans and picks the append point, a commit request, and **one halfword**. A
power cut is a boot at a moment of its own choosing.

The board also remembers, for the statement only, where the newest commit whose last
word was programmed stands and what was encoded for it (`last`).

`crash_consistent` is the result. Its invariant is `Consistent`: a walk to the append
point whose newest record is `last`, then nothing but erased words, or the partial
record of the commit in progress. A boot turns that partial record into one more step of
the walk, whatever its shape (`Partial.settles`).
-/

namespace Mowgli
namespace Log

section

/-! ## The board -/

/-- A commit being programmed: its record, and how many halfwords of it are done. -/
structure Pending where
  record : List Word
  halves : Nat
  entries : List Entry

structure Board where
  flash : Flash
  nextFree : Nat
  pending : Option Pending
  /-- The newest completed commit: where it stands, and the entries it was given. -/
  last : Option (Nat × List Entry)

/-- Programming a halfword clears bits of that half and leaves the other one. -/
def programLow (old value : Word) : Word := old &&& (value ||| 0xFFFF0000#32)
def programHigh (old value : Word) : Word := old &&& (value ||| 0x0000FFFF#32)

inductive BoardEvent where
  /-- Power returns, and a firmware with records of `words` words boots. -/
  | boot (words : Nat)
  /-- A commit of `entries` into a record buffer of `capacity` words. -/
  | commit (entries : List Entry) (capacity : Nat)
  /-- The flash takes one more halfword of the commit in progress. -/
  | halfword

/-- `fw_params_init`, its log half. -/
def Board.boot (areaWords words : Nat) (b : Board) : Board :=
  match appendPoint (scan b.flash areaWords) words areaWords with
  | .ready nextFree => { b with nextFree := nextFree, pending := none }
  | .retained => { b with nextFree := areaWords, pending := none }
  | .erase => { b with flash := fun _ => ERASED, nextFree := 0, pending := none }

/-- `fw_params_start_commit`, its log half. -/
def Board.commit (areaWords : Nat) (es : List Entry) (capacity : Nat) (b : Board) : Board :=
  match b.pending, encode es capacity with
  | none, some r =>
    if b.nextFree + r.length > areaWords then b
    else { b with pending := some { record := r, halves := 0, entries := es } }
  | _, _ => b

/-- One halfword of `fw_params_step_commit`; after the last one the commit is complete. -/
def Board.halfword (b : Board) : Board :=
  match b.pending with
  | none => b
  | some p =>
    let word := b.nextFree + p.halves / 2
    let value := p.record.getD (p.halves / 2) ERASED
    let flash := b.flash.write word
      (if p.halves % 2 = 0 then programLow (b.flash word) value
        else programHigh (b.flash word) value)
    if p.halves + 1 < 2 * p.record.length then
      { b with flash := flash, pending := some { p with halves := p.halves + 1 } }
    else
      { flash := flash
        nextFree := b.nextFree + p.record.length
        pending := none
        last := some (b.nextFree, p.entries) }

def Board.next (areaWords : Nat) (b : Board) : BoardEvent → Board
  | .boot words => b.boot areaWords words
  | .commit es capacity => b.commit areaWords es capacity
  | .halfword => b.halfword

/-- A board that has never run: the area is erased, and nothing can be appended before
    the first boot. -/
def Board.blank (areaWords : Nat) : Board :=
  { flash := fun _ => ERASED, nextFree := areaWords, pending := none, last := none }

def Board.run (areaWords : Nat) (es : List BoardEvent) : Board :=
  es.foldl (Board.next areaWords) (Board.blank areaWords)

/-! ## A partly programmed record -/

variable {area area' : Flash} {areaWords off : Nat} {r : List Word} {es : List Entry}

def partialWord (k i : Nat) (w : Word) : Word :=
  if 2 * i + 2 ≤ k then w else if 2 * i + 1 = k then w ||| 0xFFFF0000#32 else ERASED

def Partial (area : Flash) (off : Nat) (r : List Word) (k : Nat) : Prop :=
  ∀ i w, r[i]? = some w → area (off + i) = partialWord k i w

theorem programLow_erased {w : Word} : programLow ERASED w = w ||| 0xFFFF0000#32 := by
  have : ERASED = BitVec.allOnes 32 := by decide
  rw [programLow, this, BitVec.allOnes_and]

theorem programHigh_low {w : Word} : programHigh (w ||| 0xFFFF0000#32) w = w := by
  rw [programHigh]
  ext i
  simp only [BitVec.getElem_and, BitVec.getElem_or]
  have : ((0xFFFF0000#32)[i] && (0x0000FFFF#32)[i]) = false := by
    rw [← BitVec.getElem_and]; simp
  cases w[i] <;> simp_all

/-- **One halfword** takes a partial record to the next. -/
theorem Partial.halfword {k : Nat} (h : Partial area off r k) :
    Partial (area.write (off + k / 2)
      (if k % 2 = 0 then programLow (area (off + k / 2)) (r.getD (k / 2) ERASED)
        else programHigh (area (off + k / 2)) (r.getD (k / 2) ERASED))) off r (k + 1) := by
  intro i w hw
  by_cases hi : i = k / 2
  · have hget : r.getD (k / 2) ERASED = w := by rw [List.getD_eq_getElem?_getD, ← hi, hw]; rfl
    rw [hget, ← hi, write_self, h i w hw]
    by_cases heven : k % 2 = 0
    · rw [if_pos heven]
      simp only [partialWord]
      rw [if_neg (by omega), if_neg (by omega), if_neg (by omega), if_pos (by omega),
        programLow_erased]
    · rw [if_neg heven]
      simp only [partialWord]
      rw [if_neg (by omega), if_pos (by omega), if_pos (by omega), programHigh_low]
  · rw [write_ne (by omega), h i w hw]
    simp only [partialWord]
    by_cases hlt : 2 * i + 2 ≤ k
    · rw [if_pos hlt, if_pos (by omega)]
    · rw [if_neg hlt, if_neg (by omega), if_neg (by omega), if_neg (by omega)]

theorem Partial.zero (h : ErasedFrom area areaWords off) (hfit : off + r.length ≤ areaWords) :
    Partial area off r 0 := by
  intro i w hw
  have := (List.getElem?_eq_some_iff.1 hw).1
  rw [h _ (by omega) (by omega), partialWord, if_neg (by omega), if_neg (by omega)]

theorem Partial.holds (h : Partial area off r (2 * r.length)) : Holds area off r := by
  intro i w hw
  have := (List.getElem?_eq_some_iff.1 hw).1
  rw [h i w hw, partialWord, if_pos (by omega)]

variable {capacity : Nat}

theorem Partial.tornPrefix {k : Nat} (henc : encode es capacity = some r) (h : Partial area off r k)
    (h0 : 0 < k) (hk : k < 4) (hfit : off + r.length ≤ areaWords) :
    parseAt area areaWords off = .tornPrefix := by
  obtain ⟨hn, rfl, hlen⟩ := encode_some henc
  simp only [recordWords, HEADER_WORDS, TRAILER_WORDS] at hlen
  have hmagic := h 0 MAGIC rfl
  have hheader := h 1 (headerWord es.length) rfl
  rw [Nat.add_zero] at hmagic
  refine parseAt_torn (by omega) ?_
  rw [hmagic, hheader]
  simp only [partialWord]
  by_cases h1 : k = 1
  · subst h1; exact .inl ⟨by decide, by simp⟩
  · refine .inr ⟨by rw [if_pos (by omega)], ?_⟩
    by_cases h2 : k = 2
    · subst h2; exact .inl (by simp)
    · refine .inr ?_
      rw [if_neg (by omega), if_pos (by omega), (headerWord_fields hn).2.2]

theorem Partial.tornBody {k : Nat} (henc : encode es capacity = some r) (h : Partial area off r k)
    (h4 : 4 ≤ k) (hk : k < 2 * r.length) (hfit : off + r.length ≤ areaWords) :
    parseAt area areaWords off = .record r.length false := by
  obtain ⟨hn, rfl, hlen⟩ := encode_some henc
  have hlast := h (HEADER_WORDS + 2 * es.length + 1) COMMITTED (by
    rw [← bodyWords_length, List.getElem?_append_right (by omega), Nat.add_sub_cancel_left]
    rfl)
  rw [hlen] at hfit ⊢
  rw [hlen] at hk
  simp only [recordWords, TRAILER_WORDS] at hk
  refine parseAt_unwritten ?_ ?_ hn hfit ?_
  · have := h 0 MAGIC rfl
    rwa [partialWord, if_pos (by omega)] at this
  · have := h 1 (headerWord es.length) rfl
    rwa [partialWord, if_pos (by omega)] at this
  · rw [Nat.add_assoc, Nat.add_assoc, ← Nat.add_assoc HEADER_WORDS, hlast, partialWord,
      if_neg (by omega)]
    by_cases hodd : 2 * (HEADER_WORDS + 2 * es.length + 1) + 1 = k
    · rw [if_pos hodd]; decide
    · rw [if_neg hodd]; decide

/-- **Whatever a cut leaves, the walk goes over it** to an erased tail, and its newest
    record stays. -/
theorem Partial.settles {k n : Nat} {v : Option Nat} (hw : Walk area areaWords off v n)
    (henc : encode es capacity = some r) (h : Partial area off r k) (hk : k < 2 * r.length)
    (hfit : off + r.length ≤ areaWords) (he : ErasedFrom area areaWords (off + r.length)) :
    ∃ off', Walk area areaWords off' v n ∧ ErasedFrom area areaWords off' ∧ off ≤ off' := by
  have hpast : ∀ i, i < r.length → k ≤ 2 * i → area (off + i) = ERASED := by
    intro i hi hki
    rw [h i r[i] (List.getElem?_eq_getElem hi), partialWord, if_neg (by omega),
      if_neg (by omega)]
  have htail : ∀ c, k ≤ 2 * c → ErasedFrom area areaWords (off + c) := by
    intro c hc w hw hlt
    by_cases hin : w < off + r.length
    · have := hpast (w - off) (by omega) (by omega)
      rwa [Nat.add_sub_cancel' (by omega)] at this
    · exact he w (by omega) hlt
  rcases Nat.lt_or_ge k 4 with hk4 | hk4
  · rcases Nat.eq_zero_or_pos k with rfl | hpos
    · exact ⟨off, hw, by simpa using htail 0 (by omega), Nat.le_refl _⟩
    · exact ⟨off + 2, .torn hw (h.tornPrefix henc hpos hk4 hfit), htail 2 (by omega), by omega⟩
  · exact ⟨off + r.length, .skip hw (h.tornBody henc hk4 hk hfit), he, by omega⟩

/-! ## The invariant -/

def Tail (areaWords off : Nat) (b : Board) : Prop :=
  match b.pending with
  | none => ErasedFrom b.flash areaWords off ∧ (b.nextFree = off ∨ areaWords ≤ b.nextFree)
  | some p => b.nextFree = off ∧ (∃ capacity, encode p.entries capacity = some p.record) ∧
      off + p.record.length ≤ areaWords ∧ p.halves < 2 * p.record.length ∧
      Partial b.flash off p.record p.halves ∧
      ErasedFrom b.flash areaWords (off + p.record.length)

/-- A walk to the append point whose newest record is the newest completed commit. -/
def Consistent (areaWords : Nat) (b : Board) : Prop :=
  ∃ off n, Walk b.flash areaWords off (b.last.map Prod.fst) n ∧
    (∀ o es, b.last = some (o, es) → entries b.flash o = es) ∧ Tail areaWords off b

variable {b : Board}

theorem Consistent.settles (h : Consistent areaWords b) :
    ∃ off n, Walk b.flash areaWords off (b.last.map Prod.fst) n ∧
      ErasedFrom b.flash areaWords off := by
  obtain ⟨off, n, hw, _, ht⟩ := h
  unfold Tail at ht
  cases hp : b.pending with
  | none =>
    rw [hp] at ht
    exact ⟨off, n, hw, ht.1⟩
  | some p =>
    rw [hp] at ht
    obtain ⟨_, ⟨_, henc⟩, hfit, hk, hpart, he⟩ := ht
    obtain ⟨off', hw', he', _⟩ := hpart.settles hw henc hk hfit he
    exact ⟨off', n, hw', he'⟩

theorem Consistent.decoded (h : Consistent areaWords b) {o : Nat} {es : List Entry}
    (hl : b.last = some (o, es)) : entries b.flash o = es := by
  obtain ⟨_, _, _, hd, _⟩ := h
  exact hd o es hl

theorem Consistent.blank : Consistent areaWords (Board.blank areaWords) :=
  ⟨0, 0, .start, fun _ _ h => absurd h (by simp [Board.blank]), fun _ _ _ => rfl,
    .inr (Nat.le_refl _)⟩

theorem Consistent.boot (h : Consistent areaWords b) (words : Nat) :
    Consistent areaWords (b.boot areaWords words) := by
  obtain ⟨off, n, hw, he⟩ := h.settles
  have hscan := hw.scan_erased he
  unfold Board.boot
  cases hap : appendPoint (scan b.flash areaWords) words areaWords with
  | ready nextFree =>
    obtain ⟨rfl, _, _⟩ := appendPoint_ready hap
    exact ⟨off, n, hw, fun o es hl => h.decoded hl, he, .inl (by rw [hscan])⟩
  | retained => exact ⟨off, n, hw, fun o es hl => h.decoded hl, he, .inr (Nat.le_refl _)⟩
  | erase =>
    have hnone : b.last.map Prod.fst = none := by
      have := appendPoint_erase hap
      rwa [hscan] at this
    refine ⟨0, 0, hnone ▸ .start, fun o es hl => ?_, fun _ _ _ => rfl, .inl rfl⟩
    rw [show b.last = some (o, es) from hl] at hnone
    exact absurd hnone (by simp)

theorem Consistent.commit (h : Consistent areaWords b) (es : List Entry) (capacity : Nat) :
    Consistent areaWords (b.commit areaWords es capacity) := by
  unfold Board.commit
  split
  · rename_i r hp henc
    obtain ⟨off, n, hw, hd, ht⟩ := h
    unfold Tail at ht
    rw [hp] at ht
    split_ifs with hroom
    · exact ⟨off, n, hw, hd, by unfold Tail; rw [hp]; exact ht⟩
    · have hpos : 0 < r.length := by
        rw [(encode_some henc).2.2]; simp only [recordWords, HEADER_WORDS]; omega
      have hnext : b.nextFree = off := by
        rcases ht.2 with hn | hn
        · exact hn
        · omega
      have hfit : off + r.length ≤ areaWords := by omega
      have hmore : 0 < 2 * r.length := by omega
      exact ⟨off, n, hw, hd, hnext, ⟨capacity, henc⟩, hfit, hmore, Partial.zero ht.1 hfit,
        ht.1.mono (by omega)⟩
  · exact h

/-- **The step**: one halfword keeps a board consistent, the last one of a record too. -/
theorem Consistent.halfword (h : Consistent areaWords b) : Consistent areaWords b.halfword := by
  unfold Board.halfword
  cases hp : b.pending with
  | none => exact h
  | some p =>
    obtain ⟨off, n, hw, hd, ht⟩ := h
    unfold Tail at ht
    rw [hp] at ht
    obtain ⟨rfl, ⟨capacity, henc⟩, hfit, hk, hpart, he⟩ := ht
    have hnext := hpart.halfword
    dsimp only
    generalize hflash : b.flash.write (b.nextFree + p.halves / 2) _ = flash at hnext ⊢
    have hsame : ∀ w, w < b.nextFree ∨ b.nextFree + p.record.length ≤ w →
        b.flash w = flash w := by
      intro w hw'
      rw [← hflash, write_ne (by omega)]
    have hw' : Walk flash areaWords b.nextFree (b.last.map Prod.fst) n :=
      hw.congr fun w hlt => hsame w (.inl hlt)
    have he' : ErasedFrom flash areaWords (b.nextFree + p.record.length) :=
      fun w hw hlt => (hsame w (.inr hw)).symm.trans (he w hw hlt)
    split_ifs with hmore
    · refine ⟨b.nextFree, n, hw', fun o es hl => ?_, rfl, ⟨capacity, henc⟩, hfit, hmore, hnext, he'⟩
      obtain ⟨words, hf, _, hle⟩ := hw.newest (o := o) (by rw [show b.last = _ from hl]; rfl)
      rw [← hf.entries_congr fun w _ hlt => hsame w (.inl (by omega))]
      exact hd o es hl
    · have hdone : p.halves + 1 = 2 * p.record.length := by omega
      rw [hdone] at hnext
      refine ⟨b.nextFree + p.record.length, n + 1,
        .valid hw' (parseAt_written henc hnext.holds hfit), fun o es hl => ?_, he', .inl rfl⟩
      obtain ⟨rfl, rfl⟩ := Prod.mk.inj (Option.some.inj hl)
      exact entries_written henc hnext.holds

theorem Consistent.run (events : List BoardEvent) :
    Consistent areaWords (Board.run areaWords events) := by
  unfold Board.run
  generalize hb : Board.blank areaWords = b₀
  have h : Consistent areaWords b₀ := hb ▸ Consistent.blank
  clear hb
  induction events generalizing b₀ with
  | nil => exact h
  | cons e events ih =>
    refine ih _ ?_
    cases e with
    | boot words => exact h.boot words
    | commit es capacity => exact h.commit es capacity
    | halfword => exact h.halfword

/-- **Crash consistency.** After any boots, commits and power cuts, the scan of the next
    boot needs no erase, addresses the newest completed commit and decodes to its
    entries, and everything from its append point on is erased. -/
theorem crash_consistent (areaWords : Nat) (events : List BoardEvent) :
    let b := Board.run areaWords events
    let sc := scan b.flash areaWords
    sc.needsErase = false ∧ sc.lastValid = b.last.map Prod.fst ∧
      (∀ off es, b.last = some (off, es) → entries b.flash off = es) ∧
      ∀ w, sc.nextFree ≤ w → w < areaWords → b.flash w = ERASED := by
  have h : Consistent areaWords (Board.run areaWords events) := Consistent.run events
  obtain ⟨off, n, hw, he⟩ := h.settles
  dsimp only
  rw [hw.scan_erased he]
  exact ⟨rfl, rfl, fun off es hl => h.decoded hl, he⟩

end

/-!
## The newest valid record while another one is being written

What a boot loads is the newest valid record. A commit in progress **does not change it
before its last word**: not while its words are programmed (`Partial.newest`), and not
when the flash damages one of them, as long as the damaged word is not the requested one
(`Partial.newest_damaged`). The last word makes the new record the newest
(`newest_written`).

`recordValue` is the value a record holds for an id: the last entry with that id, since
loading goes through the entries in order.
-/

variable {area area' : Flash} {areaWords off n : Nat} {v : Option Nat} {r : List Word}
  {es : List Entry}

/-! ## The newest record -/

/-- The entries of the newest valid record, none when there is no record. -/
def newestEntries (area : Flash) (areaWords : Nat) : List Entry :=
  match (scan area areaWords).lastValid with
  | some o => entries area o
  | none => []

/-- Below a walk nothing is rewritten, so the same newest record has the same entries. -/
theorem Walk.newestEntries_congr (hw : Walk area areaWords off v n)
    (hsame : ∀ w, w < off → area w = area' w) (h : (scan area areaWords).lastValid = v)
    (h' : (scan area' areaWords).lastValid = v) :
    newestEntries area areaWords = newestEntries area' areaWords := by
  unfold newestEntries
  rw [h, h']
  cases hv : v with
  | none => rfl
  | some o =>
    obtain ⟨words, hf, _, hle⟩ := hw.newest hv
    exact hf.entries_congr fun w _ hlt => hsame w (by omega)

theorem Walk.newest_erased (hw : Walk area areaWords off v n)
    (he : ErasedFrom area areaWords off) : (scan area areaWords).lastValid = v := by
  rw [hw.scan_erased he]

theorem newest_written {capacity : Nat} (hw : Walk area areaWords off v n)
    (henc : encode es capacity = some r) (h : Holds area off r) (hfit : off + r.length ≤ areaWords)
    (he : ErasedFrom area areaWords (off + r.length)) : newestEntries area areaWords = es := by
  have hnew := (Walk.valid hw (parseAt_written henc h hfit)).newest_erased he
  unfold newestEntries
  rw [hnew]
  exact entries_written henc h

/-! ## Whole words -/

variable {k : Nat} {id : BitVec 16}

/-- A word programmed whole. -/
theorem Partial.word {w : Word} (h : Partial area off r (2 * k)) (hw : r[k]? = some w) :
    Partial (area.write (off + k) w) off r (2 * (k + 1)) := by
  intro i w' hi
  by_cases hik : i = k
  · subst hik
    rw [write_self, partialWord, if_pos (by omega)]
    exact Option.some.inj (hw.symm.trans hi)
  · rw [write_ne (by omega), h i w' hi]
    simp only [partialWord]
    by_cases hlt : 2 * i + 2 ≤ 2 * k
    · rw [if_pos hlt, if_pos (by omega)]
    · rw [if_neg hlt, if_neg (by omega), if_neg (by omega), if_neg (by omega)]

theorem Partial.next_erased (h : Partial area off r (2 * k)) (hk : k < r.length) :
    area (off + k) = ERASED := by
  rw [h k r[k] (List.getElem?_eq_getElem hk), partialWord, if_neg (by omega), if_neg (by omega)]

/-- Behind the words that are programmed, everything is erased. -/
theorem Partial.erasedFrom {k : Nat} (h : Partial area off r (2 * k))
    (he : ErasedFrom area areaWords (off + r.length)) :
    ErasedFrom area areaWords (off + k) := by
  intro w hw hlt
  by_cases hin : w < off + r.length
  · have := h (w - off) r[w - off] (List.getElem?_eq_getElem (by omega))
    rwa [Nat.add_sub_cancel' (by omega), partialWord, if_neg (by omega), if_neg (by omega)] at this
  · exact he w (by omega) hlt

/-- **A record in progress is not seen.** -/
theorem Partial.newest {capacity : Nat} (hw : Walk area areaWords off v n)
    (henc : encode es capacity = some r) (h : Partial area off r (2 * k)) (hk : k < r.length)
    (hfit : off + r.length ≤ areaWords) (he : ErasedFrom area areaWords (off + r.length)) :
    (scan area areaWords).lastValid = v := by
  obtain ⟨off', hw', he', _⟩ := h.settles hw henc (by omega) hfit he
  exact hw'.newest_erased he'

/-- Before the header stands, nothing behind the damaged word can look committed. -/
theorem newest_damaged_head {x : Word} (hw : Walk area areaWords off v n) (hk : k < 2)
    (hin : off < areaWords) (he : ErasedFrom area areaWords (off + k)) :
    (scan (area.write (off + k) x) areaWords).lastValid = v := by
  have hw' : Walk (area.write (off + k) x) areaWords off v n :=
    hw.congr fun i hi => (write_ne (by omega)).symm
  have htail : ErasedFrom (area.write (off + k) x) areaWords (off + k + 1) := by
    intro i hi hia
    rw [write_ne (by omega)]
    exact he i (by omega) hia
  cases hp : parseAt (area.write (off + k) x) areaWords off with
  | endOfLog => rw [hw'.scan_endOfLog hin (parseAt_endOfLog.1 hp)]
  | malformed => rw [hw'.scan_malformed hin hp]
  | tornPrefix => exact (Walk.torn hw' hp).newest_erased (htail.mono (by omega))
  | record words valid =>
    obtain ⟨hf, hvalid⟩ := parseAt_record.1 hp
    have hwl := hf.length
    have hfits := hf.fits
    simp only [recordWords, HEADER_WORDS, TRAILER_WORDS] at hwl
    have hunsealed : ¬Sealed (area.write (off + k) x) off := by
      rintro ⟨_, hc⟩
      simp only [HEADER_WORDS] at hc
      rw [htail _ (by omega) (by omega)] at hc
      exact absurd hc (by decide)
    rw [hvalid, decide_eq_false hunsealed] at hp
    exact (Walk.skip hw' hp).newest_erased (htail.mono (by omega))

/-- **Nor is a record that lost a word**, whatever the word has become. -/
theorem Partial.newest_damaged {capacity : Nat} {w x : Word} (hw : Walk area areaWords off v n)
    (henc : encode es capacity = some r) (h : Partial area off r (2 * k)) (hk : r[k]? = some w)
    (hx : x ≠ w) (hfit : off + r.length ≤ areaWords)
    (he : ErasedFrom area areaWords (off + r.length)) :
    (scan (area.write (off + k) x) areaWords).lastValid = v := by
  have hlt : k < r.length := (List.getElem?_eq_some_iff.1 hk).1
  have htail := h.erasedFrom he
  obtain ⟨hn, rfl, hlen⟩ := encode_some henc
  have hwords := hlen
  simp only [recordWords, HEADER_WORDS, TRAILER_WORDS] at hwords
  rcases Nat.lt_or_ge k 2 with hk2 | hk2
  · exact newest_damaged_head hw hk2 (by omega) htail
  -- The header stands, and the commit word does not.
  have hstand : ∀ i w', i < k → (bodyWords es ++ [crc32 (bodyWords es), COMMITTED])[i]? = some w' →
      area.write (off + k) x (off + i) = w' := by
    intro i w' hi hget
    rw [write_ne (by omega), h i w' hget, partialWord, if_pos (by omega)]
  have hlast : (bodyWords es ++ [crc32 (bodyWords es), COMMITTED])[2 + 2 * es.length + 1]? =
      some COMMITTED := by
    have hb : (bodyWords es).length = 2 + 2 * es.length := bodyWords_length
    rw [← hb, List.getElem?_append_right (by omega), Nat.add_sub_cancel_left]
    rfl
  have hcommit : area.write (off + k) x (off + HEADER_WORDS + 2 * es.length + 1) ≠ COMMITTED := by
    simp only [HEADER_WORDS]
    by_cases hkl : k = 2 + 2 * es.length + 1
    · have hidx : off + 2 + 2 * es.length + 1 = off + k := by omega
      rw [hidx, write_self]
      rw [hkl] at hk
      exact fun hc => hx (hc.trans (Option.some.inj (hlast.symm.trans hk)))
    · rw [write_ne (by omega), htail _ (by omega) (by omega)]
      decide
  have hskip : parseAt (area.write (off + k) x) areaWords off =
      .record (recordWords es.length) false :=
    parseAt_unwritten (hstand 0 MAGIC (by omega) rfl)
      (hstand 1 (headerWord es.length) (by omega) rfl) hn (hlen ▸ hfit) hcommit
  have hw' : Walk (area.write (off + k) x) areaWords off v n :=
    hw.congr fun i hi => (write_ne (by omega)).symm
  refine (Walk.skip hw' hskip).newest_erased fun i hi hia => ?_
  simp only [recordWords, HEADER_WORDS, TRAILER_WORDS] at hi
  rw [write_ne (by omega)]
  exact htail i (by omega) hia

/-! ## The value a record holds -/

/-- What loading the entries in order leaves for `id`. -/
def recordValue (es : List Entry) (id : BitVec 16) : Option Word :=
  es.foldl (fun found e => if e.1 = id then some e.2 else found) none

theorem recordValue_append {e : Entry} :
    recordValue (es ++ [e]) id = if e.1 = id then some e.2 else recordValue es id := by
  unfold recordValue
  rw [List.foldl_append]
  rfl

theorem recordValue_mem {value : Word} (h : recordValue es id = some value) : (id, value) ∈ es := by
  induction es using List.reverseRecOn with
  | nil => simp [recordValue] at h
  | append_singleton es e ih =>
    rw [recordValue_append] at h
    split_ifs at h with he
    · obtain rfl := Option.some.inj h
      subst he
      simp
    · exact List.mem_append_left _ (ih h)

theorem recordValue_of_mem {value : Word} (h : (id, value) ∈ es) (hnodup : (es.map Prod.fst).Nodup)
    : recordValue es id = some value := by
  induction es using List.reverseRecOn with
  | nil => simp at h
  | append_singleton es e ih =>
    rw [List.map_append, List.nodup_append] at hnodup
    rw [recordValue_append]
    rcases List.mem_append.1 h with h | h
    · have hne : e.1 ≠ id := by
        intro he
        exact hnodup.2.2 id (List.mem_map.2 ⟨_, h, rfl⟩) e.1 (by simp) he.symm
      rw [if_neg hne]
      exact ih h hnodup.1
    · obtain rfl := List.mem_singleton.1 h
      rw [if_pos rfl]

end Log
end Mowgli
