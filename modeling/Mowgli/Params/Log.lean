import Mathlib.Data.List.Basic

/-!
# Log — the append-only record format of the parameter flash

`include/fw_param_log.h` over a word array. The running firmware never erases: it
programs one 32-bit word at a time into erased space, so the area is a log of
records, and a boot finds the newest valid one by walking it from the start.

    [0]            magic
    [1]            (entry count << 16) | format
    [2 .. 2+2n)    entries: id, IEEE-754 bits of the value
    [2+2n]         CRC-32 over the words before it
    [3+2n]         the commit word, programmed last

The area is a function from word offsets together with its length `areaWords`, which
every reader takes beside it. A `float` is its bit pattern here: the log only ever
copies values, through `memcpy`.

`scan` is the C loop. Its body is `parseAt`, **what stands at an offset**, so that the
facts about the format are facts about `parseAt` and the loop is reasoned about once.
-/

namespace Mowgli

/-- A 32-bit word of the controller. -/
abbrev Word := BitVec 32

/-- The parameter area, by word offset. -/
abbrev Flash := Nat → Word

/-- The area with one word replaced. -/
def Flash.write (area : Flash) (at' : Nat) (value : Word) : Flash :=
  fun w => if w = at' then value else area w

namespace Log

def MAGIC : Word := 0x4D50524D#32
def FORMAT : Word := 1#32
def COMMITTED : Word := 0x00000000#32
def ERASED : Word := 0xFFFFFFFF#32
def MAX_ENTRIES : Nat := 64
def HEADER_WORDS : Nat := 2
def TRAILER_WORDS : Nat := 2

/-- One `(id, value)` pair of a record. -/
abbrev Entry := BitVec 16 × Word

/-- `fw_param_log_record_words`. -/
def recordWords (entryCount : Nat) : Nat :=
  HEADER_WORDS + 2 * entryCount + TRAILER_WORDS

/-! ## The checksum -/

/-- One bit of the reflected CRC-32. -/
def crcBit (crc : Word) : Word :=
  (crc >>> 1) ^^^ (0xEDB88320#32 &&& (0#32 - (crc &&& 1#32)))

/-- One byte of the reflected CRC-32. -/
def crcByte (crc byte : Word) : Word :=
  crcBit (crcBit (crcBit (crcBit (crcBit (crcBit (crcBit (crcBit (crc ^^^ byte))))))))

/-- One word, low byte first. -/
def crcWord (crc word : Word) : Word :=
  crcByte (crcByte (crcByte (crcByte crc (word &&& 0xFF#32)) ((word >>> 8) &&& 0xFF#32))
    ((word >>> 16) &&& 0xFF#32)) ((word >>> 24) &&& 0xFF#32)

/-- `fw_param_log_crc32`. -/
def crc32 (words : List Word) : Word :=
  ~~~(words.foldl crcWord 0xFFFFFFFF#32)

/-! ## Writing a record -/

/-- The entry pairs as words, in order. -/
def entryWords : List Entry → List Word
  | [] => []
  | (id, value) :: rest => id.setWidth 32 :: value :: entryWords rest

/-- The words the CRC covers: header and entries. -/
def bodyWords (entries : List Entry) : List Word :=
  MAGIC :: ((BitVec.ofNat 32 entries.length <<< 16) ||| FORMAT) :: entryWords entries

/-- `fw_param_log_encode` into a buffer of `outWords` words; `none` is the returned 0. -/
def encode (entries : List Entry) (outWords : Nat) : Option (List Word) :=
  if entries.length > MAX_ENTRIES ∨ recordWords entries.length > outWords then none
  else some (bodyWords entries ++ [crc32 (bodyWords entries), COMMITTED])

/-! ## Reading the area -/

/-- `count` words from `off` on. -/
def slice (area : Flash) (off count : Nat) : List Word :=
  (List.range count).map fun i => area (off + i)

/-- `fw_param_log_is_torn_prefix`. -/
def isTornPrefix (area : Flash) (off areaWords : Nat) : Bool :=
  if off + HEADER_WORDS > areaWords then false
  else
    let magic := area off
    let header := area (off + 1)
    (magic = 0xFFFF524D#32 ∧ header = ERASED) ∨
      (magic = MAGIC ∧ (header = ERASED ∨ header = 0xFFFF0001#32))

/-- What the scanner sees at an offset inside the area. -/
inductive Parsed where
  /-- An erased word: the log ends here. -/
  | endOfLog
  /-- Data that cannot be skipped safely. -/
  | malformed
  /-- The two words a power cut leaves of a magic and a header. -/
  | tornPrefix
  /-- A record of known length, and whether it is committed with a matching CRC. -/
  | record (words : Nat) (valid : Bool)
deriving DecidableEq

/-- The body of the scan loop, read as a classification. -/
def parseAt (area : Flash) (areaWords off : Nat) : Parsed :=
  let magic := area off
  if magic = ERASED then .endOfLog
  else if off + HEADER_WORDS > areaWords then .malformed
  else
    let header := area (off + 1)
    if isTornPrefix area off areaWords then .tornPrefix
    else if magic ≠ MAGIC then .malformed
    else
      let entries := (header >>> 16).toNat
      let words := recordWords entries
      -- Torn or foreign header: the record length is unknown, so nothing after it can
      -- be located.
      if header = ERASED ∨ (header &&& 0xFFFF#32) ≠ FORMAT ∨ entries > MAX_ENTRIES ∨
          off + words > areaWords then .malformed
      else
        let crcAt := off + HEADER_WORDS + 2 * entries
        .record words (area crcAt = crc32 (slice area off (crcAt - off)) ∧
          area (crcAt + 1) = COMMITTED)

/-- `fw_param_log_scan_t`; `lastValid = none` is the -1 of the source. -/
structure Scan where
  lastValid : Option Nat
  nextFree : Nat
  validRecords : Nat
  needsErase : Bool
deriving DecidableEq

/-- Every word from `off` to the end of the area is erased. -/
def erasedFrom (area : Flash) (areaWords off : Nat) : Bool :=
  (List.range (areaWords - off)).all fun i => area (off + i) == ERASED

/-- The scan loop, entered at `off`. Each round moves on by two words at least, so the
    fuel `areaWords` is never used up (`scanFrom?_flash`). -/
def scanFrom (area : Flash) (areaWords : Nat) : Nat → Nat → Scan → Scan
  | 0, _, scan => { scan with nextFree := areaWords }
  | fuel + 1, off, scan =>
    if off < areaWords then
      match parseAt area areaWords off with
      | .endOfLog =>
        -- Everything after the end must still be erased, otherwise an append would
        -- program over old data.
        { scan with
          needsErase := scan.needsErase || !erasedFrom area areaWords off
          nextFree := off }
      | .malformed => { scan with needsErase := true, nextFree := areaWords }
      | .tornPrefix =>
        scanFrom area areaWords fuel (off + HEADER_WORDS)
          { scan with nextFree := off + HEADER_WORDS }
      | .record words true =>
        scanFrom area areaWords fuel (off + words)
          { scan with lastValid := some off, validRecords := scan.validRecords + 1 }
      | .record words false => scanFrom area areaWords fuel (off + words) scan
    else { scan with nextFree := areaWords }

/-- `fw_param_log_scan`. -/
def scan (area : Flash) (areaWords : Nat) : Scan :=
  scanFrom area areaWords areaWords 0
    { lastValid := none, nextFree := 0, validRecords := 0, needsErase := false }

/-- `fw_param_log_entry_count` of the record at `off`. -/
def entryCount (area : Flash) (off : Nat) : Nat :=
  (area (off + 1) >>> 16).toNat

/-- `fw_param_log_entry` of the record at `off`. -/
def entry (area : Flash) (off index : Nat) : Entry :=
  ((area (off + HEADER_WORDS + 2 * index) &&& 0xFFFF#32).setWidth 16,
    area (off + HEADER_WORDS + 2 * index + 1))

/-- Every entry of the record at `off`, in order. -/
def entries (area : Flash) (off : Nat) : List Entry :=
  (List.range (entryCount area off)).map (entry area off)

/-! ## The append point -/

/-- What a boot may do with the log it has scanned. -/
inductive AppendPoint where
  /-- Records can be appended from here. -/
  | ready (nextFree : Nat)
  /-- Full or unappendable, with a committed record in it: kept as it is. -/
  | retained
  /-- Full or unappendable, and nothing committed to lose. -/
  | erase
deriving DecidableEq

/-- The append rule of `fw_params_init`, for a firmware whose records have `words` words. -/
def appendPoint (sc : Scan) (words areaWords : Nat) : AppendPoint :=
  if sc.needsErase ∨ sc.nextFree + words > areaWords then
    if sc.lastValid.isSome then .retained else .erase
  else .ready sc.nextFree

end Log
end Mowgli
