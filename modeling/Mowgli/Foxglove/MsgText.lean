import Mowgli.Foxglove.SchemaSafe

/-!
# MsgText — message definitions as ROS 2 writes them

A text is the definition of one message and, behind separators, those of the messages it is made
of. Here is what a text says by the rules of ROS 2: a comment runs from a number sign to the end
of its line, and a line is a constant when an equals sign comes after its type.

The client finds the blocks of every such text. Of the declared fields it leaves out those with
an equals sign in their type.
-/

namespace Mowgli
namespace Foxglove
namespace Cdr

/-- A definition, of a message of this package. -/
structure Definition where
  package : Str
  lines : List Str
  plain : ∀ line ∈ lines, '\n' ∉ line ∧ isSeparator line = false
  deriving DecidableEq

structure Message extends Definition where
  name : Str
  one_slash : '/' ∉ package ∧ '/' ∉ name
  no_space : ∀ c ∈ package ++ name, isSpace c = false
  capital : ∃ c rest, name = c :: rest ∧ c.isUpper = true
  deriving DecidableEq

def Message.typeName (m : Message) : Str := m.package ++ '/' :: m.name

/-- A line of equals signs, as it stands before the name of a message. -/
structure Separator where
  line : Str
  separates : '\n' ∉ line ∧ isSeparator line = true

def Message.header (m : Message) : Str := msgPrefix ++ m.typeName

def Message.text (sep : Separator) (m : Message) : List Str := sep.line :: m.header :: m.lines

def textOf (sep : Separator) (root : Definition) (subs : List Message) : Str :=
  ['\n'].intercalate (root.lines ++ subs.flatMap (Message.text sep))

/-- The type and the name on a line that declares a field. -/
def declaredLine (line : Str) : Option (Str × Str) :=
  match fieldsOf (line.takeWhile (· != '#')) with
  | typStr :: name :: more =>
    if (name :: more).any (·.any (· == '=')) then none else some (typStr, name)
  | _ => none

def Definition.declared (d : Definition) : List (Str × Str) := d.lines.filterMap declaredLine

/-! ## Space around a text -/

variable {c : Char}

theorem trimSpace_cons (hc : isSpace c = true) (s : Str) : trimSpace (c :: s) = trimSpace s := by
  unfold trimSpace
  rw [List.dropWhile_cons_of_pos hc]

theorem trimSpace_concat (hc : isSpace c = true) (s : Str) :
    trimSpace (s ++ [c]) = trimSpace s := by
  unfold trimSpace
  rw [List.dropWhile_append]
  cases h : s.dropWhile isSpace with
  | nil => simp [List.dropWhile_cons_of_pos hc]
  | cons d rest => simp [List.dropWhile_cons_of_pos hc]

/-- What does not see space at the end of a text does not see it trimmed there. -/
theorem trimRight_invariant {α : Type} {f : Str → α}
    (hconcat : ∀ c s, isSpace c = true → f (s ++ [c]) = f s) (s : Str) :
    f (s.dropWhile isSpace).reverse = f s.reverse := by
  induction s with
  | nil => rfl
  | cons c s ih =>
    by_cases hc : isSpace c = true
    · rw [List.dropWhile_cons_of_pos hc, ih, List.reverse_cons, hconcat c _ hc]
    · rw [List.dropWhile_cons_of_neg hc]

theorem trimSpace_invariant {α : Type} {f : Str → α}
    (hcons : ∀ c s, isSpace c = true → f (c :: s) = f s)
    (hconcat : ∀ c s, isSpace c = true → f (s ++ [c]) = f s) (s : Str) : f (trimSpace s) = f s := by
  unfold trimSpace
  rw [trimRight_invariant hconcat, List.reverse_reverse]
  induction s with
  | nil => rfl
  | cons c s ih =>
    by_cases hc : isSpace c = true
    · rw [List.dropWhile_cons_of_pos hc, ih, hcons c s hc]
    · rw [List.dropWhile_cons_of_neg hc]

theorem fieldLine_cons (hc : isSpace c = true) (s : Str) : fieldLine (c :: s) = fieldLine s := by
  unfold fieldLine
  rw [trimSpace_cons hc]

theorem fieldLine_concat (hc : isSpace c = true) (s : Str) :
    fieldLine (s ++ [c]) = fieldLine s := by
  unfold fieldLine
  rw [trimSpace_concat hc]

theorem declarations_cons (hc : isSpace c = true) (s : Str) :
    declarations (c :: s) = declarations s := by
  unfold declarations
  rw [List.splitOn_cons_eq_if_modifyHead]
  split
  · rfl
  · cases hsplit : s.splitOn '\n' with
    | nil => exact absurd hsplit (List.splitOn_ne_nil _ _)
    | cons line lines =>
      rw [List.modifyHead_cons, List.filterMap_cons, List.filterMap_cons, fieldLine_cons hc]

/-- A character behind a text stands behind its last line. -/
theorem splitOn_concat {sep : Char} (hc : c ≠ sep) (s : Str) :
    ∃ before last, s.splitOn sep = before ++ [last] ∧
      (s ++ [c]).splitOn sep = before ++ [last ++ [c]] := by
  induction s with
  | nil =>
    refine ⟨[], [], rfl, ?_⟩
    rw [List.nil_append, List.splitOn_eq_singleton (by simpa using hc.symm)]
    rfl
  | cons x s ih =>
    obtain ⟨before, last, hsplit, hlonger⟩ := ih
    rw [List.cons_append, List.splitOn_cons_eq_if_modifyHead, List.splitOn_cons_eq_if_modifyHead,
      hsplit, hlonger]
    by_cases hx : (x == sep) = true
    · rw [if_pos hx, if_pos hx]
      exact ⟨[] :: before, last, rfl, rfl⟩
    · rw [if_neg hx, if_neg hx]
      cases before with
      | nil => exact ⟨[], x :: last, rfl, rfl⟩
      | cons b before => exact ⟨(x :: b) :: before, last, rfl, rfl⟩

theorem declarations_concat (hc : isSpace c = true) (s : Str) :
    declarations (s ++ [c]) = declarations s := by
  unfold declarations
  by_cases hline : c = '\n'
  · subst hline
    rw [List.splitOn_append_cons_self, List.filterMap_append]
    exact List.append_nil _
  · obtain ⟨before, last, hsplit, hlonger⟩ := splitOn_concat hline s
    rw [hsplit, hlonger, List.filterMap_append, List.filterMap_append, List.filterMap_cons,
      List.filterMap_cons, fieldLine_concat hc]

variable (s : Str) (sep : Separator)

theorem declarations_trimSpace : declarations (trimSpace s) = declarations s :=
  trimSpace_invariant (fun _ s hc => declarations_cons hc s)
    (fun _ s hc => declarations_concat hc s) s

/-! ## What lines declare -/

theorem fieldsOf_cons (hc : isSpace c = true) (s : Str) : fieldsOf (c :: s) = fieldsOf s := by
  unfold fieldsOf
  rw [List.splitOnP_cons_eq_if_modifyHead, if_pos hc]
  rfl

theorem fieldsOf_concat (hc : isSpace c = true) (s : Str) : fieldsOf (s ++ [c]) = fieldsOf s := by
  unfold fieldsOf
  rw [List.splitOnP_append_cons s [] hc, List.filter_append]
  exact List.append_nil _

theorem fieldsOf_trimSpace : fieldsOf (trimSpace s) = fieldsOf s :=
  trimSpace_invariant (fun _ s hc => fieldsOf_cons hc s) (fun _ s hc => fieldsOf_concat hc s) s

/-- Trimming a line does not change what is in front of its comment. -/
theorem fieldsOf_uncommented (line : Str) :
    fieldsOf ((trimSpace line).takeWhile (· != '#')) = fieldsOf (line.takeWhile (· != '#')) := by
  have hspace : ∀ c, isSpace c = true → (c != '#') = true := by
    intro c hc
    rw [bne_iff_ne]
    rintro rfl
    exact absurd hc (by decide)
  refine trimSpace_invariant (f := fun s => fieldsOf (s.takeWhile (· != '#'))) ?_ ?_ line
  · intro c s hc
    rw [List.takeWhile_cons, if_pos (hspace c hc), fieldsOf_cons hc]
  · intro c s hc
    rw [List.takeWhile_append]
    split
    · rename_i hall
      rw [List.takeWhile_cons, if_pos (hspace c hc), List.takeWhile_nil, fieldsOf_concat hc]
      rw [(List.takeWhile_prefix _).eq_of_length hall]
    · rfl

/-- An equals sign on a line is in one of its parts. -/
theorem any_fieldsOf : (fieldsOf s).any (·.any (· == '=')) = s.any (· == '=') := by
  have hsplit : (s.splitOnP isSpace).any (·.any (· == '=')) = s.any (· == '=') := by
    induction s with
    | nil => rfl
    | cons c s ih =>
      rw [List.splitOnP_cons_eq_if_modifyHead, List.any_cons, ← ih]
      by_cases hc : isSpace c = true
      · have hne : (c == '=') = false := by
          rw [beq_eq_false_iff_ne]
          rintro rfl
          exact absurd hc (by decide)
        rw [if_pos hc, hne]
        rfl
      · rw [if_neg hc]
        cases hparts : s.splitOnP isSpace with
        | nil => exact absurd hparts (List.splitOnP_ne_nil _ _)
        | cons part parts =>
          rw [List.modifyHead_cons, List.any_cons, List.any_cons, List.any_cons, Bool.or_assoc]
  rw [← hsplit]
  unfold fieldsOf
  rw [List.any_filter]
  refine List.any_congr rfl fun part => ?_
  cases part with
  | nil => rfl
  | cons c part => rfl

/-- Of the declared fields those are read that have no equals sign in their type. -/
theorem fieldLine_eq (line : Str) :
    fieldLine line = (declaredLine line).filter fun d => !d.1.any (· == '=') := by
  have huncommented := fieldsOf_uncommented line
  unfold fieldLine declaredLine
  rw [← huncommented]
  generalize trimSpace line = trimmed
  dsimp only
  by_cases hskip : (trimmed.isEmpty || trimmed.head? == some '#') = true
  · rw [if_pos hskip]
    cases trimmed with
    | nil => rfl
    | cons c rest =>
      have hc : c = '#' := by simpa using hskip
      subst hc
      rfl
  · rw [if_neg hskip]
    have hbare : fieldsOf (if trimmed.any (· == '#') then trimSpace (trimmed.takeWhile (· != '#'))
        else trimmed) = fieldsOf (trimmed.takeWhile (· != '#')) := by
      split
      · exact fieldsOf_trimSpace _
      · rename_i hnone
        rw [List.takeWhile_eq_self_iff.2]
        intro c hc
        rw [bne_iff_ne]
        rintro rfl
        exact hnone (List.any_eq_true.2 ⟨'#', hc, rfl⟩)
    rw [← hbare]
    generalize (if trimmed.any (· == '#') then trimSpace (trimmed.takeWhile (· != '#'))
      else trimmed) = bare
    by_cases hempty : bare.isEmpty = true
    · rw [if_pos hempty]
      cases bare with
      | nil => rfl
      | cons c rest => cases hempty
    · rw [if_neg hempty, ← any_fieldsOf]
      cases fieldsOf bare with
      | nil => rfl
      | cons typStr parts =>
        cases parts with
        | nil => cases typStr.any (· == '=') <;> simp
        | cons name more =>
          dsimp only
          rw [List.any_cons]
          generalize (name :: more).any (·.any (· == '=')) = constant
          cases constant with
          | true =>
            rw [Bool.or_true]
            rfl
          | false =>
            cases htype : typStr.any (· == '=') with
            | true => simp [Option.filter, htype]
            | false => simp [Option.filter, htype]

def Definition.read (d : Definition) : List (Str × Str) := d.lines.filterMap fieldLine

theorem read_eq (d : Definition) :
    d.read = d.declared.filter fun decl => !decl.1.any (· == '=') := by
  unfold Definition.read Definition.declared
  rw [List.filter_filterMap]
  exact List.filterMap_congr fun line _ => fieldLine_eq line

/-! ## The blocks of a text -/

def unlines (lines : List Str) : Str := lines.flatMap (· ++ ['\n'])

/-- `strings.TrimSpace` of what does not start with space. -/
def trimRight (s : Str) : Str := (s.reverse.dropWhile isSpace).reverse

def Message.block (m : Message) : MsgBlock :=
  { typeName := m.typeName, body := trimRight (unlines m.lines) }

theorem declarations_trimRight : declarations (trimRight s) = declarations s := by
  unfold trimRight
  rw [trimRight_invariant (fun _ s hc => declarations_concat hc s), List.reverse_reverse]

variable {lines : List Str}

theorem declarations_unlines (h : ∀ line ∈ lines, '\n' ∉ line) :
    declarations (unlines lines) = lines.filterMap fieldLine := by
  induction lines with
  | nil => rfl
  | cons line lines ih =>
    have hline := h line List.mem_cons_self
    have hrest := ih fun l hl => h l (List.mem_cons_of_mem _ hl)
    unfold declarations unlines at hrest ⊢
    rw [List.flatMap_cons, List.append_assoc, List.singleton_append,
      List.splitOn_append_cons_self_of_not_mem hline, List.filterMap_cons, List.filterMap_cons,
      hrest]

variable (m : Message)

theorem declarations_block : declarations m.block.body = m.read := by
  show declarations (trimRight (unlines m.lines)) = m.read
  rw [declarations_trimRight, declarations_unlines fun line hline => (m.plain line hline).1]
  rfl

theorem splitParts_plain (h : ∀ line ∈ lines, isSeparator line = false) (rest : List Str)
    (current : Str) :
    splitParts (lines ++ rest) current = splitParts rest (current ++ unlines lines) := by
  induction lines generalizing current with
  | nil =>
    show splitParts rest current = splitParts rest (current ++ [])
    rw [List.append_nil]
  | cons line lines ih =>
    rw [List.cons_append, splitParts, h line List.mem_cons_self, if_neg Bool.false_ne_true,
      ih fun l hl => h l (List.mem_cons_of_mem _ hl)]
    unfold unlines
    rw [List.flatMap_cons, List.append_assoc, List.append_assoc, List.append_assoc]

/-! ## Headers -/

/-- Nothing is trimmed between two ends that are no space. -/
theorem trimSpace_append {s : Str} (hhead : ∃ c rest, s = c :: rest ∧ isSpace c = false)
    (hlast : ∃ front c, s = front ++ [c] ∧ isSpace c = false) (rest : Str) :
    trimSpace (s ++ rest) = s ++ trimRight rest := by
  obtain ⟨c, tail, hs, hc⟩ := hhead
  obtain ⟨front, d, hs', hd⟩ := hlast
  have hfront : (s ++ rest).dropWhile isSpace = s ++ rest := by
    rw [hs, List.cons_append, List.dropWhile_cons_of_neg (by rw [hc]; exact Bool.false_ne_true)]
  have hback : s.reverse.dropWhile isSpace = s.reverse := by
    rw [hs', List.reverse_append, List.reverse_singleton, List.singleton_append,
      List.dropWhile_cons_of_neg (by rw [hd]; exact Bool.false_ne_true)]
  unfold trimSpace trimRight
  rw [hfront, List.reverse_append, List.dropWhile_append]
  split
  · rename_i hempty
    rw [List.isEmpty_iff.1 hempty, hback, List.reverse_reverse]
    exact (List.append_nil _).symm
  · rw [List.reverse_append, List.reverse_reverse]

theorem trimRight_newline : trimRight ('\n' :: s) = [] ∧ trimRight s = [] ∨
    trimRight ('\n' :: s) = '\n' :: trimRight s := by
  unfold trimRight
  rw [List.reverse_cons, List.dropWhile_append]
  split
  · rename_i hempty
    rw [List.isEmpty_iff.1 hempty]
    exact Or.inl ⟨rfl, rfl⟩
  · rw [List.reverse_append]
    exact Or.inr rfl

theorem Message.typeName_last : ∃ front c, m.typeName = front ++ [c] ∧ isSpace c = false := by
  obtain ⟨c, rest, hname, -⟩ := m.capital
  have hne : m.name ≠ [] := by
    rw [hname]
    exact List.cons_ne_nil _ _
  refine ⟨m.package ++ '/' :: m.name.dropLast, m.name.getLast hne, ?_, ?_⟩
  · unfold typeName
    rw [List.append_assoc, List.cons_append, List.dropLast_append_getLast hne]
  · exact m.no_space _ (List.mem_append_right _ (List.getLast_mem hne))

theorem Message.typeName_no_space : ∀ c ∈ m.typeName, isSpace c = false := by
  intro c hc
  unfold typeName at hc
  rw [List.mem_append, List.mem_cons] at hc
  obtain hc | rfl | hc := hc
  · exact m.no_space c (List.mem_append_left _ hc)
  · rfl
  · exact m.no_space c (List.mem_append_right _ hc)

theorem trimSpace_eq_self {s : Str} (h : ∀ c ∈ s, isSpace c = false) : trimSpace s = s := by
  have hfront : ∀ s : Str, (∀ c ∈ s, isSpace c = false) → s.dropWhile isSpace = s := by
    intro s hs
    cases s with
    | nil => rfl
    | cons c s =>
      rw [List.dropWhile_cons_of_neg (by rw [hs c List.mem_cons_self]; exact Bool.false_ne_true)]
  unfold trimSpace
  rw [hfront s h, hfront s.reverse fun c hc => h c (List.mem_reverse.1 hc), List.reverse_reverse]

theorem Message.trimSpace_header (rest : Str) :
    trimSpace (m.header ++ rest) = m.header ++ trimRight rest := by
  obtain ⟨front, c, hlast, hc⟩ := m.typeName_last
  have hends : m.header = (msgPrefix ++ front) ++ [c] := by
    unfold header
    rw [hlast, List.append_assoc]
  exact trimSpace_append ⟨'M', "SG: ".toList ++ m.typeName, rfl, rfl⟩
    ⟨msgPrefix ++ front, c, hends, hc⟩ rest

theorem Message.header_plain : '\n' ∉ m.header ∧ isSeparator m.header = false := by
  constructor
  · intro hmem
    unfold header at hmem
    rw [List.mem_append] at hmem
    obtain hmem | hmem := hmem
    · exact absurd hmem (by decide)
    · exact absurd (m.typeName_no_space _ hmem) (by decide)
  · have htrim := m.trimSpace_header []
    rw [List.append_nil] at htrim
    unfold isSeparator
    rw [htrim]
    rw [Bool.and_eq_false_iff]
    exact Or.inr rfl

theorem Message.trimSpace_part :
    trimSpace (unlines (m.header :: m.lines)) =
      m.header ++ trimRight ('\n' :: unlines m.lines) := by
  rw [← m.trimSpace_header]
  unfold unlines
  rw [List.flatMap_cons, List.append_assoc]
  rfl

/-- A part with a header is the block of its message. -/
theorem headedBlock_part : headedBlock (trimSpace (unlines (m.header :: m.lines))) = m.block := by
  have hline : ∀ c ∈ m.header, (c != '\n') = true := by
    intro c hc
    rw [bne_iff_ne]
    rintro rfl
    exact m.header_plain.1 hc
  have hsplit : ∀ rest : Str, (rest = [] ∨ ∃ tail, rest = '\n' :: tail) →
      headedBlock (m.header ++ rest) = { typeName := m.typeName, body := rest.drop 1 } := by
    intro rest hrest
    have htake : (m.header ++ rest).takeWhile (· != '\n') = m.header := by
      rw [List.takeWhile_append_of_pos hline]
      obtain rfl | ⟨tail, rfl⟩ := hrest <;> simp
    have hdrop : (m.header ++ rest).dropWhile (· != '\n') = rest := by
      rw [List.dropWhile_append_of_pos hline]
      obtain rfl | ⟨tail, rfl⟩ := hrest <;> simp
    unfold headedBlock
    dsimp only
    rw [htake, hdrop]
    unfold Message.header
    rw [if_pos (List.isPrefixOf_iff_prefix.2 (List.prefix_append _ _)), List.drop_left,
      trimSpace_eq_self m.typeName_no_space]
  rw [m.trimSpace_part]
  unfold Message.block
  obtain ⟨hnone, hbody⟩ | hbody := trimRight_newline (unlines m.lines)
  · rw [hnone, hbody, hsplit [] (Or.inl rfl)]
    rfl
  · rw [hbody, hsplit _ (Or.inr ⟨_, rfl⟩)]
    rfl

/-! ## Parsing a text -/

/-- There is nothing on its lines. -/
def Definition.Blank (d : Definition) : Prop := ∀ line ∈ d.lines, ∀ c ∈ line, isSpace c = true

theorem unlines_ne_nil (h : lines ≠ []) : unlines lines ≠ [] := by
  cases lines with
  | nil => exact absurd rfl h
  | cons line lines =>
    unfold unlines
    rw [List.flatMap_cons]
    simp

theorem splitParts_subs (subs : List Message) {current : Str} (h : current ≠ []) :
    splitParts (subs.flatMap (Message.text sep)) current =
      current :: subs.map fun m => unlines (m.header :: m.lines) := by
  induction subs generalizing current with
  | nil =>
    show (if current.isEmpty then [] else [current]) = [current]
    rw [if_neg (by simpa using h)]
  | cons m subs ih =>
    have hplain : ∀ line ∈ m.header :: m.lines, isSeparator line = false := by
      intro line hline
      obtain rfl | hline := List.mem_cons.1 hline
      · exact m.header_plain.2
      · exact (m.plain line hline).2
    have htext : m.text sep = sep.line :: (m.header :: m.lines) := rfl
    rw [List.flatMap_cons, htext, List.cons_append, splitParts, if_pos sep.separates.2,
      splitParts_plain hplain, List.nil_append, ih (unlines_ne_nil (List.cons_ne_nil _ _)),
      List.map_cons]

theorem splitOn_textOf (root : Definition) (subs : List Message)
    (h : root.lines ++ subs.flatMap (Message.text sep) ≠ []) :
    (textOf sep root subs).splitOn '\n' = root.lines ++ subs.flatMap (Message.text sep) := by
  refine List.splitOn_intercalate '\n' ?_ h
  intro line hline
  obtain hline | hline := List.mem_append.1 hline
  · exact (root.plain line hline).1
  · obtain ⟨m, -, hline⟩ := List.mem_flatMap.1 hline
    unfold Message.text at hline
    rw [List.mem_cons, List.mem_cons] at hline
    obtain rfl | rfl | hline := hline
    · exact sep.separates.1
    · exact m.header_plain.1
    · exact (m.plain line hline).1

theorem trimSpace_eq_nil {s : Str} : trimSpace s = [] ↔ ∀ c ∈ s, isSpace c = true := by
  constructor
  · intro h c hc
    by_contra hspace
    have hmem : (c ∈ trimSpace s) = (c ∈ s) :=
      trimSpace_invariant (f := fun s => c ∈ s)
        (fun d s hd => propext (List.mem_cons.trans (or_iff_right (by
          rintro rfl
          exact hspace hd))))
        (fun d s hd => propext (List.mem_append.trans (or_iff_left (by
          rw [List.mem_singleton]
          rintro rfl
          exact hspace hd)))) s
    rw [h] at hmem
    exact absurd (hmem ▸ hc) (List.not_mem_nil)
  · intro h
    unfold trimSpace
    rw [List.dropWhile_eq_nil_iff.2 h]
    rfl

theorem Definition.Blank.trimSpace {d : Definition} :
    d.Blank ↔ Cdr.trimSpace (unlines d.lines) = [] := by
  rw [trimSpace_eq_nil]
  constructor
  · intro h c hc
    obtain ⟨line, hline, hc⟩ := List.mem_flatMap.1 hc
    obtain hc | hc := List.mem_append.1 hc
    · exact h line hline c hc
    · rw [List.mem_singleton.1 hc]
      rfl
  · intro h line hline c hc
    exact h c (List.mem_flatMap.2 ⟨line, hline, List.mem_append_left _ hc⟩)

theorem Definition.Blank.read {d : Definition} (h : d.Blank) : d.read = [] := by
  refine List.filterMap_eq_nil_iff.2 fun line hline => ?_
  unfold fieldLine
  rw [trimSpace_eq_nil.2 (h line hline)]
  rfl

theorem splitMsgBlocks_textOf {root : Definition} (subs : List Message) (h : ¬root.Blank) :
    splitMsgBlocks (textOf sep root subs) =
      { typeName := [], body := trimSpace (unlines root.lines) } :: subs.map Message.block := by
  have hne : root.lines ≠ [] := by
    intro hnil
    refine h fun line hline => ?_
    rw [hnil] at hline
    cases hline
  have hsubs : ∀ subs : List Message,
      (((subs.map fun m => unlines (m.header :: m.lines)).map trimSpace).filter
        fun part => !part.isEmpty).map headedBlock = subs.map Message.block := by
    intro subs
    induction subs with
    | nil => rfl
    | cons m subs ih =>
      have hfull : (!(trimSpace (unlines (m.header :: m.lines))).isEmpty) = true := by
        rw [m.trimSpace_part]
        rfl
      rw [List.map_cons, List.map_cons, List.filter_cons, if_pos hfull, List.map_cons, ih,
        headedBlock_part, List.map_cons]
  unfold splitMsgBlocks
  rw [splitOn_textOf sep root subs (List.append_ne_nil_of_left_ne_nil hne _),
    splitParts_plain fun line hline => (root.plain line hline).2, List.nil_append,
    splitParts_subs sep subs (unlines_ne_nil hne)]
  dsimp only
  rw [hsubs, if_neg (by simpa using fun hnil => h (Definition.Blank.trimSpace.2 hnil))]
  rfl

/-- The client parses what its blocks say. -/
theorem parseSchema_textOf {root : Definition} {subs : List Message} (h : root.Blank → subs = []) :
    parseSchema (textOf sep root subs) =
      (resolve (subs.map Message.block) (subs.length + 1) 0 ∅).bind fun subTypes =>
        (parseDeclarations subTypes root.read).mapError .root := by
  by_cases hblank : root.Blank
  · have hnone := h hblank
    subst hnone
    rw [hblank.read]
    have hsplit : splitMsgBlocks (textOf sep root []) = [] := by
      unfold splitMsgBlocks
      by_cases hlines : root.lines = []
      · unfold textOf
        rw [hlines]
        rfl
      · rw [splitOn_textOf sep root [] (List.append_ne_nil_of_left_ne_nil hlines _)]
        rw [splitParts_plain fun line hline => (root.plain line hline).2, List.nil_append,
          splitParts_subs sep [] (unlines_ne_nil hlines)]
        dsimp only
        rw [Definition.Blank.trimSpace.1 hblank]
        rfl
    unfold parseSchema
    rw [hsplit]
    rfl
  · unfold parseSchema
    rw [splitMsgBlocks_textOf sep subs hblank]
    dsimp only
    unfold parseMsgBlock
    rw [List.length_map, declarations_trimSpace, declarations_unlines fun line hline =>
      (root.plain line hline).1]
    rfl

end Cdr
end Foxglove
end Mowgli
