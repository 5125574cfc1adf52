import Mowgli.Foxglove.Fixpoint

/-!
# Resolution — the schema a text stands for

What a text says by the rules of ROS 2: each message has its declared fields in their order, and
a field of a message type has all the fields of the message it names, which is one of the same
package where the name has none.

The client gets this, in whatever order the blocks come, when no message it needs declares a
bounded type, which it takes for a constant, or a wide string, which it does not know, and when a
short name that two messages share is only used by the root, and there with its package. Elsewhere
such a name may be read as the other message, for a pass or for good, and what the client gets
depends on the order of the blocks.
-/

namespace Mowgli
namespace Foxglove
namespace Cdr

/-! ## Types as they are declared -/

inductive ArrayPart
  | single
  | unbounded
  | fixed (n : Nat)
  | bounded (n : Nat)
  deriving DecidableEq

def ArrayPart.text : ArrayPart → Str
  | single => []
  | unbounded => "[]".toList
  | fixed n => '[' :: (Text.decimal n ++ [']'])
  | bounded n => "[<=".toList ++ Text.decimal n ++ [']']

def wideString : Str := "wstring".toList

def isText (base : Str) : Bool := isString base || base == wideString

/-- A type, with the bound of a string and what says whether there are many. -/
structure MsgType where
  base : Str
  bound : Option Nat
  array : ArrayPart
  base_plain : ∀ c ∈ base, c ≠ '[' ∧ c ≠ '='
  bound_text : bound.isSome → isText base = true
  size_fits : ∀ n, array = .fixed n → n ≤ 9223372036854775807

def boundText : Option Nat → Str
  | none => []
  | some n => "<=".toList ++ Text.decimal n

def MsgType.text (ty : MsgType) : Str := ty.base ++ boundText ty.bound ++ ty.array.text

/-- The message it is made of. -/
def MsgType.ref (ty : MsgType) : Option Str :=
  if isPrimitive ty.base || isText ty.base then none else some ty.base

/-- What the elements of an array are. Wide ones are strings. -/
def MsgType.element (ty : MsgType) : Str := if isText ty.base then "string".toList else ty.base

def MsgType.field (ty : MsgType) (name : Str) : Field :=
  match ty.array with
  | .single =>
    if isText ty.base then { name := name, kind := .string, primitive := [], arrayLen := 0 }
    else if isPrimitive ty.base then
      { name := name, kind := .primitive, primitive := ty.base, arrayLen := 0 }
    else { name := name, kind := .message, primitive := ty.base, arrayLen := 0 }
  | .unbounded | .bounded _ =>
    { name := name, kind := .dynArray, primitive := ty.element, arrayLen := 0 }
  | .fixed n => { name := name, kind := .fixedArray, primitive := ty.element, arrayLen := n }

/-- The message a reference in this package means. -/
def Names (package ref : Str) (m : Message) : Prop :=
  m.typeName = ref ∨ ('/' ∉ ref ∧ m.package = package ∧ m.name = ref)

instance (package ref : Str) (m : Message) : Decidable (Names package ref m) :=
  inferInstanceAs (Decidable (_ ∨ _ ∧ _ ∧ _))

/-- The fields are those of the declarations, to any depth. -/
def Full (subs : List Message) : Str → List (Str × Str) → Fields → Prop
  | _, [], .nil => True
  | package, decl :: decls, .cons f subFields rest =>
    (∃ ty : MsgType, ty.text = decl.1 ∧ f = ty.field decl.2 ∧
      (ty.ref = none → subFields = .nil) ∧
      ∀ ref, ty.ref = some ref →
        ∃ m ∈ subs, Names package ref m ∧ Full subs m.package m.declared subFields) ∧
      Full subs package decls rest
  | _, _, _ => False

/-- A field of the definition is of this message. -/
def Refers (subs : List Message) (d : Definition) (m : Message) : Prop :=
  m ∈ subs ∧ ∃ decl ∈ d.declared, ∃ ty : MsgType, ty.text = decl.1 ∧
    ∃ ref, ty.ref = some ref ∧ Names d.package ref m

/-- The definitions a message is made of, its own with them. -/
inductive Needed (subs : List Message) (root : Definition) : Definition → Prop
  | root : Needed subs root root
  | nested {d : Definition} {m : Message} (hd : Needed subs root d) (hm : Refers subs d m) :
      Needed subs root m.toDefinition

/-- The declared types are types, and what they name is there. -/
def Typed (subs : List Message) (d : Definition) : Prop :=
  ∀ decl ∈ d.declared, ∃ ty : MsgType, ty.text = decl.1 ∧
    ∀ ref, ty.ref = some ref → ∃ m ∈ subs, Names d.package ref m

/-- A message definition with those of all messages it is made of, and no cycle. -/
structure Valid (root : Definition) (subs : List Message) : Prop where
  blank : root.Blank → subs = []
  distinct : (subs.map Message.typeName).Nodup
  root_typed : Typed subs root
  typed : ∀ m ∈ subs, Typed subs m.toDefinition
  acyclic : ∀ m ∈ subs,
    ¬Relation.TransGen (fun a b : Message => Refers subs a.toDefinition b) m m

/-- Whatever the order of the blocks, the schema is the one the text stands for. -/
def Resolves (sep : Separator) (root : Definition) (subs : List Message) : Prop :=
  ∃ schema, Full subs root.package root.declared schema ∧
    ∀ order : List Message, order.Perm subs → parseSchema (textOf sep root order) = .ok schema

/-- A field that is read names this message so. -/
def Cites (subs : List Message) (d : Definition) (ref : Str) (m : Message) : Prop :=
  m ∈ subs ∧ Names d.package ref m ∧
    ∃ decl ∈ d.declared, '=' ∉ decl.1 ∧ ∃ ty : MsgType, ty.text = decl.1 ∧ ty.ref = some ref

/-- Only the root names a message whose short name another message has too, and only with its
    package. -/
structure Unmixed (root : Definition) (subs : List Message) : Prop where
  root : ∀ ref m, Cites subs root ref m → '/' ∉ ref → Lone subs m
  nested : ∀ m ∈ subs, ∀ ref m', Cites subs m.toDefinition ref m' → Lone subs m'

/-- Neither bounded nor a wide string. -/
def PlainType (typStr : Str) : Prop :=
  '=' ∉ typStr ∧ typStr.takeWhile (· != '[') ≠ wideString

instance : DecidablePred PlainType := fun _ => inferInstanceAs (Decidable (_ ∧ _))

/-! ## How types are read -/

theorem not_mem_array_text {array : ArrayPart} :
    '=' ∉ array.text ↔ ∀ n, array ≠ .bounded n := by
  cases array with
  | single => exact ⟨fun _ _ => nofun, fun _ => List.not_mem_nil⟩
  | unbounded => exact ⟨fun _ _ => nofun, fun _ => by decide⟩
  | fixed n =>
    refine ⟨fun _ _ => nofun, fun _ hmem => ?_⟩
    unfold ArrayPart.text at hmem
    rw [List.mem_cons, List.mem_append, List.mem_singleton] at hmem
    obtain hmem | hmem | hmem := hmem
    · exact absurd hmem (by decide)
    · exact Text.not_mem_decimal (by decide) hmem
    · exact absurd hmem (by decide)
  | bounded n =>
    refine ⟨fun h => absurd ?_ h, fun h => absurd rfl (h n)⟩
    unfold ArrayPart.text
    exact List.mem_append_left _ (List.mem_append_left _ (by decide))

variable {ty : MsgType} {d : Definition} {m : Message} {ref : Str} {subs : List Message}

/-- Without an equals sign there is no bound. -/
theorem MsgType.unbounded_of_text (h : '=' ∉ ty.text) :
    ty.bound = none ∧ ∀ n, ty.array ≠ .bounded n := by
  unfold text at h
  rw [List.mem_append, List.mem_append, not_or, not_or] at h
  refine ⟨?_, not_mem_array_text.1 h.2⟩
  cases hbound : ty.bound with
  | none => rfl
  | some n =>
    rw [hbound] at h
    exact absurd (List.mem_append_left _ (by decide)) h.1.2

theorem MsgType.text_split (h : '=' ∉ ty.text) :
    ty.text.takeWhile (· != '[') = ty.base ∧ ty.text.dropWhile (· != '[') = ty.array.text := by
  have htext : ty.text = ty.base ++ ty.array.text := by
    unfold text
    rw [(unbounded_of_text h).1]
    exact congrArg (· ++ ty.array.text) (List.append_nil _)
  have hbase : ∀ c ∈ ty.base, (c != '[') = true := by
    intro c hc
    rw [bne_iff_ne]
    exact (ty.base_plain c hc).1
  have harray : ty.array.text = [] ∨ ∃ rest, ty.array.text = '[' :: rest := by
    cases ty.array with
    | single => exact Or.inl rfl
    | unbounded => exact Or.inr ⟨_, rfl⟩
    | fixed n => exact Or.inr ⟨_, rfl⟩
    | bounded n => exact Or.inr ⟨_, rfl⟩
  rw [htext, List.takeWhile_append_of_pos hbase, List.dropWhile_append_of_pos hbase]
  obtain hnone | ⟨rest, hrest⟩ := harray
  · rw [hnone]
    exact ⟨List.append_nil _, rfl⟩
  · rw [hrest]
    simp

theorem MsgType.text_single (h : '=' ∉ ty.text) (harray : ty.array = .single) :
    ty.text = ty.base := by
  have hsplit := text_split h
  rw [harray] at hsplit
  have hwhole := List.takeWhile_append_dropWhile (p := (· != '[')) (l := ty.text)
  rw [hsplit.1, hsplit.2] at hwhole
  exact hwhole.symm.trans (List.append_nil _)

theorem cutByte_bracket (s : Str) : cutByte (s ++ [']']) = s := by
  unfold cutByte
  rw [List.getLast?_concat]
  exact List.dropLast_concat

theorem sscanfInt_decimal {n : Nat} (h : n ≤ 9223372036854775807) :
    sscanfInt (Text.decimal n) = some (n : Int) := by
  obtain ⟨c, rest, hdecimal, hdigit⟩ := Text.decimal_cons n
  have hends : Text.Ends [] := nofun
  have hdigits := Text.digits_decimal n hends
  rw [List.append_nil] at hdigits
  unfold sscanfInt
  dsimp only
  split
  · rename_i heq
    rw [hdecimal] at heq
    cases heq
    exact absurd hdigit (by decide)
  · rename_i heq
    rw [hdecimal] at heq
    cases heq
    exact absurd hdigit (by decide)
  · rw [hdigits]
    have hrange : -9223372036854775808 ≤ (n : Int) ∧ (n : Int) ≤ 9223372036854775807 := by omega
    simp only [Option.bind_some, Bool.false_eq_true, if_false]
    exact if_pos hrange

theorem MsgType.readable (h : '=' ∉ ty.text) : Readable ty.text := by
  unfold Readable Unclosed BadSize
  rw [(text_split h).2]
  cases harray : ty.array with
  | single => exact ⟨by decide, by decide⟩
  | unbounded => exact ⟨by decide, by decide⟩
  | fixed n =>
    refine ⟨?_, ?_⟩
    · unfold ArrayPart.text
      simp
    · rintro ⟨-, -, hnone⟩
      unfold ArrayPart.text at hnone
      rw [List.drop_one, List.tail_cons, cutByte_bracket,
        sscanfInt_decimal (ty.size_fits n harray)] at hnone
      cases hnone
  | bounded n => exact absurd harray ((unbounded_of_text h).2 n)

/-- A type that is no wide string is read as it is declared. -/
theorem MsgType.readEntry_eq (h : '=' ∉ ty.text) (hwide : ty.base ≠ wideString) (name : Str) :
    readEntry (ty.text, name) = (ty.field name, ty.ref) := by
  have htext : isText ty.base = isString ty.base := by
    unfold isText
    rw [beq_eq_false_iff_ne.2 hwide, Bool.or_false]
  have hbase : ty.element = ty.base := by
    unfold element
    rw [htext]
    split
    · rename_i hstring
      exact (beq_iff_eq.1 hstring).symm
    · rfl
  unfold readEntry readField readRef field ref
  dsimp only
  rw [(text_split h).1, (text_split h).2, htext, hbase]
  cases harray : ty.array with
  | single =>
    rw [text_single h harray]
    show ((plainField ty.base name ∅).1, _) = _
    unfold plainField
    by_cases hstring : isString ty.base = true
    · simp [hstring]
    · by_cases hprimitive : isPrimitive ty.base = true
      · simp [hstring, hprimitive]
      · simp [hstring, hprimitive]
  | unbounded => rfl
  | fixed n =>
    unfold ArrayPart.text
    dsimp only
    rw [cutByte_bracket, sscanfInt_decimal (ty.size_fits n harray), if_neg]
    · rfl
    · simpa using Text.decimal_ne_nil n
  | bounded n => exact absurd harray ((unbounded_of_text h).2 n)

/-- A wide string is not. -/
theorem MsgType.readField_wide (h : '=' ∉ ty.text) (hwide : ty.base = wideString) (name : Str) :
    readField ty.text name ≠ ty.field name := by
  have hsplit := text_split h
  intro heq
  unfold readField field element at heq
  rw [hsplit.1, hsplit.2, hwide] at heq
  cases harray : ty.array with
  | single =>
    rw [harray, text_single h harray, hwide] at heq
    have hkind : FieldKind.message = FieldKind.string := congrArg Field.kind heq
    cases hkind
  | unbounded =>
    rw [harray] at heq
    have hprimitive : wideString = "string".toList := congrArg Field.primitive heq
    exact absurd hprimitive (by decide)
  | fixed n =>
    rw [harray] at heq
    unfold ArrayPart.text at heq
    dsimp only at heq
    rw [cutByte_bracket, if_neg (by simpa using Text.decimal_ne_nil n)] at heq
    have hprimitive : wideString = "string".toList := congrArg Field.primitive heq
    exact absurd hprimitive (by decide)
  | bounded n => exact absurd harray ((unbounded_of_text h).2 n)

/-! ## What a definition refers to -/

theorem mem_read {decl : Str × Str} : decl ∈ d.read ↔ decl ∈ d.declared ∧ '=' ∉ decl.1 := by
  have hequals : (!decl.1.any (· == '=')) = true ↔ '=' ∉ decl.1 := by
    rw [Bool.not_eq_true', List.any_eq_false]
    constructor
    · exact fun h hmem => h '=' hmem rfl
    · rintro h c hc heq
      rw [beq_iff_eq] at heq
      exact h (heq ▸ hc)
  rw [read_eq, List.mem_filter, hequals]

variable {package : Str}

theorem Names.cases (h : Names package ref m) : ref = m.typeName ∨ ('/' ∉ ref ∧ ref = m.name) :=
  h.imp Eq.symm fun ⟨hslash, _, hname⟩ => ⟨hslash, hname.symm⟩

/-- A reference means one message. -/
theorem Names.unique (hdistinct : (subs.map Message.typeName).Nodup) {m' : Message} (hm : m ∈ subs)
    (hm' : m' ∈ subs) (h : Names package ref m) (h' : Names package ref m') : m = m' := by
  refine List.inj_on_of_nodup_map hdistinct hm hm' ?_
  rcases h with heq | ⟨hslash, hpackage, hname⟩
  · rcases h' with heq' | ⟨hslash', -⟩
    · exact heq.trans heq'.symm
    · exact absurd (heq ▸ slash_typeName m) hslash'
  · rcases h' with heq' | ⟨-, hpackage', hname'⟩
    · exact absurd (heq' ▸ slash_typeName m') hslash
    · unfold Message.typeName
      rw [hpackage, hname, hpackage', hname']

theorem Typed.readable (h : Typed subs d) : ∀ decl ∈ d.read, Readable decl.1 := by
  intro decl hdecl
  obtain ⟨hdeclared, hequals⟩ := mem_read.1 hdecl
  obtain ⟨ty, htext, -⟩ := h decl hdeclared
  rw [← htext] at hequals ⊢
  exact ty.readable hequals

/-- What is read names a message of the text, unless it is a wide string. -/
theorem Typed.reads (h : Typed subs d) {decl : Str × Str} (hdecl : decl ∈ d.read)
    (href : readRef decl.1 = some ref) : ref = wideString ∨ ∃ m, Cites subs d ref m := by
  obtain ⟨hdeclared, hequals⟩ := mem_read.1 hdecl
  obtain ⟨ty, htext, hnames⟩ := h decl hdeclared
  have hplain := hequals
  rw [← htext] at hequals href
  by_cases hwide : ty.base = wideString
  · unfold Cdr.readRef at href
    rw [(ty.text_split hequals).1, hwide] at href
    exact Or.inl (Option.some.inj href).symm
  · have hentry := congrArg Prod.snd (ty.readEntry_eq hequals hwide decl.2)
    have hty : ty.ref = some ref := hentry.symm.trans href
    obtain ⟨m, hm, hname⟩ := hnames ref hty
    exact Or.inr ⟨m, hm, hname, decl, hdeclared, hplain, ty, htext, hty⟩

theorem Cites.refers (h : Cites subs d ref m) : Refers subs d m := by
  obtain ⟨hm, hname, decl, hdecl, -, ty, htext, href⟩ := h
  exact ⟨hm, decl, hdecl, ty, htext, ref, href, hname⟩

theorem answerable_wide (subs : List Message) : Answerable subs wideString := by
  refine .inl ⟨by decide, fun m _ heq => ?_⟩
  obtain ⟨c, rest, hcapital, hupper⟩ := m.capital
  rw [heq] at hcapital
  cases hcapital
  exact absurd hupper (by decide)

theorem Cites.answerable (h : Cites subs d ref m) (hlone : Lone subs m) : Answerable subs ref :=
  .inr ⟨m, h.1, hlone, h.2.1.cases.imp id fun h => h.2⟩

theorem Cites.target (hdistinct : (subs.map Message.typeName).Nodup) (h : Cites subs d ref m)
    (hlone : '/' ∉ ref → Lone subs m) : target subs ref = some m := by
  obtain rfl | ⟨hslash, rfl⟩ := h.2.1.cases
  · exact target_typeName hdistinct h.1
  · exact target_name h.1 (hlone hslash)

/-! ## Ranks -/

/-- How many messages a message is made of. -/
noncomputable def rankOf (subs : List Message) (m : Message) : Nat :=
  Sweep.below (fun a b : Message => Refers subs a.toDefinition b) subs m

theorem ranked {root : Definition} (hvalid : Valid root subs) (hunmixed : Unmixed root subs) :
    Sweep.Ranked (equation subs) (rankOf subs) := by
  intro m types types' h
  unfold equation
  split
  · rename_i hm
    refine build_congr fun entry hentry ref href => ?_
    obtain ⟨decl, hdecl, rfl⟩ := List.mem_map.1 hentry
    unfold denote
    obtain rfl | ⟨m', hreads⟩ := (hvalid.typed m hm).reads hdecl href
    · -- no message is called so
      have hnone : target subs wideString = none := by
        unfold target
        rw [if_neg (by decide)]
        rcases answerable_wide subs with ⟨-, hnone⟩ | ⟨m', -, -, heq | heq⟩
        · exact List.find?_eq_none.2 fun m hm => by simpa using hnone m hm
        · exact absurd (heq ▸ slash_typeName m') (by decide)
        · obtain ⟨c, rest, hcapital, hupper⟩ := m'.capital
          rw [← heq] at hcapital
          cases hcapital
          exact absurd hupper (by decide)
      rw [hnone]
      rfl
    · rw [hreads.target hvalid.distinct fun _ => hunmixed.nested m hm ref m' hreads]
      exact h m' (Sweep.below_lt hreads.refers hreads.1 (hvalid.acyclic m' hreads.1))
  · rfl

/-! ## The two directions -/

/-- A plain definition is read in full when the messages it refers to are. -/
theorem full_build (htyped : Typed subs d) (hplain : ∀ decl ∈ d.declared, PlainType decl.1)
    {types : Message → Fields} (htarget : ∀ ref m, Cites subs d ref m → target subs ref = some m)
    (hnested : ∀ m, Refers subs d m → Full subs m.package m.declared (types m)) :
    Full subs d.package d.declared (build (denote subs types) (d.read.map readEntry)) := by
  have hread : d.read = d.declared := by
    rw [read_eq, List.filter_eq_self]
    intro decl hdecl
    have hmem : decl ∈ d.read := mem_read.2 ⟨hdecl, (hplain decl hdecl).1⟩
    rw [read_eq] at hmem
    exact (List.mem_filter.1 hmem).2
  have hdecls : ∀ decls : List (Str × Str), (∀ decl ∈ decls, decl ∈ d.declared) →
      Full subs d.package decls (build (denote subs types) (decls.map readEntry)) := by
    intro decls
    induction decls with
    | nil => exact fun _ => trivial
    | cons decl decls ih =>
      intro hmem
      have hdecl := hmem decl List.mem_cons_self
      obtain ⟨ty, htext, hnames⟩ := htyped decl hdecl
      obtain ⟨hequals, hwide⟩ := hplain decl hdecl
      have hread := hequals
      rw [← htext] at hequals hwide
      rw [(ty.text_split hequals).1] at hwide
      have hentry : readEntry decl = (ty.field decl.2, ty.ref) := by
        rw [← ty.readEntry_eq hequals hwide, htext]
      refine ⟨⟨ty, htext, ?_, ?_, ?_⟩, ih fun other hother =>
        hmem other (List.mem_cons_of_mem _ hother)⟩
      · rw [hentry]
      · intro hnone
        rw [hentry, hnone]
        rfl
      · intro ref href
        obtain ⟨m, hm, hname⟩ := hnames ref href
        have hreads : Cites subs d ref m := ⟨hm, hname, decl, hdecl, hread, ty, htext, href⟩
        rw [hentry, href]
        refine ⟨m, hm, hname, ?_⟩
        show Full subs m.package m.declared (denote subs types ref)
        unfold denote
        rw [htarget ref m hreads]
        exact hnested m hreads.refers
  rw [hread]
  exact hdecls d.declared fun decl hdecl => hdecl

theorem full_length {decls : List (Str × Str)} {fields : Fields}
    (h : Full subs package decls fields) : fields.length = decls.length := by
  induction decls generalizing fields with
  | nil =>
    cases fields with
    | nil => rfl
    | cons f subFields rest => exact h.elim
  | cons decl decls ih =>
    cases fields with
    | nil => exact h.elim
    | cons f subFields rest => exact congrArg Nat.succ (ih h.2)

/-- Only a plain definition is read in full, and so are then the messages it refers to. -/
theorem of_full_build (hdistinct : (subs.map Message.typeName).Nodup) {types : Message → Fields}
    (htarget : ∀ ref m, Cites subs d ref m → target subs ref = some m)
    (h : Full subs d.package d.declared (build (denote subs types) (d.read.map readEntry))) :
    (∀ decl ∈ d.declared, PlainType decl.1) ∧
      ∀ m, Refers subs d m → Full subs m.package m.declared (types m) := by
  have hread : d.read = d.declared := by
    have hlength := full_length h
    rw [length_build, List.length_map, read_eq] at hlength
    rw [read_eq]
    exact (List.filter_sublist).eq_of_length hlength
  rw [hread] at h
  have hdecls : ∀ decls : List (Str × Str), (∀ decl ∈ decls, decl ∈ d.declared ∧ '=' ∉ decl.1) →
      Full subs d.package decls (build (denote subs types) (decls.map readEntry)) →
      ∀ decl ∈ decls, PlainType decl.1 ∧ ∀ ty : MsgType, ty.text = decl.1 →
        ∀ ref, ty.ref = some ref → ∀ m ∈ subs, Names d.package ref m →
          Full subs m.package m.declared (types m) := by
    intro decls
    induction decls with
    | nil => exact fun _ _ decl hdecl => nomatch hdecl
    | cons decl decls ih =>
      intro hequals hfull other hother
      obtain rfl | hother := List.mem_cons.1 hother
      · obtain ⟨ty, htext, hfield, -, hnested⟩ := hfull.1
        obtain ⟨hother, hplain⟩ := hequals other List.mem_cons_self
        have hnone := hplain
        rw [← htext] at hnone
        have hbase := (ty.text_split hnone).1
        have hwide : ty.base ≠ wideString := by
          intro hwide
          refine ty.readField_wide hnone hwide other.2 ?_
          rw [htext]
          exact hfield
        have hentry : readEntry other = (ty.field other.2, ty.ref) := by
          rw [← ty.readEntry_eq hnone hwide, htext]
        refine ⟨⟨hplain, ?_⟩, ?_⟩
        · rw [← htext, hbase]
          exact hwide
        · intro ty' htext' ref href m hm hname
          have hreads : Cites subs d ref m := ⟨hm, hname, other, hother, hplain, ty', htext', href⟩
          -- both types have the base that stands in the text
          have hbase' : ty'.base = ty.base := by
            rw [← htext] at htext'
            rw [← hbase, ← htext']
            rw [← htext'] at hnone
            exact (ty'.text_split hnone).1.symm
          have href' : ty.ref = some ref := by
            rw [← href]
            unfold MsgType.ref
            rw [hbase']
          obtain ⟨m', hm', hname', hfull'⟩ := hnested ref href'
          rw [hentry, href'] at hfull'
          have hsub : Full subs m'.package m'.declared (denote subs types ref) := hfull'
          unfold denote at hsub
          rw [htarget ref m hreads] at hsub
          rw [← Names.unique hdistinct hm hm' hname hname'] at hsub
          exact hsub
      · exact ih (fun decl hdecl => hequals decl (List.mem_cons_of_mem _ hdecl)) hfull.2 other
          hother
  have hequals : ∀ decl ∈ d.declared, decl ∈ d.declared ∧ '=' ∉ decl.1 := by
    intro decl hdecl
    rw [← hread] at hdecl
    exact mem_read.1 hdecl
  have hall := hdecls d.declared hequals h
  refine ⟨fun decl hdecl => (hall decl hdecl).1, ?_⟩
  rintro m ⟨hm, decl, hdecl, ty, htext, ref, href, hname⟩
  exact (hall decl hdecl).2 ty htext ref href m hm hname

/-- A valid text whose short names are not mixed up is resolved in full, if what is needed of it is
    plain; and only then. -/
theorem schema_resolution (sep : Separator) {root : Definition} {subs : List Message}
    (hvalid : Valid root subs) :
    (Unmixed root subs ∧ (∀ d, Needed subs root d → ∀ decl ∈ d.declared, PlainType decl.1) →
        Resolves sep root subs) ∧
      (Resolves sep root subs → Unmixed root subs →
        ∀ d, Needed subs root d → ∀ decl ∈ d.declared, PlainType decl.1) := by
  suffices hiff : Unmixed root subs → (Resolves sep root subs ↔
      ∀ d, Needed subs root d → ∀ decl ∈ d.declared, PlainType decl.1) from
    ⟨fun h => (hiff h.1).2 h.2, fun h hunmixed => (hiff hunmixed).1 h⟩
  intro hunmixed
  have hanswerable : ∀ m ∈ subs, ∀ decl ∈ m.read, ∀ ref, readRef decl.1 = some ref →
      Answerable subs ref := by
    intro m hm decl hdecl ref href
    obtain rfl | ⟨m', hreads⟩ := (hvalid.typed m hm).reads hdecl href
    · exact answerable_wide subs
    · exact hreads.answerable (hunmixed.nested m hm ref m' hreads)
  have hrefs : ∀ decl ∈ root.read, ∀ ref, readRef decl.1 = some ref →
      Answerable subs ref ∨ ∃ m ∈ subs, ref = m.typeName := by
    intro decl hdecl ref href
    obtain rfl | ⟨m, hreads⟩ := hvalid.root_typed.reads hdecl href
    · exact .inl (answerable_wide subs)
    · obtain heq | ⟨hslash, -⟩ := hreads.2.1.cases
      · exact .inr ⟨m, hreads.1, heq⟩
      · exact .inl (hreads.answerable (hunmixed.root ref m hreads hslash))
  have htarget : ∀ d, Needed subs root d → ∀ ref m, Cites subs d ref m →
      target subs ref = some m := by
    intro d hd ref m hreads
    refine hreads.target hvalid.distinct fun hslash => ?_
    cases hd with
    | root => exact hunmixed.root ref m hreads hslash
    | nested hd hm => exact hunmixed.nested _ hm.1 ref m hreads
  obtain ⟨types, hsolves, hparsed⟩ := parseSchema_solved hvalid.distinct
    (fun m hm => (hvalid.typed m hm).readable) hanswerable sep hvalid.blank
    hvalid.root_typed.readable hrefs (ranked hvalid hunmixed) fun m => List.countP_le_length
  have hmessage : ∀ m ∈ subs, types m = build (denote subs types) (m.read.map readEntry) := by
    intro m hm
    refine (hsolves m).trans ?_
    unfold equation
    rw [if_pos hm]
  constructor
  · rintro ⟨schema, hfull, hparses⟩
    have hroot := (hparses subs (List.Perm.refl subs)).symm.trans
      (hparsed subs (List.Perm.refl subs))
    cases hroot
    have hneeded : ∀ d, Needed subs root d → Full subs d.package d.declared
        (build (denote subs types) (d.read.map readEntry)) := by
      intro d hd
      induction hd with
      | root => exact hfull
      | nested hd hm ih =>
        rw [← hmessage _ hm.1]
        exact (of_full_build hvalid.distinct (htarget _ hd) ih).2 _ hm
    exact fun d hd => (of_full_build hvalid.distinct (htarget d hd) (hneeded d hd)).1
  · intro hplain
    have htyped : ∀ d, Needed subs root d → Typed subs d := by
      intro d hd
      cases hd with
      | root => exact hvalid.root_typed
      | nested hd hm => exact hvalid.typed _ hm.1
    -- by the rank of the message
    have hmessages : ∀ n, ∀ d, Needed subs root d → ∀ m, Refers subs d m →
        rankOf subs m < n → Full subs m.package m.declared (types m) := by
      intro n
      induction n with
      | zero => exact fun d _ m _ hrank => absurd hrank (Nat.not_lt_zero _)
      | succ n ih =>
        intro d hd m hm hrank
        have hneeded := Needed.nested hd hm
        rw [hmessage m hm.1]
        refine full_build (htyped _ hneeded) (hplain _ hneeded) (htarget _ hneeded) fun m' hm' =>
          ih _ hneeded m' hm' ?_
        have hlower : rankOf subs m' < rankOf subs m :=
          Sweep.below_lt hm' hm'.1 (hvalid.acyclic m' hm'.1)
        omega
    exact ⟨_, full_build hvalid.root_typed (hplain root .root) (htarget root .root) fun m hm =>
      hmessages _ root .root m hm (Nat.lt_succ_self _), hparsed⟩

/-! ## Texts -/

theorem no_mark {base : Str} (h : '[' ∉ base ∧ '=' ∉ base) : ∀ c ∈ base, c ≠ '[' ∧ c ≠ '=' := by
  rintro c hc
  refine ⟨?_, ?_⟩
  · rintro rfl
    exact h.1 hc
  · rintro rfl
    exact h.2 hc

/-- A type of one word that is no array. -/
def wordType (base : Str) (h : '[' ∉ base ∧ '=' ∉ base) : MsgType :=
  ⟨base, none, .single, no_mark h, nofun, nofun⟩

/-- The types are words, and the messages they name are there. -/
def Worded (subs : List Message) (d : Definition) : Prop :=
  ∀ decl ∈ d.declared, ('[' ∉ decl.1 ∧ '=' ∉ decl.1) ∧
    ∀ ref ∈ readRef decl.1, ∃ m ∈ subs, Names d.package ref m

instance (subs : List Message) (d : Definition) : Decidable (Worded subs d) :=
  inferInstanceAs (Decidable (∀ decl ∈ d.declared, _ ∧ _))

theorem MsgType.readRef_of_ref {typStr : Str} (htext : ty.text = typStr) (hequals : '=' ∉ typStr)
    (href : ty.ref = some ref) : readRef typStr = some ref := by
  subst htext
  unfold MsgType.ref isText at href
  unfold readRef
  rw [(ty.text_split hequals).1]
  split at href
  · cases href
  · rename_i hbase
    simp only [Bool.or_eq_true, not_or] at hbase
    rw [if_neg (by simp [hbase])]
    exact href

theorem Worded.typed (h : Worded subs d) : Typed subs d := by
  intro decl hdecl
  obtain ⟨hplain, hnames⟩ := h decl hdecl
  have htext : (wordType decl.1 hplain).text = decl.1 := by
    show decl.1 ++ [] ++ [] = decl.1
    rw [List.append_nil, List.append_nil]
  refine ⟨wordType decl.1 hplain, htext, fun ref href => hnames ref ?_⟩
  exact MsgType.readRef_of_ref htext hplain.2 href

/-- Each message refers to later ones only. -/
def Forward (subs : List Message) : Prop :=
  ∀ m ∈ subs, Worded subs m.toDefinition ∧ ∀ decl ∈ m.declared, ∀ ref ∈ readRef decl.1,
    ∀ m' ∈ subs, Names m.package ref m' → subs.idxOf m < subs.idxOf m'

instance (subs : List Message) : Decidable (Forward subs) :=
  inferInstanceAs (Decidable (∀ m ∈ subs, _ ∧ _))

theorem Forward.lt (h : Forward subs) {m' : Message} (hm : m ∈ subs)
    (hrefers : Refers subs m.toDefinition m') : subs.idxOf m < subs.idxOf m' := by
  obtain ⟨hm', decl, hdecl, ty, htext, ref, href, hname⟩ := hrefers
  obtain ⟨hworded, hforward⟩ := h m hm
  exact hforward decl hdecl ref (ty.readRef_of_ref htext (hworded decl hdecl).1.2 href) m' hm' hname

theorem Forward.valid {root : Definition} (h : Forward subs) (hblank : root.Blank → subs = [])
    (hdistinct : (subs.map Message.typeName).Nodup) (hroot : Typed subs root) :
    Valid root subs := by
  refine ⟨hblank, hdistinct, hroot, fun m hm => (h m hm).1.typed, fun m hm hcycle => ?_⟩
  have hlt : ∀ m', Relation.TransGen (fun a b : Message => Refers subs a.toDefinition b) m m' →
      m' ∈ subs ∧ subs.idxOf m < subs.idxOf m' := by
    intro m' hpath
    induction hpath with
    | single hstep => exact ⟨hstep.1, h.lt hm hstep⟩
    | tail _ hstep ih => exact ⟨hstep.1, ih.2.trans (h.lt ih.1 hstep)⟩
  exact Nat.lt_irrefl _ (hlt m hcycle).2

/-- What a definition of words reads. -/
theorem Cites.readRef (h : Cites subs d ref m) :
    ∃ decl ∈ d.declared, readRef decl.1 = some ref := by
  obtain ⟨-, -, decl, hdecl, hequals, ty, htext, href⟩ := h
  exact ⟨decl, hdecl, ty.readRef_of_ref htext hequals href⟩

theorem no_space_of_all {s : Str} (h : (s.all fun c => !isSpace c) = true) :
    ∀ c ∈ s, isSpace c = false := by
  intro c hc
  have hchar := List.all_eq_true.1 h c hc
  rw [Bool.not_eq_true'] at hchar
  exact hchar

def equalsLine : Separator := ⟨"====".toList, by decide⟩

def pointOfA : Message :=
  ⟨⟨"a".toList, ["int32 x".toList], by decide⟩, "Point".toList, by decide,
    no_space_of_all rfl, ⟨'P', "oint".toList, rfl, rfl⟩⟩

def pointOfB : Message :=
  ⟨⟨"b".toList, ["float64 x".toList, "float64 y 0.5".toList], by decide⟩, "Point".toList,
    by decide, no_space_of_all rfl, ⟨'P', "oint".toList, rfl, rfl⟩⟩

/-- A path of legs, with a constant and a comment, from one kind of point to another. -/
def pathRoot : Definition :=
  ⟨"nav".toList, ["Leg[] legs".toList, "a/Point from".toList, "b/Point to".toList,
    "uint8 CLOSED=1 # a loop".toList], by decide⟩

def leg : Message :=
  ⟨⟨"nav".toList, ["Stamp at # its end".toList, "float64 length".toList], by decide⟩, "Leg".toList,
    by decide, no_space_of_all rfl, ⟨'L', "eg".toList, rfl, rfl⟩⟩

def stamp : Message :=
  ⟨⟨"nav".toList, ["int32 sec".toList], by decide⟩, "Stamp".toList, by decide,
    no_space_of_all rfl, ⟨'S', "tamp".toList, rfl, rfl⟩⟩

theorem path_resolves : Resolves equalsLine pathRoot [leg, pointOfB, stamp, pointOfA] := by
  have hdeclared : pathRoot.declared = [("Leg[]".toList, "legs".toList),
      ("a/Point".toList, "from".toList), ("b/Point".toList, "to".toList)] := by rfl
  have htyped : Typed [leg, pointOfB, stamp, pointOfA] pathRoot := by
    intro decl hdecl
    rw [hdeclared] at hdecl
    simp only [List.mem_cons, List.not_mem_nil, or_false] at hdecl
    obtain rfl | rfl | rfl := hdecl
    · refine ⟨⟨"Leg".toList, none, .unbounded, no_mark (by decide), nofun, nofun⟩, rfl,
        fun ref href => ?_⟩
      cases href
      exact ⟨leg, by simp, .inr ⟨by decide, rfl, rfl⟩⟩
    · refine ⟨wordType "a/Point".toList (by decide), rfl, fun ref href => ?_⟩
      cases href
      exact ⟨pointOfA, by simp, .inl rfl⟩
    · refine ⟨wordType "b/Point".toList (by decide), rfl, fun ref href => ?_⟩
      cases href
      exact ⟨pointOfB, by simp, .inl rfl⟩
  have hforward : Forward [leg, pointOfB, stamp, pointOfA] := by decide +kernel
  have hvalid : Valid pathRoot [leg, pointOfB, stamp, pointOfA] :=
    hforward.valid (fun hblank => absurd (hblank _ List.mem_cons_self 'L' List.mem_cons_self)
      (by decide)) (by decide) htyped
  have hlone : ∀ m ∈ [leg, pointOfB, stamp, pointOfA], m.name = "Point".toList ∨
      Lone [leg, pointOfB, stamp, pointOfA] m := by decide +kernel
  have hnever : ∀ d ∈ pathRoot :: [leg, pointOfB, stamp, pointOfA].map Message.toDefinition,
      ∀ decl ∈ d.declared, ∀ ref ∈ readRef decl.1, ref ≠ "Point".toList := by decide +kernel
  have hshort : ∀ m ∈ [leg, pointOfB, stamp, pointOfA], ∀ decl ∈ m.declared,
      ∀ ref ∈ readRef decl.1, '/' ∉ ref := by decide +kernel
  have hnamed {d : Definition} (hd : d ∈ pathRoot ::
      [leg, pointOfB, stamp, pointOfA].map Message.toDefinition) {ref : Str} {m : Message}
      (h : Cites [leg, pointOfB, stamp, pointOfA] d ref m) (hslash : '/' ∉ ref) :
      Lone [leg, pointOfB, stamp, pointOfA] m := by
    obtain ⟨decl, hdecl, href⟩ := h.readRef
    refine (hlone m h.1).resolve_left fun hpoint => hnever d hd decl hdecl ref href ?_
    obtain heq | ⟨-, heq⟩ := h.2.1.cases
    · exact absurd (heq ▸ slash_typeName m) hslash
    · exact heq.trans hpoint
  refine (schema_resolution equalsLine hvalid).1
    ⟨⟨fun ref m h => hnamed List.mem_cons_self h, fun m hm ref m' h => ?_⟩, fun d hd => ?_⟩
  · obtain ⟨decl, hdecl, href⟩ := h.readRef
    exact hnamed (List.mem_cons_of_mem _ (List.mem_map_of_mem hm)) h
      (hshort m hm decl hdecl ref href)
  · have hplain : ∀ d ∈ pathRoot :: [leg, pointOfB, stamp, pointOfA].map Message.toDefinition,
        ∀ decl ∈ d.declared, PlainType decl.1 := by decide +kernel
    cases hd with
    | root => exact hplain _ List.mem_cons_self
    | nested _ hm => exact hplain _ (List.mem_cons_of_mem _ (List.mem_map_of_mem hm.1))

/-- A bounded array, and a field behind it. -/
def boundedRoot : Definition :=
  ⟨"nav".toList, ["int32[<=5] a".toList, "uint8 b".toList], by decide⟩

/-- Two points, by their short name and by the full one of another package. -/
def sharedRoot : Definition := ⟨"a".toList, ["Point p".toList, "b/Point q".toList], by decide⟩

/-- A line between points of one package, and a chain of messages, all by their full names. -/
def chainRoot : Definition :=
  ⟨"u".toList, ["u/Line l".toList, "u/Top t".toList, "a/Point p".toList], by decide⟩

def line : Message :=
  ⟨⟨"u".toList, ["b/Point p".toList], by decide⟩, "Line".toList, by decide, no_space_of_all rfl,
    ⟨'L', "ine".toList, rfl, rfl⟩⟩

def top : Message :=
  ⟨⟨"u".toList, ["u/Middle m".toList], by decide⟩, "Top".toList, by decide, no_space_of_all rfl,
    ⟨'T', "op".toList, rfl, rfl⟩⟩

def middle : Message :=
  ⟨⟨"u".toList, ["u/End e".toList], by decide⟩, "Middle".toList, by decide, no_space_of_all rfl,
    ⟨'M', "iddle".toList, rfl, rfl⟩⟩

def bottom : Message :=
  ⟨⟨"u".toList, ["int32 x".toList], by decide⟩, "End".toList, by decide, no_space_of_all rfl,
    ⟨'E', "nd".toList, rfl, rfl⟩⟩

def widePoint : Message :=
  ⟨⟨"a".toList, ["int32 x".toList, "int32 y".toList, "int32 z".toList, "int32 w".toList],
    by decide⟩, "Point".toList, by decide, no_space_of_all rfl, ⟨'P', "oint".toList, rfl, rfl⟩⟩

/-- How many nested fields the client gets. -/
def resolvedOf (text : Str) : Option Nat :=
  match parseSchema text with
  | .ok fields => some fields.countResolved
  | _ => none

/-- The client gets more in one order of the blocks than in another. -/
theorem not_resolves {sep : Separator} {root : Definition} {subs order : List Message}
    (hperm : order.Perm subs)
    (h : resolvedOf (textOf sep root order) ≠ resolvedOf (textOf sep root subs)) :
    ¬Resolves sep root subs := by
  rintro ⟨schema, -, hparses⟩
  unfold resolvedOf at h
  rw [hparses order hperm, hparses subs (List.Perm.refl subs)] at h
  exact h rfl

/-- The bounded array is lost; the short name means the later of the two points; and where the
    line was first read with the other point, the count may stand still before the chain is
    resolved. -/
theorem bounded_lost_and_shared_mixed :
    (Valid boundedRoot [] ∧ ¬Resolves equalsLine boundedRoot []) ∧
      (Valid sharedRoot [pointOfA, pointOfB] ∧
        ¬Resolves equalsLine sharedRoot [pointOfA, pointOfB]) ∧
      (Valid chainRoot [widePoint, line, pointOfB, top, middle, bottom] ∧
        ¬Resolves equalsLine chainRoot [widePoint, line, pointOfB, top, middle, bottom]) := by
  refine ⟨⟨⟨fun _ => rfl, by decide, ?_, nofun, nofun⟩, ?_⟩, ⟨?_, ?_⟩, ⟨?_, ?_⟩⟩
  · have hdeclared : boundedRoot.declared =
        [("int32[<=5]".toList, ['a']), ("uint8".toList, ['b'])] := by rfl
    intro decl hdecl
    rw [hdeclared, List.mem_cons, List.mem_singleton] at hdecl
    obtain rfl | rfl := hdecl
    · exact ⟨⟨"int32".toList, none, .bounded 5, no_mark (by decide), nofun, nofun⟩, by rfl, nofun⟩
    · exact ⟨wordType "uint8".toList (by decide), by rfl, nofun⟩
  · rintro ⟨schema, hfull, hparses⟩
    have hparsed : parseSchema (textOf equalsLine boundedRoot []) =
        .ok (.cons ⟨['b'], .primitive, "uint8".toList, 0⟩ .nil .nil) := by rfl
    cases hparsed.symm.trans (hparses [] (List.Perm.refl []))
    exact absurd (full_length hfull) (by decide)
  · have hforward : Forward [pointOfA, pointOfB] := by decide +kernel
    have hroot : Worded [pointOfA, pointOfB] sharedRoot := by decide +kernel
    exact hforward.valid (fun hblank => absurd (hblank _ List.mem_cons_self 'P' List.mem_cons_self)
      (by decide)) (by decide) hroot.typed
  · exact not_resolves (List.Perm.swap pointOfA pointOfB []) (by decide +kernel)
  · have hforward : Forward [widePoint, line, pointOfB, top, middle, bottom] := by decide +kernel
    have hroot : Worded [widePoint, line, pointOfB, top, middle, bottom] chainRoot := by
      decide +kernel
    exact hforward.valid (fun hblank => absurd (hblank _ List.mem_cons_self 'u' List.mem_cons_self)
      (by decide)) (by decide) hroot.typed
  · exact @not_resolves equalsLine chainRoot _ [pointOfB, widePoint, line, bottom, middle, top]
      (by decide +kernel) (by decide +kernel)

end Cdr
end Foxglove
end Mowgli
