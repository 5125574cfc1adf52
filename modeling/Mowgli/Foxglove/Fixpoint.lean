import Mowgli.Foxglove.MsgText
import Mowgli.Lib.Sweep

/-!
# Fixpoint — what the passes over the blocks arrive at

Each block is an equation that gives its fields from those of the messages it refers to, and the
passes are sweeps over these equations. They rise from nothing, so that the count of resolved
fields stays the same in a pass only where every equation holds. If no count stays the same, the
passes are as many as the ranks of messages that refer to one another.

All this is where no block refers to a short name that two messages share. Under such a name
stands the last of them, which then only the count sees.
-/

namespace Mowgli
namespace Foxglove
namespace Cdr

/-! ## Fields that are resolved further -/

namespace Fields

protected def le : Fields → Fields → Prop
  | nil, _ => True
  | cons _ _ _, nil => False
  | cons f s r, cons f' s' r' => f = f' ∧ Fields.le s s' ∧ Fields.le r r'

variable {a b : Fields}

theorem le_trans' {c : Fields} (hab : a.le b) (hbc : b.le c) : a.le c := by
  induction a generalizing b c with
  | nil => trivial
  | cons f s r ihs ihr =>
    cases b with
    | nil => exact hab.elim
    | cons f' s' r' =>
      cases c with
      | nil => exact hbc.elim
      | cons f'' s'' r'' =>
        exact ⟨hab.1.trans hbc.1, ihs hab.2.1 hbc.2.1, ihr hab.2.2 hbc.2.2⟩

theorem le_antisymm' (hab : a.le b) (hba : b.le a) : a = b := by
  induction a generalizing b with
  | nil =>
    cases b with
    | nil => rfl
    | cons f s r => exact hba.elim
  | cons f s r ihs ihr =>
    cases b with
    | nil => exact hab.elim
    | cons f' s' r' => rw [hab.1, ihs hab.2.1 hba.2.1, ihr hab.2.2 hba.2.2]

theorem le_refl' (a : Fields) : a.le a := by
  induction a with
  | nil => trivial
  | cons f s r ihs ihr => exact ⟨rfl, ihs, ihr⟩

instance : PartialOrder Fields where
  le := Fields.le
  le_refl := le_refl'
  le_trans _ _ _ := le_trans'
  le_antisymm _ _ := le_antisymm'

theorem nil_le (a : Fields) : nil ≤ a := trivial

theorem length_mono (h : a ≤ b) : a.length ≤ b.length := by
  induction a generalizing b with
  | nil => exact Nat.zero_le _
  | cons f s r ihs ihr =>
    cases b with
    | nil => exact h.elim
    | cons f' s' r' => exact Nat.succ_le_succ (ihr h.2.2)

theorem countResolved_mono (h : a ≤ b) : a.countResolved ≤ b.countResolved := by
  induction a generalizing b with
  | nil => exact Nat.zero_le _
  | cons f s r ihs ihr =>
    cases b with
    | nil => exact h.elim
    | cons f' s' r' =>
      exact Nat.add_le_add (Nat.add_le_add (length_mono h.2.1) (ihs h.2.1)) (ihr h.2.2)

/-- What grows, grows in length or in count. -/
theorem eq_of_countResolved (h : a ≤ b) (hlength : a.length = b.length)
    (hcount : a.countResolved = b.countResolved) : a = b := by
  induction a generalizing b with
  | nil =>
    cases b with
    | nil => rfl
    | cons f s r => cases hlength
  | cons f s r ihs ihr =>
    cases b with
    | nil => exact h.elim
    | cons f' s' r' =>
      obtain ⟨rfl, hs, hr⟩ := h
      have hlengths := length_mono hs
      have hcounts := countResolved_mono hs
      have hcountr := countResolved_mono hr
      have hsum : s.length + s.countResolved + r.countResolved =
          s'.length + s'.countResolved + r'.countResolved := hcount
      rw [ihs hs (by omega) (by omega), ihr hr (Nat.succ.inj hlength) (by omega)]

end Fields

/-! ## What a line is read as -/

/-- A field, and the type its nested fields are those of. -/
abbrev Entry := Field × Option Str

def build (types : Str → Fields) : List Entry → Fields
  | [] => .nil
  | entry :: rest => .cons entry.1 (entry.2.elim .nil types) (build types rest)

/-- `parseFieldType` takes the type. -/
def Readable (typStr : Str) : Prop := ¬Unclosed typStr ∧ ¬BadSize typStr

def readField (typStr name : Str) : Field :=
  match typStr.dropWhile (· != '[') with
  | [] => (plainField typStr name ∅).1
  | _ :: rest =>
    let baseType := typStr.takeWhile (· != '[')
    if (cutByte rest).isEmpty then (arrayField name .dynArray baseType 0 ∅).1
    else (arrayField name .fixedArray baseType ((sscanfInt (cutByte rest)).getD 0) ∅).1

def readRef (typStr : Str) : Option Str :=
  let baseType := typStr.takeWhile (· != '[')
  if isPrimitive baseType || isString baseType then none else some baseType

def readEntry (decl : Str × Str) : Entry := (readField decl.1 decl.2, readRef decl.1)

theorem plainField_eq (typStr name : Str) (subTypes : SubTypes) :
    plainField typStr name subTypes = ((plainField typStr name ∅).1,
      (if isPrimitive typStr || isString typStr then none else some typStr).elim .nil
        (lookupSubType · subTypes)) := by
  unfold plainField
  by_cases hstring : isString typStr = true
  · rw [if_pos hstring, if_pos hstring, hstring, Bool.or_true]
    rfl
  · by_cases hprimitive : isPrimitive typStr = true
    · rw [if_neg hstring, if_neg hstring, if_pos hprimitive, if_pos hprimitive, hprimitive]
      rfl
    · rw [if_neg hstring, if_neg hstring, if_neg hprimitive, if_neg hprimitive,
        if_neg (by simp [hstring, hprimitive])]
      rfl

theorem arrayField_eq (name : Str) (kind : FieldKind) (baseType : Str) (size : Int)
    (subTypes : SubTypes) : arrayField name kind baseType size subTypes =
      ((arrayField name kind baseType size ∅).1,
        (if isPrimitive baseType || isString baseType then none else some baseType).elim .nil
          (lookupSubType · subTypes)) := by
  unfold arrayField
  split <;> rfl

theorem parseFieldType_readable {typStr : Str} (h : Readable typStr) (name : Str)
    (subTypes : SubTypes) : parseFieldType typStr name subTypes =
      .ok (readField typStr name, (readRef typStr).elim .nil (lookupSubType · subTypes)) := by
  have hunclosed : ¬(typStr.dropWhile (· != '[')).length = 1 := h.1
  have hbad : ¬(2 ≤ (typStr.dropWhile (· != '[')).length ∧
      cutByte ((typStr.dropWhile (· != '[')).drop 1) ≠ [] ∧
        sscanfInt (cutByte ((typStr.dropWhile (· != '[')).drop 1)) = none) := h.2
  unfold parseFieldType readField readRef
  cases hdrop : typStr.dropWhile (· != '[') with
  | nil =>
    have hall : typStr.takeWhile (· != '[') = typStr :=
      List.takeWhile_eq_self_iff.2 (List.dropWhile_eq_nil_iff.1 hdrop)
    dsimp only
    rw [hall, plainField_eq typStr name subTypes]
  | cons bracket rest =>
    rw [hdrop] at hunclosed hbad
    cases rest with
    | nil => exact absurd rfl hunclosed
    | cons c rest =>
      rw [List.drop_one, List.tail_cons] at hbad
      dsimp only
      by_cases hsize : (cutByte (c :: rest)).isEmpty = true
      · rw [if_pos hsize, if_pos hsize, arrayField_eq _ _ _ _ subTypes]
      · rw [if_neg hsize, if_neg hsize]
        cases hnumber : sscanfInt (cutByte (c :: rest)) with
        | none =>
          refine absurd ⟨?_, ?_, hnumber⟩ hbad
          · rw [List.length_cons, List.length_cons]
            omega
          · intro hnil
            rw [hnil] at hsize
            exact hsize rfl
        | some size =>
          dsimp only
          rw [arrayField_eq _ _ _ _ subTypes]
          rfl

theorem parseDeclarations_readable {decls : List (Str × Str)}
    (h : ∀ decl ∈ decls, Readable decl.1) (subTypes : SubTypes) :
    parseDeclarations subTypes decls =
      .ok (build (lookupSubType · subTypes) (decls.map readEntry)) := by
  induction decls with
  | nil => rfl
  | cons decl decls ih =>
    unfold parseDeclarations
    rw [parseFieldType_readable (h decl List.mem_cons_self), Outcome.mapError_ok, Outcome.bind_ok,
      ih fun d hd => h d (List.mem_cons_of_mem _ hd), Outcome.map_ok]
    rfl

theorem length_build (types : Str → Fields) (entries : List Entry) :
    (build types entries).length = entries.length := by
  induction entries with
  | nil => rfl
  | cons entry rest ih => exact congrArg Nat.succ ih

theorem build_mono {types types' : Str → Fields} (h : types ≤ types') (entries : List Entry) :
    build types entries ≤ build types' entries := by
  induction entries with
  | nil => trivial
  | cons entry rest ih =>
    refine ⟨rfl, ?_, ih⟩
    cases entry.2 with
    | none => trivial
    | some ref => exact h ref

theorem build_congr {types types' : Str → Fields} {entries : List Entry}
    (h : ∀ entry ∈ entries, ∀ ref, entry.2 = some ref → types ref = types' ref) :
    build types entries = build types' entries := by
  induction entries with
  | nil => rfl
  | cons entry rest ih =>
    have hhere := h entry List.mem_cons_self
    have hrest := ih fun e he => h e (List.mem_cons_of_mem _ he)
    unfold build
    rw [hrest]
    cases href : entry.2 with
    | none => rfl
    | some ref => exact congrArg (Fields.cons entry.1 · _) (hhere ref href)

/-! ## Blocks as equations -/

theorem reverse_typeName (m : Message) :
    (m.typeName.reverse.takeWhile (· != '/')).reverse = m.name := by
  unfold Message.typeName
  rw [List.reverse_append, List.reverse_cons, List.append_assoc, List.takeWhile_append_of_pos]
  · simp
  · intro c hc
    rw [bne_iff_ne]
    rintro rfl
    exact m.one_slash.2 (List.mem_reverse.1 hc)

theorem slash_typeName (m : Message) : '/' ∈ m.typeName :=
  List.mem_append_right _ List.mem_cons_self

/-- No other message has its short name. -/
def Lone (subs : List Message) (m : Message) : Prop :=
  ∀ other ∈ subs, other.name = m.name → other = m

instance (subs : List Message) (m : Message) : Decidable (Lone subs m) :=
  inferInstanceAs (Decidable (∀ other ∈ subs, _ → _))

/-- The message that a reference is of. -/
def target (subs : List Message) (ref : Str) : Option Message :=
  if '/' ∈ ref then subs.find? fun m => m.typeName = ref else subs.find? fun m => m.name = ref

def denote (subs : List Message) (types : Message → Fields) (ref : Str) : Fields :=
  (target subs ref).elim .nil types

variable {subs : List Message} {m : Message} {subTypes : SubTypes} {types : Message → Fields}

theorem find_of_mem {key : Message → Str} (hm : m ∈ subs)
    (hkey : ∀ other ∈ subs, key other = key m → other = m) :
    (subs.find? fun other => key other = key m) = some m := by
  cases hfound : subs.find? fun other => key other = key m with
  | none => simpa using List.find?_eq_none.1 hfound m hm
  | some other =>
    have hother : key other = key m := by simpa using List.find?_some hfound
    rw [hkey other (List.mem_of_find?_eq_some hfound) hother]

theorem target_typeName (hdistinct : (subs.map Message.typeName).Nodup) (hm : m ∈ subs) :
    target subs m.typeName = some m := by
  unfold target
  rw [if_pos (slash_typeName m)]
  exact find_of_mem hm fun other hother heq => List.inj_on_of_nodup_map hdistinct hother hm heq

theorem target_name (hm : m ∈ subs) (hlone : Lone subs m) : target subs m.name = some m := by
  unfold target
  rw [if_neg m.one_slash.2]
  exact find_of_mem hm hlone

/-- The fields of a message. -/
def equation (subs : List Message) (m : Message) (types : Message → Fields) : Fields :=
  if m ∈ subs then build (denote subs types) (m.read.map readEntry) else .nil

theorem equation_mono (subs : List Message) (m : Message) : Monotone (equation subs m) := by
  intro types types' h
  unfold equation
  split
  · refine build_mono (fun ref => ?_) _
    unfold denote
    cases target subs ref with
    | none => trivial
    | some m' => exact h m'
  · trivial

/-- The map holds what every message has so far, under its short name too if that is its own. -/
structure Represents (subs : List Message) (subTypes : SubTypes) (types : Message → Fields) :
    Prop where
  full : ∀ m ∈ subs, (subTypes.lookup m.typeName).getD .nil = types m
  short : ∀ m ∈ subs, Lone subs m → (subTypes.lookup m.name).getD .nil = types m
  known : ∀ name fields, subTypes.lookup name = some fields →
    ∃ m ∈ subs, name = m.typeName ∨ name = m.name

theorem Represents.empty (subs : List Message) : Represents subs ∅ fun _ => .nil where
  full m _ := by
    rw [AList.lookup_empty]
    rfl
  short m _ _ := by
    rw [AList.lookup_empty]
    rfl
  known name fields h := by
    rw [AList.lookup_empty] at h
    cases h

/-- A reference that no message of another package can answer. -/
def Answerable (subs : List Message) (ref : Str) : Prop :=
  ('/' ∉ ref ∧ ∀ m ∈ subs, m.name ≠ ref) ∨
    ∃ m ∈ subs, Lone subs m ∧ (ref = m.typeName ∨ ref = m.name)

theorem lookupSubType_typeName (h : Represents subs subTypes types) (hm : m ∈ subs)
    (hstored : Lone subs m ∨ m.typeName ∈ subTypes) :
    lookupSubType m.typeName subTypes = types m := by
  have hfull := h.full m hm
  unfold lookupSubType
  cases hfound : subTypes.lookup m.typeName with
  | some fields =>
    rw [hfound] at hfull
    exact hfull
  | none =>
    dsimp only
    rw [if_pos (List.any_eq_true.2 ⟨'/', slash_typeName m, rfl⟩), reverse_typeName]
    rcases hstored with hlone | hstored
    · exact h.short m hm hlone
    · exact absurd hstored (AList.lookup_eq_none.1 hfound)

theorem lookupSubType_name {ref : Str} (hslash : '/' ∉ ref) :
    lookupSubType ref subTypes = (subTypes.lookup ref).getD .nil := by
  unfold lookupSubType
  cases subTypes.lookup ref with
  | some fields => rfl
  | none =>
    dsimp only
    rw [if_neg]
    · rfl
    · intro hany
      obtain ⟨c, hc, heq⟩ := List.any_eq_true.1 hany
      rw [beq_iff_eq] at heq
      exact hslash (heq ▸ hc)

theorem lookupSubType_eq (hdistinct : (subs.map Message.typeName).Nodup)
    (h : Represents subs subTypes types) {ref : Str}
    (href : Answerable subs ref ∨ ∃ m ∈ subs, ref = m.typeName ∧ m.typeName ∈ subTypes) :
    lookupSubType ref subTypes = denote subs types ref := by
  unfold denote
  rcases href with (⟨hslash, hnone⟩ | ⟨m, hm, hlone, rfl | rfl⟩) | ⟨m, hm, rfl, hstored⟩
  · have htarget : target subs ref = none := by
      unfold target
      rw [if_neg hslash]
      exact List.find?_eq_none.2 fun m hm => by simpa using hnone m hm
    rw [lookupSubType_name hslash, htarget]
    cases hfound : subTypes.lookup ref with
    | none => rfl
    | some fields =>
      obtain ⟨m, hm, rfl | rfl⟩ := h.known ref fields hfound
      · exact absurd (slash_typeName m) hslash
      · exact absurd rfl (hnone m hm)
  · rw [target_typeName hdistinct hm]
    exact lookupSubType_typeName h hm (.inl hlone)
  · rw [target_name hm hlone, lookupSubType_name m.one_slash.2]
    exact h.short m hm hlone
  · rw [target_typeName hdistinct hm]
    exact lookupSubType_typeName h hm (.inr hstored)

theorem store_typeName (subTypes : SubTypes) (m : Message) (fields : Fields) :
    store subTypes m.typeName fields =
      (subTypes.insert m.typeName fields).insert m.name fields := by
  have hdrop : m.typeName.dropWhile (· != '/') = '/' :: m.name := by
    unfold Message.typeName
    rw [List.dropWhile_append_of_pos]
    · simp
    · intro c hc
      rw [bne_iff_ne]
      rintro rfl
      exact m.one_slash.1 hc
  unfold store
  rw [hdrop]

theorem lookup_store_name {fields : Fields} {name : Str} (hslash : '/' ∉ name) :
    (store subTypes m.typeName fields).lookup name =
      if m.name = name then some fields else subTypes.lookup name := by
  have htype : name ≠ m.typeName := by
    rintro rfl
    exact hslash (slash_typeName m)
  rw [store_typeName]
  by_cases heq : m.name = name
  · rw [if_pos heq, ← heq, AList.lookup_insert]
  · rw [if_neg heq, AList.lookup_insert_ne (Ne.symm heq), AList.lookup_insert_ne htype]

theorem lookup_store_typeName {other : Message} {fields : Fields} :
    (store subTypes m.typeName fields).lookup other.typeName =
      if m.typeName = other.typeName then some fields else subTypes.lookup other.typeName := by
  have hname : other.typeName ≠ m.name := fun heq => m.one_slash.2 (heq ▸ slash_typeName other)
  rw [store_typeName, AList.lookup_insert_ne hname]
  by_cases heq : m.typeName = other.typeName
  · rw [if_pos heq, ← heq, AList.lookup_insert]
  · rw [if_neg heq, AList.lookup_insert_ne (Ne.symm heq)]

theorem Represents.store (hdistinct : (subs.map Message.typeName).Nodup)
    (h : Represents subs subTypes types) (hm : m ∈ subs) (fields : Fields) :
    Represents subs (store subTypes m.typeName fields) (Function.update types m fields) := by
  refine ⟨fun other hother => ?_, fun other hother hlone => ?_, fun name found hfound => ?_⟩
  · rw [lookup_store_typeName]
    split
    · rename_i heq
      rw [List.inj_on_of_nodup_map hdistinct hm hother heq, Function.update_self]
      rfl
    · rename_i hne
      rw [Function.update_of_ne (by rintro rfl; exact hne rfl)]
      exact h.full other hother
  · rw [lookup_store_name other.one_slash.2]
    split
    · rename_i heq
      rw [hlone m hm heq, Function.update_self]
      rfl
    · rename_i hne
      rw [Function.update_of_ne (by rintro rfl; exact hne rfl)]
      exact h.short other hother hlone
  · by_cases hname : name = m.name
    · exact ⟨m, hm, .inr hname⟩
    · by_cases htype : name = m.typeName
      · exact ⟨m, hm, .inl htype⟩
      · rw [store_typeName, AList.lookup_insert_ne hname, AList.lookup_insert_ne htype] at hfound
        exact h.known name found hfound

/-! ## The count -/

theorem countResolved_kerase (name : Str) (entries : List (Sigma fun _ : Str => Fields)) :
    entries.foldr (fun entry total => entry.2.countResolved + total) 0 =
      ((entries.dlookup name).getD .nil).countResolved +
        (entries.kerase name).foldr (fun entry total => entry.2.countResolved + total) 0 := by
  induction entries with
  | nil => rfl
  | cons entry entries ih =>
    by_cases heq : name = entry.1
    · subst heq
      rw [List.kerase_cons_eq rfl, List.dlookup_cons_eq]
      rfl
    · rw [List.kerase_cons_ne heq, List.dlookup_cons_ne _ _ heq, List.foldr_cons, List.foldr_cons,
        ih]
      omega

/-- What has more under every name counts more, unless each counts the same. -/
theorem countResolvedSubFields_mono {after : SubTypes}
    (h : ∀ name, (subTypes.lookup name).getD .nil ≤ (after.lookup name).getD .nil) :
    countResolvedSubFields subTypes ≤ countResolvedSubFields after ∧
      (countResolvedSubFields after = countResolvedSubFields subTypes → ∀ name,
        ((subTypes.lookup name).getD .nil).countResolved =
          ((after.lookup name).getD .nil).countResolved) := by
  obtain ⟨entries, hnodup⟩ := subTypes
  obtain ⟨entries', hnodup'⟩ := after
  unfold countResolvedSubFields
  replace h : ∀ name, (entries.dlookup name).getD .nil ≤ (entries'.dlookup name).getD .nil := h
  show _ ≤ _ ∧ (_ → ∀ name, ((entries.dlookup name).getD .nil).countResolved =
    ((entries'.dlookup name).getD .nil).countResolved)
  dsimp only
  induction entries generalizing entries' with
  | nil =>
    refine ⟨Nat.zero_le _, fun heq name => ?_⟩
    have hsplit := countResolved_kerase name entries'
    show 0 = _
    rw [List.foldr_nil] at heq
    omega
  | cons entry entries ih =>
    obtain ⟨hfresh, hnodup⟩ := List.nodupKeys_cons.1 hnodup
    have hnone : entries.dlookup entry.1 = none := List.dlookup_eq_none.2 hfresh
    have hsplit := countResolved_kerase entry.1 entries'
    have hhere : entry.2 ≤ (entries'.dlookup entry.1).getD .nil := by
      have hentry := h entry.1
      rw [List.dlookup_cons_eq] at hentry
      exact hentry
    have hcount := Fields.countResolved_mono hhere
    obtain ⟨hle, hsame⟩ := ih hnodup (entries'.kerase entry.1) (hnodup'.kerase _) fun name => by
      by_cases heq : name = entry.1
      · subst heq
        rw [hnone]
        exact Fields.nil_le _
      · have hname := h name
        rw [List.dlookup_cons_ne _ _ heq] at hname
        rw [List.dlookup_kerase_ne heq]
        exact hname
    rw [List.foldr_cons]
    refine ⟨by omega, fun heq name => ?_⟩
    by_cases hname : name = entry.1
    · subst hname
      rw [List.dlookup_cons_eq]
      show entry.2.countResolved = _
      omega
    · have hrest := hsame (by omega) name
      rw [List.dlookup_kerase_ne hname] at hrest
      rw [List.dlookup_cons_ne _ _ hname]
      exact hrest

/-! ## Passes -/

/-- The last message of this short name. -/
def lastNamed : List Message → Str → Option Message
  | [], _ => none
  | m :: order, name => (lastNamed order name).or (if m.name = name then some m else none)

theorem lastNamed_isSome {order : List Message} (hm : m ∈ order) :
    (lastNamed order m.name).isSome = true := by
  induction order with
  | nil => cases hm
  | cons other order ih =>
    unfold lastNamed
    rw [Option.isSome_or]
    obtain rfl | hm := List.mem_cons.1 hm
    · rw [if_pos rfl]
      exact Bool.or_true _
    · rw [ih hm]
      exact Bool.true_or _

/-- A pass has ended: every message is stored under its name, and the last one of a short name
under that. -/
structure Passed (subs order : List Message) (subTypes : SubTypes) (types : Message → Fields) :
    Prop where
  stored : ∀ m ∈ subs, m.typeName ∈ subTypes
  length : ∀ m ∈ subs, (types m).length = m.read.length
  short : ∀ name, '/' ∉ name → subTypes.lookup name = (lastNamed order name).map types

/-- Where a pass that rises counts the same, it changed nothing. -/
theorem Passed.same {order : List Message} {after : SubTypes} {next : Message → Fields}
    (h : Passed subs order subTypes types) (hafter : Passed subs order after next)
    (hrep : Represents subs subTypes types) (hnext : Represents subs after next)
    (hle : types ≤ next) (hcount : countResolvedSubFields after = countResolvedSubFields subTypes) :
    ∀ m ∈ subs, types m = next m := by
  have hname (name : Str) :
      (subTypes.lookup name).getD .nil ≤ (after.lookup name).getD .nil := by
    by_cases hslash : '/' ∈ name
    · cases hfound : subTypes.lookup name with
      | none => exact Fields.nil_le _
      | some fields =>
        obtain ⟨m, hm, rfl | rfl⟩ := hrep.known name fields hfound
        · rw [← hfound, hrep.full m hm, hnext.full m hm]
          exact hle m
        · exact absurd hslash m.one_slash.2
    · rw [h.short name hslash, hafter.short name hslash]
      cases lastNamed order name with
      | none => exact Fields.nil_le _
      | some m => exact hle m
  intro m hm
  have hcounts := (countResolvedSubFields_mono hname).2 hcount m.typeName
  rw [hrep.full m hm, hnext.full m hm] at hcounts
  exact Fields.eq_of_countResolved (hle m) ((h.length m hm).trans (hafter.length m hm).symm) hcounts

section Passes

variable {subs order : List Message} (hdistinct : (subs.map Message.typeName).Nodup)
  (hreadable : ∀ m ∈ subs, ∀ decl ∈ m.read, Readable decl.1)
  (hanswered : ∀ m ∈ subs, ∀ decl ∈ m.read, ∀ ref, readRef decl.1 = some ref → Answerable subs ref)

include hdistinct hreadable hanswered

theorem parseMsgBlock_eq (h : Represents subs subTypes types) (hm : m ∈ subs) :
    parseMsgBlock m.block.body subTypes = .ok (equation subs m types) := by
  have hbuild : build (lookupSubType · subTypes) (m.read.map readEntry) =
      build (denote subs types) (m.read.map readEntry) := by
    refine build_congr fun entry hentry ref href => ?_
    obtain ⟨decl, hdecl, rfl⟩ := List.mem_map.1 hentry
    exact lookupSubType_eq hdistinct h (.inl (hanswered m hm decl hdecl ref href))
  unfold parseMsgBlock equation
  rw [declarations_block, parseDeclarations_readable (hreadable m hm), hbuild, if_pos hm]

/-- A pass is a sweep over the messages in the order of the blocks. -/
theorem parsePass_sweep (hnodup : order.Nodup) (horder : ∀ m ∈ order, m ∈ subs)
    (h : Represents subs subTypes types) :
    ∃ after, parsePass (order.map Message.block) subTypes = .ok after ∧
      Represents subs after (Sweep.sweep (equation subs) order types) ∧
      (∀ m : Message, m ∈ order ∨ m.typeName ∈ subTypes → m.typeName ∈ after) ∧
      ∀ name, '/' ∉ name → after.lookup name =
        ((lastNamed order name).map (Sweep.sweep (equation subs) order types)).or
          (subTypes.lookup name) := by
  induction order generalizing subTypes types with
  | nil => exact ⟨subTypes, rfl, h, fun m hm => hm.resolve_left List.not_mem_nil, fun _ _ => rfl⟩
  | cons m order ih =>
    have hm := horder m List.mem_cons_self
    obtain ⟨hother, hnodup⟩ := List.nodup_cons.1 hnodup
    obtain ⟨after, hpass, hafter, hstored, hshort⟩ := ih hnodup (fun other hother =>
      horder other (List.mem_cons_of_mem _ hother))
        (h.store hdistinct hm (equation subs m types))
    refine ⟨after, ?_, hafter, fun other hmem => hstored other ?_, fun name hslash => ?_⟩
    · rw [List.map_cons, parsePass, parseMsgBlock_eq hdistinct hreadable hanswered h hm]
      exact hpass
    · rw [← AList.lookup_isSome, lookup_store_typeName]
      rcases hmem with hmem | hmem
      · obtain rfl | hmem := List.mem_cons.1 hmem
        · exact .inr (by rw [if_pos rfl]; rfl)
        · exact .inl hmem
      · refine .inr ?_
        split
        · rfl
        · exact AList.lookup_isSome.2 hmem
    · rw [hshort name hslash, lookup_store_name hslash, lastNamed]
      cases lastNamed order name with
      | some last => rfl
      | none =>
        split
        · have hkept := @Sweep.sweep_other _ _ _ (equation subs) _ _ hother
            (Function.update types m (equation subs m types))
          rw [Function.update_self] at hkept
          exact congrArg some hkept.symm
        · rfl

/-- One pass more. -/
theorem parsePass_passed (hperm : order.Perm subs) (h : Represents subs subTypes types) :
    ∃ after, parsePass (order.map Message.block) subTypes = .ok after ∧
      Represents subs after (Sweep.sweep (equation subs) order types) ∧
      Passed subs order after (Sweep.sweep (equation subs) order types) := by
  obtain ⟨after, hpass, hafter, hstored, hshort⟩ := parsePass_sweep hdistinct hreadable hanswered
    (hperm.nodup_iff.2 (List.Nodup.of_map _ hdistinct)) (fun m hm => hperm.mem_iff.1 hm) h
  refine ⟨after, hpass, hafter, fun m hm => hstored m (.inl (hperm.mem_iff.2 hm)), fun m hm => ?_,
    fun name hslash => ?_⟩
  · refine Sweep.sweep_mem (hperm.mem_iff.2 hm) (P := fun fields => fields.length = m.read.length)
      (fun types => ?_) types
    unfold equation
    rw [if_pos hm, length_build, List.length_map]
  · rw [hshort name hslash]
    cases hlast : lastNamed order name with
    | some last => rfl
    | none =>
      show subTypes.lookup name = none
      cases hfound : subTypes.lookup name with
      | none => rfl
      | some fields =>
        obtain ⟨m, hm, rfl | rfl⟩ := h.known name fields hfound
        · exact absurd (slash_typeName m) hslash
        · have hsome := lastNamed_isSome (hperm.mem_iff.2 hm)
          rw [hlast] at hsome
          cases hsome

/-- The first passes settle the ranks, one each, and a pass that counts the same has nothing left
to settle. -/
theorem resolve_solves (hperm : order.Perm subs) {rank : Message → Nat}
    (hranked : Sweep.Ranked (equation subs) rank) {n pass : Nat} (hrank : ∀ m, rank m < pass + n)
    (h : Represents subs subTypes types) (hrising : Sweep.Rising (equation subs) types)
    (hpassed : 0 < pass → Passed subs order subTypes types)
    (hsettled : ∀ m, rank m < pass → types m = equation subs m types) (hpos : 0 < pass + n) :
    ∃ after solved, resolve (order.map Message.block) n pass subTypes = .ok after ∧
      Represents subs after solved ∧ Sweep.Solves (equation subs) solved ∧
      ∀ m ∈ subs, m.typeName ∈ after := by
  -- what is no message has nothing
  have hother : ∀ {types : Message → Fields}, Sweep.Rising (equation subs) types →
      ∀ m, m ∈ order ∨ types m = equation subs m types := by
    intro types hrising m
    by_cases hm : m ∈ order
    · exact Or.inl hm
    · refine Or.inr (le_antisymm (hrising m) ?_)
      unfold equation
      rw [if_neg fun hmem => hm (hperm.mem_iff.2 hmem)]
      exact Fields.nil_le _
  induction n generalizing pass subTypes types with
  | zero => exact ⟨subTypes, types, rfl, h, fun m => hsettled m (hrank m), (hpassed hpos).stored⟩
  | succ n ih =>
    obtain ⟨next, hpass, hnext, hended⟩ := parsePass_passed hdistinct hreadable hanswered hperm h
    have hrises := hrising.sweep (equation_mono subs) order
    unfold resolve
    rw [hpass, Outcome.bind_ok]
    by_cases hstop : countResolvedSubFields next = countResolvedSubFields subTypes ∧ 0 < pass
    · rw [if_pos hstop]
      have hheld := (hpassed hstop.2).same hended h hnext
        (hrising.le_sweep (equation_mono subs) order) hstop.1
      have hsame : Sweep.sweep (equation subs) order types = types := by
        funext m
        by_cases hm : m ∈ order
        · exact (hheld m (hperm.mem_iff.1 hm)).symm
        · exact Sweep.sweep_other hm types
      rw [hsame] at hnext
      exact ⟨next, types, rfl, hnext, fun m => (hother hrising m).elim
        (hrising.solved (equation_mono subs) hsame m) id, hended.stored⟩
    · rw [if_neg hstop]
      refine ih (fun m => ?_) hnext hrises (fun _ => hended) (fun m hm => ?_) (by omega)
      · have := hrank m
        omega
      · exact hranked.sweep hsettled (Nat.lt_succ_iff.1 hm) (hother hrising m)

/-- One solution, whatever the order of the blocks, and the root is read by it. -/
theorem parseSchema_solved (sep : Separator) {root : Definition} (hblank : root.Blank → subs = [])
    (hroot : ∀ decl ∈ root.read, Readable decl.1)
    (hrefs : ∀ decl ∈ root.read, ∀ ref, readRef decl.1 = some ref →
      Answerable subs ref ∨ ∃ m ∈ subs, ref = m.typeName) {rank : Message → Nat}
    (hranked : Sweep.Ranked (equation subs) rank) (hrank : ∀ m, rank m ≤ subs.length) :
    ∃ types, Sweep.Solves (equation subs) types ∧ ∀ order : List Message, order.Perm subs →
      parseSchema (textOf sep root order) =
        .ok (build (denote subs types) (root.read.map readEntry)) := by
  have hrun : ∀ order : List Message, order.Perm subs → ∃ types,
      Sweep.Solves (equation subs) types ∧ parseSchema (textOf sep root order) =
        .ok (build (denote subs types) (root.read.map readEntry)) := by
    intro order hperm
    have hrise : Sweep.Rising (equation subs) fun _ => Fields.nil := fun _ => Fields.nil_le _
    have hbound : ∀ m, rank m < 0 + (order.length + 1) := by
      intro m
      have := hrank m
      have := hperm.length_eq
      omega
    obtain ⟨after, types, hresolve, hafter, hsolves, hstored⟩ :=
      resolve_solves hdistinct hreadable hanswered hperm hranked hbound (Represents.empty subs) hrise
        (fun hpos => absurd hpos (Nat.lt_irrefl 0))
        (fun m hm => absurd hm (Nat.not_lt_zero _)) (by omega)
    have hbuild : build (lookupSubType · after) (root.read.map readEntry) =
        build (denote subs types) (root.read.map readEntry) := by
      refine build_congr fun entry hentry ref href => ?_
      obtain ⟨decl, hdecl, rfl⟩ := List.mem_map.1 hentry
      exact lookupSubType_eq hdistinct hafter ((hrefs decl hdecl ref href).imp id
        fun ⟨m, hm, heq⟩ => ⟨m, hm, heq, hstored m hm⟩)
    refine ⟨types, hsolves, ?_⟩
    rw [parseSchema_textOf sep fun hb => by
      rw [hblank hb] at hperm
      exact hperm.eq_nil, hresolve, Outcome.bind_ok, parseDeclarations_readable hroot,
      Outcome.mapError_ok, hbuild]
  obtain ⟨types, hsolves, -⟩ := hrun subs (List.Perm.refl subs)
  refine ⟨types, hsolves, fun order hperm => ?_⟩
  obtain ⟨types', hsolves', hparsed⟩ := hrun order hperm
  rw [hranked.unique hsolves hsolves']
  exact hparsed

end Passes

end Cdr
end Foxglove
end Mowgli
