import Mowgli.Foxglove.CdrSafe

/-!
# SchemaSafe — what hostile texts can do

How parsing ends depends on the types a text declares, in the order they are parsed, and not on
what their names stand for. A type whose bracket is not followed by anything faults unless a size
that is no number came before it.
-/

namespace Mowgli
namespace Foxglove
namespace Cdr

/-! ## How parsing ends -/

/-- The first bracket of a type is its last character. -/
def Unclosed (typStr : Str) : Prop := (typStr.dropWhile (· != '[')).length = 1

/-- What stands in the brackets is no number. -/
def BadSize (typStr : Str) : Prop :=
  2 ≤ (typStr.dropWhile (· != '[')).length ∧
    cutByte ((typStr.dropWhile (· != '[')).drop 1) ≠ [] ∧
    sscanfInt (cutByte ((typStr.dropWhile (· != '[')).drop 1)) = none

instance : DecidablePred Unclosed := fun _ => inferInstanceAs (Decidable (_ = _))

instance : DecidablePred BadSize := fun _ => inferInstanceAs (Decidable (_ ∧ _ ∧ _))

/-- An unclosed type comes before every bad size. -/
def UnclosedFirst : List Str → Prop
  | [] => False
  | typStr :: rest => Unclosed typStr ∨ (¬BadSize typStr ∧ UnclosedFirst rest)

def typesOf (body : Str) : List Str := (declarations body).map (·.1)

/-- The types of a text in the order they are parsed, the root's last. -/
def declaredTypes (schemaText : Str) : List Str :=
  match splitMsgBlocks schemaText with
  | [] => []
  | root :: blocks => blocks.flatMap (fun block => typesOf block.body) ++ typesOf root.body

/-- How parsing a list of types ends, whatever they stand for. -/
def scan : List Str → Outcome Unit Unit
  | [] => .ok ()
  | typStr :: rest =>
    if Unclosed typStr then .fault else if BadSize typStr then .error () else scan rest

/-- An outcome without its value. -/
def ending {ε α : Type} (x : Outcome ε α) : Outcome Unit Unit :=
  (x.mapError fun _ => ()).map fun _ => ()

@[simp] theorem ending_mapError {ε ε' α : Type} (f : ε → ε') (x : Outcome ε α) :
    ending (x.mapError f) = ending x := by
  cases x <;> rfl

/-- The second part ends the same way whatever it is given. -/
theorem ending_bind {ε α β : Type} {x : Outcome ε α} {f : α → Outcome ε β}
    {y : Outcome Unit Unit} (h : ∀ a, ending (f a) = y) :
    ending (x.bind f) = (ending x).bind fun _ => y := by
  cases x with
  | ok a => exact h a
  | error e => rfl
  | fault => rfl

theorem scan_append (as bs : List Str) :
    scan (as ++ bs) = (scan as).bind fun _ => scan bs := by
  induction as with
  | nil => rfl
  | cons a as ih =>
    rw [List.cons_append, scan, scan, ih]
    split
    · rfl
    · split
      · rfl
      · rfl

theorem scan_eq_fault (types : List Str) : scan types = .fault ↔ UnclosedFirst types := by
  induction types with
  | nil => exact ⟨nofun, False.elim⟩
  | cons typStr types ih =>
    rw [scan, UnclosedFirst]
    by_cases hunclosed : Unclosed typStr
    · simp [hunclosed]
    · by_cases hbad : BadSize typStr
      · simp [hunclosed, hbad]
      · simp [hunclosed, hbad, ih]

theorem ending_parseFieldType (typStr name : Str) (subTypes : SubTypes) :
    ending (parseFieldType typStr name subTypes) = scan [typStr] := by
  have hunclosed : Unclosed typStr ↔ (typStr.dropWhile (· != '[')).length = 1 := Iff.rfl
  have hbad : BadSize typStr ↔ 2 ≤ (typStr.dropWhile (· != '[')).length ∧
      cutByte ((typStr.dropWhile (· != '[')).drop 1) ≠ [] ∧
        sscanfInt (cutByte ((typStr.dropWhile (· != '[')).drop 1)) = none := Iff.rfl
  unfold parseFieldType
  rw [scan]
  revert hunclosed hbad
  cases typStr.dropWhile (· != '[') with
  | nil =>
    intro hunclosed hbad
    rw [if_neg (by rw [hunclosed]; simp), if_neg (by rw [hbad]; simp)]
    rfl
  | cons bracket rest =>
    cases rest with
    | nil =>
      intro hunclosed _
      rw [if_pos (hunclosed.2 rfl)]
      rfl
    | cons c rest =>
      intro hunclosed hbad
      rw [if_neg (by rw [hunclosed]; simp)]
      rw [List.drop_one, List.tail_cons] at hbad
      dsimp only
      cases hsize : cutByte (c :: rest) with
      | nil =>
        have hnot : ¬BadSize typStr := by
          rw [hbad, hsize]
          simp
        rw [if_neg hnot]
        rfl
      | cons d size =>
        cases hnumber : sscanfInt (d :: size) with
        | none =>
          rw [if_pos (hbad.2 ⟨by simp, by rw [hsize]; simp, by rw [hsize, hnumber]⟩)]
          rfl
        | some n =>
          have hnot : ¬BadSize typStr := by
            rw [hbad, hsize, hnumber]
            simp
          rw [if_neg hnot]
          rfl

theorem ending_parseDeclarations (subTypes : SubTypes) (ds : List (Str × Str)) :
    ending (parseDeclarations subTypes ds) = scan (ds.map (·.1)) := by
  induction ds with
  | nil => rfl
  | cons d ds ih =>
    have hrest : ∀ f : Field × Fields,
        ending ((parseDeclarations subTypes ds).map fun fields => Fields.cons f.1 f.2 fields) =
          scan (ds.map (·.1)) := by
      intro f
      rw [← ih]
      cases parseDeclarations subTypes ds <;> rfl
    unfold parseDeclarations
    rw [ending_bind hrest, ending_mapError, ending_parseFieldType, ← scan_append]
    rfl

theorem ending_parsePass (blocks : List MsgBlock) (subTypes : SubTypes) :
    ending (parsePass blocks subTypes) =
      scan (blocks.flatMap fun block => typesOf block.body) := by
  induction blocks generalizing subTypes with
  | nil => rfl
  | cons block blocks ih =>
    unfold parsePass
    rw [ending_bind fun fields => ih (store subTypes block.typeName fields), ending_mapError,
      List.flatMap_cons, scan_append]
    exact congrArg (Outcome.bind · _) (ending_parseDeclarations subTypes _)

/-- Later passes end as the first did. -/
theorem ending_resolve (blocks : List MsgBlock) (n pass : Nat) (subTypes : SubTypes) :
    ending (resolve blocks (n + 1) pass subTypes) =
      scan (blocks.flatMap fun block => typesOf block.body) := by
  induction n generalizing pass subTypes with
  | zero =>
    unfold resolve
    rw [ending_bind (y := .ok ()) fun after => by split <;> rfl, ending_parsePass]
    cases scan (blocks.flatMap fun block => typesOf block.body) <;> rfl
  | succ n ih =>
    unfold resolve
    cases hpass : parsePass blocks subTypes with
    | ok after =>
      have hscan := ending_parsePass blocks subTypes
      rw [hpass] at hscan
      rw [Outcome.bind_ok]
      split
      · exact hscan
      · exact ih (pass + 1) after
    | error e =>
      have hscan := ending_parsePass blocks subTypes
      rw [hpass] at hscan
      exact hscan
    | fault =>
      have hscan := ending_parsePass blocks subTypes
      rw [hpass] at hscan
      exact hscan

theorem ending_parseSchema (schemaText : Str) :
    ending (parseSchema schemaText) = scan (declaredTypes schemaText) := by
  unfold parseSchema declaredTypes
  cases splitMsgBlocks schemaText with
  | nil => rfl
  | cons root blocks =>
    dsimp only
    rw [ending_bind (y := scan (typesOf root.body)) fun subTypes => by
      rw [ending_mapError]
      exact ending_parseDeclarations subTypes _, ending_resolve, scan_append]

theorem parseSchema_fault (schemaText : Str) :
    parseSchema schemaText = .fault ↔ UnclosedFirst (declaredTypes schemaText) := by
  rw [← scan_eq_fault, ← ending_parseSchema]
  cases parseSchema schemaText with
  | ok fields => exact ⟨nofun, nofun⟩
  | error e => exact ⟨nofun, nofun⟩
  | fault => exact ⟨fun _ => rfl, fun _ => rfl⟩

/-! ## What a parsed schema is made of -/

def AllKnown (subTypes : SubTypes) : Prop :=
  ∀ name fields, subTypes.lookup name = some fields → Known fields

theorem AllKnown.insert {subTypes : SubTypes} (h : AllKnown subTypes) {fields : Fields}
    (hfields : Known fields) (name : Str) : AllKnown (subTypes.insert name fields) := by
  intro other found hfound
  by_cases heq : other = name
  · subst heq
    rw [AList.lookup_insert] at hfound
    cases hfound
    exact hfields
  · rw [AList.lookup_insert_ne heq] at hfound
    exact h other found hfound

variable {subTypes : SubTypes}

theorem AllKnown.store (h : AllKnown subTypes) {fields : Fields} (hfields : Known fields)
    (name : Str) : AllKnown (store subTypes name fields) := by
  unfold Cdr.store
  dsimp only
  split
  · exact h.insert hfields name
  · exact (h.insert hfields name).insert hfields _

theorem lookupSubType_known (h : AllKnown subTypes) (typStr : Str) :
    Known (lookupSubType typStr subTypes) := by
  unfold lookupSubType
  split
  · rename_i fields hfound
    exact h typStr fields hfound
  · split
    · cases hfound : subTypes.lookup (typStr.reverse.takeWhile (· != '/')).reverse with
      | none => trivial
      | some fields => exact h _ fields hfound
    · trivial

theorem parseFieldType_known (h : AllKnown subTypes) {typStr name : Str} {f : Field × Fields}
    (hf : parseFieldType typStr name subTypes = .ok f) :
    (f.1.kind = .primitive → (primitiveOf f.1.primitive).isSome) ∧ Known f.2 := by
  have hplain : ∀ typStr, ((plainField typStr name subTypes).1.kind = .primitive →
      (primitiveOf (plainField typStr name subTypes).1.primitive).isSome) ∧
        Known (plainField typStr name subTypes).2 := by
    intro typStr
    unfold plainField
    split
    · exact ⟨nofun, trivial⟩
    · split
      · rename_i hprimitive
        exact ⟨fun _ => hprimitive, trivial⟩
      · exact ⟨nofun, lookupSubType_known h typStr⟩
  have harray : ∀ kind baseType size, Known (arrayField name kind baseType size subTypes).2 := by
    intro kind baseType size
    unfold arrayField
    dsimp only
    split
    · trivial
    · exact lookupSubType_known h baseType
  unfold parseFieldType at hf
  split at hf
  · cases hf
    exact hplain typStr
  · cases hf
  · dsimp only at hf
    split at hf
    · cases hf
      exact ⟨nofun, harray _ _ _⟩
    · split at hf
      · cases hf
      · cases hf
        exact ⟨nofun, harray _ _ _⟩

theorem parseDeclarations_known (h : AllKnown subTypes) {ds : List (Str × Str)} {fields : Fields}
    (hf : parseDeclarations subTypes ds = .ok fields) : Known fields := by
  induction ds generalizing fields with
  | nil =>
    cases hf
    trivial
  | cons d ds ih =>
    unfold parseDeclarations at hf
    obtain ⟨f, hfield, hrest⟩ := Outcome.bind_eq_ok.1 hf
    obtain ⟨rest, hparsed, rfl⟩ := Outcome.map_eq_ok.1 hrest
    have hknown := parseFieldType_known h (Outcome.mapError_eq_ok.1 hfield)
    exact ⟨hknown.1, hknown.2, ih hparsed⟩

theorem parsePass_known {blocks : List MsgBlock} {after : SubTypes} (h : AllKnown subTypes)
    (hpass : parsePass blocks subTypes = .ok after) : AllKnown after := by
  induction blocks generalizing subTypes with
  | nil =>
    cases hpass
    exact h
  | cons block blocks ih =>
    unfold parsePass at hpass
    obtain ⟨fields, hblock, hrest⟩ := Outcome.bind_eq_ok.1 hpass
    exact ih (h.store (parseDeclarations_known h (Outcome.mapError_eq_ok.1 hblock)) _) hrest

theorem resolve_known {blocks : List MsgBlock} {n pass : Nat} {after : SubTypes}
    (h : AllKnown subTypes) (hresolve : resolve blocks n pass subTypes = .ok after) :
    AllKnown after := by
  induction n generalizing pass subTypes with
  | zero =>
    cases hresolve
    exact h
  | succ n ih =>
    unfold resolve at hresolve
    obtain ⟨next, hpass, hrest⟩ := Outcome.bind_eq_ok.1 hresolve
    have hnext := parsePass_known h hpass
    split at hrest
    · cases hrest
      exact hnext
    · exact ih hnext hrest

theorem parseSchema_known {schemaText : Str} {schema : Fields}
    (h : parseSchema schemaText = .ok schema) : Known schema := by
  unfold parseSchema at h
  split at h
  · cases h
    trivial
  · obtain ⟨subTypes, hresolve, hroot⟩ := Outcome.bind_eq_ok.1 h
    have hempty : AllKnown ∅ := fun name fields hfound => by
      rw [AList.lookup_empty] at hfound
      cases hfound
    exact parseDeclarations_known (resolve_known hempty hresolve) (Outcome.mapError_eq_ok.1 hroot)

/-- Parsing faults exactly over an unclosed type that comes before every bad size, and a parsed
schema is safe for all data exactly when its fixed arrays can be made. -/
theorem schema_and_decode_safety (limit : Nat) (hlimit : 4294967295 ≤ limit)
    (schemaText : Str) :
    (parseSchema schemaText ≠ .fault ↔ ¬UnclosedFirst (declaredTypes schemaText)) ∧
      ∀ schema, parseSchema schemaText = .ok schema →
        ((∀ data, Clean (deserializeCDR limit data schema)) ↔ Fits limit schema) := by
  refine ⟨not_congr (parseSchema_fault schemaText), fun schema hparsed => ⟨fun hclean => ?_,
    fun hfits data => deserializeCDR_clean hlimit hfits data⟩⟩
  by_contra hfits
  obtain ⟨data, hfault⟩ := deserializeCDR_faults hlimit (parseSchema_known hparsed) hfits
  exact (hclean data).1 hfault

/-- The fields of a time stamp, from data that is cut. -/
theorem stamp_is_safe :
    Clean (deserializeCDR 281474976710656 [0, 1, 0, 0, 7, 0, 0, 0, 255]
      (.cons ⟨"sec".toList, .primitive, "int32".toList, 0⟩ .nil
        (.cons ⟨"nanosec".toList, .primitive, "uint32".toList, 0⟩ .nil .nil))) := by
  have hfits : Fits 281474976710656
      (.cons ⟨"sec".toList, .primitive, "int32".toList, 0⟩ .nil
        (.cons ⟨"nanosec".toList, .primitive, "uint32".toList, 0⟩ .nil .nil)) :=
    ⟨trivial, trivial, trivial⟩
  exact ((schema_and_decode_safety 281474976710656 (by decide)
    "int32 sec\nuint32 nanosec".toList).2 _ (by rfl)).2 hfits _

/-- Two texts that bring the client down, the second with the first message that has it. -/
theorem hostile_texts_fault :
    parseSchema "int32[ a".toList = .fault ∧
      ∃ schema, parseSchema "int32[-1] a".toList = .ok schema ∧
        (deserializeCDR 281474976710656 [0, 1, 0, 0] schema).1 = .fault := by
  refine ⟨by rfl, .cons ⟨['a'], .fixedArray, "int32".toList, -1⟩ .nil .nil, by rfl, by rfl⟩

end Cdr
end Foxglove
end Mowgli
