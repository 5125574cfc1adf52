import Mowgli.Foxglove.CdrSafe

/-!
# CdrLayout — what a message looks like on the wire

A layout is a list of pads, rows of bytes and checks. A writer writes a layout when it appends
what the layout emits at its offset; a reader reads it when, over these bytes, it returns and ends
behind them exactly if the checks hold. Both compose, so that a walk over a schema is compared
with its layout field by field.
-/

namespace Mowgli
namespace Foxglove
namespace Cdr

open Program

inductive Item
  /-- Zeros up to the next multiple. -/
  | align (n : Nat)
  | raw (bytes : List UInt8)
  /-- So many bytes are left at least. -/
  | count (n : Nat)
  /-- A slice of this length can be made. -/
  | made (n : Nat)

/-- The bytes of a layout that starts at an offset. -/
def emit : Nat → List Item → List UInt8
  | _, [] => []
  | o, .align n :: items => List.replicate (aligned 8 n o - o) 0 ++ emit (aligned 8 n o) items
  | o, .raw bytes :: items => bytes ++ emit (o + bytes.length) items
  | o, .count _ :: items => emit o items
  | o, .made _ :: items => emit o items

/-- Where a layout ends. -/
def endOf : Nat → List Item → Nat
  | o, [] => o
  | o, .align n :: items => endOf (aligned 8 n o) items
  | o, .raw bytes :: items => endOf (o + bytes.length) items
  | o, .count _ :: items => endOf o items
  | o, .made _ :: items => endOf o items

/-- The checks of a layout in `total` bytes. -/
def Guarded (limit total : Nat) : Nat → List Item → Prop
  | _, [] => True
  | o, .align n :: items => Guarded limit total (aligned 8 n o) items
  | o, .raw bytes :: items => Guarded limit total (o + bytes.length) items
  | o, .count n :: items => o + n ≤ total ∧ Guarded limit total o items
  | o, .made n :: items => n ≤ limit ∧ Guarded limit total o items

variable {n : Nat} {items : List Item}

theorem aligned_eq (hn : 2 ≤ n ∧ n ≤ 8) (o : Nat) :
    aligned 8 n o = if (o - 4) % n ≠ 0 then o + (n - (o - 4) % n) else o := by
  unfold aligned
  rw [if_neg (by omega), if_neg (Nat.not_lt.2 hn.2)]

variable {o : Nat} {data : List UInt8}

theorem aligned_of_dvd (hn : 0 < n ∧ n ≤ 8) (h : n ∣ o - 4) : aligned 8 n o = o := by
  by_cases hone : n = 1
  · rw [hone]
    rfl
  · rw [aligned_eq (by omega), if_neg (not_not.2 (Nat.mod_eq_zero_of_dvd h))]

theorem dvd_aligned (hn : 0 < n ∧ n ≤ 8) (h4 : 4 ≤ o) : n ∣ aligned 8 n o - 4 := by
  by_cases hone : n = 1
  · rw [hone]
    exact Nat.one_dvd _
  · rw [aligned_eq (by omega)]
    have hdiv := Nat.div_add_mod (o - 4) n
    have hlt := Nat.mod_lt (o - 4) hn.1
    split
    · refine ⟨(o - 4) / n + 1, ?_⟩
      rw [Nat.mul_succ]
      omega
    · rename_i hmod
      exact Nat.dvd_of_mod_eq_zero (not_not.1 hmod)

theorem endOf_append (o : Nat) (x y : List Item) : endOf o (x ++ y) = endOf (endOf o x) y := by
  induction x generalizing o with
  | nil => rfl
  | cons item x ih => cases item <;> exact ih _

theorem emit_append (o : Nat) (x y : List Item) :
    emit o (x ++ y) = emit o x ++ emit (endOf o x) y := by
  induction x generalizing o with
  | nil => rfl
  | cons item x ih =>
    cases item with
    | align n => simp only [List.cons_append, emit, endOf, ih, List.append_assoc]
    | raw bytes => simp only [List.cons_append, emit, endOf, ih, List.append_assoc]
    | count n => exact ih o
    | made n => exact ih o

theorem guarded_append (limit total o : Nat) (x y : List Item) :
    Guarded limit total o (x ++ y) ↔
      Guarded limit total o x ∧ Guarded limit total (endOf o x) y := by
  induction x generalizing o with
  | nil => simp [Guarded, endOf]
  | cons item x ih =>
    cases item with
    | align n => exact ih _
    | raw bytes => exact ih _
    | count n => simp only [List.cons_append, Guarded, endOf, ih, and_assoc]
    | made n => simp only [List.cons_append, Guarded, endOf, ih, and_assoc]

theorem emit_length (o : Nat) (items : List Item) : o + (emit o items).length = endOf o items := by
  induction items generalizing o with
  | nil => rfl
  | cons item items ih =>
    cases item with
    | align n =>
      have hle := (aligned_bounds 8 n o).1
      have hrest := ih (aligned 8 n o)
      simp only [emit, endOf, List.length_append, List.length_replicate]
      omega
    | raw bytes =>
      have hrest := ih (o + bytes.length)
      simp only [emit, endOf, List.length_append]
      omega
    | count n => exact ih o
    | made n => exact ih o

theorem le_endOf (o : Nat) (items : List Item) : o ≤ endOf o items := by
  rw [← emit_length]
  exact Nat.le_add_right _ _

/-! ## Writers -/

/-- It appends the layout, wherever it starts behind the header. -/
def Writes (w : Write) (items : List Item) : Prop :=
  ∀ buf : List UInt8, 4 ≤ buf.length → w buf = (.ok (), buf ++ emit buf.length items)

theorem Writes.bind {w w' : Write} {x y : List Item} (hw : Writes w x) (hw' : Writes w' y) :
    Writes (do w; w') (x ++ y) := by
  intro buf h4
  show (w >>= fun _ => w') buf = _
  rw [bind_of_ok (hw buf h4)]
  have hrest := hw' (buf ++ emit buf.length x) (by rw [List.length_append]; omega)
  rw [hrest, List.length_append, emit_length, emit_append, List.append_assoc]

theorem Writes.wrap {w : Write} (hw : Writes w items) (f : WriteError → WriteError) :
    Writes (w.wrap f) items :=
  fun buf h4 => wrap_of_ok (hw buf h4) f

theorem Writes.nothing : Writes (pure ()) [] := by
  intro buf _
  rw [emit, List.append_nil]
  rfl

theorem append_writes (bytes : List UInt8) : Writes (append bytes) [.raw bytes] := by
  intro buf _
  rw [emit, emit, List.append_nil]
  rfl

theorem writeAlign_writes (n : Nat) : Writes (writeAlign n) [.align n] := by
  intro buf _
  rw [emit, emit, List.append_nil]
  rfl

theorem writeAll_writes {write : Json → Write} {items : Json → List Item} {vs : List Json}
    (h : ∀ v ∈ vs, Writes (write v) (items v)) :
    Writes (writeAll write vs) (vs.flatMap items) := by
  induction vs with
  | nil => exact Writes.nothing
  | cons v vs ih =>
    rw [List.flatMap_cons]
    exact (h v List.mem_cons_self).bind (ih fun v hv => h v (List.mem_cons_of_mem _ hv))

/-! ## Readers -/

/-- The bytes are there at an offset. -/
def At (data : List UInt8) (o : Nat) (bytes : List UInt8) : Prop :=
  ∃ post, data.drop o = bytes ++ post

theorem At.left {x y : List UInt8} (h : At data o (x ++ y)) : At data o x := by
  obtain ⟨post, hdrop⟩ := h
  exact ⟨y ++ post, by rw [hdrop, List.append_assoc]⟩

theorem At.right {x y : List UInt8} (h : At data o (x ++ y)) : At data (o + x.length) y := by
  obtain ⟨post, hdrop⟩ := h
  refine ⟨post, ?_⟩
  rw [← List.drop_drop, hdrop, List.append_assoc, List.drop_left]

theorem At.le {bytes : List UInt8} (h : At data o bytes) (hne : bytes ≠ []) :
    o + bytes.length ≤ data.length := by
  obtain ⟨post, hdrop⟩ := h
  have hlength := congrArg List.length hdrop
  have hpos := List.length_pos_iff.2 hne
  rw [List.length_drop, List.length_append] at hlength
  omega

variable {limit : Nat} {b : Buffer} {α β : Type}

/-- Over the bytes of the layout, it returns and ends behind them if the checks hold, and does
not return otherwise. -/
def Reads (limit : Nat) (b : Buffer) (m : Read α) (items : List Item) (a : α) : Prop :=
  ∀ s, 4 ≤ s.offset → At b.data s.offset (emit s.offset items) →
    (Guarded limit b.data.length s.offset items →
      ∃ made, m s = (.ok a, { offset := endOf s.offset items, made := made })) ∧
    (¬Guarded limit b.data.length s.offset items → ∀ x, (m s).1 ≠ .ok x)

theorem Reads.pure (a : α) : Reads limit b (pure a : Read α) [] a :=
  fun s _ _ => ⟨fun _ => ⟨s.made, rfl⟩, fun h => absurd trivial h⟩

variable {m : Read α}

theorem bind_ne_ok {s : Cursor} (h : ∀ x, (m s).1 ≠ .ok x) (f : α → Read β) (y : β) :
    ((m >>= f) s).1 ≠ .ok y := by
  rw [bind_apply]
  unfold Program.bind
  cases hm : m s with
  | mk outcome t =>
    rw [hm] at h
    cases outcome with
    | ok a => exact absurd rfl (h a)
    | error e => nofun
    | fault => nofun

variable {a : α}

theorem Reads.bind {f : α → Read β} {x y : List Item} {c : β} (hm : Reads limit b m x a)
    (hf : Reads limit b (f a) y c) : Reads limit b (m >>= f) (x ++ y) c := by
  intro s h4 hat
  rw [emit_append] at hat
  obtain ⟨hruns, hstops⟩ := hm s h4 hat.left
  rw [guarded_append]
  by_cases hx : Guarded limit b.data.length s.offset x
  · obtain ⟨made, hrun⟩ := hruns hx
    have hrest := hat.right
    rw [emit_length] at hrest
    obtain ⟨hruns', hstops'⟩ := hf { offset := endOf s.offset x, made := made }
      (Nat.le_trans h4 (le_endOf _ _)) hrest
    rw [bind_of_ok hrun, endOf_append]
    exact ⟨fun h => hruns' h.2, fun h => hstops' fun hy => h ⟨hx, hy⟩⟩
  · exact ⟨fun h => absurd h.1 hx, fun _ => bind_ne_ok (hstops hx) f⟩

theorem Reads.map (hm : Reads limit b m items a) (f : α → β) :
    Reads limit b (m >>= fun a => Pure.pure (f a)) items (f a) := by
  have hread := hm.bind (f := fun a => (Pure.pure (f a) : Read β)) (Reads.pure (f a))
  rwa [List.append_nil] at hread

theorem Reads.wrap (hm : Reads limit b m items a) (f : CdrError → CdrError) :
    Reads limit b (m.wrap f) items a := by
  intro s h4 hat
  obtain ⟨hruns, hstops⟩ := hm s h4 hat
  refine ⟨fun h => ?_, fun h x hx => ?_⟩
  · obtain ⟨made, hrun⟩ := hruns h
    exact ⟨made, wrap_of_ok hrun f⟩
  · exact hstops h x (Outcome.mapError_eq_ok.1 hx)

theorem Reads.times {items : Json → List Item} {value : Json → α} {vs : List Json}
    (h : ∀ v ∈ vs, Reads limit b m (items v) (value v)) :
    Reads limit b (m.times vs.length) (vs.flatMap items) (vs.map value) := by
  induction vs with
  | nil => exact Reads.pure []
  | cons v vs ih =>
    rw [List.flatMap_cons]
    exact (h v List.mem_cons_self).bind
      ((ih fun v hv => h v (List.mem_cons_of_mem _ hv)).map fun rest => value v :: rest)

/-- What is only raw bytes and pads has no checks. -/
theorem Reads.of_run (hguarded : ∀ total o, Guarded limit total o items)
    (h : ∀ s, 4 ≤ s.offset → At b.data s.offset (emit s.offset items) →
      ∃ made, m s = (.ok a, { offset := endOf s.offset items, made := made })) :
    Reads limit b m items a :=
  fun s h4 hat => ⟨fun _ => h s h4 hat, fun hnot => absurd (hguarded _ _) hnot⟩

theorem align_reads (hb : b.maxAlign = 8) (n : Nat) : Reads limit b (b.align n) [.align n] () := by
  refine Reads.of_run (fun _ _ => trivial) fun s _ _ => ⟨s.made, ?_⟩
  unfold Buffer.align
  rw [hb]
  rfl

theorem next_reads (bytes : List UInt8) (hne : bytes ≠ []) :
    Reads limit b (b.next bytes.length) [.raw bytes] bytes := by
  refine Reads.of_run (fun _ _ => trivial) fun s _ hat => ⟨s.made, ?_⟩
  rw [emit, emit, List.append_nil] at hat
  rw [next_apply, if_neg (Nat.not_lt.2 (hat.le hne))]
  obtain ⟨post, hdrop⟩ := hat
  rw [hdrop, List.take_left]
  rfl

theorem make_reads {behind : Option Nat} : Reads limit b (b.make limit n behind) [.made n] () := by
  intro s _ _
  constructor
  · rintro ⟨hn, _⟩
    have hmake : b.make limit n behind = Program.modify _ := if_neg (by omega)
    rw [hmake]
    exact ⟨_, rfl⟩
  · intro hn x hx
    have hmake : b.make limit n behind = Program.crash :=
      if_pos (Or.inr (by
        by_contra hle
        exact hn ⟨by omega, trivial⟩))
    rw [hmake] at hx
    cases hx

/-- The reader of what the writer wrote. -/
structure Little (b : Buffer) : Prop where
  le : b.le = true
  maxAlign : b.maxAlign = 8

section Little

variable (hb : Little b)
include hb

theorem number_toLittle (n x : Nat) : b.number (Endian.toLittle n x) = x % 256 ^ n := by
  unfold Buffer.number
  rw [hb.le, if_pos rfl, Endian.ofLittle_toLittle]

omit hb in
theorem toLittle_ne_nil (hn : 0 < n) (x : Nat) : Endian.toLittle n x ≠ [] := by
  rw [← List.length_pos_iff, Endian.toLittle_length]
  exact hn

theorem readUint32_reads (hn : n < 4294967296) :
    Reads limit b b.readUint32 [.raw (Endian.toLittle 4 n)] n := by
  have hnext : Reads limit b (b.next 4) _ _ :=
    next_reads (Endian.toLittle 4 n) (toLittle_ne_nil (by decide) n)
  have hread := hnext.map b.number
  rw [number_toLittle hb, Nat.mod_eq_of_lt (show n < 256 ^ 4 from hn)] at hread
  exact hread

/-- What the bits of a primitive are read as. -/
theorem readElement_reads (p : Primitive) (n : Nat) :
    Reads limit b (b.readElement p) [.raw (Endian.toLittle (primitiveSize p) n)]
      (primitiveValue p (n % 256 ^ primitiveSize p)) := by
  have hpos : 0 < primitiveSize p := by cases p <;> decide
  have hnext : Reads limit b _ _ _ :=
    next_reads (Endian.toLittle (primitiveSize p) n) (toLittle_ne_nil hpos n)
  rw [Endian.toLittle_length] at hnext
  have hread := hnext.map fun bytes => primitiveValue p (b.number bytes)
  rw [number_toLittle hb] at hread
  exact hread

def stringItems (s : List UInt8) : List Item :=
  [.align 4, .raw (Endian.toLittle 4 (s.length + 1)), .raw s, .raw [0]]

theorem readString_reads {s : List UInt8} (hs : s.length + 1 < 4294967296) :
    Reads limit b b.readString (stringItems s) s := by
  refine (align_reads hb.maxAlign 4).bind ((readUint32_reads hb hs).bind ?_)
  rw [if_neg (Nat.succ_ne_zero _)]
  refine Reads.of_run (fun _ _ => trivial) fun t _ hat => ⟨t.made, ?_⟩
  have hlength : t.offset + (s.length + 1) ≤ b.data.length := by
    have hle := hat.le (by simp [emit])
    simp only [emit, List.length_append, List.length_cons, List.length_nil] at hle
    omega
  have hfetch : ¬b.data.length < t.offset + s.length := by omega
  obtain ⟨post, hdrop⟩ := hat.left
  simp only [bind_apply, Program.bind, Program.get]
  rw [if_neg (Nat.not_lt.2 hlength)]
  unfold Buffer.fetch
  simp only [bind_apply, Program.bind, Program.get, Nat.add_sub_cancel]
  rw [if_neg hfetch, hdrop, List.take_left]
  rfl

end Little

end Cdr
end Foxglove
end Mowgli
