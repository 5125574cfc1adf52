import Mowgli.Lib.Fresh
import Mowgli.Obstacles.Tracker

/-!
# Tracked — who is on the tracked list, and who leaves it

Ids are handed out by a counter that stays above all of them. An obstacle is merged into another
one and then lives on in it: its **heir**. Nothing but a clear, a load or the boundary takes an
obstacle that is persistent, unless its heir is persistent.
-/

namespace Mowgli
namespace Obstacles

variable {D : Type} {fl : Doubles D} {cfg : Cfg D}
variable {s s' : Node D} {t t' t'' : List (TrackedObstacle D)}
variable {o o' a b : TrackedObstacle D}

/-! ## The ids -/

def ids (tracked : List (TrackedObstacle D)) : List UInt32 := tracked.map (·.id)

/-- The ids of the list are below the counter, each there once. -/
structure Counted (tracked : List (TrackedObstacle D)) (next : UInt32) : Prop where
  nodup : (ids tracked).Nodup
  below : Fresh.Below ((ids tracked).map UInt32.toNat) next.toNat

variable {next : UInt32}

theorem Counted.unused (h : Counted t next) : next ∉ ids t := by
  intro hmem
  exact h.below.not_mem (List.mem_map_of_mem hmem)

theorem Counted.nil (next : UInt32) : Counted ([] : List (TrackedObstacle D)) next :=
  ⟨List.nodup_nil, Fresh.Below.nil _⟩

theorem Counted.sublist (h : Counted t next) (hsub : (ids t').Sublist (ids t)) :
    Counted t' next where
  nodup := h.nodup.sublist hsub
  below := h.below.subset fun _ hn => (hsub.map UInt32.toNat).subset hn

theorem toNat_succ (h : next.toNat + 1 < 2 ^ 32) : (next + 1).toNat = next.toNat + 1 := by
  rw [UInt32.toNat_add]
  exact Nat.mod_eq_of_lt h

theorem Counted.snoc (h : Counted t next) (hroom : next.toNat + 1 < 2 ^ 32) (hid : o.id = next) :
    Counted (t ++ [o]) (next + 1) := by
  have hids : ids (t ++ [o]) = ids t ++ [next] := by
    unfold ids
    rw [List.map_append, List.map_singleton, hid]
  constructor
  · rw [hids]
    apply List.Nodup.append h.nodup (List.nodup_singleton next)
    intro n hn hmem
    rw [List.mem_singleton.1 hmem] at hn
    exact h.unused hn
  · rw [hids, List.map_append, toNat_succ hroom]
    refine (h.below.mono (Nat.le_succ _)).append ?_
    exact Fresh.Below.cons (Nat.lt_succ_self _) (Fresh.Below.nil _)

/-! ## Association -/

/-- Each persistent obstacle is still there, under its id. -/
def Keeps (t t' : List (TrackedObstacle D)) : Prop :=
  ∀ o ∈ t, o.persistent = true → ∃ o' ∈ t', o'.id = o.id ∧ o'.persistent = true

theorem Keeps.refl (t : List (TrackedObstacle D)) : Keeps t t :=
  fun o ho hpersistent => ⟨o, ho, rfl, hpersistent⟩

theorem Keeps.trans (h : Keeps t t') (h' : Keeps t' t'') : Keeps t t'' := by
  intro o ho hpersistent
  obtain ⟨o', ho', hid, hp⟩ := h o ho hpersistent
  obtain ⟨o'', ho'', hid', hp'⟩ := h' o' ho' hp
  exact ⟨o'', ho'', hid'.trans hid, hp'⟩

theorem modify_ids (i : Nat) (cluster : List (D × D)) (stamp : Time) :
    ids (t.modify i fun o => o.observed fl cluster stamp) = ids t := by
  induction t generalizing i with
  | nil => simp [ids]
  | cons o t ih =>
    cases i with
    | zero => rfl
    | succ i =>
      show o.id :: ids (t.modify i fun o => o.observed fl cluster stamp) = o.id :: ids t
      rw [ih]

theorem modify_keeps (i : Nat) (cluster : List (D × D)) (stamp : Time) :
    Keeps t (t.modify i fun o => o.observed fl cluster stamp) := by
  induction t generalizing i with
  | nil =>
    intro o ho
    cases ho
  | cons o t ih =>
    intro p hp hpersistent
    cases i with
    | zero =>
      rcases List.mem_cons.1 hp with rfl | hp
      · exact ⟨_, List.mem_cons_self, rfl, hpersistent⟩
      · exact ⟨p, List.mem_cons_of_mem _ hp, rfl, hpersistent⟩
    | succ i =>
      rcases List.mem_cons.1 hp with rfl | hp
      · exact ⟨p, List.mem_cons_self, rfl, hpersistent⟩
      · obtain ⟨p', hp', hid⟩ := ih i p hp hpersistent
        exact ⟨p', List.mem_cons_of_mem _ hp', hid⟩

/-- What one cluster can do. -/
theorem associate_cases (fl : Doubles D) (cfg : Cfg D) (stamp : Time) (s : Node D)
    (cluster : List (D × D)) :
    s.associate fl cfg stamp cluster = s ∨
    (∃ i, s.associate fl cfg stamp cluster =
      { s with tracked := s.tracked.modify i fun o => o.observed fl cluster stamp }) ∨
    s.associate fl cfg stamp cluster = s.track fl cluster stamp := by
  unfold Node.associate
  dsimp only
  split_ifs
  · exact .inl rfl
  · exact .inl rfl
  · exact .inl rfl
  · exact .inl rfl
  · split
    · exact .inr (.inr rfl)
    · rename_i i hi
      exact .inr (.inl ⟨i, rfl⟩)
  · split
    · exact .inr (.inr rfl)
    · exact .inr (.inr rfl)

theorem associate_counted (fl : Doubles D) (cfg : Cfg D) (stamp : Time) (cluster : List (D × D))
    (h : Counted s.tracked s.next_id) (hroom : s.next_id.toNat + 1 < 2 ^ 32) :
    Counted (s.associate fl cfg stamp cluster).tracked (s.associate fl cfg stamp cluster).next_id ∧
      (s.associate fl cfg stamp cluster).next_id.toNat ≤ s.next_id.toNat + 1 := by
  rcases associate_cases fl cfg stamp s cluster with heq | ⟨i, heq⟩ | heq
  · rw [heq]
    exact ⟨h, Nat.le_succ _⟩
  · rw [heq]
    refine ⟨h.sublist ?_, Nat.le_succ _⟩
    show (ids (s.tracked.modify i _)).Sublist (ids s.tracked)
    rw [modify_ids]
  · rw [heq]
    exact ⟨h.snoc hroom rfl, (toNat_succ hroom).le⟩

variable (stamp : Time)

theorem associate_keeps (cluster : List (D × D)) :
    Keeps s.tracked (s.associate fl cfg stamp cluster).tracked := by
  rcases associate_cases fl cfg stamp s cluster with heq | ⟨i, heq⟩ | heq
  · rw [heq]
    exact Keeps.refl _
  · rw [heq]
    exact modify_keeps i cluster stamp
  · rw [heq]
    intro o ho hpersistent
    exact ⟨o, List.mem_append_left _ ho, rfl, hpersistent⟩

theorem associate_clusters_counted {clusters : List (List (D × D))}
    (h : Counted s.tracked s.next_id) (hroom : s.next_id.toNat + clusters.length < 2 ^ 32) :
    Counted (associate_clusters fl cfg s clusters stamp).tracked
      (associate_clusters fl cfg s clusters stamp).next_id := by
  unfold associate_clusters
  induction clusters generalizing s with
  | nil => exact h
  | cons cluster clusters ih =>
    rw [List.length_cons] at hroom
    obtain ⟨hcounted, hnext⟩ := associate_counted fl cfg stamp cluster h (by omega)
    rw [List.foldl_cons]
    exact ih hcounted (by omega)

theorem associate_clusters_keeps (clusters : List (List (D × D))) :
    Keeps s.tracked (associate_clusters fl cfg s clusters stamp).tracked := by
  unfold associate_clusters
  induction clusters generalizing s with
  | nil => exact Keeps.refl _
  | cons cluster clusters ih =>
    rw [List.foldl_cons]
    exact (associate_keeps stamp cluster).trans ih

theorem associate_file (cluster : List (D × D)) :
    (s.associate fl cfg stamp cluster).file = s.file := by
  rcases associate_cases fl cfg stamp s cluster with heq | ⟨i, heq⟩ | heq <;> rw [heq]
  rfl

theorem associate_clusters_file (clusters : List (List (D × D))) :
    (associate_clusters fl cfg s clusters stamp).file = s.file := by
  unfold associate_clusters
  induction clusters generalizing s with
  | nil => rfl
  | cons cluster clusters ih =>
    rw [List.foldl_cons, ih, associate_file]

/-! ## Promotion -/

theorem promote_some {now : Time} (h : promote fl cfg now o = some o') :
    o'.id = o.id ∧ (o.persistent = true → o' = o) := by
  unfold promote at h
  cases hp : o.persistent with
  | true =>
    simp only [hp, Bool.not_true, Bool.false_and, Bool.false_eq_true, if_false,
      Option.some.injEq] at h
    exact ⟨by rw [h], fun _ => h.symm⟩
  | false =>
    simp only [hp] at h
    refine ⟨?_, fun hfalse => nomatch hfalse⟩
    split_ifs at h <;> cases h <;> rfl

theorem promote_persists {now : Time} (h : o.persistent = true) :
    promote fl cfg now o = some o := by
  unfold promote
  simp [h]

theorem promote_ids (now : Time) : (ids (promote_persistent fl cfg now t)).Sublist (ids t) := by
  unfold promote_persistent ids
  induction t with
  | nil => exact List.Sublist.slnil
  | cons o t ih =>
    rw [List.filterMap_cons]
    cases h : promote fl cfg now o with
    | none => exact ih.cons o.id
    | some o' =>
      rw [List.map_cons, List.map_cons, (promote_some h).1]
      exact ih.cons_cons o.id

theorem promote_mem (now : Time) (ho : o ∈ t) (hpersistent : o.persistent = true) :
    o ∈ promote_persistent fl cfg now t :=
  List.mem_filterMap.2 ⟨o, ho, promote_persists hpersistent⟩

/-! ## Merging -/

theorem merged_some (h : merged fl a b = some o) :
    o.id = a.id ∧ o.persistent = (a.persistent || b.persistent) := by
  unfold merged at h
  obtain ⟨earlier, -, h⟩ := Option.bind_eq_some_iff.1 h
  obtain ⟨later, -, h⟩ := Option.map_eq_some_iff.1 h
  rw [← h]
  exact ⟨rfl, rfl⟩

theorem absorb_split {r : TrackedObstacle D × List (TrackedObstacle D)}
    (h : absorb fl a t = some r) :
    ∃ ys zs, t = ys ++ r.1 :: zs ∧ r.2 = ys ++ zs := by
  induction t generalizing r with
  | nil => cases h
  | cons b t ih =>
    unfold absorb at h
    split_ifs at h with hoverlap
    · cases h
      exact ⟨[], t, rfl, rfl⟩
    · obtain ⟨r', hr', rfl⟩ := Option.map_eq_some_iff.1 h
      obtain ⟨ys, zs, ht, hr⟩ := ih hr'
      exact ⟨b :: ys, zs, by rw [ht, List.cons_append], by rw [hr, List.cons_append]⟩

/-- `b` is merged into `a`, which is before it. -/
structure Merges (fl : Doubles D) (t t' : List (TrackedObstacle D)) (a b a' : TrackedObstacle D) :
    Prop where
  split : ∃ xs ys zs, t = xs ++ a :: (ys ++ b :: zs) ∧ t' = xs ++ a' :: (ys ++ zs)
  merged : merged fl a b = some a'

theorem merge_pair_merges (h : merge_pair fl t = some (some t')) :
    ∃ a b a', Merges fl t t' a b a' := by
  induction t generalizing t' with
  | nil => cases h
  | cons c t ih =>
    unfold merge_pair at h
    cases habsorb : absorb fl c t with
    | some r =>
      obtain ⟨ys, zs, ht, hr⟩ := absorb_split habsorb
      simp only [habsorb, Option.some.injEq, Option.map_eq_some_iff] at h
      obtain ⟨a', hmerged, rfl⟩ := h
      exact ⟨c, r.1, a', ⟨[], ys, zs, by rw [ht]; rfl, by rw [hr]; rfl⟩, hmerged⟩
    | none =>
      simp only [habsorb, Option.map_eq_some_iff] at h
      obtain ⟨t₁, ht₁, t₂, rfl, rfl⟩ := h
      obtain ⟨a, b, a', ⟨xs, ys, zs, ht, ht'⟩, hmerged⟩ := ih ht₁
      exact ⟨a, b, a', ⟨c :: xs, ys, zs, by rw [ht]; rfl, by rw [ht']; rfl⟩, hmerged⟩

theorem Merges.ids (h : Merges fl t t' a b o) : (ids t').Sublist (ids t) := by
  obtain ⟨⟨xs, ys, zs, rfl, rfl⟩, hmerged⟩ := h
  unfold Obstacles.ids
  simp only [List.map_append, List.map_cons, (merged_some hmerged).1]
  apply List.Sublist.append_left
  apply List.Sublist.cons_cons
  apply List.Sublist.append_left
  exact List.sublist_cons_self _ _

/-- In whom an obstacle of a list lives on after some merges. -/
inductive Heir (fl : Doubles D) : List (TrackedObstacle D) → List (TrackedObstacle D) →
    TrackedObstacle D → TrackedObstacle D → Prop
  | stays (t : List (TrackedObstacle D)) (o : TrackedObstacle D) (ho : o ∈ t) : Heir fl t t o o
  | beside (t t' t'' : List (TrackedObstacle D)) (a b a' o heir : TrackedObstacle D)
      (h : Merges fl t t' a b a') (ho : o ∈ t') (rest : Heir fl t' t'' o heir) :
      Heir fl t t'' o heir
  | into (t t' t'' : List (TrackedObstacle D)) (a b a' o heir : TrackedObstacle D)
      (h : Merges fl t t' a b a') (ho : o = a ∨ o = b) (rest : Heir fl t' t'' a' heir) :
      Heir fl t t'' o heir

theorem merges_ids {n : Nat} (h : merges fl n t = some t') :
    (ids t').Sublist (ids t) := by
  induction n generalizing t with
  | zero =>
    cases h
    exact List.Sublist.refl _
  | succ n ih =>
    unfold merges at h
    cases hpair : merge_pair fl t with
    | none =>
      rw [hpair] at h
      cases h
      exact List.Sublist.refl _
    | some r =>
      rw [hpair] at h
      obtain ⟨t₁, rfl, hrest⟩ := Option.bind_eq_some_iff.1 h
      obtain ⟨a, b, a', hmerges⟩ := merge_pair_merges hpair
      exact (ih hrest).trans hmerges.ids

theorem merges_heir {n : Nat} (h : merges fl n t = some t') (ho : o ∈ t)
    (hpersistent : o.persistent = true) :
    ∃ heir ∈ t', heir.persistent = true ∧ Heir fl t t' o heir := by
  induction n generalizing t o with
  | zero =>
    cases h
    exact ⟨o, ho, hpersistent, .stays _ o ho⟩
  | succ n ih =>
    unfold merges at h
    cases hpair : merge_pair fl t with
    | none =>
      rw [hpair] at h
      cases h
      exact ⟨o, ho, hpersistent, .stays _ o ho⟩
    | some r =>
      rw [hpair] at h
      obtain ⟨t₁, rfl, hrest⟩ := Option.bind_eq_some_iff.1 h
      obtain ⟨a, b, a', hmerges⟩ := merge_pair_merges hpair
      obtain ⟨⟨xs, ys, zs, ht, ht₁⟩, hmerged⟩ := hmerges
      have ha' : a' ∈ t₁ := by
        rw [ht₁]
        exact List.mem_append_right _ List.mem_cons_self
      rw [ht] at ho
      by_cases hpart : o = a ∨ o = b
      · have hp' : a'.persistent = true := by
          rw [(merged_some hmerged).2, Bool.or_eq_true]
          rcases hpart with rfl | rfl
          · exact .inl hpersistent
          · exact .inr hpersistent
        obtain ⟨heir, hmem, hp, hheir⟩ := ih hrest ha' hp'
        exact ⟨heir, hmem, hp,
          .into t t₁ t' a b a' o heir ⟨⟨xs, ys, zs, ht, ht₁⟩, hmerged⟩ hpart hheir⟩
      · have hkept : o ∈ t₁ := by
          rw [not_or] at hpart
          rw [ht₁]
          simp only [List.mem_append, List.mem_cons] at ho ⊢
          tauto
        obtain ⟨heir, hmem, hp, hheir⟩ := ih hrest hkept hpersistent
        exact ⟨heir, hmem, hp,
          .beside t t₁ t' a b a' o heir ⟨⟨xs, ys, zs, ht, ht₁⟩, hmerged⟩ hkept hheir⟩

end Obstacles
end Mowgli
