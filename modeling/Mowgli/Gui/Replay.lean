import Mowgli.Foxglove.Steps
import Mowgli.Gui.RosProvider

/-!
# Replay — what a new listener starts from

The last message of a live key is dropped with the last listener. It comes back with a callback
that was already on its way, so **a replay is fresh where every callback was timely**, and nowhere
else. The listener of the bridge is there when the key has listeners, in every run.
-/

namespace Mowgli
namespace Gui

open Foxglove Trace

variable {b : Board} {s : RosProvider b}

/-! ## Freshness -/

/-- The frame with a number was received, and since then the key has had listeners. -/
def Listened (key : b.Key) (number : Nat) (past : List (Entry b)) : Prop :=
  Since (fun e => e.before.subscribers key ≠ [])
    (fun e _ => (∃ topic json, e.event = .receive topic json) ∧ e.before.received = number) past

/-- The key has had listeners from the receipt of the message up to the entry. -/
def Unbroken (key : b.Key) (number : Nat) (e : Entry b) (past : List (Entry b)) : Prop :=
  e.before.subscribers key ≠ [] ∧ Listened key number past

/-- A replay is of a message received after the last moment without listeners. -/
def Fresh (e : Entry b) (past : List (Entry b)) : Prop :=
  ∀ key id m, e.event = .subscribe key id → (b.topicMap key).isSome → e.before.replay key = some m →
    Unbroken key m.number e past

/-- The callback of a live key runs before its key is left by all. -/
def Timely (e : Entry b) (past : List (Entry b)) : Prop :=
  ∀ key keys m, e.event = .call → (b.topicMap key).isSome → e.before.pump = .calls (key :: keys) m →
    (b.adapt key m.json).isSome → Unbroken key m.number e past

/-- Every last message is of the present stretch of listeners. -/
def Current (s : RosProvider b) (past : List (Entry b)) : Prop :=
  ∀ key m, (b.topicMap key).isSome → s.lastMessage key = some m →
    s.subscribers key ≠ [] ∧ Listened key m.number past

section Reconcile

variable (key : b.Key)

@[simp] theorem reconcile_subscribers : (s.reconcile key).subscribers = s.subscribers := by
  unfold RosProvider.reconcile
  split <;> rfl

@[simp] theorem reconcile_lastMessage : (s.reconcile key).lastMessage = s.lastMessage := by
  unfold RosProvider.reconcile
  split <;> rfl

@[simp] theorem reconcile_client : (s.reconcile key).client = s.client := by
  unfold RosProvider.reconcile
  split <;> rfl

@[simp] theorem reconcile_subscribed : (s.reconcile key).subscribed = s.subscribed := by
  unfold RosProvider.reconcile
  split <;> rfl

@[simp] theorem reconcile_holder : (s.reconcile key).holder = s.holder := by
  unfold RosProvider.reconcile
  split <;> rfl

end Reconcile

theorem advance_keeps (key : b.Key) :
    (s.advance key).subscribers = s.subscribers ∧ (s.advance key).lastMessage = s.lastMessage := by
  unfold RosProvider.advance
  split <;> exact ⟨rfl, rfl⟩

theorem fanOut_subscribers (key : b.Key) (m : Received b) :
    (s.fanOut key m).subscribers = s.subscribers := by
  unfold RosProvider.fanOut
  split <;> rfl

/-- Beside a callback, a step takes up no message, and leaves those of keys with listeners. -/
theorem step_keeps (e : Event b) (hcall : e ≠ .call) (key : b.Key) {m : Received b}
    (hlive : (b.topicMap key).isSome) (h : (s.step e).lastMessage key = some m) :
    s.lastMessage key = some m ∧ (s.subscribers key ≠ [] → (s.step e).subscribers key ≠ []) := by
  cases e with
  | subscribe k id =>
    simp only [RosProvider.step, RosProvider.subscribe, reconcile_lastMessage,
      reconcile_subscribers] at h ⊢
    refine ⟨h, ?_⟩
    intro hsome
    by_cases hkey : key = k
    · subst hkey
      rw [Function.update_self]
      split
      · exact hsome
      · simp
    · rw [Function.update_of_ne hkey]
      exact hsome
  | unSubscribe k id =>
    simp only [RosProvider.step, RosProvider.unSubscribe] at h ⊢
    split at h
    · next hid =>
      rw [if_pos hid]
      simp only [reconcile_lastMessage, reconcile_subscribers] at h ⊢
      by_cases hkey : key = k
      · subst hkey
        rw [Function.update_self]
        split at h
        · rw [Function.update_self] at h
          cases h
        · next hleft =>
          refine ⟨h, fun _ hnil => hleft ?_⟩
          rw [hnil, hlive]
          rfl
      · rw [Function.update_of_ne hkey]
        split at h
        · rw [Function.update_of_ne hkey] at h
          exact ⟨h, fun hsome => hsome⟩
        · exact ⟨h, fun hsome => hsome⟩
    · next hid =>
      rw [if_neg hid]
      exact ⟨h, fun hsome => hsome⟩
  | lock k =>
    simp only [RosProvider.step] at h ⊢
    split at h
    · next hfree =>
      rw [if_pos hfree]
      exact ⟨h, fun hsome => hsome⟩
    · next hbusy =>
      rw [if_neg hbusy]
      exact ⟨h, fun hsome => hsome⟩
  | advance k =>
    obtain ⟨hsubscribers, hlast⟩ := advance_keeps (s := s) k
    show s.lastMessage key = some m ∧ (_ → (s.advance k).subscribers key ≠ [])
    rw [hsubscribers, ← hlast]
    exact ⟨h, fun hsome => hsome⟩
  | receive topic json =>
    simp only [RosProvider.step] at h ⊢
    split at h <;> exact ⟨h, fun hsome => hsome⟩
  | dispatch =>
    simp only [RosProvider.step] at h ⊢
    split at h <;> exact ⟨h, fun hsome => hsome⟩
  | call => exact absurd rfl hcall

/-- One more step of a stretch. -/
theorem Unbroken.later {key : b.Key} {number : Nat} {e : Entry b} {past : List (Entry b)}
    (h : Unbroken key number e past) : Listened key number (e :: past) := Or.inr h

variable {past : List (Entry b)}

theorem Current.fresh (h : Current s past) (e : Event b) :
    Fresh (Entry.mark e s (s.step e)) past := by
  intro key id m _ hlive hlast
  exact h key m hlive hlast

theorem Current.step (h : Current s past) (e : Event b)
    (htimely : Timely (Entry.mark e s (s.step e)) past) :
    Current (s.step e) (Entry.mark e s (s.step e) :: past) := by
  intro key m hlive hlast
  by_cases hcall : e = .call
  · subst hcall
    -- what is there already, or the message of a timely callback
    have hunbroken : Unbroken key m.number (Entry.mark .call s (s.step .call)) past := by
      simp only [RosProvider.step] at hlast
      split at hlast
      · next k keys m' hpump =>
        unfold RosProvider.fanOut at hlast
        split at hlast
        · exact h key m hlive hlast
        · next adapted hadapt =>
          by_cases hkey : key = k
          · subst hkey
            simp only [Function.update_self, Option.some.injEq] at hlast
            rw [← hlast]
            exact htimely key keys m' rfl hlive hpump (by rw [hadapt]; rfl)
          · simp only [Function.update_of_ne hkey] at hlast
            exact h key m hlive hlast
      · exact h key m hlive hlast
      · exact h key m hlive hlast
    have hsame : (s.step .call).subscribers = s.subscribers := by
      simp only [RosProvider.step]
      split
      · exact fanOut_subscribers _ _
      · rfl
      · rfl
    rw [hsame]
    exact ⟨hunbroken.1, hunbroken.later⟩
  · obtain ⟨hbefore, hkeeps⟩ := step_keeps e hcall key hlive hlast
    have hunbroken : Unbroken key m.number (Entry.mark e s (s.step e)) past :=
      h key m hlive hbefore
    exact ⟨hkeeps hunbroken.1, hunbroken.later⟩

/-- Where every callback is timely, every replay is fresh. -/
theorem timely_fresh (es : List (Event b)) (h : Always Timely (history es)) :
    Always Fresh (history es) := by
  have hstart : Current ({} : RosProvider b) [] := by
    intro key m _ hnone
    cases hnone
  exact History.run_lawful
    (fun s past e hcurrent hok => ⟨Current.step hcurrent e hok, Current.fresh hcurrent e⟩)
    hstart es h

/-- After a callback that is not, the next listener of its key is given an old message. -/
theorem untimely_stale (h : ¬ Timely (Entry.mark .call s (s.step .call)) past) :
    ∃ key, ∀ id, ¬ Fresh (Entry.mark (.subscribe key id) (s.step .call)
      ((s.step .call).step (.subscribe key id))) (Entry.mark .call s (s.step .call) :: past) := by
  unfold Timely at h
  push Not at h
  obtain ⟨key, keys, m, -, hlive, hpump, hadapt, hbroken⟩ := h
  obtain ⟨adapted, hadapted⟩ := Option.isSome_iff_exists.1 hadapt
  have hpump' : s.pump = .calls (key :: keys) m := hpump
  have hfan : s.step .call = { s.fanOut key m with pump := .calls keys m } := by
    simp only [RosProvider.step, hpump']
  have hlast : (s.step .call).lastMessage key = some ⟨m.number, adapted⟩ := by
    rw [hfan]
    show (s.fanOut key m).lastMessage key = _
    unfold RosProvider.fanOut
    rw [hadapted]
    exact Function.update_self _ _ _
  refine ⟨key, ?_⟩
  intro id hfresh
  obtain ⟨-, hlistened⟩ := hfresh key id _ rfl hlive hlast
  rcases hlistened with ⟨⟨topic, json, hevent⟩, -⟩ | ⟨hsome, hlistened⟩
  · cases hevent
  · exact hbroken ⟨hsome, hlistened⟩

/-! ## Registration -/

section Listeners

variable {w : Wire} (c : Client w) (topic t : w.Topic) (id k : w.ListenerId)

theorem setCallback_has {callback : w.Callback} {entries : List (SubscriberEntry w)} :
    (∃ e ∈ setCallback id callback entries, e.id = k) ↔ ∃ e ∈ entries, e.id = k := by
  induction entries with
  | nil => exact Iff.rfl
  | cons e entries ih =>
    unfold setCallback
    split
    · next heq =>
      simp only [List.mem_cons, exists_eq_or_imp, heq]
    · simp only [List.mem_cons, exists_eq_or_imp, ih]

theorem subscribe_has (callback : w.Callback) (intervalMs : Int) :
    (∃ e ∈ (c.subscribe topic id callback intervalMs).1.listeners t, e.id = k) ↔
      (t = topic ∧ k = id) ∨ ∃ e ∈ c.listeners t, e.id = k := by
  unfold Client.subscribe
  dsimp only
  generalize hcap : (if 0 < intervalMs then
    { c with decimators := c.decimators.insert topic ⟨intervalMs * 1000000, 0⟩ } else c) = c'
  have hlisteners : ∀ t, c'.listeners t = c.listeners t := by
    rw [← hcap]
    split <;> exact fun _ => rfl
  split
  · next hany =>
    rw [listeners_insert]
    split
    · next heq =>
      subst heq
      rw [setCallback_has, hlisteners]
      constructor
      · exact Or.inr
      · intro h
        rcases h with ⟨-, rfl⟩ | h
        · simpa [hlisteners] using hany
        · exact h
    · next hne =>
      rw [hlisteners]
      simp [hne]
  · rw [listeners_insert]
    split
    · next heq =>
      subst heq
      rw [hlisteners]
      simp only [List.mem_append, List.mem_singleton, or_and_right, exists_or, exists_eq_left,
        true_and]
      constructor
      · intro h
        rcases h with h | h
        · exact Or.inr h
        · exact Or.inl h.symm
      · intro h
        rcases h with h | h
        · exact Or.inr h.symm
        · exact Or.inl h
    · next hne =>
      rw [hlisteners]
      simp [hne]

theorem unsubscribe_has :
    (∃ e ∈ (c.unsubscribe topic id).1.listeners t, e.id = k) ↔
      (∃ e ∈ c.listeners t, e.id = k) ∧ ¬ (t = topic ∧ k = id) := by
  unfold Client.unsubscribe
  split
  · next hnone =>
    constructor
    · rintro ⟨e, he, rfl⟩
      refine ⟨⟨e, he, rfl⟩, ?_⟩
      rintro ⟨rfl, -⟩
      unfold Client.listeners at he
      rw [hnone] at he
      cases he
    · intro h
      exact h.1
  · next entries hsome =>
    have hlisteners : c.listeners topic = entries := by
      unfold Client.listeners
      rw [hsome]
      rfl
    have hfilter : (∃ e ∈ entries.filter (fun e => e.id ≠ id), e.id = k) ↔
        (∃ e ∈ entries, e.id = k) ∧ k ≠ id := by
      constructor
      · rintro ⟨e, he, rfl⟩
        obtain ⟨hmem, hne⟩ := List.mem_filter.1 he
        exact ⟨⟨e, hmem, rfl⟩, of_decide_eq_true hne⟩
      · rintro ⟨⟨e, he, rfl⟩, hne⟩
        exact ⟨e, List.mem_filter.2 ⟨he, decide_eq_true hne⟩, rfl⟩
    by_cases htopic : t = topic
    · subst htopic
      have hresult : (let filtered := entries.filter fun e => e.id ≠ id
          if filtered.isEmpty then
            (({ c with subscribers := c.subscribers.erase t } : Client w), true)
          else ({ c with subscribers := c.subscribers.insert t filtered }, true)).1.listeners t =
            entries.filter fun e => e.id ≠ id := by
        dsimp only
        split
        · next hempty =>
          rw [List.isEmpty_iff.1 hempty]
          unfold Client.listeners
          rw [AList.lookup_erase]
          rfl
        · rw [listeners_insert, if_pos rfl]
      rw [hresult, hfilter, hlisteners]
      simp
    · have hresult : (let filtered := entries.filter fun e => e.id ≠ id
          if filtered.isEmpty then
            (({ c with subscribers := c.subscribers.erase topic } : Client w), true)
          else
            ({ c with subscribers := c.subscribers.insert topic filtered }, true)).1.listeners t =
            c.listeners t := by
        dsimp only
        split
        · unfold Client.listeners
          rw [AList.lookup_erase_ne htopic]
        · rw [listeners_insert, if_neg htopic]
      rw [hresult]
      simp [htopic]

end Listeners

/-- What the provider knows of its listener with the client, and the goroutine that holds the
lock. -/
def Registered (s : RosProvider b) (key : b.Key) : Prop :=
  match s.holder key with
  | none => s.registered key = s.subscribed key ∧
      (s.waiting key = 0 → s.subscribed key = s.wanted key)
  | some .check => s.registered key = s.subscribed key
  | some (.apply wanted) => s.registered key = s.subscribed key ∧ wanted = !s.subscribed key
  | some (.note wanted) => s.registered key = wanted ∧ s.subscribed key = !wanted

section Registration

variable {key k : b.Key} {s' : RosProvider b}

theorem registered_iff {topic : b.Topic} (h : b.topicMap key = some topic) :
    s.registered key = true ↔ ∃ e ∈ s.client.listeners topic, e.id = key := by
  unfold RosProvider.registered
  rw [h]
  simp only [List.any_eq_true, decide_eq_true_eq]

theorem registered_congr (h : s'.client = s.client) (key : b.Key) :
    s'.registered key = s.registered key := by
  unfold RosProvider.registered
  rw [h]

/-- Applying what is wanted changes the listener of the key, and no other. -/
theorem registered_apply {wanted : Bool} (h : s'.client = s.applyClient k wanted)
    (hlive : (b.topicMap key).isSome) :
    s'.registered key = if key = k then wanted else s.registered key := by
  obtain ⟨topic, htopic⟩ := Option.isSome_iff_exists.1 hlive
  unfold RosProvider.applyClient at h
  cases hk : b.topicMap k with
  | none =>
    rw [hk] at h
    have hne : key ≠ k := by
      rintro rfl
      rw [htopic] at hk
      cases hk
    rw [if_neg hne]
    exact registered_congr h key
  | some topic' =>
    rw [hk] at h
    have hsame : key = k → topic = topic' := by
      rintro rfl
      rw [htopic] at hk
      exact Option.some.inj hk
    rw [Bool.eq_iff_iff, registered_iff htopic, h]
    cases wanted with
    | true =>
      refine (subscribe_has s.client topic' topic k key k (b.upstreamDecimationMs k)).trans ?_
      rw [← registered_iff htopic]
      by_cases hkey : key = k
      · simp [hkey, hsame hkey]
      · simp [hkey]
    | false =>
      refine (unsubscribe_has s.client topic' topic k key).trans ?_
      rw [← registered_iff htopic]
      by_cases hkey : key = k
      · simp [hkey, hsame hkey]
      · simp [hkey]

/-- Nothing of the key changes but, where a goroutine waits, who listens. -/
theorem Registered.congr (h : Registered s key) (hclient : s'.client = s.client)
    (hsubscribed : s'.subscribed key = s.subscribed key) (hholder : s'.holder key = s.holder key)
    (hwaiting : s'.waiting key = 0 → s.waiting key = 0 ∧ s'.wanted key = s.wanted key) :
    Registered s' key := by
  unfold Registered at h ⊢
  rw [registered_congr hclient, hsubscribed, hholder]
  split at h
  · refine ⟨h.1, ?_⟩
    intro hzero
    obtain ⟨hzero, hwanted⟩ := hwaiting hzero
    rw [hwanted]
    exact h.2 hzero
  · exact h
  · exact h
  · exact h

/-- One step of the loop. -/
theorem Registered.advance (h : Registered s key) (hlive : (b.topicMap key).isSome) :
    Registered (s.advance key) key := by
  unfold RosProvider.advance
  split
  · exact h
  · next hholder =>
    unfold Registered at h ⊢
    rw [hholder] at h
    simp only [Function.update_self]
    by_cases hwanted : s.wanted key = s.subscribed key
    · rw [if_pos hwanted]
      exact ⟨h, fun _ => hwanted.symm⟩
    · rw [if_neg hwanted]
      exact ⟨h, Bool.eq_not_of_ne hwanted⟩
  · next wanted hholder =>
    unfold Registered at h ⊢
    rw [hholder] at h
    simp only [Function.update_self]
    refine ⟨?_, ?_⟩
    · rw [registered_apply rfl hlive, if_pos rfl]
    · rw [h.2, Bool.not_not]
  · next wanted hholder =>
    unfold Registered at h ⊢
    rw [hholder] at h
    simp only [Function.update_self]
    exact h.1

theorem Registered.advance_other (h : Registered s key) (hlive : (b.topicMap key).isSome)
    (hkey : key ≠ k) : Registered (s.advance k) key := by
  unfold RosProvider.advance
  split
  · exact h
  · refine h.congr rfl rfl (Function.update_of_ne hkey _ _) ?_
    exact fun hzero => ⟨hzero, rfl⟩
  · next wanted _ =>
    have hregistered : ({ s with
        client := s.applyClient k wanted
        holder := Function.update s.holder k (some (.note wanted)) } :
          RosProvider b).registered key = s.registered key := by
      rw [registered_apply rfl hlive, if_neg hkey]
    unfold Registered at h ⊢
    rw [hregistered]
    simp only [Function.update_of_ne hkey]
    exact h
  · refine h.congr rfl (Function.update_of_ne hkey _ _) (Function.update_of_ne hkey _ _) ?_
    exact fun hzero => ⟨hzero, rfl⟩

theorem Registered.step (h : Registered s key) (hlive : (b.topicMap key).isSome) (e : Event b) :
    Registered (s.step e) key := by
  have hsame : ∀ {s'' : RosProvider b}, s''.client = s.client → s''.subscribed = s.subscribed →
      s''.holder = s.holder → s''.waiting = s.waiting → s''.subscribers = s.subscribers →
      Registered s'' key := by
    intro s'' h1 h2 h3 h4 h5
    refine h.congr h1 (by rw [h2]) (by rw [h3]) ?_
    intro hzero
    unfold RosProvider.wanted
    rw [h4] at hzero
    rw [h5]
    exact ⟨hzero, rfl⟩
  -- a change of the listeners sends a goroutine to the lock
  have hlist : ∀ (k : b.Key) (s'' : RosProvider b), s''.client = s.client →
      s''.subscribed = s.subscribed → s''.holder = s.holder → s''.waiting = s.waiting →
      (∀ k', k' ≠ k → s''.subscribers k' = s.subscribers k') →
      Registered (s''.reconcile k) key := by
    intro k s'' h1 h2 h3 h4 h5
    refine h.congr (by simp [h1]) (by simp [h2]) (by simp [h3]) ?_
    unfold RosProvider.wanted
    rw [reconcile_subscribers]
    by_cases hkey : key = k
    · subst hkey
      obtain ⟨topic, htopic⟩ := Option.isSome_iff_exists.1 hlive
      unfold RosProvider.reconcile
      rw [htopic]
      simp
    · rw [h5 key hkey]
      unfold RosProvider.reconcile
      split
      · rw [h4]
        exact fun hzero => ⟨hzero, rfl⟩
      · rw [h4]
        simp only [Function.update_of_ne hkey]
        exact fun hzero => ⟨hzero, trivial⟩
  cases e with
  | subscribe k id =>
    refine hlist k _ rfl rfl rfl rfl ?_
    intro k' hne
    exact Function.update_of_ne hne _ _
  | unSubscribe k id =>
    simp only [RosProvider.step, RosProvider.unSubscribe]
    split
    · refine hlist k _ rfl rfl rfl rfl ?_
      intro k' hne
      exact Function.update_of_ne hne _ _
    · exact h
  | lock k =>
    simp only [RosProvider.step]
    split
    · next hfree =>
      by_cases hkey : key = k
      · subst hkey
        unfold Registered at h ⊢
        rw [hfree.2] at h
        simp only [Function.update_self]
        exact h.1
      · refine h.congr rfl rfl (Function.update_of_ne hkey _ _) ?_
        intro hzero
        simp only [Function.update_of_ne hkey] at hzero
        exact ⟨hzero, rfl⟩
    · exact h
  | advance k =>
    show Registered (s.advance k) key
    by_cases hkey : key = k
    · subst hkey
      exact h.advance hlive
    · exact h.advance_other hlive hkey
  | receive topic json =>
    simp only [RosProvider.step]
    split
    · exact hsame rfl rfl rfl rfl rfl
    · exact h
  | dispatch =>
    simp only [RosProvider.step]
    split
    · exact hsame rfl rfl rfl rfl rfl
    · exact h
  | call =>
    have hfan : ∀ (k : b.Key) (m : Received b), (s.fanOut k m).client = s.client ∧
        (s.fanOut k m).subscribed = s.subscribed ∧ (s.fanOut k m).holder = s.holder ∧
        (s.fanOut k m).waiting = s.waiting := by
      intro k m
      unfold RosProvider.fanOut
      split <;> exact ⟨rfl, rfl, rfl, rfl⟩
    simp only [RosProvider.step]
    split
    · next k keys m _ =>
      obtain ⟨h1, h2, h3, h4⟩ := hfan k m
      exact hsame h1 h2 h3 h4 (fanOut_subscribers k m)
    · exact hsame rfl rfl rfl rfl rfl
    · exact h

/-- In every run, a key with no call in progress has its listener when it is listened to. -/
theorem quiet_registered (es : List (Event b)) (hlive : (b.topicMap key).isSome)
    (hquiet : (after es).Quiet) : (after es).registered key = (after es).wanted key := by
  have hstart : Registered ({} : RosProvider b) key := by
    refine ⟨?_, fun _ => rfl⟩
    unfold RosProvider.registered
    split <;> rfl
  have hregistered : Registered (after es) key :=
    @History.run_keeps _ _ _ RosProvider.step Entry.mark _ _ (fun s _ => Registered s key)
      (fun s past e h => Registered.step h hlive e) hstart es
  obtain ⟨hwaiting, hholder⟩ := hquiet key
  unfold Registered at hregistered
  rw [hholder] at hregistered
  exact hregistered.1.trans (hregistered.2 hwaiting)

end Registration

/-! ## The claim of the cache, and where it holds -/

/-- A callback that comes too late is told from the past of the run. -/
def Untimely (es : List (Event b)) : Prop :=
  ¬ Timely (Entry.mark .call (after es) ((after es).step .call)) (history es)

theorem history_snoc (es : List (Event b)) (e : Event b) :
    history (es ++ [e]) = Entry.mark e (after es) ((after es).step e) :: history es ∧
      after (es ++ [e]) = (after es).step e := by
  unfold history after
  rw [History.run_append]
  exact ⟨rfl, rfl⟩

/-- Replays are fresh in the runs whose callbacks are timely; after any other callback the next
listener of its key is given an old message; and at rest the listener of the bridge is there when
the key has listeners. -/
theorem replay_fresh_when_timely (b : Board) (es : List (Event b)) :
    (Always Timely (history es) → Always Fresh (history es)) ∧
    (Untimely es → ∃ key, ∀ id, ¬ Always Fresh (history (es ++ [.call, .subscribe key id]))) ∧
    ((after es).Quiet → ∀ key, (b.topicMap key).isSome →
      ((after es).registered key = true ↔ (after es).subscribers key ≠ [])) := by
  refine ⟨timely_fresh es, ?_, ?_⟩
  · intro h
    obtain ⟨key, hstale⟩ := untimely_stale h
    refine ⟨key, ?_⟩
    intro id hfresh
    obtain ⟨hcall, hafter⟩ := history_snoc es (.call : Event b)
    obtain ⟨hsubscribe, -⟩ := history_snoc (es ++ [.call]) (.subscribe key id)
    rw [List.append_assoc, List.singleton_append] at hsubscribe
    rw [hsubscribe, hcall, hafter] at hfresh
    exact hstale id hfresh.1
  · intro hquiet key hlive
    rw [quiet_registered es hlive hquiet]
    unfold RosProvider.wanted
    rw [Bool.not_eq_true', List.isEmpty_eq_false_iff]

/-- One key. -/
def single : Board where
  Key := Unit
  Id := Nat
  Topic := Unit
  Json := Nat
  topicMap := fun _ => some ()
  adapt := fun _ json => some json
  upstreamDecimationMs := fun _ => 0

/-- The only listener leaves while the pump has a copy of it; then another one comes. -/
def late : List (Event single) :=
  [.subscribe () (1 : Nat), .lock (), .advance (), .advance (), .advance (), .advance (),
    .receive () (7 : Nat), .dispatch, .unSubscribe () (1 : Nat), .call, .subscribe () (2 : Nat)]

/-- The second listener is given what the first one was sent. -/
theorem late_replay_stale :
    ¬ ∀ (b : Board) (es : List (Event b)), Always Fresh (history es) := by
  intro h
  obtain ⟨hsome, -⟩ := (h single late).1 () (2 : Nat) ⟨0, (7 : Nat)⟩ rfl rfl rfl
  exact hsome rfl

end Gui
end Mowgli
