import Mowgli.Foxglove.Books

/-!
# Steps — what listeners and announcements keep
-/

namespace Mowgli
namespace Foxglove

variable {w : Wire} {s : System w} {written : Bool}

/-! ## Listeners -/

/-- Only the listeners of one topic change, and where they come or go a reconcile follows. -/
structure Relists (topic : w.Topic) (c : Client w) (r : Client w × Bool) : Prop where
  conn : r.1.conn = c.conn
  connected : r.1.connected = c.connected
  channels : r.1.channels = c.channels
  channelsByID : r.1.channelsByID = c.channelsByID
  counter : r.1.subIDCounter = c.subIDCounter
  pending : r.1.pendingTopics = c.pendingTopics
  others : ∀ t, t ≠ topic → r.1.listeners t = c.listeners t
  same : r.2 = false → (r.1.listeners topic = [] ↔ c.listeners topic = [])

theorem setCallback_eq_nil {id : w.ListenerId} {callback : w.Callback}
    {entries : List (SubscriberEntry w)} :
    setCallback id callback entries = [] ↔ entries = [] := by
  cases entries with
  | nil => exact Iff.rfl
  | cons e entries =>
    unfold setCallback
    split <;> exact ⟨nofun, nofun⟩

variable (c : Client w)

theorem listeners_insert (topic t : w.Topic) (entries : List (SubscriberEntry w)) :
    ({ c with subscribers := c.subscribers.insert topic entries } : Client w).listeners t =
      if t = topic then entries else c.listeners t := by
  unfold Client.listeners
  dsimp only
  split
  · rename_i heq
    rw [heq, AList.lookup_insert]
    rfl
  · rename_i hne
    rw [AList.lookup_insert_ne hne]

theorem subscribe_relists (topic : w.Topic) (id : w.ListenerId) (callback : w.Callback)
    (intervalMs : Int) : Relists topic c (c.subscribe topic id callback intervalMs) := by
  unfold Client.subscribe
  dsimp only
  generalize hcap : (if 0 < intervalMs then
    { c with decimators := c.decimators.insert topic ⟨intervalMs * 1000000, 0⟩ } else c) = c'
  have hc' : c'.conn = c.conn ∧ c'.connected = c.connected ∧ c'.channels = c.channels ∧
      c'.channelsByID = c.channelsByID ∧ c'.subIDCounter = c.subIDCounter ∧
      c'.pendingTopics = c.pendingTopics ∧ ∀ t, c'.listeners t = c.listeners t := by
    rw [← hcap]
    split <;> exact ⟨rfl, rfl, rfl, rfl, rfl, rfl, fun _ => rfl⟩
  obtain ⟨h1, h2, h3, h4, h5, h6, hlisteners⟩ := hc'
  split
  · refine ⟨h1, h2, h3, h4, h5, h6, ?_, ?_⟩
    · intro t hne
      rw [listeners_insert, if_neg hne, hlisteners]
    · intro _
      rw [listeners_insert, if_pos rfl, setCallback_eq_nil, hlisteners]
  · refine ⟨h1, h2, h3, h4, h5, h6, ?_, nofun⟩
    intro t hne
    rw [listeners_insert, if_neg hne, hlisteners]

theorem unsubscribe_relists (topic : w.Topic) (id : w.ListenerId) :
    Relists topic c (c.unsubscribe topic id) := by
  unfold Client.unsubscribe
  split
  · exact ⟨rfl, rfl, rfl, rfl, rfl, rfl, fun _ _ => rfl, fun _ => Iff.rfl⟩
  · dsimp only
    split
    · refine ⟨rfl, rfl, rfl, rfl, rfl, rfl, ?_, nofun⟩
      intro t hne
      unfold Client.listeners
      rw [AList.lookup_erase_ne hne]
    · refine ⟨rfl, rfl, rfl, rfl, rfl, rfl, ?_, nofun⟩
      intro t hne
      rw [listeners_insert, if_neg hne]

theorem Books.start (h : Books s) {topic : w.Topic} {r : Client w × Bool}
    (hr : Relists topic s.client r) : Books (s.start topic r) := by
  have halike : Alike s (s.start topic r) := by
    refine ⟨hr.conn, hr.connected, hr.channels, hr.channelsByID, hr.counter, rfl, rfl, rfl, rfl,
      rfl, ?_⟩
    intro t msg next
    unfold System.start
    cases r.2 with
    | true => simp
    | false => exact Iff.rfl
  have hmore : ∀ j, j ∈ s.running → j ∈ (s.start topic r).running := by
    intro j hj
    unfold System.start
    cases r.2 with
    | true => exact List.mem_cons_of_mem _ hj
    | false => exact hj
  have howed : ∀ t, s.Owed t → (s.start topic r).Owed t := by
    rintro t ⟨j, hj, hjt⟩
    refine ⟨j, hmore j hj, ?_⟩
    show j.owes r.1.pendingTopics t
    rw [hr.pending]
    exact hjt
  have hnew : r.2 = true → (s.start topic r).Reconciling topic := by
    intro htrue
    refine ⟨[], ?_⟩
    unfold System.start
    rw [htrue]
    exact List.mem_cons_self
  have hcases : ∀ t, (r.2 = true ∧ t = topic) ∨
      (r.1.listeners t = [] ↔ s.client.listeners t = []) := by
    intro t
    by_cases heq : t = topic
    · cases hflag : r.2 with
      | true => exact .inl ⟨rfl, heq⟩
      | false => exact .inr (heq ▸ hr.same hflag)
    · exact .inr (by rw [hr.others t heq])
  have hasked : r.2 = true → (s.start topic r).Owed topic := by
    intro htrue
    obtain ⟨next, hj⟩ := hnew htrue
    exact ⟨_, hj, .inl rfl⟩
  have hnone : ∀ t, (s.start topic r).client.listeners t = r.1.listeners t := fun _ => rfl
  refine ⟨halike.numbered h.numbered, halike.told h.told, halike.held h.held, ?_⟩
  refine ⟨?_, ?_, ?_⟩
  · intro hpump t ch hch hwant hzero
    rw [halike.pumping] at hpump
    rw [halike.channels] at hch
    rcases hcases t with ⟨htrue, rfl⟩ | hsame
    · exact hasked htrue
    · exact howed t (h.minded.subscribed hpump t ch hch (fun hn => hwant (hsame.mpr hn)) hzero)
  · intro hpump t ch hch hn hne
    rw [halike.pumping] at hpump
    rw [halike.channels] at hch
    rcases hcases t with ⟨htrue, rfl⟩ | hsame
    · exact hasked htrue
    · exact howed t (h.minded.unsubscribed hpump t ch hch (hsame.mp hn) hne)
  · intro hphase t hwant hlook
    rw [halike.channels] at hlook
    rcases hcases t with ⟨htrue, rfl⟩ | hsame
    · exact .inr (.inl (hnew htrue))
    · rcases h.minded.pending hphase t (fun hn => hwant (hsame.mpr hn)) hlook with hp | hrec | hf
      · exact .inl (hr.pending ▸ hp)
      · obtain ⟨next, hj⟩ := hrec
        exact .inr (.inl ⟨next, hmore _ hj⟩)
      · by_cases heq : r.2 = true ∧ t = topic
        · obtain ⟨htrue, rfl⟩ := heq
          exact .inr (.inl (hnew htrue))
        · refine .inr (.inr ?_)
          show t ∈ if r.2 then s.forgotten.filter (· ≠ topic) else s.forgotten
          split
          · rename_i htrue
            exact List.mem_filter.mpr ⟨hf, decide_eq_true fun ht => heq ⟨htrue, ht⟩⟩
          · exact hf

/-- A frame changes a rate cap at most. -/
theorem Books.messageData (h : Books s) (subID : Nat) (payload : w.Payload) (now_ : Int) :
    Books { s with client := (s.client.handleMessageData subID payload now_).1 } := by
  obtain ⟨decimators, hdec⟩ : ∃ decimators,
      (s.client.handleMessageData subID payload now_).1 = { s.client with decimators } := by
    unfold Client.handleMessageData
    split
    · exact ⟨s.client.decimators, rfl⟩
    · dsimp only
      split
      · split <;> exact ⟨s.client.decimators, rfl⟩
      · split
        · split
          · exact ⟨s.client.decimators, rfl⟩
          · split <;> exact ⟨_, rfl⟩
        · split <;> exact ⟨s.client.decimators, rfl⟩
  rw [hdec]
  exact ⟨⟨h.numbered.counter, h.numbered.table, h.numbered.sole, h.numbered.subscribing,
    h.numbered.unsubscribing⟩,
    ⟨h.told.byID, h.told.told, h.told.untold, h.told.undialed, h.told.cleared, h.told.conn,
      h.told.tableOf, h.told.connected, h.told.live, h.told.stored⟩,
    ⟨h.held.away, h.held.held, h.held.sound⟩,
    ⟨h.minded.subscribed, h.minded.unsubscribed, h.minded.pending⟩⟩

/-! ## Announcements -/

variable {α : Type} {t : w.Topic}

theorem lookup_insert_some {β : Type} [DecidableEq α] {m : AList fun _ : α => β} {k k' : α}
    {v x : β} (h : (m.insert k v).lookup k' = some x) :
    (k' = k ∧ x = v) ∨ (k' ≠ k ∧ m.lookup k' = some x) := by
  by_cases heq : k' = k
  · subst heq
    rw [AList.lookup_insert] at h
    exact .inl ⟨rfl, (Option.some.inj h).symm⟩
  · rw [AList.lookup_insert_ne heq] at h
    exact .inr ⟨heq, h⟩

theorem lookup_erase_some {β : Type} [DecidableEq α] {m : AList fun _ : α => β} {k k' : α} {x : β}
    (h : (m.erase k).lookup k' = some x) : k' ≠ k ∧ m.lookup k' = some x := by
  by_cases heq : k' = k
  · subst heq
    rw [AList.lookup_erase] at h
    cases h
  · rw [AList.lookup_erase_ne heq] at h
    exact ⟨heq, h⟩

/-- The state that `handleAdvertise` leaves for a channel. -/
def Client.announced (c : Client w) (ch : ChannelDef w) : ChannelState w :=
  { id := ch.id
    schema := (w.parseSchema ch.schema).getD w.emptySchema
    subscriptionID :=
      match c.channels.lookup ch.topic with
      | none => 0
      | some prev => prev.subscriptionID }

theorem announced_subscription (ch : ChannelDef w) :
    (c.channels.lookup ch.topic = none ∧ (c.announced ch).subscriptionID = 0) ∨
      ∃ prev, c.channels.lookup ch.topic = some prev ∧
        (c.announced ch).subscriptionID = prev.subscriptionID := by
  unfold Client.announced
  cases c.channels.lookup ch.topic with
  | none => exact .inl ⟨rfl, rfl⟩
  | some prev => exact .inr ⟨prev, rfl, rfl⟩

/-- A channel is taken in, with a goroutine that goes through the pending topics. -/
theorem Books.advertiseOne (h : Books s) {ch : ChannelDef w} (ha : Announceable s ch)
    (hpump : s.pumping = true) (hsnap : Job.snapshot ∈ s.running) :
    Books (s.advertiseOne ch) := by
  have hphase := (System.pumping_iff _).mp hpump
  have hlook {t : w.Topic} {x : ChannelState w}
      (hx : (s.advertiseOne ch).client.channels.lookup t = some x) :
      (t = ch.topic ∧ x = s.client.announced ch) ∨
        (t ≠ ch.topic ∧ s.client.channels.lookup t = some x) := lookup_insert_some hx
  -- A subscription was there before, under the same id.
  have hback {t : w.Topic} {x : ChannelState w}
      (hx : (s.advertiseOne ch).client.channels.lookup t = some x) (hne : x.subscriptionID ≠ 0) :
      ∃ x₀, s.client.channels.lookup t = some x₀ ∧ x₀.subscriptionID = x.subscriptionID ∧
        x₀.id = x.id := by
    rcases hlook hx with ⟨rfl, rfl⟩ | ⟨-, hx⟩
    · rcases announced_subscription s.client ch with ⟨-, hzero⟩ | ⟨prev, hprev, hsub⟩
      · exact absurd hzero hne
      · rw [hsub] at hne
        exact ⟨prev, hprev, hsub.symm, ha.kept prev hprev hne⟩
    · exact ⟨x, hx, rfl, rfl⟩
  refine ⟨⟨h.numbered.counter, ?_, ?_, ?_, ?_⟩, ⟨?_, ?_, fun hne => absurd hphase.1 hne, ?_, ?_,
    h.told.conn, h.told.tableOf, h.told.connected, h.told.live, h.told.stored⟩,
    ⟨h.held.away, ?_, ?_⟩, ⟨?_, ?_, ?_⟩⟩
  · intro t x hx
    by_cases hne : x.subscriptionID = 0
    · rw [hne]
      exact Nat.zero_le _
    · obtain ⟨x₀, hx₀, hsub, -⟩ := hback hx hne
      exact hsub ▸ h.numbered.table t x₀ hx₀
  · intro t t' x x' hx hx' heq hne
    obtain ⟨x₀, hx₀, hsub, -⟩ := hback hx hne
    obtain ⟨x₀', hx₀', hsub', -⟩ := hback hx' (heq ▸ hne)
    exact h.numbered.sole t t' x₀ x₀' hx₀ hx₀' (by rw [hsub, hsub', heq]) (by rw [hsub]; exact hne)
  · intro t id channel next hj
    obtain ⟨hne, hle, hsole, hsame⟩ := h.numbered.subscribing t id channel next hj
    refine ⟨hne, hle, ?_, ?_⟩
    · rintro t' x hx rfl
      obtain ⟨x₀, hx₀, hsub, -⟩ := hback hx hne
      exact hsole t' x₀ hx₀ hsub
    · intro x hx hxne
      obtain ⟨x₀, hx₀, hsub, hid⟩ := hback hx hxne
      rw [← hsub, ← hid]
      exact hsame x₀ hx₀ (by rw [hsub]; exact hxne)
  · intro t id next hj
    obtain ⟨hne, hle, hgone⟩ := h.numbered.unsubscribing t id next hj
    refine ⟨hne, hle, ?_⟩
    rintro t' x hx rfl
    obtain ⟨x₀, hx₀, hsub, -⟩ := hback hx hne
    exact hgone t' x₀ hx₀ hsub
  · intro t x hx
    show Function.update s.client.channelsByID ch.id (some ch.topic) x.id = some t
    rcases hlook hx with ⟨rfl, rfl⟩ | ⟨hne, hx⟩
    · exact Function.update_self ..
    · have hid : x.id ≠ ch.id := fun heq => hne (ha.sole t x hx heq)
      rw [Function.update_of_ne hid]
      exact h.told.byID t x hx
  · intro hlive t
    show Function.update s.server.channels ch.topic _ t = _
    by_cases heq : t = ch.topic
    · rw [heq, Function.update_self]
      show _ = Option.map _ ((s.client.channels.insert ch.topic (s.client.announced ch)).lookup
        ch.topic)
      rw [AList.lookup_insert]
      rfl
    · rw [Function.update_of_ne heq]
      show _ = Option.map _ ((s.client.channels.insert ch.topic (s.client.announced ch)).lookup t)
      rw [AList.lookup_insert_ne heq]
      exact h.told.told hlive t
  · intro hzero
    rw [(h.told.undialed hzero).2.1] at hphase
    cases hphase.2
  · intro hcleared
    rw [show s.phase = .cleared from hcleared] at hphase
    cases hphase.1
  · intro hlive hclean t x hx hne hno
    obtain ⟨x₀, hx₀, hsub, hid⟩ := hback hx hne
    rw [← hsub, ← hid]
    exact h.held.held hlive hclean t x₀ hx₀ (by rw [hsub]; exact hne) hno
  · intro hlive hclean sub channel hsub
    obtain ⟨hne, ⟨t, x, hx, hxsub, hxid⟩ | hunsub⟩ := h.held.sound hlive hclean sub channel hsub
    · refine ⟨hne, .inl ?_⟩
      by_cases heq : t = ch.topic
      · subst heq
        refine ⟨ch.topic, s.client.announced ch, AList.lookup_insert _, ?_, ?_⟩
        · rcases announced_subscription s.client ch with ⟨hnone, -⟩ | ⟨prev, hprev, hkept⟩
          · rw [hx] at hnone
            cases hnone
          · rw [hx] at hprev
            cases hprev
            exact hkept.trans hxsub
        · exact (ha.kept x hx (hxsub ▸ hne)).symm.trans hxid
      · exact ⟨t, x, (AList.lookup_insert_ne heq).trans hx, hxsub, hxid⟩
    · exact ⟨hne, .inr hunsub⟩
  · intro _ t x hx hwant hzero
    rcases hlook hx with ⟨rfl, rfl⟩ | ⟨-, hx⟩
    · rcases announced_subscription s.client ch with ⟨hnone, -⟩ | ⟨prev, hprev, hsub⟩
      · have hnot : s.phase ≠ .cleared := by rw [hphase.1]; exact nofun
        rcases h.minded.pending hnot ch.topic hwant hnone with hp | ⟨next, hj⟩ | hf
        · exact ⟨_, hsnap, hp⟩
        · exact ⟨_, hj, .inl rfl⟩
        · exact absurd hf ha.remembered
      · exact h.minded.subscribed hpump ch.topic prev hprev hwant (hsub.symm.trans hzero)
    · exact h.minded.subscribed hpump t x hx hwant hzero
  · intro _ t x hx hn hne
    obtain ⟨x₀, hx₀, hsub, -⟩ := hback hx hne
    exact h.minded.unsubscribed hpump t x₀ hx₀ hn (by rw [hsub]; exact hne)
  · intro hcl t hwant hnone
    have hne : t ≠ ch.topic := by
      rintro rfl
      have hsome : (s.advertiseOne ch).client.channels.lookup ch.topic = _ :=
        AList.lookup_insert (s.client.channels)
      rw [hsome] at hnone
      cases hnone
    exact h.minded.pending hcl t hwant ((AList.lookup_insert_ne hne).symm.trans hnone)

variable {id : Nat × Bool}

/-- What is left of the table are the channels with another id. -/
theorem unadvertise_lookup (h : Told s) (hr : Removable s id) (t : w.Topic) (x : ChannelState w) :
    (s.client.unadvertise id.1).channels.lookup t = some x ↔
      s.client.channels.lookup t = some x ∧ x.id ≠ id.1 := by
  unfold Client.unadvertise
  cases hby : s.client.channelsByID id.1 with
  | none =>
    refine ⟨fun hx => ⟨hx, fun hid => ?_⟩, fun hx => hx.1⟩
    rw [← hid, h.byID t x hx] at hby
    cases hby
  | some topic =>
    obtain ⟨state, hstate, hid, -⟩ := hr topic hby
    constructor
    · intro hx
      obtain ⟨hne, hx⟩ := lookup_erase_some hx
      refine ⟨hx, fun heq => hne ?_⟩
      rw [← heq, h.byID t x hx] at hby
      exact Option.some.inj hby
    · rintro ⟨hx, hne⟩
      have htopic : t ≠ topic := by
        rintro rfl
        rw [hstate] at hx
        cases hx
        exact hne hid
      exact (AList.lookup_erase_ne htopic).trans hx

theorem unadvertise_byID (h : Told s) {x : ChannelState w}
    (hx : s.client.channels.lookup t = some x) (hne : x.id ≠ id.1) :
    (s.client.unadvertise id.1).channelsByID x.id = some t := by
  unfold Client.unadvertise
  cases s.client.channelsByID id.1 with
  | none => exact h.byID t x hx
  | some topic => exact (Function.update_of_ne hne ..).trans (h.byID t x hx)

/-- The rest of the client. -/
theorem unadvertise_keeps (id : Nat) :
    (c.unadvertise id).conn = c.conn ∧ (c.unadvertise id).connected = c.connected ∧
      (c.unadvertise id).subIDCounter = c.subIDCounter ∧
      (c.unadvertise id).pendingTopics = c.pendingTopics ∧
      ∀ t, (c.unadvertise id).listeners t = c.listeners t := by
  unfold Client.unadvertise
  split <;> exact ⟨rfl, rfl, rfl, rfl, fun _ => rfl⟩

theorem unadvertise_forgotten (hgone : s.client.channelsByID id.1 = some t)
    (hwant : s.client.listeners t ≠ []) :
    t ∈ s.client.pendingTopics ∨ s.Reconciling t ∨ t ∈ (s.unadvertiseOne id).forgotten := by
  unfold System.unadvertiseOne
  dsimp only
  rw [hgone]
  dsimp only
  split
  · rename_i hminded
    rw [Bool.or_eq_true, Bool.or_eq_true, decide_eq_true_eq, List.isEmpty_iff] at hminded
    rcases hminded with (hnone | hp) | hany
    · exact absurd hnone hwant
    · exact .inl hp
    · obtain ⟨j, hj, hjt⟩ := List.any_eq_true.mp hany
      cases j with
      | reconcile topic next =>
        have heq : topic = t := of_decide_eq_true hjt
        subst heq
        exact .inr (.inl ⟨next, hj⟩)
      | write topic msg next => cases hjt
      | snapshot => cases hjt
      | scan topics => cases hjt
  · exact .inr (.inr List.mem_cons_self)

theorem unadvertise_forgotten_mono (ht : t ∈ s.forgotten) :
    t ∈ (s.unadvertiseOne id).forgotten := by
  unfold System.unadvertiseOne
  dsimp only
  split
  · exact ht
  · split
    · exact ht
    · exact List.mem_cons_of_mem _ ht

/-- A channel is let go. -/
theorem Books.unadvertiseOne (h : Books s) (hr : Removable s id) (hpump : s.pumping = true) :
    Books (s.unadvertiseOne id) := by
  obtain ⟨hphase, hconn⟩ := (System.pumping_iff _).mp hpump
  obtain ⟨hc1, hc2, hc3, hc4, hlisteners⟩ := unadvertise_keeps s.client id.1
  have hlook := unadvertise_lookup h.told hr
  have hlive : (s.unadvertiseOne id).Live ↔ s.Live := by
    unfold System.Live
    show (∃ k, (s.client.unadvertise id.1).conn = some k ∧ s.tableOf = some k) ↔ _
    rw [hc1]
  have howed : ∀ t, s.Owed t → (s.unadvertiseOne id).Owed t := by
    rintro t ⟨j, hj, hjt⟩
    refine ⟨j, hj, ?_⟩
    show j.owes (s.client.unadvertise id.1).pendingTopics t
    rw [hc4]
    exact hjt
  refine ⟨⟨?_, ?_, ?_, ?_, ?_⟩, ⟨?_, ?_, fun hne => absurd hphase hne, ?_, ?_, ?_, h.told.tableOf,
    ?_, ?_, fun hne => absurd hphase hne⟩, ⟨?_, ?_, ?_⟩, ⟨?_, ?_, ?_⟩⟩
  · exact hc3 ▸ h.numbered.counter
  · intro t x hx
    exact hc3 ▸ h.numbered.table t x ((hlook t x).mp hx).1
  · intro t t' x x' hx hx'
    exact h.numbered.sole t t' x x' ((hlook t x).mp hx).1 ((hlook t' x').mp hx').1
  · intro t sub channel next hj
    obtain ⟨hne, hle, hsole, hsame⟩ := h.numbered.subscribing t sub channel next hj
    exact ⟨hne, hc3 ▸ hle, fun t' x hx => hsole t' x ((hlook t' x).mp hx).1,
      fun x hx => hsame x ((hlook t x).mp hx).1⟩
  · intro t sub next hj
    obtain ⟨hne, hle, hgone⟩ := h.numbered.unsubscribing t sub next hj
    exact ⟨hne, hc3 ▸ hle, fun t' x hx => hgone t' x ((hlook t' x).mp hx).1⟩
  · intro t x hx
    obtain ⟨hx, hne⟩ := (hlook t x).mp hx
    exact unadvertise_byID h.told hx hne
  · intro hl t
    show (s.server.channels t).filter (fun ch => ch.1 ≠ id.1) =
      ((s.client.unadvertise id.1).channels.lookup t).map _
    rw [h.told.told (hlive.mp hl) t]
    cases hx : s.client.channels.lookup t with
    | none =>
      cases hx' : (s.client.unadvertise id.1).channels.lookup t with
      | none => rfl
      | some x =>
        rw [((hlook t x).mp hx').1] at hx
        cases hx
    | some x =>
      by_cases hid : x.id = id.1
      · cases hx' : (s.client.unadvertise id.1).channels.lookup t with
        | none => simp [Option.filter, hid]
        | some x' =>
          obtain ⟨hx₀, hne⟩ := (hlook t x').mp hx'
          rw [hx] at hx₀
          cases hx₀
          exact absurd hid hne
      · rw [(hlook t x).mpr ⟨hx, hid⟩]
        simp [Option.filter, hid]
  · intro hzero
    rw [(h.told.undialed hzero).2.1] at hconn
    cases hconn
  · intro hcleared
    rw [show s.phase = .cleared from hcleared] at hphase
    cases hphase
  · exact fun k hk => h.told.conn k (hc1 ▸ hk)
  · exact fun hl => hc2.trans (h.told.connected (hlive.mp hl))
  · exact fun hcon hph => hlive.mpr (h.told.live (hc2 ▸ hcon) hph)
  · intro hne haway sub
    show (s.server.subscriptions sub).filter _ = none
    rw [h.held.away (hc1 ▸ hne) (hc1 ▸ haway) sub]
    rfl
  · intro hl hclean t x hx hne hno
    obtain ⟨hx, hid⟩ := (hlook t x).mp hx
    show (s.server.subscriptions x.subscriptionID).filter _ = some x.id
    rw [h.held.held (hlive.mp hl) hclean t x hx hne hno]
    simp [Option.filter, hid]
  · intro hl hclean sub channel hsub
    obtain ⟨hsub, hkept⟩ := Option.filter_eq_some_iff.mp hsub
    obtain ⟨hne, ⟨t, x, hx, hxsub, hxid⟩ | hunsub⟩ :=
      h.held.sound (hlive.mp hl) hclean sub channel hsub
    · refine ⟨hne, .inl ⟨t, x, (hlook t x).mpr ⟨hx, ?_⟩, hxsub, hxid⟩⟩
      -- Of the channel itself the server has dropped the subscription.
      intro hid
      have hby := h.told.byID t x hx
      rw [hid] at hby
      obtain ⟨state, hstate, -, hzero | hdrops⟩ := hr t hby
      · rw [hx] at hstate
        cases hstate
        exact hne (hxsub ▸ hzero)
      · rw [hdrops, ← hxid, hid] at hkept
        simp at hkept
    · exact ⟨hne, .inr hunsub⟩
  · intro _ t x hx hwant hzero
    exact howed t (h.minded.subscribed hpump t x ((hlook t x).mp hx).1 (hlisteners t ▸ hwant) hzero)
  · intro _ t x hx hn hne
    exact howed t (h.minded.unsubscribed hpump t x ((hlook t x).mp hx).1
      ((hlisteners t).symm.trans hn) hne)
  · intro hcl t hwant hnone
    have hwant' : s.client.listeners t ≠ [] := hlisteners t ▸ hwant
    show t ∈ (s.client.unadvertise id.1).pendingTopics ∨ _
    rw [hc4]
    cases hx : s.client.channels.lookup t with
    | none =>
      rcases h.minded.pending hcl t hwant' hx with hp | hrec | hf
      · exact .inl hp
      · exact .inr (.inl hrec)
      · exact .inr (.inr (unadvertise_forgotten_mono hf))
    | some x =>
      have hid : x.id = id.1 := by
        by_contra hne
        have hsome : (s.unadvertiseOne id).client.channels.lookup t = some x :=
          (hlook t x).mpr ⟨hx, hne⟩
        rw [hsome] at hnone
        cases hnone
      exact unadvertise_forgotten (hid ▸ h.told.byID t x hx) hwant'

/-- What one keeps, each of a message keep. -/
theorem Each.foldl {ok : System w → α → Prop} {next : System w → α → System w} {P : System w → Prop}
    (hnext : ∀ s a, P s → ok s a → P (next s a)) {as : List α} (h : P s) (heach : Each ok next s as)
    : P (as.foldl next s) := by
  induction as generalizing s with
  | nil => exact h
  | cons a as ih => exact ih (hnext s a h heach.1) heach.2

/-- Other goroutines, which write the same and owe no less. -/
theorem Books.rerun (h : Books s) {running : List (Job w)}
    (hwrites : ∀ topic msg next, Job.write topic msg next ∈ running ↔
      Job.write topic msg next ∈ s.running)
    (howed : ∀ topic, (s.client.channels.lookup topic).isSome = true → s.Owed topic →
      ({ s with running } : System w).Owed topic)
    (hreconciling : ∀ topic, s.Reconciling topic →
      ({ s with running } : System w).Reconciling topic) :
    Books { s with running } := by
  have halike : Alike s { s with running } :=
    ⟨rfl, rfl, rfl, rfl, rfl, rfl, rfl, rfl, rfl, rfl, hwrites⟩
  refine ⟨halike.numbered h.numbered, halike.told h.told, halike.held h.held,
    halike.minded h.minded (fun _ => rfl) howed ?_⟩
  rintro topic - (hp | hj | hf)
  · exact .inl hp
  · exact .inr (.inl (hreconciling topic hj))
  · exact .inr (.inr hf)

/-- The same goroutines and one more, which writes nothing. -/
theorem Books.spawn (h : Books s) {job : Job w}
    (hjob : ∀ topic msg next, job ≠ .write topic msg next) :
    Books { s with running := job :: s.running } := by
  refine h.rerun (fun topic msg next => ⟨fun hj => ?_, List.mem_cons_of_mem _⟩) ?_ ?_
  · exact (List.mem_cons.mp hj).resolve_left fun heq => hjob topic msg next heq.symm
  · rintro topic - ⟨j, hj, howes⟩
    exact ⟨j, List.mem_cons_of_mem _ hj, howes⟩
  · rintro topic ⟨next, hj⟩
    exact ⟨next, List.mem_cons_of_mem _ hj⟩

theorem Books.advertise (h : Books s) (hpump : s.pumping = true) {channels : List (ChannelDef w)}
    (ha : Each Announceable System.advertiseOne s channels) :
    Books { channels.foldl System.advertiseOne s with
      running := .snapshot :: (channels.foldl System.advertiseOne s).running } := by
  -- The goroutine may as well be there from the start.
  have hcommute : ∀ (s : System w) (running : List (Job w)),
      channels.foldl System.advertiseOne { s with running } =
        { channels.foldl System.advertiseOne s with running } := by
    clear ha
    induction channels with
    | nil => exact fun _ _ => rfl
    | cons ch channels ih => exact fun s running => ih (s.advertiseOne ch) running
  have heach : ∀ (s : System w) (running : List (Job w)),
      Each Announceable System.advertiseOne s channels →
        Each Announceable System.advertiseOne { s with running } channels := by
    clear ha hcommute
    induction channels with
    | nil => exact fun _ _ _ => trivial
    | cons ch channels ih =>
      intro s running hall
      exact ⟨⟨hall.1.sole, hall.1.kept, hall.1.remembered⟩, ih (s.advertiseOne ch) running hall.2⟩
  have hrunning : (channels.foldl System.advertiseOne s).running = s.running := by
    clear ha hcommute heach h hpump
    induction channels generalizing s with
    | nil => rfl
    | cons ch channels ih => exact ih
  have hkept : Books ({ s with running := .snapshot :: s.running } : System w) :=
    h.spawn nofun
  have hall := Each.foldl
    (P := fun s : System w => Books s ∧ s.pumping = true ∧ Job.snapshot ∈ s.running)
    (fun s ch hs ha => ⟨hs.1.advertiseOne ha hs.2.1 hs.2.2, hs.2.1, hs.2.2⟩)
    ⟨hkept, hpump, List.mem_cons_self⟩ (heach s _ ha)
  rw [hcommute] at hall
  rw [hrunning]
  exact hall.1

theorem Books.unadvertise (h : Books s) (hpump : s.pumping = true) {ids : List (Nat × Bool)}
    (hr : Each Removable System.unadvertiseOne s ids) :
    Books (ids.foldl System.unadvertiseOne s) := by
  have hall := Each.foldl (P := fun s : System w => Books s ∧ s.pumping = true)
    (fun s id hs hr => ⟨hs.1.unadvertiseOne hr hs.2, ?_⟩) ⟨h, hpump⟩ hr
  · exact hall.1
  · obtain ⟨hphase, hconn⟩ := (System.pumping_iff _).mp hs.2
    exact (System.pumping_iff _).mpr ⟨hphase, (unadvertise_keeps s.client id.1).2.1.trans hconn⟩

end Foxglove
end Mowgli
