import Mowgli.Foxglove.Steps

/-!
# Goroutines — what the steps of reconciles and writes keep
-/

namespace Mowgli
namespace Foxglove

variable {w : Wire} {s : System w} {written : Bool}

/-- The goroutines in another order. -/
theorem Books.reorder (h : Books s) {running : List (Job w)}
    (hsame : ∀ j, j ∈ running ↔ j ∈ s.running) : Books { s with running } := by
  refine h.rerun (fun _ _ _ => hsame _) ?_ ?_
  · rintro topic - ⟨j, hj, howes⟩
    exact ⟨j, (hsame j).mpr hj, howes⟩
  · rintro topic ⟨next, hj⟩
    exact ⟨next, (hsame _).mpr hj⟩

theorem mem_eraseIdx {α : Type} {l : List α} {i : Nat} {a : α} (h : l[i]? = some a) (b : α) :
    b ∈ a :: l.eraseIdx i ↔ b ∈ l := by
  induction l generalizing i with
  | nil => cases h
  | cons c l ih =>
    cases i with
    | zero =>
      cases h
      exact Iff.rfl
    | succ i =>
      rw [List.eraseIdx_cons_succ]
      have hrest := ih (i := i) h
      simp only [List.mem_cons] at hrest ⊢
      rw [or_left_comm, hrest]

/-- One goroutine goes on as others, and none of them writes. -/
theorem Books.become {job : Job w} (h : Books { s with running := job :: s.running })
    (jobs : List (Job w)) (hjob : ∀ topic msg next, job ≠ .write topic msg next)
    (hjobs : ∀ topic msg next, Job.write topic msg next ∉ jobs)
    (hidle : ∀ topic next, job ≠ .reconcile topic next)
    (howes : ∀ topic, (s.client.channels.lookup topic).isSome = true →
      job.owes s.client.pendingTopics topic → ∃ j ∈ jobs, j.owes s.client.pendingTopics topic) :
    Books { s with running := jobs ++ s.running } := by
  refine h.rerun (fun topic msg next => ⟨fun hj => ?_, fun hj => ?_⟩) ?_ ?_
  · exact List.mem_cons_of_mem _ ((List.mem_append.mp hj).resolve_left (hjobs _ _ _))
  · exact List.mem_append_right _
      ((List.mem_cons.mp hj).resolve_left fun heq => hjob _ _ _ heq.symm)
  · rintro topic hsome ⟨j, hj, hjt⟩
    rcases List.mem_cons.mp hj with rfl | hj
    · obtain ⟨j', hj', howes'⟩ := howes topic hsome hjt
      exact ⟨j', List.mem_append_left _ hj', howes'⟩
    · exact ⟨j, List.mem_append_right _ hj, hjt⟩
  · rintro topic ⟨next, hj⟩
    exact ⟨next, List.mem_append_right _
      ((List.mem_cons.mp hj).resolve_left fun heq => hidle _ _ heq.symm)⟩

theorem Books.snapshot (h : Books { s with running := .snapshot :: s.running }) :
    Books (s.advance written .snapshot) := by
  refine h.become [.scan s.client.pendingTopics] nofun ?_ nofun ?_
  · intro topic msg next hj
    cases List.mem_singleton.mp hj
  · exact fun topic _ hp => ⟨_, List.mem_singleton.mpr rfl, hp⟩

theorem advance_scan (s : System w) (topic : w.Topic) (next : List w.Topic) :
    s.advance written (.scan (topic :: next)) =
      { s with running :=
          (if (s.client.channels.lookup topic).isSome then Job.reconcile topic next
            else Job.scan next) :: s.running } := rfl

theorem Books.scan {topics : List w.Topic}
    (h : Books { s with running := .scan topics :: s.running }) :
    Books (s.advance written (.scan topics)) := by
  cases topics with
  | nil => exact h.become [] nofun nofun nofun fun topic _ hp => nomatch hp
  | cons topic next =>
    cases hch : s.client.channels.lookup topic with
    | none =>
      have hstep : s.advance written (.scan (topic :: next)) =
          { s with running := .scan next :: s.running } := by
        rw [advance_scan, hch]
        rfl
      rw [hstep]
      refine h.become [.scan next] nofun ?_ nofun ?_
      · intro topic msg next hj
        cases List.mem_singleton.mp hj
      · intro t hsome hp
        rcases List.mem_cons.mp hp with rfl | hp
        · rw [hch] at hsome
          cases hsome
        · exact ⟨_, List.mem_singleton.mpr rfl, hp⟩
    | some ch =>
      have hstep : s.advance written (.scan (topic :: next)) =
          { s with running := .reconcile topic next :: s.running } := by
        rw [advance_scan, hch]
        rfl
      rw [hstep]
      refine h.become [.reconcile topic next] nofun ?_ nofun ?_
      · intro topic msg next hj
        cases List.mem_singleton.mp hj
      · intro t _ hp
        refine ⟨_, List.mem_singleton.mpr rfl, ?_⟩
        rcases List.mem_cons.mp hp with rfl | hp
        · exact .inl rfl
        · exact .inr hp

section Write

variable {topic : w.Topic} {msg : Message} {next : List w.Topic}

/-- After a write the rest is as it was, but for what the server holds. -/
theorem Books.wrote (h : Books { s with running := .write topic msg next :: s.running })
    {server : Server w} {clean : Bool} (hchannels : server.channels = s.server.channels)
    (hundialed : s.dials = 0 → server = s.server)
    (hheld : Held { s with server, clean, running := .scan next :: s.running }) :
    Books { s with server, clean, running := .scan next :: s.running } := by
  have hwrite : ∀ t m n, Job.write t m n ∈ Job.scan next :: s.running →
      Job.write t m n ∈ Job.write topic msg next :: s.running := by
    intro t m n hj
    rcases List.mem_cons.mp hj with heq | hj
    · cases heq
    · exact List.mem_cons_of_mem _ hj
  have howed : ∀ t, ({ s with running := .write topic msg next :: s.running } : System w).Owed t →
      ({ s with server, clean, running := .scan next :: s.running } : System w).Owed t := by
    rintro t ⟨j, hj, hjt⟩
    rcases List.mem_cons.mp hj with rfl | hj
    · exact ⟨_, List.mem_cons_self, hjt⟩
    · exact ⟨j, List.mem_cons_of_mem _ hj, hjt⟩
  refine ⟨⟨h.numbered.counter, h.numbered.table, h.numbered.sole,
    fun t id channel n hj => h.numbered.subscribing t id channel n (hwrite t _ n hj),
    fun t id n hj => h.numbered.unsubscribing t id n (hwrite t _ n hj)⟩,
    ⟨h.told.byID, ?_, ?_, ?_, h.told.cleared, h.told.conn, h.told.tableOf, h.told.connected,
      h.told.live, h.told.stored⟩, hheld, ⟨?_, ?_, ?_⟩⟩
  · intro hlive t
    show server.channels t = _
    rw [hchannels]
    exact h.told.told hlive t
  · intro hphase t
    show server.channels t = none
    rw [hchannels]
    exact h.told.untold hphase t
  · intro hzero
    have hund := h.told.undialed hzero
    rw [hundialed hzero]
    exact hund
  · exact fun hpump t ch hch hwant hz => howed t (h.minded.subscribed hpump t ch hch hwant hz)
  · exact fun hpump t ch hch hn hne => howed t (h.minded.unsubscribed hpump t ch hch hn hne)
  · intro hphase t hwant hnone
    rcases h.minded.pending hphase t hwant hnone with hp | ⟨n, hj⟩ | hf
    · exact .inl hp
    · rcases List.mem_cons.mp hj with heq | hj
      · cases heq
      · exact .inr (.inl ⟨n, List.mem_cons_of_mem _ hj⟩)
    · exact .inr (.inr hf)

theorem Held.subscribe {id channel : Nat}
    (h : Books { s with running := .write topic (.subscribe id channel) next :: s.running })
    (hstands : Stands s topic id channel) :
    Held { s with
      server := s.server.receive (.subscribe id channel)
      running := .scan next :: s.running } := by
  obtain ⟨hconn, state, hstate, rfl, rfl⟩ := hstands
  obtain ⟨hne, -, hsole, -⟩ := h.numbered.subscribing topic _ _ next List.mem_cons_self
  refine ⟨fun _ haway => absurd hconn.symm haway, ?_, ?_⟩
  · intro hlive hclean t ch hch hne hno
    show Function.update s.server.subscriptions state.subscriptionID (some state.id)
      ch.subscriptionID = some ch.id
    by_cases hsub : ch.subscriptionID = state.subscriptionID
    · have ht := hsole t ch hch hsub
      subst ht
      have hstate' : s.client.channels.lookup t = some ch := hch
      rw [hstate] at hstate'
      cases hstate'
      exact Function.update_self ..
    · rw [Function.update_of_ne hsub]
      refine h.held.held hlive hclean t ch hch hne ?_
      intro id channel n hj
      rcases List.mem_cons.mp hj with heq | hj
      · cases heq
        have hstate' : s.client.channels.lookup topic = some ch := hch
        rw [hstate] at hstate'
        cases hstate'
        exact hsub rfl
      · exact hno id channel n (List.mem_cons_of_mem _ hj)
  · intro hlive hclean sub channel hsub
    by_cases heq : sub = state.subscriptionID
    · subst heq
      refine ⟨hne, .inl ⟨topic, state, hstate, rfl, ?_⟩⟩
      have hupdate : Function.update s.server.subscriptions state.subscriptionID (some state.id)
        state.subscriptionID = some channel := hsub
      rw [Function.update_self] at hupdate
      exact Option.some.inj hupdate
    · have hold : s.server.subscriptions sub = some channel :=
        (Function.update_of_ne heq ..).symm.trans hsub
      obtain ⟨hne, hfound | ⟨t, n, hj⟩⟩ := h.held.sound hlive hclean sub channel hold
      · exact ⟨hne, .inl hfound⟩
      · rcases List.mem_cons.mp hj with heq | hj
        · cases heq
        · exact ⟨hne, .inr ⟨t, n, List.mem_cons_of_mem _ hj⟩⟩

theorem Held.unsubscribe {id : Nat}
    (h : Books { s with running := .write topic (.unsubscribe id) next :: s.running }) :
    Held { s with
      server := s.server.receive (.unsubscribe id)
      running := .scan next :: s.running } := by
  obtain ⟨-, -, hgone⟩ := h.numbered.unsubscribing topic id next List.mem_cons_self
  refine ⟨?_, ?_, ?_⟩
  · intro hne haway sub
    show Function.update s.server.subscriptions id none sub = none
    by_cases heq : sub = id
    · rw [heq, Function.update_self]
    · rw [Function.update_of_ne heq]
      exact h.held.away hne haway sub
  · intro hlive hclean t ch hch hne hno
    show Function.update s.server.subscriptions id none ch.subscriptionID = some ch.id
    rw [Function.update_of_ne (hgone t ch hch)]
    refine h.held.held hlive hclean t ch hch hne ?_
    intro id channel n hj
    rcases List.mem_cons.mp hj with heq | hj
    · cases heq
    · exact hno id channel n (List.mem_cons_of_mem _ hj)
  · intro hlive hclean sub channel hsub
    by_cases heq : sub = id
    · subst heq
      have hupdate : Function.update s.server.subscriptions sub none sub = some channel := hsub
      rw [Function.update_self] at hupdate
      cases hupdate
    · have hold : s.server.subscriptions sub = some channel :=
        (Function.update_of_ne heq ..).symm.trans hsub
      obtain ⟨hne, hfound | ⟨t, n, hj⟩⟩ := h.held.sound hlive hclean sub channel hold
      · exact ⟨hne, .inl hfound⟩
      · rcases List.mem_cons.mp hj with hjob | hj
        · cases hjob
          exact absurd rfl heq
        · exact ⟨hne, .inr ⟨t, n, List.mem_cons_of_mem _ hj⟩⟩

/-- A write, and what stands if it subscribes. -/
theorem Books.write (h : Books { s with running := .write topic msg next :: s.running })
    (hstands : ∀ id channel, msg = .subscribe id channel → s.client.conn ≠ none →
      written = true → Stands s topic id channel) :
    Books (s.advance written (.write topic msg next)) := by
  show Books { s.write msg written with running := .scan next :: (s.write msg written).running }
  unfold System.write
  cases hconn : s.client.conn with
  | none =>
    refine h.wrote rfl (fun _ => rfl) ⟨?_, ?_, ?_⟩
    · exact fun hne => absurd hconn hne
    · rintro ⟨k, hk, -⟩
      rw [show s.client.conn = some k from hk] at hconn
      cases hconn
    · rintro ⟨k, hk, -⟩
      rw [show s.client.conn = some k from hk] at hconn
      cases hconn
  | some k =>
    have hsome : s.client.conn ≠ none := by
      rw [hconn]
      exact nofun
    have hdialed : s.dials = 0 → False := fun hzero => hsome (h.told.undialed hzero).1
    dsimp only
    split
    · rename_i hwritten
      cases msg with
      | subscribe id channel =>
        exact h.wrote rfl (fun hzero => (hdialed hzero).elim)
          (Held.subscribe h (hstands id channel rfl hsome hwritten))
      | unsubscribe id =>
        exact h.wrote rfl (fun hzero => (hdialed hzero).elim) (Held.unsubscribe h)
    · exact h.wrote rfl (fun hzero => (hdialed hzero).elim)
        ⟨fun hne haway => h.held.away hne haway, fun _ => nofun, fun _ => nofun⟩

end Write

/-! ## Reconciling -/

section Reconcile

variable {topic : w.Topic} {next : List w.Topic} {r : Client w × Option Message}

/-- The subscription of a channel becomes another. -/
structure Changes (c : Client w) (topic : w.Topic) (r : Client w × Option Message)
    (ch : ChannelState w) (id : Nat) : Prop where
  found : c.channels.lookup topic = some ch
  now_ : r.1.channels.lookup topic = some { ch with subscriptionID := id }
  others : ∀ t, t ≠ topic → r.1.channels.lookup t = c.channels.lookup t

/-- All that the section of `reconcileSubscription` can do. -/
inductive Reconciled (c : Client w) (topic : w.Topic) (r : Client w × Option Message) : Prop
  | kept (channels : r.1.channels = c.channels) (counter : r.1.subIDCounter = c.subIDCounter)
      (silent : r.2 = none)
      (settled : c.connected = true → ∀ ch, c.channels.lookup topic = some ch →
        (ch.subscriptionID = 0 ↔ c.listeners topic = []))
  | dropped (ch : ChannelState w) (changes : Changes c topic r ch 0)
      (subscribed : ch.subscriptionID ≠ 0) (unwanted : c.listeners topic = [])
      (counter : r.1.subIDCounter = c.subIDCounter)
      (sent : r.2 = if c.connected then some (.unsubscribe ch.subscriptionID) else none)
  | taken (ch : ChannelState w) (id : Nat) (changes : Changes c topic r ch id)
      (unsubscribed : ch.subscriptionID = 0) (wanted : c.listeners topic ≠ [])
      (fresh : id = (c.subIDCounter + 1) % 4294967296) (counter : r.1.subIDCounter = id)
      (sent : r.2 = some (.subscribe id ch.id))

/-- What it leaves alone, and that a wanted topic without a channel is pending. -/
structure Spares (c : Client w) (topic : w.Topic) (r : Client w × Option Message) : Prop where
  conn : r.1.conn = c.conn
  connected : r.1.connected = c.connected
  channelsByID : r.1.channelsByID = c.channelsByID
  listeners : ∀ t, r.1.listeners t = c.listeners t
  pending : ∀ t, t ≠ topic → (t ∈ r.1.pendingTopics ↔ t ∈ c.pendingTopics)
  waits : c.listeners topic ≠ [] → c.channels.lookup topic = none → topic ∈ r.1.pendingTopics

variable {ch : ChannelState w} {t : w.Topic}

theorem changes_setSubscription (c c' : Client w) (id : Nat) (hc' : c'.channels = c.channels)
    (hch : c.channels.lookup topic = some ch) (msg : Option Message) :
    Changes c topic (c'.setSubscription topic ch id, msg) ch id := by
  refine ⟨hch, AList.lookup_insert _, fun t hne => ?_⟩
  rw [← hc']
  exact AList.lookup_insert_ne hne

variable (c : Client w)

theorem mem_unpend (hne : t ≠ topic) :
    t ∈ (c.unpend topic).pendingTopics ↔ t ∈ c.pendingTopics := by
  show t ∈ c.pendingTopics.filter (fun t => t ≠ topic) ↔ _
  rw [List.mem_filter, decide_eq_true_eq, and_iff_left hne]

theorem mem_pend (hne : t ≠ topic) : t ∈ (c.pend topic).pendingTopics ↔ t ∈ c.pendingTopics := by
  show t ∈ topic :: c.pendingTopics ↔ _
  rw [List.mem_cons, or_iff_right hne]

theorem reconcileSubscription_spares (topic : w.Topic) :
    Spares c topic (c.reconcileSubscription topic) := by
  have hunpend {r : Client w × Option Message} (hconn : r.1.conn = c.conn)
      (hconnected : r.1.connected = c.connected) (hbyID : r.1.channelsByID = c.channelsByID)
      (hsubs : r.1.subscribers = c.subscribers)
      (hpending : r.1.pendingTopics = (c.unpend topic).pendingTopics)
      (hno : c.listeners topic = [] ∨ c.channels.lookup topic ≠ none) : Spares c topic r := by
    refine ⟨hconn, hconnected, hbyID, ?_, ?_, ?_⟩
    · intro t
      unfold Client.listeners
      rw [hsubs]
    · intro t hne
      rw [hpending]
      exact mem_unpend c hne
    · intro hwant hnone
      exact (hno.elim hwant fun hsome => hsome hnone).elim
  have hpend : Spares c topic (c.pend topic, none) :=
    ⟨rfl, rfl, rfl, fun _ => rfl, fun _ hne => mem_pend c hne, fun _ _ => List.mem_cons_self⟩
  unfold Client.reconcileSubscription
  split
  · rename_i hnone
    have hnone := List.isEmpty_iff.mp hnone
    dsimp only
    split
    · exact hunpend rfl rfl rfl rfl rfl (.inl hnone)
    · split
      · exact hunpend rfl rfl rfl rfl rfl (.inl hnone)
      · exact hunpend rfl rfl rfl rfl rfl (.inl hnone)
  · split
    · exact hpend
    · rename_i ch hch
      have hsome : c.channels.lookup topic ≠ none := by
        rw [hch]
        exact nofun
      split
      · dsimp only
        split
        · exact hunpend rfl rfl rfl rfl rfl (.inr hsome)
        · exact hunpend rfl rfl rfl rfl rfl (.inr hsome)
      · exact hpend

theorem reconcileSubscription_reconciled (topic : w.Topic) :
    Reconciled c topic (c.reconcileSubscription topic) := by
  unfold Client.reconcileSubscription
  split
  · rename_i hnone
    have hnone := List.isEmpty_iff.mp hnone
    dsimp only
    split
    · rename_i hch
      refine .kept rfl rfl rfl fun _ ch hch' => ?_
      rw [show c.channels.lookup topic = none from hch] at hch'
      cases hch'
    · rename_i ch hch
      split
      · rename_i hzero
        refine .kept rfl rfl rfl fun _ ch' hch' => ?_
        rw [show c.channels.lookup topic = some ch from hch] at hch'
        cases hch'
        exact iff_of_true hzero hnone
      · rename_i hne
        exact .dropped ch (changes_setSubscription c _ 0 (by rfl) hch _) hne hnone rfl rfl
  · rename_i hwant
    have hwant : c.listeners topic ≠ [] := fun hnone => hwant (List.isEmpty_iff.mpr hnone)
    split
    · rename_i hch
      refine .kept rfl rfl rfl fun _ ch hch' => ?_
      rw [hch] at hch'
      cases hch'
    · rename_i ch hch
      split
      · dsimp only
        split
        · rename_i hzero
          exact .taken ch _ (changes_setSubscription c _ _ (by rfl) hch _) hzero hwant rfl rfl rfl
        · rename_i hne
          refine .kept rfl rfl rfl fun _ ch' hch' => ?_
          rw [hch] at hch'
          cases hch'
          exact iff_of_false hne hwant
      · rename_i hoff
        exact .kept rfl rfl rfl fun hon => absurd hon hoff

/-- The goroutine and the client after the section. -/
def System.reconciled (s : System w) (topic : w.Topic) (next : List w.Topic)
    (r : Client w × Option Message) : System w :=
  { s with
    client := r.1
    running :=
      (match r.2 with
        | none => Job.scan next
        | some msg => Job.write topic msg next) :: s.running }

/-- Only the message of the section is new among the writes. -/
theorem mem_reconciled {msg : Message} {n : List w.Topic}
    (hj : Job.write t msg n ∈ (s.reconciled topic next r).running) :
    (t = topic ∧ r.2 = some msg) ∨ Job.write t msg n ∈ s.running := by
  unfold System.reconciled at hj
  rcases List.mem_cons.mp hj with heq | hj
  · cases hmsg : r.2 with
    | none =>
      rw [hmsg] at heq
      cases heq
    | some m =>
      rw [hmsg] at heq
      cases heq
      exact .inl ⟨rfl, rfl⟩
  · exact .inr hj

variable {c : Client w}

theorem Changes.lookup {id : Nat} (hc : Changes c topic r ch id) {x : ChannelState w}
    (hx : r.1.channels.lookup t = some x) : (t = topic ∧ x = { ch with subscriptionID := id }) ∨
      (t ≠ topic ∧ c.channels.lookup t = some x) := by
  by_cases heq : t = topic
  · subst heq
    rw [hc.now_] at hx
    exact .inl ⟨rfl, (Option.some.inj hx).symm⟩
  · rw [hc.others t heq] at hx
    exact .inr ⟨heq, hx⟩

/-- No channel goes, and none becomes another. -/
theorem Reconciled.announced (hr : Reconciled c topic r) (t : w.Topic) :
    ((r.1.channels.lookup t).map fun ch => (ch.id, ch.schema)) =
      (c.channels.lookup t).map fun ch => (ch.id, ch.schema) := by
  have hchanges {ch : ChannelState w} {id : Nat} (hc : Changes c topic r ch id) :
      ((r.1.channels.lookup t).map fun ch => (ch.id, ch.schema)) =
        (c.channels.lookup t).map fun ch => (ch.id, ch.schema) := by
    by_cases heq : t = topic
    · rw [heq, hc.now_, hc.found]
      rfl
    · rw [hc.others t heq]
  cases hr with
  | kept hchannels => rw [hchannels]
  | dropped ch hc => exact hchanges hc
  | taken ch id hc => exact hchanges hc

theorem Reconciled.none (hr : Reconciled c topic r) (hnone : c.channels.lookup t = none) :
    r.1.channels.lookup t = none := by
  have hsame := hr.announced t
  rw [hnone] at hsame
  exact Option.map_eq_none_iff.mp hsame

theorem Spares.live (hs : Spares s.client topic r) (next : List w.Topic) :
    (s.reconciled topic next r).Live ↔ s.Live := by
  unfold System.Live System.reconciled
  rw [hs.conn]

theorem Told.reconciled (h : Told s) (hs : Spares s.client topic r)
    (hr : Reconciled s.client topic r) : Told (s.reconciled topic next r) := by
  have hlive := hs.live next
  refine ⟨?_, ?_, h.untold, ?_, ?_, ?_, h.tableOf, ?_, ?_, ?_⟩
  · intro t x hx
    show r.1.channelsByID x.id = some t
    rw [hs.channelsByID]
    have hsame := hr.announced t
    rw [show r.1.channels.lookup t = some x from hx] at hsame
    obtain ⟨x₀, hx₀, heq⟩ := Option.map_eq_some_iff.mp hsame.symm
    injection heq with hid
    rw [← hid]
    exact h.byID t x₀ hx₀
  · intro hl t
    exact (h.told (hlive.mp hl) t).trans (hr.announced t).symm
  · intro hzero
    obtain ⟨hconn, hconnected, hphase, hempty, hserver⟩ := h.undialed hzero
    exact ⟨hs.conn.trans hconn, hs.connected.trans hconnected, hphase,
      fun t => hr.none (hempty t), hserver⟩
  · exact fun hphase t => hr.none (h.cleared hphase t)
  · exact fun k hk => h.conn k (hs.conn.symm.trans hk)
  · exact fun hl => hs.connected.trans (h.connected (hlive.mp hl))
  · exact fun hon hphase => hlive.mpr (h.live (hs.connected.symm.trans hon) hphase)
  · intro hphase
    show r.1.conn.isSome = true ∧ (_ → ¬(s.reconciled topic next r).Live) ∧
      (_ → r.1.connected = true)
    rw [hs.conn, hlive, hs.connected]
    exact h.stored hphase

/-- What the goroutine owed of other topics it still owes, and its own topic is as wanted. -/
theorem Minded.reconciled
    (h : Minded { s with running := .reconcile topic next :: s.running })
    (hs : Spares s.client topic r) (hr : Reconciled s.client topic r)
    (hcounter : s.client.subIDCounter + 1 < 4294967296) :
    Minded (s.reconciled topic next r) := by
  have hpump : (s.reconciled topic next r).pumping = s.pumping := by
    unfold System.pumping System.reconciled
    rw [hs.connected]
  have hothers : ∀ t, t ≠ topic → r.1.channels.lookup t = s.client.channels.lookup t := by
    intro t hne
    cases hr with
    | kept hchannels => rw [hchannels]
    | dropped ch hc => exact hc.others t hne
    | taken ch id hc => exact hc.others t hne
  have hsettled : s.client.connected = true → ∀ ch, r.1.channels.lookup topic = some ch →
      (ch.subscriptionID = 0 ↔ s.client.listeners topic = []) := by
    intro hon ch hch
    cases hr with
    | kept hchannels _ _ hsettled =>
      rw [hchannels] at hch
      exact hsettled hon ch hch
    | dropped ch₀ hc _ hnone =>
      rw [hc.now_] at hch
      cases hch
      exact iff_of_true rfl hnone
    | taken ch₀ id hc _ hwant hfresh =>
      rw [hc.now_] at hch
      cases hch
      refine iff_of_false ?_ hwant
      show id ≠ 0
      omega
  have howed : ∀ t, t ≠ topic →
      ({ s with running := .reconcile topic next :: s.running } : System w).Owed t →
      (s.reconciled topic next r).Owed t := by
    rintro t hne ⟨j, hj, hjt⟩
    rcases List.mem_cons.mp hj with rfl | hj
    · refine ⟨_, List.mem_cons_self, ?_⟩
      have hnext : t ∈ next := hjt.resolve_left fun heq => hne heq.symm
      cases r.2 with
      | none => exact hnext
      | some msg => exact hnext
    · refine ⟨j, List.mem_cons_of_mem _ hj, ?_⟩
      cases j with
      | reconcile t' next' => exact hjt
      | write t' msg next' => exact hjt
      | snapshot => exact (hs.pending t hne).mpr hjt
      | scan topics => exact hjt
  refine ⟨?_, ?_, ?_⟩
  · intro hp t ch hch hwant hzero
    rw [hpump] at hp
    have hwant' : s.client.listeners t ≠ [] := hs.listeners t ▸ hwant
    by_cases heq : t = topic
    · subst heq
      exact absurd ((hsettled ((System.pumping_iff _).mp hp).2 ch hch).mp hzero) hwant'
    · exact howed t heq (h.subscribed hp t ch ((hothers t heq).symm.trans hch) hwant' hzero)
  · intro hp t ch hch hnone hne
    rw [hpump] at hp
    have hnone' : s.client.listeners t = [] := (hs.listeners t).symm.trans hnone
    by_cases heq : t = topic
    · subst heq
      exact absurd ((hsettled ((System.pumping_iff _).mp hp).2 ch hch).mpr hnone') hne
    · exact howed t heq (h.unsubscribed hp t ch ((hothers t heq).symm.trans hch) hnone' hne)
  · intro hphase t hwant hnone
    have hwant' : s.client.listeners t ≠ [] := hs.listeners t ▸ hwant
    have hnone' : s.client.channels.lookup t = none := by
      have hsame := hr.announced t
      rw [show r.1.channels.lookup t = none from hnone] at hsame
      exact Option.map_eq_none_iff.mp hsame.symm
    by_cases heq : t = topic
    · subst heq
      exact .inl (hs.waits hwant' hnone')
    · rcases h.pending hphase t hwant' hnone' with hp | ⟨n, hj⟩ | hf
      · exact .inl ((hs.pending t heq).mpr hp)
      · rcases List.mem_cons.mp hj with hjob | hj
        · cases hjob
          exact absurd rfl heq
        · exact .inr (.inl ⟨n, List.mem_cons_of_mem _ hj⟩)
      · exact .inr (.inr hf)

/-! A message about the topic is not on its way, so what is on its way is about the others. -/

theorem Numbered.dropped (h : Numbered s) (hc : Changes s.client topic r ch 0)
    (hcounter : r.1.subIDCounter = s.client.subIDCounter) (hne : ch.subscriptionID ≠ 0)
    (hsent : ∀ msg, r.2 = some msg → msg = .unsubscribe ch.subscriptionID) :
    Numbered (s.reconciled topic next r) := by
  -- What is subscribed was so before, and is another topic.
  have hback {t : w.Topic} {x : ChannelState w}
      (hx : (s.reconciled topic next r).client.channels.lookup t = some x)
      (hxne : x.subscriptionID ≠ 0) : t ≠ topic ∧ s.client.channels.lookup t = some x := by
    rcases hc.lookup hx with ⟨-, rfl⟩ | hx
    · exact absurd rfl hxne
    · exact hx
  have hcount : (s.reconciled topic next r).client.subIDCounter = s.client.subIDCounter := hcounter
  refine ⟨?_, ?_, ?_, ?_, ?_⟩
  · rw [hcount]
    exact h.counter
  · intro t x hx
    rw [hcount]
    by_cases hxne : x.subscriptionID = 0
    · rw [hxne]
      exact Nat.zero_le _
    · exact h.table t x (hback hx hxne).2
  · intro t t' x x' hx hx' heq hxne
    exact h.sole t t' x x' (hback hx hxne).2 (hback hx' (heq ▸ hxne)).2 heq hxne
  · intro t id channel n hj
    rcases mem_reconciled hj with ⟨-, hmsg⟩ | hj
    · cases hsent _ hmsg
    · obtain ⟨hid, hle, hsole, hsame⟩ := h.subscribing t id channel n hj
      refine ⟨hid, by rw [hcount]; exact hle, ?_, ?_⟩
      · rintro t' x hx rfl
        exact hsole t' x (hback hx hid).2 rfl
      · exact fun x hx hxne => hsame x (hback hx hxne).2 hxne
  · intro t id n hj
    rcases mem_reconciled hj with ⟨rfl, hmsg⟩ | hj
    · cases hsent _ hmsg
      refine ⟨hne, by rw [hcount]; exact h.table t ch hc.found, ?_⟩
      intro t' x hx heq
      obtain ⟨hother, hx⟩ := hback hx (heq ▸ hne)
      exact hother (h.sole t' t x ch hx hc.found heq (heq ▸ hne))
    · obtain ⟨hid, hle, hgone⟩ := h.unsubscribing t id n hj
      refine ⟨hid, by rw [hcount]; exact hle, ?_⟩
      rintro t' x hx rfl
      exact hgone t' x (hback hx hid).2 rfl

theorem Numbered.taken (h : Numbered s) {id : Nat}
    (hlock : ∀ msg n, Job.write topic msg n ∉ s.running) (hc : Changes s.client topic r ch id)
    (hcounter : r.1.subIDCounter = id) (hid : id = s.client.subIDCounter + 1)
    (hbound : id < 4294967296) (hsent : r.2 = some (.subscribe id ch.id)) :
    Numbered (s.reconciled topic next r) := by
  have hcount : (s.reconciled topic next r).client.subIDCounter = id := hcounter
  have hold {t : w.Topic} {x : ChannelState w} (hx : s.client.channels.lookup t = some x) :
      x.subscriptionID < id := by
    rw [hid]
    exact Nat.lt_succ_of_le (h.table t x hx)
  -- An id that was given out before is of the others.
  have hback {t : w.Topic} {x : ChannelState w} {sub : Nat}
      (hx : (s.reconciled topic next r).client.channels.lookup t = some x)
      (heq : x.subscriptionID = sub) (hle : sub ≤ s.client.subIDCounter) :
      t ≠ topic ∧ s.client.channels.lookup t = some x := by
    rcases hc.lookup hx with ⟨-, rfl⟩ | hx
    · have heq : id = sub := heq
      omega
    · exact hx
  refine ⟨?_, ?_, ?_, ?_, ?_⟩
  · rw [hcount]
    exact hbound
  · intro t x hx
    rw [hcount]
    rcases hc.lookup hx with ⟨-, rfl⟩ | ⟨-, hx⟩
    · exact Nat.le_refl _
    · exact Nat.le_of_lt (hold hx)
  · intro t t' x x' hx hx' heq hne
    rcases hc.lookup hx with ⟨rfl, rfl⟩ | ⟨-, hx⟩
    · rcases hc.lookup hx' with ⟨rfl, -⟩ | ⟨-, hx'⟩
      · rfl
      · have heq : id = x'.subscriptionID := heq
        exact absurd (hold hx') (by omega)
    · rcases hc.lookup hx' with ⟨-, rfl⟩ | ⟨-, hx'⟩
      · have heq : x.subscriptionID = id := heq
        exact absurd (hold hx) (by omega)
      · exact h.sole t t' x x' hx hx' heq hne
  · intro t sub channel n hj
    rcases mem_reconciled hj with ⟨rfl, hmsg⟩ | hrun
    · rw [hsent] at hmsg
      cases hmsg
      refine ⟨by omega, by rw [hcount], ?_, ?_⟩
      · intro t' x hx heq
        rcases hc.lookup hx with ⟨rfl, -⟩ | ⟨-, hx⟩
        · rfl
        · exact absurd (hold hx) (by omega)
      · intro x hx _
        rcases hc.lookup hx with ⟨-, rfl⟩ | ⟨hother, -⟩
        · exact ⟨rfl, rfl⟩
        · exact absurd rfl hother
    · obtain ⟨hne, hle, hsole, hsame⟩ := h.subscribing t sub channel n hrun
      refine ⟨hne, by rw [hcount]; omega, ?_, ?_⟩
      · exact fun t' x hx heq => hsole t' x (hback hx heq hle).2 heq
      · intro x hx hxne
        rcases hc.lookup hx with ⟨rfl, -⟩ | ⟨-, hx⟩
        · exact absurd hrun (hlock _ _)
        · exact hsame x hx hxne
  · intro t sub n hj
    rcases mem_reconciled hj with ⟨-, hmsg⟩ | hj
    · rw [hsent] at hmsg
      cases hmsg
    · obtain ⟨hne, hle, hgone⟩ := h.unsubscribing t sub n hj
      refine ⟨hne, by rw [hcount]; omega, ?_⟩
      exact fun t' x hx heq => hgone t' x (hback hx heq hle).2 heq

theorem Held.dropped (h : Held s) (ht : Told s) (hspares : Spares s.client topic r)
    (hc : Changes s.client topic r ch 0)
    (hsent : r.2 = if s.client.connected then some (.unsubscribe ch.subscriptionID) else none) :
    Held (s.reconciled topic next r) := by
  have hconn : (s.reconciled topic next r).client.conn = s.client.conn := hspares.conn
  have hlive := hspares.live next
  refine ⟨?_, ?_, ?_⟩
  · intro hne haway
    rw [hconn] at hne haway
    exact h.away hne haway
  · intro hl hclean t x hx hne hno
    rcases hc.lookup hx with ⟨-, rfl⟩ | ⟨-, hx⟩
    · exact absurd rfl hne
    · exact h.held (hlive.mp hl) hclean t x hx hne fun id channel n hj =>
        hno id channel n (List.mem_cons_of_mem _ hj)
  · intro hl hclean sub channel hsub
    obtain ⟨hne, ⟨t, x, hx, hxsub, hxid⟩ | ⟨t, n, hj⟩⟩ :=
      h.sound (hlive.mp hl) hclean sub channel hsub
    · refine ⟨hne, ?_⟩
      by_cases heq : t = topic
      · subst heq
        rw [hc.found] at hx
        cases hx
        refine .inr ⟨t, next, ?_⟩
        unfold System.reconciled
        rw [hsent, ht.connected (hlive.mp hl), ← hxsub]
        exact List.mem_cons_self
      · exact .inl ⟨t, x, (hc.others t heq).trans hx, hxsub, hxid⟩
    · exact ⟨hne, .inr ⟨t, n, List.mem_cons_of_mem _ hj⟩⟩

theorem Held.taken (h : Held s) {id : Nat} (hspares : Spares s.client topic r)
    (hc : Changes s.client topic r ch id) (hzero : ch.subscriptionID = 0)
    (hsent : r.2 = some (.subscribe id ch.id)) : Held (s.reconciled topic next r) := by
  have hconn : (s.reconciled topic next r).client.conn = s.client.conn := hspares.conn
  have hlive := hspares.live next
  refine ⟨?_, ?_, ?_⟩
  · intro hne haway
    rw [hconn] at hne haway
    exact h.away hne haway
  · intro hl hclean t x hx hne hno
    rcases hc.lookup hx with ⟨rfl, -⟩ | ⟨-, hx⟩
    · refine absurd ?_ (hno id ch.id next)
      unfold System.reconciled
      rw [hsent]
      exact List.mem_cons_self
    · exact h.held (hlive.mp hl) hclean t x hx hne fun id channel n hj =>
        hno id channel n (List.mem_cons_of_mem _ hj)
  · intro hl hclean sub channel hsub
    obtain ⟨hne, ⟨t, x, hx, hxsub, hxid⟩ | ⟨t, n, hj⟩⟩ :=
      h.sound (hlive.mp hl) hclean sub channel hsub
    · refine ⟨hne, .inl ⟨t, x, ?_, hxsub, hxid⟩⟩
      have hother : t ≠ topic := by
        rintro rfl
        rw [hc.found] at hx
        cases hx
        exact hne (hxsub.symm.trans hzero)
      exact (hc.others t hother).trans hx
    · exact ⟨hne, .inr ⟨t, n, List.mem_cons_of_mem _ hj⟩⟩

/-- The section of `reconcileSubscription`, under the lock of its topic. -/
theorem Books.reconcile (h : Books { s with running := .reconcile topic next :: s.running })
    (hlock : s.blocked (.reconcile topic next) = false)
    (hcounter : s.client.subIDCounter + 1 < 4294967296) :
    Books (s.advance written (.reconcile topic next)) := by
  have hlock' : ∀ msg n, Job.write topic msg n ∉ s.running := by
    intro msg n hj
    have hfree := List.any_eq_false.mp hlock _ hj
    exact hfree (decide_eq_true rfl)
  have halike : Alike { s with running := .reconcile topic next :: s.running } s := by
    refine ⟨rfl, rfl, rfl, rfl, rfl, rfl, rfl, rfl, rfl, rfl, fun t msg n => ?_⟩
    refine ⟨List.mem_cons_of_mem _, fun hj => ?_⟩
    rcases List.mem_cons.mp hj with heq | hj
    · cases heq
    · exact hj
  have hnumbered := halike.numbered h.numbered
  have htold := halike.told h.told
  have hheld := halike.held h.held
  have hspares := reconcileSubscription_spares s.client topic
  have hr := reconcileSubscription_reconciled s.client topic
  show Books (s.reconciled topic next (s.client.reconcileSubscription topic))
  generalize s.client.reconcileSubscription topic = r at hspares hr
  have htold' : Told (s.reconciled topic next r) := htold.reconciled hspares hr
  have hminded := h.minded.reconciled hspares hr hcounter
  cases hr with
  | kept hchannels hcount hsilent =>
    have hkept : Alike s (s.reconciled topic next r) := by
      refine ⟨hspares.conn, hspares.connected, hchannels, hspares.channelsByID, hcount, rfl, rfl,
        rfl, rfl, rfl, fun t msg n => ⟨fun hj => ?_, fun hj => List.mem_cons_of_mem _ hj⟩⟩
      rcases mem_reconciled hj with ⟨-, hmsg⟩ | hj
      · rw [hsilent] at hmsg
        cases hmsg
      · exact hj
    exact ⟨hkept.numbered hnumbered, htold', hkept.held hheld, hminded⟩
  | dropped ch hc hne hnone hcount hsent =>
    refine ⟨hnumbered.dropped hc hcount hne ?_, htold', hheld.dropped htold hspares hc hsent,
      hminded⟩
    intro msg hmsg
    rw [hsent] at hmsg
    split at hmsg
    · exact (Option.some.inj hmsg).symm
    · cases hmsg
  | taken ch id hc hzero hwant hfresh hcount hsent =>
    rw [Nat.mod_eq_of_lt hcounter] at hfresh
    exact ⟨hnumbered.taken hlock' hc hcount hfresh (hfresh ▸ hcounter) hsent, htold',
      hheld.taken hspares hc hzero hsent, hminded⟩

end Reconcile

end Foxglove
end Mowgli
