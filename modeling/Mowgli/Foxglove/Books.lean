import Mowgli.Foxglove.System

/-!
# Books — what the tables, the jobs and the server say together

Four sentences that every prudent step keeps. The ids of subscriptions are of one topic each and
never come back (`Numbered`); the server has announced what the tables hold (`Told`); it holds the
subscriptions of the tables, but for those whose write is on its way (`Held`); and a topic that is
not as its listeners want it has a goroutine on its way to it (`Minded`).
-/

namespace Mowgli
namespace Foxglove

variable {w : Wire}

/-- What a job will reconcile before it is done. -/
def Job.owes (pending : List w.Topic) (topic : w.Topic) : Job w → Prop
  | .reconcile t next => t = topic ∨ topic ∈ next
  | .write _ _ next => topic ∈ next
  | .snapshot => topic ∈ pending
  | .scan topics => topic ∈ topics

namespace System

variable (s : System w)

def Owed (topic : w.Topic) : Prop := ∃ j ∈ s.running, j.owes s.client.pendingTopics topic

def Reconciling (topic : w.Topic) : Prop := ∃ next, Job.reconcile topic next ∈ s.running

theorem pumping_iff : s.pumping = true ↔ s.phase = .idle ∧ s.client.connected = true := by
  unfold pumping
  rw [Bool.and_eq_true, decide_eq_true_eq]

/-- The tables are of the connection that writes go to. -/
def Live : Prop := ∃ k, s.client.conn = some k ∧ s.tableOf = some k

end System

structure Numbered (s : System w) : Prop where
  counter : s.client.subIDCounter < 4294967296
  table : ∀ topic ch, s.client.channels.lookup topic = some ch →
    ch.subscriptionID ≤ s.client.subIDCounter
  sole : ∀ topic topic' ch ch', s.client.channels.lookup topic = some ch →
    s.client.channels.lookup topic' = some ch' → ch.subscriptionID = ch'.subscriptionID →
    ch.subscriptionID ≠ 0 → topic = topic'
  subscribing : ∀ topic id channel next, Job.write topic (.subscribe id channel) next ∈ s.running →
    id ≠ 0 ∧ id ≤ s.client.subIDCounter ∧
      (∀ topic' ch, s.client.channels.lookup topic' = some ch → ch.subscriptionID = id →
        topic' = topic) ∧
      ∀ ch, s.client.channels.lookup topic = some ch → ch.subscriptionID ≠ 0 →
        ch.subscriptionID = id ∧ ch.id = channel
  unsubscribing : ∀ topic id next, Job.write topic (.unsubscribe id) next ∈ s.running →
    id ≠ 0 ∧ id ≤ s.client.subIDCounter ∧
      ∀ topic' ch, s.client.channels.lookup topic' = some ch → ch.subscriptionID ≠ id

structure Told (s : System w) : Prop where
  byID : ∀ topic ch, s.client.channels.lookup topic = some ch →
    s.client.channelsByID ch.id = some topic
  told : s.Live → ∀ topic,
    s.server.channels topic = (s.client.channels.lookup topic).map fun ch => (ch.id, ch.schema)
  untold : s.phase ≠ .idle → ∀ topic, s.server.channels topic = none
  undialed : s.dials = 0 → s.client.conn = none ∧ s.client.connected = false ∧
    s.phase = .idle ∧ (∀ topic, s.client.channels.lookup topic = none) ∧
    (∀ topic, s.server.channels topic = none) ∧ ∀ sub, s.server.subscriptions sub = none
  cleared : s.phase = .cleared → ∀ topic, s.client.channels.lookup topic = none
  conn : ∀ k, s.client.conn = some k → k < s.dials
  tableOf : ∀ k, s.tableOf = some k → k < s.dials
  connected : s.Live → s.client.connected = true
  live : s.client.connected = true → s.phase = .idle ∨ s.phase = .cleared → s.Live
  stored : s.phase ≠ .idle → s.client.conn.isSome = true ∧ (s.phase ≠ .cleared → ¬s.Live) ∧
    (s.phase ≠ .dialed → s.client.connected = true)

structure Held (s : System w) : Prop where
  away : s.client.conn ≠ none → s.client.conn ≠ s.tableOf →
    ∀ sub, s.server.subscriptions sub = none
  held : s.Live → s.clean = true → ∀ topic ch, s.client.channels.lookup topic = some ch →
    ch.subscriptionID ≠ 0 →
    (∀ id channel next, Job.write topic (.subscribe id channel) next ∉ s.running) →
    s.server.subscriptions ch.subscriptionID = some ch.id
  sound : s.Live → s.clean = true → ∀ sub channel, s.server.subscriptions sub = some channel →
    sub ≠ 0 ∧ ((∃ topic ch, s.client.channels.lookup topic = some ch ∧ ch.subscriptionID = sub ∧
        ch.id = channel) ∨
      ∃ topic next, Job.write topic (.unsubscribe sub) next ∈ s.running)

structure Minded (s : System w) : Prop where
  subscribed : s.pumping = true → ∀ topic ch, s.client.channels.lookup topic = some ch →
    s.client.listeners topic ≠ [] → ch.subscriptionID = 0 → s.Owed topic
  unsubscribed : s.pumping = true → ∀ topic ch, s.client.channels.lookup topic = some ch →
    s.client.listeners topic = [] → ch.subscriptionID ≠ 0 → s.Owed topic
  pending : s.phase ≠ .cleared → ∀ topic, s.client.listeners topic ≠ [] →
    s.client.channels.lookup topic = none →
    topic ∈ s.client.pendingTopics ∨ s.Reconciling topic ∨ topic ∈ s.forgotten

structure Books (s : System w) : Prop where
  numbered : Numbered s
  told : Told s
  held : Held s
  minded : Minded s

/-! ## Settled books -/

theorem find?_entry {α : Type} {β : α → Type} [DecidableEq α] {m : AList β} {p : Sigma β → Bool}
    {k : α} {v : β k} (hk : m.lookup k = some v) (hp : p ⟨k, v⟩ = true)
    (hsole : ∀ k' v', m.lookup k' = some v' → p ⟨k', v'⟩ = true → k' = k) :
    m.entries.find? p = some ⟨k, v⟩ := by
  have hmem : (⟨k, v⟩ : Sigma β) ∈ m.entries := AList.mem_lookup_iff.mp hk
  cases hf : m.entries.find? p with
  | none => exact absurd hp (by simpa using List.find?_eq_none.mp hf _ hmem)
  | some e =>
    obtain ⟨k', v'⟩ := e
    have hlook : m.lookup k' = some v' := AList.mem_lookup_iff.mpr (List.mem_of_find?_eq_some hf)
    have heq := hsole k' v' hlook (List.find?_some hf)
    subst heq
    rw [hk] at hlook
    cases hlook
    rfl

theorem Books.converged {s : System w} (h : Books s) (hs : Settled s) : Converged s := by
  have hpump := (System.pumping_iff s).mpr ⟨hs.phase, hs.connected⟩
  have hlive := h.told.live hs.connected (.inl hs.phase)
  have howed : ∀ topic, ¬s.Owed topic := by
    rintro topic ⟨j, hj, -⟩
    rw [hs.running] at hj
    cases hj
  have htold := h.told.told hlive
  have hheld : ∀ topic ch, s.client.channels.lookup topic = some ch → ch.subscriptionID ≠ 0 →
      s.server.subscriptions ch.subscriptionID = some ch.id := by
    intro topic ch hch hne
    refine h.held.held hlive hs.clean topic ch hch hne ?_
    intro id channel next hj
    rw [hs.running] at hj
    cases hj
  have hsound : ∀ sub channel, s.server.subscriptions sub = some channel → sub ≠ 0 ∧
      ∃ topic ch, s.client.channels.lookup topic = some ch ∧ ch.subscriptionID = sub ∧
        ch.id = channel := by
    intro sub channel hsub
    obtain ⟨hne, hfound | ⟨topic, next, hj⟩⟩ := h.held.sound hlive hs.clean sub channel hsub
    · exact ⟨hne, hfound⟩
    · rw [hs.running] at hj
      cases hj
  have hentry : ∀ topic channel schema, s.server.channels topic = some (channel, schema) →
      ∃ ch, s.client.channels.lookup topic = some ch ∧ ch.id = channel ∧ ch.schema = schema := by
    intro topic channel schema hserver
    rw [htold topic, Option.map_eq_some_iff] at hserver
    obtain ⟨ch, hch, heq⟩ := hserver
    injection heq with hid hschema
    exact ⟨ch, hch, hid, hschema⟩
  refine ⟨?_, ?_, ?_⟩
  · intro topic channel schema hserver hwant
    obtain ⟨ch, hch, rfl, -⟩ := hentry topic channel schema hserver
    have hne : ch.subscriptionID ≠ 0 :=
      fun hzero => howed topic (h.minded.subscribed hpump topic ch hch hwant hzero)
    refine ⟨ch.subscriptionID, fun sub => ⟨fun hsub => ?_, ?_⟩⟩
    · obtain ⟨-, topic', ch', hch', rfl, hid⟩ := hsound sub ch.id hsub
      have hby := h.told.byID topic' ch' hch'
      rw [hid, h.told.byID topic ch hch] at hby
      cases hby
      rw [hch] at hch'
      cases hch'
      rfl
    · rintro rfl
      exact hheld topic ch hch hne
  · intro sub channel hsub
    obtain ⟨hne, topic, ch, hch, rfl, rfl⟩ := hsound sub channel hsub
    refine ⟨topic, ch.schema, ?_, ?_⟩
    · rw [htold topic, hch]
      rfl
    · intro hnone
      exact howed topic (h.minded.unsubscribed hpump topic ch hch hnone hne)
  · intro sub channel topic schema payload now_ json hsub hserver hpass hjson
    obtain ⟨ch, hch, rfl, rfl⟩ := hentry topic channel schema hserver
    obtain ⟨hne, topic', ch', hch', rfl, hid⟩ := hsound sub ch.id hsub
    have hby := h.told.byID topic' ch' hch'
    rw [hid, h.told.byID topic ch hch] at hby
    cases hby
    rw [hch] at hch'
    cases hch'
    have hfind := find?_entry (p := fun e => e.2.subscriptionID = ch.subscriptionID) hch
      (decide_eq_true rfl) fun topic' ch' hch' hp =>
        h.numbered.sole topic' topic ch' ch hch' hch (of_decide_eq_true hp)
          (of_decide_eq_true hp ▸ hne)
    unfold Client.handleMessageData
    rw [hfind]
    unfold System.passes at hpass
    dsimp only
    cases hdec : s.client.decimators.lookup topic with
    | none =>
      rw [hjson]
    | some dec =>
      rw [hdec] at hpass
      dsimp only at hpass ⊢
      split
      · rename_i hinterval
        rw [decide_eq_true hinterval, Bool.not_true, Bool.false_or, Bool.not_eq_true',
          decide_eq_false_iff_not] at hpass
        rw [if_neg hpass, hjson]
        rfl
      · rw [hjson]

/-! ## Steps that leave the tables alone -/

/-- The same tables, server and connection, and the same writes on their way. -/
structure Alike (s s' : System w) : Prop where
  conn : s'.client.conn = s.client.conn
  connected : s'.client.connected = s.client.connected
  channels : s'.client.channels = s.client.channels
  channelsByID : s'.client.channelsByID = s.client.channelsByID
  counter : s'.client.subIDCounter = s.client.subIDCounter
  server : s'.server = s.server
  phase : s'.phase = s.phase
  dials : s'.dials = s.dials
  clean : s'.clean = s.clean
  tableOf : s'.tableOf = s.tableOf
  writes : ∀ topic msg next, Job.write topic msg next ∈ s'.running ↔
    Job.write topic msg next ∈ s.running

variable {s s' : System w}

theorem Alike.live (a : Alike s s') : s'.Live ↔ s.Live := by
  unfold System.Live
  rw [a.conn, a.tableOf]

theorem Alike.pumping (a : Alike s s') : s'.pumping = s.pumping := by
  unfold System.pumping
  rw [a.phase, a.connected]

theorem Alike.numbered (a : Alike s s') (h : Numbered s) : Numbered s' := by
  refine ⟨?_, ?_, ?_, ?_, ?_⟩
  · rw [a.counter]
    exact h.counter
  · rw [a.counter, a.channels]
    exact h.table
  · rw [a.channels]
    exact h.sole
  · rw [a.counter, a.channels]
    exact fun topic id channel next hj => h.subscribing topic id channel next ((a.writes ..).mp hj)
  · rw [a.counter, a.channels]
    exact fun topic id next hj => h.unsubscribing topic id next ((a.writes ..).mp hj)

theorem Alike.told (a : Alike s s') (h : Told s) : Told s' := by
  refine ⟨?_, ?_, ?_, ?_, ?_, ?_, ?_, ?_, ?_, ?_⟩
  · rw [a.channels, a.channelsByID]
    exact h.byID
  · rw [a.live, a.channels, a.server]
    exact h.told
  · rw [a.phase, a.server]
    exact h.untold
  · rw [a.dials, a.conn, a.connected, a.phase, a.channels, a.server]
    exact h.undialed
  · rw [a.phase, a.channels]
    exact h.cleared
  · rw [a.conn, a.dials]
    exact h.conn
  · rw [a.tableOf, a.dials]
    exact h.tableOf
  · rw [a.live, a.connected]
    exact h.connected
  · rw [a.live, a.connected, a.phase]
    exact h.live
  · rw [a.phase, a.conn, a.live, a.connected]
    exact h.stored

theorem Alike.held (a : Alike s s') (h : Held s) : Held s' := by
  refine ⟨?_, ?_, ?_⟩
  · rw [a.conn, a.tableOf, a.server]
    exact h.away
  · rw [a.live, a.clean, a.channels, a.server]
    intro hlive hclean topic ch hch hne hno
    exact h.held hlive hclean topic ch hch hne fun id channel next hj =>
      hno id channel next ((a.writes ..).mpr hj)
  · rw [a.live, a.clean, a.channels, a.server]
    intro hlive hclean sub channel hsub
    obtain ⟨hne, hfound | ⟨topic, next, hj⟩⟩ := h.sound hlive hclean sub channel hsub
    · exact ⟨hne, .inl hfound⟩
    · exact ⟨hne, .inr ⟨topic, next, (a.writes ..).mpr hj⟩⟩

/-- The same listeners as well, and jobs that owe no less. -/
theorem Alike.minded (a : Alike s s') (h : Minded s)
    (hlisteners : ∀ topic, s'.client.listeners topic = s.client.listeners topic)
    (howed : ∀ topic, (s.client.channels.lookup topic).isSome = true → s.Owed topic →
      s'.Owed topic)
    (hpending : ∀ topic, s.client.channels.lookup topic = none →
      topic ∈ s.client.pendingTopics ∨ s.Reconciling topic ∨ topic ∈ s.forgotten →
      topic ∈ s'.client.pendingTopics ∨ s'.Reconciling topic ∨ topic ∈ s'.forgotten) :
    Minded s' := by
  refine ⟨?_, ?_, ?_⟩
  · intro hpump topic ch hch hwant hzero
    rw [a.pumping] at hpump
    rw [a.channels] at hch
    rw [hlisteners] at hwant
    exact howed topic (by rw [hch]; rfl) (h.subscribed hpump topic ch hch hwant hzero)
  · intro hpump topic ch hch hnone hne
    rw [a.pumping] at hpump
    rw [a.channels] at hch
    rw [hlisteners] at hnone
    exact howed topic (by rw [hch]; rfl) (h.unsubscribed hpump topic ch hch hnone hne)
  · intro hphase topic hwant hnone
    rw [a.phase] at hphase
    rw [a.channels] at hnone
    rw [hlisteners] at hwant
    exact hpending topic hnone (h.pending hphase topic hwant hnone)

end Foxglove
end Mowgli
