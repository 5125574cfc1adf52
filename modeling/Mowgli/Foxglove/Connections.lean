import Mowgli.Foxglove.Goroutines

/-!
# Connections — what losing and taking up a connection keeps, and what runs come to
-/

namespace Mowgli
namespace Foxglove

open Trace

variable {w : Wire} {s : System w}

theorem Books.lost (h : Books s) (hpump : s.pumping = true) :
    Books { s with client := s.client.lose } := by
  obtain ⟨hphase, hconn⟩ := (System.pumping_iff _).mp hpump
  have hdead : ¬({ s with client := s.client.lose } : System w).Live := by
    rintro ⟨k, hk, -⟩
    cases hk
  have hquiet : ({ s with client := s.client.lose } : System w).pumping ≠ true :=
    fun hp => nomatch ((System.pumping_iff _).mp hp).2
  refine ⟨⟨h.numbered.counter, h.numbered.table, h.numbered.sole, h.numbered.subscribing,
    h.numbered.unsubscribing⟩, ⟨h.told.byID, fun hl => absurd hl hdead, h.told.untold, ?_,
    h.told.cleared, nofun, h.told.tableOf, fun hl => absurd hl hdead, nofun,
    fun hne => absurd hphase hne⟩, ⟨fun hne => absurd rfl hne, fun hl => absurd hl hdead,
    fun hl => absurd hl hdead⟩, ⟨fun hp => absurd hp hquiet, fun hp => absurd hp hquiet,
    h.minded.pending⟩⟩
  intro hzero
  rw [(h.told.undialed hzero).2.1] at hconn
  cases hconn

/-- The first connection, when nothing was announced yet. -/
theorem Books.connect (h : Books s) (hzero : s.dials = 0) :
    Books { s with
      client := (s.client.setConn 0).storeConnected
      dials := 1
      tableOf := some 0 } := by
  obtain ⟨-, -, hphase, hempty, hserver, hsubs⟩ := h.told.undialed hzero
  have hnone {t : w.Topic} {x : ChannelState w} (hx : s.client.channels.lookup t = some x) :
      False := by
    rw [hempty t] at hx
    cases hx
  refine ⟨⟨h.numbered.counter, h.numbered.table, h.numbered.sole, h.numbered.subscribing,
    h.numbered.unsubscribing⟩, ⟨h.told.byID, ?_, h.told.untold, nofun, h.told.cleared, ?_, ?_,
    fun _ => rfl, fun _ _ => ⟨0, rfl, rfl⟩, fun hne => absurd hphase hne⟩,
    ⟨fun _ haway => absurd rfl haway, fun _ _ _ _ hx => (hnone hx).elim, ?_⟩,
    ⟨fun _ _ _ hx => (hnone hx).elim, fun _ _ _ hx => (hnone hx).elim, h.minded.pending⟩⟩
  · intro _ t
    show s.server.channels t = (s.client.channels.lookup t).map _
    rw [hempty t, hserver t]
    rfl
  · intro k hk
    cases hk
    exact Nat.zero_lt_one
  · intro k hk
    cases hk
    exact Nat.zero_lt_one
  · intro _ _ sub channel hsub
    exact nomatch (hsubs sub).symm.trans hsub

/-- A dial: the tables are not of the new connection. -/
theorem Books.dial (h : Books s) (hphase : s.phase = .idle) :
    Books { s with
      client := s.client.setConn s.dials
      server := {}
      phase := .dialed
      dials := s.dials + 1
      clean := true } := by
  have hdead : ∀ k, some s.dials = some k → s.tableOf ≠ some k := by
    rintro k hk htable
    cases hk
    exact Nat.lt_irrefl _ (h.told.tableOf s.dials htable)
  have hidle : s.phase ≠ .cleared := by
    rw [hphase]
    exact nofun
  refine ⟨⟨h.numbered.counter, h.numbered.table, h.numbered.sole, h.numbered.subscribing,
    h.numbered.unsubscribing⟩, ⟨h.told.byID, ?_, fun _ _ => rfl, nofun, nofun, ?_, ?_, ?_, ?_, ?_⟩,
    ⟨fun _ _ _ => rfl, ?_, ?_⟩, ⟨nofun, nofun, fun _ => h.minded.pending hidle⟩⟩
  · exact fun ⟨k, hk, htable⟩ => absurd htable (hdead k hk)
  · intro k hk
    cases hk
    exact Nat.lt_succ_self _
  · exact fun k hk => Nat.lt_succ_of_lt (h.told.tableOf k hk)
  · exact fun ⟨k, hk, htable⟩ => absurd htable (hdead k hk)
  · exact fun _ hph => hph.elim nofun nofun
  · exact fun _ => ⟨rfl, fun _ ⟨k, hk, htable⟩ => hdead k hk htable, fun hne => absurd rfl hne⟩
  · exact fun ⟨k, hk, htable⟩ => absurd htable (hdead k hk)
  · exact fun ⟨k, hk, htable⟩ => absurd htable (hdead k hk)

theorem Books.storeConnected (h : Books s) (hphase : s.phase = .dialed) :
    Books { s with client := s.client.storeConnected, phase := .stored } := by
  have hne : s.phase ≠ .idle := by
    rw [hphase]
    exact nofun
  have hcleared : s.phase ≠ .cleared := by
    rw [hphase]
    exact nofun
  obtain ⟨hsome, hdead, -⟩ := h.told.stored hne
  refine ⟨⟨h.numbered.counter, h.numbered.table, h.numbered.sole, h.numbered.subscribing,
    h.numbered.unsubscribing⟩, ⟨h.told.byID, h.told.told, fun _ => h.told.untold hne, ?_, nofun,
    h.told.conn, h.told.tableOf, fun _ => rfl, fun _ hph => hph.elim nofun nofun,
    fun _ => ⟨hsome, fun _ => hdead hcleared, fun _ => rfl⟩⟩, ⟨h.held.away, h.held.held,
    h.held.sound⟩, ⟨nofun, nofun, fun _ => h.minded.pending hcleared⟩⟩
  exact fun hzero => absurd (h.told.undialed hzero).2.2.1 hne

/-- From here on the tables are of the connection, as empty as what the server has announced. -/
theorem Books.clearTables (h : Books s) (hphase : s.phase = .stored) :
    Books { s with
      client := s.client.clearTables
      phase := .cleared
      tableOf := s.client.conn } := by
  have hne : s.phase ≠ .idle := by
    rw [hphase]
    exact nofun
  obtain ⟨hsome, hdead, hon⟩ := h.told.stored hne
  have hdead := hdead (by rw [hphase]; exact nofun)
  have hon := hon (by rw [hphase]; exact nofun)
  obtain ⟨k, hk⟩ := Option.isSome_iff_exists.mp hsome
  have hsubs := h.held.away (by rw [hk]; exact nofun) fun heq => hdead ⟨k, hk, heq ▸ hk⟩
  refine ⟨⟨h.numbered.counter, nofun, nofun, ?_, ?_⟩, ⟨nofun, ?_, fun _ => h.told.untold hne, ?_,
    fun _ _ => rfl, h.told.conn, h.told.conn, fun _ => hon, fun _ _ => ⟨k, hk, hk⟩,
    fun _ => ⟨hsome, fun hn => absurd rfl hn, fun _ => hon⟩⟩,
    ⟨fun _ haway => absurd rfl haway, nofun, ?_⟩, ⟨nofun, nofun, fun hn => absurd rfl hn⟩⟩
  · intro t id channel n hj
    obtain ⟨hid, hle, -, -⟩ := h.numbered.subscribing t id channel n hj
    exact ⟨hid, hle, nofun, nofun⟩
  · intro t id n hj
    obtain ⟨hid, hle, -⟩ := h.numbered.unsubscribing t id n hj
    exact ⟨hid, hle, nofun⟩
  · exact fun _ t => h.told.untold hne t
  · exact fun hzero => absurd (h.told.undialed hzero).2.2.1 hne
  · exact fun _ _ sub channel hsub => nomatch (hsubs sub).symm.trans hsub

theorem mem_markPending {c : Client w} {t : w.Topic} (hwant : c.listeners t ≠ []) :
    t ∈ c.markPending.pendingTopics := by
  refine List.mem_append_left _ (List.mem_filter.mpr ⟨?_, ?_⟩)
  · refine AList.mem_keys.mp (AList.lookup_isSome.mp ?_)
    unfold Client.listeners at hwant
    cases hlook : c.subscribers.lookup t with
    | none =>
      rw [hlook] at hwant
      exact absurd rfl hwant
    | some entries => rfl
  · rw [Bool.not_eq_true', Bool.eq_false_iff]
    exact fun hempty => hwant (List.isEmpty_iff.mp hempty)

theorem Books.markPending (h : Books s) (hphase : s.phase = .cleared) :
    Books { s with client := s.client.markPending, phase := .idle, forgotten := [] } := by
  have hne : s.phase ≠ .idle := by
    rw [hphase]
    exact nofun
  have hnone {t : w.Topic} {x : ChannelState w} (hx : s.client.channels.lookup t = some x) :
      False := by
    rw [h.told.cleared hphase t] at hx
    cases hx
  refine ⟨⟨h.numbered.counter, h.numbered.table, h.numbered.sole, h.numbered.subscribing,
    h.numbered.unsubscribing⟩, ⟨h.told.byID, h.told.told, fun hn => absurd rfl hn, ?_, nofun,
    h.told.conn, h.told.tableOf, h.told.connected, fun hon _ => h.told.live hon (.inr hphase),
    fun hn => absurd rfl hn⟩, ⟨h.held.away, h.held.held, h.held.sound⟩,
    ⟨fun _ _ _ hx => (hnone hx).elim, fun _ _ _ hx => (hnone hx).elim, ?_⟩⟩
  · exact fun hzero => absurd (h.told.undialed hzero).2.2.1 hne
  · exact fun _ t hwant _ => .inl (mem_markPending hwant)

/-! ## Runs -/

theorem books_start : Books ({} : System w) :=
  ⟨⟨by show 0 < 4294967296; decide, nofun, nofun, nofun, nofun⟩,
    ⟨nofun, fun _ _ => rfl, fun hne => absurd rfl hne,
      fun _ => ⟨rfl, rfl, rfl, fun _ => rfl, fun _ => rfl, fun _ => rfl⟩, nofun, nofun, nofun,
      fun ⟨_, hk, _⟩ => (nomatch hk), nofun, fun hne => absurd rfl hne⟩,
    ⟨fun hne => absurd rfl hne, nofun, nofun⟩,
    ⟨nofun, nofun, fun _ _ hwant => absurd rfl hwant⟩⟩

theorem Books.run (h : Books s) {goroutine : Nat} {written : Bool} {past : List (Entry w)}
    (hp : Prudent ⟨.run goroutine written, s, s.step (.run goroutine written)⟩ past) :
    Books (s.step (.run goroutine written)) := by
  unfold System.step
  unfold Prudent at hp
  dsimp only at hp ⊢
  cases hjob : s.running[goroutine]? with
  | none => exact h
  | some job =>
    rw [hjob] at hp
    dsimp only at hp ⊢
    split
    · exact h
    · rename_i hfree
      have hothers : Books ({ s with running := job :: s.running.eraseIdx goroutine } : System w) :=
        h.reorder fun j => mem_eraseIdx hjob j
      cases job with
      | reconcile topic next =>
        refine Books.reconcile (s := { s with running := s.running.eraseIdx goroutine }) hothers
          ?_ hp
        refine Bool.eq_false_iff.mpr fun hlocked => hfree ?_
        obtain ⟨j, hj, hjt⟩ := List.any_eq_true.mp hlocked
        exact List.any_eq_true.mpr ⟨j, List.mem_of_mem_eraseIdx hj, hjt⟩
      | write topic msg next =>
        refine Books.write (s := { s with running := s.running.eraseIdx goroutine }) hothers ?_
        rintro id channel rfl hconn hwritten
        exact hp hconn hwritten
      | snapshot => exact hothers.snapshot
      | scan topics => exact hothers.scan

theorem Books.step (h : Books s) (e : Event w) {past : List (Entry w)}
    (hp : Prudent ⟨e, s, s.step e⟩ past) : Books (s.step e) := by
  cases e with
  | subscribe topic id callback intervalMs => exact h.start (subscribe_relists ..)
  | unsubscribe topic id => exact h.start (unsubscribe_relists ..)
  | advertise channels =>
    unfold System.step
    dsimp only
    split
    · rename_i hpump
      exact h.advertise hpump hp
    · exact h
  | unadvertise ids =>
    unfold System.step
    dsimp only
    split
    · rename_i hpump
      exact h.unadvertise hpump hp
    · exact h
  | messageData subID payload now_ =>
    unfold System.step
    dsimp only
    split
    · exact h.messageData subID payload now_
    · exact h
  | run goroutine written => exact h.run hp
  | lost =>
    unfold System.step
    dsimp only
    split
    · rename_i hpump
      exact h.lost hpump
    · exact h
  | connect =>
    unfold System.step
    dsimp only
    split
    · rename_i hzero
      exact h.connect hzero
    · exact h
  | dial =>
    unfold System.step
    dsimp only
    split
    · rename_i hidle
      exact h.dial hidle.1
    · exact h
  | reconnect =>
    unfold System.step
    dsimp only
    cases hphase : s.phase with
    | idle => exact h
    | dialed => exact h.storeConnected hphase
    | stored => exact h.clearTables hphase
    | cleared => exact h.markPending hphase

/-- In a prudent run the client is settled only where it has converged. -/
theorem settled_converged (es : List (Event w)) (hp : Always Prudent (history es)) :
    Always (fun e _ => Settled e.after → Converged e.after) (history es) := by
  refine History.run_lawful (fun s past e (h : Books s) hprudent => ?_) books_start es hp
  have h' := h.step e hprudent
  exact ⟨h', h'.converged⟩

/-! ## Where they do not -/

section Checked

def announceable (s : System w) (ch : ChannelDef w) : Bool :=
  (s.client.channels.entries.all fun e => e.2.id != ch.id || decide (e.1 = ch.topic)) &&
    ((s.client.channels.lookup ch.topic).all fun state =>
      state.subscriptionID == 0 || state.id == ch.id) &&
    s.forgotten.all fun topic => decide (ch.topic ≠ topic)

theorem announceable_iff {s : System w} {ch : ChannelDef w} :
    announceable s ch = true ↔ Announceable s ch := by
  unfold announceable
  rw [Bool.and_eq_true, Bool.and_eq_true, List.all_eq_true, Option.all_eq_true, List.all_eq_true]
  constructor
  · rintro ⟨⟨hsole, hkept⟩, hremembered⟩
    refine ⟨fun topic state hstate hid => ?_, fun state hstate hne => ?_, fun hmem =>
      of_decide_eq_true (hremembered ch.topic hmem) rfl⟩
    · have h := hsole ⟨topic, state⟩ (AList.mem_lookup_iff.mp hstate)
      simpa [hid] using h
    · have h := hkept state hstate
      simpa [hne] using h
  · intro h
    refine ⟨⟨fun e he => ?_, fun state hstate => ?_⟩, fun topic htopic => decide_eq_true ?_⟩
    · have hsole := h.sole e.1 e.2 (AList.mem_lookup_iff.mpr he)
      by_cases hid : e.2.id = ch.id
      · simp [hsole hid]
      · simp [hid]
    · have hkept := h.kept state hstate
      by_cases hzero : state.subscriptionID = 0
      · simp [hzero]
      · simp [hkept hzero]
    · rintro rfl
      exact h.remembered htopic

instance (s : System w) (ch : ChannelDef w) : Decidable (Announceable s ch) :=
  decidable_of_iff (announceable s ch = true) announceable_iff

instance (s : System w) (id : Nat × Bool) : Decidable (Removable s id) :=
  decidable_of_iff
    (∀ topic ∈ s.client.channelsByID id.1, ∃ state ∈ s.client.channels.lookup topic,
      state.id = id.1 ∧ (state.subscriptionID = 0 ∨ id.2 = true))
    Iff.rfl

instance Each.decide {α : Type} {ok : System w → α → Prop} {next : System w → α → System w}
    [∀ s a, Decidable (ok s a)] (s : System w) : (as : List α) → Decidable (Each ok next s as)
  | [] => isTrue trivial
  | a :: as =>
    have : Decidable (Each ok next (next s a) as) := Each.decide (next s a) as
    inferInstanceAs (Decidable (ok s a ∧ Each ok next (next s a) as))

instance (s : System w) (topic : w.Topic) (id channel : Nat) :
    Decidable (Stands s topic id channel) :=
  decidable_of_iff
    (s.tableOf = s.client.conn ∧ ∃ state ∈ s.client.channels.lookup topic,
      state.subscriptionID = id ∧ state.id = channel)
    Iff.rfl

instance (e : Entry w) (past : List (Entry w)) : Decidable (Prudent e past) :=
  match e with
  | ⟨.advertise channels, before, _⟩ =>
    inferInstanceAs (Decidable (Each Announceable System.advertiseOne before channels))
  | ⟨.unadvertise ids, before, _⟩ =>
    inferInstanceAs (Decidable (Each Removable System.unadvertiseOne before ids))
  | ⟨.run goroutine written, before, _⟩ =>
    match hjob : before.running[goroutine]? with
    | none => isTrue (by simp only [Prudent, hjob])
    | some .snapshot => isTrue (by simp only [Prudent, hjob])
    | some (.scan _) => isTrue (by simp only [Prudent, hjob])
    | some (.reconcile _ _) =>
      decidable_of_iff (before.client.subIDCounter + 1 < 4294967296)
        (by simp only [Prudent, hjob])
    | some (.write _ (.unsubscribe _) _) => isTrue (by simp only [Prudent, hjob])
    | some (.write topic (.subscribe id channel) _) =>
      decidable_of_iff (before.client.conn ≠ none → written = true → Stands before topic id channel)
        (by simp only [Prudent, hjob])
  | ⟨.subscribe .., _, _⟩ => isTrue trivial
  | ⟨.unsubscribe .., _, _⟩ => isTrue trivial
  | ⟨.messageData .., _, _⟩ => isTrue trivial
  | ⟨.lost, _, _⟩ => isTrue trivial
  | ⟨.connect, _, _⟩ => isTrue trivial
  | ⟨.dial, _, _⟩ => isTrue trivial
  | ⟨.reconnect, _, _⟩ => isTrue trivial

end Checked

/-- Everything is a number. -/
def plain : Wire :=
  { Topic := Nat, ListenerId := Nat, Callback := Nat, SchemaText := Nat, Schema := Nat
    Payload := Nat, Json := Nat, parseSchema := some, emptySchema := 0
    deserialize := fun schema payload => some (schema + payload) }

def listen (topic : Nat) : Event plain := .subscribe topic (1 : Nat) (2 : Nat) 0

def announce (id topic schema : Nat) : Event plain := .advertise [⟨id, topic, schema⟩]

/-- The one goroutine there is goes on. -/
def goOn (steps : Nat) : List (Event plain) := List.replicate steps (.run 0 true)

/-- A topic is listened to, announced and subscribed. -/
def subscribed : List (Event plain) := .connect :: listen 0 :: goOn 2 ++ announce 7 0 3 :: goOn 5

/-- A topic that goes and comes back is not subscribed again. -/
theorem returned_topic_unsubscribed :
    ¬∀ (w : Wire) (es : List (Event w)),
      Always (fun e _ => Settled e.after → Converged e.after) (history es) := by
  intro h
  have hlast := (h plain (subscribed ++ .unadvertise [(7, true)] :: announce 8 0 3 :: goOn 2)).1
    ⟨rfl, rfl, rfl, rfl⟩
  obtain ⟨sub, hsub⟩ := hlast.wanted (0 : Nat) 8 (3 : Nat) rfl nofun
  -- The only subscription there was is to the old channel.
  have hheld : (Function.update (fun _ => none) 1 (some 7) sub : Option Nat).filter
      (fun channel => !(true && decide (channel = 7))) = some 8 := (hsub sub).mpr rfl
  obtain ⟨hheld, -⟩ := Option.filter_eq_some_iff.mp hheld
  by_cases heq : sub = 1
  · rw [heq, Function.update_self] at hheld
    cases hheld
  · rw [Function.update_of_ne heq] at hheld
    cases hheld

/-- A subscribe between the connection and the reset of the tables is to a channel of the connection
    before. -/
example : ¬Always (fun e _ => Settled e.after → Converged e.after)
    (history (.connect :: announce 7 0 3 :: goOn 2 ++ .lost :: .dial :: .reconnect :: listen 0 ::
      goOn 3 ++ [.reconnect, .reconnect])) := by
  intro h
  obtain ⟨topic, schema, hnone, -⟩ := (h.1 ⟨rfl, rfl, rfl, rfl⟩).unwanted 1 7 rfl
  cases hnone

/-- With the connection lost between, the topic is subscribed again. -/
def reconnected : List (Event plain) :=
  subscribed ++ .lost :: .dial :: .reconnect :: .reconnect :: .reconnect :: announce 8 0 3 :: goOn 5

theorem settled_converged_reconnected :
    ∃ e past, history reconnected = e :: past ∧ Settled e.after ∧ Converged e.after := by
  have h := settled_converged reconnected (by decide +kernel)
  exact ⟨_, _, rfl, ⟨rfl, rfl, rfl, rfl⟩, h.1 ⟨rfl, rfl, rfl, rfl⟩⟩

end Foxglove
end Mowgli
