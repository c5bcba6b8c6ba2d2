import Sproyt.Chat.History
import Sproyt.Chat.World
import Sproyt.Lib.Script

/-!
# Recovering from a lag

A notice of a lag carries the number of the message seen last, and the client loads what
follows. It misses nothing if every message up to that number has come to it: that is so as
long as the messages of a channel are published in the order of their numbers and no
subscription falls behind a second time.
-/

namespace Sproyt

open List Broadcast EventRing

/-! ### What the client has -/

def ServerEvent.event? : ServerEvent → Option ChatEvent
  | chat e => some e
  | lagged .. => none

def ServerEvent.isNotice : ServerEvent → Bool
  | chat _ => false
  | lagged .. => true

def received (outbound : List ServerEvent) : List ChatEvent := outbound.filterMap (·.event?)

/-- No lag has been noticed. -/
def Unlagged (outbound : List ServerEvent) : Prop := ∀ x ∈ outbound, x.isNotice = false

instance (outbound : List ServerEvent) : Decidable (Unlagged outbound) :=
  inferInstanceAs (Decidable (∀ x ∈ outbound, x.isNotice = false))

def firstSequence (history : List ChatMessage) : Nat := (history.head?.map (·.sequence)).getD 0

/-- Every message of the channel from the start of the history up to the number `x` is in the
history or among the events. -/
structure Covered (db : Db) (c : ChannelId) (history : List ChatMessage) (x : Nat)
    (events : List ChatEvent) : Prop where
  anchored : x = 0 ∨ ∃ r ∈ db.messages, r.channelId = c ∧ r.sequence = x
  covers : ∀ m ∈ db.messages, m.channelId = c → firstSequence history ≤ m.sequence →
    m.sequence ≤ x → (∃ h ∈ history, h.id = m.id) ∨
      ∃ y, .messageAccepted y ∈ events ∧ y.id = m.id

variable {r : ChatMessage} {t : Task} {a : ChatActor} {outbound : List ServerEvent}
    {presence : Except RepositoryError Unit} {w : ChatWorld}

section

variable {connection : ConnectionId}

variable {host : Host} {distributed : Bool} {db db' : Db} {c : ChannelId}
  {history : List ChatMessage} {x : Nat} {events events' : List ChatEvent} {ring : Events}
  {known : List MessageId} {s s' : Subscription} {m : ChatMessage} {w w' : ChatWorld}
  {l : Broadcast} {e : ChatEvent} {u : UserId}

theorem Covered.grows (h : Covered db c history x events) (hgrows : Grows db db')
    (hdb' : Numbered db') : Covered db' c history x events := by
  refine ⟨h.anchored.imp_right ?_, fun m hm hc hfirst hx => ?_⟩
  · rintro ⟨r, hr, hc, hsequence⟩
    obtain ⟨r', hr', hstamp⟩ := hgrows.keeps r hr
    exact ⟨r', hr', (channelId_of_stamp hstamp).trans hc,
      (sequence_of_stamp hstamp).trans hsequence⟩
  · rcases hgrows.new m hm with ⟨r, hr, hstamp⟩ | hnew
    · rw [← sequence_of_stamp hstamp] at hfirst hx
      rw [← id_of_stamp hstamp]
      exact h.covers r hr ((channelId_of_stamp hstamp).trans hc) hfirst hx
    · obtain ⟨n, -, hbound⟩ := hdb'.sequence_mem c
      have hpos := (hbound m hm hc).1
      rcases h.anchored with hzero | ⟨r, hr, hrc, hrx⟩
      · omega
      · have hlt := hnew r hr (hrc.trans hc.symm)
        omega

theorem Covered.mono (h : Covered db c history x events) (hsub : ∀ e ∈ events, e ∈ events') :
    Covered db c history x events' :=
  ⟨h.anchored, fun m hm hc hfirst hx => (h.covers m hm hc hfirst hx).imp_right
    fun ⟨y, hy, hid⟩ => ⟨y, hsub _ hy, hid⟩⟩

/-! ### The invariant -/

/-- What a subscription that has missed nothing has still to receive: each message comes after
those with lower numbers, and all messages that the actor has published are among them or have
come. -/
structure Coming (db : Db) (known : List MessageId) (ring : Events) (s : Subscription) : Prop where
  covered : ∀ before y after, ring.unread s.next = before ++ .messageAccepted y :: after →
    Covered db s.channel s.history y.sequence
      (received s.outbound ++ before ++ [.messageAccepted y])
  told : ∀ m ∈ db.messages, m.channelId = s.channel → m.id ∈ known →
    lastSequence s.history < m.sequence →
      ∃ y, .messageAccepted y ∈ received s.outbound ++ ring.unread s.next ∧ y.id = m.id

structure SubscriptionSafe (db : Db) (known : List MessageId) (ring : Events)
    (s : Subscription) : Prop where
  base : Covered db s.channel s.history (lastSequence s.history) []
  next_le : s.next ≤ ring.tail
  notices : ∀ before after lastSeen latest skipped,
    s.outbound = before ++ .lagged lastSeen latest skipped :: after →
      Covered db s.channel s.history lastSeen (received before)
  once : s.lagging ≠ none → Unlagged s.outbound
  seen : Unlagged s.outbound → Covered db s.channel s.history s.lastSeen (received s.outbound)
  coming : Unlagged s.outbound → s.lagging = none → ring.head ≤ s.next → Coming db known ring s

/-- What holds of the command that the actor is at. -/
def TaskSafe (db : Db) (known : List MessageId) : Option Task → Prop
  | some (.accept m) => ∃ r ∈ db.messages, r.stamp = m.stamp
  | some (.publish _ e) => e.accepted = none
  | some (.register c _ history) => Covered db c history (lastSequence history) [] ∧
      ∀ m ∈ db.messages, m.channelId = c → m.id ∈ known → m.sequence ≤ lastSequence history
  | _ => True

structure ChatSafe (w : ChatWorld) : Prop where
  orderly : Orderly w.db
  known : ∀ id ∈ w.known, ∃ m ∈ w.db.messages, m.id = id
  task : TaskSafe w.db w.known w.task
  subscriptions : ∀ s ∈ w.subscriptions,
    SubscriptionSafe w.db w.known (w.actor.channel s.channel).events s

/-! ### The store grows -/

theorem Grows.old (h : Grows db db') (hdb' : UniqueMessages db') (hm : m ∈ db'.messages)
    (hid : ∃ r ∈ db.messages, r.id = m.id) : ∃ r ∈ db.messages, r.stamp = m.stamp := by
  obtain ⟨r, hr, hrid⟩ := hid
  obtain ⟨r', hr', hstamp⟩ := h.keeps r hr
  have heq : r' = m := Table.eq_of_key_eq hdb' hr' hm ((id_of_stamp hstamp).trans hrid)
  exact ⟨r, hr, heq ▸ hstamp.symm⟩

theorem Coming.grows (h : Coming db known ring s) (hgrows : Grows db db') (hdb' : Orderly db')
    (hknown : ∀ id ∈ known, ∃ m ∈ db.messages, m.id = id) : Coming db' known ring s := by
  refine ⟨fun before y after hunread =>
    (h.covered before y after hunread).grows hgrows hdb'.numbered, fun m hm hc hid hlast => ?_⟩
  obtain ⟨r, hr, hstamp⟩ := hgrows.old hdb'.unique hm (hknown m.id hid)
  rw [← sequence_of_stamp hstamp] at hlast
  rw [← id_of_stamp hstamp] at hid ⊢
  exact h.told r hr ((channelId_of_stamp hstamp).trans hc) hid hlast

theorem SubscriptionSafe.grows (h : SubscriptionSafe db known ring s) (hgrows : Grows db db')
    (hdb' : Orderly db') (hknown : ∀ id ∈ known, ∃ m ∈ db.messages, m.id = id) :
    SubscriptionSafe db' known ring s where
  base := h.base.grows hgrows hdb'.numbered
  next_le := h.next_le
  notices before after x latest skipped hout :=
    (h.notices before after x latest skipped hout).grows hgrows hdb'.numbered
  once := h.once
  seen hun := (h.seen hun).grows hgrows hdb'.numbered
  coming hun hlag hkept := (h.coming hun hlag hkept).grows hgrows hdb' hknown

theorem TaskSafe.grows {t : Option Task} (h : TaskSafe db known t) (hgrows : Grows db db')
    (hdb' : Orderly db') (hknown : ∀ id ∈ known, ∃ m ∈ db.messages, m.id = id) :
    TaskSafe db' known t := by
  rcases t with - | t
  · trivial
  · cases t with
    | publish => exact h
    | leave => trivial
    | accept m =>
      obtain ⟨r, hr, hstamp⟩ := h
      obtain ⟨r', hr', hstamp'⟩ := hgrows.keeps r hr
      exact ⟨r', hr', hstamp'.trans hstamp⟩
    | register c u history =>
      refine ⟨h.1.grows hgrows hdb'.numbered, fun m hm hc hid => ?_⟩
      obtain ⟨r, hr, hstamp⟩ := hgrows.old hdb'.unique hm (hknown m.id hid)
      rw [← sequence_of_stamp hstamp]
      exact h.2 r hr ((channelId_of_stamp hstamp).trans hc) (id_of_stamp hstamp ▸ hid)

theorem ChatSafe.grows (h : ChatSafe w) (hgrows : Grows w.db db') (hdb' : Orderly db') :
    ChatSafe { w with db := db' } where
  orderly := hdb'
  known id hid := by
    obtain ⟨m, hm, rfl⟩ := h.known id hid
    obtain ⟨m', hm', hstamp⟩ := hgrows.keeps m hm
    exact ⟨m', hm', id_of_stamp hstamp⟩
  task := h.task.grows hgrows hdb' h.known
  subscriptions s hs := (h.subscriptions s hs).grows hgrows hdb' h.known

/-! ### The actor publishes -/

theorem Coming.send_quiet (h : Coming db known ring s) (hnext : s.next ≤ ring.tail)
    (hkept : (ring.send e).head ≤ s.next) (he : e.accepted = none) :
    Coming db known (ring.send e) s := by
  have hunread := unread_send hnext hkept
  refine ⟨fun before y after hy => ?_, fun m hm hc hid hlast => ?_⟩
  · rw [hunread] at hy
    rcases concat_eq_append_cons hy with ⟨rest, -, hold⟩ | ⟨-, -, rfl⟩
    · exact h.covered before y rest hold
    · cases he
  · obtain ⟨y, hy, hyid⟩ := h.told m hm hc hid hlast
    rw [hunread, ← append_assoc]
    exact ⟨y, mem_append_left _ hy, hyid⟩

/-- A message that is published after all those with lower numbers. -/
theorem Coming.send_message (h : Coming db known ring s)
    (hbase : Covered db s.channel s.history (lastSequence s.history) [])
    (hnext : s.next ≤ ring.tail) (hkept : (ring.send (.messageAccepted m)).head ≤ s.next)
    (hdb : Orderly db) (hr : r ∈ db.messages) (hstamp : r.stamp = m.stamp)
    (hc : m.channelId = s.channel)
    (horder : ∀ x ∈ db.messages, x.channelId = m.channelId → x.sequence < m.sequence →
      x.id ∈ known) : Coming db (m.id :: known) (ring.send (.messageAccepted m)) s := by
  have hunread := unread_send hnext hkept
  have hrc : r.channelId = s.channel := (channelId_of_stamp hstamp).trans hc
  refine ⟨fun before y after hy => ?_, fun x hx hxc hid hlast => ?_⟩
  · rw [hunread] at hy
    rcases concat_eq_append_cons hy with ⟨rest, -, hold⟩ | ⟨-, rfl, heq⟩
    · exact h.covered before y rest hold
    · obtain rfl := ChatEvent.messageAccepted.inj heq
      refine ⟨.inr ⟨r, hr, hrc, sequence_of_stamp hstamp⟩, fun x hx hxc hfirst hle => ?_⟩
      -- in the history, published before, or this message
      by_cases hhistory : x.sequence ≤ lastSequence s.history
      · exact .inl ((hbase.covers x hx hxc hfirst hhistory).resolve_right
          fun ⟨_, hy, _⟩ => absurd hy not_mem_nil)
      · rcases Nat.lt_or_eq_of_le hle with hlt | heq
        · have hknown := horder x hx (hxc.trans hc.symm) hlt
          obtain ⟨y, hy, hyid⟩ := h.told x hx hxc hknown (Nat.lt_of_not_le hhistory)
          exact .inr ⟨y, mem_append_left _ hy, hyid⟩
        · have hxr : x = r := hdb.numbered.eq_of_sequence hx hr (hxc.trans hrc.symm)
            (heq.trans (sequence_of_stamp hstamp).symm)
          refine .inr ⟨m, mem_append_right _ mem_cons_self, ?_⟩
          rw [hxr, id_of_stamp hstamp]
  · rw [hunread, ← append_assoc]
    rcases mem_cons.1 hid with hid | hid
    · exact ⟨m, mem_append_right _ mem_cons_self, hid.symm⟩
    · obtain ⟨y, hy, hyid⟩ := h.told x hx hxc hid hlast
      exact ⟨y, mem_append_left _ hy, hyid⟩

theorem Coming.learn (h : Coming db known ring s) (hdb : Orderly db) (hr : r ∈ db.messages)
    (hstamp : r.stamp = m.stamp) (hc : m.channelId ≠ s.channel) :
    Coming db (m.id :: known) ring s := by
  refine ⟨h.covered, fun x hx hxc hid hlast => ?_⟩
  rcases mem_cons.1 hid with hid | hid
  · have hxr : x = r := Table.eq_of_key_eq hdb.unique hx hr (hid.trans (id_of_stamp hstamp).symm)
    exact absurd ((channelId_of_stamp hstamp).symm.trans (hxr ▸ hxc)) hc
  · exact h.told x hx hxc hid hlast

/-- What holds of a broadcast: an event of no message, or a stored message to its channel. -/
def BroadcastSafe (db : Db) : Broadcast → Prop
  | none => True
  | some (c, e) => e.accepted = none ∨
      ∃ m, e = .messageAccepted m ∧ c = m.channelId ∧ ∃ r ∈ db.messages, r.stamp = m.stamp

theorem TaskSafe.emits (h : TaskSafe db known (some t)) :
    BroadcastSafe db (t.emits distributed a) := by
  cases t with
  | publish c e => exact .inl h
  | accept m =>
    simp only [Task.emits]
    split
    · trivial
    · exact .inr ⟨m, rfl, rfl, h⟩
  | register | leave =>
    simp only [Task.emits]
    split
    · exact .inl rfl
    · trivial

/-- Each message is published after all messages of its channel with lower numbers. -/
def InOrder (w : ChatWorld) (l : Broadcast) : Prop :=
  ∀ m ∈ l.message, ∀ x ∈ w.db.messages, x.channelId = m.channelId → x.sequence < m.sequence →
    x.id ∈ w.known

instance (w : ChatWorld) (l : Broadcast) : Decidable (InOrder w l) :=
  inferInstanceAs (Decidable (∀ m ∈ l.message, ∀ x ∈ w.db.messages,
    x.channelId = m.channelId → x.sequence < m.sequence → x.id ∈ w.known))

def Broadcast.learnt (l : Broadcast) (known : List MessageId) : List MessageId :=
  (l.message.map (·.id)).toList ++ known

theorem Coming.broadcast (h : Coming db known ring s)
    (hbase : Covered db s.channel s.history (lastSequence s.history) [])
    (hnext : s.next ≤ ring.tail) (hkept : (l.to s.channel ring).head ≤ s.next)
    (hdb : Orderly db) (hl : BroadcastSafe db l)
    (horder : ∀ m ∈ l.message, ∀ x ∈ db.messages, x.channelId = m.channelId →
      x.sequence < m.sequence → x.id ∈ known) :
    Coming db (l.learnt known) (l.to s.channel ring) s := by
  rcases l with - | ⟨c, e⟩
  · exact h
  · rcases hl with he | ⟨m, rfl, rfl, r, hr, hstamp⟩
    · rw [show Broadcast.learnt (some (c, e)) known = known by
        simp [Broadcast.learnt, Broadcast.message, he]]
      simp only [Broadcast.to] at hkept ⊢
      split
      · next hc =>
        rw [if_pos hc] at hkept
        exact h.send_quiet hnext hkept he
      · exact h
    · show Coming db (m.id :: known) (Broadcast.to s.channel ring _) s
      simp only [Broadcast.to] at hkept ⊢
      split
      · next hc =>
        rw [if_pos hc] at hkept
        exact h.send_message hbase hnext hkept hdb hr hstamp hc.symm (horder m rfl)
      · next hc => exact h.learn hdb hr hstamp (Ne.symm hc)

theorem Broadcast.head_le (l : Broadcast) :
    ring.head ≤ (l.to c ring).head ∧ ring.tail ≤ (l.to c ring).tail := by
  rcases l with - | ⟨c', e⟩
  · exact ⟨le_rfl, le_rfl⟩
  · simp only [Broadcast.to]
    split
    · exact ⟨ring.head_le_send e, Nat.le_succ _⟩
    · exact ⟨le_rfl, le_rfl⟩

theorem SubscriptionSafe.broadcast (h : SubscriptionSafe db known ring s) (hdb : Orderly db)
    (hl : BroadcastSafe db l)
    (horder : ∀ m ∈ l.message, ∀ x ∈ db.messages, x.channelId = m.channelId →
      x.sequence < m.sequence → x.id ∈ known) :
    SubscriptionSafe db (l.learnt known) (l.to s.channel ring) s where
  base := h.base
  next_le := h.next_le.trans (l.head_le).2
  notices := h.notices
  once := h.once
  seen := h.seen
  coming hun hlag hkept :=
    (h.coming hun hlag ((l.head_le).1.trans hkept)).broadcast h.base h.next_le
      hkept hdb hl horder

/-! ### The actor asks the store -/

/-- What holds once the store has answered. -/
structure Asked (db : Db) (known : List MessageId) (answer : Option Task × Db) : Prop where
  grows : Grows db answer.2
  orderly : Orderly answer.2
  task : TaskSafe answer.2 known answer.1

theorem asked_of_read (hdb : Orderly db) {t : Option Task} (h : TaskSafe db known t) :
    Asked db known (t, db) :=
  ⟨.refl db, hdb, h⟩

theorem answered_safe {α : Type} {t : Sql α} {f : α → Task} (hdb : Orderly db)
    (h : ∀ a db', t.run db = .ok (a, db') →
      (Grows db db' ∧ Orderly db') ∧ TaskSafe db' known (some (f a))) :
    Asked db known (answered t db f) := by
  rcases Txn.commit_cases t db with ⟨a, db', hrun, hcommit⟩ | ⟨e, -, hcommit⟩
  · rw [answered, hcommit]
    obtain ⟨⟨hgrows, horderly⟩, htask⟩ := h a db' hrun
    exact ⟨hgrows, horderly, htask⟩
  · rw [answered, hcommit]
    exact asked_of_read hdb trivial

theorem sendBody_safe {command : SendMessage} {requestId : Option String} {env : SendEnv}
    (hdb : Orderly db) (h : (sendBody host command requestId env).run db = .ok (m, db')) :
    (Grows db db' ∧ Orderly db') ∧ ∃ r ∈ db'.messages, r.stamp = m.stamp := by
  rcases requestId with - | id
  · refine ⟨(appendMessage_effect h).grows hdb, m, ?_, rfl⟩
    rw [(appendMessage_ok h).toPosted.messages]
    exact mem_append_right _ mem_cons_self
  · refine ⟨(appendMessageIdempotent_effect h).grows hdb, ?_⟩
    rcases (appendMessageIdempotent_ok h).2 with ⟨-, db₁, happ, rfl⟩ | ⟨rfl, row, hrow, -, rfl⟩
    · refine ⟨m, ?_, rfl⟩
      show m ∈ db₁.messages
      rw [happ.toPosted.messages]
      exact mem_append_right _ mem_cons_self
    · obtain ⟨id, -, hfound⟩ := Option.bind_eq_some_iff.1 hrow
      exact ⟨row, mem_of_find?_eq_some hfound, rfl⟩

/-- A history that is loaded has all messages of the channel from its first one on. -/
theorem recent_covers (hdb : Numbered db) :
    TaskSafe db known (some (.register c u (Paging.lastRows 50 (db.ordered c)))) := by
  obtain ⟨n, hsequences, -⟩ := hdb.numbers c
  have hascending : Paging.Ascending (·.sequence) (db.ordered c) := by
    apply ordered_ascending
    rw [hsequences]
    exact nodup_range'
  rcases Option.eq_none_or_eq_some (db.ordered c).getLast? with hnone | ⟨y, hy⟩
  · have hnil := getLast?_eq_none_iff.1 hnone
    have hempty : ∀ m ∈ db.messages, m.channelId ≠ c := by
      intro m hm hc
      have hmem := mem_ordered.2 ⟨hm, hc⟩
      rw [hnil] at hmem
      exact absurd hmem not_mem_nil
    refine ⟨⟨.inl ?_, fun m hm hc => absurd hc (hempty m hm)⟩,
      fun m hm hc => absurd hc (hempty m hm)⟩
    rw [hnil]
    rfl
  · have hlast : lastSequence (Paging.lastRows 50 (db.ordered c)) = y.sequence := by
      rw [lastSequence, Paging.getLast?_lastRows (by omega), hy]
      rfl
    have hle : ∀ m ∈ db.messages, m.channelId = c → m.sequence ≤ y.sequence :=
      fun m hm hc => hascending.le_last hy (mem_ordered.2 ⟨hm, hc⟩)
    obtain ⟨hymem, hyc⟩ := mem_ordered.1 (mem_of_getLast? hy)
    refine ⟨⟨.inr ⟨y, hymem, hyc, hlast.symm⟩, fun m hm hc hfirst _ => .inl ⟨m, ?_, rfl⟩⟩,
      fun m hm hc _ => hlast ▸ hle m hm hc⟩
    have hsome : (Paging.lastRows 50 (db.ordered c)).head? ≠ none := by
      rw [Ne, head?_eq_none_iff]
      intro hnil
      rw [Paging.lastRows_eq_nil (by omega) hnil] at hy
      cases hy
    obtain ⟨x, hx⟩ := Option.ne_none_iff_exists'.1 hsome
    rw [firstSequence, hx] at hfirst
    exact (hascending.mem_lastRows hx (mem_ordered.2 ⟨hm, hc⟩)).2 hfirst

theorem ask_safe (hdb : Orderly db) (command : Command) (env : SendEnv) :
    Asked db known (command.ask host env db) := by
  cases command with
  | channelCreated source channel createdBy => exact asked_of_read hdb rfl
  | leave | expirePresence => exact asked_of_read hdb trivial
  | subscribe c u =>
    simp only [Command.ask]
    by_cases hmember : (db.channelRole? c u).isSome
    · rw [recent_eq hmember]
      exact asked_of_read hdb (recent_covers hdb.numbered)
    · have hnone : (db.channelRole? c u).isNone = true := by
        simpa using hmember
      simp only [Db.loadRecentMessages, if_pos hnone]
      exact asked_of_read hdb trivial
  | sendMessage command requestId =>
    exact answered_safe hdb fun m db' h => sendBody_safe hdb h
  | toggleReaction actor message emoji =>
    exact answered_safe hdb fun change db' h =>
      ⟨grows_of_ledger (toggleMessageReaction_frame (fun _ _ => rfl) actor message emoji h) hdb,
        rfl⟩
  | editMessage command =>
    refine answered_safe hdb fun m db' h => ⟨?_, rfl⟩
    obtain ⟨row, hrewritten, -⟩ := editMessage_ok h
    exact hrewritten.grows hdb
  | deleteMessage command =>
    refine answered_safe hdb fun m db' h => ⟨?_, rfl⟩
    obtain ⟨row, hrewritten, -⟩ := deleteMessage_ok h
    exact hrewritten.grows hdb
  | externalMessage id =>
    refine asked_of_read hdb ?_
    rcases Option.eq_none_or_eq_some (db.message? id) with hnone | ⟨m, hm⟩
    · rw [hnone]
      trivial
    · rw [hm]
      exact ⟨m, mem_of_find?_eq_some hm, rfl⟩
  | externalReaction event | externalUpdate event | externalPresence event =>
    cases event <;> exact asked_of_read hdb (by trivial)
  | externalChannel event =>
    cases event with
    | channelCreated channel createdBy source =>
      rcases source with - | source <;> exact asked_of_read hdb (by trivial)
    | _ => exact asked_of_read hdb (by trivial)

/-! ### A subscription receives -/

theorem received_concat : received (outbound ++ [.chat e]) = received outbound ++ [e] := by
  simp [received, ServerEvent.event?]

theorem unlagged_concat {x : ServerEvent} :
    Unlagged (outbound ++ [x]) ↔ Unlagged outbound ∧ x.isNotice = false := by
  simp [Unlagged, or_imp, forall_and]

theorem receive_cases (h : s.receive ring = some s') :
    s.lagging = none ∧
      ((∃ e, ring.recv s.next = (.event e, s.next + 1) ∧
          s' = { s with
            next := s.next + 1
            lastSeen := (e.accepted.map (·.sequence)).getD s.lastSeen
            outbound := s.outbound ++ [.chat e] }) ∨
        ∃ skipped, s.next < ring.head ∧
          s' = { s with next := ring.head, lagging := some skipped }) := by
  unfold Subscription.receive at h
  split at h
  · next e next hlag hrecv =>
    obtain ⟨-, -, rfl, -⟩ := recv_event hrecv
    exact ⟨hlag, .inl ⟨e, hrecv, (Option.some.inj h).symm⟩⟩
  · next skipped next hlag hrecv =>
    obtain ⟨hlt, rfl, -⟩ := recv_lagged hrecv
    exact ⟨hlag, .inr ⟨skipped, hlt, (Option.some.inj h).symm⟩⟩
  · cases h

/-- The first event that is unread comes to the client. -/
theorem Coming.receive (h : Coming db known ring s)
    (hunread : ring.unread s.next = e :: ring.unread (s.next + 1)) :
    Coming db known ring { s with
      next := s.next + 1
      lastSeen := x
      outbound := s.outbound ++ [.chat e] } := by
  refine ⟨fun before y after hy => ?_, fun m hm hc hid hlast => ?_⟩
  · have hold := h.covered (e :: before) y after (by rw [hunread, hy]; rfl)
    rw [received_concat, append_assoc (received s.outbound)]
    exact hold
  · have hold := h.told m hm hc hid hlast
    rw [received_concat, append_assoc, singleton_append, ← hunread]
    exact hold

theorem SubscriptionSafe.receive (h : SubscriptionSafe db known ring s)
    (hcaught : ¬Unlagged s.outbound → ring.head ≤ s.next) (hs : s.receive ring = some s') :
    SubscriptionSafe db known ring s' := by
  obtain ⟨hlag, ⟨e, hrecv, rfl⟩ | ⟨skipped, hmissed, rfl⟩⟩ := receive_cases hs
  · obtain ⟨hkept, hlt, -, hunread⟩ := recv_event hrecv
    refine ⟨h.base, hlt, fun before after y latest skipped hout => ?_, fun hne => absurd hlag hne,
      fun hun => ?_, fun hun _ _ => ?_⟩
    · rcases concat_eq_append_cons hout with ⟨rest, -, hold⟩ | ⟨-, -, heq⟩
      · exact h.notices before rest y latest skipped hold
      · cases heq
    · have hcoming := h.coming (unlagged_concat.1 hun).1 hlag hkept
      rw [received_concat]
      rcases Option.eq_none_or_eq_some e.accepted with hnone | ⟨y, hy⟩
      · rw [hnone]
        exact (h.seen (unlagged_concat.1 hun).1).mono fun _ => mem_append_left _
      · obtain rfl : e = .messageAccepted y := by
          cases e <;> cases hy
          rfl
        have hcovered := hcoming.covered [] y _ hunread
        rwa [append_nil] at hcovered
    · exact (h.coming (unlagged_concat.1 hun).1 hlag hkept).receive hunread
  · have hun : Unlagged s.outbound := by
      by_contra hlagged
      exact absurd (hcaught hlagged) (Nat.not_le_of_lt hmissed)
    refine ⟨h.base, ?_, h.notices, fun _ => hun, h.seen, fun _ hnone => nomatch hnone⟩
    show ring.head ≤ ring.tail
    have hlength := ring.head_add_length
    omega

theorem SubscriptionSafe.notify (h : SubscriptionSafe db known ring s) {latest : Nat}
    (hs : s.notify latest = some s') : SubscriptionSafe db known ring s' := by
  obtain ⟨skipped, hlag, rfl⟩ := Option.map_eq_some_iff.1 hs
  have hun : Unlagged s.outbound := h.once (by rw [hlag]; exact Option.some_ne_none _)
  have hnotice : ¬Unlagged (s.outbound ++ [.lagged s.lastSeen latest skipped]) := by
    intro hun'
    cases (unlagged_concat.1 hun').2
  refine ⟨h.base, h.next_le, fun before after y latest' skipped' hout => ?_,
    fun hne => absurd rfl hne, fun hun' => absurd hun' hnotice,
    fun hun' => absurd hun' hnotice⟩
  rcases concat_eq_append_cons hout with ⟨rest, -, hold⟩ | ⟨-, rfl, heq⟩
  · exact h.notices before rest y latest' skipped' hold
  · cases heq
    exact h.seen hun

/-! ### Steps and runs -/

/-- The condition on a step: what is published comes in the order of the numbers, and no
subscription that has given notice of a lag has fallen behind again. -/
structure Prompt (w : ChatWorld) (l : Broadcast) : Prop where
  inOrder : InOrder w l
  caughtUp : ∀ s ∈ w.subscriptions, ¬Unlagged s.outbound →
    (w.actor.channel s.channel).events.head ≤ s.next

theorem run_subscription (h : s ∈ (t.run distributed presence connection a).2) :
    ∃ c u history, t = .register c u history ∧
      s = ⟨connection, c, history, (a.channel c).events.tail, lastSequence history, none, []⟩ := by
  cases t with
  | publish | accept | leave => cases h
  | register c u history =>
    refine ⟨c, u, history, rfl, ?_⟩
    simp only [Task.run, ChatActor.register] at h
    split at h
    · split at h
      · exact (Option.some.inj h).symm
      · cases h
    · split at h <;> exact (Option.some.inj h).symm

theorem TaskSafe.subscription
    (h : TaskSafe db known (some (.register c u history))) : SubscriptionSafe db known ring
      ⟨connection, c, history, ring.tail, lastSequence history, none, []⟩ := by
  refine ⟨h.1, Nat.le_refl _, fun before after y latest skipped hout => ?_,
    fun hne => absurd rfl hne, fun _ => h.1, fun _ _ _ => ⟨fun before y after hy => ?_,
      fun m hm hc hid hlast => absurd hlast (Nat.not_lt_of_le (h.2 m hm hc hid))⟩⟩
  · exact absurd hout.symm (append_ne_nil_of_right_ne_nil _ (cons_ne_nil _ _))
  · rw [unread_tail] at hy
    exact absurd hy.symm (append_ne_nil_of_right_ne_nil _ (cons_ne_nil _ _))

theorem BroadcastSafe.stored (h : BroadcastSafe db l) (hmem : m ∈ l.message) :
    ∃ r ∈ db.messages, r.id = m.id := by
  rcases l with - | ⟨c, e⟩
  · cases hmem
  · rcases h with he | ⟨y, rfl, -, r, hr, hstamp⟩
    · rw [show message (some (c, e)) = none from he] at hmem
      cases hmem
    · obtain rfl := Option.some.inj hmem
      exact ⟨r, hr, id_of_stamp hstamp⟩

theorem ChatSafe.act (h : ChatSafe w) (htask : w.task = some t)
    (horder : InOrder w (t.emits distributed w.actor)) :
    ChatSafe ⟨w.db, (t.run distributed presence connection w.actor).1, none,
      (t.run distributed presence connection w.actor).2.toList ++ w.subscriptions,
      (t.emits distributed w.actor).learnt w.known⟩ := by
  have hsafe : TaskSafe w.db w.known (some t) := htask ▸ h.task
  refine ⟨h.orderly, fun id hid => ?_, trivial, fun s hs => ?_⟩
  · rcases mem_append.1 hid with hid | hid
    · obtain ⟨m, hm, rfl⟩ := Option.map_eq_some_iff.1 (Option.mem_toList.1 hid)
      exact BroadcastSafe.stored hsafe.emits hm
    · exact h.known id hid
  · have hbefore : SubscriptionSafe w.db w.known (w.actor.channel s.channel).events s := by
      rcases mem_append.1 hs with hs | hs
      · obtain ⟨c, u, history, rfl, rfl⟩ := run_subscription (Option.mem_toList.1 hs)
        exact hsafe.subscription
      · exact h.subscriptions s hs
    have hevents := @Task.run_events distributed presence connection t w.actor s.channel
    show SubscriptionSafe _ _ ((t.run _ _ _ w.actor).1.channel s.channel).events s
    rw [hevents]
    exact hbefore.broadcast h.orderly hsafe.emits horder

theorem ChatSafe.moved {actor : ChatActor} {task : Option Task} {before after : List Subscription}
    (h : ChatSafe ⟨db, actor, task, before ++ s :: after, known⟩)
    (hchannel : s'.channel = s.channel)
    (hsafe : SubscriptionSafe db known (actor.channel s.channel).events s') :
    ChatSafe ⟨db, actor, task, before ++ s' :: after, known⟩ := by
  refine ⟨h.orderly, h.known, h.task, fun x hx => ?_⟩
  rcases mem_append.1 hx with hx | hx
  · exact h.subscriptions x (mem_append_left _ hx)
  · rcases mem_cons.1 hx with rfl | hx
    · exact hchannel ▸ hsafe
    · exact h.subscriptions x (mem_append_right _ (mem_cons_of_mem _ hx))

theorem ChatSafe.step (h : ChatSafe w) (hprompt : Prompt w l)
    (hstep : ChatStep host distributed w l w') : ChatSafe w' := by
  cases hstep with
  | write writer =>
    obtain ⟨hgrows, horderly⟩ := writer.grows h.orderly
    exact h.grows hgrows horderly
  | message call =>
    obtain ⟨hgrows, horderly⟩ := call.grows h.orderly
    exact h.grows hgrows horderly
  | ask command env hidle =>
    obtain ⟨hgrows, horderly, htask⟩ : Asked w.db w.known _ := ask_safe h.orderly command env
    obtain ⟨-, hknown, -, hsubscriptions⟩ := h.grows hgrows horderly
    exact ⟨horderly, hknown, htask, hsubscriptions⟩
  | act t presence connection htask => exact h.act htask hprompt.inOrder
  | receive hs =>
    refine h.moved ?_ ((h.subscriptions _ mem_append_cons_self).receive
      (hprompt.caughtUp _ mem_append_cons_self) hs)
    obtain ⟨-, ⟨e, -, rfl⟩ | ⟨skipped, -, rfl⟩⟩ := receive_cases hs <;> rfl
  | notify hs =>
    refine h.moved ?_ ((h.subscriptions _ mem_append_cons_self).notify hs)
    obtain ⟨skipped, -, rfl⟩ := Option.map_eq_some_iff.1 hs
    rfl
  | @close db actor task known before after s =>
    exact ⟨h.orderly, h.known, h.task, fun x hx => h.subscriptions x (mem_middle_of_mem hx)⟩

theorem chatSafe_start (hdb : Orderly db) : ChatSafe (.start db) :=
  ⟨hdb, fun _ hid => mem_map.1 hid, trivial, fun _ hs => absurd hs not_mem_nil⟩

/-- Under the condition, a notice of a lag names a number up to which the client has every
message from the start of its history on. -/
theorem lag_notice_is_sound (hnumbered : Numbered db) (hunique : UniqueMessages db)
    {trace : List Broadcast}
    (h : Run (Guarded Prompt (ChatStep host distributed)) (.start db) trace w)
    (hs : s ∈ w.subscriptions) {before after : List ServerEvent} {lastSeen latest skipped : Nat}
    (hnotice : s.outbound = before ++ .lagged lastSeen latest skipped :: after) :
    ∀ m ∈ w.db.messages, m.channelId = s.channel → firstSequence s.history ≤ m.sequence →
      m.sequence ≤ lastSeen → (∃ x ∈ s.history, x.id = m.id) ∨
        ∃ y, .chat (.messageAccepted y) ∈ before ∧ y.id = m.id := by
  have hsafe : ChatSafe w := h.invariant (fun _ _ _ hw hstep => hw.step hstep.1 hstep.2)
    (chatSafe_start ⟨hnumbered, hunique⟩)
  intro m hm hc hfirst hle
  refine (((hsafe.subscriptions s hs).notices before after lastSeen latest skipped
    hnotice).covers m hm hc hfirst hle).imp_right ?_
  rintro ⟨y, hy, hid⟩
  obtain ⟨x, hx, hevent⟩ := mem_filterMap.1 hy
  cases x with
  | chat e =>
    obtain rfl := Option.some.inj hevent
    exact ⟨y, hx, hid⟩
  | lagged => cases hevent

end

/-! ### Scripted runs -/

/-- The next step of a script; the subscription meant is the first one. -/
inductive ChatCue
  | message (call : MessageCall)
  | ask (command : Command)
  | act (connection : ConnectionId)
  | receive
  | notify

def ChatWorld.play (host : Host) (distributed : Bool) (w : ChatWorld) :
    ChatCue → Option (Broadcast × ChatWorld)
  | .message call => some (none, { w with db := ((call.body host).commit w.db).2 })
  | .ask command =>
    let asked := command.ask host (.quiet 0 0) w.db
    if w.task.isNone then some (none, { w with db := asked.2, task := asked.1 }) else none
  | .act connection => w.task.map fun t =>
    let done := t.run distributed (.ok ()) connection w.actor
    let emitted := t.emits distributed w.actor
    (emitted, ⟨w.db, done.1, none, done.2.toList ++ w.subscriptions,
      (emitted.message.map (·.id)).toList ++ w.known⟩)
  | .receive => do
    let s ← w.subscriptions.head?
    let s' ← s.receive (w.actor.channel s.channel).events
    some (none, { w with subscriptions := s' :: w.subscriptions.tail })
  | .notify => do
    let s ← w.subscriptions.head?
    let s' ← s.notify (w.db.latestSequence s.channel)
    some (none, { w with subscriptions := s' :: w.subscriptions.tail })

theorem ChatWorld.play_step (w : ChatWorld) (cue : ChatCue) (l : Broadcast) (w' : ChatWorld)
    (h : w.play host distributed cue = some (l, w')) : ChatStep host distributed w l w' := by
  obtain ⟨db, actor, task, subscriptions, known⟩ := w
  cases cue with
  | message call =>
    cases h
    exact .message call
  | ask command =>
    cases task with
    | none =>
      cases h
      exact .ask command (.quiet 0 0) rfl
    | some t => cases h
  | act connection =>
    cases task with
    | none => cases h
    | some t =>
      cases h
      exact .act t (.ok ()) connection rfl
  | receive | notify =>
    cases subscriptions with
    | nil => cases h
    | cons s after =>
      obtain ⟨s', hs', heq⟩ := Option.bind_eq_some_iff.1 h
      cases heq
      first
      | exact @ChatStep.receive host distributed _ _ _ _ [] after s s' hs'
      | exact @ChatStep.notify host distributed _ _ _ _ [] after s s' hs'

instance (w : ChatWorld) (l : Broadcast) : Decidable (Prompt w l) :=
  decidable_of_iff (InOrder w l ∧ ∀ s ∈ w.subscriptions, ¬Unlagged s.outbound →
    (w.actor.channel s.channel).events.head ≤ s.next) ⟨fun h => ⟨h.1, h.2⟩, fun h => ⟨h.1, h.2⟩⟩

deriving instance DecidableEq for MessageReactionChange, ChatEvent, ServerEvent

namespace Sample

theorem inOrder_of_quiet {l : Broadcast} (h : l.message = none) : InOrder w l := by
  intro m hm
  rw [h] at hm
  cases hm

def reaction : MessageReactionChange := ⟨⟨20⟩, room, bob, "👍", true, 1⟩

def said : SendMessage := ⟨alice, room, none, hello⟩

def first : ChatMessage :=
  ⟨⟨20⟩, room, none, alice, aliceName, hello, 1, 0, none, none⟩

def second : ChatMessage :=
  ⟨⟨21⟩, room, none, alice, aliceName, hello, 2, 0, none, none⟩

def listener : Subscription := ⟨⟨7⟩, room, [], 0, 0, none, []⟩

def listened : ChatActor := (ChatActor.new.register true (.ok ()) ⟨7⟩ room alice []).1

/-- A member subscribes, two messages are sent through another replica, and their announcements
arrive in the given order. The subscription receives the first of them, and then falls behind. -/
def lagging (ids : MessageId × MessageId) : List ChatCue :=
  [.ask (.subscribe room alice), .act ⟨7⟩, .message (.append said (.quiet 20 0)),
    .message (.append said (.quiet 21 0)), .ask (.externalMessage ids.1), .act ⟨0⟩, .receive,
    .ask (.externalMessage ids.2), .act ⟨0⟩] ++
  (replicate 256 [.ask (.externalReaction (.messageReactionChanged reaction)), .act ⟨0⟩]).flatten ++
  [.receive, .notify]

def Queued (outbound : List ServerEvent) (w : ChatWorld) : Prop :=
  w.subscriptions.map (fun s => (s.channel, s.history, s.outbound)) = [(room, [], outbound)] ∧
    first ∈ w.db.messages

instance (outbound : List ServerEvent) : DecidablePred (Queued outbound) :=
  fun _ => inferInstanceAs (Decidable (_ ∧ _))

theorem Queued.subscription (h : Queued outbound w) :
    first ∈ w.db.messages ∧
      ∃ s ∈ w.subscriptions, s.channel = room ∧ s.history = [] ∧ s.outbound = outbound := by
  obtain ⟨s, hs, heq⟩ := mem_map.1 (h.1 ▸ mem_singleton_self _ : (room, [], outbound) ∈ _)
  exact ⟨h.2, s, hs, by simpa using heq⟩

end Sample

open Sample in
theorem lag_notice_is_sound_in_order :
    ∃ trace w s latest skipped,
      Run (Guarded Prompt (ChatStep host true)) (.start chat) trace w ∧ s ∈ w.subscriptions ∧
        s.outbound = [.chat (.messageAccepted first), .lagged 1 latest skipped] ∧
        ∃ y, .chat (.messageAccepted y) ∈ [ServerEvent.chat (.messageAccepted first)] ∧
          y.id = first.id := by
  obtain ⟨trace, w, hrun, hqueued⟩ := Run.exists_of_script
    (@ChatWorld.play_step host true) (fun w l => of_decide_eq_true (p := Prompt w l))
    (P := fun r => Queued [.chat (.messageAccepted first), .lagged 1 2 1] r.2) (s := .start chat)
    (lagging (⟨20⟩, ⟨21⟩)) (by decide +kernel)
  obtain ⟨hstored, s, hs, hchannel, hhistory, hout⟩ := hqueued.subscription
  refine ⟨trace, w, s, 2, 1, hrun, hs, hout, ?_⟩
  refine (lag_notice_is_sound numbered_chat nodup_nil hrun hs hout first hstored hchannel.symm ?_
    (Nat.le_refl 1)).resolve_left ?_
  · rw [hhistory]
    exact Nat.zero_le _
  · rw [hhistory]
    rintro ⟨x, hx, -⟩
    exact absurd hx not_mem_nil

open Sample in
/-- The announcements of two messages arrive in the other order, and the subscription falls
behind after it has received the second one: the notice names number 2, and the first message
has not come to the client. -/
theorem lag_notice_skips_a_message :
    ∃ trace w s latest skipped, Run (ChatStep host true) (.start chat) trace w ∧
      s ∈ w.subscriptions ∧ s.history = [] ∧
        s.outbound = [.chat (.messageAccepted second), .lagged 2 latest skipped] ∧
        ∃ m ∈ w.db.messages, m.channelId = s.channel ∧ firstSequence s.history ≤ m.sequence ∧
          m.sequence ≤ 2 ∧ m.id ≠ second.id := by
  obtain ⟨trace, w, hrun, hqueued⟩ := Run.exists_of_script
    (@ChatWorld.play_step host true) (fun _ _ _ => trivial : ∀ _ _, true = true → True)
    (P := fun r => Queued [.chat (.messageAccepted second), .lagged 2 2 1] r.2) (s := .start chat)
    (lagging (⟨21⟩, ⟨20⟩)) (by decide +kernel)
  obtain ⟨hstored, s, hs, hchannel, hhistory, hout⟩ := hqueued.subscription
  refine ⟨trace, w, s, 2, 1, hrun.of_guarded, hs, hhistory, hout, first, hstored, hchannel.symm, ?_,
    by decide, by decide⟩
  rw [hhistory]
  exact Nat.zero_le _

end Sproyt
