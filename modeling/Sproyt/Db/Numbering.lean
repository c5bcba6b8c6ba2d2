import Sproyt.Db.Integrations
import Sproyt.Db.PersonalLinks
import Sproyt.Db.WorkItems
import Sproyt.Lib.Run

/-!
# Message numbers

Six transactions take the next number of a channel, each with exits that fail after the
counter was bumped. Whatever their order, the messages of a channel are numbered 1, 2, 3 and
so on as they were committed, and the counter holds the number that follows.
-/

namespace Sproyt

open List Txn Db

variable {command : SendMessage} {env : SendEnv} {r : DeliveryResult} {owner : UserId}
    {o : Option MessageId} {item : Uuid} {task : HeartTask}

section

variable {host : Host} {db db₁ db' : Db} {m : ChatMessage} {c : ChannelId}

def Db.sequences (db : Db) (c : ChannelId) : List Nat :=
  (db.messages.filter fun r => r.channelId = c).map (·.sequence)

def Db.counters (db : Db) (c : ChannelId) : List Nat :=
  (db.channelSequences.filter fun r => r.channelId = c).map (·.nextSequence)

/-- Each channel's messages carry the numbers from 1 to `n` and its counter holds `n + 1`.
Messages are in channels that exist, so that a new channel starts out empty. -/
structure Numbered (db : Db) : Prop where
  numbers : ∀ c, ∃ n, db.sequences c = List.range' 1 n ∧ ∀ k ∈ db.counters c, k = n + 1
  placed : ∀ r ∈ db.messages, db.hasChannel r.channelId = true

def SameNumbering (c : ChannelId) (db db' : Db) : Prop :=
  db'.sequences c = db.sequences c ∧ db'.counters c = db.counters c

/-! ### Posting a message -/

section

variable (h : Posted db m db')

include h

theorem Posted.sequences (c : ChannelId) :
    db'.sequences c = db.sequences c ++ if m.channelId = c then [m.sequence] else [] := by
  unfold Db.sequences
  rw [h.messages, filter_append, map_append]
  by_cases hc : m.channelId = c
  · simp [hc]
  · simp [hc]

theorem Posted.counters (c : ChannelId) :
    db'.counters c =
      (db.counters c).map fun k => if m.channelId = c then k + 1 else k := by
  unfold Db.counters
  rw [h.channelSequences, bumpRows_filter, bumpRows, map_map, map_map]
  apply map_congr_left
  intro r hr
  have hrow : r.channelId = c := of_decide_eq_true (mem_filter.1 hr).2
  by_cases hc : m.channelId = c
  · simp [hrow, hc]
  · simp [hrow, hc, Ne.symm hc]

theorem Posted.sequence_mem : m.sequence ∈ db.counters m.channelId := by
  obtain ⟨row, hfind, hrow⟩ := Option.map_eq_some_iff.1 h.sequence
  have hmem := mem_of_find?_eq_some hfind
  have hchannel := find?_some hfind
  exact mem_map.2 ⟨row, mem_filter.2 ⟨hmem, hchannel⟩, hrow⟩

theorem Posted.numbered (hdb : Numbered db) : Numbered db' := by
  constructor
  · intro c
    obtain ⟨n, hn, hk⟩ := hdb.numbers c
    rw [h.sequences, h.counters]
    by_cases hc : m.channelId = c
    · subst hc
      have hnext : m.sequence = n + 1 := hk _ h.sequence_mem
      refine ⟨n + 1, ?_, ?_⟩
      · rw [hn, if_pos rfl, hnext, range'_1_concat, Nat.add_comm 1 n]
      · intro k hmem
        obtain ⟨k', hk', rfl⟩ := mem_map.1 hmem
        have := hk k' hk'
        simp only [if_true]
        omega
    · refine ⟨n, ?_, ?_⟩
      · rw [hn, if_neg hc, append_nil]
      · simpa [hc] using hk
  · intro r hr
    rw [h.messages] at hr
    have hplaced : db.hasChannel r.channelId = true := by
      rcases mem_append.1 hr with hr | hr
      · exact hdb.placed r hr
      · rw [mem_singleton.1 hr]
        exact h.placed
    simpa only [hasChannel, h.channels] using hplaced

theorem Posted.others (hc : m.channelId ≠ c) : SameNumbering c db db' := by
  constructor
  · rw [h.sequences, if_neg hc, append_nil]
  · simp [h.counters, hc]

end

/-! ### What comes before the message -/

def Db.readings (db : Db) : List MembershipRow × List ThreadReadMarkerRow :=
  (db.channelMemberships, db.threadReadMarkers)

def Db.core (db : Db) :
    (List Channel × List SequenceRow × List ChatMessage) ×
      List MembershipRow × List ThreadReadMarkerRow :=
  (db.ledger, db.readings)

/-- What a transaction does to the numbering before it posts: nothing, or it opens a new
channel with its counter at 1 and a member who has read nothing. -/
inductive Prepared (db db₁ : Db) : Prop
  | same (h : db₁.core = db.core)
  | opened (ch : Channel) (owner : UserId) (hnew : db.hasChannel ch.id = false)
      (h : db₁.core = ((db.channels ++ [ch], db.channelSequences ++ [⟨ch.id, 1⟩], db.messages),
        db.channelMemberships ++ [⟨ch.id, owner, .member, 0⟩], db.threadReadMarkers))

section

variable (h : Prepared db db₁)

include h

theorem Prepared.ledger : db₁.ledger = db.ledger ∨
    ∃ ch : Channel, db.hasChannel ch.id = false ∧ db₁.ledger =
      (db.channels ++ [ch], db.channelSequences ++ [⟨ch.id, 1⟩], db.messages) := by
  cases h with
  | same h => exact .inl (congrArg Prod.fst h)
  | opened ch owner hnew h => exact .inr ⟨ch, hnew, congrArg Prod.fst h⟩

theorem Prepared.messages : db₁.messages = db.messages := by
  rcases h.ledger with h | ⟨ch, hnew, h⟩
  · exact congrArg (·.2.2) h
  · exact congrArg (·.2.2) h

theorem Prepared.counters_of_mem {k : Nat} (hk : k ∈ db₁.counters c) :
    k ∈ db.counters c ∨ k = 1 := by
  obtain ⟨row, hrow, rfl⟩ := mem_map.1 hk
  obtain ⟨hrow, hid⟩ := mem_filter.1 hrow
  rcases h.ledger with h | ⟨ch, hnew, h⟩
  · obtain ⟨-, hs, -⟩ := by simpa only [Db.ledger, Prod.mk.injEq] using h
    rw [hs] at hrow
    exact .inl (mem_map.2 ⟨row, mem_filter.2 ⟨hrow, hid⟩, rfl⟩)
  · obtain ⟨-, hs, -⟩ := by simpa only [Db.ledger, Prod.mk.injEq] using h
    rw [hs] at hrow
    rcases mem_append.1 hrow with hrow | hrow
    · exact .inl (mem_map.2 ⟨row, mem_filter.2 ⟨hrow, hid⟩, rfl⟩)
    · exact .inr (by rw [mem_singleton.1 hrow])

theorem Prepared.others (hc : db.hasChannel c = true) : SameNumbering c db db₁ := by
  refine ⟨by rw [Db.sequences, h.messages, Db.sequences], ?_⟩
  rcases h.ledger with h | ⟨ch, hnew, h⟩
  · obtain ⟨-, hs, -⟩ := by simpa only [Db.ledger, Prod.mk.injEq] using h
    rw [Db.counters, hs, Db.counters]
  · obtain ⟨-, hs, -⟩ := by simpa only [Db.ledger, Prod.mk.injEq] using h
    have hne : ch.id ≠ c := by
      rintro rfl
      rw [hc] at hnew
      cases hnew
    rw [Db.counters, hs, Db.counters]
    simp [hne]

theorem Prepared.hasChannel (hc : db.hasChannel c = true) : db₁.hasChannel c = true := by
  unfold Db.hasChannel at hc ⊢
  rcases h.ledger with h | ⟨ch, hnew, h⟩
  · rwa [show db₁.channels = db.channels from congrArg Prod.fst h]
  · rw [show db₁.channels = db.channels ++ [ch] from congrArg Prod.fst h, any_append, hc,
      Bool.true_or]

end

theorem Numbered.sequences_nil (hdb : Numbered db) (hc : db.hasChannel c = false) :
    db.sequences c = [] := by
  rw [sequences, map_eq_nil_iff, filter_eq_nil_iff]
  intro r hr heq
  have hplaced := hdb.placed r hr
  rw [of_decide_eq_true heq, hc] at hplaced
  cases hplaced

theorem Prepared.numbered (h : Prepared db db₁) (hdb : Numbered db) : Numbered db₁ := by
  constructor
  · intro c
    obtain ⟨n, hn, hk⟩ := hdb.numbers c
    by_cases hc : db.hasChannel c = true
    · obtain ⟨hseq, hcount⟩ := h.others hc
      exact ⟨n, hseq.trans hn, by rwa [hcount]⟩
    · have hnone := hdb.sequences_nil (Bool.eq_false_iff.2 hc)
      have hzero : n = 0 := by
        rw [hnone] at hn
        cases n with
        | zero => rfl
        | succ n => simp [range'_succ] at hn
      subst hzero
      refine ⟨0, by rwa [sequences, h.messages], ?_⟩
      intro k hmem
      rcases h.counters_of_mem hmem with hmem | rfl
      · exact hk k hmem
      · rfl
  · intro r hr
    rw [h.messages] at hr
    exact h.hasChannel (hdb.placed r hr)

/-! ### The transactions -/

inductive Effect (db : Db) (target : Option ChannelId) (db' : Db) : Prop
  | quiet (h : Prepared db db')
  | posted {db₁ : Db} {m : ChatMessage} (hpre : Prepared db db₁)
      (htarget : target = some m.channelId) (h : Posted db₁ m db')
      (hreadings : db'.readings = db₁.readings)

theorem Effect.numbered {target : Option ChannelId} (h : Effect db target db')
    (hdb : Numbered db) : Numbered db' := by
  cases h with
  | quiet h => exact h.numbered hdb
  | posted hpre _ h => exact h.numbered (hpre.numbered hdb)

theorem Effect.extends {target : Option ChannelId} (h : Effect db target db') :
    db.messages <+: db'.messages := by
  cases h with
  | quiet h => exact h.messages ▸ prefix_rfl
  | posted hpre _ h =>
    rw [h.messages, hpre.messages]
    exact prefix_append _ _

theorem Effect.others {target : Option ChannelId} (h : Effect db target db')
    (hc : db.hasChannel c = true) (hne : target ≠ some c) : SameNumbering c db db' := by
  cases h with
  | quiet h => exact h.others hc
  | posted hpre htarget h =>
    have hother : _ ≠ c := fun heq => hne (htarget.trans (congrArg some heq))
    obtain ⟨hs₁, hk₁⟩ := hpre.others hc
    obtain ⟨hs₂, hk₂⟩ := h.others hother
    exact ⟨hs₂.trans hs₁, hk₂.trans hk₁⟩

theorem Appended.readings (h : Appended host command env db m db') :
    db'.readings = db.readings := by
  rw [Db.readings, h.rest]
  rfl

theorem appendMessage_effect (h : (appendMessage host command env).run db = .ok (m, db')) :
    Effect db (some command.channelId) db' := by
  have happ := appendMessage_ok h
  exact .posted (.same rfl) (by rw [happ.message]) happ.toPosted happ.readings

theorem appendMessageIdempotent_effect {requestId : String}
    (h : (appendMessageIdempotent host command requestId env).run db = .ok (m, db')) :
    Effect db (some command.channelId) db' := by
  rcases (appendMessageIdempotent_ok h).2 with ⟨-, db₁, happ, rfl⟩ | ⟨rfl, -⟩
  · exact .posted (.same rfl) (by rw [happ.message]) (happ.toPosted.of_ledger rfl rfl) happ.readings
  · exact .quiet (.same rfl)

theorem duplicateOf_frame {γ : Type} {view : Db → γ} {id : MessageId} :
    Frame view (duplicateOf id) :=
  .look fun _ => .bind .demand fun _ => .pure

theorem registerOccurrence_frame {alert : IncomingAlert} : Frame core (registerOccurrence alert) :=
  Sql.insertOrIgnore_frame fun _ => rfl

theorem deliverAlert_effect {alert : IncomingAlert} {env : DeliveryEnv}
    (h : (deliverAlert alert env).run db = .ok (r, db')) :
    Effect db (db.integrationChannels alert.agentId alert.credentialId env.checkedAt).head?
      db' := by
  simp only [deliverAlert, Sql.answers, answers] at h
  obtain ⟨c, _, hchannel, _, db₁, hregister, row, -, h⟩ := h
  obtain ⟨hc, rfl⟩ := integrationChannel_ok.1 hchannel
  rw [hc]
  have hcore : db₁.core = db.core := registerOccurrence_frame hregister
  unfold answerAlert at h
  cases hrow : row.messageFor alert.state with
  | some id =>
    rw [hrow] at h
    exact .quiet (.same ((duplicateOf_frame h).trans hcore))
  | none =>
    simp only [hrow] at h
    by_cases hold : alert.state = .firing ∧ row.state = .resolved
    · rw [if_pos hold, pure_ok] at h
      exact .quiet (.same (h.2 ▸ hcore))
    · rw [if_neg hold] at h
      simp only [postAlert, settleOccurrence, answers] at h
      obtain ⟨m, db₂, hinsert, -, rfl⟩ := h
      obtain ⟨hposted, hm, hrest⟩ := insertIntegrationMessage_ok hinsert
      exact .posted (.same hcore) (by rw [hm]; rfl) (hposted.of_ledger rfl rfl) (by rw [hrest]; rfl)

theorem registerReport_frame {report : IncomingReport} : Frame core (registerReport report) :=
  Sql.insertOrIgnore_frame fun _ => rfl

theorem deliverReport_effect {report : IncomingReport} {env : DeliveryEnv}
    (h : (deliverReport report env).run db = .ok (r, db')) :
    Effect db (db.integrationChannels report.agentId report.credentialId env.checkedAt).head?
      db' := by
  simp only [deliverReport, Sql.answers, answers] at h
  obtain ⟨c, _, hchannel, _, db₁, hregister, row, -, h⟩ := h
  obtain ⟨hc, rfl⟩ := integrationChannel_ok.1 hchannel
  rw [hc]
  have hcore : db₁.core = db.core := registerReport_frame hregister
  unfold answerReport at h
  cases hrow : row.messageId with
  | some id =>
    rw [hrow] at h
    exact .quiet (.same ((duplicateOf_frame h).trans hcore))
  | none =>
    simp only [hrow, settleReport, answers] at h
    obtain ⟨m, db₂, hinsert, -, rfl⟩ := h
    obtain ⟨hposted, hm, hrest⟩ := insertIntegrationMessage_ok hinsert
    exact .posted (.same hcore) (by rw [hm]; rfl) (hposted.of_ledger rfl rfl) (by rw [hrest]; rfl)

def Db.personalTarget (db : Db) (owner : UserId) (id : ChannelId) : ChannelId :=
  ((db.personalChannel? owner).map (·.id)).getD id

theorem openPersonalSpace_ok {id : ChannelId} {ch : Channel}
    (h : (openPersonalSpace owner id).run db = .ok (ch, db')) :
    ch.id = db.personalTarget owner id ∧ Prepared db db' := by
  simp only [openPersonalSpace, answers] at h
  replace h := h.2
  unfold personalTarget
  split at h
  · next hknown =>
    obtain ⟨rfl, rfl⟩ := pure_ok.1 h
    exact ⟨by rw [hknown]; rfl, .same rfl⟩
  · next hnone =>
    simp only [createPersonalSpace, Sql.insertNumberedChannel, Sql.insertChannel,
      Sql.insertChannelSequence, Sql.insertMembership, Sql.insertPersonalSpace, Sql.answers,
      answers] at h
    obtain ⟨hfree, -, -, -, -, -, -, -, rfl, rfl⟩ := h
    refine ⟨by rw [hnone]; rfl, .opened (personalChannel owner id) owner ?_ rfl⟩
    rw [hasChannel, any_eq_false]
    intro r hr heq
    have hnone := any_eq_false.1 hfree r hr
    simp [of_decide_eq_true heq] at hnone

theorem logLink_ok {source : ChatMessage} {env : LinkEnv}
    (h : (logLink owner c source env).run db = .ok (o, db')) :
    ∃ m, m.channelId = c ∧ Posted db m db' ∧ db'.readings = db.readings := by
  simp only [logLink, Sql.bumpSequence, senderName, Sql.insertMessage, Sql.answers, answers] at h
  obtain ⟨body, -, sequence, hseq, row, -, hfree, hresolves, -, rfl⟩ := h
  have hplaced : db.hasChannel c = true := by
    simp only [Bool.and_eq_true] at hresolves
    exact hresolves.1.1
  refine ⟨⟨env.messageId, c, none, owner, row.displayName, body, sequence, env.now, none, none⟩,
    rfl, posted_of_insert hseq hfree hplaced (fun p hp => by cases hp) ?_, ?_⟩ <;>
  · unfold upsertLink
    split <;> rfl

theorem savePersonalLink_effect {source : MessageId} {env : LinkEnv}
    (h : (savePersonalLink owner source env).run db = .ok (o, db')) :
    Effect db (some (db.personalTarget owner env.channelId)) db' := by
  simp only [savePersonalLink, answers] at h
  obtain ⟨ch, db₁, hopen, found, -, h⟩ := h
  obtain ⟨hch, hpre⟩ := openPersonalSpace_ok hopen
  split at h
  · exact .quiet ((pure_ok.1 h).2 ▸ hpre)
  · obtain ⟨m, hm, hposted, hreadings⟩ := logLink_ok h
    exact .posted hpre (by rw [hm, hch]) hposted hreadings

variable {row : WorkItemTaskRow}

theorem updateTask_frame {version : DefinitionVersion} {env : ProjectEnv} :
    Frame core (updateTask item task version row env) := by
  refine .check <| .check <| ?_
  refine .bind .ofExcept fun _ => .bind (.write fun _ => rfl) fun _ => ?_
  exact .bind (.write fun _ => rfl) fun _ => .pure

variable {bot : UserId}

theorem insertHeartUser_frame : Frame core (insertHeartUser bot) :=
  .mapError (Sql.insertOrIgnore_frame fun _ => rfl)

theorem insertHeartProfile_frame {item : WorkItemRow} : Frame core (insertHeartProfile bot item) :=
  .mapError (Sql.insertOrIgnore_frame fun _ => rfl)

theorem insertTask_frame : Frame core (insertTask row) :=
  .mapError (Sql.insert_frame fun _ => rfl)

theorem storeTask_ok (h : (storeTask item task m).run db = .ok (o, db')) :
    (db.messages.any fun r =>
      r.id = m.id ∨ (r.channelId = m.channelId ∧ r.sequence = m.sequence)) = false ∧
      db.hasChannel m.channelId = true ∧
      db'.core = ((db.channels, db.channelSequences, db.messages ++ [m]), db.readings) := by
  simp only [storeTask, Sql.insertMessage, enqueueMessage, Sql.answers, answers] at h
  obtain ⟨hfree, hresolves, status, -, _, db₁, htask, -, rfl⟩ := h
  simp only [Bool.and_eq_true] at hresolves
  exact ⟨hfree, hresolves.1.1, insertTask_frame htask⟩

theorem postTask_ok {item : WorkItemRow} {env : ProjectEnv}
    (h : (postTask host item c task env).run db = .ok (o, db')) :
    ∃ m, m.channelId = c ∧ Posted db m db' ∧ db'.readings = db.readings := by
  simp only [postTask, Sql.bumpSequence, Sql.answers, answers] at h
  obtain ⟨-, -, sequence, hseq, _, db₁, huser, _, db₂, hprofile, body, -, hstore⟩ := h
  -- the bot's rows come between the counter and the message
  have hbot : db₂.core =
      ((db.channels, bumpRows c db.channelSequences, db.messages), db.readings) := by
    have hp : db₂.core = db₁.core := insertHeartProfile_frame hprofile
    exact hp.trans (insertHeartUser_frame huser)
  obtain ⟨⟨hc, hs, hm⟩, hr⟩ := by simpa only [core, ledger, Prod.mk.injEq] using hbot
  obtain ⟨hfree, hplaced, hcore⟩ := storeTask_ok hstore
  rw [hm] at hfree
  rw [hc, hs, hm, hr] at hcore
  rw [hasChannel, hc] at hplaced
  exact ⟨_, rfl, posted_of_insert hseq hfree hplaced (fun p hp => by cases hp)
    (congrArg Prod.fst hcore), congrArg Prod.snd hcore⟩

theorem projectTask_effect {token : Uuid} {env : ProjectEnv}
    (h : (projectTask host item token c task env).run db = .ok (o, db')) :
    Effect db (some c) db' := by
  simp only [projectTask, Sql.answers, answers] at h
  obtain ⟨-, row, -, h⟩ := h
  split at h
  · exact .quiet (.same (updateTask_frame h))
  · obtain ⟨m, hm, hposted, hreadings⟩ := postTask_ok h
    exact .posted (.same rfl) (by rw [hm]) hposted hreadings

/-! ### Runs -/

inductive Writer
  | append (command : SendMessage) (env : SendEnv)
  | appendIdempotent (command : SendMessage) (requestId : String) (env : SendEnv)
  | deliverAlert (alert : IncomingAlert) (env : DeliveryEnv)
  | deliverReport (report : IncomingReport) (env : DeliveryEnv)
  | saveLink (owner : UserId) (source : MessageId) (env : LinkEnv)
  | projectTask (item token : Uuid) (channel : ChannelId) (task : HeartTask) (env : ProjectEnv)

def Writer.body (host : Host) : Writer → Sql Unit
  | append command env => do let _ ← appendMessage host command env
  | appendIdempotent command requestId env => do
    let _ ← appendMessageIdempotent host command requestId env
  | deliverAlert alert env => do let _ ← Sproyt.deliverAlert alert env
  | deliverReport report env => do let _ ← Sproyt.deliverReport report env
  | saveLink owner source env => do let _ ← savePersonalLink owner source env
  | projectTask item token channel task env => do
    let _ ← Sproyt.projectTask host item token channel task env

def Writer.target (db : Db) : Writer → Option ChannelId
  | append command _ => some command.channelId
  | appendIdempotent command _ _ => some command.channelId
  | deliverAlert alert env =>
    (db.integrationChannels alert.agentId alert.credentialId env.checkedAt).head?
  | deliverReport report env =>
    (db.integrationChannels report.agentId report.credentialId env.checkedAt).head?
  | saveLink owner _ env => some (db.personalTarget owner env.channelId)
  | projectTask _ _ channel _ _ => some channel

theorem Writer.effect {w : Writer} {u : Unit} (h : (w.body host).run db = .ok (u, db')) :
    Effect db (w.target db) db' := by
  cases w with
  | append command env =>
    obtain ⟨m, h, -⟩ := bind_pure_ok.1 h
    exact appendMessage_effect h
  | appendIdempotent command requestId env =>
    obtain ⟨m, h, -⟩ := bind_pure_ok.1 h
    exact appendMessageIdempotent_effect h
  | deliverAlert alert env =>
    obtain ⟨r, h, -⟩ := bind_pure_ok.1 h
    exact deliverAlert_effect h
  | deliverReport report env =>
    obtain ⟨r, h, -⟩ := bind_pure_ok.1 h
    exact deliverReport_effect h
  | saveLink owner source env =>
    obtain ⟨o, h, -⟩ := bind_pure_ok.1 h
    exact savePersonalLink_effect h
  | projectTask item token channel task env =>
    obtain ⟨o, h, -⟩ := bind_pure_ok.1 h
    exact projectTask_effect h

inductive WriterStep (host : Host) (db : Db) : Writer × Except RepositoryError Unit → Db → Prop
  | finish (w : Writer) {r : Except RepositoryError Unit} {db' : Db}
      (h : (w.body host).commit db = (r, db')) : WriterStep host db (w, r) db'
  | abort (w : Writer) (e : RepositoryError) : WriterStep host db (w, .error e) db

theorem commit_effect (host : Host) (w : Writer) (db : Db) :
    Effect db (w.target db) ((w.body host).commit db).2 := by
  rcases commit_cases (w.body host) db with ⟨u, db', hr, hc⟩ | ⟨e, -, hc⟩
  · rw [hc]
    exact w.effect hr
  · rw [hc]
    exact .quiet (.same rfl)

theorem WriterStep.effect {l : Writer × Except RepositoryError Unit}
    (h : WriterStep host db l db') : Effect db (l.1.target db) db' := by
  cases h with
  | finish w h =>
    have heffect := commit_effect host w db
    rwa [h] at heffect
  | abort w e => exact .quiet (.same rfl)

/-- After any interleaving of the writers, each channel's messages are numbered from 1 in the
order of their commits and the counter holds the number that follows. A writer that fails
then leaves the database as it is, and one that does not touches no other channel. -/
theorem sequences_follow_commits {trace : List (Writer × Except RepositoryError Unit)}
    (hstart : Numbered db) (hrun : Run (WriterStep host) db trace db') :
    Numbered db' ∧ db.messages <+: db'.messages ∧
      ∀ w : Writer,
        (∀ e, ((w.body host).commit db').1 = .error e → ((w.body host).commit db').2 = db') ∧
        ∀ c, db'.hasChannel c = true → w.target db' ≠ some c →
          SameNumbering c db' ((w.body host).commit db').2 := by
  refine ⟨?_, ?_, fun w => ⟨?_, ?_⟩⟩
  · exact hrun.invariant (fun _ _ _ hdb hstep => hstep.effect.numbered hdb) hstart
  · exact hrun.rel (R := fun db db' => db.messages <+: db'.messages) (fun _ => prefix_rfl)
      (fun _ _ _ => List.IsPrefix.trans) fun _ _ _ hstep => hstep.effect.extends
  · intro e he
    exact (commit_error_of_fst he).2
  · intro c hc hne
    exact (commit_effect host w db').others hc hne

end

theorem Sample.numbered_chat : Numbered Sample.chat := by
  refine ⟨fun c => ⟨0, rfl, fun k hk => ?_⟩, fun r hr => absurd hr not_mem_nil⟩
  obtain ⟨row, hrow, rfl⟩ := mem_map.1 hk
  rw [mem_singleton.1 (mem_filter.1 hrow).1]

open Sample in
/-- Two messages with a refused one between them. -/
theorem sequences_follow_two_sends :
    Numbered chat ∧ ∃ trace db', Run (WriterStep host) chat trace db' ∧
      trace.map (·.2) = [.ok (), .error .permissionDenied, .ok ()] ∧ Numbered db' ∧
      db'.sequences room = [1, 2] ∧ db'.counters room = [3] := by
  have hsend (db : Db) (actor : UserId) (id : Nat) : WriterStep host db _ _ :=
    .finish (.append ⟨actor, room, none, hello⟩ (.quiet id 0)) rfl
  have hrun : Run (WriterStep host) chat _ _ :=
    .cons (hsend chat alice 20) (.cons (hsend _ bob 21) (.single (hsend _ alice 22)))
  obtain ⟨hend, -, -⟩ := sequences_follow_commits numbered_chat hrun
  exact ⟨numbered_chat, _, _, hrun, rfl, hend, rfl, rfl⟩

end Sproyt
