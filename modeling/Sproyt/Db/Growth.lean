import Sproyt.Db.Numbering
import Sproyt.Db.Tombstones

/-!
# How the table of messages grows

Messages keep their id, their channel and their number, whatever is edited or deleted, and a
new one has a higher number than all messages of its channel.
-/

namespace Sproyt

open List Txn

def ChatMessage.stamp (m : ChatMessage) : MessageId × ChannelId × Nat :=
  (m.id, m.channelId, m.sequence)

variable {host : Host} {db db' : Db} {m m' row : ChatMessage}

theorem id_of_stamp (h : m.stamp = m'.stamp) : m.id = m'.id := congrArg Prod.fst h

theorem channelId_of_stamp (h : m.stamp = m'.stamp) : m.channelId = m'.channelId :=
  congrArg (·.2.1) h

theorem sequence_of_stamp (h : m.stamp = m'.stamp) : m.sequence = m'.sequence :=
  congrArg (·.2.2) h

/-- The messages are numbered, under unique ids. -/
structure Orderly (db : Db) : Prop where
  numbered : Numbered db
  unique : UniqueMessages db

theorem Numbered.sequence_mem (hdb : Numbered db) (c : ChannelId) :
    ∃ n, (∀ k ∈ db.counters c, k = n + 1) ∧
      ∀ m ∈ db.messages, m.channelId = c → 1 ≤ m.sequence ∧ m.sequence ≤ n := by
  obtain ⟨n, hsequences, hcounters⟩ := hdb.numbers c
  refine ⟨n, hcounters, fun m hm hc => ?_⟩
  have hmem : m.sequence ∈ db.sequences c :=
    mem_map_of_mem (mem_filter.2 ⟨hm, decide_eq_true hc⟩)
  rw [hsequences, mem_range'_1] at hmem
  omega

theorem Numbered.eq_of_sequence (hdb : Numbered db) (hm : m ∈ db.messages)
    (hm' : m' ∈ db.messages) (hc : m.channelId = m'.channelId)
    (hsequence : m.sequence = m'.sequence) : m = m' := by
  obtain ⟨n, hsequences, -⟩ := hdb.numbers m'.channelId
  have hnodup : ((db.messages.filter fun r => r.channelId = m'.channelId).map
      (·.sequence)).Nodup := by
    rw [show List.map _ _ = List.range' 1 n from hsequences]
    exact nodup_range'
  exact Table.eq_of_key_eq hnodup (mem_filter.2 ⟨hm, decide_eq_true hc⟩)
    (mem_filter.2 ⟨hm', decide_eq_true rfl⟩) hsequence

/-- Messages stay, and new ones have the highest number of their channel. -/
structure Grows (db db' : Db) : Prop where
  keeps : ∀ m ∈ db.messages, ∃ m' ∈ db'.messages, m'.stamp = m.stamp
  new : ∀ m' ∈ db'.messages, (∃ m ∈ db.messages, m.stamp = m'.stamp) ∨
    ∀ m ∈ db.messages, m.channelId = m'.channelId → m.sequence < m'.sequence

theorem grows_of_stamps (h : db'.messages.map (·.stamp) = db.messages.map (·.stamp)) :
    Grows db db' := by
  refine ⟨fun m hm => ?_, fun m' hm' => .inl ?_⟩
  · have hmem := mem_map_of_mem (f := (·.stamp)) hm
    rw [← h] at hmem
    exact mem_map.1 hmem
  · have hmem := mem_map_of_mem (f := (·.stamp)) hm'
    rw [h] at hmem
    exact mem_map.1 hmem

theorem Posted.grows (h : Posted db m db') (hdb : Numbered db) : Grows db db' := by
  refine ⟨fun x hx => ⟨x, ?_, rfl⟩, fun x hx => ?_⟩
  · rw [h.messages]
    exact mem_append_left _ hx
  · rw [h.messages] at hx
    rcases mem_append.1 hx with hx | hx
    · exact .inl ⟨x, hx, rfl⟩
    · rw [mem_singleton.1 hx]
      obtain ⟨n, hcounters, hbound⟩ := hdb.sequence_mem m.channelId
      have hm := hcounters _ h.sequence_mem
      refine .inr fun y hy hc => ?_
      have hy := (hbound y hy hc).2
      omega

theorem Effect.grows {target : Option ChannelId} (h : Effect db target db') (hdb : Orderly db) :
    Grows db db' ∧ Orderly db' := by
  refine ⟨?_, h.numbered hdb.numbered, ?_⟩
  · cases h with
    | quiet h => exact grows_of_stamps (by rw [h.messages])
    | posted hpre _ h =>
      obtain ⟨hkeeps, hnew⟩ := h.grows (hpre.numbered hdb.numbered)
      rw [hpre.messages] at hkeeps hnew
      exact ⟨hkeeps, hnew⟩
  · cases h with
    | quiet h =>
      rw [UniqueMessages, h.messages]
      exact hdb.unique
    | posted hpre _ h =>
      refine h.unique ?_
      rw [UniqueMessages, hpre.messages]
      exact hdb.unique

theorem Rewritten.stamps (h : Rewritten db row m db') (hdb : UniqueMessages db) :
    db'.messages.map (·.stamp) = db.messages.map (·.stamp) := by
  rw [h.messages, Table.set, map_map]
  apply map_congr_left
  intro x hx
  show ChatMessage.stamp (if x.id = m.id then m else x) = x.stamp
  by_cases hid : x.id = m.id
  · have hrow : x = row := Table.eq_of_key_eq hdb hx h.found (hid.trans h.id_eq)
    rw [if_pos hid, hrow, h.same]
    rfl
  · rw [if_neg hid]

theorem Numbered.of_stamps (hdb : Numbered db)
    (h : db'.messages.map (·.stamp) = db.messages.map (·.stamp))
    (hchannels : db'.channels = db.channels)
    (hcounters : db'.channelSequences = db.channelSequences) : Numbered db' := by
  have hsequences : ∀ c, db'.sequences c = db.sequences c := by
    intro c
    have hstamps : ∀ db : Db, db.sequences c =
        ((db.messages.map (·.stamp)).filter fun s => s.2.1 = c).map (·.2.2) := by
      intro db
      rw [filter_map, map_map]
      rfl
    rw [hstamps, hstamps, h]
  refine ⟨fun c => ?_, fun r hr => ?_⟩
  · rw [hsequences, Db.counters, hcounters]
    exact hdb.numbers c
  · obtain ⟨x, hx, hstamp⟩ := (grows_of_stamps h.symm).keeps r hr
    rw [Db.hasChannel, hchannels, ← channelId_of_stamp hstamp]
    exact hdb.placed x hx

theorem Rewritten.grows (h : Rewritten db row m db') (hdb : Orderly db) :
    Grows db db' ∧ Orderly db' := by
  have hstamps := h.stamps hdb.unique
  refine ⟨grows_of_stamps hstamps, hdb.numbered.of_stamps hstamps ?_ ?_, h.unique hdb.unique⟩
  · rw [h.rest]
  · rw [h.rest]

theorem Grows.refl (db : Db) : Grows db db := grows_of_stamps rfl

theorem Grows.trans {db₁ : Db} (h : Grows db db₁) (h' : Grows db₁ db') : Grows db db' := by
  refine ⟨fun m hm => ?_, fun x hx => ?_⟩
  · obtain ⟨m₁, hm₁, hstamp⟩ := h.keeps m hm
    obtain ⟨x, hx, hstamp'⟩ := h'.keeps m₁ hm₁
    exact ⟨x, hx, hstamp'.trans hstamp⟩
  · rcases h'.new x hx with ⟨m₁, hm₁, hstamp⟩ | hlast
    · have hnew := h.new m₁ hm₁
      rwa [hstamp, channelId_of_stamp hstamp, sequence_of_stamp hstamp] at hnew
    · refine .inr fun m hm hc => ?_
      obtain ⟨m₁, hm₁, hstamp⟩ := h.keeps m hm
      rw [← sequence_of_stamp hstamp]
      exact hlast m₁ hm₁ ((channelId_of_stamp hstamp).trans hc)

theorem grows_of_ledger (h : db'.ledger = db.ledger) (hdb : Orderly db) :
    Grows db db' ∧ Orderly db' := by
  obtain ⟨hchannels, hrest⟩ := Prod.mk.inj h
  obtain ⟨hcounters, hmessages⟩ := Prod.mk.inj hrest
  have hstamps : db'.messages.map (·.stamp) = db.messages.map (·.stamp) := by rw [hmessages]
  refine ⟨grows_of_stamps hstamps, hdb.numbered.of_stamps hstamps hchannels hcounters, ?_⟩
  rw [UniqueMessages, hmessages]
  exact hdb.unique

theorem toggleMessageReaction_frame {γ : Type} {view : Db → γ}
    (hview : ∀ db rows, view { db with messageReactions := rows } = view db) (actor : UserId)
    (id : MessageId) (emoji : String) :
    Frame view (toggleMessageReaction actor id emoji) := by
  refine .look fun _ => .bind .demand fun _ => ?_
  refine .bind (Sql.insertOrIgnore_frame fun db => hview db _) fun added => .bind ?_ fun _ => ?_
  · exact .ite .pure (.write fun db => hview db _)
  · exact .look fun _ => .pure

theorem Writer.grows (w : Writer) (hdb : Orderly db) :
    Grows db ((w.body host).commit db).2 ∧ Orderly ((w.body host).commit db).2 :=
  (commit_effect host w db).grows hdb

theorem MessageCall.effect {call : MessageCall} {o : Option ChatMessage}
    (h : (call.body host).run db = .ok (o, db')) :
    (∃ target, Effect db target db') ∨ ∃ row m, Rewritten db row m db' := by
  cases call with
  | append command env =>
    obtain ⟨m, hcall, -⟩ := bind_pure_ok.1 h
    exact .inl ⟨_, appendMessage_effect hcall⟩
  | appendIdempotent command requestId env =>
    obtain ⟨m, hcall, -⟩ := bind_pure_ok.1 h
    exact .inl ⟨_, appendMessageIdempotent_effect hcall⟩
  | edit command now =>
    obtain ⟨m, hcall, -⟩ := bind_pure_ok.1 h
    obtain ⟨row, hrewritten, -⟩ := editMessage_ok hcall
    exact .inr ⟨row, m, hrewritten⟩
  | delete command now =>
    obtain ⟨m, hcall, -⟩ := bind_pure_ok.1 h
    obtain ⟨row, hrewritten, -⟩ := deleteMessage_ok hcall
    exact .inr ⟨row, m, hrewritten⟩
  | toggle actor id emoji =>
    obtain ⟨change, hcall, -⟩ := bind_pure_ok.1 h
    have hframe : Frame Db.core (toggleMessageReaction actor id emoji) :=
      toggleMessageReaction_frame (fun _ _ => rfl) actor id emoji
    exact .inl ⟨none, .quiet (.same (hframe hcall))⟩

theorem MessageCall.grows (call : MessageCall) (hdb : Orderly db) :
    Grows db ((call.body host).commit db).2 ∧ Orderly ((call.body host).commit db).2 := by
  refine commit_snd (P := fun db' => Grows db db' ∧ Orderly db') ⟨.refl db, hdb⟩ fun o db' h => ?_
  rcases MessageCall.effect h with ⟨target, heffect⟩ | ⟨row, m, hrewritten⟩
  · exact heffect.grows hdb
  · exact hrewritten.grows hdb

end Sproyt
