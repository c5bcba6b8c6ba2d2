import Sproyt.Chat.LagRecovery
import Sproyt.Frontend.SseSocket

/-!
# Resuming an event stream

A stream is opened again after the highest number that was seen. Nothing is missed if all
messages up to that number have been shown, from the start of the channel's first history on.
The streams see to that as long as they do not lag. The answers to commands come beside the
streams: a message of the client's own can overtake those that a stream has still to bring.
-/

namespace Sproyt

open List LastSequence SseSocket Option

/-! ### What was shown -/

def SseFrame.messages : SseFrame → List ChatMessage
  | chat (.messageAccepted m) => [m]
  | messageAccepted m => [m]
  | messagesLoaded _ messages => messages
  | subscriptionStarted _ _ history => history
  | _ => []

def shown (emitted : List SseFrame) : List ChatEvent :=
  emitted.flatMap fun f => f.messages.map .messageAccepted

def SseFrame.history? (c : ChannelId) : SseFrame → Option (List ChatMessage)
  | subscriptionStarted c' _ history => if c' = c then some history else none
  | _ => none

/-- The history with which the channel was subscribed to first. -/
def firstHistory (c : ChannelId) (emitted : List SseFrame) : Option (List ChatMessage) :=
  emitted.findSome? (·.history? c)

def SseFrame.isAnswer : SseFrame → Bool
  | messageAccepted _ => true
  | messagesLoaded _ _ => true
  | _ => false

structure SseFrame.Quiet (f : SseFrame) : Prop where
  sequence : f.sequence? = none
  messages : f.messages = []
  history : ∀ c, f.history? c = none

section

variable {host : Host} {distributed : Bool} {db db' : Db} {c : ChannelId}
  {emitted frames : List SseFrame} {f : SseFrame} {m y : ChatMessage} {e : ChatEvent}
  {history h : List ChatMessage} {last : LastSequence} {st : SseStream} {s s' : Subscription}
  {k k' : SseSocket} {chat chat' : ChatWorld} {l : SseLabel} {w w' : SseWorld} {n : Nat}

theorem mem_shown : .messageAccepted y ∈ shown emitted ↔ ∃ f ∈ emitted, y ∈ f.messages := by
  simp [shown]

theorem shown_append : shown (emitted ++ frames) = shown emitted ++ shown frames :=
  flatMap_append

theorem shown_subset (frames : List SseFrame) :
    ∀ e ∈ shown emitted, e ∈ shown (emitted ++ frames) := by
  intro e he
  rw [shown_append]
  exact mem_append_left _ he

theorem firstHistory_append :
    firstHistory c (emitted ++ frames) = (firstHistory c emitted).or (firstHistory c frames) :=
  findSome?_append

theorem firstHistory_mono (hfirst : firstHistory c emitted = some h) :
    firstHistory c (emitted ++ frames) = some h := by
  rw [firstHistory_append, hfirst]
  rfl

theorem firstHistory_mem (hfirst : firstHistory c emitted = some h) :
    ∃ f ∈ emitted, ∀ y ∈ h, y ∈ f.messages := by
  obtain ⟨f, hf, hhistory⟩ := exists_of_findSome?_eq_some hfirst
  refine ⟨f, hf, fun y hy => ?_⟩
  cases f with
  | subscriptionStarted c' id history =>
    simp only [SseFrame.history?] at hhistory
    split at hhistory
    · obtain rfl := some.inj hhistory
      exact hy
    · cases hhistory
  | _ => cases hhistory

/-! ### Frames without messages -/

theorem firstHistory_quiet (hquiet : ∀ f ∈ frames, f.Quiet) : firstHistory c frames = none :=
  findSome?_eq_none_iff.2 fun f hf => (hquiet f hf).history c

theorem remember_quiet (hquiet : ∀ f ∈ frames, f.Quiet) :
    frames.foldl rememberSequence last = last := by
  induction frames generalizing last with
  | nil => rfl
  | cons f rest ih =>
    obtain ⟨hf, hrest⟩ := forall_mem_cons.1 hquiet
    rw [foldl_cons, rememberSequence, hf.sequence]
    exact ih hrest

variable {id : String}

theorem quiet_subscriptionEnded : (SseFrame.subscriptionEnded c id).Quiet :=
  ⟨rfl, rfl, fun _ => rfl⟩

theorem quiet_other : SseFrame.other.Quiet := ⟨rfl, rfl, fun _ => rfl⟩

theorem openStream_quiet (last : LastSequence) (target : Option (ChannelId × String)) :
    ∀ f ∈ (k.openStream last target).2, f.Quiet := by
  intro f hf
  obtain ⟨x, -, rfl⟩ := map_eq_some_iff.1 (mem_toList.1 hf)
  exact quiet_subscriptionEnded

theorem unsubscribe_quiet : ∀ f ∈ (k.unsubscribe last c id).2, f.Quiet := by
  intro f hf
  rcases mem_append.1 hf with hf | hf
  · split at hf
    · exact openStream_quiet last none f hf
    · exact absurd hf not_mem_nil
  · rw [mem_singleton.1 hf]
    exact quiet_subscriptionEnded

/-! ### The invariant -/

def Anchored (db : Db) (c : ChannelId) (n : Nat) : Prop :=
  n = 0 ∨ ∃ r ∈ db.messages, r.channelId = c ∧ r.sequence = n

/-- A message of the channel, perhaps as it was before it was edited. -/
def Stored (db : Db) (c : ChannelId) (m : ChatMessage) : Prop :=
  ∃ r ∈ db.messages, r.stamp = m.stamp ∧ r.channelId = c

def FetchSafe (db : Db) : SseFetch → Prop
  | .asked m => Stored db m.channelId m
  | .answered (.messageAccepted m) => Stored db m.channelId m
  | .answered (.messagesLoaded c messages) => ∀ m ∈ messages.getLast?, Stored db c m
  | .answered .other => True
  | .answered _ => False

structure StreamSafe (db : Db) (emitted : List SseFrame) (st : SseStream) (s : Subscription) :
    Prop where
  channel : s.channel = st.channel
  prompt : s.lagging = none
  unlagged : Unlagged s.outbound
  ordered : ∀ before y after, s.outbound = before ++ .chat (.messageAccepted y) :: after →
    y.channelId = s.channel ∧
      Covered db s.channel s.history y.sequence (received before ++ [.messageAccepted y])
  within : st.read ≤ st.frames.length
  taken : ∀ f ∈ st.frames.take st.read, f ∈ emitted
  resumed : 0 < st.read → ∃ h n, firstHistory st.channel emitted = some h ∧
    Covered db st.channel h n (shown emitted) ∧
      ∀ x, firstSequence h ≤ x → x < firstSequence s.history → x ≤ n

structure SocketSafe (db : Db) (emitted : List SseFrame) (k : SseSocket) : Prop where
  waiting : ∀ st, k.source = some st → st.subscription = none → st.read = 0
  stream : ∀ st s, k.source = some st → st.subscription = some s → StreamSafe db emitted st s
  fetch : ∀ f ∈ k.fetch, FetchSafe db f

def Placed (a : ChatActor) : Prop :=
  ∀ c y, .messageAccepted y ∈ (a.channel c).events.buffer → y.channelId = c

def streams (sockets : List SseSocket) : List Subscription := sockets.filterMap (·.subscription?)

structure SseSafe (w : SseWorld) : Prop where
  chat : ChatSafe { w.chat with subscriptions := streams w.sockets }
  placed : Placed w.chat.actor
  anchored : ∀ c, Anchored w.chat.db c (w.last.number c)
  reached : ∀ c h, firstHistory c w.emitted = some h →
    Covered w.chat.db c h (w.last.number c) (shown w.emitted)
  sockets : ∀ k ∈ w.sockets, SocketSafe w.chat.db w.emitted k

/-- The condition on a step: messages are published in the order of their numbers and no stream
falls behind its ring; a history joins what was shown before it; and an answer is handled once
the earlier messages have been shown. -/
structure Gapless (w : SseWorld) (l : SseLabel) : Prop where
  inOrder : InOrder w.chat l.published
  caughtUp : ∀ s ∈ streams w.sockets, (w.chat.actor.channel s.channel).events.head ≤ s.next
  first : ∀ c id history, .subscriptionStarted c id history ∈ l.emitted →
    firstHistory c w.emitted = none → w.last.number c ≤ lastSequence history
  later : ∀ c id history, .subscriptionStarted c id history ∈ l.emitted →
    firstHistory c w.emitted ≠ none → firstSequence history ≤ w.last.number c + 1
  answers : ∀ f ∈ l.emitted, f.isAnswer → ∀ c n, f.sequence? = some (c, n) →
    ∀ h, firstHistory c w.emitted = some h → ∀ m ∈ w.chat.db.messages, m.channelId = c →
      firstSequence h ≤ m.sequence → m.sequence < n →
        ∃ y, .messageAccepted y ∈ shown (w.emitted ++ [f]) ∧ y.id = m.id

/-! ### The store grows -/

theorem Anchored.grows (hn : Anchored db c n) (hgrows : Grows db db') : Anchored db' c n := by
  refine hn.imp_right ?_
  rintro ⟨r, hr, hc, hsequence⟩
  obtain ⟨r', hr', hstamp⟩ := hgrows.keeps r hr
  exact ⟨r', hr', (channelId_of_stamp hstamp).trans hc, (sequence_of_stamp hstamp).trans hsequence⟩

theorem Stored.grows (hm : Stored db c m) (hgrows : Grows db db') : Stored db' c m := by
  obtain ⟨r, hr, hstamp, hc⟩ := hm
  obtain ⟨r', hr', hstamp'⟩ := hgrows.keeps r hr
  exact ⟨r', hr', hstamp'.trans hstamp, (channelId_of_stamp hstamp').trans hc⟩

theorem FetchSafe.grows {x : SseFetch} (hx : FetchSafe db x) (hgrows : Grows db db') :
    FetchSafe db' x := by
  cases x with
  | asked m => exact Stored.grows hx hgrows
  | answered f =>
    cases f with
    | messageAccepted m => exact Stored.grows hx hgrows
    | messagesLoaded c messages => exact fun m hm => (hx m hm).grows hgrows
    | other => trivial
    | _ => exact hx.elim

theorem StreamSafe.grows (hs : StreamSafe db emitted st s) (hgrows : Grows db db')
    (hdb' : Numbered db') (frames : List SseFrame) :
    StreamSafe db' (emitted ++ frames) st s where
  channel := hs.channel
  prompt := hs.prompt
  unlagged := hs.unlagged
  ordered before y after hout :=
    ⟨(hs.ordered before y after hout).1, (hs.ordered before y after hout).2.grows hgrows hdb'⟩
  within := hs.within
  taken f hf := mem_append_left _ (hs.taken f hf)
  resumed hread := by
    obtain ⟨h, n, hfirst, hcovered, hgap⟩ := hs.resumed hread
    exact ⟨h, n, firstHistory_mono hfirst,
      (hcovered.grows hgrows hdb').mono (shown_subset frames), hgap⟩

theorem SocketSafe.grows (hk : SocketSafe db emitted k) (hgrows : Grows db db')
    (hdb' : Numbered db') (frames : List SseFrame) : SocketSafe db' (emitted ++ frames) k where
  waiting := hk.waiting
  stream st s hst hs := (hk.stream st s hst hs).grows hgrows hdb' frames
  fetch x hx := (hk.fetch x hx).grows hgrows

/-! ### The server -/

theorem ChatSafe.subset {w : ChatWorld} (hw : ChatSafe w) {subscriptions : List Subscription}
    (hsub : ∀ s ∈ subscriptions, s ∈ w.subscriptions) :
    ChatSafe { w with subscriptions := subscriptions } :=
  ⟨hw.orderly, hw.known, hw.task, fun s hs => hw.subscriptions s (hsub s hs)⟩

theorem ChatStep.swap {w w' : ChatWorld} {l : Broadcast}
    (hstep : ChatStep host distributed w l w') :
    (∃ new, ∀ subscriptions, ChatStep host distributed { w with subscriptions := subscriptions } l
      { w' with subscriptions := new ++ subscriptions }) ∨
    (w'.db = w.db ∧ w'.actor = w.actor ∧ w'.task = w.task ∧ w'.known = w.known) := by
  cases hstep with
  | write writer => exact .inl ⟨[], fun xs => .write (w := { w with subscriptions := xs }) writer⟩
  | message call => exact .inl ⟨[], fun xs => .message (w := { w with subscriptions := xs }) call⟩
  | ask command env hidle =>
    exact .inl ⟨[], fun xs => .ask (w := { w with subscriptions := xs }) command env hidle⟩
  | act t presence connection htask =>
    exact .inl ⟨(t.run distributed presence connection w.actor).2.toList, fun xs =>
      .act (w := { w with subscriptions := xs }) t presence connection htask⟩
  | receive | notify | close => exact .inr ⟨rfl, rfl, rfl, rfl⟩

theorem ChatSafe.server {w w' : ChatWorld} {l : Broadcast} {xs : List Subscription}
    (hw : ChatSafe { w with subscriptions := xs })
    (hprompt : Prompt { w with subscriptions := xs } l)
    (hstep : ChatStep host distributed w l w') : ChatSafe { w' with subscriptions := xs } := by
  rcases hstep.swap with ⟨new, hswap⟩ | ⟨hdb, hactor, htask, hknown⟩
  · exact (hw.step hprompt (hswap xs)).subset fun s hs => mem_append_right _ hs
  · have heq : ({ w' with subscriptions := xs } : ChatWorld) = { w with subscriptions := xs } := by
      rw [hdb, hactor, htask, hknown]
    rw [heq]
    exact hw

theorem ChatStep.grows {w w' : ChatWorld} {l : Broadcast} (hdb : Orderly w.db)
    (hstep : ChatStep host distributed w l w') : Grows w.db w'.db := by
  cases hstep with
  | write writer => exact (writer.grows hdb).1
  | message call => exact (call.grows hdb).1
  | ask command env hidle =>
    have hasked : Asked w.db [] (command.ask host env w.db) := ask_safe hdb command env
    exact hasked.grows
  | _ => exact .refl _

variable {a : ChatActor} {presence : Except RepositoryError Unit} {connection : ConnectionId}

theorem Placed.run {t : Task} (ha : Placed a) (hl : BroadcastSafe db (t.emits distributed a)) :
    Placed (t.run distributed presence connection a).1 := by
  intro c y hy
  rw [t.run_events a c] at hy
  rcases hemits : t.emits distributed a with - | ⟨c', e⟩
  · rw [hemits] at hy
    exact ha c y hy
  · rw [hemits] at hy hl
    simp only [Broadcast.to] at hy
    split at hy
    · next heq =>
      rcases EventRing.mem_send hy with hy | rfl
      · exact ha c y hy
      · rcases hl with hnone | ⟨m, hm, hc, -⟩
        · cases hnone
        · rw [heq, hc, ChatEvent.messageAccepted.inj hm]
    · exact ha c y hy

theorem Placed.step {w w' : ChatWorld} {l : Broadcast} (ha : Placed w.actor)
    (htask : TaskSafe w.db w.known w.task) (hstep : ChatStep host distributed w l w') :
    Placed w'.actor := by
  cases hstep with
  | act t presence connection ht =>
    rw [ht] at htask
    exact ha.run htask.emits
  | _ => exact ha

/-! ### One frame is emitted -/

theorem Stored.anchored (hm : Stored db c m) : Anchored db c m.sequence := by
  obtain ⟨r, hr, hstamp, hc⟩ := hm
  exact .inr ⟨r, hr, hc, sequence_of_stamp hstamp⟩

theorem Stored.id_eq (hdb : Numbered db) (hm : Stored db c m) (hy : y ∈ db.messages)
    (hc : y.channelId = c) (hsequence : y.sequence = m.sequence) : m.id = y.id := by
  obtain ⟨r, hr, hstamp, hrc⟩ := hm
  have heq : y = r := hdb.eq_of_sequence hy hr (hc.trans hrc.symm)
    (hsequence.trans (sequence_of_stamp hstamp).symm)
  rw [heq, id_of_stamp hstamp]

theorem number_raise (c c' : ChannelId) :
    (last.raise c n).number c' = if c' = c then max (last.number c) n else last.number c' := by
  by_cases h : c' = c
  · simp [number, raise, h]
  · simp [number, raise, h]

theorem number_remember (last : LastSequence) (c : ChannelId) :
    (last.rememberSequence f).number c = last.number c ∨
      ∃ n, f.sequence? = some (c, n) ∧ last.number c < n ∧
        (last.rememberSequence f).number c = n := by
  rw [rememberSequence]
  split
  · next c' n hf =>
    rw [number_raise]
    by_cases hc : c = c'
    · rw [if_pos hc, ← hc]
      by_cases hlt : last.number c < n
      · exact .inr ⟨n, hc ▸ hf, hlt, Nat.max_eq_right (Nat.le_of_lt hlt)⟩
      · exact .inl (Nat.max_eq_left (Nat.le_of_not_lt hlt))
    · exact .inl (if_neg hc)
  · exact .inl rfl

/-- The frame shows what is new up to the number it raises to, and a first history reaches the
number that was there. -/
structure Extends (db : Db) (last : LastSequence) (emitted : List SseFrame) (f : SseFrame) :
    Prop where
  anchored : ∀ c n, f.sequence? = some (c, n) → Anchored db c n
  first : ∀ c h, firstHistory c emitted = none → f.history? c = some h →
    Covered db c h (last.number c) (shown (emitted ++ [f]))
  covers : ∀ c n h, f.sequence? = some (c, n) → firstHistory c (emitted ++ [f]) = some h →
    ∀ m ∈ db.messages, m.channelId = c → firstSequence h ≤ m.sequence →
      last.number c < m.sequence → m.sequence ≤ n →
        ∃ y, .messageAccepted y ∈ shown (emitted ++ [f]) ∧ y.id = m.id

theorem Extends.reached (hf : Extends db last emitted f)
    (hreached : ∀ c h, firstHistory c emitted = some h →
      Covered db c h (last.number c) (shown emitted))
    (hfirst : firstHistory c (emitted ++ [f]) = some h) :
    Covered db c h ((last.rememberSequence f).number c) (shown (emitted ++ [f])) := by
  have hold : Covered db c h (last.number c) (shown (emitted ++ [f])) := by
    rcases eq_none_or_eq_some (firstHistory c emitted) with hnone | ⟨h', hsome⟩
    · refine hf.first c h hnone ?_
      rw [firstHistory_append, hnone, none_or, firstHistory, findSome?_singleton] at hfirst
      exact hfirst
    · obtain rfl := some.inj ((firstHistory_mono hsome).symm.trans hfirst)
      exact (hreached c h' hsome).mono (shown_subset [f])
  rcases number_remember last c with heq | ⟨n, hn, -, heq⟩
  · rw [heq]
    exact hold
  · rw [heq]
    refine ⟨hf.anchored c n hn, fun m hm hc hstart hle => ?_⟩
    by_cases hseen : m.sequence ≤ last.number c
    · exact hold.covers m hm hc hstart hseen
    · exact .inr (hf.covers c n h hn hfirst m hm hc hstart (Nat.lt_of_not_le hseen) hle)

theorem Extends.anchored_number (hf : Extends db last emitted f)
    (hlast : Anchored db c (last.number c)) :
    Anchored db c ((last.rememberSequence f).number c) := by
  rcases number_remember last c with heq | ⟨n, hn, -, heq⟩
  · rw [heq]
    exact hlast
  · rw [heq]
    exact hf.anchored c n hn

theorem SseFrame.Quiet.extending (hf : f.Quiet) : Extends db last emitted f where
  anchored c n hn := by rw [hf.sequence] at hn; cases hn
  first c h _ hh := by rw [hf.history] at hh; cases hh
  covers c n h hn := by rw [hf.sequence] at hn; cases hn

theorem FetchSafe.extending (hdb : Numbered db) (hf : FetchSafe db (.answered f))
    (hturn : f.isAnswer → ∀ c n, f.sequence? = some (c, n) →
      ∀ h, firstHistory c emitted = some h → ∀ m ∈ db.messages, m.channelId = c →
        firstSequence h ≤ m.sequence → m.sequence < n →
          ∃ y, .messageAccepted y ∈ shown (emitted ++ [f]) ∧ y.id = m.id) :
    Extends db last emitted f := by
  -- the number an answer raises to is that of a stored message which it shows
  have hnumber : ∀ c n, f.sequence? = some (c, n) → f.isAnswer ∧ ∃ x, x ∈ f.messages ∧
      Stored db c x ∧ x.sequence = n := by
    intro c n hn
    cases f with
    | messageAccepted m =>
      cases hn
      exact ⟨rfl, m, mem_singleton_self m, hf, rfl⟩
    | messagesLoaded c' messages =>
      obtain ⟨x, hx, heq⟩ := map_eq_some_iff.1 hn
      cases heq
      exact ⟨rfl, x, mem_of_getLast? hx, hf x hx, rfl⟩
    | other => cases hn
    | _ => exact hf.elim
  have hhistory : ∀ c, f.history? c = none := by
    intro c
    cases f with
    | subscriptionStarted => exact hf.elim
    | _ => rfl
  refine ⟨fun c n hn => ?_, fun c h _ hh => ?_, fun c n h hn hfirst m hm hc hstart hlt hle => ?_⟩
  · obtain ⟨-, x, -, hx, rfl⟩ := hnumber c n hn
    exact hx.anchored
  · rw [hhistory] at hh
    cases hh
  · obtain ⟨hanswer, x, hshows, hx, rfl⟩ := hnumber c n hn
    rcases Nat.lt_or_eq_of_le hle with hearlier | hsame
    · rw [firstHistory_append, firstHistory, firstHistory, findSome?_singleton, hhistory,
        or_none] at hfirst
      exact hturn hanswer c _ hn h hfirst m hm hc hstart hearlier
    · exact ⟨x, mem_shown.2 ⟨f, mem_append_right _ (mem_singleton_self f), hshows⟩,
        hx.id_eq hdb hm hc hsame⟩

/-! ### A frame of a stream -/

theorem ServerEvent.quiet_frame {x : ServerEvent}
    (hx : ∀ y, x ≠ .chat (.messageAccepted y)) : (x.frame c).Quiet := by
  cases x with
  | lagged => exact ⟨rfl, rfl, fun _ => rfl⟩
  | chat e =>
    cases e with
    | messageAccepted y => exact absurd rfl (hx y)
    | _ => exact ⟨rfl, rfl, fun _ => rfl⟩

theorem notice_quiet (hf : f ∈ st.notice history) : f.Quiet := by
  obtain ⟨x, -, rfl⟩ := map_eq_some_iff.1 (mem_toList.1 hf)
  exact ⟨rfl, rfl, fun _ => rfl⟩

theorem frames_eq (hs : st.subscription = some s) :
    st.frames = .subscriptionStarted st.channel st.requestId s.history ::
      (st.notice s.history ++ s.outbound.map (·.frame st.channel)) := by
  rw [SseStream.frames, hs]

theorem frame_cases (hs : st.subscription = some s) (hf : st.frames[n]? = some f) :
    (n = 0 ∧ f = .subscriptionStarted st.channel st.requestId s.history) ∨
      (0 < n ∧ (f.Quiet ∨ ∃ y before after, f = .chat (.messageAccepted y) ∧
        s.outbound = before ++ .chat (.messageAccepted y) :: after ∧
        ∀ x ∈ before, x.frame st.channel ∈ st.frames.take n)) := by
  rw [frames_eq hs] at hf ⊢
  rcases n with - | n
  · exact .inl ⟨rfl, (some.inj hf).symm⟩
  · refine .inr ⟨Nat.succ_pos n, ?_⟩
    rw [getElem?_cons_succ] at hf
    rw [take_succ_cons]
    by_cases hlt : n < (st.notice s.history).length
    · rw [getElem?_append_left hlt] at hf
      exact .inl (notice_quiet (mem_of_getElem? hf))
    · rw [getElem?_append_right (Nat.le_of_not_lt hlt), getElem?_map] at hf
      obtain ⟨x, hx, rfl⟩ := map_eq_some_iff.1 hf
      by_cases hy : ∃ y, x = .chat (.messageAccepted y)
      · obtain ⟨y, rfl⟩ := hy
        obtain ⟨i, hi⟩ : ∃ i, i = n - (st.notice s.history).length := ⟨_, rfl⟩
        rw [← hi] at hx
        obtain ⟨hilt, hget⟩ := List.getElem?_eq_some_iff.1 hx
        refine .inr ⟨y, s.outbound.take i, s.outbound.drop (i + 1), rfl, ?_, fun z hz => ?_⟩
        · rw [← hget, ← drop_eq_getElem_cons hilt, take_append_drop]
        · rw [List.take_append, ← map_take, ← hi]
          exact mem_cons_of_mem _ (mem_append_right _ (mem_map_of_mem hz))
      · exact .inl (ServerEvent.quiet_frame fun y hxy => hy ⟨y, hxy⟩)

section

variable (hs : StreamSafe db emitted st s)

include hs

theorem taken_succ (hf : st.frames[st.read]? = some f) :
    ∀ x ∈ st.frames.take (st.read + 1), x ∈ emitted ++ [f] := by
  intro x hx
  rw [take_add_one, hf] at hx
  rcases mem_append.1 hx with hx | hx
  · exact mem_append_left _ (hs.taken x hx)
  · exact mem_append_right _ hx

theorem StreamSafe.start (hbase : Covered db s.channel s.history (lastSequence s.history) [])
    (hreached : ∀ h, firstHistory st.channel emitted = some h →
      Covered db st.channel h (last.number st.channel) (shown emitted))
    (hf : f = .subscriptionStarted st.channel st.requestId s.history)
    (hfirst : firstHistory st.channel emitted = none →
      last.number st.channel ≤ lastSequence s.history)
    (hlater : firstHistory st.channel emitted ≠ none →
      firstSequence s.history ≤ last.number st.channel + 1)
    (hlast : Anchored db st.channel (last.number st.channel)) :
    Extends db last emitted f ∧ ∃ h n, firstHistory st.channel (emitted ++ [f]) = some h ∧
      Covered db st.channel h n (shown (emitted ++ [f])) ∧
        ∀ x, firstSequence h ≤ x → x < firstSequence s.history → x ≤ n := by
  rw [hs.channel] at hbase
  have hshows : ∀ m ∈ db.messages, m.channelId = st.channel →
      firstSequence s.history ≤ m.sequence → m.sequence ≤ lastSequence s.history →
        ∃ y ∈ s.history, y.id = m.id := by
    intro m hm hc hstart hle
    refine (hbase.covers m hm hc hstart hle).resolve_right ?_
    rintro ⟨y, hy, -⟩
    exact absurd hy not_mem_nil
  have hmem : ∀ y ∈ s.history, .messageAccepted y ∈ shown (emitted ++ [f]) := by
    intro y hy
    refine mem_shown.2 ⟨f, mem_append_right _ (mem_singleton_self f), ?_⟩
    rw [hf]
    exact hy
  have hhistory : f.history? st.channel = some s.history := by
    rw [hf]
    exact if_pos rfl
  have hcovered : firstHistory st.channel emitted = none →
      Covered db st.channel s.history (last.number st.channel) (shown (emitted ++ [f])) := by
    intro hnone
    refine ⟨hlast, fun m hm hc hstart hle => .inl ?_⟩
    exact hshows m hm hc hstart (hle.trans (hfirst hnone))
  have hnew : firstHistory st.channel emitted = none →
      firstHistory st.channel (emitted ++ [f]) = some s.history := by
    intro hnone
    rw [firstHistory_append, hnone, none_or, firstHistory, findSome?_singleton, hhistory]
  have hnumber : ∀ c n, f.sequence? = some (c, n) →
      c = st.channel ∧ n = lastSequence s.history := by
    intro c n hn
    rw [hf] at hn
    obtain ⟨x, hx, heq⟩ := map_eq_some_iff.1 hn
    cases heq
    refine ⟨rfl, ?_⟩
    rw [lastSequence, hx]
    rfl
  refine ⟨⟨fun c n hn => ?_, fun c h hnone hh => ?_,
    fun c n h hn hsome m hm hc hstart hlt hle => ?_⟩, ?_⟩
  · obtain ⟨rfl, rfl⟩ := hnumber c n hn
    exact hbase.anchored
  · rw [hf] at hh
    simp only [SseFrame.history?] at hh
    split at hh
    · next heq =>
      subst heq
      obtain rfl := some.inj hh
      exact hcovered hnone
    · cases hh
  · obtain ⟨rfl, rfl⟩ := hnumber c n hn
    have hfrom : firstSequence s.history ≤ m.sequence := by
      by_cases hnone : firstHistory st.channel emitted = none
      · obtain rfl := some.inj ((hnew hnone).symm.trans hsome)
        exact hstart
      · exact (hlater hnone).trans hlt
    obtain ⟨y, hy, hid⟩ := hshows m hm hc hfrom hle
    exact ⟨y, hmem y hy, hid⟩
  · rcases eq_none_or_eq_some (firstHistory st.channel emitted) with hnone | ⟨h, hsome⟩
    · exact ⟨s.history, _, hnew hnone, hcovered hnone,
        fun x hle hlt => absurd hle (Nat.not_le_of_lt hlt)⟩
    · refine ⟨h, _, firstHistory_mono hsome, (hreached h hsome).mono (shown_subset [f]),
        fun x _ hlt => ?_⟩
      have hjoins := hlater (by rw [hsome]; exact some_ne_none h)
      omega

theorem StreamSafe.advance (hsub : st.subscription = some s)
    {before after : List ServerEvent} (hread : 0 < st.read)
    (hout : s.outbound = before ++ .chat (.messageAccepted y) :: after)
    (hbefore : ∀ x ∈ before, x.frame st.channel ∈ st.frames.take st.read) :
    Extends db last emitted (.chat (.messageAccepted y)) := by
  obtain ⟨hc, hcovered⟩ := hs.ordered before y after hout
  obtain ⟨h, n, hfirst, hreached, hgap⟩ := hs.resumed hread
  rw [hs.channel] at hc hcovered
  have hstarted : SseFrame.subscriptionStarted st.channel st.requestId s.history ∈ emitted := by
    apply hs.taken
    rw [frames_eq hsub]
    obtain ⟨i, hi⟩ := Nat.exists_eq_succ_of_ne_zero (Nat.ne_of_gt hread)
    rw [hi, take_succ_cons]
    exact mem_cons_self
  refine ⟨fun c n hn => ?_, fun c h _ hh => (by cases hh),
    fun c n' h' hn hsome m hm hmc hstart _ hle => ?_⟩
  · cases hn
    rw [hc]
    exact hcovered.anchored
  · cases hn
    rw [hc] at hmc hsome
    obtain rfl := some.inj ((firstHistory_mono hfirst).symm.trans hsome)
    -- before the stream's own history, in it, or after it
    by_cases hown : firstSequence s.history ≤ m.sequence
    · rcases hcovered.covers m hm hmc hown hle with ⟨x, hx, hid⟩ | ⟨x, hx, hid⟩
      · exact ⟨x, mem_shown.2 ⟨_, mem_append_left _ hstarted, hx⟩, hid⟩
      · refine ⟨x, ?_, hid⟩
        rcases mem_append.1 hx with hx | hx
        · obtain ⟨z, hz, heq⟩ := mem_filterMap.1 hx
          have htaken := hs.taken _ (hbefore z hz)
          cases z with
          | lagged => cases heq
          | chat e =>
            obtain rfl := some.inj heq
            exact mem_shown.2 ⟨_, mem_append_left _ htaken, mem_singleton_self x⟩
        · rw [mem_singleton] at hx
          rw [hx]
          exact mem_shown.2 ⟨_, mem_append_right _ (mem_singleton_self _), mem_singleton_self y⟩
    · rcases hreached.covers m hm hmc hstart (hgap _ hstart (Nat.lt_of_not_le hown)) with
        ⟨x, hx, hid⟩ | ⟨x, hx, hid⟩
      · obtain ⟨f, hf, hshows⟩ := firstHistory_mem hfirst
        exact ⟨x, mem_shown.2 ⟨f, mem_append_left _ hf, hshows x hx⟩, hid⟩
      · exact ⟨x, shown_subset _ _ hx, hid⟩

theorem StreamSafe.message (hsub : st.subscription = some s)
    (hbase : Covered db s.channel s.history (lastSequence s.history) [])
    (hreached : ∀ h, firstHistory st.channel emitted = some h →
      Covered db st.channel h (last.number st.channel) (shown emitted))
    (hlast : Anchored db st.channel (last.number st.channel)) (hf : st.frames[st.read]? = some f)
    (hfirst : ∀ c id history, f = .subscriptionStarted c id history →
      firstHistory c emitted = none → last.number c ≤ lastSequence history)
    (hlater : ∀ c id history, f = .subscriptionStarted c id history →
      firstHistory c emitted ≠ none → firstSequence history ≤ last.number c + 1) :
    Extends db last emitted f ∧
      StreamSafe db (emitted ++ [f]) { st with read := st.read + 1 } s := by
  obtain ⟨hextends, hresumed⟩ : Extends db last emitted f ∧
      ∃ h n, firstHistory st.channel (emitted ++ [f]) = some h ∧
        Covered db st.channel h n (shown (emitted ++ [f])) ∧
          ∀ x, firstSequence h ≤ x → x < firstSequence s.history → x ≤ n := by
    rcases frame_cases hsub hf with ⟨-, hstart⟩ | ⟨hread, hf⟩
    · exact hs.start hbase hreached hstart (hfirst _ _ _ hstart) (hlater _ _ _ hstart) hlast
    · refine ⟨?_, ?_⟩
      · rcases hf with hquiet | ⟨y, before, after, rfl, hout, hbefore⟩
        · exact hquiet.extending
        · exact hs.advance hsub hread hout hbefore
      · obtain ⟨h, n, hhistory, hcovered, hgap⟩ := hs.resumed hread
        exact ⟨h, n, firstHistory_mono hhistory, hcovered.mono (shown_subset [f]), hgap⟩
  refine ⟨hextends, hs.channel, hs.prompt, hs.unlagged, hs.ordered, ?_, taken_succ hs hf,
    fun _ => hresumed⟩
  exact (List.getElem?_eq_some_iff.1 hf).1

variable {known : List MessageId}

theorem StreamSafe.receive {ring : Events} (hsub : st.subscription = some s)
    (hsafe : SubscriptionSafe db known ring s) (hkept : ring.head ≤ s.next)
    (hplaced : ∀ y, .messageAccepted y ∈ ring.buffer → y.channelId = s.channel)
    (h : s.receive ring = some s') :
    StreamSafe db emitted { st with subscription := some s' } s' := by
  obtain ⟨hlag, ⟨e, hrecv, hs'⟩ | ⟨skipped, hmissed, -⟩⟩ := receive_cases h
  · obtain ⟨-, -, -, hunread⟩ := EventRing.recv_event hrecv
    have hframes : ({ st with subscription := some s' } : SseStream).frames =
        st.frames ++ [.chat e] := by
      have hnew : ({ st with subscription := some s' } : SseStream).frames =
          .subscriptionStarted st.channel st.requestId s'.history ::
            (st.notice s'.history ++ s'.outbound.map (·.frame st.channel)) := frames_eq rfl
      rw [hnew, frames_eq hsub, hs', map_append, cons_append, append_assoc]
      rfl
    subst hs'
    refine ⟨hs.channel, hlag, unlagged_concat.2 ⟨hs.unlagged, rfl⟩, fun before y after hout => ?_,
      ?_, fun f hf => ?_, hs.resumed⟩
    · rcases concat_eq_append_cons hout with ⟨rest, -, hold⟩ | ⟨-, rfl, heq⟩
      · exact hs.ordered before y rest hold
      · obtain rfl := ServerEvent.chat.inj heq
        refine ⟨hplaced y (mem_of_mem_drop (i := s.next - ring.head) ?_), ?_⟩
        · show _ ∈ ring.unread s.next
          rw [hunread]
          exact mem_cons_self
        · have hcovered := (hsafe.coming hs.unlagged hlag hkept).covered [] y _ hunread
          rwa [append_nil] at hcovered
    · rw [hframes, length_append]
      exact hs.within.trans (Nat.le_add_right _ _)
    · rw [hframes, take_append_of_le_length hs.within] at hf
      exact hs.taken f hf
  · exact absurd hkept (Nat.not_le_of_lt hmissed)

end

theorem StreamSafe.of_register {u : UserId}
    (hs : ((Task.register st.channel u history).run distributed presence connection a).2 = some s)
    (hread : st.read = 0) : StreamSafe db emitted { st with subscription := some s } s := by
  obtain ⟨c, u', history', ht, rfl⟩ := run_subscription hs
  cases ht
  refine ⟨rfl, rfl, fun _ hx => absurd hx not_mem_nil, fun before y after hout => ?_, ?_,
    fun f hf => ?_, fun hpos => ?_⟩
  · exact absurd hout.symm (append_ne_nil_of_right_ne_nil _ (cons_ne_nil _ _))
  · rw [show ({ st with subscription := some _ } : SseStream).read = 0 from hread]
    exact Nat.zero_le _
  · rw [show ({ st with subscription := some _ } : SseStream).read = 0 from hread] at hf
    exact absurd hf not_mem_nil
  · exact absurd hread (Nat.ne_of_gt hpos)

/-! ### Steps and runs -/

theorem streams_middle (before after : List SseSocket) :
    streams (before ++ k :: after) =
      streams before ++ (k.subscription?.toList ++ streams after) := by
  rw [streams, streams, streams, filterMap_append, filterMap_cons]
  cases k.subscription? <;> rfl

theorem streams_of_some {before after : List SseSocket} (hk : k.subscription? = some s) :
    streams (before ++ k :: after) = streams before ++ s :: streams after := by
  rw [streams_middle, hk]
  rfl

theorem streams_of_source {before after : List SseSocket} (hsource : k.source = some st)
    (hs : st.subscription = some s) :
    streams (before ++ k :: after) = streams before ++ s :: streams after :=
  streams_of_some (by rw [subscription?, hsource]; exact hs)

theorem mem_streams {before after : List SseSocket} (hsource : k.source = some st)
    (hs : st.subscription = some s) : s ∈ streams (before ++ k :: after) := by
  rw [streams_of_source hsource hs]
  exact mem_append_right _ mem_cons_self

theorem streams_subset {before after : List SseSocket}
    (hk : k'.subscription? = k.subscription? ∨ k'.subscription? = none) :
    ∀ s ∈ streams (before ++ k' :: after), s ∈ streams (before ++ k :: after) := by
  intro s hs
  rw [streams_middle] at hs ⊢
  rcases hk with hsame | hnone
  · rwa [hsame] at hs
  · rw [hnone] at hs
    exact (List.Sublist.append_left (sublist_append_right _ _) _).subset hs

theorem Gapless.prompt (hl : Gapless w l) :
    Prompt { w.chat with subscriptions := streams w.sockets } l.published :=
  ⟨hl.inOrder, fun s hs _ => hl.caughtUp s hs⟩

variable {b : Broadcast}

theorem SseSafe.server (hw : SseSafe w) (hl : Gapless w ⟨b, [], none⟩)
    (hstep : ChatStep host distributed w.chat b chat) : SseSafe { w with chat := chat } := by
  have hchat : ChatSafe { chat with subscriptions := streams w.sockets } :=
    hw.chat.server hl.prompt hstep
  have hgrows : Grows w.chat.db chat.db := hstep.grows hw.chat.orderly
  have hnumbered : Numbered chat.db := hchat.orderly.numbered
  refine ⟨hchat, hw.placed.step hw.chat.task hstep, fun c => (hw.anchored c).grows hgrows,
    fun c h hfirst => (hw.reached c h hfirst).grows hgrows hnumbered, fun k hk => ?_⟩
  have hsafe := (hw.sockets k hk).grows hgrows hnumbered []
  rwa [append_nil] at hsafe

theorem SseSafe.connect (hw : SseSafe w) : SseSafe { w with sockets := w.sockets ++ [.new] } := by
  have hstreams : streams (w.sockets ++ [.new]) = streams w.sockets := by
    rw [streams, filterMap_append]
    exact append_nil _
  refine ⟨?_, hw.placed, hw.anchored, hw.reached, fun k hk => ?_⟩
  · show ChatSafe { w.chat with subscriptions := streams (w.sockets ++ [.new]) }
    rw [hstreams]
    exact hw.chat
  · rcases mem_append.1 hk with hk | hk
    · exact hw.sockets k hk
    · rw [mem_singleton.1 hk]
      exact ⟨fun _ h => (by cases h), fun _ _ h => (by cases h), fun _ h => (by cases h)⟩

theorem loadRecentMessages_mem {query : LoadRecentMessages} {messages : List ChatMessage}
    (h : db.loadRecentMessages query = .ok messages) :
    ∀ m ∈ messages, m ∈ db.messages ∧ m.channelId = query.channelId := by
  intro m hm
  refine mem_ordered.1 ?_
  simp only [Db.loadRecentMessages] at h
  split at h
  · cases h
  · split at h
    · cases h
    · simp only [signedSequence] at h
      split at h
      · cases h
        exact (mem_filter.1 (mem_of_mem_take hm)).1
      · cases h
    · simp only [signedSequence] at h
      split at h
      · cases h
        exact (mem_filter.1 (mem_of_mem_drop hm)).1
      · cases h
    · cases h
      exact mem_of_mem_drop hm

theorem Asked.sending {answer : Option Task × Db}
    (h : Asked db known answer) : FetchSafe answer.2 (sending answer.1) := by
  obtain ⟨-, -, htask⟩ := h
  rcases answer with ⟨- | t, db'⟩
  · trivial
  · cases t with
    | accept m =>
      obtain ⟨r, hr, hstamp⟩ := htask
      exact ⟨r, hr, hstamp, channelId_of_stamp hstamp⟩
    | publish | register | leave => trivial

theorem loaded_safe {query : LoadRecentMessages} : FetchSafe db (.answered (loaded db query)) := by
  rw [loaded]
  split
  · next messages hload =>
    intro m hm
    obtain ⟨hmem, hc⟩ := loadRecentMessages_mem hload m (mem_of_getLast? hm)
    exact ⟨m, hmem, rfl, hc⟩
  · trivial

section

variable {before after : List SseSocket}
  (hw : SseSafe ⟨chat, last, before ++ k :: after, emitted⟩)

include hw

theorem SseSafe.replace
    (hchat : ChatSafe { chat' with subscriptions := streams (before ++ k' :: after) })
    (hplaced : Placed chat'.actor) (hgrows : Grows chat.db chat'.db) {last' : LastSequence}
    (hanchored : ∀ c, Anchored chat'.db c (last'.number c))
    (hreached : ∀ c h, firstHistory c (emitted ++ frames) = some h →
      Covered chat'.db c h (last'.number c) (shown (emitted ++ frames)))
    (hk' : SocketSafe chat'.db (emitted ++ frames) k') :
    SseSafe ⟨chat', last', before ++ k' :: after, emitted ++ frames⟩ := by
  refine ⟨hchat, hplaced, hanchored, hreached, fun x hx => ?_⟩
  have hnumbered : Numbered chat'.db := hchat.orderly.numbered
  rcases mem_append.1 hx with hx | hx
  · exact (hw.sockets x (mem_append_left _ hx)).grows hgrows hnumbered frames
  · rcases mem_cons.1 hx with rfl | hx
    · exact hk'
    · exact (hw.sockets x (mem_append_right _ (mem_cons_of_mem _ hx))).grows hgrows hnumbered frames

theorem SseSafe.quiet (hquiet : ∀ f ∈ frames, f.Quiet)
    (hchat : ChatSafe { chat' with subscriptions := streams (before ++ k' :: after) })
    (hplaced : Placed chat'.actor) (hgrows : Grows chat.db chat'.db)
    (hk' : SocketSafe chat'.db emitted k') :
    SseSafe ⟨chat', frames.foldl rememberSequence last, before ++ k' :: after,
      emitted ++ frames⟩ := by
  have hnumbered : Numbered chat'.db := hchat.orderly.numbered
  rw [remember_quiet hquiet]
  refine hw.replace hchat hplaced hgrows (fun c => (hw.anchored c).grows hgrows)
    (fun c h hfirst => ?_) (hk'.grows (.refl _) hnumbered frames)
  rw [firstHistory_append, firstHistory_quiet hquiet, or_none] at hfirst
  exact ((hw.reached c h hfirst).grows hgrows hnumbered).mono (shown_subset frames)

theorem SseSafe.client (hquiet : ∀ f ∈ frames, f.Quiet)
    (hk : k'.subscription? = k.subscription? ∨ k'.subscription? = none)
    (hk' : SocketSafe chat.db emitted k') :
    SseSafe ⟨chat, frames.foldl rememberSequence last, before ++ k' :: after, emitted ++ frames⟩ :=
  hw.quiet hquiet (hw.chat.subset (streams_subset hk)) hw.placed (.refl _) hk'

theorem SseSafe.served (hl : Gapless ⟨chat, last, before ++ k :: after, emitted⟩ ⟨b, [], none⟩)
    (hstep : ChatStep host distributed chat b chat') (hk : k'.subscription? = k.subscription?)
    (hk' : SocketSafe chat'.db emitted k') :
    SseSafe ⟨chat', last, before ++ k' :: after, emitted ++ []⟩ := by
  have hchat : ChatSafe { chat' with subscriptions := streams (before ++ k :: after) } :=
    hw.chat.server hl.prompt hstep
  exact hw.quiet (fun _ hf => absurd hf not_mem_nil)
    (hchat.subset (streams_subset (.inl hk))) (hw.placed.step hw.chat.task hstep)
    (hstep.grows hw.chat.orderly) hk'

theorem SseSafe.emit (hf : Extends chat.db last emitted f) (hk : k'.subscription? = k.subscription?)
    (hk' : SocketSafe chat.db (emitted ++ [f]) k') :
    SseSafe ⟨chat, [f].foldl rememberSequence last, before ++ k' :: after, emitted ++ [f]⟩ := by
  have hchat : ChatSafe { chat with subscriptions := streams (before ++ k' :: after) } :=
    hw.chat.subset (streams_subset (.inl hk))
  exact hw.replace hchat hw.placed (.refl _) (fun c => hf.anchored_number (hw.anchored c))
    (fun _ _ hfirst => hf.reached hw.reached hfirst) hk'

/-! ### One lemma for each step of a socket -/

theorem SseSafe.socketSafe : SocketSafe chat.db emitted k :=
  hw.sockets k (mem_append_right _ mem_cons_self)

theorem SseSafe.still (hk : k'.subscription? = k.subscription? ∨ k'.subscription? = none)
    (hk' : SocketSafe chat.db emitted k') :
    SseSafe ⟨chat, last, before ++ k' :: after, emitted ++ []⟩ :=
  hw.client (fun _ hf => absurd hf not_mem_nil) hk hk'

theorem SseSafe.subscribed (target : ChannelId × String) {rest : List SseCommand} :
    let opened := { k with queue := rest }.openStream last (some target)
    SseSafe ⟨chat, opened.2.foldl rememberSequence last, before ++ opened.1 :: after,
      emitted ++ opened.2⟩ := by
  refine hw.client (openStream_quiet last (some target)) (.inr rfl)
    ⟨fun st hst _ => ?_, fun st s hst hs => ?_, hw.socketSafe.fetch⟩
  · cases hst
    rfl
  · cases hst
    cases hs

theorem SseSafe.unsubscribed (c : ChannelId) (id : String) {rest : List SseCommand} :
    let closed := { k with queue := rest }.unsubscribe last c id
    SseSafe ⟨chat, closed.2.foldl rememberSequence last, before ++ closed.1 :: after,
      emitted ++ closed.2⟩ := by
  have hk := hw.socketSafe
  refine hw.client unsubscribe_quiet ?_ ?_
  · rw [SseSocket.unsubscribe]
    split
    · exact .inr rfl
    · exact .inl rfl
  · rw [SseSocket.unsubscribe]
    split
    · exact ⟨fun _ hst => (by cases hst), fun _ _ hst => (by cases hst), hk.fetch⟩
    · exact ⟨hk.waiting, hk.stream, hk.fetch⟩

theorem SseSafe.responded {rest : List SseCommand} (hfetch : k.fetch = some (.answered f))
    (hl : Gapless ⟨chat, last, before ++ k :: after, emitted⟩ (.emits [f])) :
    SseSafe ⟨chat, [f].foldl rememberSequence last,
      before ++ { k with queue := rest, fetch := none } :: after, emitted ++ [f]⟩ := by
  have hk := hw.socketSafe
  refine hw.emit ((hk.fetch _ hfetch).extending hw.chat.orderly.numbered
    (hl.answers f (mem_singleton_self _))) rfl ⟨hk.waiting, fun st s hst hs => ?_, nofun⟩
  exact (hk.stream st s hst hs).grows (.refl _) hw.chat.orderly.numbered _

theorem SseSafe.message (hsource : k.source = some st) (hframe : st.frames[st.read]? = some f)
    (hl : Gapless ⟨chat, last, before ++ k :: after, emitted⟩ (.emits [f])) :
    SseSafe ⟨chat, [f].foldl rememberSequence last, before ++ k.take st f :: after,
      emitted ++ [f]⟩ := by
  rcases eq_none_or_eq_some st.subscription with hnone | ⟨s, hs⟩
  · rw [SseStream.frames, hnone] at hframe
    cases hframe
  have hk := hw.socketSafe
  have hstarted : ∀ c id history, f = .subscriptionStarted c id history →
      .subscriptionStarted c id history ∈ [f] := fun c id history heq => heq ▸ mem_singleton_self _
  obtain ⟨hextends, hstream⟩ : Extends chat.db last emitted f ∧
      StreamSafe chat.db (emitted ++ [f]) { st with read := st.read + 1 } s :=
    (hk.stream st s hsource hs).message hs
      (hw.chat.subscriptions s (mem_streams hsource hs)).base
      (hw.reached st.channel) (hw.anchored st.channel) hframe
      (fun c id history heq => hl.first c id history (hstarted c id history heq))
      (fun c id history heq => hl.later c id history (hstarted c id history heq))
  refine hw.emit hextends ?_ ⟨fun st' hst hnone => ?_, fun st' s' hst hs' => ?_, hk.fetch⟩
  · rw [subscription?, subscription?, hsource]
    rfl
  · cases hst
    rw [show st.subscription = none from hnone] at hs
    cases hs
  · cases hst
    obtain rfl := some.inj (hs.symm.trans hs')
    exact hstream

theorem SseSafe.posted {command : SendMessage} {id : String} {env : SendEnv}
    (hidle : chat.task = none)
    (hl : Gapless ⟨chat, last, before ++ k :: after, emitted⟩ .silent) :
    let asked := (Command.sendMessage command (some id)).ask host env chat.db
    SseSafe ⟨{ chat with db := asked.2, task := asked.1 }, last,
      before ++ { k with fetch := some (sending asked.1) } :: after, emitted ++ []⟩ := by
  have hk := hw.socketSafe
  have hasked : Asked chat.db chat.known ((Command.sendMessage command (some id)).ask host env
    chat.db) := ask_safe hw.chat.orderly _ env
  have hask : ChatStep host false chat none _ :=
    .ask (.sendMessage command (some id)) env hidle
  refine hw.served hl hask rfl ⟨hk.waiting, fun st s hst hs => ?_, fun x hx => ?_⟩
  · have hstream := (hk.stream st s hst hs).grows hasked.grows hasked.orderly.numbered []
    rwa [append_nil] at hstream
  · cases hx
    exact hasked.sending

theorem SseSafe.started (host : Host) {u : UserId} (hsource : k.source = some st)
    (hnone : st.subscription = none) (htask : chat.task = some (.register st.channel u history))
    (hs : ((Task.register st.channel u history).run distributed presence connection
      chat.actor).2 = some s)
    (hl : Gapless ⟨chat, last, before ++ k :: after, emitted⟩
      ⟨(Task.register st.channel u history).emits distributed chat.actor, [], none⟩) :
    let t := Task.register st.channel u history
    SseSafe ⟨⟨chat.db, (t.run distributed presence connection chat.actor).1, none,
        chat.subscriptions,
        ((t.emits distributed chat.actor).message.map (·.id)).toList ++ chat.known⟩, last,
      before ++ { k with source := some { st with subscription := some s } } :: after,
      emitted ++ []⟩ := by
  have hk := hw.socketSafe
  have hact : ChatStep host distributed
      { chat with subscriptions := streams (before ++ k :: after) } _ _ :=
    .act _ presence connection htask
  have hwaiting : k.subscription? = none := by
    rw [subscription?, hsource]
    exact hnone
  refine hw.quiet (fun _ hf => absurd hf not_mem_nil)
    ((hw.chat.step hl.prompt hact).subset fun x hx => ?_) ?_ (.refl _)
    ⟨fun st' hst hnone' => ?_, fun st' s' hst hs' => ?_, hk.fetch⟩
  · rw [streams_of_some rfl] at hx
    show x ∈ _ ++ streams (before ++ k :: after)
    rw [hs, streams_middle, hwaiting]
    simpa [or_left_comm] using hx
  · have htask' : TaskSafe chat.db chat.known (some _) := htask ▸ hw.chat.task
    exact hw.placed.run htask'.emits
  · cases hst
    cases hnone'
  · cases hst
    cases hs'
    exact StreamSafe.of_register hs (hk.waiting st hsource hnone)

theorem SseSafe.receive (host : Host) (hsource : k.source = some st) (hs : st.subscription = some s)
    (h : s.receive (chat.actor.channel s.channel).events = some s')
    (hl : Gapless ⟨chat, last, before ++ k :: after, emitted⟩ .silent) :
    SseSafe ⟨chat, last,
      before ++ { k with source := some { st with subscription := some s' } } :: after,
      emitted ++ []⟩ := by
  have hk := hw.socketSafe
  have hmem : s ∈ streams (before ++ k :: after) := mem_streams hsource hs
  have hstreams : streams (before ++ k :: after) = streams before ++ s :: streams after :=
    streams_of_source hsource hs
  have hchat : ChatSafe { chat with subscriptions := streams before ++ s' :: streams after } := by
    have hprompt := hl.prompt
    have hsafe := hw.chat
    simp only [hstreams] at hprompt hsafe
    have hreceive : ChatStep host false
        { chat with subscriptions := streams before ++ s :: streams after } none
        { chat with subscriptions := streams before ++ s' :: streams after } := .receive h
    exact hsafe.step hprompt hreceive
  refine hw.quiet (fun _ hf => absurd hf not_mem_nil) (hchat.subset fun x hx => ?_) hw.placed
    (.refl _) ⟨fun st' hst hnone => ?_, fun st' s'' hst hs'' => ?_, hk.fetch⟩
  · rwa [streams_of_some rfl] at hx
  · cases hst
    cases hnone
  · cases hst
    cases hs''
    exact (hk.stream st s hsource hs).receive hs (hw.chat.subscriptions s hmem)
      (hl.caughtUp s hmem) (hw.placed s.channel) h

theorem SseSafe.socket (hl : Gapless ⟨chat, last, before ++ k :: after, emitted⟩ l)
    (hstep : SocketStep host distributed last chat k l chat' k') :
    SseSafe ⟨chat', l.emitted.foldl rememberSequence last, before ++ k' :: after,
      emitted ++ l.emitted⟩ := by
  have hk := hw.socketSafe
  cases hstep with
  | opens | send => exact hw.still (.inl rfl) ⟨hk.waiting, hk.stream, hk.fetch⟩
  | subscribe => exact hw.subscribed _
  | unsubscribe => exact hw.unsubscribed _ _
  | respond hopened hqueue hfetch => exact hw.responded hfetch hl
  | message hopened hsource hframe => exact hw.message hsource hframe hl
  | notice =>
    refine hw.client (fun f hf => ?_) (.inl rfl) hk
    rw [mem_singleton.1 hf]
    exact quiet_other
  | close => exact hw.still (.inr rfl) ⟨nofun, nofun, nofun⟩
  | post env hqueue hfetch hidle => exact hw.posted hidle hl
  | reply presence connection hfetch htask =>
    have hasked : FetchSafe chat.db (.asked _) := hk.fetch _ hfetch
    have hact : ChatStep host distributed chat _ _ := .act _ presence connection htask
    refine hw.served hl hact rfl ⟨hk.waiting, hk.stream, ?_⟩
    rintro x ⟨⟩
    exact hasked
  | load hqueue hfetch =>
    refine hw.still (.inl rfl) ⟨hk.waiting, hk.stream, ?_⟩
    rintro x ⟨⟩
    exact loaded_safe
  | serve hqueue hfetch =>
    refine hw.still (.inl rfl) ⟨hk.waiting, hk.stream, ?_⟩
    rintro x ⟨⟩
    trivial
  | started presence connection hsource hnone htask hs =>
    exact hw.started host hsource hnone htask hs hl
  | receive hsource hs h => exact hw.receive host hsource hs h hl
  | notify hsource hs h =>
    obtain ⟨skipped, hlag, -⟩ := map_eq_some_iff.1 h
    rw [(hk.stream _ _ hsource hs).prompt] at hlag
    cases hlag

end

theorem SseSafe.step (hw : SseSafe w) (hstep : Guarded Gapless (SseStep host distributed) w l w') :
    SseSafe w' := by
  obtain ⟨hl, hstep⟩ := hstep
  cases hstep with
  | server h => exact hw.server hl h
  | connect => exact hw.connect
  | socket h => exact hw.socket hl h

theorem sseSafe_start (hdb : Orderly db) : SseSafe (.start db) where
  chat := chatSafe_start hdb
  placed _ _ hy := absurd hy not_mem_nil
  anchored _ := .inl rfl
  reached _ _ hfirst := by cases hfirst
  sockets _ hk := absurd hk not_mem_nil

/-- A stream is opened after the number that is remembered. -/
theorem SseStep.opened_after {a : Nat} (hstep : SseStep host distributed w l w')
    (hopened : l.opened = some (c, some a)) : w.last.number c = a := by
  have hafter : w.last.after c = some a := by
    cases hstep with
    | server | connect => cases hopened
    | socket h =>
      cases h with
      | subscribe =>
        obtain ⟨rfl, heq⟩ := Prod.mk.inj (some.inj hopened)
        exact heq
      | _ => cases hopened
  rw [number, (filter_eq_some_iff.1 hafter).1]
  rfl

/-- Under the condition, a stream is opened after a number up to which all messages of the
channel have been shown, from the start of its first history on. -/
theorem resume_misses_nothing (hnumbered : Numbered db) (hunique : UniqueMessages db)
    {trace : List SseLabel}
    (hrun : Run (Guarded Gapless (SseStep host distributed)) (.start db) trace w)
    (hstep : SseStep host distributed w l w') {a : Nat} (hopened : l.opened = some (c, some a))
    (hfirst : firstHistory c w.emitted = some history) :
    ∀ m ∈ w.chat.db.messages, m.channelId = c → firstSequence history ≤ m.sequence →
      m.sequence ≤ a → ∃ f ∈ w.emitted, ∃ y ∈ f.messages, y.id = m.id := by
  have hsafe : SseSafe w := hrun.invariant (fun _ _ _ hw hstep => hw.step hstep)
    (sseSafe_start ⟨hnumbered, hunique⟩)
  intro m hm hc hstart hle
  rw [← hstep.opened_after hopened] at hle
  rcases (hsafe.reached c history hfirst).covers m hm hc hstart hle with
    ⟨y, hy, hid⟩ | ⟨y, hy, hid⟩
  · obtain ⟨f, hf, hshows⟩ := firstHistory_mem hfirst
    exact ⟨f, hf, y, hshows y hy, hid⟩
  · obtain ⟨f, hf, hshows⟩ := mem_shown.1 hy
    exact ⟨f, hf, y, hshows, hid⟩

theorem gapless_still {opened : Option (ChannelId × Option Nat)}
    (horder : InOrder w.chat b) (hcaught : ∀ s ∈ streams w.sockets,
      (w.chat.actor.channel s.channel).events.head ≤ s.next) : Gapless w ⟨b, [], opened⟩ where
  inOrder := horder
  caughtUp := hcaught
  first _ _ _ hf := absurd hf not_mem_nil
  later _ _ _ hf := absurd hf not_mem_nil
  answers _ hf := absurd hf not_mem_nil

end

/-! ### A message of the client's own -/

namespace Sample

def shared : Db :=
  { chat with channelMemberships := [⟨room, alice, .owner, 0⟩, ⟨room, bob, .member, 0⟩] }

def own (sequence : Nat) : ChatMessage :=
  ⟨⟨21⟩, room, none, alice, aliceName, hello, sequence, 0, none, none⟩

def theirs : ChatMessage := ⟨⟨20⟩, room, none, bob, bobName, hello, 1, 0, none, none⟩

def opening : SseFrame := .subscriptionStarted room "s1" []

def watching (db : Db) : SseWorld :=
  ⟨⟨db, listened, none, [], []⟩, fun _ => none,
    [⟨.opened, some room, none, some ⟨room, "s1", none, some listener, 1⟩, [], none⟩], [opening]⟩

theorem of_socket (before : List SseSocket) {last : LastSequence} {chat chat' : ChatWorld}
    {k k' : SseSocket} {l : SseLabel} {emitted : List SseFrame}
    (h : SocketStep host true last chat k l chat' k') :
    SseStep host true ⟨chat, last, before ++ [k], emitted⟩ l
      ⟨chat', l.emitted.foldl rememberSequence last, before ++ [k'], emitted ++ l.emitted⟩ :=
  .socket h

theorem gapless_silent {w : SseWorld} {o : Option (ChannelId × Option Nat)}
    (h : ∀ s ∈ streams w.sockets, (w.chat.actor.channel s.channel).events.head ≤ s.next) :
    Gapless w ⟨none, [], o⟩ :=
  gapless_still (inOrder_of_quiet rfl) h

theorem gapless_accepted {w : SseWorld} {m : ChatMessage}
    (h : ∀ s ∈ streams w.sockets, (w.chat.actor.channel s.channel).events.head ≤ s.next)
    (hfirst : ∀ x ∈ w.chat.db.messages, ¬x.sequence < m.sequence) :
    Gapless w (.emits [.messageAccepted m]) := by
  refine ⟨inOrder_of_quiet rfl, h, fun _ _ _ hf => ?_, fun _ _ _ hf => ?_,
    fun f hf _ c n hn _ _ x hx _ _ hlt => ?_⟩
  · cases mem_singleton.1 hf
  · cases mem_singleton.1 hf
  · rw [mem_singleton.1 hf] at hn
    cases hn
    exact absurd hlt (hfirst x hx)

theorem watching_run :
    ∃ trace, Run (Guarded Gapless (SseStep host true)) (.start shared) trace (watching shared) := by
  have hopening : Gapless ⟨⟨shared, listened, none, [], []⟩, fun _ => none,
      [⟨.opened, some room, some (room, "s1"), some ⟨room, "s1", none, some listener, 0⟩, [],
        none⟩],
      []⟩ (.emits [opening]) := by
    refine ⟨inOrder_of_quiet rfl, fun s hs => ?_, fun c id history _ _ => Nat.zero_le _,
      fun c id history _ hne => absurd rfl hne, fun f hf hanswer => ?_⟩
    · rw [mem_singleton.1 hs]
      exact Nat.zero_le _
    · rw [mem_singleton.1 hf] at hanswer
      cases hanswer
  have hconnected : Run (Guarded Gapless (SseStep host true)) (.start shared) _ _ :=
    .single ⟨gapless_silent nofun, .connect⟩
  have hsubscribed := ((hconnected.step ⟨gapless_silent nofun, of_socket [] (.opens rfl)⟩).step
    ⟨gapless_silent nofun, of_socket [] (.send rfl (.subscribeChannel room "s1"))⟩).step
    ⟨gapless_silent nofun, of_socket [] (.subscribe rfl rfl)⟩
  have hstarted := (hsubscribed.step
    ⟨gapless_silent nofun, .server (.ask (.subscribe room alice) (.quiet 0 0) rfl)⟩).step
    ⟨gapless_silent nofun, of_socket [] (.started (.ok ()) ⟨7⟩ rfl rfl rfl rfl)⟩
  have hopened := hstarted.step ⟨hopening, of_socket [] (.message rfl rfl rfl)⟩
  exact ⟨_, hopened⟩

end Sample

open Sample in
theorem resume_misses_nothing_own :
    ∃ trace w l w', Run (Guarded Gapless (SseStep host true)) (.start shared) trace w ∧
      SseStep host true w l w' ∧ l.opened = some (room, some 1) ∧
        firstHistory room w.emitted = some [] ∧
          ∃ f ∈ w.emitted, ∃ y ∈ f.messages, y.id = (own 1).id := by
  have hnumbered : Numbered shared := ⟨numbered_chat.1, numbered_chat.2⟩
  obtain ⟨before, hwatching⟩ := watching_run
  have hposted := (hwatching.step
    ⟨gapless_silent (by decide), of_socket [] (.send rfl (.sendMessage said "m1"))⟩).step
    ⟨gapless_silent (by decide), of_socket [] (.post (.quiet 21 0) rfl rfl rfl)⟩
  -- the only message of the channel has no earlier ones
  have hfirst : ∀ x ∈ ((Command.sendMessage said (some "m1")).ask host (.quiet 21 0)
      shared).2.messages, ¬x.sequence < (own 1).sequence := by
    intro x hx
    rw [mem_singleton.1 hx]
    exact Nat.lt_irrefl _
  have hreplied := hposted.step ⟨gapless_still (fun m hm x hx _ hlt => absurd hlt (by
    cases hm
    exact hfirst x hx)) (by decide), of_socket [] (.reply (.ok ()) ⟨0⟩ rfl rfl)⟩
  have hresponded := hreplied.step
    ⟨gapless_accepted (by decide) hfirst, of_socket [] (.respond rfl rfl rfl)⟩
  have hlost := hresponded.step ⟨gapless_silent (by decide), of_socket [] .close⟩
  have hagain := ((hlost.step ⟨gapless_silent nofun, .connect⟩).step
    ⟨gapless_silent nofun, of_socket [_] (.opens rfl)⟩).step
    ⟨gapless_silent nofun, of_socket [_] (.send rfl (.subscribeChannel room "s2"))⟩
  refine ⟨_, _, _, _, hagain, of_socket [_] (.subscribe rfl rfl), rfl, rfl, ?_⟩
  exact resume_misses_nothing hnumbered nodup_nil hagain
    (of_socket [_] (.subscribe rfl rfl)) rfl rfl
    (own 1) mem_cons_self rfl (Nat.zero_le _) (Nat.le_refl 1)

open Sample in
/-- A message of the client's own is accepted with number 2 while the one before it has still to
come. The socket is lost and the next stream is opened after 2: number 1 is not shown. -/
theorem resume_skips_a_message :
    ∃ trace w l w', Run (SseStep host true) (.start shared) trace w ∧
      SseStep host true w l w' ∧ l.opened = some (room, some 2) ∧
        firstHistory room w.emitted = some [] ∧
          ∃ m ∈ w.chat.db.messages, m.channelId = room ∧ m.sequence ≤ 2 ∧
            ∀ f ∈ w.emitted, ∀ y ∈ f.messages, y.id ≠ m.id := by
  obtain ⟨before, hwatching⟩ := watching_run
  have hsends := hwatching.of_guarded.step
    (.server (.message (.append ⟨bob, room, none, hello⟩ (.quiet 20 0))))
  have hposted := ((hsends.step (of_socket [] (.send rfl (.sendMessage said "m1")))).step
    (of_socket [] (.post (.quiet 21 0) rfl rfl rfl))).step
      (of_socket [] (.reply (.ok ()) ⟨0⟩ rfl rfl))
  have hlost := (hposted.step (of_socket [] (.respond rfl rfl rfl))).step (of_socket [] .close)
  have hagain := ((hlost.step .connect).step (of_socket [_] (.opens rfl))).step
    (of_socket [_] (.send rfl (.subscribeChannel room "s2")))
  refine ⟨_, _, _, _, hagain, of_socket [_] (.subscribe rfl rfl), rfl,
    rfl, theirs, mem_cons_self, rfl, by decide, fun f hf y hy => ?_⟩
  rcases mem_cons.1 hf with rfl | hf
  · exact absurd hy not_mem_nil
  · rw [mem_singleton.1 hf] at hy
    rw [mem_singleton.1 hy]
    decide

end Sproyt
