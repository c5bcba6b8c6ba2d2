import Sproyt.Db.Effects

/-!
# Every channel has its counter

A channel without a `channel_sequences` row cannot take messages: `append_message` answers
`NotFound` to its members. All creating operations insert the row with the channel, except
`accept_chat_invitation` where it brings the channel about.
-/

namespace Sproyt

open List Txn

def SequencesComplete (db : Db) : Prop :=
  ∀ c ∈ db.channels, (db.channelSequences.filter fun r => r.channelId = c.id).length = 1

theorem withChannel_complete {db : Db} {ch : Channel} (h : SequencesComplete db)
    (hfree : Free db ch.id) : SequencesComplete (db.withChannel ch) := by
  intro x hx
  simp only [Db.withChannel, filter_append, length_append]
  rcases mem_append.1 hx with hx | hx
  · simpa [(hfree.channel x hx).symm] using h x hx
  · rw [mem_singleton.1 hx]
    have hnone : db.channelSequences.filter (fun r => r.channelId = ch.id) = [] := by
      rw [filter_eq_nil_iff]
      intro r hr
      simpa using hfree.counter r hr
    simp [hnone]

theorem removeChannels_complete {db : Db} (h : SequencesComplete db) (gone : ChannelId → Bool) :
    SequencesComplete (db.removeChannels gone) := by
  intro c hc
  obtain ⟨hc, hstay⟩ := mem_filter.1 hc
  have hrows : (db.removeChannels gone).channelSequences.filter (fun r => r.channelId = c.id) =
      db.channelSequences.filter fun r => r.channelId = c.id := by
    simp only [Db.removeChannels, filter_filter]
    apply filter_congr
    intro r _
    by_cases hr : r.channelId = c.id
    · simp [hr, hstay]
    · simp [hr]
  rw [hrows]
  exact h c hc

/-! ### Runs -/

/-- The calls that keep the counters complete: accepting an invitation into a circle may
not have to create the circle's chat channel. -/
def PratPresent (w : World) : Label → Prop
  | .resume (.acceptChatInvitation _ _ (.circle k) _ _) => (w.db.prat? k).isSome
  | _ => True

/-- One statement or transaction of any call keeps the counters complete. -/
theorem exec_complete (host : Host) (p : Pending) {db : Db} (hdb : SequencesComplete db)
    (hp : ∀ actor token k id now, p = .acceptChatInvitation actor token (.circle k) id now →
      (db.prat? k).isSome) : SequencesComplete (p.exec host db).2 := by
  obtain ⟨d, heffect, hd⟩ := exec_does host p db
  suffices h : SequencesComplete d by rw [hd]; exact h
  cases heffect with
  | stay | seated | unseated | left | rolled | invited => exact hdb
  | opened ch _ _ hfree | paired ch _ _ hfree => exact withChannel_complete hdb hfree
  | takenBack ch _ hfree => exact removeChannels_complete (withChannel_complete hdb hfree) _
  | dissolved _ k =>
    exact removeChannels_complete hdb fun c =>
      db.channels.any fun r => r.id = c ∧ r.circleId = some k
  | accepted actor token target id now added rows seats h =>
    rcases h.prat with rfl | ⟨-, k, rfl, hnone, -⟩
    · intro c hc
      exact hdb c (append_nil db.channels ▸ hc)
    · -- the circle has its chat channel
      have hsome := hp _ _ _ _ _ rfl
      rw [hnone] at hsome
      cases hsome
  | appended command env m h =>
    intro c hc
    rw [h.channels] at hc
    rw [h.channelSequences, bumpRows_filter, bumpRows, length_map]
    exact hdb c hc

theorem step_complete {host : Host} {w w' : World} {l : Label}
    (h : Guarded PratPresent (Step host) w l w') (hw : SequencesComplete w.db) :
    SequencesComplete w'.db := by
  obtain ⟨hl, hstep⟩ := h
  cases hstep with
  | call | abort => exact hw
  | @next db db' before after p q issued he | @done db db' before after p issued r he =>
    have hex := exec_complete host p hw (by rintro _ _ _ _ _ rfl; exact hl)
    rwa [he] at hex

/-- In every run that only accepts circle invitations into circles with a chat channel,
every channel keeps exactly one counter, and no member of a channel is told that it is not
found when they send a top-level message there. -/
theorem sequences_complete_and_append_found {host : Host} {w w' : World} {trace : List Label}
    (hrun : Run (Guarded PratPresent (Step host)) w trace w') (hw : SequencesComplete w.db) :
    SequencesComplete w'.db ∧
      ∀ (command : SendMessage) (env : SendEnv), w'.db.hasChannel command.channelId = true →
        w'.db.inChannel command.channelId command.actor = true →
        command.parentMessageId = none →
        ((appendMessage host command env).commit w'.db).1 ≠ .error .notFound := by
  have hw' : SequencesComplete w'.db :=
    hrun.invariant (P := fun w => SequencesComplete w.db) (fun _ _ _ h hs => step_complete hs h) hw
  refine ⟨hw', fun command env hchannel _ hparent h => ?_⟩
  obtain ⟨c, hc, hid⟩ := any_eq_true.1 hchannel
  have hid : c.id = command.channelId := by simpa using hid
  have hone := hw' c hc
  rw [hid] at hone
  obtain ⟨r, hr⟩ := length_eq_one_iff.1 hone
  have hmem := mem_filter.1 (hr ▸ mem_singleton_self r)
  exact appendMessage_ne_notFound ⟨r, hmem.1, by simpa using hmem.2⟩ hparent
    (commit_error_of_fst h).1

/-! ### Accepting an invitation into a circle, with and without a chat channel -/

namespace Sample

def invited : Db :=
  { db with chatInvitations := [chatInvitation host alice (.circle circle) 7 "token" 0] }

def invitedWithPrat : Db :=
  { invited with
    channels := [⟨⟨8⟩, circle.uuid.simple ++ "-prat", pratName, .privateChannel, some circle,
      alice⟩]
    channelSequences := [⟨⟨8⟩, 1⟩]
    channelMemberships := [⟨⟨8⟩, alice, .owner, 0⟩] }

def preview : Pending := .previewChatInvitation bob "token" ⟨9⟩ 0 0

def accept : Pending := .acceptChatInvitation bob "token" (.circle circle) ⟨9⟩ 0

def accepted (db : Db) : Db := (accept.exec host db).2

def hei (c : ChannelId) : SendMessage := ⟨bob, c, none, hello⟩

theorem accept_run (allowed : World → Label → Prop) (db : Db) (issued : List ChannelId)
    (hpreview : preview.exec host db = (.next accept, db)) (hnew : ⟨9⟩ ∉ issued)
    (hcall : allowed ⟨db, [], issued⟩ (.call preview))
    (hread : allowed ⟨db, [preview], ⟨9⟩ :: issued⟩ (.resume preview))
    (haccept : allowed ⟨db, [accept], ⟨9⟩ :: issued⟩ (.resume accept)) :
    Run (Guarded allowed (Step host)) ⟨db, [], issued⟩
      [.call preview, .resume preview, .resume accept] ⟨accepted db, [], ⟨9⟩ :: issued⟩ := by
  refine .cons (t := ⟨db, [preview], ⟨9⟩ :: issued⟩) ⟨hcall, .call rfl ?_⟩ ?_
  · rintro c ⟨rfl⟩
    exact hnew
  refine .cons ⟨hread, @Step.next _ db db [] [] preview accept _ hpreview⟩ (.single ⟨haccept, ?_⟩)
  exact @Step.done _ db _ [] [] accept _ _ rfl

end Sample

open Sample in
theorem sequences_complete_after_accept :
    SequencesComplete invitedWithPrat ∧ SequencesComplete (accepted invitedWithPrat) ∧
      ((appendMessage host (hei ⟨8⟩) (.quiet 20 0)).commit (accepted invitedWithPrat)).1 ≠
        .error .notFound := by
  have hinit : SequencesComplete invitedWithPrat := by
    intro c hc
    simp only [invitedWithPrat, mem_singleton] at hc
    subst hc
    rfl
  have hrun := accept_run PratPresent invitedWithPrat [⟨8⟩] rfl (by decide) trivial trivial
    (show (invitedWithPrat.prat? circle).isSome = true from rfl)
  obtain ⟨hcomplete, happend⟩ := sequences_complete_and_append_found hrun hinit
  exact ⟨hinit, hcomplete, happend (hei ⟨8⟩) (.quiet 20 0) rfl rfl rfl⟩

open Sample in
/-- Bob accepts an invitation into a circle without a chat channel. The channel is created
with Bob as a member, and no message can be sent to it. -/
theorem accepted_prat_has_no_counter :
    ∃ trace issued, Run (Step host) ⟨invited, [], []⟩ trace ⟨accepted invited, [], issued⟩ ∧
      SequencesComplete invited ∧ ¬ SequencesComplete (accepted invited) ∧
      (accepted invited).hasChannel ⟨9⟩ = true ∧ (accepted invited).inChannel ⟨9⟩ bob = true ∧
      ((appendMessage host (hei ⟨9⟩) (.quiet 20 0)).commit (accepted invited)).1 =
        .error .notFound := by
  refine ⟨_, _, (accept_run (fun _ _ => True) invited [] rfl (by decide) trivial trivial
    trivial).of_guarded, ?_, ?_, rfl, rfl, rfl⟩
  · intro c hc
    cases hc
  · intro h
    have hone := h ⟨⟨9⟩, circle.uuid.simple ++ "-prat", pratName, .privateChannel, some circle, bob⟩
      (mem_singleton_self _)
    exact absurd hone (by decide)

end Sproyt
