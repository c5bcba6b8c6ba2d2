import Sproyt.Db.Growth
import Sproyt.Db.Spaces

/-!
# The ledger

Calls do a few things to the channels, the messages and what is read of them: a channel is opened
or removed, members come and go, and messages are posted and rewritten. A property that each of
these keeps is kept by every modelled call.
-/

namespace Sproyt

open Txn

abbrev Ledger := List Channel × List SequenceRow × List ChatMessage

def SeatedOver (old rows : List MembershipRow) : Prop :=
  ∀ r ∈ rows, r.lastReadSequence = 0 ∨ ∃ r₀ ∈ old, r = { r₀ with role := r.role }

def firstCounter (numbered : Bool) (c : ChannelId) : List SequenceRow :=
  if numbered then [⟨c, 1⟩] else []

/-- What calls do keeps this property. -/
structure Upheld (P : Db → Prop) : Prop where
  same : ∀ {db db' : Db}, P db → db'.ledger = db.ledger → db'.readings = db.readings → P db'
  /-- Only an accepted chat invitation opens a channel without a counter. -/
  opened : ∀ {db db' : Db} (ch : Channel) (numbered : Bool), P db →
    (∀ r ∈ db.channels, r.id ≠ ch.id) →
    db'.ledger = (db.channels ++ [ch], db.channelSequences ++ firstCounter numbered ch.id,
      db.messages) → db'.readings = db.readings → P db'
  seated : ∀ {db : Db} {rows : List MembershipRow}, P db → SeatedOver db.channelMemberships rows →
    P { db with channelMemberships := rows }
  removed : ∀ {db : Db} (gone : ChannelId → Bool), P db → P (db.removeChannels gone)
  posted : ∀ {db db' : Db} {m : ChatMessage}, P db → Posted db m db' →
    db'.readings = db.readings → P db'
  rewritten : ∀ {db db' : Db} {row m : ChatMessage}, P db → Rewritten db row m db' → P db'

section

variable {host : Host} {P : Db → Prop} {db db' : Db} {m : ChatMessage}

section

variable (hP : Upheld P)

include hP

theorem Upheld.of_frame {α : Type} {t : Sql α} (h : Frame Db.core t) : Keeps P t :=
  h.keeps fun _ _ hcore hdb => hP.same hdb (congrArg Prod.fst hcore) (congrArg Prod.snd hcore)

/-! ### Channels -/

theorem Upheld.members (hdb : P db) {rows : List MembershipRow}
    (hrows : ∀ r ∈ rows, r.lastReadSequence = 0) :
    P { db with channelMemberships := db.channelMemberships ++ rows } := by
  refine hP.seated hdb fun r hr => ?_
  rcases List.mem_append.1 hr with hr | hr
  · exact .inr ⟨r, hr, rfl⟩
  · exact .inl (hrows r hr)

theorem Upheld.member (hdb : P db) {c : ChannelId} {u : UserId} {role : MembershipRole} :
    P { db with channelMemberships := db.channelMemberships ++ [⟨c, u, role, 0⟩] } := by
  refine hP.members hdb fun r hr => ?_
  rw [List.mem_singleton.1 hr]

theorem Upheld.members_filter (hdb : P db) {stays : MembershipRow → Bool} :
    P { db with channelMemberships := db.channelMemberships.filter stays } :=
  hP.seated hdb fun r hr => .inr ⟨r, (List.mem_filter.1 hr).1, rfl⟩

theorem upsertUser_upheld {id : UserId} {kind : PrincipalKind}
    {name : DisplayName} {handle known : Option String} :
    Keeps P (upsertUser id kind name handle known) := by
  refine .write fun db hdb => hP.same (hP.members hdb (fun r hr => ?_)) rfl rfl
  obtain ⟨c, -, rfl⟩ := List.mem_map.1 hr
  rfl

theorem Upheld.open (hdb : P db) (ch : Channel) (hfree : ∀ r ∈ db.channels, r.id ≠ ch.id) :
    P (db.withChannel ch) ∧ P { db with channels := db.channels ++ [ch] } := by
  refine ⟨hP.opened ch true hdb hfree rfl rfl, hP.opened ch false hdb hfree ?_ rfl⟩
  simp [Db.ledger, firstCounter]

variable {p : Pending}

theorem Upheld.of_effect (h : CallEffect host db p db') (hdb : P db) : P db' := by
  cases h with
  | stay => exact hdb
  | opened ch rows _ hfree hrows =>
    refine hP.seated (hP.open hdb ch hfree.channel).1 fun r hr => ?_
    exact (hrows r hr).elim .inr fun hnew => .inl hnew.2.1
  | paired ch actor other hfree =>
    have hseats : ∀ r ∈ [(⟨ch.id, actor, .member, 0⟩ : MembershipRow), ⟨ch.id, other, .member, 0⟩],
        r.lastReadSequence = 0 := by simp
    exact hP.same (hP.members (hP.open hdb ch hfree.channel).1 hseats) rfl rfl
  | takenBack ch _ hfree => exact hP.removed _ (hP.open hdb ch hfree.channel).1
  | seated c u => exact hP.member hdb
  | unseated => exact hP.members_filter hdb
  | left => exact hP.same (hP.members_filter hdb) rfl rfl
  | dissolved _ k =>
    exact hP.same (hP.removed
      (fun c => db.channels.any fun r => r.id = c ∧ r.circleId = some k) hdb)
      rfl rfl
  | rolled | invited => exact hP.same hdb rfl rfl
  | accepted actor token target id now added rows seats h =>
    have hadded : P { db with channels := db.channels ++ added } := by
      rcases h.prat with rfl | ⟨hfree, k, -, -, rfl⟩
      · exact hP.same hdb (by simp [Db.ledger]) rfl
      · refine (hP.open hdb _ fun r hr heq => ?_).2
        exact absurd (decide_eq_true heq) (List.any_eq_false.1 hfree r hr)
    exact hP.same (hP.members hadded fun r hr => (h.seated r hr).2.1) rfl rfl
  | appended command env m h => exact hP.posted hdb h.toPosted h.readings

theorem Upheld.of_does (h : Does host db p db') (hdb : P db) : P db' := by
  obtain ⟨d, heffect, hd⟩ := h
  rw [hd]
  exact hP.same (hP.of_effect heffect hdb) rfl rfl

theorem upheld_of_rollCall (call : RollCall) (hdb : P db) : P (call.exec host db) := by
  cases call with
  | upsertUser id kind name handle known =>
    exact (upsertUser_upheld hP).commit hdb
  | updateProfile actor name =>
    have hframe : Frame Db.core (updateProfile actor name) := .updateOne fun _ => rfl
    exact (hP.of_frame hframe).commit hdb
  | setCircleMemberRole command =>
    have hframe : Frame Db.core (setCircleMemberRole command) :=
      .check <| .look fun _ => .bind .demand fun _ =>
        .bind (.write fun _ => rfl) fun _ => .pure
    exact (hP.of_frame hframe).commit hdb
  | statement p => exact hP.of_does (exec_does host p db) hdb

end

/-! ### Messages -/

theorem Prepared.upheld (h : Prepared db db') (hP : Upheld P) (hdb : P db) : P db' := by
  cases h with
  | same h => exact hP.same hdb (congrArg Prod.fst h) (congrArg Prod.snd h)
  | opened ch owner hnew h =>
    have hfree : ∀ r ∈ db.channels, r.id ≠ ch.id :=
      fun r hr heq => absurd (decide_eq_true heq) (List.any_eq_false.1 hnew r hr)
    exact hP.same (hP.member (hP.open hdb ch hfree).1) (congrArg Prod.fst h)
      (congrArg Prod.snd h)

theorem Effect.upheld {target : Option ChannelId} (h : Effect db target db') (hP : Upheld P)
    (hdb : P db) : P db' := by
  cases h with
  | quiet h => exact h.upheld hP hdb
  | posted hpre _ h hreadings => exact hP.posted (hpre.upheld hP hdb) h hreadings

theorem upheld_of_writer (hP : Upheld P) (w : Writer) : Keeps P (w.body host) :=
  fun _ _ _ hdb h => w.effect h |>.upheld hP hdb

theorem upheld_of_messageCall (hP : Upheld P) (call : MessageCall) : Keeps P (call.body host) := by
  intro db o db' hdb h
  rcases MessageCall.effect h with ⟨target, heffect⟩ | ⟨row, m, hrewritten⟩
  · exact heffect.upheld hP hdb
  · exact hP.rewritten hdb hrewritten

end

inductive AnyCall
  | roll (call : RollCall)
  | write (w : Writer)
  | message (call : MessageCall)

def AnyCall.exec (host : Host) (call : AnyCall) (db : Db) : Db :=
  match call with
  | roll call => call.exec host db
  | write w => ((w.body host).commit db).2
  | message call => ((call.body host).commit db).2

inductive AnyStep (host : Host) : Db → AnyCall → Db → Prop
  | call {db : Db} (call : AnyCall) : AnyStep host db call (call.exec host db)

theorem AnyStep.upheld {host : Host} {P : Db → Prop} {db db' : Db} {call : AnyCall}
    (h : AnyStep host db call db') (hP : Upheld P) (hdb : P db) : P db' := by
  obtain ⟨call⟩ := h
  cases call with
  | roll call => exact upheld_of_rollCall hP call hdb
  | write w => exact (upheld_of_writer hP w).commit hdb
  | message call => exact (upheld_of_messageCall hP call).commit hdb

theorem Upheld.of_run {host : Host} {P : Db → Prop} {trace : List AnyCall} {db db' : Db}
    (hP : Upheld P) (h : Run (AnyStep host) db trace db') (hdb : P db) : P db' :=
  h.invariant (fun _ _ _ hdb hstep => hstep.upheld hP hdb) hdb

/-- Whatever is sent, delivered, edited or deleted: messages keep their id, channel and number, and
nothing comes in behind a message that is there. -/
theorem history_behind_messages_is_settled {host : Host} {trace : List AnyCall} {db db' : Db}
    (hdb : Orderly db)
    (hrun : Run (Guarded (fun _ l => ∀ c, l ≠ .roll c) (AnyStep host)) db trace db') :
    (∀ m ∈ db.messages, ∃ m' ∈ db'.messages, m'.stamp = m.stamp) ∧
      ∀ m ∈ db.messages, ∀ m' ∈ db'.messages, m'.channelId = m.channelId →
        m'.sequence ≤ m.sequence → ∃ r ∈ db.messages, r.stamp = m'.stamp := by
  have hgrows : Grows db db' ∧ Orderly db' := by
    refine hrun.invariant (P := fun db' => Grows db db' ∧ Orderly db') ?_ ⟨.refl db, hdb⟩
    rintro db₁ call _ ⟨hgrows, hdb₁⟩ ⟨hcall, ⟨⟩⟩
    cases call with
    | roll c => exact absurd rfl (hcall c)
    | write w => exact (w.grows hdb₁).imp_left hgrows.trans
    | message call => exact (call.grows hdb₁).imp_left hgrows.trans
  refine ⟨hgrows.1.keeps, fun m hm m' hm' hc hle => (hgrows.1.new m' hm').resolve_right ?_⟩
  exact fun hlast => (hlast m hm hc.symm).not_ge hle

open Sample in
/-- Another message is sent, and the first one is deleted. -/
theorem history_is_settled_for_liked :
    let later := after (after liked (.append ⟨alice, room, none, hello⟩ (.quiet 21 3))) removal
    liked.messages.length = 1 ∧ later.messages.length = 2 ∧
      (∀ m ∈ liked.messages, ∃ m' ∈ later.messages, m'.stamp = m.stamp) ∧
      ∀ m ∈ liked.messages, ∀ m' ∈ later.messages, m'.channelId = m.channelId →
        m'.sequence ≤ m.sequence → ∃ r ∈ liked.messages, r.stamp = m'.stamp := by
  have hdb : Orderly liked :=
    (MessageCall.grows _ (MessageCall.grows _ ⟨numbered_chat, List.nodup_nil⟩).2).2
  have hsend := @AnyStep.call host liked
    (.message (.append ⟨alice, room, none, hello⟩ (.quiet 21 3)))
  obtain ⟨hkept, hbehind⟩ := history_behind_messages_is_settled hdb
    ((Run.single ⟨fun _ h => AnyCall.noConfusion h, hsend⟩).step
      ⟨fun _ h => AnyCall.noConfusion h, .call (.message removal)⟩)
  exact ⟨rfl, rfl, hkept, hbehind⟩

end Sproyt
