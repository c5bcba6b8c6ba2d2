import Sproyt.Db.Channels
import Sproyt.Lib.Grouping

/-!
# References to channels

A message names channels by their slugs. A slug is resolved in the scope of the channel the
message stands in, which is a circle or the channels outside all circles, and only where it
names one channel: private channels take no part, not even by making a name ambiguous.
-/

namespace Sproyt

open List

structure ResolvedChannelReference where
  id : ChannelId
  slug : ChannelSlug
  name : DisplayName
  isMember : Bool
deriving DecidableEq

/-! ### resolve_channel_references -/

/-- The `source` of the statement: the scope of a channel the actor is in. -/
def Db.referenceScope? (db : Db) (actor : UserId) (source : ChannelId) :
    Option (Option CircleId) :=
  match db.channel? source with
  | none => none
  | some c =>
    if db.inChannel source actor ∧ c.circleId.all (db.inCircle · actor) then some c.circleId
    else none

/-- The `where` clause of `matched`. -/
def takesPart (scope : Option CircleId) (target : Channel) : Bool :=
  target.circleId = scope && target.kind != .privateChannel

/-- The conditions of `matched`. Outside a circle the longer slug is null, which equals nothing. -/
def referable (scope : Option CircleId) (slug : ChannelSlug) (target : Channel) : Bool :=
  (target.slug = slug.text || scope.any fun k => target.slug = k.uuid.simple ++ "-" ++ slug.text) &&
    takesPart scope target

/-- The `matched` rows before they are counted. -/
def Db.matched (db : Db) (scope : Option CircleId) (slugs : List ChannelSlug) :
    List (ChannelSlug × Channel) :=
  slugs.dedup.flatMap fun slug =>
    (db.channels.filter (referable scope slug)).map fun target => (slug, target)

/-- The rows with `choices = 1`, by slug. -/
def Db.chosen (db : Db) (scope : Option CircleId) (slugs : List ChannelSlug) :
    List (ChannelSlug × Channel) :=
  let rows := db.matched scope slugs
  (rows.filter fun row => (rows.filter (·.1 = row.1)).length = 1).insertionSort
    fun a b => a.1.text ≤ b.1.text

/-- The rows of the statement. The left join gives one null row where nothing is chosen. -/
def Db.referenceRows (db : Db) (actor : UserId) (source : ChannelId) (slugs : List ChannelSlug) :
    List (Option (ChannelSlug × Channel)) :=
  match db.referenceScope? actor source with
  | none => []
  | some scope =>
    if db.chosen scope slugs = [] then [none] else (db.chosen scope slugs).map some

/-- One row in `decode`. Id and slug are read back from texts they were printed to. -/
def Db.decodeReference (db : Db) (actor : UserId) (row : ChannelSlug × Channel) :
    Except RepositoryError ResolvedChannelReference := do
  let name ← storageText (DisplayName.new row.2.name.text)
  pure ⟨row.2.id, row.1, name, db.inChannel row.2.id actor⟩

def resolveChannelReferences (actor : UserId) (source : ChannelId) (slugs : List ChannelSlug)
    (db : Db) : Except RepositoryError (List ResolvedChannelReference) :=
  let rows := db.referenceRows actor source slugs
  if rows.isEmpty then .error .permissionDenied
  else (rows.filterMap id).mapM (db.decodeReference actor)

/-! ### The chosen rows -/

def Db.MayRefer (db : Db) (actor : UserId) (source : ChannelId) (scope : Option CircleId) : Prop :=
  ∃ c, db.channel? source = some c ∧ c.circleId = scope ∧ db.inChannel source actor = true ∧
    ∀ k, scope = some k → db.inCircle k actor = true

structure Referable (scope : Option CircleId) (slug : ChannelSlug) (c : Channel) : Prop where
  named : c.slug = slug.text ∨ ∃ k, scope = some k ∧ c.slug = k.uuid.simple ++ "-" ++ slug.text
  inScope : c.circleId = scope
  shown : c.kind ≠ .privateChannel

def OnlyEntry {α : Type} (p : α → Prop) (l : List α) (a : α) : Prop :=
  ∃ before after, l = before ++ a :: after ∧ p a ∧ ∀ b ∈ before ++ after, ¬ p b

theorem filter_eq_singleton_iff {α : Type} {p : α → Prop} {q : α → Bool}
    (hq : ∀ b, q b = true ↔ p b) {l : List α} {a : α} : l.filter q = [a] ↔ OnlyEntry p l a := by
  constructor
  · intro h
    obtain ⟨before, after, rfl, hbefore, ha, hafter⟩ := filter_eq_cons_iff.1 h
    refine ⟨before, after, rfl, (hq a).1 ha, fun b hb hp => ?_⟩
    rcases mem_append.1 hb with hb | hb
    · exact hbefore b hb ((hq b).2 hp)
    · exact filter_eq_nil_iff.1 hafter b hb ((hq b).2 hp)
  · rintro ⟨before, after, rfl, ha, hothers⟩
    have hnone : (before ++ after).filter q = [] :=
      filter_eq_nil_iff.2 fun b hb hb' => hothers b hb ((hq b).1 hb')
    rw [filter_append, append_eq_nil_iff] at hnone
    rw [filter_append, filter_cons_of_pos ((hq a).2 ha), hnone.1, hnone.2, nil_append]

variable {slug : ChannelSlug} {row : ChannelSlug × Channel}

theorem referable_iff {scope : Option CircleId} (c : Channel) :
    referable scope slug c = true ↔ Referable scope slug c := by
  have hany : (scope.any fun k => c.slug = k.uuid.simple ++ "-" ++ slug.text) = true ↔
      ∃ k, scope = some k ∧ c.slug = k.uuid.simple ++ "-" ++ slug.text := by
    cases scope <;> simp
  simp only [referable, takesPart, Bool.and_eq_true, Bool.or_eq_true, decide_eq_true_eq,
    bne_iff_ne, hany]
  exact ⟨fun h => ⟨h.1, h.2.1, h.2.2⟩, fun h => ⟨h.named, h.inScope, h.shown⟩⟩

variable {db db' : Db} {actor : UserId} {source : ChannelId} {slugs : List ChannelSlug}
  {scope : Option CircleId}

theorem referenceScope?_eq_some :
    db.referenceScope? actor source = some scope ↔ db.MayRefer actor source scope := by
  rw [Db.referenceScope?, Db.MayRefer]
  cases db.channel? source with
  | none => simp
  | some c =>
    have hcircle : c.circleId.all (db.inCircle · actor) = true ↔
        ∀ k, c.circleId = some k → db.inCircle k actor = true := by
      cases c.circleId <;> simp
    simp only [hcircle, Option.some.injEq, exists_eq_left']
    constructor
    · intro h
      split at h
      · next hmay =>
        cases h
        exact ⟨rfl, hmay⟩
      · cases h
    · rintro ⟨rfl, hmay⟩
      rw [if_pos hmay]

theorem matched_filter (h : slug ∈ slugs) :
    (db.matched scope slugs).filter (fun row => row.1 = slug) =
      (db.channels.filter (referable scope slug)).map fun target => (slug, target) := by
  have hrows : ∀ requested : List ChannelSlug, requested.Nodup →
      (requested.flatMap fun s => (db.channels.filter (referable scope s)).map fun target =>
        (s, target)).filter (fun row => row.1 = slug) =
      if slug ∈ requested then (db.channels.filter (referable scope slug)).map fun target =>
        (slug, target) else [] := by
    intro requested hnodup
    induction requested with
    | nil => rfl
    | cons s rest ih =>
      obtain ⟨hs, hrest⟩ := nodup_cons.1 hnodup
      rw [flatMap_cons, filter_append, ih hrest, filter_map]
      by_cases heq : s = slug
      · subst heq
        simp [Function.comp_def, hs]
      · simp [Function.comp_def, heq, Ne.symm heq]
  rw [Db.matched, hrows _ (nodup_dedup slugs), if_pos (mem_dedup.2 h)]

theorem chosen_eq : db.chosen scope slugs = (slugs.dedup.flatMap fun slug =>
      if (db.channels.filter (referable scope slug)).length = 1 then
        (db.channels.filter (referable scope slug)).map fun target => (slug, target)
      else []).insertionSort fun a b => a.1.text ≤ b.1.text := by
  have hcounted : ∀ slug ∈ slugs.dedup,
      ((db.channels.filter (referable scope slug)).map fun target => (slug, target)).filter
        (fun row => ((db.matched scope slugs).filter (·.1 = row.1)).length = 1) =
      if (db.channels.filter (referable scope slug)).length = 1 then
        (db.channels.filter (referable scope slug)).map fun target => (slug, target)
      else [] := by
    intro slug hslug
    rw [filter_map, Function.comp_def]
    simp only [matched_filter (mem_dedup.1 hslug), length_map]
    split <;> simp [*]
  exact congrArg (insertionSort _) (filter_flatMap.trans (flatMap_congr hcounted))

theorem mem_chosen : row ∈ db.chosen scope slugs ↔
    row.1 ∈ slugs ∧ OnlyEntry (Referable scope row.1) db.channels row.2 := by
  obtain ⟨slug, c⟩ := row
  rw [← filter_eq_singleton_iff referable_iff, chosen_eq, mem_insertionSort, mem_flatMap]
  constructor
  · rintro ⟨s, hs, hrow⟩
    split at hrow
    · next hone =>
      obtain ⟨d, hd⟩ := length_eq_one_iff.1 hone
      rw [hd, map_singleton, mem_singleton] at hrow
      cases hrow
      exact ⟨mem_dedup.1 hs, hd⟩
    · cases hrow
  · rintro ⟨hs, hone⟩
    exact ⟨slug, mem_dedup.2 hs, by simp [hone]⟩

theorem resolve_eq (h : db.MayRefer actor source scope) :
    resolveChannelReferences actor source slugs db =
      (db.chosen scope slugs).mapM (db.decodeReference actor) := by
  rw [resolveChannelReferences, Db.referenceRows, referenceScope?_eq_some.2 h]
  simp only
  by_cases hnone : db.chosen scope slugs = []
  · rw [if_pos hnone, hnone]
    rfl
  · rw [if_neg hnone, filterMap_map, isEmpty_map, isEmpty_eq_false_iff.2 hnone]
    simp

theorem resolve_denied (h : ∀ scope, ¬ db.MayRefer actor source scope) :
    resolveChannelReferences actor source slugs db = .error .permissionDenied := by
  have hnone : db.referenceScope? actor source = none :=
    Option.eq_none_iff_forall_ne_some.2 fun scope hs => h scope (referenceScope?_eq_some.1 hs)
  simp only [resolveChannelReferences, Db.referenceRows, hnone, isEmpty_nil, if_true]

theorem decodeReference_ok {t : ResolvedChannelReference} :
    db.decodeReference actor row = .ok t ↔ t.slug = row.1 ∧ t.id = row.2.id ∧
      DisplayName.new row.2.name.text = .ok t.name ∧ t.isMember = db.inChannel row.2.id actor := by
  obtain ⟨id, slug, name, isMember⟩ := t
  cases hname : DisplayName.new row.2.name.text with
  | error e => simp [Db.decodeReference, storageText, hname, Except.mapError, bind, Except.bind]
  | ok value =>
    simp [Db.decodeReference, storageText, hname, Except.mapError, bind, Except.bind, pure,
      Except.pure]
    grind

theorem decodeReference_error {e : RepositoryError} (h : db.decodeReference actor row = .error e) :
    ∃ e', DisplayName.new row.2.name.text = .error e' ∧ e = .storage e'.display := by
  cases hname : DisplayName.new row.2.name.text with
  | error e' =>
    simp only [Db.decodeReference, storageText, hname] at h
    cases h
    exact ⟨e', rfl, rfl⟩
  | ok value =>
    simp only [Db.decodeReference, storageText, hname] at h
    cases h

/-! ### What the states may differ in -/

/-- The states differ only in private channels and in channels of other circles: the channels
that take part in the scope are the same, with the same members, and so are the circles. -/
structure DifferOutside (scope : Option CircleId) (db db' : Db) : Prop where
  channels : (db'.channels.filter (takesPart scope)).Perm (db.channels.filter (takesPart scope))
  members : ∀ c ∈ db.channels, takesPart scope c = true →
    ∀ u, db'.inChannel c.id u = db.inChannel c.id u
  circles : ∀ k u, db'.inCircle k u = db.inCircle k u

theorem DifferOutside.chosen (h : DifferOutside scope db db') :
    db'.chosen scope slugs = db.chosen scope slugs := by
  have hperm : ∀ slug, (db'.channels.filter (referable scope slug)).Perm
      (db.channels.filter (referable scope slug)) := by
    intro slug
    have hnamed := h.channels.filter fun c => c.slug = slug.text ||
      scope.any fun k => c.slug = k.uuid.simple ++ "-" ++ slug.text
    rwa [filter_filter, filter_filter] at hnamed
  rw [chosen_eq, chosen_eq]
  congr 1
  refine flatMap_congr fun slug _ => ?_
  rw [(hperm slug).length_eq]
  split
  · next hone =>
    obtain ⟨c, hc⟩ := length_eq_one_iff.1 hone
    have hperm' := hperm slug
    rw [hc, perm_singleton] at hperm'
    rw [hperm', hc]
  · rfl

theorem mayRefer_iff : db.MayRefer actor source scope ↔
    (db.channel? source).map (·.circleId) = some scope ∧ db.inChannel source actor = true ∧
      ∀ k, scope = some k → db.inCircle k actor = true := by
  rw [Db.MayRefer, Option.map_eq_some_iff]
  constructor
  · rintro ⟨c, hc, hscope, hmember⟩
    exact ⟨⟨c, hc, hscope⟩, hmember⟩
  · rintro ⟨⟨c, hc, hscope⟩, hmember⟩
    exact ⟨c, hc, hscope, hmember⟩

theorem DifferOutside.mayRefer (h : DifferOutside scope db db')
    (hsource : (db'.channel? source).map (·.circleId) = (db.channel? source).map (·.circleId))
    (hseat : db'.inChannel source actor = db.inChannel source actor) {scope' : Option CircleId} :
    db'.MayRefer actor source scope' ↔ db.MayRefer actor source scope' := by
  simp only [mayRefer_iff, hsource, hseat, h.circles]

theorem DifferOutside.resolve {c : Channel} (hc : db.channel? source = some c)
    (h : DifferOutside c.circleId db db')
    (hsource : (db'.channel? source).map (·.circleId) = (db.channel? source).map (·.circleId))
    (hseat : db'.inChannel source actor = db.inChannel source actor) :
    resolveChannelReferences actor source slugs db' =
      resolveChannelReferences actor source slugs db := by
  by_cases hmay : ∃ scope, db.MayRefer actor source scope
  · obtain ⟨scope, hmay⟩ := hmay
    obtain ⟨c', hc', rfl, -⟩ := id hmay
    cases hc.symm.trans hc'
    rw [resolve_eq hmay, resolve_eq ((h.mayRefer hsource hseat).2 hmay), h.chosen]
    refine Grouping.mapM_congr fun row hrow => ?_
    obtain ⟨-, before, after, hchannels, hshown, -⟩ := mem_chosen.1 hrow
    have hmem : row.2 ∈ db.channels := hchannels ▸ mem_append_right before mem_cons_self
    rw [Db.decodeReference, Db.decodeReference, h.members row.2 hmem ?_ actor]
    exact (Bool.and_eq_true_iff.1 ((referable_iff row.2).2 hshown)).2
  · have hmay := not_exists.1 hmay
    rw [resolve_denied hmay, resolve_denied fun scope hs =>
      hmay scope ((h.mayRefer hsource hseat).1 hs)]

/-- Channel references are denied exactly to those outside the source channel or its circle.
Otherwise a slug has a target exactly where one channel of the scope that is not private bears
it, and the target is that channel; only a channel name that is no display name makes the call
fail. Private channels and channels of other circles have no influence, as long as the source
channel stays in its circle and the actor in the source channel. -/
theorem channel_references_exact_and_isolated (actor : UserId) (source : ChannelId)
    (slugs : List ChannelSlug) (db : Db) :
    (resolveChannelReferences actor source slugs db = .error .permissionDenied ↔
      ∀ scope, ¬ db.MayRefer actor source scope) ∧
    (∀ scope, db.MayRefer actor source scope →
      (∀ targets, resolveChannelReferences actor source slugs db = .ok targets → ∀ t,
        t ∈ targets ↔ t.slug ∈ slugs ∧ ∃ c, OnlyEntry (Referable scope t.slug) db.channels c ∧
          t.id = c.id ∧ DisplayName.new c.name.text = .ok t.name ∧
          t.isMember = db.inChannel c.id actor) ∧
      ∀ e, resolveChannelReferences actor source slugs db = .error e →
        ∃ slug ∈ slugs, ∃ c, OnlyEntry (Referable scope slug) db.channels c ∧
          ∃ e', DisplayName.new c.name.text = .error e' ∧ e = .storage e'.display) ∧
    ∀ db' : Db, (db'.channel? source).map (·.circleId) = (db.channel? source).map (·.circleId) →
      db'.inChannel source actor = db.inChannel source actor →
      (∀ c, db.channel? source = some c → DifferOutside c.circleId db db') →
      resolveChannelReferences actor source slugs db' =
        resolveChannelReferences actor source slugs db := by
  refine ⟨⟨fun h scope hmay => ?_, resolve_denied⟩, fun scope hmay => ⟨fun targets h t => ?_,
    fun e h => ?_⟩, fun db' hsource hseat hdiffer => ?_⟩
  · rw [resolve_eq hmay] at h
    obtain ⟨row, -, hrow⟩ := Grouping.exists_row_of_mapM_error h
    obtain ⟨e', -, he⟩ := decodeReference_error hrow
    cases he
  · rw [resolve_eq hmay] at h
    rw [Grouping.mem_of_mapM h]
    constructor
    · rintro ⟨row, hrow, ht⟩
      obtain ⟨hslug, hrest⟩ := decodeReference_ok.1 ht
      obtain ⟨hmem, honly⟩ := mem_chosen.1 hrow
      rw [hslug]
      exact ⟨hmem, row.2, honly, hrest⟩
    · rintro ⟨hmem, c, honly, hrest⟩
      exact ⟨(t.slug, c), mem_chosen.2 ⟨hmem, honly⟩, decodeReference_ok.2 ⟨rfl, hrest⟩⟩
  · rw [resolve_eq hmay] at h
    obtain ⟨row, hrow, hfail⟩ := Grouping.exists_row_of_mapM_error h
    obtain ⟨hmem, honly⟩ := mem_chosen.1 hrow
    exact ⟨row.1, hmem, row.2, honly, decodeReference_error hfail⟩
  · cases hc : db.channel? source with
    | none =>
      -- there is no source channel in either state
      rw [resolve_denied, resolve_denied]
      · intro scope hmay
        rw [mayRefer_iff, hc] at hmay
        cases hmay.1
      · intro scope hmay
        rw [mayRefer_iff, hsource, hc] at hmay
        cases hmay.1
    | some c => exact (hdiffer c hc).resolve hc hsource hseat

namespace Sample

def rom : ChannelSlug := ⟨"familie-rom", by decide, by decide⟩

def chatWithPrivate : Db :=
  { chat with
    channels := ⟨⟨9⟩, circle.uuid.simple ++ "-familie-rom", roomName, .privateChannel, some circle,
      alice⟩ :: chat.channels
    channelMemberships := ⟨⟨9⟩, alice, .owner, 0⟩ :: chat.channelMemberships }

theorem privateAdded : DifferOutside (some circle) chat chatWithPrivate := by
  refine ⟨by decide +kernel, fun c hc _ u => ?_, fun _ _ => rfl⟩
  obtain rfl := mem_singleton.1 hc
  simp [Db.inChannel, chatWithPrivate, chat, room]

end Sample

open Sample in
theorem references_past_private :
    resolveChannelReferences alice room [rom] chat = .ok [⟨room, rom, roomName, true⟩] ∧
      resolveChannelReferences alice room [rom] chatWithPrivate =
        resolveChannelReferences alice room [rom] chat :=
  ⟨by decide +kernel, (channel_references_exact_and_isolated alice room [rom] chat).2.2
    chatWithPrivate (by decide +kernel) (by decide +kernel) fun c hc => by
      cases hc
      exact privateAdded⟩

open Sample in
/-- The states differ in one private channel, the one the reference stands in. -/
theorem references_from_private :
    ∃ (actor : UserId) (source : ChannelId) (slugs : List ChannelSlug) (db db' : Db),
      DifferOutside (some circle) db db' ∧ db'.MayRefer actor source (some circle) ∧
      resolveChannelReferences actor source slugs db ≠
        resolveChannelReferences actor source slugs db' :=
  ⟨alice, ⟨9⟩, [rom], chat, chatWithPrivate, privateAdded,
    referenceScope?_eq_some.1 (by decide +kernel), by decide +kernel⟩

end Sproyt
