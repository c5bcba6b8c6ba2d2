import Sproyt.Native.Attempts
import Sproyt.Native.Refresh

/-!
# The lifecycle of a login attempt

An attempt goes through its phases at most once and founds at most one family; every exchange
of it has the same answer. Once it is cancelled, neither it nor its family is of any use.
-/

namespace Sproyt

open List

namespace Native

namespace Label

def accepts : Label → Option String
  | authenticated family => some family
  | claimed family _ _ => some family
  | replayed family _ => some family
  | committed family _ _ _ => some family
  | _ => none

def founds (id : String) : Label → Bool
  | exchanged id' _ true => id' = id
  | _ => false

theorem forward_of_founds {l : Label} {id : String} (h : l.founds id = true) :
    l.forward = some (id, .redeemed) := by
  cases l with
  | exchanged id' result created =>
    cases created with
    | true =>
      rw [founds, decide_eq_true_eq] at h
      rw [forward, h]
    | false => cases h
  | _ => cases h

end Label

section

variable {service : NativeSessions} {db db' : NativeDb} {l : Label} {env : Env} {w w' : World}
  {trace : List Label} {id family : String} {result : ExchangeResult}

/-! ### Tokens that are accepted -/

def Admits (db : NativeDb) (l : Label) : Prop :=
  ∀ family, l.accepts = some family →
    ∃ f ∈ db.families, f.family = family ∧ (f.phase = .active ∨ f.phase = .refreshing)

theorem admits_of_none (h : l.accepts = none) : Admits db l := by
  intro family hfamily
  rw [h] at hfamily
  cases hfamily

theorem step_admits (h : Step service w l w') : Admits w.db l := by
  obtain ⟨_, _, _, _, -, -, -, hact⟩ := h.acts
  generalize w'.db = db' at hact
  cases hact with
  | pass f hf hphase hl =>
    intro family hfamily
    rcases hl with rfl | ⟨_, rfl⟩ <;> cases hfamily <;> exact ⟨f, hf, rfl, hphase⟩
  | claim r expires _ hactive =>
    obtain ⟨f, hf, hid, hphase, -⟩ := hactive
    rintro family ⟨rfl⟩
    exact ⟨f, hf, hid, .inl hphase⟩
  | commit r now grant text _ hcurrent =>
    obtain ⟨f, hf, hid, hphase, -⟩ := hcurrent
    rintro family ⟨rfl⟩
    exact ⟨f, hf, hid, .inr hphase⟩
  | _ => exact admits_of_none rfl

/-! ### The invariant -/

def Exchanged (service : NativeSessions) (id : String) (result : ExchangeResult)
    (a : AttemptRow) : Prop :=
  a.id = id ∧ (a.phase = .redeemed ∨ a.phase = .cancelled) ∧
    ∀ r, service.codec.handoff.openValue ("handoff:" ++ id) a.receipt = .ok r → r = result

def Founder (id family : String) (a : AttemptRow) : Prop :=
  a.id = id ∧ (a.phase = .redeemed ∨ a.phase = .cancelled) ∧ a.family = family

/-- What holds of the attempts and the families, with the labels so far. -/
structure LoginSafe (service : NativeSessions) (trace : List Label) (w : World) : Prop where
  attempts : (w.db.attempts.map (·.id)).Nodup
  families : (w.db.families.map (·.family)).Nodup
  reached : ∀ id p, (id, p) ∈ trace.filterMap (·.forward) →
    ∃ a ∈ w.db.attempts, a.id = id ∧ p.rank ≤ a.phase.rank
  once : (trace.filterMap (·.forward)).Nodup
  exchanged : ∀ id result created, .exchanged id result created ∈ trace →
    ∃ a ∈ w.db.attempts, Exchanged service id result a
  same : ∀ id r r' c c', .exchanged id r c ∈ trace → .exchanged id r' c' ∈ trace → r = r'
  founded : ∀ id result, .exchanged id result true ∈ trace →
    result.nativeSession.family ≠ "" ∧
      (∃ a ∈ w.db.attempts, Founder id result.nativeSession.family a) ∧
      ∃ f ∈ w.db.families, f.family = result.nativeSession.family
  cancelled : ∀ id, .cancelled id ∈ trace → ∃ a ∈ w.db.attempts, a.id = id ∧ a.phase = .cancelled
  revoked : ∀ id result, .cancelled id ∈ trace → .exchanged id result true ∈ trace →
    ∃ f ∈ w.db.families, f.family = result.nativeSession.family ∧ f.phase.ended

variable {a a' : AttemptRow}

theorem AttemptMove.exchanged (h : AttemptMove l a a')
    (ha : Exchanged service id result a) : Exchanged service id result a' := by
  obtain ⟨hid, hphase, hopen⟩ := ha
  obtain ⟨hphase', hreceipt, -⟩ := h.redeemed hphase
  refine ⟨h.id_eq.trans hid, hphase', ?_⟩
  rw [hreceipt]
  exact hopen

theorem AttemptMove.founder (h : AttemptMove l a a')
    (ha : Founder id family a) : Founder id family a' := by
  obtain ⟨hid, hphase, hfamily⟩ := ha
  obtain ⟨hphase', -, hfamily'⟩ := h.redeemed hphase
  exact ⟨h.id_eq.trans hid, hphase', hfamily'.trans hfamily⟩

variable {created : Bool}

theorem AttemptTurn.exchanged (h : AttemptTurn service db l db')
    (hl : l = .exchanged id result created) :
    (∃ a ∈ db.attempts, a.id = id ∧ ((created = true ∧ a.phase = .ready) ∨
        (a.phase = .redeemed ∧
          service.codec.handoff.openValue ("handoff:" ++ id) a.receipt = .ok result))) ∧
      ∃ a ∈ db'.attempts, Exchanged service id result a := by
  cases h with
  | redeem a result' g nonce receipt ha hphase hexchanged hseal hg h =>
    rw [hexchanged] at hl
    cases hl
    obtain ⟨hgid, hgphase, -, hreceipt⟩ := hg a
    refine ⟨⟨a, ha, rfl, .inl ⟨rfl, hphase⟩⟩, g a, ?_, hgid, .inl hgphase, fun r hr => ?_⟩
    · rw [h]
      exact mem_map.2 ⟨a, ha, if_pos ⟨rfl, hphase⟩⟩
    · rw [hreceipt] at hr
      exact service.codec.handoff.open_seal hseal hr
  | replay a result' ha hphase hexchanged hopen h =>
    rw [hexchanged] at hl
    cases hl
    refine ⟨⟨a, ha, rfl, .inr ⟨hphase, hopen⟩⟩, a, h ▸ ha, rfl, .inl hphase, fun r hr => ?_⟩
    rw [hopen] at hr
    cases hr
    rfl
  | same hno =>
    rw [hl] at hno
    cases hno
  | start _ h | advance _ _ _ _ _ h | fail _ h | cancel _ _ h =>
    rw [hl] at h
    cases h

theorem AttemptTurn.founded (h : AttemptTurn service db l db')
    (hl : l = .exchanged id result true) :
    result.nativeSession.family ≠ "" ∧
      (∃ a ∈ db'.attempts, Founder id result.nativeSession.family a) ∧
      ∃ f ∈ db'.families, f.family = result.nativeSession.family := by
  cases h with
  | redeem a result' g nonce receipt ha hphase hexchanged hseal hg h hne hfamily =>
    rw [hexchanged] at hl
    cases hl
    obtain ⟨hgid, hgphase, hgfamily, -⟩ := hg a
    refine ⟨hne, ⟨g a, ?_, hgid, .inl hgphase, hgfamily⟩, hfamily⟩
    rw [h]
    exact mem_map.2 ⟨a, ha, if_pos ⟨rfl, hphase⟩⟩
  | same hno =>
    rw [hl] at hno
    cases hno
  | start _ h | advance _ _ _ _ _ h | fail _ h | replay _ _ _ _ h | cancel _ _ h =>
    rw [hl] at h
    cases h

theorem AttemptTurn.cancelled (h : AttemptTurn service db l db') (hl : l = .cancelled id) :
    (∃ a ∈ db'.attempts, a.id = id ∧ a.phase = .cancelled) ∧
      ∃ a ∈ db.attempts, a.id = id ∧ db'.families = revokeRows a.family db.families := by
  cases h with
  | cancel a ha hcancelled h hfamilies =>
    rw [hcancelled] at hl
    cases hl
    refine ⟨⟨{ a with phase := .cancelled, secret := "" }, ?_, rfl, rfl⟩, a, ha, rfl, hfamilies⟩
    rw [h]
    exact mem_map.2 ⟨a, ha, if_pos rfl⟩
  | same hno =>
    rw [hl] at hno
    cases hno
  | start _ h | advance _ _ _ _ _ h | fail _ h | redeem _ _ _ _ _ _ _ h | replay _ _ _ _ h =>
    rw [hl] at h
    cases h

theorem mem_revokeRows {f : FamilyRow} {rows : List FamilyRow} (hf : f ∈ rows)
    (hne : f.family ≠ "") : f.revoke ∈ revokeRows f.family rows := by
  rw [revokeRows, if_neg hne]
  exact mem_map.2 ⟨f, hf, if_pos rfl⟩

/-! ### Steps -/

section

variable (h : LoginSafe service trace w)

include h

section

variable (hstep : Step service w l w')

include hstep

theorem LoginSafe.not_exchanged (hcancelled : .cancelled id ∈ trace) :
    l ≠ .exchanged id result created := by
  intro hl
  obtain ⟨a, ha, hid, hphase⟩ := h.cancelled id hcancelled
  obtain ⟨⟨x, hx, hxid, hxphase⟩, -⟩ := (step_attempts hstep).exchanged hl
  have heq : x = a := Table.eq_of_key_eq h.attempts hx ha (hxid.trans hid.symm)
  rw [heq, hphase] at hxphase
  rcases hxphase with ⟨-, hx⟩ | ⟨hx, -⟩ <;> cases hx

theorem LoginSafe.same_result {created created' : Bool} {result' : ExchangeResult}
    (hl : l = .exchanged id result created) (hbefore : .exchanged id result' created' ∈ trace) :
    result = result' := by
  obtain ⟨a, ha, hid, hphase, hopen⟩ := h.exchanged id result' created' hbefore
  obtain ⟨⟨x, hx, hxid, hxphase⟩, -⟩ := (step_attempts hstep).exchanged hl
  have heq : x = a := Table.eq_of_key_eq h.attempts hx ha (hxid.trans hid.symm)
  subst heq
  rcases hxphase with ⟨-, hready⟩ | ⟨-, hresult⟩
  · rw [hready] at hphase
    rcases hphase with hphase | hphase <;> cases hphase
  · exact hopen result hresult

theorem LoginSafe.revokes (hl : l = .cancelled id) (hfounded : .exchanged id result true ∈ trace) :
    ∃ f ∈ w'.db.families, f.family = result.nativeSession.family ∧ f.phase.ended := by
  obtain ⟨hne, ⟨a, ha, haid, -, hafamily⟩, f, hf, hfamily⟩ := h.founded id result hfounded
  obtain ⟨-, x, hx, hxid, hfamilies⟩ := (step_attempts hstep).cancelled hl
  have heq : x = a := Table.eq_of_key_eq h.attempts hx ha (hxid.trans haid.symm)
  rw [heq, hafamily, ← hfamily] at hfamilies
  refine ⟨f.revoke, ?_, hfamily, .inr rfl⟩
  rw [hfamilies]
  exact mem_revokeRows hf (hfamily ▸ hne)

theorem LoginSafe.step : LoginSafe service (trace ++ [l]) w' := by
  have hturn := step_attempts hstep
  have hmoved := hturn.moved
  have hfamilies := step_moved h.families hstep
  -- a label of the longer trace is an earlier one, or this one
  have hlast : ∀ {x}, x ∈ trace ++ [l] → x ∈ trace ∨ l = x := fun hx =>
    (mem_append.1 hx).imp_right fun hx => (mem_singleton.1 hx).symm
  have hforward : ∀ {k}, k ∈ (trace ++ [l]).filterMap (·.forward) →
      k ∈ trace.filterMap (·.forward) ∨ l.forward = some k := fun hk => by
    rw [filterMap_append, mem_append] at hk
    simpa using hk
  constructor
  case attempts => exact Table.Moved.unique hmoved (fun _ _ hmove => hmove.id_eq) h.attempts
  case families => exact hfamilies.unique h.families
  case reached =>
    intro id p hk
    rcases hforward hk with hk | hl
    · exact Table.Moved.exists_row hmoved (fun _ _ hmove ⟨hid, hrank⟩ =>
        ⟨hmove.id_eq.trans hid, hrank.trans hmove.rank_le⟩) (h.reached id p hk)
    · exact (hturn.reached h.attempts hl).1
  case once =>
    rw [filterMap_append]
    cases hl : l.forward with
    | none => simpa [hl] using h.once
    | some k =>
      obtain ⟨id, p⟩ := k
      have hnew : (id, p) ∉ trace.filterMap (·.forward) := fun hk => by
        obtain ⟨a, ha, hid, hrank⟩ := h.reached id p hk
        exact absurd ((hturn.reached h.attempts hl).2 a ha hid) (Nat.not_lt.2 hrank)
      rw [filterMap_cons_some hl, filterMap_nil]
      exact h.once.append (nodup_singleton _) fun k hk hk' =>
        hnew (mem_singleton.1 hk' ▸ hk)
  case exchanged =>
    intro id result created hmem
    rcases hlast hmem with hmem | hl
    · exact Table.Moved.exists_row hmoved (fun _ _ hmove => hmove.exchanged)
        (h.exchanged id result created hmem)
    · exact (hturn.exchanged hl).2
  case same =>
    intro id r r' c c' hr hr'
    rcases hlast hr with hr | hl
    · rcases hlast hr' with hr' | hl'
      · exact h.same id r r' c c' hr hr'
      · exact (h.same_result hstep hl' hr).symm
    · rcases hlast hr' with hr' | hl'
      · exact h.same_result hstep hl hr'
      · rw [hl] at hl'
        exact (Label.exchanged.inj hl').2.1
  case founded =>
    intro id result hmem
    rcases hlast hmem with hmem | hl
    · obtain ⟨hne, hfounder, hfamily⟩ := h.founded id result hmem
      exact ⟨hne, Table.Moved.exists_row hmoved (fun _ _ hmove => hmove.founder) hfounder,
        Table.Moved.exists_row hfamilies (fun _ _ hmove hf => hmove.family_eq.trans hf) hfamily⟩
    · exact hturn.founded hl
  case cancelled =>
    intro id hmem
    rcases hlast hmem with hmem | hl
    · exact Table.Moved.exists_row hmoved (fun _ _ hmove ⟨hid, hphase⟩ =>
        ⟨hmove.id_eq.trans hid, hmove.cancelled hphase⟩) (h.cancelled id hmem)
    · exact (hturn.cancelled hl).1
  case revoked =>
    intro id result hcancelled hexchanged
    rcases hlast hcancelled with hcancelled | hl
    · rcases hlast hexchanged with hexchanged | hl'
      · exact Table.Moved.exists_row hfamilies (fun _ _ hmove ⟨hf, hended⟩ =>
          ⟨hmove.family_eq.trans hf, hmove.ended hended⟩)
            (h.revoked id result hcancelled hexchanged)
      · exact absurd hl' (h.not_exchanged hstep hcancelled)
    · rcases hlast hexchanged with hexchanged | hl'
      · exact h.revokes hstep hl hexchanged
      · rw [hl] at hl'
        cases hl'

end

end

/-! ### Whole runs -/

theorem run_loginSafe (hattempts : (db.attempts.map (·.id)).Nodup)
    (hfamilies : (db.families.map (·.family)).Nodup)
    (hrun : Run (Step service) ⟨db, []⟩ trace w) : LoginSafe service trace w := by
  induction hrun with
  | refl => exact ⟨hattempts, hfamilies, nofun, nodup_nil, nofun, nofun, nofun, nofun, nofun⟩
  | step _ hstep ih => exact ih.step hstep

theorem LoginSafe.refuses (h : LoginSafe service trace w) (hstep : Step service w l w')
    (hcancelled : .cancelled id ∈ trace) (hfounded : .exchanged id result true ∈ trace) :
    l.accepts ≠ some result.nativeSession.family := by
  intro hl
  obtain ⟨f, hf, hfamily, hended⟩ := h.revoked id result hcancelled hfounded
  obtain ⟨x, hx, hxfamily, hphase⟩ := step_admits hstep _ hl
  have heq : x = f := Table.eq_of_key_eq h.families hx hf (hxfamily.trans hfamily.symm)
  subst heq
  rcases hended with hended | hended <;> rw [hended] at hphase <;>
    rcases hphase with hphase | hphase <;> cases hphase

theorem LoginSafe.founds_once (h : LoginSafe service trace w) (id : String) :
    trace.countP (·.founds id) ≤ 1 := by
  have honce := nodup_iff_count_le_one.1 h.once (id, .redeemed)
  rw [count_eq_countP, countP_filterMap] at honce
  refine Nat.le_trans (countP_mono_left fun l _ hl => ?_) honce
  rw [Label.forward_of_founds hl]
  simp

theorem run_until {pre post : List Label} (hattempts : (db.attempts.map (·.id)).Nodup)
    (hfamilies : (db.families.map (·.family)).Nodup)
    (hrun : Run (Step service) ⟨db, []⟩ (pre ++ .cancelled id :: post) w) (hl : l ∈ post) :
    ∃ more t t', LoginSafe service (pre ++ .cancelled id :: more) t ∧ Step service t l t' := by
  obtain ⟨more, rest, rfl⟩ := append_of_mem hl
  rw [← cons_append, ← append_assoc] at hrun
  obtain ⟨t, t', hbefore, hstep, -⟩ := hrun.split
  exact ⟨more, t, t', run_loginSafe hattempts hfamilies hbefore, hstep⟩

end

/-- The lifecycle of login attempts, in every run from any store: attempts only move along their
phases, or fail or are cancelled, and only an exchange founds a family; every phase is reached at
most once; an attempt founds at most one family, and all its exchanges have one answer; once it
is cancelled, it is not exchanged and no token of its family is accepted. -/
theorem login_lifecycle {service : NativeSessions} {db : NativeDb} {w : World}
    {trace : List Label} (hattempts : (db.attempts.map (·.id)).Nodup)
    (hfamilies : (db.families.map (·.family)).Nodup) (hrun : Run (Step service) ⟨db, []⟩ trace w) :
    (∀ l w', Step service w l w' →
      (∀ a ∈ w.db.attempts, ∃ a' ∈ w'.db.attempts, AttemptMove l a a') ∧
      (∀ a' ∈ w'.db.attempts, (∃ a ∈ w.db.attempts, AttemptMove l a a') ∨
        (a'.phase = .new ∧ l = .started a'.id)) ∧
      ∀ f' ∈ w'.db.families, (∃ f ∈ w.db.families, f'.family = f.family) ∨
        ∃ id result, l = .exchanged id result true ∧ result.nativeSession.family = f'.family) ∧
    (trace.filterMap (·.forward)).Nodup ∧
    (∀ id, trace.countP (·.founds id) ≤ 1) ∧
    (∀ id r r' c c', .exchanged id r c ∈ trace → .exchanged id r' c' ∈ trace → r = r') ∧
    ∀ pre post id, trace = pre ++ .cancelled id :: post →
      (∀ r c, .exchanged id r c ∉ post) ∧
      ∀ r, .exchanged id r true ∈ pre → ∀ l ∈ post, l.accepts ≠ some r.nativeSession.family := by
  have hsafe := run_loginSafe hattempts hfamilies hrun
  refine ⟨fun l w' hstep => ?_, hsafe.once, hsafe.founds_once, hsafe.same, ?_⟩
  · have hmoved := (step_attempts hstep).moved
    refine ⟨fun a ha => Table.Moved.successor hmoved ha, fun a' ha' =>
      Table.Moved.origin hmoved ha',
      fun f' hf' => ?_⟩
    exact (Table.Moved.origin (step_moved hsafe.families hstep) hf').imp
      (fun ⟨f, hf, hmove⟩ => ⟨f, hf, hmove.family_eq⟩) (·.2)
  · rintro pre post id rfl
    refine ⟨fun r c hl => ?_, fun r hfounded l hl => ?_⟩
    · obtain ⟨more, t, t', ht, hstep⟩ := run_until hattempts hfamilies hrun hl
      exact ht.not_exchanged hstep mem_append_cons_self rfl
    · obtain ⟨more, t, t', ht, hstep⟩ := run_until hattempts hfamilies hrun hl
      exact ht.refuses hstep mem_append_cons_self (mem_append_left _ hfounded)

namespace Device

def opened : AttemptSecret := ⟨"authorize", "sproyt_oidc_tx=c", text, "", "", 0, "", ""⟩

def checked : AttemptSecret :=
  ⟨"", "", text, text, "sproyt_session=a; sproyt_refresh=b", 9000, "Alice", ""⟩

def exchangeResult : ExchangeResult := ⟨"alice", grant 0, "Alice"⟩

def loginService : NativeSessions :=
  { service with
    codec := ⟨codebook [("opened", opened), ("checked", checked),
        ("handed", { checked with handoffCode := text })],
      codebook [("first", familySecret 0)], codebook [("receipt", exchangeResult)], codebook []⟩ }

def loginRequest : Request :=
  .login ⟨text, destination, 1024, none⟩
    (.ok ⟨"authorize", "sproyt_oidc_tx=c; Path=/", some ["state-0123456789"]⟩)

def header : Option String := some ("sproyt_native_" ++ text ++ "=" ++ text)

def loginAnswer : Answer :=
  ⟨some ⟨"alice", "Alice", "sproyt_session=a; Path=/", some "sproyt_refresh=b; Path=/", .ok 9000⟩,
    none, false, renewal⟩

def exchangeRequest : Request :=
  .exchange ⟨text, text, text, "0123456789abcdef0123456789abcdef", environment, destination⟩

def cancelRequest : Request := .cancelLogin ⟨text, text, environment, destination⟩

def atNew : AttemptRow :=
  ⟨text, text, text, "", 0, none, "", 1024, 1000, 1600, .new, "", "", "", none, "", none, "",
    "opened", ""⟩

def atAuthorizing : AttemptRow := { atNew with phase := .authorizing, cookieHash := text }

def atVerifying : AttemptRow := { atAuthorizing with phase := .verifying }

def atConfirm : AttemptRow :=
  { atVerifying with
    phase := .confirm, userId := "alice", epoch := some 0, confirmHash := text,
    secret := "checked" }

def atReady : AttemptRow :=
  { atConfirm with
    phase := .ready, codeHash := text, handoffExpires := some 1060, secret := "handed" }

def atRedeemed : AttemptRow :=
  { atReady with
    phase := .redeemed, redemptionId := "0123456789abcdef0123456789abcdef",
    receiptExpires := some 1060, family := text, secret := "", receipt := "receipt" }

def atCancelled : AttemptRow := { atRedeemed with phase := .cancelled, secret := "" }

def family : FamilyRow := newFamily loginService (grant 0) "first"

def tables (a : AttemptRow) (families : List FamilyRow) : NativeDb := ⟨[], [a], families, []⟩

end Device

set_option maxRecDepth 4000 in
open Device in
/-- A login that is exchanged twice and then cancelled; its refresh token is of no more use. -/
theorem login_lifecycle_of_cancelled :
    ∃ trace, Run (Step loginService) ⟨⟨[], [], [], []⟩, []⟩ trace
        ⟨tables atCancelled [family.revoke], []⟩ ∧
      trace.countP (·.founds text) = 1 ∧
      ∀ more w, Run (Step loginService) ⟨tables atCancelled [family.revoke], []⟩ more w →
        ∀ l ∈ more, l.accepts ≠ some text := by
  have hrun : Run (Step loginService) ⟨⟨[], [], [], []⟩, []⟩
      ([.started text, .advanced text .authorizing, .advanced text .verifying, .quiet,
        .advanced text .confirm, .advanced text .ready, .exchanged text exchangeResult true,
        .exchanged text exchangeResult false] ++ [.cancelled text])
      ⟨tables atCancelled [family.revoke], []⟩ := by
    refine .cons (t := ⟨tables atNew [], []⟩) (.request loginRequest env) ?_
    refine .cons (t := ⟨tables atAuthorizing [], []⟩) (.request (.browser text) env) ?_
    refine .cons (t := ⟨tables atVerifying [], [.verifying atAuthorizing opened]⟩)
      (.request (.callback "code" "state-0123456789" header) env) ?_
    refine .cons (t := ⟨tables atVerifying [], [.confirming atAuthorizing checked "alice"]⟩)
      (@Step.resume loginService _ [] [] (.verifying atAuthorizing opened) env loginAnswer) ?_
    refine .cons (t := ⟨tables atConfirm [], []⟩)
      (@Step.resume loginService _ [] [] (.confirming atAuthorizing checked "alice") env
        loginAnswer) ?_
    refine .cons (t := ⟨tables atReady [], []⟩) (.request (.confirm text text header) env) ?_
    refine .cons (t := ⟨tables atRedeemed [family], []⟩) (.request exchangeRequest env) ?_
    refine .cons (t := ⟨tables atRedeemed [family], []⟩) (.request exchangeRequest env) ?_
    exact .single (.request cancelRequest env)
  refine ⟨_, hrun, rfl, fun more w hmore => ?_⟩
  obtain ⟨-, -, -, -, hcancelled⟩ :=
    login_lifecycle (by decide) (by decide) (hrun.append hmore)
  exact (hcancelled _ more text (append_assoc _ _ _)).2 exchangeResult (by simp)

end Native

end Sproyt
