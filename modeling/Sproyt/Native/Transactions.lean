import Sproyt.Native.Calls

/-!
# What the native transactions read and write

One lemma for each transaction that answers: the rows it has found, what it has checked of
them, and the updates it has made.
-/

namespace Sproyt

open Txn List

variable {secret : FamilySecret} {code text : String} {header : Option String}
    {input : ExchangeRequest} {c : Claim} {rows : List FamilyRow} {r : Refreshing} {grant : Grant}

namespace Native

variable {α : Type} {id token oldHash : String} {u : Unit} {reference : SessionRef}

variable {service : NativeSessions} {db db' : NativeDb} {f : FamilyRow} {a : AttemptRow}
  {env : Env}

/-! ### Families -/

theorem familyRow_ok (h : (familyRow id).run db = .ok (f, db')) :
    db' = db ∧ f ∈ db.families ∧ f.family = id := by
  simp only [familyRow, answers] at h
  obtain ⟨hfind, rfl⟩ := h
  exact ⟨rfl, mem_of_find?_eq_some hfind, by simpa using find?_some hfind⟩

/-- A fence lets a usable family through, whose lease has not lapsed; otherwise the
transaction only ends a lapsed lease. -/
theorem fenced_ok {now : Nat} {body : NativeSql α} {r : Except NativeError α}
    (h : (fenced now f body).run db = .ok (r, db')) :
    (∃ a, r = .ok a ∧ f.usable db = true ∧ (f.phase = .refreshing → now < f.leaseExpires) ∧
        body.run db = .ok (a, db')) ∨
      ∃ e, r = .error e ∧
        (db' = db ∨ ∃ u, (requireReauthentication f.family f.leaseId).run db = .ok (u, db')) := by
  simp only [fenced, answers] at h
  split at h
  · obtain ⟨rfl, rfl⟩ := pure_ok.1 h
    exact .inr ⟨_, rfl, .inl rfl⟩
  · next hnot =>
    split at h
    · simp only [answers] at h
      obtain ⟨u, _, hreauth, rfl, rfl⟩ := h
      exact .inr ⟨_, rfl, .inr ⟨u, hreauth⟩⟩
    · next hlease =>
      simp only [answers] at h
      obtain ⟨a, _, hbody, rfl, rfl⟩ := h
      refine .inl ⟨a, rfl, by simpa using hnot, fun hphase => ?_, hbody⟩
      exact Nat.lt_of_not_le fun hle => hlease ⟨hphase, hle⟩

theorem FamilyRow.usable_phase (h : f.usable db = true) :
    f.phase = .active ∨ f.phase = .refreshing :=
  (of_decide_eq_true h).1

theorem familySecret_ok (h : (familySecret service f).run db = .ok (secret, db')) :
    db' = db ∧ f.matches service secret.grant := by
  simp only [familySecret, answers] at h
  obtain ⟨_, -, hmatches, rfl, rfl⟩ := h
  exact ⟨rfl, hmatches⟩

/-! ### Attempts -/

theorem lockedAttempt_ok (h : (lockedAttempt id).run db = .ok (a, db')) :
    db' = db ∧ a ∈ db.attempts ∧ a.id = id := by
  simp only [lockedAttempt, answers] at h
  obtain ⟨hfind, rfl⟩ := h
  exact ⟨rfl, mem_of_find?_eq_some hfind, by simpa using find?_some hfind⟩

def moveAttempt (id : String) (phase : AttemptPhase) (g : AttemptRow → AttemptRow)
    (db : NativeDb) : NativeDb :=
  { db with attempts := db.attempts.map fun a => if a.id = id ∧ a.phase = phase then g a else a }

theorem advance_ok {phase : AttemptPhase} {g : AttemptRow → AttemptRow}
    (h : (advance id phase g).run db = .ok (u, db')) :
    db' = moveAttempt id phase g db ∧ ∃ a ∈ db.attempts, a.id = id ∧ a.phase = phase := by
  simp only [advance, updateAttempts, answers] at h
  obtain ⟨hone, rfl⟩ := h
  refine ⟨by simp [moveAttempt], ?_⟩
  have hpos : 0 < db.attempts.countP fun a => a.id = id ∧ a.phase = phase := by omega
  obtain ⟨a, ha, hmatch⟩ := countP_pos_iff.1 hpos
  exact ⟨a, ha, of_decide_eq_true hmatch⟩

theorem browser_ok {secret : AttemptSecret}
    (h : (browser service id env).run db = .ok (secret, db')) : ∃ hash u, (advance id .new fun a =>
      { a with phase := .authorizing, cookieHash := hash }).run db = .ok (u, db') := by
  simp only [browser, openAttempt, answers] at h
  obtain ⟨-, a, _, hattempt, -, _, -, u, _, hadvance, -, rfl⟩ := h
  obtain ⟨rfl, -⟩ := lockedAttempt_ok hattempt
  exact ⟨_, u, hadvance⟩

theorem callback_ok {state : String} {secret : AttemptSecret}
    (h : (callback service code state header env).run db = .ok ((a, secret), db')) :
    ∃ u, (advance a.id .authorizing fun a => { a with phase := .verifying }).run db =
      .ok (u, db') := by
  simp only [callback, openAttempt, Prod.mk.injEq, answers] at h
  obtain ⟨-, _, -, _, _, hattempt, _, -, -, _, -, u, _, hadvance, ⟨rfl, rfl⟩, rfl⟩ := h
  obtain ⟨rfl, -⟩ := lockedAttempt_ok hattempt
  exact ⟨u, hadvance⟩

theorem callbackVerified_ok {secret : AttemptSecret} {user : String}
    (h : (callbackVerified service a secret user env).run db = .ok (u, db')) :
    ∃ epoch hash text, (advance a.id .verifying fun a =>
      { a with phase := .confirm, userId := user, epoch := some epoch, confirmHash := hash,
               secret := text }).run db = .ok (u, db') := by
  simp only [callbackVerified, answers] at h
  obtain ⟨-, _, -, hadvance⟩ := h
  exact ⟨_, _, _, hadvance⟩

theorem confirm_ok {nonce : String} {now : Bool}
    (h : (confirm service id nonce header env).run db = .ok ((code, now), db')) :
    (now = true ∧ ∃ hash expires text u, (advance id .confirm fun a =>
        { a with phase := .ready, codeHash := hash, handoffExpires := some expires,
                 secret := text }).run db = .ok (u, db')) ∨
      (now = false ∧ db' = db) := by
  simp only [confirm, openAttempt, answers] at h
  obtain ⟨-, a, _, hattempt, -, _, -, -, _, -, -, _, -, -, h⟩ := h
  obtain ⟨rfl, -, hid⟩ := lockedAttempt_ok hattempt
  split at h
  · simp only [handOff, Prod.mk.injEq, answers] at h
    obtain ⟨_, -, u, _, hadvance, ⟨-, rfl⟩, rfl⟩ := h
    rw [hid] at hadvance
    exact .inl ⟨rfl, _, _, _, u, hadvance⟩
  · simp only [handedOff, Prod.mk.injEq, answers] at h
    obtain ⟨_, -, -, ⟨-, rfl⟩, rfl⟩ := h
    exact .inr ⟨rfl, rfl⟩

theorem login_ok {input : LoginRequest} {provider : Except NativeError ProviderLogin}
    (h : (login service input provider env).run db = .ok (id, db')) :
    ∃ row : AttemptRow, row.id = id ∧ row.phase = .new ∧ row.family = "" ∧
      (∀ a ∈ db.attempts, a.id ≠ id) ∧ db' = { db with attempts := db.attempts ++ [row] } := by
  simp only [login, answers] at h
  obtain ⟨-, _, -, _, -, _, -, -, _, -, _, -, -, hfree, rfl, rfl⟩ := h
  refine ⟨_, rfl, rfl, rfl, fun a ha hid => ?_, rfl⟩
  exact any_eq_false.1 hfree a ha (decide_eq_true (.inl hid))

theorem callbackFailed_ok (h : (callbackFailed id).run db = .ok (u, db')) :
    db' = moveAttempt id .verifying (fun a => { a with phase := .failed, secret := "" }) db := by
  simp only [callbackFailed, updateAttempts, answers] at h
  simp [moveAttempt, ← h.2]

/-! ### Exchanging and cancelling -/

theorem insertFamily_ok {row : FamilyRow} (h : (insertFamily row).run db = .ok (u, db')) :
    db' = { db with families := db.families ++ [row] } ∧
      ∀ f ∈ db.families, f.family ≠ row.family := by
  simp only [insertFamily, answers] at h
  obtain ⟨hfree, rfl⟩ := h
  refine ⟨rfl, fun f hf heq => ?_⟩
  exact any_eq_false.1 hfree f hf (decide_eq_true (.inl heq))

theorem redeem_ok {epoch : Nat} {result : ExchangeResult}
    (h : (redeem service input a epoch env).run db = .ok (result, db')) :
    ∃ (row : FamilyRow) (g : AttemptRow → AttemptRow) (nonce : Bytes) (receipt : String),
      db' = { moveAttempt a.id .ready g db with families := db.families ++ [row] } ∧
        row.phase = .active ∧ row.family = result.nativeSession.family ∧ row.family ≠ "" ∧
        (∀ f ∈ db.families, f.family ≠ row.family) ∧
        service.codec.handoff.sealValue ("handoff:" ++ a.id) nonce result = .ok receipt ∧
        (∀ x, (g x).id = x.id ∧ (g x).phase = .redeemed ∧ (g x).family = row.family ∧
          (g x).receipt = receipt) ∧
        ∃ x ∈ db.attempts, x.id = a.id ∧ x.phase = .ready := by
  simp only [redeem, openAttempt, answers] at h
  obtain ⟨_, -, -, _, -, -, text, -, receipt, hseal, _, _, hadvance, _, _, hinsert, rfl, rfl⟩ := h
  obtain ⟨rfl, hready⟩ := advance_ok hadvance
  obtain ⟨rfl, hnew⟩ := insertFamily_ok hinsert
  refine ⟨_, _, env.nonces 1, receipt, rfl, rfl, rfl, ?_, hnew, hseal,
    fun x => ⟨rfl, rfl, rfl, rfl⟩, hready⟩
  -- a random text has 43 characters
  intro hempty
  have hlength := (env.random 0).length
  rw [show (env.random 0).text = "" from hempty] at hlength
  cases hlength

theorem redeemed_ok {r : Except NativeError ExchangeResult}
    (h : (redeemed service input a env).run db = .ok (r, db')) :
    ∃ family ∈ db.families, family.family = a.family ∧
      (fenced (env.clock 1) family (Txn.ofExcept
        (service.codec.handoff.openValue ("handoff:" ++ a.id) a.receipt))).run db =
          .ok (r, db') := by
  simp only [redeemed, answers] at h
  obtain ⟨-, _, -, -, family, _, hfamily, hfenced⟩ := h
  obtain ⟨rfl, hmem, hid⟩ := familyRow_ok hfamily
  exact ⟨family, hmem, hid, hfenced⟩

theorem exchange_ok {r : Except NativeError (ExchangeResult × Bool)}
    (h : (exchange service input env).run db = .ok (r, db')) :
    ∃ a ∈ db.attempts, a.id = input.transactionId ∧
      ((a.phase = .redeemed ∧ ∃ r', r = r'.map (·, false) ∧
          (redeemed service input a env).run db = .ok (r', db')) ∨
        (a.phase = .ready ∧ ∃ epoch result, r = .ok (result, true) ∧
          (redeem service input a epoch env).run db = .ok (result, db'))) := by
  simp only [exchange, answers] at h
  obtain ⟨-, a, _, hattempt, -, epoch, -, -, h⟩ := h
  obtain ⟨rfl, ha, hid⟩ := lockedAttempt_ok hattempt
  refine ⟨a, ha, hid, ?_⟩
  split at h
  · next hphase =>
    simp only [answers] at h
    obtain ⟨r', _, hredeemed, rfl, rfl⟩ := h
    exact .inl ⟨hphase, r', rfl, hredeemed⟩
  · simp only [answers] at h
    obtain ⟨hphase, result, _, hredeem, rfl, rfl⟩ := h
    exact .inr ⟨hphase, epoch, result, rfl, hredeem⟩

def revokeRows (family : String) (rows : List FamilyRow) : List FamilyRow :=
  if family = "" then rows else rows.map fun f => if f.family = family then f.revoke else f

theorem revokeFamily_ok {family : String} (h : (revokeFamily family).run db = .ok (u, db')) :
    db' = { db with families := revokeRows family db.families } := by
  unfold revokeFamily at h
  split at h
  · next hempty =>
    obtain ⟨-, rfl⟩ := pure_ok.1 h
    simp [revokeRows, hempty]
  · next hne =>
    simp only [updateFamilies, answers] at h
    simp [revokeRows, hne, ← h.2]

theorem cancelLogin_ok {input : CancelRequest}
    (h : (cancelLogin service input).run db = .ok (u, db')) :
    ∃ a ∈ db.attempts, a.id = input.transactionId ∧
      db' = { db with
        attempts := db.attempts.map fun x =>
          if x.id = a.id then { x with phase := .cancelled, secret := "" } else x
        families := revokeRows a.family db.families } := by
  simp only [cancelLogin, updateAttempts, answers] at h
  obtain ⟨-, a, _, hattempt, -, hrevoke⟩ := h
  obtain ⟨rfl, ha, hid⟩ := lockedAttempt_ok hattempt
  have hdb := revokeFamily_ok hrevoke
  refine ⟨a, ha, hid, ?_⟩
  simpa using hdb

theorem revoke_ok (h : (revoke service token).run db = .ok (u, db')) :
    db' = { db with families := db.families.map fun f =>
      if f.revokeHash = service.host.hash token then f.revoke else f } := by
  simp only [revoke, updateFamilies, answers] at h
  simp [← h.2.2]

/-! ### Using and refreshing -/

theorem lookup_ok (h : (lookup service token).run db = .ok (reference, db')) : db' = db := by
  simp only [lookup, answers] at h
  obtain ⟨-, _, -, -, rfl⟩ := h
  rfl

theorem checkReference_ok
    (h : (checkReference service reference f env).run db = .ok (secret, db')) : db' = db := by
  simp only [checkReference, answers] at h
  exact (familySecret_ok h.2).1

theorem referenced_ok {r : Except NativeError FamilySecret}
    (h : (referenced service reference env).run db = .ok (r, db')) :
    ∃ f ∈ db.families, f.family = reference.family ∧ ∃ now,
      (fenced now f (checkReference service reference f env)).run db = .ok (r, db') := by
  simp only [referenced, answers] at h
  obtain ⟨f, _, hfamily, hfenced⟩ := h
  obtain ⟨rfl, hf, hid⟩ := familyRow_ok hfamily
  exact ⟨f, hf, hid, _, hfenced⟩

theorem openReceipt_ok {input : RefreshRequest} {row : ReceiptRow}
    (h : (openReceipt service oldHash input row env).run db = .ok (c, db')) :
    db' = db ∧ ∃ grant, c = .replayed row.family grant := by
  simp only [openReceipt, answers] at h
  obtain ⟨-, grant, -, rfl, rfl⟩ := h
  exact ⟨rfl, grant, rfl⟩

def leaseRows (family oldHash : String) (generation : Nat) (lease : String) (expires : Nat)
    (rows : List FamilyRow) : List FamilyRow :=
  rows.map fun f =>
    if f.family = family ∧ f.phase = .active ∧ f.refreshHash = oldHash ∧ f.generation = generation
    then { f with phase := .refreshing, leaseId := lease, leaseExpires := expires } else f

theorem takeLease_ok {input : RefreshRequest}
    (h : (takeLease service f oldHash input env).run db = .ok (c, db')) :
    ∃ secret lease expires, c = .claimed ⟨f, secret, lease, oldHash, input⟩ ∧
      secret.grant.generation = input.generation ∧
      db' = { db with
        families := leaseRows f.family oldHash input.generation lease expires db.families } ∧
      ∃ r ∈ db.families, r.family = f.family ∧ r.phase = .active ∧ r.refreshHash = oldHash ∧
        r.generation = input.generation := by
  simp only [takeLease, updateFamilies, answers] at h
  obtain ⟨hgeneration, -, secret, _, hsecret, hone, rfl, rfl⟩ := h
  obtain ⟨rfl, hmatches⟩ := familySecret_ok hsecret
  refine ⟨secret, _, env.clock 1 + 30, rfl, ?_, by simp [leaseRows], ?_⟩
  · rw [← hgeneration]
    exact hmatches.2.2.2.2.2.2.1
  · have hpos := Nat.lt_of_lt_of_eq Nat.one_pos hone.symm
    obtain ⟨r, hr, hmatch⟩ := countP_pos_iff.1 hpos
    exact ⟨r, hr, of_decide_eq_true hmatch⟩

theorem refresh_ok {input : RefreshRequest} {r : Except NativeError Claim}
    (h : (refresh service token input env).run db = .ok (r, db')) :
    (∃ row, ∃ f ∈ db.families, f.family = row.family ∧ ∃ now, (fenced now f
        (openReceipt service (service.host.hash token) input row env)).run db = .ok (r, db')) ∨
      ∃ f ∈ db.families, (fenced (env.clock 0) f
        (takeLease service f (service.host.hash token) input env)).run db = .ok (r, db') := by
  simp only [refresh, answers] at h
  replace h := h.2
  split at h
  · next row _ =>
    simp only [replay, answers] at h
    obtain ⟨f, _, hfamily, hfenced⟩ := h
    obtain ⟨rfl, hf, hid⟩ := familyRow_ok hfamily
    exact .inl ⟨row, f, hf, hid, _, hfenced⟩
  · simp only [claim, answers] at h
    obtain ⟨f, hfind, hfenced⟩ := h
    exact .inr ⟨f, mem_of_find?_eq_some hfind, hfenced⟩

def generationRows (service : NativeSessions) (r : Refreshing) (grant : Grant) (text : String)
    (rows : List FamilyRow) : List FamilyRow :=
  rows.map fun f =>
    if f.family = r.family.family ∧ f.phase = .refreshing ∧ f.leaseId = r.lease then
      { f with phase := .active, generation := grant.generation,
               accessHash := service.host.hash grant.accessToken,
               refreshHash := service.host.hash grant.refreshToken, expiresAt := grant.expiresAt,
               secret := text, leaseId := "", leaseExpires := 0 }
    else f

theorem storeRefresh_ok {current : FamilyRow} {grant' : Grant} {receipt : String}
    (h : (storeRefresh service r current grant text receipt env).run db = .ok (grant', db')) :
    grant' = grant ∧ current.leaseId = r.lease ∧ current.phase = .refreshing ∧
      db'.families = generationRows service r grant text db.families ∧
      db'.attempts = db.attempts := by
  simp only [storeRefresh, storeGeneration, insertReceipt, updateFamilies, answers] at h
  obtain ⟨hcurrent, -, -, -, rfl, rfl⟩ := h
  exact ⟨rfl, hcurrent.1, hcurrent.2, by simp [generationRows], rfl⟩

theorem commitRefresh_ok {g : Except NativeError Grant}
    (h : (commitRefresh service r secret env).run db = .ok (g, db')) :
    ∃ current ∈ db.families, current.family = r.family.family ∧ ∃ text receipt,
      (fenced (env.clock 0) current
        (storeRefresh service r current secret.grant text receipt env)).run db = .ok (g, db') := by
  simp only [commitRefresh, answers] at h
  obtain ⟨text, -, receipt, -, current, _, hfamily, hfenced⟩ := h
  obtain ⟨rfl, hmem, hid⟩ := familyRow_ok hfamily
  exact ⟨current, hmem, hid, text, receipt, hfenced⟩

theorem renewedSecret_ok {renewal : Renewal} (h : renewedSecret r renewal env = .ok secret) :
    secret.grant.generation = r.secret.grant.generation + 1 := by
  unfold renewedSecret at h
  cases hsession : cookiePair renewal.setCookie sessionCookie with
  | error e => simp [hsession, bind, Except.bind] at h
  | ok session =>
    cases hrefresh : cookiePair renewal.setRefreshCookie refreshCookie with
    | error e => simp [hsession, hrefresh, bind, Except.bind] at h
    | ok refresh =>
      cases hexpires : renewal.expiresAt with
      | error e => simp [hsession, hrefresh, hexpires, bind, Except.bind] at h
      | ok expires =>
        simp only [hsession, hrefresh, hexpires, bind, Except.bind, pure, Except.pure,
          Except.ok.injEq] at h
        rw [← h]

end Native

end Sproyt
