import Sproyt.Native.Transactions

/-!
# What a step comes to

A request, and a call that is resumed, rests, passes the fence of a family, ends or revokes
families, moves an attempt, or claims, renews or commits a refresh. What holds of the families, of
the attempts and of the calls in flight is read off this list.
-/

namespace Sproyt

open Txn

namespace Native

inductive Next : AttemptPhase → AttemptPhase → Prop
  | browser : Next .new .authorizing
  | callback : Next .authorizing .verifying
  | verified : Next .verifying .confirm
  | confirm : Next .confirm .ready
  | exchange : Next .ready .redeemed

def Call.refreshing? : Call → Option Refreshing
  | renewing r | renewed r => some r
  | _ => none

/-- What is done by a request, or by a call in flight: its label, the call that is in flight
then, and the store. -/
inductive Act (service : NativeSessions) (db : NativeDb) :
    Option Call → Label → Option Call → NativeDb → Prop
  | rest {call next : Option Call} (hnext : next.bind Call.refreshing? = none) :
      Act service db call .quiet next db
  | epochs {call : Option Call} (rows : List EpochRow) :
      Act service db call .quiet none { db with epochs := rows }
  | pass {call : Option Call} {l : Label} (f : FamilyRow) (hf : f ∈ db.families)
      (hphase : f.phase = .active ∨ f.phase = .refreshing)
      (hl : l = .authenticated f.family ∨ ∃ grant, l = .replayed f.family grant) :
      Act service db call l none db
  | lapse {call : Option Call} (p : FamilyRow → Bool)
      (hp : ∀ f, p f = true → f.phase = .refreshing) :
      Act service db call .quiet none
        { db with families := db.families.map fun f => if p f then f.lapse else f }
  | revoke {call : Option Call} (p : FamilyRow → Bool) :
      Act service db call .quiet none
        { db with families := db.families.map fun f => if p f then f.revoke else f }
  | start {call : Option Call} (row : AttemptRow) (hphase : row.phase = .new)
      (hnew : ∀ a ∈ db.attempts, a.id ≠ row.id) :
      Act service db call (.started row.id) none { db with attempts := db.attempts ++ [row] }
  | advance {call next : Option Call} (a : AttemptRow) (phase : AttemptPhase)
      (g : AttemptRow → AttemptRow) (ha : a ∈ db.attempts) (hphase : Next a.phase phase)
      (hg : ∀ x, (g x).id = x.id ∧ (g x).phase = phase)
      (hnext : next.bind Call.refreshing? = none) :
      Act service db call (.advanced a.id phase) next (moveAttempt a.id a.phase g db)
  | fail {call : Option Call} (id : String) :
      Act service db call (.failed id) none
        (moveAttempt id .verifying (fun a => { a with phase := .failed, secret := "" }) db)
  | redeem {call : Option Call} (a : AttemptRow) (row : FamilyRow) (result : ExchangeResult)
      (g : AttemptRow → AttemptRow) (nonce : Bytes) (receipt : String) (ha : a ∈ db.attempts)
      (hphase : a.phase = .ready) (hactive : row.phase = .active)
      (hfamily : row.family = result.nativeSession.family) (hne : row.family ≠ "")
      (hnew : ∀ f ∈ db.families, f.family ≠ row.family)
      (hseal : service.codec.handoff.sealValue ("handoff:" ++ a.id) nonce result = .ok receipt)
      (hg : ∀ x, (g x).id = x.id ∧ (g x).phase = .redeemed ∧ (g x).family = row.family ∧
        (g x).receipt = receipt) :
      Act service db call (.exchanged a.id result true) none
        { moveAttempt a.id .ready g db with families := db.families ++ [row] }
  | replay {call : Option Call} (a : AttemptRow) (result : ExchangeResult) (ha : a ∈ db.attempts)
      (hphase : a.phase = .redeemed)
      (hopen : service.codec.handoff.openValue ("handoff:" ++ a.id) a.receipt = .ok result) :
      Act service db call (.exchanged a.id result false) none db
  | cancel {call : Option Call} (a : AttemptRow) (ha : a ∈ db.attempts) :
      Act service db call (.cancelled a.id) none
        { db with
          attempts := db.attempts.map fun x =>
            if x.id = a.id then { x with phase := .cancelled, secret := "" } else x
          families := revokeRows a.family db.families }
  | claim (r : Refreshing) (expires : Nat)
      (hgeneration : r.secret.grant.generation = r.input.generation)
      (hactive : ∃ f ∈ db.families, f.family = r.family.family ∧ f.phase = .active ∧
        f.refreshHash = r.oldHash ∧ f.generation = r.input.generation) :
      Act service db none (.claimed r.family.family r.input.generation r.lease) (some (.renewing r))
        { db with
          families := leaseRows r.family.family r.oldHash r.input.generation r.lease expires
            db.families }
  | renew (r : Refreshing) (c : Call) (hc : c = .renewed r ∨ c.refreshing? = none) :
      Act service db (some (.renewing r)) (.renewal r.family.family r.input.generation) (some c) db
  | commit {db' : NativeDb} (r : Refreshing) (now : Nat) (grant : Grant) (text : String)
      (hgrant : grant.generation = r.secret.grant.generation + 1)
      (hcurrent : ∃ f ∈ db.families, f.family = r.family.family ∧ f.phase = .refreshing ∧
        f.leaseId = r.lease ∧ now < f.leaseExpires)
      (hfamilies : db'.families = generationRows service r grant text db.families)
      (hattempts : db'.attempts = db.attempts) :
      Act service db (some (.renewed r)) (.committed r.family.family r.lease now grant) none db'

variable {α : Type} {service : NativeSessions} {db db' : NativeDb} {call : Option Call}
    {f : FamilyRow}
  {env : Env}

variable {g : α → Label × Option Call}

theorem settle_acts {t : NativeSql α}
    (hok : ∀ a db', t.run db = .ok (a, db') → Act service db call (g a).1 (g a).2 db') :
    Act service db call (settle t db g).label (settle t db g).next (settle t db g).db := by
  unfold settle
  rcases commit_cases t db with ⟨a, db', hrun, hcommit⟩ | ⟨e, -, hcommit⟩
  · rw [hcommit]
    exact hok a db' hrun
  · rw [hcommit]
    exact .rest rfl

theorem reauth_acts {family lease : String} {u : Unit}
    (h : (requireReauthentication family lease).run db = .ok (u, db')) :
    Act service db call .quiet none db' := by
  simp only [requireReauthentication, updateFamilies, answers] at h
  obtain ⟨-, rfl⟩ := h
  exact .lapse _ fun f hp => (of_decide_eq_true hp).2.1

theorem fenced_acts {now : Nat} {body : NativeSql α} {r : Except NativeError α}
    (h : (fenced now f body).run db = .ok (r, db'))
    (hbody : ∀ a, body.run db = .ok (a, db') → f.phase = .active ∨ f.phase = .refreshing →
      (f.phase = .refreshing → now < f.leaseExpires) → Act service db call (g a).1 (g a).2 db') :
    Act service db call (admitted g r).1 (admitted g r).2 db' := by
  rcases fenced_ok h with ⟨a, rfl, husable, hlease, hrun⟩ | ⟨e, rfl, rfl | ⟨u, hreauth⟩⟩
  · exact hbody a hrun (FamilyRow.usable_phase husable) hlease
  · exact .rest rfl
  · exact reauth_acts hreauth

theorem advance_acts {id : String} {phase phase' : AttemptPhase} {g : AttemptRow → AttemptRow}
    {u : Unit} {next : Option Call} (h : (advance id phase g).run db = .ok (u, db'))
    (hphase : Next phase phase') (hg : ∀ x, (g x).id = x.id ∧ (g x).phase = phase')
    (hnext : next.bind Call.refreshing? = none) :
    Act service db call (.advanced id phase') next db' := by
  obtain ⟨rfl, a, ha, rfl, rfl⟩ := advance_ok h
  exact .advance a phase' g ha hphase hg hnext

theorem exchange_acts {input : ExchangeRequest} {r : Except NativeError (ExchangeResult × Bool)}
    {g : ExchangeResult × Bool → Label × Option Call}
    (hg : ∀ x, g x = (.exchanged input.transactionId x.1 x.2, none))
    (h : (exchange service input env).run db = .ok (r, db')) :
    Act service db call (admitted g r).1 (admitted g r).2 db' := by
  obtain ⟨a, ha, hid, ⟨hphase, r', rfl, hredeemed⟩ | ⟨hphase, epoch, result, rfl, hredeem⟩⟩ :=
    exchange_ok h
  · obtain ⟨f, hf, -, hfenced⟩ := redeemed_ok hredeemed
    have hmap : admitted g (r'.map (·, false)) = admitted (fun x => g (x, false)) r' := by
      cases r' <;> rfl
    rw [hmap]
    refine fenced_acts hfenced fun result hrun _ _ => ?_
    obtain ⟨hopen, rfl⟩ := ofExcept_ok.1 hrun
    rw [hg, ← hid]
    exact .replay a result ha hphase hopen
  · obtain ⟨row, g', nonce, receipt, rfl, hactive, hfamily, hne, hnew, hseal, hg', -⟩ :=
      redeem_ok hredeem
    rw [admitted, hg, ← hid]
    exact .redeem a row result g' nonce receipt ha hphase hactive hfamily hne hnew hseal hg'

theorem refresh_acts {token : String} {input : RefreshRequest} {r : Except NativeError Claim}
    {g : Claim → Label × Option Call}
    (hreplayed : ∀ family grant, g (.replayed family grant) = (.replayed family grant, none))
    (hclaimed : ∀ x, g (.claimed x) =
      (.claimed x.family.family x.input.generation x.lease, some (.renewing x)))
    (h : (refresh service token input env).run db = .ok (r, db')) :
    Act service db none (admitted g r).1 (admitted g r).2 db' := by
  rcases refresh_ok h with ⟨row, f, hf, hid, now, hfenced⟩ | ⟨f, hf, hfenced⟩
  · refine fenced_acts hfenced fun c hrun hphase _ => ?_
    obtain ⟨rfl, grant, rfl⟩ := openReceipt_ok hrun
    rw [hreplayed, ← hid]
    exact .pass f hf hphase (.inr ⟨grant, rfl⟩)
  · refine fenced_acts hfenced fun c hrun _ _ => ?_
    obtain ⟨secret, lease, expires, rfl, hgeneration, rfl, hactive⟩ := takeLease_ok hrun
    rw [hclaimed]
    exact .claim ⟨f, secret, lease, _, input⟩ expires hgeneration hactive

theorem referenced_acts {reference : SessionRef} {r : Except NativeError FamilySecret}
    {g : FamilySecret → Label × Option Call}
    (hg : ∀ secret, ((g secret).1 = .quiet ∧ (g secret).2.bind Call.refreshing? = none) ∨
      g secret = (.authenticated reference.family, none))
    (h : (referenced service reference env).run db = .ok (r, db')) :
    Act service db call (admitted g r).1 (admitted g r).2 db' := by
  obtain ⟨f, hf, hid, now, hfenced⟩ := referenced_ok h
  refine fenced_acts hfenced fun secret hrun hphase _ => ?_
  rw [checkReference_ok hrun]
  rcases hg secret with ⟨hquiet, hnext⟩ | heq
  · rw [hquiet]
    exact .rest hnext
  · rw [heq, ← hid]
    exact .pass f hf hphase (.inl rfl)

theorem request_acts {q : Request} :
    Act service db none (q.exec service env db).label (q.exec service env db).next
      (q.exec service env db).db := by
  cases q with
  | login input provider =>
    refine settle_acts fun id db' h => ?_
    obtain ⟨row, rfl, hphase, -, hnew, rfl⟩ := login_ok h
    exact .start row hphase hnew
  | browser id =>
    refine settle_acts fun _ db' h => ?_
    obtain ⟨_, _, hadvance⟩ := browser_ok h
    exact advance_acts hadvance .browser (fun _ => ⟨rfl, rfl⟩) rfl
  | callback code state header =>
    refine settle_acts fun _ db' h => ?_
    obtain ⟨_, hadvance⟩ := callback_ok h
    exact advance_acts hadvance .callback (fun _ => ⟨rfl, rfl⟩) rfl
  | confirm id nonce header =>
    refine settle_acts fun (code, now) db' h => ?_
    rcases confirm_ok h with ⟨rfl, _, _, _, _, hadvance⟩ | ⟨rfl, rfl⟩
    · exact advance_acts hadvance .confirm (fun _ => ⟨rfl, rfl⟩) rfl
    · exact .rest rfl
  | exchange input => exact settle_acts fun _ _ h => exchange_acts (fun _ => rfl) h
  | cancelLogin input =>
    refine settle_acts fun _ db' h => ?_
    obtain ⟨a, ha, hid, rfl⟩ := cancelLogin_ok h
    rw [← hid]
    exact .cancel a ha
  | revoke token =>
    refine settle_acts fun _ db' h => ?_
    rw [revoke_ok h]
    simpa using Act.revoke fun f => decide (f.revokeHash = service.host.hash token)
  | authenticate token =>
    refine settle_acts fun _ db' h => ?_
    rw [lookup_ok h]
    exact .rest rfl
  | recheck reference => exact .rest rfl
  | refresh token input =>
    exact settle_acts fun _ _ h => refresh_acts (fun _ _ => rfl) (fun _ => rfl) h

theorem call_acts {answer : Answer} {c : Call} :
    Act service db (some c) (c.exec service env answer db).label (c.exec service env answer db).next
      (c.exec service env answer db).db := by
  cases c with
  | verifying attempt secret =>
    simp only [Call.exec]
    split
    · exact .rest rfl
    · split <;> exact .rest rfl
  | failing id =>
    refine settle_acts fun _ db' h => ?_
    rw [callbackFailed_ok h]
    exact .fail id
  | confirming attempt secret user =>
    refine settle_acts fun _ db' h => ?_
    obtain ⟨_, _, _, hadvance⟩ := callbackVerified_ok h
    exact advance_acts hadvance .verified (fun _ => ⟨rfl, rfl⟩) rfl
  | rechecking reference =>
    exact settle_acts fun _ _ h => referenced_acts (fun _ => .inl ⟨rfl, rfl⟩) h
  | authenticating reference secret =>
    simp only [Call.exec]
    split
    · exact settle_acts fun _ _ h => referenced_acts (fun _ => .inr rfl) h
    · exact .rest rfl
  | renewing r =>
    refine .renew r _ ?_
    cases answer.renewed with
    | true => exact .inl rfl
    | false => exact .inr rfl
  | renewed r =>
    simp only [Call.exec]
    split
    · split
      · next secret hsecret =>
        refine settle_acts fun g db' h => ?_
        obtain ⟨current, hmem, hid, text, receipt, hfenced⟩ := commitRefresh_ok h
        refine fenced_acts hfenced fun grant hrun _ hlease => ?_
        obtain ⟨rfl, hholds, hphase, hfamilies, hattempts⟩ := storeRefresh_ok hrun
        exact .commit r (env.clock 0) secret.grant text (renewedSecret_ok hsecret)
          ⟨current, hmem, hid, hphase, hholds, hlease hphase⟩ hfamilies hattempts
      · exact .rest rfl
    · exact .rest rfl
  | reauthing family lease => exact settle_acts fun _ _ h => reauth_acts h

theorem Step.acts {w w' : World} {l : Label} (h : Step service w l w') :
    ∃ before after call next, w.calls = before ++ (Option.toList call ++ after) ∧
      w'.calls = before ++ (next.toList ++ after) ∧ (call = none → before = []) ∧
      Act service w.db call l next w'.db := by
  cases h with
  | request q env => exact ⟨[], w.calls, none, _, rfl, rfl, fun _ => rfl, request_acts⟩
  | @resume db before after c env answer =>
    exact ⟨before, after, some c, _, rfl, List.append_assoc .., nofun, call_acts⟩
  | @crash db before after c => exact ⟨before, after, some c, none, rfl, rfl, nofun, .rest rfl⟩
  | epochs rows => exact ⟨[], w.calls, none, none, rfl, rfl, fun _ => rfl, .epochs rows⟩

end Native

end Sproyt
