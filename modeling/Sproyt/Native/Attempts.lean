import Sproyt.Native.Families

/-!
# What a step does to login attempts

Every transaction that moves an attempt names the phase it moves it from. One attempt is
started, advanced, failed, redeemed, asked for its receipt again or cancelled; every other
step leaves the attempts alone.
-/

namespace Sproyt

open Txn

namespace Native

def AttemptPhase.rank : AttemptPhase → Nat
  | new => 0
  | authorizing => 1
  | verifying => 2
  | confirm => 3
  | ready => 4
  | redeemed => 5
  | failed => 6
  | cancelled => 6

theorem Next.rank_lt {p q : AttemptPhase} (h : Next p q) : p.rank < q.rank := by
  cases h <;> decide

namespace Label

def forward : Label → Option (String × AttemptPhase)
  | started id => some (id, .new)
  | advanced id phase => some (id, phase)
  | exchanged id _ true => some (id, .redeemed)
  | _ => none

def ofAttempt : Label → Bool
  | started _ | advanced .. | failed _ | exchanged .. | cancelled _ => true
  | _ => false

theorem ofAttempt_of_forward {l : Label} {k : String × AttemptPhase} (h : l.forward = some k) :
    l.ofAttempt = true := by
  cases l with
  | started | advanced | exchanged => rfl
  | _ => cases h

end Label

section

variable {service : NativeSessions} {db db' : NativeDb} {l : Label} {a a' : AttemptRow} {env : Env}

/-- How a step changes the attempts. -/
inductive AttemptTurn (service : NativeSessions) (db : NativeDb) (l : Label) (db' : NativeDb) : Prop
  | same (hl : l.ofAttempt = false) (h : db'.attempts = db.attempts)
  | start (row : AttemptRow) (hl : l = .started row.id) (hphase : row.phase = .new)
      (hnew : ∀ a ∈ db.attempts, a.id ≠ row.id) (h : db'.attempts = db.attempts ++ [row])
  | advance (a : AttemptRow) (phase : AttemptPhase) (g : AttemptRow → AttemptRow)
      (ha : a ∈ db.attempts) (hnext : Next a.phase phase) (hl : l = .advanced a.id phase)
      (hg : ∀ x, (g x).id = x.id ∧ (g x).phase = phase)
      (h : db'.attempts = (moveAttempt a.id a.phase g db).attempts)
  | fail (id : String) (hl : l = .failed id)
      (h : db'.attempts = (moveAttempt id .verifying
        (fun a => { a with phase := .failed, secret := "" }) db).attempts)
  | redeem (a : AttemptRow) (result : ExchangeResult) (g : AttemptRow → AttemptRow)
      (nonce : Bytes) (receipt : String) (ha : a ∈ db.attempts) (hphase : a.phase = .ready)
      (hl : l = .exchanged a.id result true)
      (hseal : service.codec.handoff.sealValue ("handoff:" ++ a.id) nonce result = .ok receipt)
      (hg : ∀ x, (g x).id = x.id ∧ (g x).phase = .redeemed ∧
        (g x).family = result.nativeSession.family ∧ (g x).receipt = receipt)
      (h : db'.attempts = (moveAttempt a.id .ready g db).attempts)
      (hne : result.nativeSession.family ≠ "")
      (hfamily : ∃ f ∈ db'.families, f.family = result.nativeSession.family)
  | replay (a : AttemptRow) (result : ExchangeResult) (ha : a ∈ db.attempts)
      (hphase : a.phase = .redeemed) (hl : l = .exchanged a.id result false)
      (hopen : service.codec.handoff.openValue ("handoff:" ++ a.id) a.receipt = .ok result)
      (h : db'.attempts = db.attempts)
  | cancel (a : AttemptRow) (ha : a ∈ db.attempts) (hl : l = .cancelled a.id)
      (h : db'.attempts = db.attempts.map fun x =>
        if x.id = a.id then { x with phase := .cancelled, secret := "" } else x)
      (hfamilies : db'.families = revokeRows a.family db.families)

theorem Act.attempts {call next : Option Call} (h : Act service db call l next db') :
    AttemptTurn service db l db' := by
  cases h with
  | rest | epochs | lapse | revoke | claim | renew => exact .same rfl rfl
  | pass _ _ _ hl => rcases hl with rfl | ⟨_, rfl⟩ <;> exact .same rfl rfl
  | start row hphase hnew => exact .start row rfl hphase hnew rfl
  | advance a phase g ha hphase hg => exact .advance a phase g ha hphase rfl hg rfl
  | fail id => exact .fail id rfl rfl
  | redeem a row result g nonce receipt ha hphase _ hfamily hne _ hseal hg =>
    rw [hfamily] at hne hg
    exact .redeem a result g nonce receipt ha hphase rfl hseal hg rfl hne
      ⟨row, List.mem_append_right _ List.mem_cons_self, hfamily⟩
  | replay a result ha hphase hopen => exact .replay a result ha hphase rfl hopen rfl
  | cancel a ha => exact .cancel a ha rfl rfl rfl
  | commit _ _ _ _ _ _ _ hattempts => exact .same rfl hattempts

theorem step_attempts {w w' : World} (h : Step service w l w') :
    AttemptTurn service w.db l w'.db := by
  obtain ⟨_, _, _, _, -, -, -, hact⟩ := h.acts
  exact hact.attempts

/-! ### Rows -/

/-- What a step with the label `l` can do to an attempt. -/
inductive AttemptMove (l : Label) (a : AttemptRow) : AttemptRow → Prop
  | keep : AttemptMove l a a
  | forward {a' : AttemptRow} (hid : a'.id = a.id) (hnext : Next a.phase a'.phase)
      (hl : l.forward = some (a.id, a'.phase)) : AttemptMove l a a'
  | fail (hphase : a.phase = .verifying) :
      AttemptMove l a { a with phase := .failed, secret := "" }
  | cancel (hl : l = .cancelled a.id) :
      AttemptMove l a { a with phase := .cancelled, secret := "" }

namespace AttemptMove

section

variable (h : AttemptMove l a a')

include h

theorem id_eq : a'.id = a.id := by
  cases h with
  | forward hid => exact hid
  | _ => rfl

theorem rank_le : a.phase.rank ≤ a'.phase.rank := by
  cases h with
  | keep => exact Nat.le_refl _
  | forward _ hnext => exact Nat.le_of_lt hnext.rank_lt
  | fail hphase =>
    rw [hphase]
    show AttemptPhase.verifying.rank ≤ 6
    decide
  | cancel =>
    show a.phase.rank ≤ 6
    cases a.phase <;> decide

theorem redeemed (hphase : a.phase = .redeemed ∨ a.phase = .cancelled) :
    (a'.phase = .redeemed ∨ a'.phase = .cancelled) ∧ a'.receipt = a.receipt ∧
      a'.family = a.family := by
  cases h with
  | keep => exact ⟨hphase, rfl, rfl⟩
  | forward _ hnext =>
    rcases hphase with hphase | hphase <;> rw [hphase] at hnext <;> cases hnext
  | fail hverifying =>
    rw [hverifying] at hphase
    rcases hphase with h | h <;> cases h
  | cancel => exact ⟨.inr rfl, rfl, rfl⟩

theorem cancelled (hphase : a.phase = .cancelled) : a'.phase = .cancelled := by
  cases h with
  | keep => exact hphase
  | forward _ hnext =>
    rw [hphase] at hnext
    cases hnext
  | fail hverifying => exact absurd (hphase.symm.trans hverifying) nofun
  | cancel => rfl

end

end AttemptMove

def AttemptsMoved (l : Label) (db db' : NativeDb) : Prop :=
  Table.Moved (·.id) (AttemptMove l) (fun a => a.phase = .new ∧ l = .started a.id) db.attempts
    db'.attempts

namespace AttemptTurn

theorem moved (h : AttemptTurn service db l db') : AttemptsMoved l db db' := by
  cases h with
  | same _ h => exact Table.moved_of_same h fun _ => .keep
  | start row hl hphase hnew h => exact Table.moved_of_insert h (fun _ => .keep) ⟨hphase, hl⟩ hnew
  | advance a phase g ha hnext hl hg h =>
    refine Table.moved_of_map h fun x _ => Table.move_ite .keep fun ⟨hid, hx⟩ => ?_
    obtain ⟨hgid, hgphase⟩ := hg x
    refine .forward hgid ?_ ?_
    · rw [hx, hgphase]
      exact hnext
    · rw [hl, hid, hgphase]
      rfl
  | fail id hl h => exact Table.moved_of_map h fun x _ => Table.move_ite .keep fun hx => .fail hx.2
  | redeem a result g nonce receipt ha hphase hl hseal hg h =>
    refine Table.moved_of_map h fun x _ => Table.move_ite .keep fun ⟨hid, hx⟩ => ?_
    obtain ⟨hgid, hgphase, -⟩ := hg x
    refine .forward hgid ?_ ?_
    · rw [hx, hgphase]
      exact .exchange
    · rw [hl, hid, hgphase]
      rfl
  | replay _ _ _ _ _ _ h => exact Table.moved_of_same h fun _ => .keep
  | cancel a ha hl h =>
    refine Table.moved_of_map h fun x _ => Table.move_ite .keep fun hx => .cancel ?_
    rw [hl, hx]

theorem reached {id : String} {p : AttemptPhase} (h : AttemptTurn service db l db')
    (hunique : (db.attempts.map (·.id)).Nodup) (hl : l.forward = some (id, p)) :
    (∃ a ∈ db'.attempts, a.id = id ∧ p.rank ≤ a.phase.rank) ∧
      ∀ a ∈ db.attempts, a.id = id → a.phase.rank < p.rank := by
  cases h with
  | same hno =>
    rw [Label.ofAttempt_of_forward hl] at hno
    cases hno
  | start row hstarted hphase hnew h =>
    rw [hstarted] at hl
    cases hl
    refine ⟨⟨row, ?_, rfl, Nat.zero_le _⟩, fun a ha hid => absurd hid (hnew a ha)⟩
    rw [h]
    exact List.mem_append_right _ List.mem_cons_self
  | advance a phase g ha hnext hadvanced hg h =>
    rw [hadvanced] at hl
    cases hl
    refine ⟨⟨g a, ?_, (hg a).1, (hg a).2 ▸ Nat.le_refl _⟩, fun x hx hid => ?_⟩
    · rw [h]
      exact List.mem_map.2 ⟨a, ha, if_pos ⟨rfl, rfl⟩⟩
    · rw [Table.eq_of_key_eq hunique hx ha hid]
      exact hnext.rank_lt
  | fail _ hfailed =>
    rw [hfailed] at hl
    cases hl
  | redeem a result g nonce receipt ha hphase hexchanged hseal hg h =>
    rw [hexchanged] at hl
    cases hl
    refine ⟨⟨g a, ?_, (hg a).1, (hg a).2.1 ▸ Nat.le_refl _⟩, fun x hx hid => ?_⟩
    · rw [h]
      exact List.mem_map.2 ⟨a, ha, if_pos ⟨rfl, hphase⟩⟩
    · rw [Table.eq_of_key_eq hunique hx ha hid, hphase]
      decide
  | replay _ _ _ _ hreplayed =>
    rw [hreplayed] at hl
    cases hl
  | cancel _ _ hcancelled =>
    rw [hcancelled] at hl
    cases hl

end AttemptTurn

end

end Native

end Sproyt
