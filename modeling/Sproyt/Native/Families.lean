import Sproyt.Lib.Moves
import Sproyt.Native.Acts

/-!
# What a step does to session families

A row stays as it is, its lease lapses, it is revoked, it is claimed by a refresh, or the
refresh that holds its lease writes the next generation. New rows have new ids.
-/

namespace Sproyt

namespace Native

variable {service : NativeSessions} {db db' : NativeDb} {l : Label} {f f' : FamilyRow} {env : Env}

/-- What a step with the label `l` can do to a row. -/
inductive FamilyMove (l : Label) (f : FamilyRow) : FamilyRow → Prop
  | keep : FamilyMove l f f
  | lapse (hphase : f.phase = .refreshing) : FamilyMove l f f.lapse
  | revoke : FamilyMove l f f.revoke
  | claim {lease : String} {expires : Nat} (hphase : f.phase = .active)
      (hl : l = .claimed f.family f.generation lease) :
      FamilyMove l f { f with phase := .refreshing, leaseId := lease, leaseExpires := expires }
  | commit {f' : FamilyRow} {now : Nat} {grant : Grant} (hphase : f.phase = .refreshing)
      (hl : l = .committed f.family f.leaseId now grant) (hlease : now < f.leaseExpires)
      (hfamily : f'.family = f.family) (hactive : f'.phase = .active)
      (hgeneration : f'.generation = grant.generation) : FamilyMove l f f'

theorem FamilyMove.family_eq (h : FamilyMove l f f') : f'.family = f.family := by
  cases h with
  | commit _ _ _ hfamily => exact hfamily
  | _ => rfl

def Founded (l : Label) (f : FamilyRow) : Prop :=
  f.phase = .active ∧ ∃ id result, l = .exchanged id result true ∧
    result.nativeSession.family = f.family

def FamiliesMoved (l : Label) (db db' : NativeDb) : Prop :=
  Table.Moved (·.family) (FamilyMove l) (Founded l) db.families db'.families

theorem families_kept (h : db'.families = db.families) : FamiliesMoved l db db' :=
  Table.moved_of_same h fun _ => .keep

theorem move_ite {p : Prop} [Decidable p] (h : p → FamilyMove l f f') :
    FamilyMove l f (if p then f' else f) :=
  Table.move_ite .keep h

theorem commit_moved {r : Refreshing} {now : Nat} {grant : Grant} {text : String}
    (hunique : (db.families.map (·.family)).Nodup)
    (hcurrent : ∃ f ∈ db.families, f.family = r.family.family ∧ f.phase = .refreshing ∧
      f.leaseId = r.lease ∧ now < f.leaseExpires)
    (h : db'.families = generationRows service r grant text db.families) :
    FamiliesMoved (.committed r.family.family r.lease now grant) db db' := by
  obtain ⟨current, hmem, hid, -, -, hnow⟩ := hcurrent
  refine Table.moved_of_map h fun x hx => move_ite fun ⟨hfamily, hphase, hlease⟩ => ?_
  have heq : x = current := Table.eq_of_key_eq hunique hx hmem (hfamily.trans hid.symm)
  refine .commit hphase ?_ (heq ▸ hnow) rfl rfl rfl
  rw [hfamily, hlease]

theorem Act.families {call next : Option Call} (hunique : (db.families.map (·.family)).Nodup)
    (h : Act service db call l next db') : FamiliesMoved l db db' := by
  cases h with
  | rest | epochs | pass | start | advance | fail | replay | renew => exact families_kept rfl
  | lapse p hp => exact Table.moved_of_map rfl fun f _ => move_ite fun h => .lapse (hp f h)
  | revoke => exact Table.moved_of_map rfl fun f _ => move_ite fun _ => .revoke
  | redeem a row result g nonce receipt _ _ hactive hfamily _ hnew =>
    exact Table.moved_of_insert rfl (fun _ => .keep) ⟨hactive, _, result, rfl, hfamily.symm⟩ hnew
  | cancel a ha =>
    by_cases hempty : a.family = ""
    · exact families_kept (if_pos hempty)
    · exact Table.moved_of_map (if_neg hempty) fun f _ => move_ite fun _ => .revoke
  | claim r =>
    refine Table.moved_of_map rfl fun x _ => move_ite fun ⟨hfamily, hphase, _, hgeneration⟩ => ?_
    refine .claim hphase ?_
    rw [hfamily, hgeneration]
  | commit r now grant text _ hcurrent hfamilies => exact commit_moved hunique hcurrent hfamilies

theorem step_moved {w w' : World} (hunique : (w.db.families.map (·.family)).Nodup)
    (h : Step service w l w') : FamiliesMoved l w.db w'.db := by
  obtain ⟨_, _, _, _, -, -, -, hact⟩ := h.acts
  exact hact.families hunique

theorem FamiliesMoved.unique (h : FamiliesMoved l db db')
    (hunique : (db.families.map (·.family)).Nodup) : (db'.families.map (·.family)).Nodup :=
  Table.Moved.unique h (fun _ _ hmove => hmove.family_eq) hunique

end Native

end Sproyt
