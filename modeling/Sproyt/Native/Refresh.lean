import Sproyt.Native.Families

/-!
# Refreshing is single-use

The provider renews a session at most once for each generation of a family, whatever calls
interleave and wherever the process dies: the claim takes an active row to `refreshing`, and
only the commit of the refresh that holds the lease takes it back, one generation on.
-/

namespace Sproyt

open List

variable {renewals : List (String × Nat)}

namespace Native

section

variable {service : NativeSessions} {db db' : NativeDb} {l : Label} {f f' : FamilyRow} {env : Env}
  {w w' : World} {r : Refreshing} {c : Call} {calls : List Call}

def Refreshing.key (r : Refreshing) : String × Nat := (r.family.family, r.input.generation)

namespace Call

/-- The claim for which the provider has still to be asked. -/
def renewing? : Call → Option Refreshing
  | renewing r => some r
  | _ => none

end Call

def claims (calls : List Call) : List Refreshing := calls.filterMap Call.refreshing?

def pending (calls : List Call) : List Refreshing := calls.filterMap Call.renewing?

variable {before after : List Call}

@[simp] theorem claims_append : claims (before ++ after) = claims before ++ claims after :=
  filterMap_append

@[simp] theorem claims_renewed : claims (.renewed r :: calls) = r :: claims calls := rfl

@[simp] theorem pending_append : pending (before ++ after) = pending before ++ pending after :=
  filterMap_append

@[simp] theorem pending_renewing : pending (.renewing r :: calls) = r :: pending calls := rfl

theorem claims_cons_none (h : c.refreshing? = none) : claims (c :: calls) = claims calls :=
  filterMap_cons_none h

theorem pending_cons_none (h : c.renewing? = none) : pending (c :: calls) = pending calls :=
  filterMap_cons_none h

namespace Label

def renews : Label → Option (String × Nat)
  | renewal family generation => some (family, generation)
  | _ => none

def plain : Label → Bool
  | claimed .. | renewal .. | committed .. => false
  | _ => true

def commits (family : String) : Label → Bool
  | committed f .. => f = family
  | _ => false

theorem commits_iff {family : String} :
    l.commits family = true ↔ ∃ lease now grant, l = .committed family lease now grant := by
  cases l with
  | committed f lease now grant =>
    simp only [commits, decide_eq_true_eq, committed.injEq]
    exact ⟨fun h => ⟨_, _, _, h, rfl, rfl, rfl⟩, fun ⟨_, _, _, h, _⟩ => h⟩
  | _ => simp [commits]

theorem renews_of_plain (h : l.plain = true) : l.renews = none := by
  cases l with
  | renewal => cases h
  | _ => rfl

end Label

/-! ### What a step does to the calls in flight -/

/-- How a step changes which refreshes are in flight. -/
inductive Turn (service : NativeSessions) (w : World) (l : Label) (w' : World) : Prop
  | claim (r : Refreshing) (hl : l = .claimed r.family.family r.input.generation r.lease)
      (hcalls : w'.calls = .renewing r :: w.calls)
      (hgeneration : r.secret.grant.generation = r.input.generation) (expires : Nat)
      (hfamilies : w'.db.families = leaseRows r.family.family r.oldHash r.input.generation r.lease
        expires w.db.families)
      (hactive : ∃ f ∈ w.db.families, f.family = r.family.family ∧ f.phase = .active ∧
        f.refreshHash = r.oldHash ∧ f.generation = r.input.generation)
  | renew (before after : List Call) (r : Refreshing) (c : Call)
      (hbefore : w.calls = before ++ .renewing r :: after)
        (hafter : w'.calls = before ++ c :: after)
      (hc : c = .renewed r ∨ c.refreshing? = none)
      (hl : l = .renewal r.family.family r.input.generation) (hdb : w'.db = w.db)
  | commit (before after : List Call) (r : Refreshing) (now : Nat) (grant : Grant)
      (hbefore : w.calls = before ++ .renewed r :: after) (hafter : w'.calls = before ++ after)
      (hl : l = .committed r.family.family r.lease now grant)
      (hgrant : grant.generation = r.secret.grant.generation + 1) (text : String)
      (hfamilies : w'.db.families = generationRows service r grant text w.db.families)
      (hcurrent : ∃ f ∈ w.db.families, f.family = r.family.family ∧ f.phase = .refreshing ∧
        f.leaseId = r.lease ∧ now < f.leaseExpires)
  | other (hl : l.plain = true)
      (hrefreshing : (claims w'.calls).Sublist (claims w.calls))
      (hrenewing : (pending w'.calls).Sublist (pending w.calls))

theorem renewing?_of_refreshing? (h : c.refreshing? = none) : c.renewing? = none := by
  cases c with
  | renewing x => cases h
  | _ => rfl

theorem turn_other {call next : Option Call} (hl : l.plain = true)
    (hbefore : w.calls = before ++ (call.toList ++ after))
    (hafter : w'.calls = before ++ (next.toList ++ after))
    (hnext : next.bind Call.refreshing? = none) : Turn service w l w' := by
  have hsub := (List.Sublist.refl before).append (sublist_append_right call.toList after)
  rw [← hbefore] at hsub
  have hclaims : claims w'.calls = claims (before ++ after) := by
    cases next with
    | none => rw [hafter]; rfl
    | some c => rw [hafter, claims_append, Option.toList_some, singleton_append,
        claims_cons_none hnext, claims_append]
  have hpending : pending w'.calls = pending (before ++ after) := by
    cases next with
    | none => rw [hafter]; rfl
    | some c => rw [hafter, pending_append, Option.toList_some, singleton_append,
        pending_cons_none (renewing?_of_refreshing? hnext), pending_append]
  exact .other hl (hclaims ▸ hsub.filterMap _) (hpending ▸ hsub.filterMap _)

theorem step_turn (h : Step service w l w') : Turn service w l w' := by
  obtain ⟨before, after, call, next, hbefore, hafter, hfirst, hact⟩ := h.acts
  generalize hdb : w'.db = db' at hact
  cases hact with
  | rest hnext | advance _ _ _ _ _ _ hnext => exact turn_other rfl hbefore hafter hnext
  | pass _ _ _ hl => rcases hl with rfl | ⟨_, rfl⟩ <;> exact turn_other rfl hbefore hafter rfl
  | claim r expires hgeneration hactive =>
    obtain rfl := hfirst rfl
    exact .claim r rfl (hafter.trans (by rw [hbefore]; rfl)) hgeneration expires
      (by rw [hdb]) hactive
  | renew r c hc => exact .renew before after r c hbefore hafter hc rfl hdb
  | commit r now grant text hgrant hcurrent hfamilies =>
    exact .commit before after r now grant hbefore hafter rfl hgrant text (hdb ▸ hfamilies) hcurrent
  | _ => exact turn_other rfl hbefore hafter rfl

/-! ### The invariant -/

def FamilyPhase.ended (phase : FamilyPhase) : Prop := phase = .reauth ∨ phase = .revoked

/-- A refresh in flight: its family is as it has claimed it, or of no more use. -/
def Holds (r : Refreshing) (db : NativeDb) : Prop :=
  ∃ f ∈ db.families, f.family = r.family.family ∧ r.input.generation ≤ f.generation ∧
    (f.phase.ended ∨
      (f.phase = .refreshing ∧ f.leaseId = r.lease ∧ f.generation = r.input.generation))

def Used (key : String × Nat) (db : NativeDb) : Prop :=
  ∃ f ∈ db.families, f.family = key.1 ∧
    (key.2 < f.generation ∨ (key.2 = f.generation ∧ f.phase ≠ .active))

/-- What holds of the families and the refreshes in flight, with the renewals so far. -/
structure RefreshSafe (renewals : List (String × Nat)) (w : World) : Prop where
  unique : (w.db.families.map (·.family)).Nodup
  holds : ∀ r ∈ claims w.calls,
    Holds r w.db ∧ r.secret.grant.generation = r.input.generation
  apart : ((claims w.calls).map (·.key)).Nodup
  once : ((pending w.calls).map (·.key) ++ renewals).Nodup
  used : ∀ key ∈ renewals, Used key w.db

theorem Holds.used (h : Holds r db) : Used r.key db := by
  obtain ⟨f, hf, hfamily, hle, hphase⟩ := h
  refine ⟨f, hf, hfamily, ?_⟩
  rcases Nat.lt_or_eq_of_le hle with hlt | heq
  · exact .inl hlt
  · refine .inr ⟨heq, ?_⟩
    rcases hphase with (h | h) | ⟨h, -⟩ <;> simp [h]

/-- The generation stays, or the refresh that holds the lease commits the next one before the
lease expires. -/
def Advances (calls : List Call) (l : Label) (f f' : FamilyRow) : Prop :=
  (f'.generation = f.generation ∧ ∀ lease now grant, l ≠ .committed f.family lease now grant) ∨
    ∃ r now grant, .renewed r ∈ calls ∧ r.lease = f.leaseId ∧
      l = .committed f.family r.lease now grant ∧ f.phase = .refreshing ∧ now < f.leaseExpires ∧
      f'.generation = f.generation + 1

/-- The row that a refresh in flight has claimed, while it is refreshing. -/
theorem Holds.generation_eq (h : Holds r db) (hunique : (db.families.map (·.family)).Nodup)
    (hf : f ∈ db.families) (hfamily : f.family = r.family.family) (hphase : f.phase = .refreshing) :
    f.generation = r.input.generation := by
  obtain ⟨x, hx, hxfamily, -, hxphase⟩ := h
  have heq : x = f := Table.eq_of_key_eq hunique hx hf (hxfamily.trans hfamily.symm)
  subst heq
  rcases hxphase with (h | h) | ⟨-, -, h⟩
  · rw [hphase] at h
    cases h
  · rw [hphase] at h
    cases h
  · exact h

theorem FamilyMove.generation_eq (h : FamilyMove l f f')
    (hl : ∀ lease now grant, l ≠ .committed f.family lease now grant) :
    f'.generation = f.generation := by
  cases h with
  | commit _ hcommitted => exact absurd hcommitted (hl _ _ _)
  | _ => rfl

theorem FamilyMove.ended (h : FamilyMove l f f') (hended : f.phase.ended) : f'.phase.ended := by
  cases h with
  | keep => exact hended
  | lapse => exact .inl rfl
  | revoke => exact .inr rfl
  | claim hphase | commit hphase =>
    rw [hphase] at hended
    rcases hended with h | h <;> cases h

theorem RefreshSafe.successor (h : RefreshSafe renewals w)
    (hstep : Step service w l w') (hf : f ∈ w.db.families) :
    ∃ f' ∈ w'.db.families, FamilyMove l f f' ∧ Advances w.calls l f f' := by
  have hmoved := step_moved h.unique hstep
  obtain ⟨f', hf', hmove⟩ := Table.Moved.successor hmoved hf
  refine ⟨f', hf', hmove, ?_⟩
  have hplain : (∀ lease now grant, l ≠ .committed f.family lease now grant) →
      Advances w.calls l f f' :=
    fun hl => .inl ⟨hmove.generation_eq hl, hl⟩
  cases step_turn hstep with
  | claim _ hl | renew _ _ _ _ _ _ _ hl =>
    exact hplain fun _ _ _ heq => by rw [hl] at heq; cases heq
  | other hl => exact hplain fun _ _ _ heq => by rw [heq] at hl; cases hl
  | commit before after r now grant hbefore _ hl hgrant text hfamilies hcurrent =>
    by_cases hfamily : f.family = r.family.family
    · -- the row the lease is on
      obtain ⟨current, hmem, hid, hphase, hlease, hnow⟩ := hcurrent
      have heq : f = current := Table.eq_of_key_eq h.unique hf hmem (hfamily.trans hid.symm)
      subst heq
      have hr : Call.renewed r ∈ w.calls := hbefore ▸ mem_append_cons_self
      obtain ⟨hholds, hsecret⟩ := h.holds r (mem_filterMap.2 ⟨_, hr, rfl⟩)
      have hgeneration := hholds.generation_eq h.unique hf hfamily hphase
      obtain ⟨x, hx, hxfamily, hxgeneration⟩ : ∃ x ∈ w'.db.families,
          x.family = f.family ∧ x.generation = grant.generation :=
        hfamilies ▸ ⟨_, mem_map_of_mem hf, by rw [if_pos ⟨hfamily, hphase, hlease⟩]; exact
          ⟨rfl, rfl⟩⟩
      have hsame : f' = x := Table.eq_of_key_eq (hmoved.unique h.unique) hf' hx
        (hmove.family_eq.trans hxfamily.symm)
      refine .inr ⟨r, now, grant, hr, hlease.symm, ?_, hphase, hnow, ?_⟩
      · rw [hl, hfamily]
      · rw [hsame, hxgeneration, hgrant, hsecret, hgeneration]
    · exact hplain fun _ _ _ heq => hfamily (Label.committed.inj (hl.symm.trans heq)).1.symm

theorem Used.step {key : String × Nat}
    (h : RefreshSafe renewals w) (hstep : Step service w l w') (hused : Used key w.db) :
    Used key w'.db := by
  obtain ⟨f, hf, hfamily, hbefore⟩ := hused
  obtain ⟨f', hf', hmove, hadvances⟩ := h.successor hstep hf
  refine ⟨f', hf', hmove.family_eq.trans hfamily, ?_⟩
  rcases hadvances with ⟨hsame, hl⟩ | ⟨_, _, _, -, -, -, -, -, hnext⟩
  · rw [hsame]
    refine hbefore.imp_right fun ⟨hgeneration, hphase⟩ => ⟨hgeneration, ?_⟩
    cases hmove with
    | keep => exact hphase
    | lapse | revoke | claim => exact FamilyPhase.noConfusion
    | commit _ hcommitted => exact absurd hcommitted (hl _ _ _)
  · left
    omega

theorem Holds.step (h : RefreshSafe renewals w)
    (hstep : Step service w l w') (hholds : Holds r w.db)
    (hother : ∀ lease now grant, l = .committed r.family.family lease now grant →
      ¬∃ f ∈ w.db.families, f.family = r.family.family ∧ f.phase = .refreshing) :
    Holds r w'.db := by
  obtain ⟨f, hf, hfamily, hle, hphase⟩ := hholds
  obtain ⟨f', hf', hmove, -⟩ := h.successor hstep hf
  refine ⟨f', hf', hmove.family_eq.trans hfamily, ?_⟩
  cases hmove with
  | keep => exact ⟨hle, hphase⟩
  | lapse => exact ⟨hle, .inl (.inl rfl)⟩
  | revoke => exact ⟨hle, .inl (.inr rfl)⟩
  | claim hactive =>
    rw [hactive] at hphase
    rcases hphase with (h | h) | ⟨h, -⟩ <;> cases h
  | commit hrefreshing hcommitted =>
    exact absurd ⟨f, hf, hfamily, hrefreshing⟩ (hother _ _ _ (hfamily ▸ hcommitted))

theorem not_used (hunique : (db.families.map (·.family)).Nodup) (hf : f ∈ db.families)
    (hactive : f.phase = .active) : ¬Used (f.family, f.generation) db := by
  rintro ⟨x, hx, hfamily, hused⟩
  have heq : x = f := Table.eq_of_key_eq hunique hx hf hfamily
  subst heq
  rcases hused with hlt | ⟨-, hphase⟩
  · exact Nat.lt_irrefl _ hlt
  · exact hphase hactive

theorem RefreshSafe.holds_step (h : RefreshSafe renewals w)
    (hstep : Step service w l w') (hr : r ∈ claims w.calls)
    (hl : ∀ lease now grant, l ≠ .committed r.family.family lease now grant) :
    Holds r w'.db ∧ r.secret.grant.generation = r.input.generation := by
  obtain ⟨hholds, hsecret⟩ := h.holds r hr
  exact ⟨hholds.step h hstep fun _ _ _ heq => absurd heq (hl _ _ _), hsecret⟩

theorem renewing_sublist : (pending calls).Sublist (claims calls) := by
  induction calls with
  | nil => exact List.Sublist.refl _
  | cons c calls ih =>
    cases c with
    | renewing r => exact ih.cons_cons r
    | renewed r => exact ih.cons r
    | _ => exact ih

theorem RefreshSafe.step (h : RefreshSafe renewals w)
    (hstep : Step service w l w') : RefreshSafe (renewals ++ l.renews.toList) w' := by
  have hunique := (step_moved h.unique hstep).unique h.unique
  have hused : ∀ key ∈ renewals, Used key w'.db :=
    fun key hkey => (h.used key hkey).step h hstep
  cases step_turn hstep with
  | claim r hl hcalls hgeneration expires hfamilies hactive =>
    obtain ⟨f, hf, hfamily, hphase, hhash, hfgeneration⟩ := hactive
    have hkey : r.key = (f.family, f.generation) := by rw [hfamily, hfgeneration]; rfl
    have hnew : ¬Used r.key w.db := hkey ▸ not_used h.unique hf hphase
    have hflight : r.key ∉ (claims w.calls).map (·.key) := by
      intro hmem
      obtain ⟨x, hx, hxkey⟩ := mem_map.1 hmem
      exact hnew (hxkey ▸ (h.holds x hx).1.used)
    have hclaimed : Holds r w'.db := by
      rw [← hfamily, ← hfgeneration] at hfamilies
      have hmem : { f with phase := .refreshing, leaseId := r.lease, leaseExpires := expires } ∈
          w'.db.families := 
          hfamilies ▸ mem_map.2 ⟨f, hf, if_pos ⟨rfl, hphase, hhash, rfl⟩⟩
      exact ⟨_, hmem, hfamily, hfgeneration.ge, .inr ⟨rfl, rfl, hfgeneration⟩⟩
    subst hl
    refine ⟨hunique, fun x hx => ?_, ?_, ?_, ?_⟩
    · rw [hcalls] at hx
      rcases mem_cons.1 hx with rfl | hx
      · exact ⟨hclaimed, hgeneration⟩
      · exact h.holds_step hstep hx fun _ _ _ => nofun
    · rw [hcalls]
      exact nodup_cons.2 ⟨hflight, h.apart⟩
    · rw [hcalls]
      simp only [Label.renews, Option.toList_none, append_nil]
      refine nodup_cons.2 ⟨fun hmem => ?_, h.once⟩
      rcases mem_append.1 hmem with hmem | hmem
      · exact hflight ((renewing_sublist.map _).subset hmem)
      · exact hnew (h.used _ hmem)
    · simpa [Label.renews] using hused
  | renew before after r c hbefore hafter hc hl hdb =>
    have hr : r ∈ claims w.calls :=
      mem_filterMap.2 ⟨.renewing r, hbefore ▸ mem_append_cons_self, rfl⟩
    have hrefreshing : (claims w'.calls).Sublist (claims w.calls) := by
      rw [hbefore, hafter, claims_append, claims_append]
      refine (List.Sublist.refl _).append ?_
      rcases hc with rfl | hc
      · exact List.Sublist.refl _
      · rw [claims_cons_none hc]
        exact sublist_cons_self _ _
    have hc' : c.renewing? = none := hc.elim (fun heq => heq ▸ rfl) renewing?_of_refreshing?
    subst hl
    refine ⟨hunique, fun x hx => ?_, h.apart.sublist (hrefreshing.map _), ?_, fun key hkey => ?_⟩
    · exact h.holds_step hstep (hrefreshing.subset hx) fun _ _ _ => nofun
    · -- the key goes from the claims to the renewals
      have honce := h.once
      simp only [hbefore, pending_append, pending_renewing, map_append, map_cons,
        append_assoc, cons_append] at honce
      rw [hafter, pending_append, pending_cons_none hc', ← append_assoc,
        nodup_append_comm, map_append, append_assoc]
      have hmiddle := nodup_middle.1 honce
      exact hmiddle
    · rcases mem_append.1 hkey with hkey | hkey
      · exact hused key hkey
      · rw [mem_singleton.1 hkey, hdb]
        exact (h.holds r hr).1.used
  | commit before after r now grant hbefore hafter hl hgrant text hfamilies hcurrent =>
    have hsub : (before ++ after).Sublist w.calls :=
      hbefore ▸ (List.Sublist.refl before).append (sublist_cons_self _ after)
    subst hl
    rw [← hafter] at hsub
    rw [show (Label.committed r.family.family r.lease now grant).renews = none from rfl,
      Option.toList_none, append_nil]
    refine ⟨hunique, fun x hx => ?_, h.apart.sublist ((hsub.filterMap _).map _),
      h.once.sublist (((hsub.filterMap _).map _).append_right _), hused⟩
    obtain ⟨hholds, hsecret⟩ := h.holds x ((hsub.filterMap _).subset hx)
    refine ⟨hholds.step h hstep fun _ _ _ heq ⟨f, hf, hfamily, hphase⟩ => ?_, hsecret⟩
    -- both would hold the lease of one generation
    have hsame : r.family.family = x.family.family := (Label.committed.inj heq).1
    have hxgeneration := hholds.generation_eq h.unique hf hfamily hphase
    have hrgeneration := (h.holds r (mem_filterMap.2 ⟨.renewed r,
      hbefore ▸ mem_append_cons_self, rfl⟩)).1.generation_eq h.unique hf
      (hfamily.trans hsame.symm) hphase
    have hkey : r.key = x.key := Prod.ext hsame (hrgeneration.symm.trans hxgeneration)
    have hapart := h.apart
    rw [hbefore, claims_append, claims_renewed, map_append, map_cons, nodup_middle,
      ← map_append, ← claims_append, ← hafter, hkey] at hapart
    exact (nodup_cons.1 hapart).1 (mem_map_of_mem hx)
  | other hl hrefreshing hrenewing =>
    rw [Label.renews_of_plain hl, Option.toList_none, append_nil]
    refine ⟨hunique, fun x hx => ?_, ?_, ?_, hused⟩
    · refine h.holds_step hstep (hrefreshing.subset hx) fun _ _ _ heq => ?_
      rw [heq] at hl
      cases hl
    · exact h.apart.sublist (hrefreshing.map _)
    · exact h.once.sublist ((hrenewing.map _).append_right _)

/-! ### Whole runs -/

theorem Advances.generation (h : Advances calls l f f') :
    f'.generation = f.generation + [l].countP (·.commits f.family) := by
  rcases h with ⟨hsame, hl⟩ | ⟨r, now, grant, -, -, rfl, -, -, hnext⟩
  · have hno : ¬l.commits f.family = true := fun hc => by
      obtain ⟨_, _, _, heq⟩ := Label.commits_iff.1 hc
      exact hl _ _ _ heq
    rw [countP_singleton, if_neg hno, hsame, Nat.add_zero]
  · rw [countP_singleton, if_pos (Label.commits_iff.2 ⟨_, _, _, rfl⟩), hnext]

theorem run_refreshSafe {trace : List Label} (hunique : (db.families.map (·.family)).Nodup)
    (hrun : Run (Step service) ⟨db, []⟩ trace w) : RefreshSafe (trace.filterMap (·.renews)) w := by
  induction hrun with
  | refl => exact ⟨hunique, nofun, nodup_nil, nodup_nil, nofun⟩
  | @step trace _ _ l _ hstep ih =>
    have hnext := ih.step hstep
    rw [filterMap_append]
    cases hl : l.renews with
    | none | some => simpa [hl] using hnext

/-- A family goes on from one state to a later one with one more generation for each refresh of
it that is committed, and it does not come back once it has ended. -/
theorem RefreshSafe.run {more : List Label}
    (h : RefreshSafe renewals w) (hrun : Run (Step service) w more w') (hf : f ∈ w.db.families) :
    ∃ f' ∈ w'.db.families, f'.family = f.family ∧
      f'.generation = f.generation + more.countP (·.commits f.family) ∧
      (f.phase.ended → f'.phase.ended) := by
  suffices hboth : (∃ renewals, RefreshSafe renewals w') ∧ _ from hboth.2
  induction hrun with
  | refl => exact ⟨⟨_, h⟩, f, hf, rfl, rfl, id⟩
  | @step more _ _ l _ hstep ih =>
    obtain ⟨⟨_, hsafe⟩, x, hx, hfamily, hgeneration, hended⟩ := ih
    obtain ⟨x', hx', hmove, hadvances⟩ := hsafe.successor hstep hx
    refine ⟨⟨_, hsafe.step hstep⟩, x', hx', hmove.family_eq.trans hfamily, ?_,
      fun h => hmove.ended (hended h)⟩
    rw [hadvances.generation, hgeneration, hfamily, countP_append, Nat.add_assoc]

end

/-- Refreshing is single-use, in every run from any store: the provider is asked at most once for
each generation of a family; a generation is only ever advanced, by one, by the commit of the
refresh that holds the unexpired lease; and a family that has ended stays so. -/
theorem refresh_is_single_use {service : NativeSessions} {db : NativeDb} {w : World}
    {trace : List Label} (hunique : (db.families.map (·.family)).Nodup)
    (hrun : Run (Step service) ⟨db, []⟩ trace w) :
    (trace.filterMap (·.renews)).Nodup ∧
      (∀ l w', Step service w l w' → ∀ f ∈ w.db.families, ∃ f' ∈ w'.db.families,
        f'.family = f.family ∧ Advances w.calls l f f') ∧
      ∀ more w', Run (Step service) w more w' →
        (w'.db.families.map (·.family)).Nodup ∧ ∀ f ∈ w.db.families, ∃ f' ∈ w'.db.families,
          f'.family = f.family ∧
            f'.generation = f.generation + more.countP (·.commits f.family) ∧
            (f.phase.ended → f'.phase.ended) := by
  have hsafe := run_refreshSafe hunique hrun
  refine ⟨(nodup_append.1 hsafe.once).2.1, fun l w' hstep f hf => ?_,
    fun more w' hmore => ⟨(run_refreshSafe hunique (hrun.append hmore)).unique,
      fun f hf => hsafe.run hmore hf⟩⟩
  obtain ⟨f', hf', hmove, hadvances⟩ := hsafe.successor hstep hf
  exact ⟨f', hf', hmove.family_eq, hadvances⟩

namespace Device

def text : String := "PEaenWxYddN6Q_NT1PiOYfz4EsZu7jRXRlpAsNpBU-A"

def random : Random := ⟨text, by decide⟩

def env : Env := ⟨fun _ => 1000, fun _ => random, fun _ => []⟩

/-- Sealing as a table of the values there are. -/
def codebook {α : Type} [DecidableEq α] (entries : List (String × α)) : Sealing α where
  openValue _ text :=
    match entries.find? (·.1 = text) with
    | some e => .ok e.2
    | none => .error .unauthorized
  sealValue _ _ value :=
    match entries.find? fun e => (entries.find? (·.1 = e.1)).map (·.2) = some value with
    | some e => .ok e.1
    | none => .error .unavailable
  open_seal hseal hopen := by
    split at hseal
    · rename_i e he
      cases hseal
      have hvalue := find?_some he
      rw [decide_eq_true_eq] at hvalue
      split at hopen
      · rename_i e' he'
        rw [he'] at hvalue
        cases hopen
        exact Option.some.inj hvalue
      · cases hopen
    · cases hseal

def grant (generation : Nat) : Grant :=
  ⟨scope, environment, "canary-1", "alice", text, generation, 0, "sproyt-access." ++ text,
    "sproyt-refresh." ++ text, "sproyt-revoke." ++ text, 1300, "Alice"⟩

def familySecret (generation : Nat) : FamilySecret :=
  ⟨"sproyt_session=a; sproyt_refresh=b", grant generation⟩

def service : NativeSessions where
  host := { Sproyt.Sample.host with
    encode _ := text
    decode _ := some Sproyt.Sample.digest }
  codec := ⟨codebook [], codebook [("first", familySecret 0), ("second", familySecret 1)],
    codebook [], codebook [("renewed", grant 1)]⟩
  instanceId := "canary-1"

def native : NativeDb := ⟨[], [], [newFamily service (grant 0) "first"], []⟩

def refreshInput : RefreshRequest := ⟨"0123456789abcdef0123456789abcdef", 0⟩

def refreshRequest : Request := .refresh ("sproyt-refresh." ++ text) refreshInput

def refreshing : Refreshing :=
  ⟨newFamily service (grant 0) "first", familySecret 0, text, text, refreshInput⟩

def renewal : Renewal :=
  ⟨"sproyt_session=a; Path=/", "sproyt_refresh=b; Path=/", "alice", "Alice", .ok 9000⟩

def answer : Answer := ⟨none, none, true, renewal⟩

def claimed : NativeDb := (refreshRequest.exec service env native).db

def renewedTables : NativeDb := ((Call.renewed refreshing).exec service env answer claimed).db

end Device

set_option maxRecDepth 4000 in
open Device in
/-- A family is refreshed while another call tries to refresh it too. -/
theorem refresh_is_single_use_for_one_family :
    ∃ trace, Run (Step service) ⟨native, []⟩ trace ⟨renewedTables, []⟩ ∧
      trace.filterMap (·.renews) = [(text, 0)] ∧ (trace.filterMap (·.renews)).Nodup ∧
      renewedTables.families.map (·.generation) = [1] ∧
      ∀ more w', Run (Step service) ⟨renewedTables, []⟩ more w' →
        ∃ f' ∈ w'.db.families, f'.generation = 1 + more.countP (·.commits text) := by
  have hrun : Run (Step service) ⟨native, []⟩
      [.claimed text 0 text, .quiet, .renewal text 0, .committed text text 1000 (grant 1)]
      ⟨renewedTables, []⟩ := by
    refine .cons (.request refreshRequest env) (.cons (.request refreshRequest env) ?_)
    refine .cons (@Step.resume service claimed [] [] (.renewing refreshing) env answer) ?_
    exact .single (@Step.resume service claimed [] [] (.renewed refreshing) env answer)
  obtain ⟨hnodup, -, hmore⟩ := refresh_is_single_use (by decide) hrun
  refine ⟨_, hrun, rfl, hnodup, rfl, fun more w' hrun' => ?_⟩
  obtain ⟨f', hf', -, hgeneration, -⟩ := (hmore more w' hrun').2 _ mem_cons_self
  exact ⟨f', hf', hgeneration⟩

end Native

end Sproyt
