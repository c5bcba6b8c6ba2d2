import Sproyt.Frontend.DurableOutbox
import Sproyt.Lib.Script

/-!
# The capacity of the durable outbox

`enqueue` compares what is in memory with the limits and then waits for the journal. As long as
an `enqueue` has the journal for itself, what is in memory is all the journal has, and the
journal stays within the limits. Calls that overlap can pass the same check.
-/

namespace Sproyt

open List DurableSend Operation Table DurableOutbox OutboxWorld

variable {w w' : OutboxWorld} {l : OutboxLabel} {op : Operation} {u : String}
  {x e : DurableSend} {rows listed : List DurableSend}

def Within (rows : List DurableSend) : Prop :=
  rows.length ≤ maxEntries ∧ (rows.map DurableSend.entryBytes).sum ≤ maxBytes

theorem Within.of_subset {others : List DurableSend} (h : Within others) (hrows : rows.Nodup)
    (hsub : ∀ x ∈ rows, x ∈ others) : Within rows := by
  obtain ⟨hlength, hsum⟩ := sum_le_of_subset (w := entryBytes) hrows hsub
  exact ⟨hlength.trans h.1, hsum.trans h.2⟩

theorem foldl_entryBytes (n : Nat) :
    rows.foldl (fun sum item => sum + item.entryBytes) n =
      n + (rows.map entryBytes).sum := by
  induction rows generalizing n with
  | nil => rfl
  | cons e rows ih => rw [foldl_cons, ih, map_cons, sum_cons, Nat.add_assoc]

theorem eq_some_of_signedIn {user : Option String} (h : signedIn user = some u) :
    user = some u := by
  unfold signedIn at h
  rw [Option.filter_eq_some_iff] at h
  exact h.1

/-! ### The loop of a load -/

namespace DurableOutbox

variable {user : String} {cutoff : Int} {removed : List String} {bytes : Nat}
  {entries : List DurableSend}

/-- What is in the map stays, unless an entry of the same request takes its place. -/
theorem mem_fill_of_mem (hx : x ∈ entries) (hother : ∀ y ∈ listed, y.requestId ≠ x.requestId) :
    x ∈ (fill user cutoff removed listed bytes entries).entries := by
  fun_induction fill user cutoff removed listed bytes entries with
  | case1 | case5 => exact hx
  | case2 _ _ _ _ _ ih | case3 _ _ _ _ _ _ _ ih | case4 _ _ _ _ _ _ _ ih =>
    exact ih hx fun y hy => hother y (mem_cons_of_mem _ hy)
  | case6 e _ _ _ _ _ _ _ ih =>
    refine ih ?_ fun y hy => hother y (mem_cons_of_mem _ hy)
    exact mem_put.2 (.inr ⟨hx, (hother e mem_cons_self).symm⟩)

theorem mem_fill (hnodup : (listed.map (·.requestId)).Nodup) (hx : x ∈ listed)
    (huser : x.userId = user)
    (hfull : (fill user cutoff removed listed bytes entries).full = false) :
    (x.createdAt < cutoff ∧ x ∈ (fill user cutoff removed listed bytes entries).expired) ∨
      x.requestId ∈ removed ∨ x ∈ (fill user cutoff removed listed bytes entries).entries := by
  fun_induction fill user cutoff removed listed bytes entries with
  | case1 => cases hx
  | case2 e rest bytes entries hne ih =>
    rcases mem_cons.1 hx with rfl | hx
    · exact absurd huser hne
    · exact ih (nodup_cons.1 hnodup).2 hx hfull
  | case3 e rest bytes entries hself hold loaded ih =>
    rcases mem_cons.1 hx with rfl | hx
    · exact .inl ⟨hold, mem_cons_self⟩
    · exact (ih (nodup_cons.1 hnodup).2 hx hfull).imp_left (And.imp_right (mem_cons_of_mem _))
  | case4 e rest bytes entries hself hold hremoved ih =>
    rcases mem_cons.1 hx with rfl | hx
    · exact .inr (.inl hremoved)
    · exact ih (nodup_cons.1 hnodup).2 hx hfull
  | case5 => cases hfull
  | case6 e rest bytes entries hself hold hremoved hroom ih =>
    obtain ⟨hfirst, hrest⟩ := nodup_cons.1 hnodup
    rcases mem_cons.1 hx with rfl | hx
    · refine .inr (.inr (mem_fill_of_mem mem_put_self fun y hy hkey => hfirst ?_))
      exact mem_map.2 ⟨y, hy, hkey⟩
    · exact ih hrest hx hfull

/-- What fits does not fill the journal. -/
theorem fill_not_full (hlength : entries.length + listed.length ≤ maxEntries)
    (hbytes : bytes + (listed.map entryBytes).sum ≤ maxBytes) :
    (fill user cutoff removed listed bytes entries).full = false := by
  fun_induction fill user cutoff removed listed bytes entries with
  | case1 => rfl
  | case2 e rest bytes entries _ ih
  | case3 e rest bytes entries _ _ _ ih
  | case4 e rest bytes entries _ _ _ ih =>
    rw [length_cons] at hlength
    rw [map_cons, sum_cons] at hbytes
    exact ih (by omega) (by omega)
  | case5 e rest bytes entries _ _ _ hfull =>
    rw [length_cons] at hlength
    rw [map_cons, sum_cons] at hbytes
    omega
  | case6 e rest bytes entries _ _ _ _ ih =>
    rw [length_cons] at hlength
    rw [map_cons, sum_cons] at hbytes
    have hput : (put (·.requestId) e entries).length ≤ entries.length + 1 :=
      length_put_le
    exact ih (by omega) (by omega)

end DurableOutbox

/-! ### Calls that leave an `enqueue` the journal for itself -/

namespace Operation

def Withdraws (key : String × String) : Operation → Prop
  | .permanentFailure owner requestId _ _ => (owner, requestId) = key
  | .safeDelete entry _ => entry.key = key
  | _ => False

def Clashes : Operation → Operation → Prop
  | .enqueue _ _, .enqueue _ _ => True
  | .enqueue entry _, .acknowledge _ requestId _ => entry.requestId = requestId
  | .acknowledge _ requestId _, .enqueue entry _ => entry.requestId = requestId
  | .load _ g, .load _ g' => g = g'
  | _, _ => False

theorem clashes_symm {a b : Operation} (h : ¬ a.Clashes b) : ¬ b.Clashes a := by
  intro hba
  apply h
  cases a <;> cases b <;> first | exact hba | exact hba.symm

end Operation

/-- An `enqueue` is called when no other one, no load of the current user and no acknowledgement
of the same request is in progress, and what loads and failures have taken out of memory is
deleted; while it is in progress, the user does not change and its request is not acknowledged. -/
def Uncontended (w : OutboxWorld) : OutboxLabel → Prop
  | .called (.enqueue input) _ =>
    (∀ op ∈ w.outstanding, (∀ e g, op ≠ .enqueue e g) ∧ (∀ u, op ≠ .load u w.outbox.generation) ∧
      ∀ owner g, op ≠ .acknowledge owner input.requestId g) ∧
    ∀ op ∈ w.issued, ∀ k, ¬ op.Withdraws k
  | .called (.setUser user) _ => user = w.outbox.userId ∨ ∀ e g, .enqueue e g ∉ w.outstanding
  | .called (.acknowledge requestId) _ =>
    ∀ e g, .enqueue e g ∈ w.outstanding → e.requestId ≠ requestId
  | _ => True

/-! ### What is outstanding -/

theorem mem_outstanding :
    op ∈ w.outstanding ↔ op ∈ w.issued ∨ ∃ listed, (op, listed) ∈ w.acted := by
  rw [outstanding, mem_append, mem_map]
  refine or_congr_right ⟨?_, fun ⟨listed, h⟩ => ⟨_, h, rfl⟩⟩
  rintro ⟨⟨op', listed⟩, h, rfl⟩
  exact ⟨listed, h⟩

theorem outstanding_issue (o : DurableOutbox) (ops : List Operation) :
    ({ w with outbox := o, issued := w.issued ++ ops } : OutboxWorld).outstanding.Perm
      (ops ++ w.outstanding) := by
  unfold outstanding
  rw [append_assoc]
  exact perm_append_comm_assoc _ _ _

theorem outstanding_act {before after : List Operation} {journal : List DurableSend}
    (hissued : w.issued = before ++ op :: after) :
    ({ w with journal := journal, issued := before ++ after,
              acted := w.acted ++ [(op, listed)] } : OutboxWorld).outstanding.Perm
      w.outstanding := by
  unfold outstanding
  rw [hissued, map_append, ← append_assoc]
  refine (perm_append_singleton _ _).trans ?_
  rw [← cons_append]
  exact perm_middle.symm.append_right _

theorem outstanding_settle {before after : List (Operation × List DurableSend)}
    (hacted : w.acted = before ++ (op, listed) :: after) :
    w.outstanding.Perm (op :: (w.issued ++ (before ++ after).map (·.1))) := by
  unfold outstanding
  rw [hacted, map_append, map_cons, map_append, ← append_assoc]
  refine perm_middle.trans ?_
  rw [append_assoc]

theorem pairwise_perm {ops ops' : List Operation} (h : ops.Perm ops')
    (hops : ops'.Pairwise (¬ ·.Clashes ·)) : ops.Pairwise (¬ ·.Clashes ·) :=
  (h.pairwise_iff clashes_symm).2 hops

/-! ### The journal -/

/-- The journal is within the limits, also when what is outstanding has acted. -/
structure Stocked (w : OutboxWorld) : Prop where
  keys : (w.journal.map DurableSend.key).Nodup
  within : ∀ u, Within (w.journal.filter (·.userId = u))
  apart : w.outstanding.Pairwise (¬ ·.Clashes ·)
  room : ∀ e g, .enqueue e g ∈ w.issued →
    Within (e :: w.journal.filter fun x => x.userId = e.userId ∧ x.key ≠ e.key)
  stored : ∀ e g listed, (.enqueue e g, listed) ∈ w.acted → ∀ x ∈ w.journal, x.key = e.key → x = e
  gone : ∀ owner requestId g listed, (.acknowledge owner requestId g, listed) ∈ w.acted →
    ∀ x ∈ w.journal, x.key ≠ (owner, requestId)

theorem nodup_filter {p : DurableSend → Bool} (hkeys : (rows.map key).Nodup) :
    (rows.filter p).Nodup :=
  (List.Nodup.of_map _ hkeys).filter p

theorem Operation.mem_act (h : x ∈ op.act rows) : x ∈ rows ∨ ∃ g, op = .enqueue x g := by
  cases op with
  | load => exact .inl h
  | enqueue e g =>
    rcases mem_put.1 h with rfl | h
    · exact .inr ⟨g, rfl⟩
    · exact .inl h.1
  | acknowledge | permanentFailure | safeDelete => exact .inl (mem_erase.1 h).1

theorem Operation.not_withdraws (h : x ∈ op.act rows) : ¬ op.Withdraws x.key := by
  intro hk
  cases op with
  | load | enqueue | acknowledge => exact hk
  | permanentFailure | safeDelete => exact (mem_erase.1 h).2 hk.symm

theorem Operation.nodup_act (h : (rows.map key).Nodup) : ((op.act rows).map key).Nodup := by
  cases op with
  | load => exact h
  | enqueue => exact nodup_put h
  | acknowledge | permanentFailure | safeDelete => exact nodup_erase h

namespace Stocked

theorem issue (h : Stocked w) (o : DurableOutbox) {ops : List Operation}
    (hops : ops.Pairwise (¬ ·.Clashes ·))
    (hclash : ∀ op ∈ ops, ∀ op' ∈ w.outstanding, ¬ op.Clashes op')
    (hroom : ∀ e g, .enqueue e g ∈ ops →
      Within (e :: w.journal.filter fun x => x.userId = e.userId ∧ x.key ≠ e.key)) :
    Stocked { w with outbox := o, issued := w.issued ++ ops } where
  keys := h.keys
  within := h.within
  apart := pairwise_perm (outstanding_issue o ops) (pairwise_append.2 ⟨hops, h.apart, hclash⟩)
  room e g he := (mem_append.1 he).elim (h.room e g) (hroom e g)
  stored := h.stored
  gone := h.gone

theorem not_clashes (h : Stocked w) {rest : List Operation}
    (hperm : w.outstanding.Perm (op :: rest)) : ∀ op' ∈ rest, ¬ op.Clashes op' :=
  (pairwise_cons.1 (pairwise_perm hperm.symm h.apart)).1

theorem act (h : Stocked w) {before after : List Operation}
    (hissued : w.issued = before ++ op :: after) :
    Stocked { w with journal := op.act w.journal, issued := before ++ after,
                     acted := w.acted ++ [(op, listed)] } := by
  have hkeys : ((op.act w.journal).map key).Nodup := nodup_act h.keys
  have hop : op ∈ w.issued := hissued ▸ mem_append_cons_self
  have hperm : w.outstanding.Perm (op :: (before ++ after ++ w.acted.map (·.1))) := by
    unfold outstanding
    rw [hissued, ← cons_append]
    exact perm_middle.append_right _
  have hclash := h.not_clashes hperm
  -- an enqueue that has not acted, or has, excludes that another one acts now
  have hother : ∀ e g x, .enqueue e g ∈ before ++ after ++ w.acted.map (·.1) →
      x ∈ op.act w.journal → x ∈ w.journal := by
    intro e g x he hx
    rcases mem_act hx with hx | ⟨g', rfl⟩
    · exact hx
    · exact absurd trivial (hclash _ he)
  refine ⟨hkeys, ?_, pairwise_perm (outstanding_act hissued) h.apart, ?_, ?_, ?_⟩
  · intro u
    by_cases hadds : ∃ e g, op = .enqueue e g ∧ e.userId = u
    · obtain ⟨e, g, rfl, rfl⟩ := hadds
      refine (h.room e g hop).of_subset (nodup_filter hkeys) fun x hx => ?_
      obtain ⟨hx, huser⟩ := mem_filter.1 hx
      rcases mem_put.1 hx with rfl | ⟨hx, hkey⟩
      · exact mem_cons_self
      · refine mem_cons_of_mem _ (mem_filter.2 ⟨hx, ?_⟩)
        simpa [hkey] using huser
    · refine (h.within u).of_subset (nodup_filter hkeys) fun x hx => ?_
      obtain ⟨hx, huser⟩ := mem_filter.1 hx
      rcases mem_act hx with hx | ⟨g, rfl⟩
      · exact mem_filter.2 ⟨hx, huser⟩
      · exact absurd ⟨x, g, rfl, by simpa using huser⟩ hadds
  · intro e g he
    have hin : .enqueue e g ∈ w.issued := hissued ▸ mem_middle_of_mem he
    have hnodup : (e :: (op.act w.journal).filter fun x =>
        x.userId = e.userId ∧ x.key ≠ e.key).Nodup := by
      refine nodup_cons.2 ⟨fun hmem => ?_, nodup_filter hkeys⟩
      simp at hmem
    refine (h.room e g hin).of_subset hnodup fun x hx => ?_
    rcases mem_cons.1 hx with rfl | hx
    · exact mem_cons_self
    · obtain ⟨hx, hp⟩ := mem_filter.1 hx
      exact mem_cons_of_mem _ (mem_filter.2 ⟨hother e g x (mem_append_left _ he) hx, hp⟩)
  · intro e g listed' he x hx hkey
    rcases mem_append.1 he with he | he
    · exact h.stored e g listed' he x
        (hother e g x (mem_append_right _ (mem_map.2 ⟨_, he, rfl⟩)) hx) hkey
    · cases mem_singleton.1 he
      rcases mem_put.1 hx with rfl | ⟨_, hne⟩
      · rfl
      · exact absurd hkey hne
  · intro owner requestId g listed' ha x hx hkey
    rcases mem_append.1 ha with hold | hnew
    · rcases mem_act hx with hx | ⟨g', rfl⟩
      · exact h.gone owner requestId g listed' hold x hx hkey
      · have hin : acknowledge owner requestId g ∈ w.acted.map (·.1) :=
          mem_map.2 ⟨_, hold, rfl⟩
        exact hclash _ (mem_append_right _ hin) (congrArg Prod.snd hkey)
    · cases mem_singleton.1 hnew
      exact (mem_erase.1 hx).2 hkey

theorem settle (h : Stocked w) {before after : List (Operation × List DurableSend)}
    (o : DurableOutbox) (hacted : w.acted = before ++ (op, listed) :: after) :
    Stocked { w with outbox := o, acted := before ++ after } := by
  have hperm := outstanding_settle hacted
  have hin : ∀ a ∈ before ++ after, a ∈ w.acted := fun a ha => hacted ▸ mem_middle_of_mem ha
  refine ⟨h.keys, h.within, ?_, h.room, ?_, ?_⟩
  · exact (pairwise_cons.1 (pairwise_perm hperm.symm h.apart)).2
  · exact fun e g listed' he => h.stored e g listed' (hin _ he)
  · exact fun owner requestId g listed' ha => h.gone owner requestId g listed' (hin _ ha)

end Stocked

/-! ### Memory -/

def OutboxWorld.Covers (w : OutboxWorld) (x : DurableSend) : Prop :=
  x ∈ w.outbox.entries ∨ (∃ g, .enqueue x g ∈ w.outstanding) ∨
    (∃ op ∈ w.issued, op.Withdraws x.key) ∨ ∃ u, .load u w.outbox.generation ∈ w.outstanding

/-- Memory has all that the journal has of the current user. -/
structure Mirrored (w : OutboxWorld) : Prop extends Stocked w where
  old : ∀ op ∈ w.outstanding, op.generation ≤ w.outbox.generation
  current : ∀ e g, .enqueue e g ∈ w.outstanding → g = w.outbox.generation ∧
    w.outbox.userId = some e.userId ∧ ∀ u, .load u w.outbox.generation ∉ w.outstanding
  loading : ∀ u, .load u w.outbox.generation ∈ w.outstanding →
    signedIn w.outbox.userId = some u ∧ w.outbox.entries = [] ∧
      ∀ r ∈ w.outbox.removed, ∀ x ∈ w.journal, x.key = (u, r) → ∃ op ∈ w.issued, op.Withdraws x.key
  listed : ∀ u listed, (.load u w.outbox.generation, listed) ∈ w.acted →
    Within listed ∧ (listed.map (·.requestId)).Nodup ∧ ∀ x ∈ w.journal, x.userId = u → x ∈ listed
  covered : ∀ x ∈ w.journal, signedIn w.outbox.userId = some x.userId → w.Covers x

namespace Mirrored

variable {owner requestId : String}

variable {o : DurableOutbox} {ops : List Operation}

section

variable (h : Mirrored w)

include h

theorem move {acted : List (Operation × List DurableSend)}
    (hstocked : Stocked { w with outbox := o, issued := w.issued ++ ops, acted := acted })
    (huser : o.userId = w.outbox.userId) (hgeneration : o.generation = w.outbox.generation)
    (hacted : ∀ a ∈ acted, a ∈ w.acted)
    (hops : ∀ op ∈ ops, op.generation ≤ w.outbox.generation ∧ (∀ u g, op ≠ .load u g) ∧
      ∀ e g, op = .enqueue e g → g = w.outbox.generation ∧ w.outbox.userId = some e.userId ∧
        ∀ u, .load u w.outbox.generation ∉ w.outstanding)
    (hloading : ∀ u, .load u w.outbox.generation ∈ w.issued ++ acted.map (·.1) →
      signedIn w.outbox.userId = some u → w.outbox.entries = [] → o.entries = [] ∧
        ∀ r ∈ o.removed, r ∈ w.outbox.removed ∨
          ∀ x ∈ w.journal, x.key = (u, r) → ∃ op ∈ ops, op.Withdraws x.key)
    (hcovered : ∀ x ∈ w.journal, signedIn w.outbox.userId = some x.userId → w.Covers x →
      OutboxWorld.Covers { w with outbox := o, issued := w.issued ++ ops, acted := acted } x) :
    Mirrored { w with outbox := o, issued := w.issued ++ ops, acted := acted } := by
  have hout : ∀ op, op ∈ (w.issued ++ ops) ++ acted.map (·.1) →
      op ∈ ops ∨ op ∈ w.issued ++ acted.map (·.1) := by
    intro op hop
    simp only [mem_append] at hop ⊢
    tauto
  have hold : ∀ op ∈ w.issued ++ acted.map (·.1), op ∈ w.outstanding := by
    intro op hop
    refine (mem_append.1 hop).elim (mem_append_left _) fun hop => mem_append_right _ ?_
    exact map_subset _ hacted hop
  have hload : ∀ u g, .load u g ∈ (w.issued ++ ops) ++ acted.map (·.1) →
      .load u g ∈ w.issued ++ acted.map (·.1) :=
    fun u g hu => (hout _ hu).resolve_left fun hin => (hops _ hin).2.1 u g rfl
  refine ⟨hstocked, ?_, ?_, ?_, ?_, ?_⟩
  · intro op hop
    rw [hgeneration]
    exact (hout op hop).elim (fun hin => (hops op hin).1) fun hin => h.old op (hold op hin)
  · intro e g he
    obtain ⟨hg, hself, hnone⟩ := (hout _ he).elim (fun hin => (hops _ hin).2.2 e g rfl)
      fun hin => h.current e g (hold _ hin)
    dsimp only
    rw [hgeneration, huser]
    exact ⟨hg, hself, fun u hu => hnone u (hold _ (hload u _ hu))⟩
  · intro u hu
    dsimp only at hu ⊢
    rw [hgeneration] at hu
    have hu := hload u _ hu
    obtain ⟨hself, hnil, hskip⟩ := h.loading u (hold _ hu)
    obtain ⟨hnil', hremoved⟩ := hloading u hu hself hnil
    rw [huser]
    refine ⟨hself, hnil', fun r hr x hx hkey => ?_⟩
    rcases hremoved r hr with hr | hr
    · obtain ⟨op, hop, hk⟩ := hskip r hr x hx hkey
      exact ⟨op, mem_append_left _ hop, hk⟩
    · obtain ⟨op, hop, hk⟩ := hr x hx hkey
      exact ⟨op, mem_append_right _ hop, hk⟩
  · intro u listed hu
    dsimp only at hu ⊢
    rw [hgeneration] at hu
    exact h.listed u listed (hacted _ hu)
  · intro x hx hself
    dsimp only at hx hself
    rw [huser] at hself
    exact hcovered x hx hself (h.covered x hx hself)

theorem issue (huser : o.userId = w.outbox.userId)
    (hgeneration : o.generation = w.outbox.generation) (hops : ops.Pairwise (¬ ·.Clashes ·))
    (hclash : ∀ op ∈ ops, ∀ op' ∈ w.outstanding, ¬ op.Clashes op')
    (hkind : ∀ op ∈ ops, op.generation ≤ w.outbox.generation ∧ (∀ u g, op ≠ .load u g) ∧
      ∀ e g, op ≠ .enqueue e g) (hempty : w.outbox.entries = [] → o.entries = [])
    (hremoved : ∀ r ∈ o.removed, r ∈ w.outbox.removed ∨
      ∀ u, signedIn w.outbox.userId = some u → ∃ op ∈ ops, op.Withdraws (u, r))
    (hentries : ∀ x ∈ w.outbox.entries, x ∈ w.journal → signedIn w.outbox.userId = some x.userId →
      x ∈ o.entries ∨ ∃ op ∈ ops, op.Withdraws x.key) :
    Mirrored { w with outbox := o, issued := w.issued ++ ops } := by
  have hperm := outstanding_issue (w := w) o ops
  refine h.move (h.toStocked.issue o hops hclash fun e g he => absurd rfl ((hkind _ he).2.2 e g))
    huser hgeneration (fun _ ha => ha) (fun op hop => ?_) (fun u _ hself hnil => ?_) ?_
  · obtain ⟨hle, hload, henqueue⟩ := hkind op hop
    exact ⟨hle, hload, fun e g heq => absurd heq (henqueue e g)⟩
  · refine ⟨hempty hnil, fun r hr => (hremoved r hr).imp_right fun hr x _ hkey => ?_⟩
    rw [hkey]
    exact hr u hself
  · rintro x hx hself (hmem | ⟨g, hg⟩ | ⟨op, hop, hk⟩ | ⟨u, hu⟩)
    · rcases hentries x hmem hx hself with hmem | ⟨op, hop, hk⟩
      · exact .inl hmem
      · exact .inr (.inr (.inl ⟨op, mem_append_right _ hop, hk⟩))
    · exact .inr (.inl ⟨g, hperm.mem_iff.2 (mem_append_right _ hg)⟩)
    · exact .inr (.inr (.inl ⟨op, mem_append_left _ hop, hk⟩))
    · rw [← hgeneration] at hu
      exact .inr (.inr (.inr ⟨u, hperm.mem_iff.2 (mem_append_right _ hu)⟩))

theorem load_not_mem : .load u (w.outbox.generation + 1) ∉ w.outstanding :=
  fun hu => absurd (h.old _ hu) (Nat.not_succ_le_self _)

theorem changeUser {user : Option String} {loading : Option Nat}
    (hidle : ∀ e g, .enqueue e g ∉ w.outstanding)
    (hops : ops = (signedIn user).toList.map (.load · (w.outbox.generation + 1))) :
    Mirrored { w with
      outbox := ⟨user, [], w.outbox.generation + 1, loading, []⟩
      issued := w.issued ++ ops } := by
  have hperm := outstanding_issue (w := w) ⟨user, [], w.outbox.generation + 1, loading, []⟩ ops
  have hnew : ∀ op ∈ ops, ∃ u, signedIn user = some u ∧ op = .load u (w.outbox.generation + 1) := by
    intro op hop
    obtain ⟨u, hu, rfl⟩ := mem_map.1 (hops ▸ hop)
    exact ⟨u, Option.mem_toList.1 hu, rfl⟩
  have hout := fun op hop => (mem_append.1 (hperm.mem_iff.1 hop)).imp_left (hnew op)
  refine ⟨h.toStocked.issue _ ?_ ?_ ?_, ?_, ?_, ?_, ?_, ?_⟩
  · rw [hops]
    cases signedIn user <;> simp
  · intro op hop op' hop' hclash
    obtain ⟨_, _, rfl⟩ := hnew op hop
    cases op' with
    | load u g =>
      cases hclash
      exact h.load_not_mem hop'
    | _ => exact hclash
  · intro e g he
    obtain ⟨_, _, heq⟩ := hnew _ he
    cases heq
  · intro op hop
    rcases hout op hop with ⟨_, _, rfl⟩ | hop
    · exact Nat.le_refl _
    · exact (h.old op hop).trans (Nat.le_succ _)
  · intro e g he
    rcases hout _ he with ⟨_, _, heq⟩ | he
    · cases heq
    · exact absurd he (hidle e g)
  · intro u hu
    rcases hout _ hu with ⟨_, hself, heq⟩ | hu
    · cases heq
      exact ⟨hself, rfl, nofun⟩
    · exact absurd hu (h.load_not_mem)
  · intro u listed hu
    exact (h.load_not_mem (mem_outstanding.2 (.inr ⟨listed, hu⟩))).elim
  · intro x _ hself
    refine .inr (.inr (.inr ⟨x.userId, hperm.mem_iff.2 (mem_append_left _ ?_)⟩))
    rw [hops, show signedIn user = some x.userId from hself]
    exact mem_singleton_self _

/-- What memory has room for, the journal has room for. -/
theorem room_of_covered (hmemory : ∀ x ∈ w.journal, x.userId = e.userId → x ∈ w.outbox.entries)
    (hlength : w.outbox.entries.length < maxEntries)
    (hbytes : w.outbox.entries.foldl (fun sum item => sum + item.entryBytes) e.entryBytes ≤
      maxBytes) : Within (e :: w.journal.filter fun x => x.userId = e.userId ∧ x.key ≠ e.key) := by
  have hfits : Within (e :: w.outbox.entries) := by
    rw [foldl_entryBytes] at hbytes
    exact ⟨hlength, by rwa [map_cons, sum_cons]⟩
  refine hfits.of_subset ?_ ?_
  · refine nodup_cons.2 ⟨fun hmem => ?_, nodup_filter h.keys⟩
    simp at hmem
  · intro x hx
    rcases mem_cons.1 hx with rfl | hx
    · exact mem_cons_self
    · obtain ⟨hx, hp⟩ := mem_filter.1 hx
      have hself : x.userId = e.userId ∧ x.key ≠ e.key := by simpa using hp
      exact mem_cons_of_mem _ (hmemory x hx hself.1)

theorem enqueue {input : SendInput} {answer : Option OutboxAnswer}
    (howner : signedIn w.outbox.userId = some owner)
    (hlength : w.outbox.entries.length < maxEntries)
    (hbytes : w.outbox.entries.foldl (fun sum item => sum + item.entryBytes)
      (input.entry owner w.clock).entryBytes ≤ maxBytes)
    (hallowed : Uncontended w (.called (.enqueue input) answer)) : Mirrored { w with
      issued := w.issued ++ [.enqueue (input.entry owner w.clock) w.outbox.generation] } := by
  obtain ⟨hquiet, hdeleted⟩ := hallowed
  have hload : ∀ u, .load u w.outbox.generation ∉ w.outstanding :=
    fun u hu => (hquiet _ hu).2.1 u rfl
  -- nothing is on its way, so what the journal has of the user is in memory
  have hmemory : ∀ x ∈ w.journal, x.userId = owner → x ∈ w.outbox.entries := by
    intro x hx hself
    rcases h.covered x hx (hself ▸ howner) with hmem | ⟨g, hg⟩ | ⟨op, hop, hk⟩ | ⟨u, hu⟩
    · exact hmem
    · exact absurd rfl ((hquiet _ hg).1 x g)
    · exact absurd hk (hdeleted op hop _)
    · exact absurd hu (hload u)
  refine h.move (o := w.outbox) (h.toStocked.issue _ (pairwise_singleton _ _) ?_ ?_) rfl rfl
    (fun _ ha => ha) ?_ (fun u hu => absurd hu (hload u))
    fun x hx hself _ => .inl (hmemory x hx (Option.some.inj (hself.symm.trans howner)))
  · intro op hop op' hop' hclash
    cases mem_singleton.1 hop
    cases op' with
    | enqueue e g => exact (hquiet _ hop').1 e g rfl
    | acknowledge owner' r g =>
      cases hclash
      exact (hquiet _ hop').2.2 owner' g rfl
    | _ => exact hclash
  · intro e g he
    cases mem_singleton.1 he
    exact h.room_of_covered hmemory hlength hbytes
  · intro op hop
    cases mem_singleton.1 hop
    refine ⟨Nat.le_refl _, nofun, ?_⟩
    rintro e g ⟨⟩
    exact ⟨rfl, eq_some_of_signedIn howner, hload⟩

theorem acknowledge (hallowed : ∀ e g, .enqueue e g ∈ w.outstanding → e.requestId ≠ requestId) :
    Mirrored { w with
      issued := w.issued ++ [.acknowledge owner requestId w.outbox.generation] } := by
  refine h.issue rfl rfl (pairwise_singleton _ _) ?_ ?_ id (fun r hr => .inl hr)
    (fun x hx _ _ => .inl hx)
  · intro op hop op' hop' hclash
    cases mem_singleton.1 hop
    cases op' with
    | enqueue e g => exact hallowed e g hop' hclash
    | _ => exact hclash
  · intro op hop
    cases mem_singleton.1 hop
    exact ⟨Nat.le_refl _, nofun, nofun⟩

end

theorem drop_nil (hnil : w.outbox.entries = []) : (w.outbox.drop requestId).entries = [] := by
  rw [DurableOutbox.drop, hnil]
  rfl

theorem drop (h : Mirrored w) (hnone : signedIn w.outbox.userId = none) :
    Mirrored { w with outbox := w.outbox.drop requestId, issued := w.issued ++ [] } := by
  refine h.issue rfl rfl List.Pairwise.nil nofun nofun drop_nil ?_ ?_
  · intro r _
    refine .inr fun u hu => ?_
    rw [hnone] at hu
    cases hu
  · intro x _ _ hself
    rw [hnone] at hself
    cases hself

theorem permanentFailure (h : Mirrored w) {entry : Option DurableSend}
    (howner : signedIn w.outbox.userId = some owner) : Mirrored { w with
      outbox := w.outbox.drop requestId
      issued := w.issued ++
        [.permanentFailure owner requestId w.outbox.generation entry] } := by
  refine h.issue rfl rfl (pairwise_singleton _ _) ?_ ?_ drop_nil ?_ ?_
  · intro op hop op' _ hclash
    cases mem_singleton.1 hop
    cases op' <;> exact hclash
  · intro op hop
    cases mem_singleton.1 hop
    exact ⟨Nat.le_refl _, nofun, nofun⟩
  · intro r hr
    rcases mem_cons.1 hr with rfl | hr
    · refine .inr fun u hu => ⟨_, mem_singleton_self _, ?_⟩
      cases howner.symm.trans hu
      rfl
    · exact .inl hr
  · intro x hx _ hself
    by_cases hr : x.requestId = requestId
    · refine .inr ⟨_, mem_singleton_self _, ?_⟩
      cases howner.symm.trans hself
      exact congrArg (Prod.mk _) hr.symm
    · exact .inl (mem_erase.2 ⟨hx, hr⟩)

theorem call (h : Mirrored w) {c : OutboxCall} {answer : Option OutboxAnswer}
    (hcall : w.outbox.Calls w.clock c o ops answer) (hallowed : Uncontended w (.called c answer)) :
    Mirrored { w with outbox := o, issued := w.issued ++ ops } := by
  cases hcall with
  | left hne hnone => exact h.changeUser (hallowed.resolve_left hne) (by rw [hnone]; rfl)
  | entered hne hnext => exact h.changeUser (hallowed.resolve_left hne) (by rw [hnext]; rfl)
  | offered howner hlength hbytes => exact h.enqueue howner hlength hbytes hallowed
  | acknowledging => exact h.acknowledge hallowed
  | unowned hnone => exact h.drop hnone
  | failing howner => exact h.permanentFailure howner
  | failed hnone => exact h.drop hnone
  | same | refused | pending =>
    rw [append_nil]
    exact h

theorem act (h : Mirrored w) {before after : List Operation}
    (hissued : w.issued = before ++ op :: after) (hlisted : op.Lists w.journal listed) :
    Mirrored { w with journal := op.act w.journal, issued := before ++ after,
                      acted := w.acted ++ [(op, listed)] } := by
  have hmem : ∀ op', op' ∈ ({ w with
      journal := op.act w.journal
      issued := before ++ after
      acted := w.acted ++ [(op, listed)] } : OutboxWorld).outstanding ↔ op' ∈ w.outstanding :=
    fun op' => (outstanding_act hissued).mem_iff
  have hop : op ∈ w.outstanding := mem_outstanding.2 (.inl (hissued ▸ mem_append_cons_self))
  have hkeep : ∀ x ∈ op.act w.journal, (∃ op' ∈ w.issued, op'.Withdraws x.key) →
      ∃ op' ∈ before ++ after, op'.Withdraws x.key := by
    rintro x hx ⟨op', hop', hk⟩
    rw [hissued] at hop'
    rcases mem_append.1 hop' with hin | hin
    · exact ⟨op', mem_append_left _ hin, hk⟩
    · rcases mem_cons.1 hin with rfl | hin
      · exact absurd hk (not_withdraws hx)
      · exact ⟨op', mem_append_right _ hin, hk⟩
  -- while a load is in progress nothing is added
  have hsame : ∀ u, .load u w.outbox.generation ∈ w.outstanding → ∀ x ∈ op.act w.journal,
      x ∈ w.journal := by
    intro u hu x hx
    rcases mem_act hx with hx | ⟨g, rfl⟩
    · exact hx
    · exact absurd hu ((h.current x g hop).2.2 u)
  refine ⟨h.toStocked.act hissued, ?_, ?_, ?_, ?_, ?_⟩
  · exact fun op' hop' => h.old op' ((hmem op').1 hop')
  · intro e g he
    obtain ⟨hg, hself, hnone⟩ := h.current e g ((hmem _).1 he)
    exact ⟨hg, hself, fun u hu => hnone u ((hmem _).1 hu)⟩
  · intro u hu
    obtain ⟨hself, hnil, hskip⟩ := h.loading u ((hmem _).1 hu)
    refine ⟨hself, hnil, fun r hr x hx hkey => hkeep x hx ?_⟩
    exact hskip r hr x (hsame u ((hmem _).1 hu) x hx) hkey
  · intro u listed' hu
    rcases mem_append.1 hu with hu | hu
    · obtain ⟨hfits, hnodup, hall⟩ := h.listed u listed' hu
      have hload := mem_outstanding.2 (.inr ⟨listed', hu⟩)
      exact ⟨hfits, hnodup, fun x hx => hall x (hsame u hload x hx)⟩
    · dsimp only at hu
      cases mem_singleton.1 hu
      have hperm : listed.Perm (w.journal.filter (·.userId = u)) := hlisted
      refine ⟨(h.within u).of_subset ?_ fun x hx => hperm.mem_iff.1 hx, ?_, ?_⟩
      · exact hperm.nodup_iff.2 (nodup_filter h.keys)
      · refine ((hperm.map (·.requestId)).nodup_iff).2 ?_
        have hkeys : ((w.journal.filter (·.userId = u)).map key).Nodup :=
          h.keys.sublist (filter_sublist.map _)
        refine List.Nodup.map_on ?_ (List.Nodup.of_map _ hkeys)
        intro x hx y hy heq
        obtain ⟨hx, hxu⟩ := mem_filter.1 hx
        obtain ⟨hy, hyu⟩ := mem_filter.1 hy
        have huser : x.userId = y.userId :=
          (of_decide_eq_true hxu).trans (of_decide_eq_true hyu).symm
        exact eq_of_key_eq h.keys hx hy (Prod.ext huser heq)
      · exact fun x hx hself => hperm.mem_iff.2 (mem_filter.2 ⟨hx, decide_eq_true hself⟩)
  · intro x hx hself
    rcases mem_act hx with hin | ⟨g, rfl⟩
    · rcases h.covered x hin hself with hmemory | ⟨g, hg⟩ | hk | ⟨u, hu⟩
      · exact .inl hmemory
      · exact .inr (.inl ⟨g, (hmem _).2 hg⟩)
      · exact .inr (.inr (.inl (hkeep x hx hk)))
      · exact .inr (.inr (.inr ⟨u, (hmem _).2 hu⟩))
    · exact .inr (.inl ⟨g, (hmem _).2 hop⟩)

section Settle

variable {g : Nat}

variable {before after : List (Operation × List DurableSend)} {answer : OutboxAnswer}

theorem settle_of_kind (h : Mirrored w) (hacted : w.acted = before ++ (op, listed) :: after)
    (hkind : (∀ e g, op ≠ .enqueue e g) ∧ ∀ u, op ≠ .load u w.outbox.generation)
    (huser : o.userId = w.outbox.userId) (hgeneration : o.generation = w.outbox.generation)
    (hempty : w.outbox.entries = [] → o.entries = [])
    (hremoved : ∀ r ∈ o.removed, r ∈ w.outbox.removed ∨
      ∀ u, w.outbox.userId = some u → ∀ x ∈ w.journal, x.key ≠ (u, r))
    (hentries : ∀ x ∈ w.outbox.entries, x ∈ w.journal → w.outbox.userId = some x.userId →
      x ∈ o.entries) :
    Mirrored { w with outbox := o, issued := w.issued ++ [], acted := before ++ after } := by
  have hperm := outstanding_settle hacted
  have hstill : ∀ op' ∈ w.outstanding, op ≠ op' →
      op' ∈ (w.issued ++ []) ++ (before ++ after).map (·.1) := by
    intro op' hop' hne
    rw [append_nil]
    exact (mem_cons.1 (hperm.mem_iff.1 hop')).resolve_left (Ne.symm hne)
  refine h.move (by rw [append_nil]; exact h.toStocked.settle o hacted) huser hgeneration
    (fun a ha => hacted ▸ mem_middle_of_mem ha) nofun (fun u _ hself hnil => ?_) ?_
  · refine ⟨hempty hnil, fun r hr => (hremoved r hr).imp_right fun hr x hx hkey => ?_⟩
    exact absurd hkey (hr u (eq_some_of_signedIn hself) x hx)
  · rintro x hx hself (hmem | ⟨g, hg⟩ | ⟨op', hop', hk⟩ | ⟨u, hu⟩)
    · exact .inl (hentries x hmem hx (eq_some_of_signedIn hself))
    · exact .inr (.inl ⟨g, hstill _ hg (hkind.1 x g)⟩)
    · exact .inr (.inr (.inl ⟨op', mem_append_left _ hop', hk⟩))
    · refine .inr (.inr (.inr ⟨u, ?_⟩))
      rw [hgeneration]
      exact hstill _ hu (hkind.2 u)

theorem settle_load (h : Mirrored w) {user : String}
    (hacted : w.acted = before ++ (.load user g, listed) :: after)
    (hresume : w.outbox.Resumes w.clock listed (.load user g) o ops answer) :
    Mirrored { w with outbox := o, issued := w.issued ++ ops, acted := before ++ after } ∧
      ∀ error, answer ≠ .error error := by
  have hin : (.load user g, listed) ∈ w.acted := hacted ▸ mem_append_cons_self
  have hload : .load user g ∈ w.outstanding := mem_outstanding.2 (.inr ⟨listed, hin⟩)
  cases hresume with
  | superseded hsuperseded =>
    refine ⟨h.settle_of_kind hacted ⟨nofun, fun u heq => ?_⟩ rfl rfl id (fun r hr => .inl hr)
      (fun x hx _ _ => hx), nofun⟩
    cases heq
    exact hsuperseded ⟨rfl, eq_some_of_signedIn (h.loading user hload).1⟩
  | @loaded _ loaded huser hloaded =>
    obtain ⟨hself, hnil, hskip⟩ := h.loading user hload
    obtain ⟨hfits, hnodup, hall⟩ := h.listed user listed hin
    have hfull : loaded.full = false := by
      rw [hloaded, hnil]
      refine fill_not_full ?_ ?_
      · rw [length_nil, Nat.zero_add]
        exact hfits.1
      · rw [Nat.zero_add]
        exact hfits.2
    have hperm := outstanding_settle hacted
    have hsettled := h.toStocked.settle w.outbox hacted
    have hclash := h.toStocked.not_clashes hperm
    -- no other load is one of this generation
    have hother : ∀ u, .load u w.outbox.generation ∉ w.issued ++ (before ++ after).map (·.1) :=
      fun u hu => hclash _ hu rfl
    have hdelete : ∀ op ∈ loaded.expired.map (safeDelete · w.outbox.generation),
        ∃ e, op = .safeDelete e w.outbox.generation := by
      intro op hop
      obtain ⟨e, _, rfl⟩ := mem_map.1 hop
      exact ⟨e, rfl⟩
    refine ⟨h.move (hsettled.issue _ ?_ ?_ ?_) rfl rfl
      (fun a ha => hacted ▸ mem_middle_of_mem ha) ?_
      (fun u hu => absurd hu (hother u)) ?_, ?_⟩
    · exact pairwise_map.2 (pairwise_of_forall fun _ _ => id)
    · intro op hop op' _
      obtain ⟨e, rfl⟩ := hdelete op hop
      cases op' <;> exact id
    · intro e g he
      obtain ⟨_, heq⟩ := hdelete _ he
      cases heq
    · intro op hop
      obtain ⟨e, rfl⟩ := hdelete op hop
      exact ⟨Nat.le_refl _, nofun, nofun⟩
    · intro x hx hx' _
      have hxu : x.userId = user := Option.some.inj (hx'.symm.trans hself)
      rw [hloaded] at hfull
      have hcome := mem_fill hnodup (hall x hx hxu) hxu hfull
      rw [← hloaded] at hcome
      rcases hcome with ⟨_, hexpired⟩ | hr | hmem
      · refine .inr (.inr (.inl ⟨_, mem_append_right _ (mem_map.2 ⟨x, hexpired, rfl⟩), ?_⟩))
        exact rfl
      · obtain ⟨op, hop, hk⟩ := hskip _ hr x hx (Prod.ext hxu rfl)
        exact .inr (.inr (.inl ⟨op, mem_append_left _ hop, hk⟩))
      · exact .inl hmem
    · intro error
      rw [hfull]
      exact nofun

theorem settle_enqueue (h : Mirrored w)
    (hacted : w.acted = before ++ (.enqueue e g, listed) :: after)
    (hresume : w.outbox.Resumes w.clock listed (.enqueue e g) o ops answer) :
    Mirrored { w with outbox := o, issued := w.issued ++ ops, acted := before ++ after } := by
  have hin : (.enqueue e g, listed) ∈ w.acted := hacted ▸ mem_append_cons_self
  obtain ⟨hg, huser, hload⟩ := h.current e g (mem_outstanding.2 (.inr ⟨listed, hin⟩))
  cases hresume with
  | changed hchanged => exact absurd ⟨hg, huser⟩ hchanged
  | enqueued =>
    have hperm := outstanding_settle hacted
    refine h.move (by rw [append_nil]; exact h.toStocked.settle _ hacted) rfl rfl
      (fun a ha => hacted ▸ mem_middle_of_mem ha) nofun (fun u hu => ?_) ?_
    · exact absurd (hperm.mem_iff.2 (mem_cons_of_mem _ hu)) (hload u)
    · intro x hx hself hcovers
      have hxu : x.userId = e.userId :=
        Option.some.inj ((eq_some_of_signedIn hself).symm.trans huser)
      rcases hcovers with hmem | ⟨g', hg'⟩ | ⟨op, hop, hk⟩ | ⟨u, hu⟩
      · by_cases hr : x.requestId = e.requestId
        · -- the journal has one entry for the request, the one that was put there
          cases h.stored e _ listed hin x hx (Prod.ext hxu hr)
          exact .inl mem_put_self
        · exact .inl (mem_put.2 (.inr ⟨hmem, hr⟩))
      · rcases mem_cons.1 (hperm.mem_iff.1 hg') with heq | hin'
        · cases heq
          exact .inl mem_put_self
        · exact absurd trivial (h.toStocked.not_clashes hperm _ hin')
      · exact .inr (.inr (.inl ⟨op, mem_append_left _ hop, hk⟩))
      · exact absurd hu (hload u)

theorem settle_acknowledge (h : Mirrored w)
    (hacted : w.acted = before ++ (.acknowledge owner requestId g, listed) :: after)
    (hresume : w.outbox.Resumes w.clock listed (.acknowledge owner requestId g) o ops answer) :
    Mirrored { w with outbox := o, issued := w.issued ++ ops, acted := before ++ after } := by
  have hin : (.acknowledge owner requestId g, listed) ∈ w.acted :=
    hacted ▸ mem_append_cons_self
  have hgone := h.gone owner requestId g listed hin
  cases hresume with
  | late =>
    exact h.settle_of_kind hacted ⟨nofun, nofun⟩ rfl rfl id (fun r hr => .inl hr)
      (fun x hx _ _ => hx)
  | acknowledged huser =>
    refine h.settle_of_kind hacted ⟨nofun, nofun⟩ rfl rfl drop_nil ?_ ?_
    · intro r hr
      rcases mem_cons.1 hr with rfl | hr
      · refine .inr fun u hu => ?_
        cases huser.symm.trans hu
        exact hgone
      · exact .inl hr
    · intro x hx hjournal hself
      refine mem_erase.2 ⟨hx, fun hr => hgone x hjournal (Prod.ext ?_ hr)⟩
      exact Option.some.inj (hself.symm.trans huser)

theorem settle (h : Mirrored w) (hacted : w.acted = before ++ (op, listed) :: after)
    (hresume : w.outbox.Resumes w.clock listed op o ops answer) :
    Mirrored { w with outbox := o, issued := w.issued ++ ops, acted := before ++ after } := by
  cases op with
  | load user g => exact (h.settle_load hacted hresume).1
  | enqueue e g => exact h.settle_enqueue hacted hresume
  | acknowledge owner requestId g => exact h.settle_acknowledge hacted hresume
  | permanentFailure | safeDelete =>
    cases hresume
    exact h.settle_of_kind hacted ⟨nofun, nofun⟩ rfl rfl id (fun r hr => .inl hr)
      (fun x hx _ _ => hx)

end Settle

theorem step (h : Mirrored w) (hallowed : Uncontended w l) (hstep : OutboxStep w l w') :
    Mirrored w' := by
  cases hstep with
  | call hcall => exact h.call (call_spec hcall) hallowed
  | act hissued hlisted => exact h.act hissued hlisted
  | settle hacted hresume => exact h.settle hacted (resume_spec hresume)
  | tick now => exact ⟨⟨h.keys, h.within, h.apart, h.room, h.stored, h.gone⟩, h.old, h.current,
      h.loading, h.listed, h.covered⟩

end Mirrored

/-! ### Whole runs -/

/-- An outbox that nobody has called yet, with a journal that is within the limits. -/
structure Fresh (w : OutboxWorld) : Prop where
  outbox : w.outbox = {}
  issued : w.issued = []
  acted : w.acted = []
  keys : (w.journal.map DurableSend.key).Nodup
  within : ∀ u, Within (w.journal.filter (·.userId = u))

theorem Fresh.mirrored (h : Fresh w) : Mirrored w := by
  have hnone : w.outstanding = [] := by
    rw [outstanding, h.issued, h.acted]
    rfl
  refine ⟨⟨h.keys, h.within, ?_, ?_, ?_, ?_⟩, ?_, ?_, ?_, ?_, ?_⟩
  · rw [hnone]
    exact List.Pairwise.nil
  · rw [h.issued]
    exact nofun
  · rw [h.acted]
    exact nofun
  · rw [h.acted]
    exact nofun
  · rw [hnone]
    exact nofun
  · rw [hnone]
    exact nofun
  · rw [hnone]
    exact nofun
  · rw [h.acted]
    exact nofun
  · rw [h.outbox]
    exact nofun

/-- As long as every `enqueue` has the journal for itself, the journal of every user stays
within the limits, and no `setUser` finds it too full. -/
theorem journal_within_capacity {w₀ : OutboxWorld} {ls : List OutboxLabel} (hw₀ : Fresh w₀)
    (hrun : Run (Guarded Uncontended OutboxStep) w₀ ls w) :
    (∀ u, (w.journal.filter (·.userId = u)).length ≤ 20 ∧
      ((w.journal.filter (·.userId = u)).map DurableSend.entryBytes).sum ≤ 1024 * 1024) ∧
    ∀ user g error w', ¬ OutboxStep w (.settled (.load user g) (.error error)) w' := by
  have hw : Mirrored w :=
    hrun.invariant (fun s l t hs hst => hs.step hst.1 hst.2) hw₀.mirrored
  refine ⟨hw.within, fun user g error w' hstep => ?_⟩
  cases hstep with
  | settle hacted hresume =>
    exact (hw.settle_load hacted (DurableOutbox.resume_spec hresume)).2 error rfl

deriving instance DecidableEq for OutboxLabel

namespace Sample

def input (n : Nat) : SendInput :=
  ⟨String.ofList (List.replicate n 'r'), "c", none, "Hei", "Hei", [], false⟩

def inputs : List SendInput := (List.range 21).map input

end Sample

inductive Cue
  | call (c : OutboxCall)
  | act
  | settle

namespace OutboxWorld

def play (w : OutboxWorld) : Cue → Option (OutboxLabel × OutboxWorld)
  | .call c =>
    let (o, ops, answer) := w.outbox.call w.clock c
    some (.called c answer, { w with outbox := o, issued := w.issued ++ ops })
  | .act =>
    match w.issued with
    | [] => none
    | op :: after =>
      let listed := match op with
        | .load user _ => w.journal.filter (·.userId = user)
        | _ => []
      some (.acted 0, { w with
        journal := op.act w.journal, issued := after, acted := w.acted ++ [(op, listed)] })
  | .settle =>
    match w.acted with
    | [] => none
    | (op, listed) :: after =>
      let (o, ops, answer) := w.outbox.resume w.clock listed op
      some (.settled op answer, { w with outbox := o, issued := w.issued ++ ops, acted := after })

theorem play_step (w : OutboxWorld) (cue : Cue) (l : OutboxLabel) (w' : OutboxWorld)
    (h : w.play cue = some (l, w')) : OutboxStep w l w' := by
  cases cue with
  | call c =>
    cases h
    exact .call rfl
  | act =>
    cases hissued : w.issued with
    | nil => simp [play, hissued] at h
    | cons op after =>
      simp only [play, hissued] at h
      cases h
      refine @OutboxStep.act _ [] _ _ _ hissued ?_
      cases op with
      | load => exact .refl _
      | _ => rfl
  | settle =>
    cases hacted : w.acted with
    | nil => simp [play, hacted] at h
    | cons entry after =>
      simp only [play, hacted] at h
      cases h
      exact @OutboxStep.settle _ [] _ _ _ _ _ _ hacted rfl

end OutboxWorld

def OutboxWorld.idle (w : OutboxWorld) : OutboxLabel → Bool
  | .called _ _ => w.outstanding = []
  | _ => true

theorem uncontended_of_idle (w : OutboxWorld) (l : OutboxLabel) (h : w.idle l = true) :
    Uncontended w l := by
  cases l with
  | called c answer =>
    have houtstanding : w.outstanding = [] := of_decide_eq_true h
    have hissued : w.issued = [] := (append_eq_nil_iff.1 houtstanding).1
    cases c <;> simp [Uncontended, houtstanding, hissued]
  | _ => trivial

/-- Twenty entries are enqueued one after the other, and the user signs in again. -/
theorem journal_within_capacity_enqueued :
    ∃ ls w, Run (Guarded Uncontended OutboxStep) {} ls w ∧
      (w.journal.filter (·.userId = "a")).length = 20 ∧
      (w.journal.filter (·.userId = "a")).length ≤ 20 ∧ w.acted.map (·.1) = [.load "a" 3] ∧
      ∀ error w', ¬ OutboxStep w (.settled (.load "a" 3) (.error error)) w' := by
  have hfresh : Fresh {} :=
    ⟨rfl, rfl, rfl, nodup_nil, fun _ => ⟨Nat.zero_le _, Nat.zero_le _⟩⟩
  obtain ⟨ls, w, hrun, hlength, hload⟩ := Run.exists_of_script
    OutboxWorld.play_step uncontended_of_idle (s := {})
    (P := fun r => (r.2.journal.filter (·.userId = "a")).length = 20 ∧
      r.2.acted.map (·.1) = [.load "a" 3])
    ([.call (.setUser (some "a")), .act, .settle] ++
      (Sample.inputs.take 20).flatMap (fun i => [.call (.enqueue i), .act, .settle]) ++
      [.call (.setUser none), .call (.setUser (some "a")), .act])
    (by decide +kernel)
  obtain ⟨hwithin, hloads⟩ := journal_within_capacity hfresh hrun
  exact ⟨ls, w, hrun, hlength, (hwithin "a").1, hload, hloads "a" 3⟩

/-! ### Overlapping calls -/

/-- Calls other than `permanentFailure`, all of which succeed. -/
def Smooth (_ : OutboxWorld) : OutboxLabel → Prop
  | .called (.permanentFailure _) _ => False
  | .called _ (some (.error _)) => False
  | .settled _ (.error _) => False
  | _ => True

def smooth (_ : OutboxWorld) : OutboxLabel → Bool
  | .called (.permanentFailure _) _ | .called _ (some (.error _)) | .settled _ (.error _) => false
  | _ => true

theorem smooth_of_check (w : OutboxWorld) (l : OutboxLabel) (h : smooth w l = true) :
    Smooth w l := by
  unfold Smooth
  split <;> simp_all [smooth]

/-- Of 21 calls of `enqueue` that overlap, every one finds an empty memory and succeeds; the
journal then has 21 entries, and a later `setUser` fails. -/
theorem journal_exceeds_capacity :
    ∃ ls w w', Run (Guarded Smooth OutboxStep) {} ls w ∧
      (w.journal.filter (·.userId = "a")).length = 21 ∧
      OutboxStep w (.settled (.load "a" 3) (.error journalFull)) w' := by
  obtain ⟨ls, w, hrun, hlength, hnext⟩ := Run.exists_of_script
    OutboxWorld.play_step smooth_of_check (s := {})
    (P := fun r => (r.2.journal.filter (·.userId = "a")).length = 21 ∧
      (r.2.play .settle).any fun next => next.1 = .settled (.load "a" 3) (.error journalFull))
    ([.call (.setUser (some "a")), .act, .settle] ++
      Sample.inputs.map (fun i => .call (.enqueue i)) ++ replicate 21 .act ++
        replicate 21 .settle ++
      [.call (.setUser none), .call (.setUser (some "a")), .act])
    (by decide +kernel)
  obtain ⟨⟨l, w'⟩, hplay, hl⟩ := (Option.any_eq_true _ _).1 hnext
  obtain rfl : l = _ := of_decide_eq_true hl
  exact ⟨ls, w, w', hrun, hlength, OutboxWorld.play_step _ _ _ _ hplay⟩

end Sproyt
