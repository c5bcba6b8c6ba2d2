import Mathlib.Data.List.Induction
import Sproyt.Domain.Types

/-!
# The rate limit of agents

`consume_rate_limit` counts the calls of an agent in a window that starts with a call and lasts
sixty seconds. A window that starts late can follow one that filled up at its end, so that close
to twice the limit is accepted within sixty seconds, and no more.
-/

namespace Sproyt

open List

/-- A row of `agent_rate_limits`. -/
structure RateLimitRow where
  windowStartedAt : Int
  requestCount : Nat
deriving DecidableEq

def rateWindow : Int := 60 * 1000000000

/-- The upsert of both adapters, with the times as the database has them. It returns no row where
the limit is reached. -/
def upsertRateLimit (now cutoff : Int) (limit : Nat) : Option RateLimitRow → Option RateLimitRow
  | none => some ⟨now, 1⟩
  | some row =>
    if row.windowStartedAt ≤ cutoff ∨ row.requestCount < limit then
      some ⟨if row.windowStartedAt ≤ cutoff then now else row.windowStartedAt,
        if row.windowStartedAt ≤ cutoff then 1 else row.requestCount + 1⟩
    else none

/-- `consume_rate_limit` of an adapter that stores times in this way. -/
def consumeRateLimit (stored : Int → Int) (limit : Nat) (now : Int)
    (row : Option RateLimitRow) : Except RepositoryError Unit × Option RateLimitRow :=
  match upsertRateLimit (stored now) (stored (now - rateWindow)) limit row with
  | some row => (.ok (), some row)
  | none => (.error .conflict, row)

/-- The texts of SQLite have all digits. -/
def Sqlite.consumeRateLimit := Sproyt.consumeRateLimit fun t => t

def Postgres.consumeRateLimit := Sproyt.consumeRateLimit postgresTime

/-- An accepted call, and the window it was counted in. -/
structure AcceptedCall where
  time : Int
  window : Int
deriving DecidableEq

structure RateHistory where
  row : Option RateLimitRow
  accepted : List AcceptedCall

def RateHistory.call (consume : Int → Option RateLimitRow →
    Except RepositoryError Unit × Option RateLimitRow) (h : RateHistory) (now : Int) :
    RateHistory :=
  match consume now h.row with
  | (.ok _, row) => ⟨row, h.accepted ++ row.toList.map fun r => ⟨now, r.windowStartedAt⟩⟩
  | (.error _, row) => ⟨row, h.accepted⟩

/-- The calls of an agent that has made none before. -/
def rateHistory (consume : Int → Option RateLimitRow →
    Except RepositoryError Unit × Option RateLimitRow) (times : List Int) : RateHistory :=
  times.foldl (RateHistory.call consume) ⟨none, []⟩

variable {limit count : Nat} {now first start span : Int} {times : List Int}
  {accepted : List AcceptedCall}

def since (x : Int) (accepted : List AcceptedCall) : Nat := accepted.countP fun c => x ≤ c.time

/-- The accepted calls of a half-open interval of this length. -/
def within (span x : Int) (accepted : List AcceptedCall) : Nat :=
  accepted.countP fun c => x ≤ c.time ∧ c.time < x + span

def counted (w : Int) (accepted : List AcceptedCall) : Nat := accepted.countP fun c => c.window = w

variable {x t w : Int}

theorem since_snoc :
    since x (accepted ++ [⟨t, w⟩]) = since x accepted + if x ≤ t then 1 else 0 := by
  simp [since, countP_append, countP_singleton]

theorem within_snoc :
    within span x (accepted ++ [⟨t, w⟩]) =
      within span x accepted + if x ≤ t ∧ t < x + span then 1 else 0 := by
  simp [within, countP_append, countP_singleton]

theorem counted_snoc (w t v : Int) :
    counted w (accepted ++ [⟨t, v⟩]) = counted w accepted + if v = w then 1 else 0 := by
  simp [counted, countP_append, countP_singleton]

theorem within_le_since (span x : Int) (accepted : List AcceptedCall) :
    within span x accepted ≤ since x accepted := by
  apply countP_mono_left
  intro c _ hc
  simpa using (of_decide_eq_true hc).1

theorem since_eq_zero (h : ∀ c ∈ accepted, c.time < x) : since x accepted = 0 := by
  apply countP_eq_zero.2
  intro c hc hle
  have hlt := h c hc
  have hle := of_decide_eq_true hle
  omega

/-- What holds after any calls of an agent, the present window of which has its first call at
`first` and is stored as `start`. -/
structure RateInv (limit : Nat) (span first start : Int) (count : Nat)
    (accepted : List AcceptedCall) : Prop where
  full : count ≤ limit
  held : count ≤ since first accepted
  later : ∀ x, first < x → since x accepted < count
  /-- Of the window before, less than the limit is left. -/
  near : ∀ x, first - span < x → since x accepted + 1 ≤ limit + count
  old : ∀ c ∈ accepted, c.window ≤ start
  current : counted start accepted = count
  windows : ∀ w, counted w accepted ≤ limit
  intervals : ∀ x, within span x accepted ≤ 2 * limit - 1

theorem RateInv.opened (hlimit : 1 ≤ limit) (hpast : ∀ c ∈ accepted, c.time ≤ now)
    (hold : ∀ c ∈ accepted, c.window < start) (hrest : ∀ x, now - span < x →
      since x accepted + 1 ≤ limit) (hwindows : ∀ w, counted w accepted ≤ limit)
    (hintervals : ∀ x, within span x accepted ≤ 2 * limit - 1) :
    RateInv limit span now start 1 (accepted ++ [⟨now, start⟩]) := by
  -- the window is new, so that no call was counted in it
  have hnone : counted start accepted = 0 := by
    apply countP_eq_zero.2
    intro c hc heq
    have hlt := hold c hc
    have heq := of_decide_eq_true heq
    omega
  refine ⟨hlimit, ?_, ?_, ?_, ?_, ?_, ?_, ?_⟩
  · rw [since_snoc, if_pos (le_refl now)]
    omega
  · intro x (hx : now < x)
    rw [since_snoc, since_eq_zero fun c hc => (hpast c hc).trans_lt hx, if_neg (not_le.2 hx)]
    omega
  · intro x hx
    have hle := hrest x hx
    rw [since_snoc]
    split <;> omega
  · intro c hc
    rcases mem_append.1 hc with hc | hc
    · exact (hold c hc).le
    · rw [mem_singleton.1 hc]
  · rw [counted_snoc, hnone, if_pos rfl]
  · intro w
    have hle := hwindows w
    rw [counted_snoc]
    by_cases hw : start = w
    · rw [if_pos hw, ← hw, hnone]
      omega
    · rw [if_neg hw]
      omega
  · intro x
    have hle := hintervals x
    rw [within_snoc]
    by_cases hx : x ≤ now ∧ now < x + span
    · -- the calls since `x` are of the last window, whose first one lies before `x`
      have hsince := hrest x (by omega)
      have hwithin := within_le_since span x accepted
      rw [if_pos hx]
      omega
    · rw [if_neg hx]
      omega

theorem RateInv.counted (h : RateInv limit span first start count accepted)
    (hroom : count < limit) (hpast : first ≤ now) :
    RateInv limit span first start (count + 1) (accepted ++ [⟨now, start⟩]) := by
  refine ⟨hroom, ?_, ?_, ?_, ?_, ?_, ?_, ?_⟩
  · have hle := h.held
    rw [since_snoc, if_pos hpast]
    omega
  · intro x hx
    have hlt := h.later x hx
    rw [since_snoc]
    split <;> omega
  · intro x hx
    have hle := h.near x hx
    rw [since_snoc]
    split <;> omega
  · intro c hc
    rcases mem_append.1 hc with hc | hc
    · exact h.old c hc
    · rw [mem_singleton.1 hc]
  · have heq := h.current
    rw [counted_snoc, if_pos rfl]
    omega
  · intro w
    have hle := h.windows w
    have heq := h.current
    rw [counted_snoc]
    by_cases hw : start = w
    · rw [if_pos hw, ← hw]
      omega
    · rw [if_neg hw]
      omega
  · intro x
    have hle := h.intervals x
    rw [within_snoc]
    by_cases hx : x ≤ now ∧ now < x + span
    · -- the interval begins less than a window before this one
      have hnear := h.near x (by omega)
      have hwithin := within_le_since span x accepted
      rw [if_pos hx]
      omega
    · rw [if_neg hx]
      omega

/-- How an adapter stores times: in their order, and with sixty seconds between them told apart. -/
structure StoresTimes (stored : Int → Int) : Prop where
  mono : ∀ a b, a ≤ b → stored a ≤ stored b
  apart : ∀ t, stored (t - rateWindow) < stored t

variable {stored : Int → Int}

/-- A call opens a window, is counted in the one there is, or is refused. -/
theorem RateHistory.call_cases (stored : Int → Int) (limit : Nat) (now : Int) (h : RateHistory) :
    (h.call (consumeRateLimit stored limit) now =
        ⟨some ⟨stored now, 1⟩, h.accepted ++ [⟨now, stored now⟩]⟩ ∧
        ∀ r, h.row = some r → r.windowStartedAt ≤ stored (now - rateWindow)) ∨
      ∃ r, h.row = some r ∧ stored (now - rateWindow) < r.windowStartedAt ∧
        (r.requestCount < limit ∧ h.call (consumeRateLimit stored limit) now =
            ⟨some ⟨r.windowStartedAt, r.requestCount + 1⟩,
              h.accepted ++ [⟨now, r.windowStartedAt⟩]⟩ ∨
          limit ≤ r.requestCount ∧ h.call (consumeRateLimit stored limit) now = h) := by
  obtain ⟨_ | r, accepted⟩ := h
  · exact .inl ⟨rfl, nofun⟩
  · by_cases hold : r.windowStartedAt ≤ stored (now - rateWindow)
    · left
      simp [RateHistory.call, consumeRateLimit, upsertRateLimit, hold]
    · refine .inr ⟨r, rfl, not_le.1 hold, ?_⟩
      by_cases hroom : r.requestCount < limit
      · simp [RateHistory.call, consumeRateLimit, upsertRateLimit, hold, hroom]
      · simp [RateHistory.call, consumeRateLimit, upsertRateLimit, hold, hroom, not_lt.1 hroom]

/-- What holds of the row and of the calls, none of which is later than now. -/
structure RateHistory.Sound (stored : Int → Int) (P : Int → Prop) (limit : Nat) (span now : Int)
    (h : RateHistory) : Prop where
  calls : ∀ c ∈ h.accepted, c.time ≤ now
  unused : h.row = none → h.accepted = []
  used : ∀ r, h.row = some r → ∃ first, P first ∧ first ≤ now ∧
    stored first = r.windowStartedAt ∧
      RateInv limit span first r.windowStartedAt r.requestCount h.accepted

variable {h : RateHistory} {P : Int → Prop}

/-- A window opens at least `span` after the one before. -/
theorem RateHistory.Sound.call (hs : h.Sound stored P limit span now)
    (hstored : StoresTimes stored) (hlimit : 1 ≤ limit) (hnow : P now)
    (hspan : ∀ a, P a → stored a ≤ stored (now - rateWindow) → a + span ≤ now) :
    (h.call (consumeRateLimit stored limit) now).Sound stored P limit span now := by
  have hcalls : ∀ w, ∀ c ∈ h.accepted ++ [⟨now, w⟩], c.time ≤ now := by
    intro w c hc
    rcases mem_append.1 hc with hc | hc
    · exact hs.calls c hc
    · rw [mem_singleton.1 hc]
  rcases h.call_cases stored limit now with
    ⟨hcall, hold⟩ | ⟨r, hrow, -, ⟨hroom, hcall⟩ | ⟨-, hcall⟩⟩
  · rw [hcall]
    refine ⟨hcalls _, nofun, ?_⟩
    rintro _ ⟨⟩
    refine ⟨now, hnow, le_refl now, rfl, show RateInv limit span now (stored now) 1 _ from ?_⟩
    rcases Option.eq_none_or_eq_some h.row with hnone | ⟨r, hrow⟩
    · rw [hs.unused hnone]
      refine .opened hlimit ?_ ?_ ?_ ?_ ?_ <;> simp [since, within, counted, hlimit]
    · obtain ⟨first, hfirst, -, hstart, hinv⟩ := hs.used r hrow
      have hold := hold r hrow
      refine .opened hlimit hs.calls (fun c hc => ?_) (fun x hx => ?_) hinv.windows hinv.intervals
      · exact ((hinv.old c hc).trans hold).trans_lt (hstored.apart now)
      · have hnext := hspan first hfirst (hstart ▸ hold)
        have hlt := hinv.later x (by omega)
        have hfull := hinv.full
        omega
  · obtain ⟨first, hfirst, hpast, hstart, hinv⟩ := hs.used r hrow
    rw [hcall]
    refine ⟨hcalls _, nofun, ?_⟩
    rintro _ ⟨⟩
    exact ⟨first, hfirst, hpast, hstart, hinv.counted hroom hpast⟩
  · rw [hcall]
    exact hs

theorem rateHistory_sound (hstored : StoresTimes stored) (hlimit : 1 ≤ limit)
    (hspan : ∀ a b, P a → P b → stored a ≤ stored (b - rateWindow) → a + span ≤ b)
    (hsorted : times.Pairwise (· ≤ ·)) (hpast : ∀ t ∈ times, t ≤ now) (htimes : ∀ t ∈ times, P t) :
    (rateHistory (consumeRateLimit stored limit) times).Sound stored P limit span now := by
  induction times using List.reverseRecOn generalizing now with
  | nil => exact ⟨nofun, fun _ => rfl, nofun⟩
  | append_singleton times t ih =>
    obtain ⟨hbefore, -, hlast⟩ := pairwise_append.1 hsorted
    have ht : P t := htimes t (mem_append_right _ (mem_singleton_self t))
    have hs := ih hbefore (fun x hx => hlast x hx t (mem_singleton_self t))
      fun x hx => htimes x (mem_append_left _ hx)
    have hs := hs.call hstored hlimit ht fun a ha => hspan a t ha ht
    have hle := hpast t (mem_append_right _ (mem_singleton_self t))
    rw [rateHistory, foldl_append]
    refine ⟨fun c hc => (hs.calls c hc).trans hle, hs.unused, fun r hr => ?_⟩
    obtain ⟨first, hfirst, hbefore, hused⟩ := hs.used r hr
    exact ⟨first, hfirst, hbefore.trans hle, hused⟩

theorem exists_last (times : List Int) : ∃ last, ∀ t ∈ times, t ≤ last := by
  induction times with
  | nil => exact ⟨0, nofun⟩
  | cons t times ih =>
    obtain ⟨last, h⟩ := ih
    exact ⟨max t last, forall_mem_cons.2 ⟨le_max_left _ _, fun x hx =>
      (h x hx).trans (le_max_right _ _)⟩⟩

theorem RateHistory.Sound.bounds (hs : h.Sound stored P limit span now) :
    (∀ x, within span x h.accepted ≤ 2 * limit - 1) ∧ ∀ w, counted w h.accepted ≤ limit := by
  rcases Option.eq_none_or_eq_some h.row with hnone | ⟨r, hrow⟩
  · simp [hs.unused hnone, within, counted]
  · obtain ⟨_, -, -, -, hinv⟩ := hs.used r hrow
    exact ⟨hinv.intervals, hinv.windows⟩

/-- A refused call has found the window full. -/
theorem RateHistory.Sound.refused (hs : h.Sound stored P limit span now)
    (hstored : StoresTimes stored)
    (hrefused : (consumeRateLimit stored limit now h.row).1 = .error .conflict) :
    limit ≤ h.accepted.countP fun c => now - rateWindow < c.time ∧ c.time ≤ now := by
  have hsame : (h.call (consumeRateLimit stored limit) now).accepted = h.accepted := by
    rw [RateHistory.call]
    split
    · next heq => rw [heq] at hrefused; cases hrefused
    · rfl
  rcases h.call_cases stored limit now with
    ⟨hcall, -⟩ | ⟨r, hrow, hnew, ⟨-, hcall⟩ | ⟨hfull, -⟩⟩
  · simp [hcall] at hsame
  · simp [hcall] at hsame
  · obtain ⟨first, -, -, hstart, hinv⟩ := hs.used r hrow
    have hfirst : now - rateWindow < first := by
      by_contra hle
      have hmono := hstored.mono first (now - rateWindow) (not_lt.1 hle)
      omega
    refine (hfull.trans hinv.held).trans (countP_mono_left fun c hc hle => ?_)
    have hle := of_decide_eq_true hle
    exact decide_eq_true ⟨by omega, hs.calls c hc⟩

/-! ### The two adapters -/

theorem sqlite_storesTimes : StoresTimes fun t => t where
  mono _ _ h := h
  apart t := by
    simp only [rateWindow]
    omega

theorem tdiv_cases (n : Int) : 0 ≤ n ∧ n.tdiv 1000 = n / 1000 ∨
    n < 0 ∧ n.tdiv 1000 = -(-n / 1000) := by
  rcases le_or_gt 0 n with hn | hn
  · exact .inl ⟨hn, Int.tdiv_eq_ediv_of_nonneg hn⟩
  · refine .inr ⟨hn, ?_⟩
    rw [← Int.tdiv_eq_ediv_of_nonneg (by omega), Int.neg_tdiv, Int.neg_neg]

/-- The stored time is less than a microsecond off, and after 2000 it is not later. -/
theorem postgresTime_near (t : Int) : t - 1000 < postgresTime t ∧ postgresTime t < t + 1000 ∧
    (postgresEpoch ≤ t → postgresTime t ≤ t) := by
  rw [postgresTime]
  rcases tdiv_cases (t - postgresEpoch) with ⟨_, h⟩ | ⟨_, h⟩ <;> rw [h] <;> omega

theorem postgres_storesTimes : StoresTimes postgresTime where
  mono a b hle := by
    simp only [postgresTime]
    rcases tdiv_cases (a - postgresEpoch) with ⟨_, ha⟩ | ⟨_, ha⟩ <;>
      rcases tdiv_cases (b - postgresEpoch) with ⟨_, hb⟩ | ⟨_, hb⟩ <;> rw [ha, hb] <;> omega
  apart t := by
    have hbefore := postgresTime_near (t - rateWindow)
    have hnow := postgresTime_near t
    simp only [rateWindow] at hbefore ⊢
    omega

theorem postgres_eq_sqlite (ht : 1000 ∣ now) (row : Option RateLimitRow) :
    Postgres.consumeRateLimit limit now row = Sqlite.consumeRateLimit limit now row := by
  have hcutoff : (1000 : Int) ∣ now - rateWindow := by
    simp only [rateWindow]
    omega
  simp only [Postgres.consumeRateLimit, Sqlite.consumeRateLimit, consumeRateLimit,
    postgresTime_eq_iff.2 ht, postgresTime_eq_iff.2 hcutoff]

theorem rateHistory_postgres (hwhole : ∀ t ∈ times, (1000 : Int) ∣ t) :
    rateHistory (Postgres.consumeRateLimit limit) times =
      rateHistory (Sqlite.consumeRateLimit limit) times := by
  refine foldl_ext _ _ _ fun h t ht => ?_
  rw [RateHistory.call, postgres_eq_sqlite (hwhole t ht), RateHistory.call]

/-- No more than the limit is accepted in a window, and nothing is refused before the limit. -/
theorem rateHistory_windows (hstored : StoresTimes stored) (hlimit : 1 ≤ limit)
    (hsorted : times.Pairwise (· ≤ ·)) :
    (∀ w, counted w (rateHistory (consumeRateLimit stored limit) times).accepted ≤ limit) ∧
      ∀ earlier now later, times = earlier ++ now :: later →
        (consumeRateLimit stored limit now
            (rateHistory (consumeRateLimit stored limit) earlier).row).1 = .error .conflict →
          limit ≤ (rateHistory (consumeRateLimit stored limit) earlier).accepted.countP fun c =>
            now - rateWindow < c.time ∧ c.time ≤ now := by
  have hspan : ∀ a b, True → True → stored a ≤ stored (b - rateWindow) → a + 0 ≤ b := by
    intro a b _ _ hle
    by_contra hlt
    have hmono := hstored.mono b a (by omega)
    have hapart := hstored.apart b
    omega
  refine ⟨?_, ?_⟩
  · obtain ⟨last, hlast⟩ := exists_last times
    exact (rateHistory_sound hstored hlimit hspan hsorted hlast fun _ _ => trivial).bounds.2
  · rintro earlier now later rfl hrefused
    obtain ⟨hearlier, -, hlast⟩ := pairwise_append.1 hsorted
    have hpast : ∀ t ∈ earlier, t ≤ now := fun t ht => hlast t ht now mem_cons_self
    exact (rateHistory_sound hstored hlimit hspan hearlier hpast fun _ _ => trivial).refused
      hstored hrefused

/-- SQLite accepts less than twice the limit in sixty seconds, PostgreSQL in a microsecond less, or
two if a call is before the first minute of 2000 is over. Both accept no more than the limit in a
window and refuse nothing before the limit. At whole microseconds they give the same answers. -/
theorem rate_limit_bounds (hlimit : 1 ≤ limit) (hsorted : times.Pairwise (· ≤ ·)) :
    (∀ x, within rateWindow x (rateHistory (Sqlite.consumeRateLimit limit) times).accepted ≤
        2 * limit - 1) ∧
      ((∀ t ∈ times, postgresEpoch + rateWindow ≤ t) → ∀ x, within (rateWindow - 1000) x
        (rateHistory (Postgres.consumeRateLimit limit) times).accepted ≤ 2 * limit - 1) ∧
      (∀ x, within (rateWindow - 2000) x
        (rateHistory (Postgres.consumeRateLimit limit) times).accepted ≤ 2 * limit - 1) ∧
      (∀ consume, consume = Sqlite.consumeRateLimit limit ∨
          consume = Postgres.consumeRateLimit limit →
        (∀ w, counted w (rateHistory consume times).accepted ≤ limit) ∧
        ∀ earlier now later, times = earlier ++ now :: later →
          (consume now (rateHistory consume earlier).row).1 = .error .conflict →
            limit ≤ (rateHistory consume earlier).accepted.countP fun c =>
              now - rateWindow < c.time ∧ c.time ≤ now) ∧
      ((∀ t ∈ times, (1000 : Int) ∣ t) → ∀ earlier now later, times = earlier ++ now :: later →
        rateHistory (Postgres.consumeRateLimit limit) earlier =
            rateHistory (Sqlite.consumeRateLimit limit) earlier ∧
          ∀ row, Postgres.consumeRateLimit limit now row =
            Sqlite.consumeRateLimit limit now row) := by
  obtain ⟨last, hlast⟩ := exists_last times
  refine ⟨?_, ?_, ?_, ?_, ?_⟩
  · refine (rateHistory_sound (P := fun _ => True) sqlite_storesTimes hlimit ?_ hsorted hlast
      fun _ _ => trivial).bounds.1
    intro a b _ _ hle
    omega
  · intro hlate
    refine (rateHistory_sound (P := fun t => postgresEpoch + rateWindow ≤ t) postgres_storesTimes
      hlimit ?_ hsorted hlast hlate).bounds.1
    intro a b ha hb hle
    have hfirst := postgresTime_near a
    have hcutoff := (postgresTime_near (b - rateWindow)).2.2 (by omega)
    omega
  · refine (rateHistory_sound (P := fun _ => True) postgres_storesTimes hlimit ?_ hsorted hlast
      fun _ _ => trivial).bounds.1
    intro a b _ _ hle
    have hfirst := postgresTime_near a
    have hcutoff := postgresTime_near (b - rateWindow)
    omega
  · rintro consume (rfl | rfl)
    · exact rateHistory_windows sqlite_storesTimes hlimit hsorted
    · exact rateHistory_windows postgres_storesTimes hlimit hsorted
  · rintro hwhole earlier now later rfl
    exact ⟨rateHistory_postgres fun t ht => hwhole t (mem_append_left _ ht),
      postgres_eq_sqlite (hwhole now (by simp))⟩

/-- Two calls a microsecond apart, the second of which PostgreSQL refuses. -/
theorem rate_limit_of_two_calls :
    within (rateWindow - 1000) (postgresEpoch + rateWindow) (rateHistory
        (Postgres.consumeRateLimit 1)
        [postgresEpoch + rateWindow, postgresEpoch + rateWindow + 1000]).accepted ≤ 1 ∧
      1 ≤ (rateHistory (Postgres.consumeRateLimit 1) [postgresEpoch + rateWindow]).accepted.countP
        fun c => postgresEpoch + 1000 < c.time ∧ c.time ≤ postgresEpoch + rateWindow + 1000 := by
  have hsorted : [postgresEpoch + rateWindow, postgresEpoch + rateWindow + 1000].Pairwise (· ≤ ·) :=
    by decide
  obtain ⟨-, hlate, -, hboth, -⟩ := rate_limit_bounds (le_refl 1) hsorted
  exact ⟨hlate (by decide) _, (hboth _ (.inr rfl)).2 [_] _ [] rfl (by decide)⟩

/-- Two calls less than sixty seconds apart: the times that PostgreSQL keeps are sixty seconds
apart, so it accepts the second where SQLite refuses it. -/
theorem adapters_differ_below_a_microsecond :
    [postgresEpoch + 500, postgresEpoch + rateWindow + 200].Pairwise (· ≤ ·) ∧
      (rateHistory (Sqlite.consumeRateLimit 1)
        [postgresEpoch + 500, postgresEpoch + rateWindow + 200]).accepted.length = 1 ∧
      within rateWindow (postgresEpoch + 500) (rateHistory (Postgres.consumeRateLimit 1)
        [postgresEpoch + 500, postgresEpoch + rateWindow + 200]).accepted = 2 := by
  decide

end Sproyt
