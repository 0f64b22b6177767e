import Mathlib.Data.List.Induction
import Mathlib.Data.List.Perm.Subperm
import Mathlib.Data.List.TakeWhile
import Fulla.Web.RateLimiter

/-!
# What a check decides

Without a sweep, a bucket holds the failures of its key since the last success, except some that
are older than the window.  So the answer of a check is one of these failures, `verdict`.

It goes by the oldest failure in the window, and it counts one that is exactly as old as the
window: then it answers 0, however many are younger.  And the seconds it promises are those until
the oldest has left the window, also when so many are younger that the check is still throttled
then.  `decides_iff` has the exact conditions.
-/

namespace Fulla

open Conc

namespace RateLimiter

/-! ## The failures of a key -/

/-- What a call adds to the failures of a key. -/
def note (key : String) (failed : List TimePoint) (e : Event) : List TimePoint :=
  match e.call with
  | .checkThrottled _ => failed
  | .recordFailure key' => if key' = key then failed ++ [e.now] else failed
  | .recordSuccess key' => if key' = key then [] else failed

/-- The times of the failures of `key` since its last success, oldest first. -/
def failures (key : String) (events : List Event) : List TimePoint :=
  events.foldl (note key) []

/-- One more call. -/
theorem failures_concat (key : String) (events : List Event) (e : Event) :
    failures key (events ++ [e]) = note key (failures key events) e := by
  rw [failures, List.foldl_append]
  rfl

theorem failures_sublist (key : String) (events : List Event) :
    (failures key events).Sublist (events.map Event.now) := by
  induction events using List.reverseRecOn with
  | nil => exact List.Sublist.refl _
  | append_singleton events e ih =>
      rw [failures_concat, List.map_append]
      unfold note
      cases e.call with
      | checkThrottled key' => exact ih.trans (List.sublist_append_left _ _)
      | recordFailure key' =>
          dsimp only
          split
          · exact ih.append (List.Sublist.refl _)
          · exact ih.trans (List.sublist_append_left _ _)
      | recordSuccess key' =>
          dsimp only
          split
          · exact List.nil_sublist _
          · exact ih.trans (List.sublist_append_left _ _)

/-! ## The verdict -/

section Verdict

variable (cfg : RateLimiterConfig)

/-- The answer of a check of a key that has failed at these times. -/
def verdict (now : TimePoint) (failed : List TimePoint) : Int :=
  retryAfter cfg now (some (purgeOldLocked cfg now failed))

/-- The failures whose age is strictly less than the window. -/
def recent (now : TimePoint) (failed : List TimePoint) : List TimePoint :=
  failed.filter (now - cfg.window < ·)

/-- Enough failures are recent, and none is exactly as old as the window. -/
structure Throttles (now : TimePoint) (failed : List TimePoint) : Prop where
  some_ : recent cfg now failed ≠ []
  enough : cfg.maxFailures ≤ (recent cfg now failed).length
  none_at : now - cfg.window ∉ failed

variable {cfg} {now : TimePoint} {failed : List TimePoint}

/-- What is left after the purge is recent, but for what is exactly as old as the window. -/
theorem purgeOldLocked_eq_recent (sorted : failed.Pairwise (· ≤ ·))
    (none_at : now - cfg.window ∉ failed) :
    purgeOldLocked cfg now failed = recent cfg now failed := by
  induction failed with
  | nil => rfl
  | cons t failed ih =>
      rw [List.pairwise_cons] at sorted
      rw [List.mem_cons, not_or] at none_at
      by_cases old : t < now - cfg.window
      · have out : ¬ now - cfg.window < t := Int.not_lt.mpr (Int.le_of_lt old)
        rw [purgeOldLocked, List.dropWhile_cons_of_pos (by simpa using old), recent,
          List.filter_cons_of_neg (by simpa using out)]
        exact ih sorted.2 none_at.2
      · have in_ : now - cfg.window < t :=
          Int.lt_iff_le_and_ne.mpr ⟨Int.not_lt.mp old, none_at.1⟩
        rw [purgeOldLocked, List.dropWhile_cons_of_neg (by simpa using old), recent]
        refine (List.filter_eq_self.mpr fun t' mem => decide_eq_true ?_).symm
        rcases List.mem_cons.mp mem with rfl | mem
        · exact in_
        · exact Int.lt_of_lt_of_le in_ (sorted.1 t' mem)

/-- One that is exactly as old as the window comes first. -/
theorem head?_purgeOldLocked (sorted : failed.Pairwise (· ≤ ·))
    (at_ : now - cfg.window ∈ failed) :
    (purgeOldLocked cfg now failed).head? = some (now - cfg.window) := by
  induction failed with
  | nil => cases at_
  | cons t failed ih =>
      rw [List.pairwise_cons] at sorted
      by_cases old : t < now - cfg.window
      · rw [purgeOldLocked, List.dropWhile_cons_of_pos (by simpa using old)]
        rcases List.mem_cons.mp at_ with same | later
        · exact absurd (same ▸ old) (Int.lt_irrefl _)
        · exact ih sorted.2 later
      · rw [purgeOldLocked, List.dropWhile_cons_of_neg (by simpa using old), List.head?_cons]
        rcases List.mem_cons.mp at_ with same | later
        · rw [same]
        · rw [Int.le_antisymm (sorted.1 _ later) (Int.not_lt.mp old)]

/-- A young failure leaves seconds to wait. -/
theorem remaining_pos {now oldest window : Int} (young : now - window * 1000000000 < oldest) :
    0 < window - (now - oldest) / 1000000000 := by
  omega

theorem remaining_at (now window : Int) :
    window - (now - (now - window * 1000000000)).tdiv 1000000000 = 0 := by
  have age : now - (now - window * 1000000000) = window * 1000000000 := by omega
  rw [age, Int.mul_tdiv_cancel window (by decide), Int.sub_self]

/-- A check that should throttle names seconds. -/
theorem verdict_of_throttles (sorted : failed.Pairwise (· ≤ ·)) (past : ∀ t ∈ failed, t ≤ now)
    (throttles : Throttles cfg now failed) :
    ∃ oldest, (recent cfg now failed).head? = some oldest ∧
      verdict cfg now failed = cfg.windowSeconds - (now - oldest) / 1000000000 ∧
        0 < verdict cfg now failed := by
  have kept := purgeOldLocked_eq_recent sorted throttles.none_at
  cases recent_eq : recent cfg now failed with
  | nil => exact absurd recent_eq throttles.some_
  | cons oldest rest =>
      have mem : oldest ∈ recent cfg now failed := recent_eq ▸ List.mem_cons_self
      obtain ⟨there, young⟩ := List.mem_filter.mp mem
      have age : 0 ≤ now - oldest := Int.sub_nonneg_of_le (past oldest there)
      have enough : (oldest :: rest).length ≥ cfg.maxFailures := recent_eq ▸ throttles.enough
      have left_ : 0 < cfg.windowSeconds - (now - oldest) / 1000000000 :=
        remaining_pos (of_decide_eq_true young)
      have verdict_eq :
          verdict cfg now failed = cfg.windowSeconds - (now - oldest) / 1000000000 := by
        rw [verdict, kept, recent_eq, retryAfter, if_pos enough, Int.tdiv_eq_ediv_of_nonneg age]
        exact if_neg (Int.not_le.mpr left_)
      exact ⟨oldest, rfl, verdict_eq, verdict_eq ▸ left_⟩

/-- Another check names none. -/
theorem verdict_of_not_throttles (sorted : failed.Pairwise (· ≤ ·))
    (free : ¬ Throttles cfg now failed) : verdict cfg now failed = 0 := by
  by_cases at_ : now - cfg.window ∈ failed
  · have first := head?_purgeOldLocked sorted at_
    cases left_eq : purgeOldLocked cfg now failed with
    | nil =>
        rw [left_eq] at first
        cases first
    | cons oldest rest =>
        rw [left_eq] at first
        cases first
        have remaining := remaining_at now cfg.windowSeconds
        rw [verdict, left_eq, retryAfter]
        split
        · exact if_pos (Int.le_of_eq remaining)
        · rfl
  · have kept := purgeOldLocked_eq_recent sorted at_
    rw [verdict, kept]
    cases recent_eq : recent cfg now failed with
    | nil => rfl
    | cons oldest rest =>
        have few : ¬ (oldest :: rest).length ≥ cfg.maxFailures := fun enough =>
          free ⟨by rw [recent_eq]; exact List.cons_ne_nil _ _, by rw [recent_eq]; exact enough, at_⟩
        rw [retryAfter, if_neg few]

end Verdict

/-! ## The answer -/

section Answer

variable {cfg : RateLimiterConfig} {buckets : Buckets}

theorem lookup_cons_eq (b : String × Bucket) (key : String) :
    List.lookup key (b :: buckets) = if key = b.1 then some b.2 else buckets.lookup key := by
  rw [List.lookup_cons]
  by_cases same : key = b.1
  · rw [if_pos same, beq_iff_eq.mpr same]
  · rw [if_neg same, beq_false_of_ne same]

theorem lookup_map_modified (key key' : String) (f : Bucket → Bucket) :
    (buckets.map fun b => if b.1 = key then (key, f b.2) else b).lookup key' =
      if key' = key then (buckets.lookup key).map f else buckets.lookup key' := by
  induction buckets with
  | nil => simp
  | cons b buckets ih =>
      obtain ⟨k, bucket⟩ := b
      rw [List.map_cons, lookup_cons_eq, ih, lookup_cons_eq, lookup_cons_eq]
      by_cases at_ : k = key
      · subst at_
        simp only [if_true, Option.map_some]
        split <;> rfl
      · by_cases same : key' = key
        · subst same
          simp [at_, Ne.symm at_]
        · simp [at_, same]

/-- A bucket after a call has touched it. -/
theorem lookup_modify (key key' : String) (f : Bucket → Bucket) :
    (modify key f buckets).lookup key' =
      if key' = key then some (f ((buckets.lookup key).getD [])) else buckets.lookup key' := by
  unfold modify
  split
  · next there =>
      obtain ⟨bucket, found⟩ := Option.isSome_iff_exists.mp there
      rw [lookup_map_modified, found]
      rfl
  · next absent =>
      rw [lookup_cons_eq, Option.not_isSome_iff_eq_none.mp absent]
      rfl

theorem lookup_eraseKey (key key' : String) :
    (eraseKey key buckets).lookup key' = if key' = key then none else buckets.lookup key' := by
  induction buckets with
  | nil => simp [eraseKey]
  | cons b buckets ih =>
      unfold eraseKey at ih ⊢
      rw [lookup_cons_eq]
      by_cases at_ : b.1 = key
      · rw [List.filter_cons_of_neg (by simpa using at_), ih, at_]
        split <;> rfl
      · rw [List.filter_cons_of_pos (by simpa using at_), lookup_cons_eq, ih]
        by_cases same : key' = key
        · subst same
          simp [Ne.symm at_]
        · simp [same]

/-- The buckets hold what has failed, but for what has left the window. -/
structure Holds (cfg : RateLimiterConfig) (events : List Event) (now : TimePoint)
    (buckets : Buckets) : Prop where
  keys : (buckets.map Prod.fst).Nodup
  known : ∀ key ∈ buckets.map Prod.fst, ∃ e ∈ events, e.call.key = key
  kept : ∀ key, ∃ dropped, failures key events = dropped ++ (buckets.lookup key).getD [] ∧
    ∀ t ∈ dropped, t < now - cfg.window

/-- At most as many keys as there may be buckets. -/
def FewKeys (cfg : RateLimiterConfig) (events : List Event) : Prop :=
  ∃ keys : List String, keys.length ≤ cfg.maxBuckets ∧ ∀ e ∈ events, e.call.key ∈ keys

theorem FewKeys.mono {events events' : List Event} (few : FewKeys cfg events)
    (sub : ∀ e ∈ events', e ∈ events) : FewKeys cfg events' := by
  obtain ⟨keys, length, all⟩ := few
  exact ⟨keys, length, fun e mem => all e (sub e mem)⟩

variable {events : List Event} {now : TimePoint}

/-- With few keys there are few buckets. -/
theorem Holds.length_le (holds : Holds cfg events now buckets) (few : FewKeys cfg events) :
    buckets.length ≤ cfg.maxBuckets := by
  obtain ⟨keys, length, all⟩ := few
  have sub : ∀ key ∈ buckets.map Prod.fst, key ∈ keys := by
    intro key mem
    obtain ⟨e, e_mem, rfl⟩ := holds.known key mem
    exact all e e_mem
  have le := (List.subperm_of_subset holds.keys sub).length_le
  rw [List.length_map] at le
  exact le.trans length

/-- What is dropped is still older than the window later. -/
theorem Holds.kept_at (holds : Holds cfg events now buckets) {later : TimePoint}
    (le : now ≤ later) (key : String) :
    ∃ dropped, failures key events = dropped ++ (buckets.lookup key).getD [] ∧
      ∀ t ∈ dropped, t < later - cfg.window := by
  obtain ⟨dropped, whole, old⟩ := holds.kept key
  exact ⟨dropped, whole, fun t mem => Int.lt_of_lt_of_le (old t mem) (Int.sub_le_sub_right le _)⟩

/-- And the same with what a purge drops. -/
theorem Holds.purged (holds : Holds cfg events now buckets) {later : TimePoint}
    (le : now ≤ later) (key : String) :
    ∃ dropped, failures key events =
        dropped ++ purgeOldLocked cfg later ((buckets.lookup key).getD []) ∧
      ∀ t ∈ dropped, t < later - cfg.window := by
  obtain ⟨dropped, whole, old⟩ := holds.kept_at le key
  refine ⟨dropped ++ ((buckets.lookup key).getD []).takeWhile (· < later - cfg.window), ?_, ?_⟩
  · rw [whole, List.append_assoc, purgeOldLocked, List.takeWhile_append_dropWhile]
  · intro t mem
    rcases List.mem_append.mp mem with before | now_
    · exact old t before
    · have young := List.mem_takeWhile_imp now_
      exact of_decide_eq_true young

/-- What is held after a call has touched its bucket. -/
theorem Holds.modify {e : Event} {f : Bucket → Bucket} (holds : Holds cfg events now buckets)
    (le : now ≤ e.now) {key : String} (key_eq : e.call.key = key)
    (other : ∀ key' ≠ key, failures key' (events ++ [e]) = failures key' events)
    (own : ∃ dropped, failures key (events ++ [e]) =
        dropped ++ f ((buckets.lookup key).getD []) ∧ ∀ t ∈ dropped, t < e.now - cfg.window) :
    Holds cfg (events ++ [e]) e.now (RateLimiter.modify key f buckets) := by
  refine ⟨keys_modify holds.keys, ?_, ?_⟩
  · intro key' mem
    rw [← lookup_isSome_iff, lookup_modify] at mem
    by_cases same : key' = key
    · exact ⟨e, List.mem_append_right _ List.mem_cons_self, key_eq.trans same.symm⟩
    · rw [if_neg same, lookup_isSome_iff] at mem
      obtain ⟨e', e'_mem, rfl⟩ := holds.known key' mem
      exact ⟨e', List.mem_append_left _ e'_mem, rfl⟩
  · intro key'
    rw [lookup_modify]
    by_cases same : key' = key
    · rw [if_pos same, same]
      exact own
    · rw [if_neg same, other key' same]
      exact holds.kept_at le key'

/-- What is held after a call has purged its bucket. -/
theorem Holds.touched {e : Event} (holds : Holds cfg events now buckets) (le : now ≤ e.now) :
    Holds cfg (events ++ [e]) e.now (touched cfg e buckets) := by
  obtain ⟨call, t, t_lt, it⟩ := e
  cases call with
  | checkThrottled key =>
      refine holds.modify le rfl (fun key' _ => failures_concat _ _ _) ?_
      rw [failures_concat]
      exact holds.purged le key
  | recordFailure key =>
      refine holds.modify (f := fun bucket => purgeOldLocked cfg t bucket ++ [t]) le rfl
        (fun key' other => ?_) ?_
      · rw [failures_concat]
        exact if_neg (Ne.symm other)
      · obtain ⟨dropped, whole, old⟩ := holds.purged le key
        refine ⟨dropped, ?_, old⟩
        rw [failures_concat, ← List.append_assoc, ← whole]
        exact if_pos rfl
  | recordSuccess key =>
      have sub : (eraseKey key buckets).Sublist buckets := List.filter_sublist
      refine ⟨holds.keys.sublist (sub.map Prod.fst), ?_, ?_⟩
      · intro key' mem
        obtain ⟨e', e'_mem, same⟩ := holds.known key' ((sub.map Prod.fst).subset mem)
        exact ⟨e', List.mem_append_left _ e'_mem, same⟩
      · intro key'
        change ∃ dropped, _ = dropped ++ ((eraseKey key buckets).lookup key').getD [] ∧ _
        rw [lookup_eraseKey, failures_concat]
        by_cases same : key' = key
        · rw [if_pos same]
          exact ⟨[], if_pos same.symm, by simp⟩
        · rw [if_neg same]
          obtain ⟨dropped, whole, old⟩ := holds.kept_at le key'
          exact ⟨dropped, (if_neg (Ne.symm same)).trans whole, old⟩

/-- A call of one of few keys does not sweep. -/
theorem step_few {e : Event} (holds : Holds cfg events now buckets) (le : now ≤ e.now)
    (few : FewKeys cfg (events ++ [e])) :
    ∃ n, step cfg e buckets = .ok (n, touched cfg e buckets) ∧
      ∀ key, e.call = .checkThrottled key → n = verdict cfg e.now (failures key events) := by
  have small := (holds.touched le).length_le few
  obtain ⟨call, t, t_lt, it⟩ := e
  cases call with
  | checkThrottled key =>
      have stays : decide ((modify key (purgeOldLocked cfg t) buckets).length > cfg.maxBuckets) =
          false :=
        decide_eq_false (Nat.not_lt.mpr small)
      refine ⟨retryAfter cfg t ((modify key (purgeOldLocked cfg t) buckets).lookup key), ?_, ?_⟩
      · change checkThrottled cfg it t key buckets = _
        rw [checkThrottled_eq, stays, Bool.and_false]
        rfl
      · rintro key' ⟨⟩
        obtain ⟨dropped, whole, old⟩ := holds.kept_at le key
        rw [lookup_modify, if_pos rfl, verdict, whole, purgeOldLocked, purgeOldLocked,
          List.dropWhile_append_of_pos fun t' mem => decide_eq_true (old t' mem)]
  | recordFailure key =>
      refine ⟨0, ?_, by rintro key' ⟨⟩⟩
      change recordFailure cfg it t key buckets >>= _ = _
      have stays : decide ((modify key (fun bucket => purgeOldLocked cfg t bucket ++ [t])
          buckets).length > cfg.maxBuckets) = false :=
        decide_eq_false (Nat.not_lt.mpr small)
      unfold recordFailure
      dsimp only
      rw [stays]
      rfl
  | recordSuccess key => exact ⟨0, rfl, by rintro key' ⟨⟩⟩

theorem Holds.mono (holds : Holds cfg events now buckets) {later : TimePoint}
    (le : now ≤ later) : Holds cfg events later buckets :=
  ⟨holds.keys, holds.known, holds.kept_at le⟩

/-- A run with one more call. -/
theorem run_concat (events : List Event) (e : Event) (buckets : Buckets) :
    run cfg (events ++ [e]) buckets =
      run cfg events buckets >>= fun left => step cfg e left >>= fun out => .ok out.2 := by
  induction events generalizing buckets with
  | nil => rfl
  | cons e' events ih =>
      rw [List.cons_append, run, run]
      cases step cfg e' buckets with
      | error stop => rfl
      | ok out => exact ih out.2

/-- In a run of few keys the buckets hold what has failed, at any time that is not before. -/
theorem run_few {later : TimePoint} (clock : events.Pairwise fun e e' => e.now ≤ e'.now)
    (before : ∀ e ∈ events, e.now ≤ later) (few : FewKeys cfg events) :
    ∃ buckets, run cfg events [] = .ok buckets ∧ Holds cfg events later buckets := by
  induction events using List.reverseRecOn generalizing later with
  | nil => exact ⟨[], rfl, List.nodup_nil, by simp, fun key => ⟨[], rfl, by simp⟩⟩
  | append_singleton events e ih =>
      obtain ⟨earlier, -, last⟩ := List.pairwise_append.mp clock
      obtain ⟨buckets, run_eq, holds⟩ := @ih e.now earlier
        (fun e' mem => last e' mem e List.mem_cons_self)
        (few.mono fun e' mem => List.mem_append_left _ mem)
      obtain ⟨n, step_eq, -⟩ := step_few holds (Int.le_refl e.now) few
      refine ⟨touched cfg e buckets, ?_, ?_⟩
      · rw [run_concat, run_eq]
        change (step cfg e buckets >>= fun out => Except.ok out.2) = _
        rw [step_eq]
        rfl
      · exact (holds.touched (Int.le_refl e.now)).mono
          (before e (List.mem_append_right _ List.mem_cons_self))

/-- What a call answers after others. -/
def answer (cfg : RateLimiterConfig) (events : List Event) (e : Event) : Except Stop Int := do
  let buckets ← run cfg events []
  let (n, _) ← step cfg e buckets
  return n

/-- A check answers the verdict on what has failed. -/
theorem answer_eq {e : Event} {key : String}
    (clock : (events ++ [e]).Pairwise fun e e' => e.now ≤ e'.now)
    (few : FewKeys cfg (events ++ [e])) (check : e.call = .checkThrottled key) :
    answer cfg events e = .ok (verdict cfg e.now (failures key events)) := by
  obtain ⟨earlier, -, last⟩ := List.pairwise_append.mp clock
  obtain ⟨buckets, run_eq, holds⟩ := run_few earlier
    (fun e' mem => last e' mem e List.mem_cons_self)
    (few.mono fun e' mem => List.mem_append_left _ mem)
  obtain ⟨n, step_eq, verdict_eq⟩ := step_few holds (Int.le_refl e.now) few
  rw [answer, run_eq]
  change (step cfg e buckets >>= fun out => Except.ok out.1) = _
  rw [step_eq, ← verdict_eq key check]
  rfl

/-- Times in order, none in the future. -/
theorem failures_sorted {e : Event} (key : String)
    (clock : (events ++ [e]).Pairwise fun e e' => e.now ≤ e'.now) :
    (failures key events).Pairwise (· ≤ ·) ∧ ∀ t ∈ failures key events, t ≤ e.now := by
  obtain ⟨earlier, -, last⟩ := List.pairwise_append.mp clock
  have sub := failures_sublist key events
  refine ⟨(List.pairwise_map.mpr earlier).sublist sub, fun t mem => ?_⟩
  obtain ⟨e', e'_mem, rfl⟩ := List.mem_map.mp (sub.subset mem)
  exact last e' e'_mem e List.mem_cons_self

end Answer

/-! ## Decisions and promises -/

section Decisions

variable (cfg : RateLimiterConfig) (events : List Event)

/-- Every check answers a positive number exactly when at least `maxFailures` failures of its key
since the last success are younger than the window. -/
def Decides : Prop :=
  ∀ before e after key, events = before ++ e :: after → e.call = .checkThrottled key →
    ∃ n, answer cfg before e = .ok n ∧
      (0 < n ↔ cfg.maxFailures ≤ (recent cfg e.now (failures key before)).length)

/-- A check that is made `n + 1` seconds after one that answered `n`, with no failure of the key
between them, answers 0. -/
def KeepsPromise : Prop :=
  ∀ before e between e' after key n, events = before ++ e :: (between ++ e' :: after) →
    e.call = .checkThrottled key → e'.call = .checkThrottled key →
    (∀ x ∈ between, x.call ≠ .recordFailure key) → answer cfg before e = .ok n → 0 < n →
    e'.now = e.now + (n + 1) * 1000000000 → answer cfg (before ++ e :: between) e' = .ok 0

/-- At a check with enough recent failures there is one (even if none are enough), and none is
exactly as old as the window. -/
def NoneAtTheEdge : Prop :=
  ∀ (before : List Event) (e : Event) (after : List Event) (key : String),
    events = before ++ e :: after → e.call = .checkThrottled key →
    cfg.maxFailures ≤ (recent cfg e.now (failures key before)).length →
      Throttles cfg e.now (failures key before)

/-- One window and at most a second after the oldest of the failures that throttle a check, the
others do not. -/
def OldestDecides : Prop :=
  ∀ (before : List Event) (e : Event) (between : List Event) (e' : Event) (after : List Event)
    (key : String) (oldest : TimePoint), events = before ++ e :: (between ++ e' :: after) →
    e.call = .checkThrottled key → e'.call = .checkThrottled key →
    (∀ x ∈ between, x.call ≠ .recordFailure key) → Throttles cfg e.now (failures key before) →
    (recent cfg e.now (failures key before)).head? = some oldest →
    e'.now = e.now + (cfg.windowSeconds - (e.now - oldest) / 1000000000 + 1) * 1000000000 →
      ¬ Throttles cfg e'.now (failures key (before ++ e :: between))

variable {cfg events}

/-- What holds of a run holds of its beginnings. -/
theorem clock_few_of_beginning {begin_ rest : List Event} (split : events = begin_ ++ rest)
    (clock : events.Pairwise fun e e' => e.now ≤ e'.now) (few : FewKeys cfg events) :
    (begin_.Pairwise fun e e' => e.now ≤ e'.now) ∧ FewKeys cfg begin_ := by
  subst split
  exact ⟨(List.pairwise_append.mp clock).1,
    few.mono fun e mem => List.mem_append_left _ mem⟩

/-- **When every check decides by the failures of the window**. -/
theorem decides_iff_noneAtTheEdge (clock : events.Pairwise fun e e' => e.now ≤ e'.now)
    (few : FewKeys cfg events) : Decides cfg events ↔ NoneAtTheEdge cfg events := by
  have point (before : List Event) (e : Event) (after : List Event) (key : String)
      (split : events = before ++ e :: after) (check : e.call = .checkThrottled key) :
      (∃ n, answer cfg before e = .ok n ∧
        (0 < n ↔ cfg.maxFailures ≤ (recent cfg e.now (failures key before)).length)) ↔
      (cfg.maxFailures ≤ (recent cfg e.now (failures key before)).length →
        Throttles cfg e.now (failures key before)) := by
    obtain ⟨clock', few'⟩ := @clock_few_of_beginning _ _ (before ++ [e]) after
      (by simp [split]) clock few
    obtain ⟨sorted, past⟩ := failures_sorted key clock'
    rw [answer_eq clock' few' check]
    constructor
    · rintro ⟨n, same, decided⟩ enough
      cases same
      by_contra free
      have positive := decided.mpr enough
      rw [verdict_of_not_throttles sorted free] at positive
      exact absurd positive (Int.lt_irrefl 0)
    · intro throttled
      refine ⟨_, rfl, fun positive => ?_, fun enough => ?_⟩
      · by_contra few_
        have free : ¬ Throttles cfg e.now (failures key before) := fun no => few_ no.enough
        rw [verdict_of_not_throttles sorted free] at positive
        exact absurd positive (Int.lt_irrefl 0)
      · obtain ⟨-, -, -, positive⟩ := verdict_of_throttles sorted past (throttled enough)
        exact positive
  constructor
  · intro decides before e after key split check
    exact (point before e after key split check).mp (decides before e after key split check)
  · intro none_at before e after key split check
    exact (point before e after key split check).mpr (none_at before e after key split check)

/-- **When every wait that is named is long enough**. -/
theorem keepsPromise_iff_oldestDecides (clock : events.Pairwise fun e e' => e.now ≤ e'.now)
    (few : FewKeys cfg events) : KeepsPromise cfg events ↔ OldestDecides cfg events := by
  have first {before between after : List Event} {e e' : Event}
      (split : events = before ++ e :: (between ++ e' :: after)) :=
    @clock_few_of_beginning _ _ (before ++ [e]) (between ++ e' :: after)
      (by simp [split]) clock few
  have second {before between after : List Event} {e e' : Event}
      (split : events = before ++ e :: (between ++ e' :: after)) :=
    @clock_few_of_beginning _ _ (before ++ e :: between ++ [e']) after
      (by simp [split]) clock few
  constructor
  · intro keeps before e between e' after key oldest split check check' quiet throttles head at_ no
    obtain ⟨clock₁, few₁⟩ := first split
    obtain ⟨clock₂, few₂⟩ := second split
    obtain ⟨sorted₁, past₁⟩ := failures_sorted key clock₁
    obtain ⟨sorted₂, past₂⟩ := failures_sorted key clock₂
    obtain ⟨oldest', head', verdict_eq, positive⟩ := verdict_of_throttles sorted₁ past₁ throttles
    cases head.symm.trans head'
    rw [← verdict_eq] at at_
    have kept := keeps before e between e' after key _ split check check' quiet
      (answer_eq clock₁ few₁ check) positive at_
    rw [answer_eq clock₂ few₂ check'] at kept
    obtain ⟨-, -, -, positive'⟩ := verdict_of_throttles sorted₂ past₂ no
    rw [Except.ok.inj kept] at positive'
    exact absurd positive' (Int.lt_irrefl 0)
  · intro decides before e between e' after key n split check check' quiet answered positive at_
    obtain ⟨clock₁, few₁⟩ := first split
    obtain ⟨clock₂, few₂⟩ := second split
    obtain ⟨sorted₁, past₁⟩ := failures_sorted key clock₁
    obtain ⟨sorted₂, -⟩ := failures_sorted key clock₂
    rw [answer_eq clock₁ few₁ check] at answered
    cases answered
    have throttles : Throttles cfg e.now (failures key before) := by
      by_contra free
      rw [verdict_of_not_throttles sorted₁ free] at positive
      exact absurd positive (Int.lt_irrefl 0)
    obtain ⟨oldest, head, verdict_eq, -⟩ := verdict_of_throttles sorted₁ past₁ throttles
    rw [verdict_eq] at at_
    have free := decides before e between e' after key oldest split check check' quiet throttles
      head at_
    rw [answer_eq clock₂ few₂ check', verdict_of_not_throttles sorted₂ free]

/-- The limiter decides by the recent failures and keeps what it promises in exactly the runs in
which no failure that counts is as old as the window and those after the oldest do not throttle
again. -/
theorem decides_and_keeps_iff (cfg : RateLimiterConfig) (events : List Event)
    (clock : events.Pairwise fun e e' => e.now ≤ e'.now) (few : FewKeys cfg events) :
    Decides cfg events ∧ KeepsPromise cfg events ↔
      NoneAtTheEdge cfg events ∧ OldestDecides cfg events :=
  and_congr (decides_iff_noneAtTheEdge clock few) (keepsPromise_iff_oldestDecides clock few)

/-- A call in the second `t`. -/
def at_ (t : Nat) (call : Call) (early : t ≤ 1000) : Event :=
  { call := call
    now := t * 1000000000
    now_lt := by
      have bound : (t : Int) ≤ 1000 := Int.ofNat_le.mpr early
      change (t : Int) * 1000000000 < 2 ^ 63 - 1
      omega
    it := storedOrder }

end Decisions

/-- Two failures, half a window apart, and the checks that follow, with a threshold of one. -/
def halfAWindowApart (checks : List Event) : List Event :=
  at_ 0 (.recordFailure "k") (by decide) :: at_ 30 (.recordFailure "k") (by decide) :: checks

/-- A minute after the first failure the second one does not count, and a second later the promise
of half a minute before is broken. -/
theorem neither_decided_nor_kept :
    ¬ Decides { maxFailures := 1 }
        (halfAWindowApart [at_ 60 (.checkThrottled "k") (by decide)]) ∧
      ¬ KeepsPromise { maxFailures := 1 }
        (halfAWindowApart [at_ 31 (.checkThrottled "k") (by decide),
          at_ 61 (.checkThrottled "k") (by decide)]) := by
  constructor
  · intro decides
    obtain ⟨n, answered, positive⟩ := decides (halfAWindowApart [])
      (at_ 60 (.checkThrottled "k") (by decide)) [] "k" rfl rfl
    have zero : answer { maxFailures := 1 } (halfAWindowApart [])
        (at_ 60 (.checkThrottled "k") (by decide)) = .ok 0 := by decide
    cases zero.symm.trans answered
    exact absurd (positive.mpr (by decide)) (Int.lt_irrefl 0)
  · intro keeps
    have promised : answer { maxFailures := 1 } (halfAWindowApart [])
        (at_ 31 (.checkThrottled "k") (by decide)) = .ok 29 := by decide
    have kept := keeps (halfAWindowApart []) (at_ 31 (.checkThrottled "k") (by decide)) []
      (at_ 61 (.checkThrottled "k") (by decide)) [] "k" 29 rfl rfl rfl (by simp) promised
      (by decide) (by decide)
    have still : answer { maxFailures := 1 }
        (halfAWindowApart [] ++ at_ 31 (.checkThrottled "k") (by decide) :: [])
        (at_ 61 (.checkThrottled "k") (by decide)) = .ok 29 := by decide
    cases still.symm.trans kept

theorem fewKeys_halfAWindowApart (t : Nat) (early : t ≤ 1000) :
    FewKeys { maxFailures := 1 } (halfAWindowApart [at_ t (.checkThrottled "k") early]) :=
  ⟨["k"], by decide, by simp [halfAWindowApart, at_, Call.key]⟩

/-- The clock does not go back in it, and it is about one key. -/
theorem decides_and_keeps_iff_31 :
    (Decides { maxFailures := 1 } (halfAWindowApart [at_ 31 (.checkThrottled "k") (by decide)]) ∧
        KeepsPromise { maxFailures := 1 }
          (halfAWindowApart [at_ 31 (.checkThrottled "k") (by decide)])) ↔
      NoneAtTheEdge { maxFailures := 1 }
          (halfAWindowApart [at_ 31 (.checkThrottled "k") (by decide)]) ∧
        OldestDecides { maxFailures := 1 }
          (halfAWindowApart [at_ 31 (.checkThrottled "k") (by decide)]) :=
  decides_and_keeps_iff { maxFailures := 1 } _ (by simp [halfAWindowApart, at_])
    (fewKeys_halfAWindowApart 31 (by decide))

end RateLimiter

end Fulla
