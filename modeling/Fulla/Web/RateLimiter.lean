import Mathlib.Algebra.Group.Int.Defs
import Mathlib.Data.List.Nodup
import Mathlib.Data.List.TakeWhile
import Fulla.Conc.Checks

/-!
# The rate limiter

`RateLimiter.h`: a bucket of failure times for each key, oldest first, under a mutex, so that a
call is one step.  Times are readings of the steady clock in nanoseconds.

The buckets are in an `unordered_map`, which a sweep may go through in any order; `Iteration` is
that order.  A sweep reads the last failure of every bucket and has a loop that ends when enough
buckets are gone: `Stop` says how either could go wrong.

`memory_bounded`: neither does, and after every call the buckets are few and sorted, and whoever
was evicted with a failure in the window had failed no later than all who are left.
-/

namespace Fulla

open Conc

namespace RateLimiter

/-- The bounds of the limiter. -/
structure RateLimiterConfig where
  maxFailures : Nat := 30
  windowSeconds : Int := 60
  maxBuckets : Nat := 10000

/-- Nanoseconds of the steady clock. -/
abbrev TimePoint : Type :=
  Int

/-- `TimePoint::max`. -/
def timePointMax : TimePoint :=
  2 ^ 63 - 1

/-- The failures of a key, oldest first. -/
abbrev Bucket : Type :=
  List TimePoint

/-- The buckets by their keys. -/
abbrev Buckets : Type :=
  List (String × Bucket)

/-- Why a call does not come to its end. -/
inductive Stop where
  /-- `back()` of an empty bucket. -/
  | emptyBack
  /-- The loop has not come to its end. -/
  | unfinished
deriving DecidableEq, Repr

/-- In which order a sweep goes through the buckets. -/
structure Iteration where
  order : Buckets → Buckets
  perm : ∀ buckets, (order buckets).Perm buckets

section Calls

variable (cfg : RateLimiterConfig)

/-- The window in nanoseconds. -/
def RateLimiterConfig.window : Int :=
  cfg.windowSeconds * 1000000000

/-- The failures that are older than the window go. -/
def purgeOldLocked (now : TimePoint) (bucket : Bucket) : Bucket :=
  bucket.dropWhile (· < now - cfg.window)

/-- The latest failure of a bucket. -/
def back (bucket : Bucket) : Except Stop TimePoint :=
  orRefuse bucket.getLast? .emptyBack

/-- The search for a bucket whose last failure is before `victimLast`, and before all others. -/
def findVictim : Buckets → (victim : Option String) → (victimLast : TimePoint) →
    Except Stop (Option String)
  | [], victim, _ => .ok victim
  | (key, bucket) :: buckets, victim, victimLast => do
    let last ← back bucket
    if last < victimLast then findVictim buckets (some key) last
    else findVictim buckets victim victimLast

/-- A bucket goes. -/
def eraseKey (key : String) (buckets : Buckets) : Buckets :=
  buckets.filter fun b => b.1 ≠ key

/-- Cap enforcement, for so many rounds at most. -/
def evict : (rounds : Nat) → Buckets → Except Stop Buckets
  | rounds, buckets =>
    if buckets.length ≤ cfg.maxBuckets then .ok buckets
    else
      match rounds with
      | 0 => .error .unfinished
      | rounds + 1 => do
        let victim ← findVictim buckets none timePointMax
        match victim with
        | none => .ok buckets
        | some key => evict rounds (eraseKey key buckets)

/-- What the first loop of a sweep leaves. -/
def purgeAll (now : TimePoint) (buckets : Buckets) : Buckets :=
  (buckets.map fun b => (b.1, purgeOldLocked cfg now b.2)).filter fun b => !b.2.isEmpty

/-- What a sweep does when there are too many buckets. -/
def sweepLocked (it : Iteration) (now : TimePoint) (buckets : Buckets) : Except Stop Buckets :=
  let kept := purgeAll cfg now (it.order buckets)
  evict cfg kept.length kept

/-- `if (over) sweepLocked(now)`. -/
def sweepIf (over_ : Bool) (it : Iteration) (now : TimePoint) (buckets : Buckets) :
    Except Stop Buckets :=
  if over_ then sweepLocked cfg it now buckets else .ok buckets

/-- The bucket of `key` is changed, one that was not there is empty before. -/
def modify (key : String) (f : Bucket → Bucket) (buckets : Buckets) : Buckets :=
  if (buckets.lookup key).isSome then
    buckets.map fun b => if b.1 = key then (key, f b.2) else b
  else (key, f []) :: buckets

/-- `duration_cast<seconds>` rounds towards zero. -/
def retryAfter (now : TimePoint) : Option Bucket → Int
  | none => 0
  | some [] => 0
  | some (oldest :: bucket) =>
    if (oldest :: bucket).length ≥ cfg.maxFailures then
      let remaining := cfg.windowSeconds - (now - oldest).tdiv 1000000000
      if remaining ≤ 0 then 0 else remaining
    else 0

/-- `RateLimiter::checkThrottled`: the seconds to wait, 0 if there are none. -/
def checkThrottled (it : Iteration) (now : TimePoint) (key : String) (buckets : Buckets) :
    Except Stop (Int × Buckets) := do
  let inserted := (buckets.lookup key).isNone
  let buckets := modify key (purgeOldLocked cfg now) buckets
  let buckets ← sweepIf cfg (inserted && buckets.length > cfg.maxBuckets) it now buckets
  return (retryAfter cfg now (buckets.lookup key), buckets)

/-- A check sweeps, looks the bucket up and answers. -/
theorem checkThrottled_eq (it : Iteration) (now : TimePoint) (key : String) (buckets : Buckets) :
    checkThrottled cfg it now key buckets =
      sweepIf cfg ((buckets.lookup key).isNone &&
          (modify key (purgeOldLocked cfg now) buckets).length > cfg.maxBuckets) it now
        (modify key (purgeOldLocked cfg now) buckets) >>= fun left =>
          .ok (retryAfter cfg now (left.lookup key), left) :=
  rfl

/-- `RateLimiter::recordFailure`. -/
def recordFailure (it : Iteration) (now : TimePoint) (key : String) (buckets : Buckets) :
    Except Stop Buckets :=
  let buckets := modify key (fun bucket => purgeOldLocked cfg now bucket ++ [now]) buckets
  sweepIf cfg (buckets.length > cfg.maxBuckets) it now buckets

/-- `RateLimiter::recordSuccess`. -/
def recordSuccess (key : String) (buckets : Buckets) : Buckets :=
  eraseKey key buckets

end Calls

/-! ## Runs -/

/-- The calls of the limiter. -/
inductive Call where
  | checkThrottled (key : String)
  | recordFailure (key : String)
  | recordSuccess (key : String)
deriving DecidableEq

/-- The key of a call. -/
def Call.key : Call → String
  | checkThrottled key => key
  | recordFailure key => key
  | recordSuccess key => key

/-- A call, what it reads from the clock and how its sweep, if any, goes through the buckets. -/
structure Event where
  call : Call
  now : TimePoint
  now_lt : now < timePointMax
  it : Iteration

section Run

variable (cfg : RateLimiterConfig)

/-- The answer (of a check) and the buckets after the call. -/
def step (e : Event) (buckets : Buckets) : Except Stop (Int × Buckets) :=
  match e.call with
  | .checkThrottled key => checkThrottled cfg e.it e.now key buckets
  | .recordFailure key => do
    let buckets ← recordFailure cfg e.it e.now key buckets
    return (0, buckets)
  | .recordSuccess key => .ok (0, recordSuccess key buckets)

/-- A sequence of calls. -/
def run : List Event → Buckets → Except Stop Buckets
  | [], buckets => .ok buckets
  | e :: events, buckets => do
    let (_, buckets) ← step cfg e buckets
    run events buckets

end Run

/-! ## One sweep -/

section Sweep

variable {cfg : RateLimiterConfig} {now : TimePoint} {buckets : Buckets}

/-- The most recent failure of the one is no later than that of the other. -/
def NoLater (b b' : String × Bucket) : Prop :=
  ∀ last ∈ b.2.getLast?, ∀ last' ∈ b'.2.getLast?, last ≤ last'

/-- The victim is the bucket whose last failure is the oldest. -/
theorem findVictim_spec (full : ∀ b ∈ buckets, b.2 ≠ []) (victim : Option String)
    (victimLast : TimePoint) :
    ∃ found, findVictim buckets victim victimLast = .ok found ∧
      ((found = victim ∧ ∀ b ∈ buckets, ∀ last ∈ b.2.getLast?, victimLast ≤ last) ∨
        ∃ b ∈ buckets, found = some b.1 ∧ (∀ last ∈ b.2.getLast?, last < victimLast) ∧
          ∀ b' ∈ buckets, NoLater b b') := by
  induction buckets generalizing victim victimLast with
  | nil => exact ⟨victim, rfl, .inl ⟨rfl, by simp⟩⟩
  | cons b buckets ih =>
      obtain ⟨key, bucket⟩ := b
      have rest_full := fun b mem => full b (List.mem_cons_of_mem _ mem)
      obtain ⟨last, last_eq⟩ : ∃ last, bucket.getLast? = some last :=
        ⟨_, List.getLast?_eq_some_getLast (full _ List.mem_cons_self)⟩
      have read : findVictim ((key, bucket) :: buckets) victim victimLast =
          if last < victimLast then findVictim buckets (some key) last
          else findVictim buckets victim victimLast := by
        rw [findVictim, back, last_eq]
        rfl
      rw [read]
      split
      · next earlier =>
          obtain ⟨found, found_eq, least | ⟨b, mem, rfl, before, least⟩⟩ :=
            ih rest_full (some key) last
          · obtain ⟨rfl, least⟩ := least
            refine ⟨_, found_eq, .inr ⟨(key, bucket), List.mem_cons_self, rfl, ?_, ?_⟩⟩
            · intro l mem
              rw [last_eq] at mem
              cases mem
              exact earlier
            · intro b' mem l l_mem l' l_mem'
              rw [last_eq] at l_mem
              cases l_mem
              rcases List.mem_cons.mp mem with rfl | mem
              · rw [last_eq] at l_mem'
                cases l_mem'
                exact Int.le_refl _
              · exact least b' mem l' l_mem'
          · refine ⟨_, found_eq, .inr ⟨b, List.mem_cons_of_mem _ mem, rfl, ?_, ?_⟩⟩
            · intro l l_mem
              exact Int.lt_trans (before l l_mem) earlier
            · intro b' mem' l l_mem l' l_mem'
              rcases List.mem_cons.mp mem' with rfl | mem'
              · rw [last_eq] at l_mem'
                cases l_mem'
                exact Int.le_of_lt (before l l_mem)
              · exact least b' mem' l l_mem l' l_mem'
      · next later =>
          obtain ⟨found, found_eq, least | ⟨b, mem, rfl, before, least⟩⟩ :=
            ih rest_full victim victimLast
          · obtain ⟨rfl, least⟩ := least
            refine ⟨_, found_eq, .inl ⟨rfl, ?_⟩⟩
            intro b' mem l l_mem
            rcases List.mem_cons.mp mem with rfl | mem
            · rw [last_eq] at l_mem
              cases l_mem
              exact Int.not_lt.mp later
            · exact least b' mem l l_mem
          · refine ⟨_, found_eq, .inr ⟨b, List.mem_cons_of_mem _ mem, rfl, before, ?_⟩⟩
            intro b' mem' l l_mem l' l_mem'
            rcases List.mem_cons.mp mem' with rfl | mem'
            · rw [last_eq] at l_mem'
              cases l_mem'
              exact Int.le_trans (Int.le_of_lt (before l l_mem)) (Int.not_lt.mp later)
            · exact least b' mem' l l_mem l' l_mem'

theorem length_eraseKey_lt {b : String × Bucket} (mem : b ∈ buckets) :
    (eraseKey b.1 buckets).length < buckets.length :=
  List.length_filter_lt_length_iff_exists.mpr ⟨b, mem, by simp⟩

/-- The other buckets stay. -/
theorem mem_eraseKey {b b' : String × Bucket} (keys : (buckets.map Prod.fst).Nodup)
    (mem : b ∈ buckets) (mem' : b' ∈ buckets) : b' ∈ eraseKey b.1 buckets ∨ b' = b := by
  by_cases same : b'.1 = b.1
  · exact .inr (List.inj_on_of_nodup_map keys mem' mem same)
  · exact .inl (List.mem_filter.mpr ⟨mem', by simpa using same⟩)

/-- What a sweep leaves of full buckets. -/
structure Swept (cfg : RateLimiterConfig) (buckets left : Buckets) : Prop where
  sublist : left.Sublist buckets
  few : left.length ≤ cfg.maxBuckets
  least : ∀ b ∈ buckets, b ∉ left → ∀ b' ∈ left, NoLater b b'

/-- **An eviction ends below its bound**, with the least recent buckets gone. -/
theorem evict_spec {rounds : Nat} (enough : buckets.length ≤ rounds)
    (keys : (buckets.map Prod.fst).Nodup) (full : ∀ b ∈ buckets, b.2 ≠ [])
    (past : ∀ b ∈ buckets, ∀ t ∈ b.2, t < timePointMax) :
    ∃ left, evict cfg rounds buckets = .ok left ∧ Swept cfg buckets left := by
  induction rounds generalizing buckets with
  | zero =>
      refine ⟨buckets, ?_, List.Sublist.refl _, by omega, fun b mem out => absurd mem out⟩
      rw [evict, if_pos (by omega)]
  | succ rounds ih =>
      rw [evict]
      split
      · next few => exact ⟨buckets, rfl, List.Sublist.refl _, few, fun b mem out => absurd mem out⟩
      · next many =>
          obtain ⟨found, found_eq, none_ | ⟨b, mem, rfl, -, least⟩⟩ :=
            findVictim_spec full none timePointMax
          · -- every failure is before the end of time
            obtain ⟨b, mem⟩ := List.exists_mem_of_ne_nil buckets (by rintro rfl; simp at many)
            have last_mem := List.getLast?_eq_some_getLast (full b mem)
            have before := past b mem _ (List.getLast_mem (full b mem))
            exact absurd before (Int.not_lt.mpr (none_.2 b mem _ last_mem))
          · have shorter := length_eraseKey_lt mem
            have sub : (eraseKey b.1 buckets).Sublist buckets := List.filter_sublist
            obtain ⟨left, left_eq, swept⟩ := @ih (eraseKey b.1 buckets) (by omega)
              (keys.sublist (sub.map Prod.fst)) (fun b' mem' => full b' (sub.subset mem'))
              (fun b' mem' => past b' (sub.subset mem'))
            refine ⟨left, ?_, swept.sublist.trans sub, swept.few, ?_⟩
            · rw [found_eq]
              exact left_eq
            · intro b₁ mem₁ out b₂ mem₂
              rcases mem_eraseKey keys mem mem₁ with kept | rfl
              · exact swept.least b₁ kept out b₂ mem₂
              · exact least b₂ (sub.subset (swept.sublist.subset mem₂))

/-- A recent failure stays. -/
theorem mem_purgeOldLocked {bucket : Bucket} {t : TimePoint} (mem : t ∈ bucket)
    (recent : now - cfg.window ≤ t) : t ∈ purgeOldLocked cfg now bucket := by
  have whole := List.takeWhile_append_dropWhile (p := (· < now - cfg.window)) (l := bucket)
  rw [← whole] at mem
  rcases List.mem_append.mp mem with dropped | kept
  · have old := List.mem_takeWhile_imp dropped
    exact absurd (of_decide_eq_true old) (Int.not_lt.mpr recent)
  · exact kept

/-- The last failure of a bucket stays if any does. -/
theorem getLast?_purgeOldLocked {bucket : Bucket} (some_ : purgeOldLocked cfg now bucket ≠ []) :
    (purgeOldLocked cfg now bucket).getLast? = bucket.getLast? := by
  obtain ⟨dropped, whole⟩ := List.dropWhile_suffix (l := bucket) (· < now - cfg.window)
  conv_rhs => rw [← whole]
  exact (List.getLast?_append_of_ne_nil dropped some_).symm

/-- The buckets that are left. -/
theorem mem_purgeAll {b : String × Bucket} :
    b ∈ purgeAll cfg now buckets ↔
      b.2 ≠ [] ∧ ∃ bucket, (b.1, bucket) ∈ buckets ∧ b.2 = purgeOldLocked cfg now bucket := by
  rw [purgeAll, List.mem_filter, List.mem_map]
  constructor
  · rintro ⟨⟨⟨key, bucket⟩, mem, rfl⟩, some_⟩
    exact ⟨by simpa using some_, bucket, mem, rfl⟩
  · rintro ⟨some_, bucket, mem, same⟩
    exact ⟨⟨(b.1, bucket), mem, Prod.ext rfl same.symm⟩, by simpa using some_⟩

/-- What the buckets are at a time. -/
structure Kept (now : TimePoint) (buckets : Buckets) : Prop where
  keys : (buckets.map Prod.fst).Nodup
  sorted : ∀ b ∈ buckets, b.2.Pairwise (· ≤ ·)
  past : ∀ b ∈ buckets, ∀ t ∈ b.2, t ≤ now

/-- A bucket with a failure in the window is gone only if all that are left failed no earlier. -/
def EvictedLeast (cfg : RateLimiterConfig) (now : TimePoint) (buckets left : Buckets) : Prop :=
  ∀ b ∈ buckets, (∃ t ∈ b.2, now - cfg.window ≤ t) → b.1 ∉ left.map Prod.fst →
    ∀ b' ∈ left, NoLater b b'

/-- **A sweep ends**, and what it leaves. -/
theorem sweepLocked_spec (it : Iteration) (kept : Kept now buckets) (now_lt : now < timePointMax) :
    ∃ left, sweepLocked cfg it now buckets = .ok left ∧ Kept now left ∧
      left.length ≤ cfg.maxBuckets ∧ EvictedLeast cfg now buckets left := by
  have perm := it.perm buckets
  have keys : ((purgeAll cfg now (it.order buckets)).map Prod.fst).Nodup := by
    refine List.Nodup.sublist (List.Sublist.map Prod.fst List.filter_sublist) ?_
    rw [List.map_map]
    exact (perm.map Prod.fst).nodup_iff.mpr kept.keys
  have origin {b : String × Bucket} (mem : b ∈ purgeAll cfg now (it.order buckets)) :
      ∃ bucket, (b.1, bucket) ∈ buckets ∧ b.2.Sublist bucket := by
    obtain ⟨-, bucket, there, same⟩ := mem_purgeAll.mp mem
    exact ⟨bucket, perm.mem_iff.mp there, same ▸ (List.dropWhile_suffix _).sublist⟩
  have past : ∀ b ∈ purgeAll cfg now (it.order buckets), ∀ t ∈ b.2, t ≤ now := by
    intro b mem t t_mem
    obtain ⟨bucket, there, sub⟩ := origin mem
    exact kept.past _ there t (sub.subset t_mem)
  obtain ⟨left, left_eq, swept⟩ :=
    @evict_spec cfg _ _ (Nat.le_refl _) keys (fun b mem => (mem_purgeAll.mp mem).1)
      (fun b mem t t_mem => Int.lt_of_le_of_lt (past b mem t t_mem) now_lt)
  refine ⟨left, left_eq, ⟨keys.sublist (swept.sublist.map Prod.fst), ?_, ?_⟩, swept.few, ?_⟩
  · intro b mem
    obtain ⟨bucket, there, sub⟩ := origin (swept.sublist.subset mem)
    exact (kept.sorted _ there).sublist sub
  · intro b mem
    exact past b (swept.sublist.subset mem)
  · rintro ⟨key, bucket⟩ mem ⟨t, t_mem, recent⟩ out b' mem'
    have survived := List.ne_nil_of_mem (mem_purgeOldLocked t_mem recent)
    have there : (key, purgeOldLocked cfg now bucket) ∈ purgeAll cfg now (it.order buckets) :=
      mem_purgeAll.mpr ⟨survived, bucket, perm.mem_iff.mpr mem, rfl⟩
    have least := swept.least _ there (fun in_ => out (List.mem_map.mpr ⟨_, in_, rfl⟩)) b' mem'
    unfold NoLater at least ⊢
    rwa [getLast?_purgeOldLocked survived] at least

end Sweep

/-! ## Every call -/

section Steps

variable {cfg : RateLimiterConfig} {now : TimePoint} {buckets : Buckets}

/-- The invariant at a later time. -/
theorem Kept.mono {later : TimePoint} (kept : Kept now buckets) (le : now ≤ later) :
    Kept later buckets :=
  ⟨kept.keys, kept.sorted, fun b mem t t_mem => Int.le_trans (kept.past b mem t t_mem) le⟩

theorem lookup_isSome_iff {key : String} :
    (buckets.lookup key).isSome = true ↔ key ∈ buckets.map Prod.fst := by
  induction buckets with
  | nil => simp
  | cons b buckets ih =>
      rw [List.lookup_cons, List.map_cons, List.mem_cons]
      by_cases same : key = b.1
      · simp [same]
      · have other : (key == b.1) = false := beq_false_of_ne same
        rw [other]
        simp [ih, same]

/-- A bucket after a change is one before it, or the changed one. -/
theorem mem_modify {key : String} {f : Bucket → Bucket} {b : String × Bucket}
    (mem : b ∈ modify key f buckets) :
    b ∈ buckets ∨ b = (key, f []) ∨ ∃ bucket, (key, bucket) ∈ buckets ∧ b = (key, f bucket) := by
  unfold modify at mem
  split at mem
  · obtain ⟨⟨key', bucket⟩, there, rfl⟩ := List.mem_map.mp mem
    by_cases same : key' = key
    · subst same
      exact .inr (.inr ⟨bucket, there, if_pos rfl⟩)
    · exact .inl ((if_neg same : (if key' = key then (key, f bucket) else (key', bucket)) =
        (key', bucket)).symm ▸ there)
  · rcases List.mem_cons.mp mem with rfl | there
    · exact .inr (.inl rfl)
    · exact .inl there

theorem keys_modify {key : String} {f : Bucket → Bucket}
    (keys : (buckets.map Prod.fst).Nodup) : ((modify key f buckets).map Prod.fst).Nodup := by
  unfold modify
  split
  · have same : (buckets.map fun b => if b.1 = key then (key, f b.2) else b).map Prod.fst =
        buckets.map Prod.fst := by
      rw [List.map_map]
      refine List.map_congr_left fun b _ => ?_
      simp only [Function.comp]
      split
      · next same => exact same.symm
      · rfl
    rwa [same]
  · next absent =>
      rw [lookup_isSome_iff] at absent
      exact List.nodup_cons.mpr ⟨absent, keys⟩

/-- The invariant after a bucket is changed. -/
theorem Kept.modify {key : String} {f : Bucket → Bucket} (kept : Kept now buckets)
    (sorted : ∀ bucket : Bucket, bucket.Pairwise (· ≤ ·) → (∀ t ∈ bucket, t ≤ now) →
      (f bucket).Pairwise (· ≤ ·) ∧ ∀ t ∈ f bucket, t ≤ now) :
    Kept now (modify key f buckets) := by
  refine ⟨keys_modify kept.keys, ?_, ?_⟩
  · intro b mem
    rcases mem_modify mem with there | rfl | ⟨bucket, there, rfl⟩
    · exact kept.sorted b there
    · exact (sorted [] List.Pairwise.nil (by simp)).1
    · exact (sorted bucket (kept.sorted _ there) (kept.past _ there)).1
  · intro b mem
    rcases mem_modify mem with there | rfl | ⟨bucket, there, rfl⟩
    · exact kept.past b there
    · exact (sorted [] List.Pairwise.nil (by simp)).2
    · exact (sorted bucket (kept.sorted _ there) (kept.past _ there)).2

/-- A bucket stays sorted. -/
theorem sorted_purgeOldLocked {bucket : Bucket} (sorted : bucket.Pairwise (· ≤ ·))
    (past : ∀ t ∈ bucket, t ≤ now) :
    (purgeOldLocked cfg now bucket).Pairwise (· ≤ ·) ∧
      ∀ t ∈ purgeOldLocked cfg now bucket, t ≤ now := by
  have sub : (purgeOldLocked cfg now bucket).Sublist bucket := (List.dropWhile_suffix _).sublist
  exact ⟨sorted.sublist sub, fun t mem => past t (sub.subset mem)⟩

theorem sorted_concat {bucket : Bucket}
    (sorted : bucket.Pairwise (· ≤ ·) ∧ ∀ t ∈ bucket, t ≤ now) :
    (bucket ++ [now]).Pairwise (· ≤ ·) ∧ ∀ t ∈ bucket ++ [now], t ≤ now := by
  refine ⟨List.pairwise_append.mpr ⟨sorted.1, List.pairwise_singleton _ _, ?_⟩, ?_⟩
  · intro t mem t' mem'
    rw [List.mem_singleton.mp mem']
    exact sorted.2 t mem
  · intro t mem
    rcases List.mem_append.mp mem with before | last
    · exact sorted.2 t before
    · exact Int.le_of_eq (List.mem_singleton.mp last)

/-- The buckets with the call's own change, before a sweep. -/
def touched (cfg : RateLimiterConfig) (e : Event) (buckets : Buckets) : Buckets :=
  match e.call with
  | .checkThrottled key => modify key (purgeOldLocked cfg e.now) buckets
  | .recordFailure key =>
    modify key (fun bucket => purgeOldLocked cfg e.now bucket ++ [e.now]) buckets
  | .recordSuccess key => recordSuccess key buckets

/-- The invariant after a call has touched its bucket. -/
theorem Kept.touched {e : Event} (kept : Kept now buckets) (le : now ≤ e.now) :
    Kept e.now (touched cfg e buckets) := by
  have later := kept.mono le
  unfold RateLimiter.touched
  cases e.call with
  | checkThrottled key => exact later.modify fun bucket => sorted_purgeOldLocked
  | recordFailure key =>
      exact later.modify fun bucket sorted past => sorted_concat (sorted_purgeOldLocked sorted past)
  | recordSuccess key =>
      have sub : (recordSuccess key buckets).Sublist buckets := List.filter_sublist
      exact ⟨later.keys.sublist (sub.map Prod.fst), fun b mem => later.sorted b (sub.subset mem),
        fun b mem => later.past b (sub.subset mem)⟩

theorem evictedLeast_self : EvictedLeast cfg now buckets buckets := by
  intro b mem _ out
  exact absurd (List.mem_map.mpr ⟨b, mem, rfl⟩) out

/-- The end of a call that sweeps, or need not. -/
theorem sweepIf_spec {over_ : Bool} (it : Iteration) (kept : Kept now buckets)
    (now_lt : now < timePointMax) (small : over_ = false → buckets.length ≤ cfg.maxBuckets) :
    ∃ left, sweepIf cfg over_ it now buckets = .ok left ∧ Kept now left ∧
      left.length ≤ cfg.maxBuckets ∧ EvictedLeast cfg now buckets left := by
  cases over_ with
  | true => exact sweepLocked_spec it kept now_lt
  | false => exact ⟨buckets, rfl, kept, small rfl, evictedLeast_self⟩

theorem length_modify_of_isSome {key : String} {f : Bucket → Bucket}
    (there : (buckets.lookup key).isSome = true) :
    (modify key f buckets).length = buckets.length := by
  rw [modify, if_pos there, List.length_map]

/-- A call ends, and sweeps if there are too many buckets. -/
theorem step_spec {e : Event} (kept : Kept now buckets) (le : now ≤ e.now)
    (few : buckets.length ≤ cfg.maxBuckets) :
    ∃ answer left, step cfg e buckets = .ok (answer, left) ∧ Kept e.now left ∧
      left.length ≤ cfg.maxBuckets ∧ EvictedLeast cfg e.now (touched cfg e buckets) left := by
  have after := @Kept.touched cfg _ _ e kept le
  obtain ⟨call, t, t_lt, it⟩ := e
  cases call with
  | checkThrottled key =>
      have small : ((buckets.lookup key).isNone &&
          decide ((modify key (purgeOldLocked cfg t) buckets).length > cfg.maxBuckets)) = false →
            (modify key (purgeOldLocked cfg t) buckets).length ≤ cfg.maxBuckets := by
        intro stays
        cases found : (buckets.lookup key).isNone with
        | true =>
            rw [found, Bool.true_and, decide_eq_false_iff_not] at stays
            exact Nat.not_lt.mp stays
        | false =>
            rw [length_modify_of_isSome (by simpa using found)]
            exact few
      obtain ⟨left, left_eq, rest⟩ := sweepIf_spec it after t_lt small
      refine ⟨retryAfter cfg t (left.lookup key), left, ?_, rest⟩
      change checkThrottled cfg it t key buckets = _
      rw [checkThrottled_eq, bind_eq_ok]
      exact ⟨left, left_eq, rfl⟩
  | recordFailure key =>
      obtain ⟨left, left_eq, rest⟩ := sweepIf_spec it after t_lt fun stays =>
        Nat.not_lt.mp (decide_eq_false_iff_not.mp stays)
      refine ⟨0, left, ?_, rest⟩
      change recordFailure cfg it t key buckets >>= _ = _
      rw [bind_eq_ok]
      exact ⟨left, left_eq, rfl⟩
  | recordSuccess key =>
      refine ⟨0, recordSuccess key buckets, rfl, after, ?_, evictedLeast_self⟩
      exact (List.length_filter_le _ _).trans few

/-- **A run ends**, with the invariant kept. -/
theorem run_spec {events : List Event} {later : TimePoint} (kept : Kept now buckets)
    (clock : events.Pairwise fun e e' => e.now ≤ e'.now) (le : ∀ e ∈ events, now ≤ e.now)
    (le_later : now ≤ later) (before : ∀ e ∈ events, e.now ≤ later)
    (few : buckets.length ≤ cfg.maxBuckets) :
    ∃ left, run cfg events buckets = .ok left ∧ Kept later left ∧
      left.length ≤ cfg.maxBuckets := by
  induction events generalizing now buckets with
  | nil => exact ⟨buckets, rfl, kept.mono le_later, few⟩
  | cons e events ih =>
      rw [List.pairwise_cons] at clock
      obtain ⟨answer, left, left_eq, left_kept, left_few, -⟩ :=
        step_spec kept (le e List.mem_cons_self) few
      obtain ⟨final, final_eq, rest⟩ := ih left_kept clock.2 clock.1
        (before e List.mem_cons_self) (fun e' mem => before e' (List.mem_cons_of_mem e mem))
        left_few
      refine ⟨final, ?_, rest⟩
      rw [run, left_eq]
      exact final_eq

end Steps

theorem kept_nil (now : TimePoint) : Kept now [] :=
  ⟨List.nodup_nil, by simp, by simp⟩

/-- From the beginning to any later time. -/
theorem run_nil {cfg : RateLimiterConfig} {events : List Event} {later : TimePoint}
    (clock : events.Pairwise fun e e' => e.now ≤ e'.now) (before : ∀ e ∈ events, e.now ≤ later) :
    ∃ left, run cfg events [] = .ok left ∧ Kept later left ∧ left.length ≤ cfg.maxBuckets := by
  cases events with
  | nil => exact ⟨[], rfl, kept_nil later, Nat.zero_le _⟩
  | cons e events =>
      have first : ∀ e' ∈ e :: events, e.now ≤ e'.now := by
        intro e' mem
        rcases List.mem_cons.mp mem with rfl | mem
        · exact Int.le_refl _
        · exact (List.pairwise_cons.mp clock).1 e' mem
      exact run_spec (kept_nil e.now) clock first (before e List.mem_cons_self) before
        (Nat.zero_le _)

/-- After any calls whose clock does not go back, the next call ends without reading an empty
bucket, at most `maxBuckets` buckets are stored, all sorted, and one with a failure in the window
is gone from those of the call only if every one that is left failed no earlier. -/
theorem memory_bounded (cfg : RateLimiterConfig) (events : List Event) (e : Event)
    (clock : (events ++ [e]).Pairwise fun e e' => e.now ≤ e'.now) :
    ∃ buckets answer left, run cfg events [] = .ok buckets ∧
      step cfg e buckets = .ok (answer, left) ∧ left.length ≤ cfg.maxBuckets ∧
      (∀ b ∈ left, b.2.Pairwise (· ≤ ·)) ∧
      EvictedLeast cfg e.now (touched cfg e buckets) left := by
  obtain ⟨earlier, -, before⟩ := List.pairwise_append.mp clock
  obtain ⟨buckets, run_eq, kept, few⟩ := @run_nil cfg _ _ earlier fun e' mem =>
    before e' mem e (List.mem_singleton.mpr rfl)
  obtain ⟨answer, left, left_eq, left_kept, left_few, least⟩ :=
    step_spec kept (Int.le_refl e.now) few
  exact ⟨buckets, answer, left, run_eq, left_eq, left_few, left_kept.sorted, least⟩

/-- The buckets in the order in which they are stored. -/
def storedOrder : Iteration :=
  ⟨id, fun _ => List.Perm.refl _⟩

/-- With room for one bucket, the second failure evicts the first. -/
theorem memory_bounded_one :
    ∃ buckets answer left,
      run { maxBuckets := 1 } [⟨.recordFailure "a", 1, by decide, storedOrder⟩] [] = .ok buckets ∧
        step { maxBuckets := 1 } ⟨.recordFailure "b", 2, by decide, storedOrder⟩ buckets =
          .ok (answer, left) ∧ left.length ≤ 1 := by
  obtain ⟨buckets, answer, left, run_eq, left_eq, few, -⟩ :=
    memory_bounded { maxBuckets := 1 } [⟨.recordFailure "a", 1, by decide, storedOrder⟩]
      ⟨.recordFailure "b", 2, by decide, storedOrder⟩ (by simp)
  exact ⟨buckets, answer, left, run_eq, left_eq, few⟩

end RateLimiter

end Fulla
