import Fulla.Conc.Tasks

/-!
# The Redis server of the caches

The cache decorators talk to one Redis server and to the repository they wrap, and
wait for neither more than they have to.  `CacheSig` is the signature of what they
do: commands to the server, operations of the wrapped repository, the clock, the
timers of the event loop, and the callback of the caller.

A command either is executed and answered or is answered by an error and does
nothing.  Between two steps any time may pass and the wrapped repository may be
changed by others.
-/

namespace Fulla

open Conc

/-- A value and the time from which on it is gone, in milliseconds. -/
structure CacheEntry where
  value : String
  expireAt : Nat
deriving DecidableEq, Repr

/-- The keys of the server; an entry whose time is up is still here but is not found. -/
abbrev CacheKeys := String → Option CacheEntry

namespace CacheKeys

variable (keys : CacheKeys)

/-- What a `GET` finds: the value of an entry that has not expired. -/
def find? (now : Nat) (key : String) : Option String :=
  ((keys key).filter fun e => now ≤ e.expireAt).map CacheEntry.value

/-- What an `EXISTS` answers. -/
def alive (now : Nat) (key : String) : Bool :=
  (keys.find? now key).isSome

/-- Of the commands that are passed as a text only `GET` of one key is answered. -/
def answer (now : Nat) : List String → Option (Option String)
  | ["GET", key] => some (keys.find? now key)
  | _ => none

/-- `SET` with an expiry. -/
def set (key : String) (entry : CacheEntry) : CacheKeys :=
  Function.update keys key (some entry)

/-- `DEL`. -/
def del (key : String) : CacheKeys :=
  Function.update keys key none

variable {keys}

theorem find?_eq_some {now : Nat} {key value : String} :
    keys.find? now key = some value ↔
      ∃ e, keys key = some e ∧ now ≤ e.expireAt ∧ e.value = value := by
  simp [find?, Option.filter_eq_some_iff, and_assoc]

theorem alive_eq_true {now : Nat} {key : String} :
    keys.alive now key = true ↔ ∃ e, keys key = some e ∧ now ≤ e.expireAt := by
  unfold alive
  rw [Option.isSome_iff_exists]
  constructor
  · intro found
    obtain ⟨value, found⟩ := found
    obtain ⟨e, stored, late, -⟩ := find?_eq_some.mp found
    exact ⟨e, stored, late⟩
  · intro found
    obtain ⟨e, stored, late⟩ := found
    exact ⟨e.value, find?_eq_some.mpr ⟨e, stored, late, rfl⟩⟩

end CacheKeys

/-- The three answers of `kRevokedThenGetScript`, as `decodeRevokedThenGet` tells them
apart. -/
inductive RevokedThenGet where
  | revoked
  | value (v : String)
  | miss
deriving DecidableEq, Repr

/-- The commands of the cache decorators. -/
inductive RedisCommand where
  /-- `EVAL` of the script that looks for the first key and then reads the second. -/
  | revokedThenGet (revokedKey key : String)
  /-- A command that was passed as one text, by the words the client library sees in it. -/
  | words (ws : List String)
  /-- `SET key value EX ttl`. -/
  | set (key value : String) (ttl : Nat)
  | exists_ (key : String)
  /-- `DEL key`; the flag tells the delayed one from the first for the log only. -/
  | del (key : String) (delayed : Bool)

namespace RedisCommand

/-- `none`, or `false`, is the callback with a `RedisException`. -/
abbrev Res : RedisCommand → Type
  | revokedThenGet _ _ => Option RevokedThenGet
  | words _ => Option (Option String)
  | set _ _ _ => Bool
  | exists_ _ => Option Bool
  | del _ _ => Bool

/-- What the error callback gets. -/
def failure : (c : RedisCommand) → c.Res
  | revokedThenGet _ _ => none
  | words _ => none
  | set _ _ _ => false
  | exists_ _ => none
  | del _ _ => false

/-- What a command does on the server. -/
def exec (now : Nat) : (c : RedisCommand) → CacheKeys → c.Res × CacheKeys
  | revokedThenGet revokedKey key, keys =>
    (some (if keys.alive now revokedKey then .revoked
      else match keys.find? now key with
        | some v => .value v
        | none => .miss), keys)
  | words ws, keys => (keys.answer now ws, keys)
  | set key value ttl, keys => (true, keys.set key { value := value, expireAt := now + ttl * 1000 })
  | exists_ key, keys => (some (keys.alive now key), keys)
  | del key _, keys => (true, keys.del key)

end RedisCommand

/-- What a decorator over a repository with the operations `I` does. -/
inductive CacheOp (I : Sig) (Answer : Type) where
  | redis (c : RedisCommand)
  | impl (o : I.Op)
  /-- `std::time(nullptr)`. -/
  | time
  /-- The clock of the event loop. -/
  | loopTime
  /-- A timer that is due at the given time. -/
  | timer (due : Nat)
  /-- The callback of a call that began after the given number of steps. -/
  | callback (since : Nat) (a : Answer)

/-- The operations of a decorator: commands, the wrapped repository, the clocks, a timer and the
callback. -/
abbrev CacheSig (I : Sig) (Answer : Type) : Sig where
  Op := CacheOp I Answer
  Res
    | .redis c => c.Res
    | .impl o => I.Res o
    | .time => Int
    | .loopTime => Nat
    | .timer _ => Unit
    | .callback _ _ => Unit

/-- The server, the clock and the state of what is wrapped. -/
structure CacheState (W : Type) where
  /-- Milliseconds. -/
  clock : Nat := 0
  keys : CacheKeys := fun _ => none
  wrapped : W

/-- What one step finds around it. -/
structure CacheMoment (X : Type) where
  /-- The time that has passed since the last step. -/
  elapsed : Nat := 0
  /-- `std::time(nullptr)`. -/
  time : Int := 0
  /-- The server answers the command with an error and does nothing. -/
  refused : Bool := false
  /-- What decides the answers of the wrapped repository. -/
  around : X

/-- The wrapped repository: its operations, and what others do to it before a step. -/
structure Wrapped (I : Sig) (W X : Type) where
  exec : X → Handler I W
  meanwhile : X → W → W := fun _ w => w

section Exec

variable {I : Sig} {Answer W X : Type}

/-- The state when the step begins. -/
def CacheState.pass (impl : Wrapped I W X) (m : CacheMoment X) (s : CacheState W) : CacheState W :=
  { s with clock := s.clock + m.elapsed, wrapped := impl.meanwhile m.around s.wrapped }

/-- What an operation does and answers; `none` if it cannot happen now. -/
def execCache (impl : Wrapped I W X) (m : CacheMoment X) :
    (o : CacheOp I Answer) → CacheState W →
      Option ((CacheSig I Answer).Res o × CacheState W)
  | .redis c, s =>
    let s := s.pass impl m
    if m.refused then some (c.failure, s)
    else some ((c.exec s.clock s.keys).1, { s with keys := (c.exec s.clock s.keys).2 })
  | .impl o, s =>
    let s := s.pass impl m
    some ((impl.exec m.around o s.wrapped).1,
      { s with wrapped := (impl.exec m.around o s.wrapped).2 })
  | .time, s => some (m.time, s.pass impl m)
  | .loopTime, s => some (s.clock + m.elapsed, s.pass impl m)
  | .timer due, s => if s.clock + m.elapsed < due then none else some ((), s.pass impl m)
  | .callback _ _, s => some ((), s.pass impl m)

variable {impl : Wrapped I W X} {m : CacheMoment X} {s s' : CacheState W}

@[simp]
theorem CacheState.pass_keys : (s.pass impl m).keys = s.keys :=
  rfl

@[simp]
theorem CacheState.pass_clock : (s.pass impl m).clock = s.clock + m.elapsed :=
  rfl

@[simp]
theorem CacheState.pass_wrapped :
    (s.pass impl m).wrapped = impl.meanwhile m.around s.wrapped :=
  rfl

/-- A command is refused or executed. -/
theorem execCache_redis {c : RedisCommand} {r : c.Res}
    (stepped : execCache impl m (.redis c : CacheOp I Answer) s = some (r, s')) :
    r = c.failure ∧ s' = s.pass impl m ∨
      r = (c.exec s'.clock s.keys).1 ∧
        s' = { s.pass impl m with keys := (c.exec s'.clock s.keys).2 } := by
  simp only [execCache] at stepped
  split at stepped
  · cases stepped
    exact .inl ⟨rfl, rfl⟩
  · cases stepped
    exact .inr ⟨rfl, rfl⟩

theorem execCache_impl {o : I.Op} {r : I.Res o}
    (stepped : execCache impl m (.impl o : CacheOp I Answer) s = some (r, s')) :
    r = (impl.exec m.around o (impl.meanwhile m.around s.wrapped)).1 ∧
      s' = { s.pass impl m with
        wrapped := (impl.exec m.around o (impl.meanwhile m.around s.wrapped)).2 } := by
  cases stepped
  exact ⟨rfl, rfl⟩

/-- Neither a command nor an operation of the wrapped repository. -/
def CacheOp.Local : CacheOp I Answer → Prop
  | .redis _ => False
  | .impl _ => False
  | _ => True

theorem execCache_local {o : CacheOp I Answer} {r : (CacheSig I Answer).Res o} (isLocal : o.Local)
    (stepped : execCache impl m o s = some (r, s')) : s' = s.pass impl m := by
  cases o with
  | redis c => exact isLocal.elim
  | impl o => exact isLocal.elim
  | timer due =>
      simp only [execCache] at stepped
      split at stepped
      · cases stepped
      · cases stepped
        rfl
  | time =>
      cases stepped
      rfl
  | loopTime =>
      cases stepped
      rfl
  | callback since a =>
      cases stepped
      rfl

theorem execCache_clock {o : CacheOp I Answer} {r : (CacheSig I Answer).Res o}
    (stepped : execCache impl m o s = some (r, s')) : s'.clock = s.clock + m.elapsed := by
  cases o with
  | redis c =>
      rcases execCache_redis stepped with ⟨-, after⟩ | ⟨-, after⟩ <;> rw [after] <;> rfl
  | impl o =>
      rw [(execCache_impl stepped).2]
      rfl
  | _ =>
      rw [execCache_local (by trivial) stepped]
      rfl

/-- All that a step can do to a key: keep it, set it or delete it. -/
theorem execCache_key {o : CacheOp I Answer} {r : (CacheSig I Answer).Res o}
    (stepped : execCache impl m o s = some (r, s')) (key : String) :
    s'.keys key = s.keys key ∨
      (∃ value ttl,
        (⟨o, r, s, s'⟩ : TaskEvent (CacheSig I Answer) (CacheState W)) =
            ⟨.redis (.set key value ttl), true, s, s'⟩ ∧
          s'.keys key = some { value := value, expireAt := s'.clock + ttl * 1000 }) ∨
      ∃ delayed,
        (⟨o, r, s, s'⟩ : TaskEvent (CacheSig I Answer) (CacheState W)) =
            ⟨.redis (.del key delayed), true, s, s'⟩ ∧ s'.keys key = none := by
  cases o with
  | redis c =>
      rcases execCache_redis stepped with ⟨-, after⟩ | ⟨answer, after⟩
      · rw [after]
        exact .inl rfl
      · have keys : s'.keys = (c.exec s'.clock s.keys).2 := congrArg CacheState.keys after
        rw [keys, answer]
        cases c with
        | set key' value ttl =>
            by_cases eq : key = key'
            · subst eq
              exact .inr (.inl ⟨value, ttl, rfl, Function.update_self ..⟩)
            · exact .inl (Function.update_of_ne eq _ _)
        | del key' delayed =>
            by_cases eq : key = key'
            · subst eq
              exact .inr (.inr ⟨delayed, rfl, Function.update_self ..⟩)
            · exact .inl (Function.update_of_ne eq _ _)
        | revokedThenGet revokedKey key' => exact .inl rfl
        | exists_ key' => exact .inl rfl
        | words ws => exact .inl rfl
  | impl o =>
      rw [(execCache_impl stepped).2]
      exact .inl rfl
  | _ =>
      rw [execCache_local (by trivial) stepped]
      exact .inl rfl

/-- What the wrapped repository and everybody else keep, a step keeps. -/
theorem execCache_wrapped {P : W → Prop} {o : CacheOp I Answer} {r : (CacheSig I Answer).Res o}
    (stepped : execCache impl m o s = some (r, s'))
    (meanwhile : ∀ w, P w → P (impl.meanwhile m.around w))
    (exec : ∀ i, o = .impl i → ∀ w, P w → P (impl.exec m.around i w).2) (holds : P s.wrapped) :
    P s'.wrapped := by
  cases o with
  | redis c =>
      rcases execCache_redis stepped with ⟨-, after⟩ | ⟨-, after⟩ <;> rw [after] <;>
        exact meanwhile _ holds
  | impl i =>
      rw [(execCache_impl stepped).2]
      exact exec i rfl _ (meanwhile _ holds)
  | _ =>
      rw [execCache_local (by trivial) stepped]
      exact meanwhile _ holds

end Exec

/-! ## Invalidation -/

/-- Milliseconds from the first `DEL` to the second, unless configured. -/
def kDefaultDoubleDeleteDelayMs : Int :=
  200

section DoubleDelete

variable {I : Sig} {Answer : Type}

/-- One `DEL`, and one retry at once if it fails. -/
def attemptDel (key : String) (delayed : Bool) : Async (CacheSig I Answer) :=
  .op (.redis (.del key delayed)) fun ok =>
    if ok then .done else .op (.redis (.del key delayed)) fun _ => .done

/-- A delay that is not positive is the default, any other is clamped to [50, 2000]. -/
def doubleDeleteDelay (delayMs : Int) : Nat :=
  (if delayMs ≤ 0 then kDefaultDoubleDeleteDelayMs else max 50 (min delayMs 2000)).toNat

/-- `DEL` now and once more after the delay, without waiting for either. -/
def invalidateWithDoubleDelete (now : Nat) (key : String) (delayMs : Int)
    (next : Async (CacheSig I Answer)) : Async (CacheSig I Answer) :=
  if key = "" then next
  else
    .fork (attemptDel key false)
      (.fork (.op (.timer (now + doubleDeleteDelay delayMs)) fun _ => attemptDel key true) next)

variable {P : (CacheSig I Answer).Op → Prop}

theorem attemptDel_only {key : String} {delayed : Bool} (del : P (.redis (.del key delayed))) :
    (attemptDel key delayed).Only P := by
  refine ⟨del, fun ok => ?_⟩
  dsimp only
  split
  · trivial
  · exact ⟨del, fun _ => trivial⟩

theorem invalidateWithDoubleDelete_only {now : Nat} {key : String} {delayMs : Int}
    {next : Async (CacheSig I Answer)} (del : ∀ delayed, P (.redis (.del key delayed)))
    (timer : ∀ due, P (.timer due)) (rest : next.Only P) :
    (invalidateWithDoubleDelete now key delayMs next).Only P := by
  unfold invalidateWithDoubleDelete
  split
  · exact rest
  · exact ⟨attemptDel_only (del false), ⟨timer _, fun _ => attemptDel_only (del true)⟩, rest⟩

end DoubleDelete

end Fulla
