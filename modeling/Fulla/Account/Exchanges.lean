import Fulla.Account.Services

/-!
# One call and its answers

A call runs by itself against the tables, for every pattern of failing statements; what it
answers is kept in order.
-/

namespace Fulla

namespace Account

open Conc UserAdminService

/-- The tables and what has been answered so far. -/
structure Exchange where
  db : AccountDb
  answers : List AccountAnswer := []

/-- What every statement of a call meets: which fail, and which insert completes next. -/
abbrev Pattern := AccountOp → AccountMoment

/-- A step that is also noted. -/
def exchange (π : Pattern) : Handler AccountSig Exchange := fun o x =>
  ((execAccount (π o) o x.db).1,
    { db := (execAccount (π o) o x.db).2
      answers :=
        match o with
        | .respond answer => x.answers ++ [answer]
        | _ => x.answers })

/-- The exchange once the program has run to its end. -/
def afterwards (π : Pattern) (p : AccountProg) (x : Exchange) : Exchange :=
  (p.run (exchange π) x).2

/-- Time has passed. -/
def Exchange.wait (x : Exchange) (m : AccountMoment) : Exchange :=
  { x with db := { x.db with clock := x.db.clock + m.elapsed } }

section Afterwards

variable {π : Pattern} {x : Exchange} {α : Type} {s : AccountStatement}
  {failed : String → Prog AccountSig α} {rest : s.Res → Prog AccountSig α}

theorem run_sqlOr_fault {text : String} (fault : (π (.sql s)).fault = some text) :
    (sqlOr s failed rest).run (exchange π) x =
      (failed text).run (exchange π) (x.wait (π (.sql s))) := by
  simp only [sqlOr, Prog.run_op, exchange, execAccount, runStatement, fault, Exchange.wait]

theorem run_sqlOr_error {text : String} (fault : (π (.sql s)).fault = none)
    (eval : s.eval (x.wait (π (.sql s))).db = .error text) :
    (sqlOr s failed rest).run (exchange π) x =
      (failed text).run (exchange π) (x.wait (π (.sql s))) := by
  simp only [Exchange.wait] at eval
  simp only [sqlOr, Prog.run_op, exchange, execAccount, runStatement, fault, Exchange.wait, eval]

theorem run_sqlOr_ok {r : s.Res} {db : AccountDb} (fault : (π (.sql s)).fault = none)
    (eval : s.eval (x.wait (π (.sql s))).db = .ok (r, db)) :
    (sqlOr s failed rest).run (exchange π) x =
      (rest r).run (exchange π) { x with db := db } := by
  simp only [Exchange.wait] at eval
  simp only [sqlOr, Prog.run_op, exchange, execAccount, runStatement, fault, eval]

/-- A statement fails, or its callback goes on. -/
theorem run_sqlOr_cases (π : Pattern) (x : Exchange) (s : AccountStatement)
    (failed : String → Prog AccountSig α) (rest : s.Res → Prog AccountSig α) :
    (∃ text, (sqlOr s failed rest).run (exchange π) x =
        (failed text).run (exchange π) (x.wait (π (.sql s)))) ∨
      ∃ r db, s.eval (x.wait (π (.sql s))).db = .ok (r, db) ∧
        (sqlOr s failed rest).run (exchange π) x =
          (rest r).run (exchange π) { x with db := db } := by
  cases fault : (π (.sql s)).fault with
  | some text => exact .inl ⟨text, run_sqlOr_fault fault⟩
  | none =>
      cases eval : s.eval (x.wait (π (.sql s))).db with
      | error text => exact .inl ⟨text, run_sqlOr_error fault eval⟩
      | ok done => exact .inr ⟨done.1, done.2, rfl, run_sqlOr_ok fault eval⟩

theorem run_withNow {rest : Int → Prog AccountSig α} :
    (withNow rest).run (exchange π) x =
      (rest (x.wait (π .now)).db.clock).run (exchange π) (x.wait (π .now)) :=
  rfl

/-- Only time has passed. -/
def Exchange.Later (x x' : Exchange) : Prop :=
  x'.answers = x.answers ∧ ∃ clock, x'.db = { x.db with clock := clock }

theorem Exchange.later_wait {m : AccountMoment} : x.Later (x.wait m) :=
  ⟨rfl, _, rfl⟩

theorem Exchange.Later.trans {x' x'' : Exchange} (later : x.Later x') (later' : x'.Later x'') :
    x.Later x'' := by
  obtain ⟨answers, clock, db⟩ := later
  obtain ⟨answers', clock', db'⟩ := later'
  refine ⟨answers'.trans answers, clock', ?_⟩
  rw [db', db]

/-- A program that changes nothing and does not answer. -/
theorem run_later {p : Prog AccountSig α}
    (only : p.Only fun o : AccountOp => o.reads = true) : x.Later (p.run (exchange π) x).2 := by
  refine only.run (J := x.Later) ?_ ⟨rfl, _, rfl⟩
  intro o x' reads later
  refine later.trans ⟨?_, _, execAccount_reads reads (π o) x'.db⟩
  cases o with
  | respond => cases reads
  | _ => rfl

/-- What the guard answers in the exchange. -/
def guardAnswer (π : Pattern) (id : Int32) (x : Exchange) : Option Bool :=
  ((lastAdminGuard id).run (exchange π) x).1

theorem run_isLastActiveAdmin (π : Pattern) (x : Exchange) (id : Int32)
    (onDone : Bool → Prog AccountSig α) (onError : Prog AccountSig α) : ∃ x', x.Later x' ∧
      (isLastActiveAdmin id onDone onError).run (exchange π) x =
        (afterGuard onDone onError (guardAnswer π id x)).run (exchange π) x' := by
  have only : (lastAdminGuard id).Only fun o : AccountOp => o.reads = true := by
    refine lastAdminGuard_only ?_ (fun _ => ?_) ?_ (fun _ _ => ?_) id <;> rfl
  refine ⟨((lastAdminGuard id).run (exchange π) x).2, run_later only, ?_⟩
  rw [isLastActiveAdmin_eq, Prog.run_bind]
  rfl

end Afterwards

end Account

end Fulla
