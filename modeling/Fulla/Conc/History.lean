import Mathlib.Data.List.Induction

/-!
# Runs with a history

A sequential run of requests against a state, with the list of what happened,
newest first: every entry is the state a request found and the request.

* `History.run_invariant`: what holds at the start and is kept by every step
  that meets a condition holds after every run each of whose steps meets it; the
  condition may look at the history before the step.
* `Since good bad`: something `good` happened, and nothing `bad` after it.
-/

namespace Conc

variable {σ ρ : Type}

namespace History

/-- The history of a run and the state it ends in. -/
def run (next : σ → ρ → σ) (s : σ) (requests : List ρ) : List (σ × ρ) × σ :=
  requests.foldl (fun at_ r => ((at_.2, r) :: at_.1, next at_.2 r)) ([], s)

variable {next : σ → ρ → σ} {s : σ}

theorem run_concat (requests : List ρ) (r : ρ) :
    run next s (requests ++ [r]) =
      (((run next s requests).2, r) :: (run next s requests).1,
        next (run next s requests).2 r) := by
  simp only [run, List.foldl_append, List.foldl_cons, List.foldl_nil]

/-- Every entry meets a condition that may look at what happened before it. -/
def Each (Meets : List (σ × ρ) → σ × ρ → Prop) : List (σ × ρ) → Prop
  | [] => True
  | e :: h => Meets h e ∧ Each Meets h

/-- An invariant of the state and its history, under a condition on every step. -/
theorem run_invariant {I : List (σ × ρ) → σ → Prop} {Meets : List (σ × ρ) → σ × ρ → Prop}
    (start : I [] s) (step : ∀ h s r, I h s → Meets h (s, r) → I ((s, r) :: h) (next s r))
    (requests : List ρ) (meets : Each Meets (run next s requests).1) :
    I (run next s requests).1 (run next s requests).2 := by
  induction requests using List.reverseRecOn with
  | nil => exact start
  | append_singleton requests r ih =>
      rw [run_concat] at meets ⊢
      exact step _ _ r (ih meets.2) meets.1

theorem each_of_forall {Meets : σ × ρ → Prop} {h : List (σ × ρ)} (meets : ∀ e ∈ h, Meets e) :
    Each (fun _ => Meets) h := by
  induction h with
  | nil => trivial
  | cons e h ih =>
      exact ⟨meets e List.mem_cons_self, ih fun e mem => meets e (List.mem_cons_of_mem _ mem)⟩

/-- What happened was asked for. -/
theorem mem_of_mem_run {requests : List ρ} {e : σ × ρ} (mem : e ∈ (run next s requests).1) :
    e.2 ∈ requests := by
  induction requests using List.reverseRecOn with
  | nil => cases mem
  | append_singleton requests r ih =>
      rw [run_concat] at mem
      rcases List.mem_cons.mp mem with rfl | old
      · exact List.mem_append_right _ List.mem_cons_self
      · exact List.mem_append_left _ (ih old)

/-- An invariant of the state alone that every step keeps. -/
theorem run_always {I : σ → Prop} (start : I s) (step : ∀ s r, I s → I (next s r))
    (requests : List ρ) : I (run next s requests).2 := by
  have kept : ∀ (h : List (σ × ρ)) (s : σ) (r : ρ), I s → True → I (next s r) :=
    fun _ s r inv _ => step s r inv
  exact run_invariant start kept requests (each_of_forall fun _ _ => trivial)

end History

/-! ## Since -/

variable {α : Type}

/-- In a list that is newest first: a `good` entry with no `bad` one after it. -/
def Since (good bad : α → Prop) : List α → Prop
  | [] => False
  | a :: h => good a ∨ ¬ bad a ∧ Since good bad h

namespace Since

variable {good bad : α → Prop} {a : α} {h : List α}

instance decidable [DecidablePred good] [DecidablePred bad] : DecidablePred (Since good bad)
  | [] => inferInstanceAs (Decidable False)
  | _ :: h => @instDecidableOr _ _ _ (@instDecidableAnd _ _ _ (decidable h))

theorem cons : Since good bad (a :: h) ↔ good a ∨ ¬ bad a ∧ Since good bad h :=
  Iff.rfl

theorem now (happened : good a) : Since good bad (a :: h) :=
  .inl happened

theorem keep (still : ¬ bad a) (since : Since good bad h) : Since good bad (a :: h) :=
  .inr ⟨still, since⟩

theorem mono {good' : α → Prop} (since : Since good bad h) (le : ∀ a, good a → good' a) :
    Since good' bad h := by
  induction h with
  | nil => exact since
  | cons a h ih =>
      rcases since with happened | ⟨still, since⟩
      · exact now (le a happened)
      · exact keep still (ih since)

theorem exists_mem (since : Since good bad h) : ∃ a ∈ h, good a := by
  induction h with
  | nil => exact since.elim
  | cons a h ih =>
      rcases since with happened | ⟨_, since⟩
      · exact ⟨a, List.mem_cons_self, happened⟩
      · obtain ⟨b, mem, happened⟩ := ih since
        exact ⟨b, List.mem_cons_of_mem _ mem, happened⟩

/-- There is one thing that happened. -/
theorem exists_of {β : Type} {good : α → β → Prop} (since : Since (fun a => ∃ b, good a b) bad h) :
    ∃ b, Since (fun a => good a b) bad h := by
  induction h with
  | nil => exact since.elim
  | cons a h ih =>
      rcases since with ⟨b, happened⟩ | ⟨still, since⟩
      · exact ⟨b, now happened⟩
      · obtain ⟨b, since⟩ := ih since
        exact ⟨b, keep still since⟩

end Since

end Conc
