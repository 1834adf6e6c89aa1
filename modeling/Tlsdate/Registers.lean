import Mathlib.Data.List.Basic
import Mathlib.Tactic.SplitIfs

namespace Tlsdate.Registers

variable {α β σ : Type}

/-- What a register holds after some actions, each of which may write it. -/
def lastOf (write : α → Option β) (old : β) (as : List α) : β := (as.reverse.findSome? write).getD old

theorem lastOf_nil (write : α → Option β) (old : β) : lastOf write old [] = old := rfl

theorem lastOf_concat (write : α → Option β) (old : β) (as : List α) (a : α) :
    lastOf write old (as ++ [a]) = (write a).getD (lastOf write old as) := by
  rw [lastOf, lastOf, List.reverse_append, List.reverse_singleton, List.singleton_append,
    List.findSome?_cons]
  cases write a <;> rfl

/-- A loop goes where `view` says what its actions do together, unless one is refused. -/
theorem foldlM_view {step : σ → α → Option σ} {ok : α → Prop} [DecidablePred ok] {view : List α → σ}
    (hstep : ∀ done a, step (view done) a = if ok a then some (view (done ++ [a])) else none)
    (done as : List α) :
    as.foldlM step (view done) = if ∀ a ∈ as, ok a then some (view (done ++ as)) else none := by
  induction as generalizing done with
  | nil => simp
  | cons a as ih =>
      rw [List.foldlM_cons, hstep]
      by_cases ha : ok a
      · rw [if_pos ha]
        change as.foldlM step (view (done ++ [a])) = _
        rw [ih]
        simp only [List.forall_mem_cons, ha, true_and, List.append_assoc, List.singleton_append]
      · rw [if_neg ha, if_neg fun hall => ha (hall a List.mem_cons_self)]
        rfl

end Tlsdate.Registers
