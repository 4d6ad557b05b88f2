/-
Machines with an output.

A machine is a step function `step : σ → ι → σ × ο`.  `feed` gives it the inputs of a list one
after the other and collects what it puts out.

* `feed_append` — two lists one after the other.
-/
import Mathlib.Data.List.Basic

namespace Mealy

variable {σ ι ο : Type*} {step : σ → ι → σ × ο}

def feed (step : σ → ι → σ × ο) : σ → List ι → σ × List ο
  | s, [] => (s, [])
  | s, i :: is =>
    let t := step s i
    let r := feed step t.1 is
    (r.1, t.2 :: r.2)

@[simp] theorem feed_nil (s : σ) : feed step s [] = (s, []) := rfl

theorem feed_cons (s : σ) (i : ι) (is : List ι) :
    feed step s (i :: is) =
      ((feed step (step s i).1 is).1, (step s i).2 :: (feed step (step s i).1 is).2) := rfl

theorem feed_append (s : σ) (is js : List ι) :
    feed step s (is ++ js) =
      ((feed step (feed step s is).1 js).1,
        (feed step s is).2 ++ (feed step (feed step s is).1 js).2) := by
  induction is generalizing s with
  | nil => rfl
  | cons i is ih =>
    rw [List.cons_append, feed_cons, ih, feed_cons]
    rfl

end Mealy
