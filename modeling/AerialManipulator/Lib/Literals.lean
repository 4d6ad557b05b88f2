/-
Literals.

Named instances for the literals of `Fin n` and of number types: a literal then elaborates to
the same term wherever it is written, whatever else is imported there.
-/
import Mathlib

instance neZero_two : NeZero 2 := ⟨by decide⟩
instance neZero_three : NeZero 3 := ⟨by decide⟩
instance neZero_four : NeZero 4 := ⟨by decide⟩

instance atLeastTwo_two : Nat.AtLeastTwo 2 := ⟨by decide⟩
instance atLeastTwo_three : Nat.AtLeastTwo 3 := ⟨by decide⟩
instance atLeastTwo_four : Nat.AtLeastTwo 4 := ⟨by decide⟩
instance atLeastTwo_five : Nat.AtLeastTwo 5 := ⟨by decide⟩
instance atLeastTwo_ten : Nat.AtLeastTwo 10 := ⟨by decide⟩
instance atLeastTwo_thirty : Nat.AtLeastTwo 30 := ⟨by decide⟩
instance atLeastTwo_fortyFive : Nat.AtLeastTwo 45 := ⟨by decide⟩
instance atLeastTwo_eightyNine : Nat.AtLeastTwo 89 := ⟨by decide⟩
instance atLeastTwo_hundred : Nat.AtLeastTwo 100 := ⟨by decide⟩
instance atLeastTwo_hundredEighty : Nat.AtLeastTwo 180 := ⟨by decide⟩
