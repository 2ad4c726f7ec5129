import Mathlib

/-!
# Windows onto what came last

The ids of the latest jobs and the latest answer times are each kept in a window with a fixed
number of places.  An item that comes takes the place of the oldest one if the window is full.
So the window is always the end of the list of all items.
-/

namespace StratumMiner

/-- The latest items make room for one more: the oldest one goes if they fill all places. -/
theorem rtake_make_room {Item : Type} (items : List Item) (item : Item) {places : Nat}
    (positive : 0 < places) :
    (if (items.rtake places).length = places then (items.rtake places).tail
      else items.rtake places) ++ [item] = (items ++ [item]).rtake places := by
  obtain ⟨places, rfl⟩ := Nat.exists_eq_add_one.mpr positive
  rw [List.rtake_concat_succ, List.rtake, List.rtake, List.length_drop, List.tail_drop]
  congr 1
  split
  · next full =>
      congr 1
      omega
  · next free => rw [Nat.sub_eq_zero_of_le (by omega), Nat.sub_eq_zero_of_le (by omega)]

end StratumMiner
