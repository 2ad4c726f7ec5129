import Mathlib
import StratumMiner.Json.Reader
import StratumMiner.Proofs.Json.Value

/-!
# What a reader gives

Whatever the text, a value that has been read is held as values are: it nests no deeper than the
reader allows, and the members of its objects are in order.  The loops over items and members keep
any property that every single reading establishes.
-/

namespace StratumMiner.Json

variable {care : Care} {limit depth fuel : Nat} {chars rest : List Char}

/-! ## Loops -/

section Items

variable {read : List Char → Option (Json × List Char)} {items done : List Json}
  {Property : Json → Prop}

theorem readItems_forall
    (reads : ∀ chars item rest, read chars = some (item, rest) → Property item)
    (before : ∀ item ∈ done, Property item)
    (result : readItems read fuel done chars = some (items, rest)) :
    ∀ item ∈ items, Property item := by
  -- The induction is on the rounds of the loop; the items read so far have the property.
  fun_induction readItems read fuel done chars with
  | case1 => cases result
  | case2 => cases result
  | case3 fuel done chars item behind readEq more goesOn ih =>
      exact ih (List.forall_mem_cons.mpr ⟨reads _ _ _ readEq, before⟩) result
  | case4 fuel done chars item behind readEq more closes =>
      obtain ⟨rfl, rfl⟩ := Prod.mk.inj (Option.some.inj result)
      intro member inside
      exact List.forall_mem_cons.mpr ⟨reads _ _ _ readEq, before⟩ member
        (List.mem_reverse.mp inside)
  | case5 => cases result

theorem readArray_forall
    (reads : ∀ chars item rest, read chars = some (item, rest) → Property item)
    (result : readArray read limit chars = some (items, rest)) :
    ∀ item ∈ items, Property item := by
  unfold readArray at result
  split at result
  · obtain ⟨rfl, rfl⟩ := Prod.mk.inj (Option.some.inj result)
    simp
  · exact readItems_forall reads (by simp) result

end Items

section Members

variable {read : String → List Char → Option (Json × List Char)}
  {members done : List (String × Json)} {Property : String × Json → Prop}

theorem readMembers_forall
    (reads : ∀ key chars value rest, read key chars = some (value, rest) → Property (key, value))
    (before : ∀ member ∈ done, Property member)
    (result : readMembers care read fuel done chars = some (members, rest)) :
    ∀ member ∈ members, Property member := by
  fun_induction readMembers care read fuel done chars with
  | case1 => cases result
  | case2 => cases result
  | case3 => cases result
  | case4 fuel done chars _ _ _ _ _ key _ _ value _ readEq more goesOn ih =>
      exact ih (List.forall_mem_cons.mpr ⟨reads _ _ _ _ readEq, before⟩) result
  | case5 fuel done chars _ _ _ _ _ key _ _ value _ readEq more closes =>
      obtain ⟨rfl, rfl⟩ := Prod.mk.inj (Option.some.inj result)
      intro member inside
      exact List.forall_mem_cons.mpr ⟨reads _ _ _ _ readEq, before⟩ member
        (List.mem_reverse.mp inside)
  | case6 => cases result
  | case7 => cases result
  | case8 => cases result

theorem readObject_forall
    (reads : ∀ key chars value rest, read key chars = some (value, rest) → Property (key, value))
    (result : readObject care read limit chars = some (members, rest)) :
    ∀ member ∈ members, Property member := by
  unfold readObject at result
  split at result
  · obtain ⟨rfl, rfl⟩ := Prod.mk.inj (Option.some.inj result)
    simp
  · exact readMembers_forall reads (by simp) result

end Members

/-! ## Values -/

theorem readLeaf_held {value : Json} (result : readLeaf care chars = some (value, rest)) :
    Held depth value := by
  unfold readLeaf at result
  split at result
  · cases result; exact .null
  · cases result; exact .bool true
  · cases result; exact .bool false
  · split at result
    · cases result
    · cases result; exact .string _
  · unfold readNumber at result
    split at result
    · cases result
    · split at result
      · cases result; exact .null
      · split at result
        · cases result
        · cases result; exact .number _

/-- A value that has been read nests no deeper than the reader allows, and the members of its
objects are in order. -/
theorem readValue_held {value : Json}
    (result : readValue care limit depth chars = some (value, rest)) : Held depth value := by
  induction depth generalizing chars value rest with
  | zero => exact readLeaf_held result
  | succ depth ih =>
      have reads : ∀ chars value rest, readValue care limit depth chars = some (value, rest) →
          Held depth value := fun _ _ _ inner => ih inner
      rw [readValue] at result
      split at result
      · split at result
        · cases result
        · next items _ array =>
            cases result
            exact .array (readArray_forall reads array)
      · split at result
        · cases result
        · next members _ object =>
            cases result
            have held := @readObject_forall _ _ _ _ _ _ (fun member => Held depth member.2)
              (fun _ => reads) object
            exact ofMembers_held held
      · exact readLeaf_held result

end StratumMiner.Json
