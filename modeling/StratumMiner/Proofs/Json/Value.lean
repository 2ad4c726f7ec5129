import Mathlib
import StratumMiner.Json.Basic

/-!
# Values as they are held

The members of an object that is held are in increasing order of their keys, one member to a key.
Members that come in any order are put into their places one by one, and members that are in order
already stay as they are.
-/

namespace StratumMiner.Json

variable {key : String} {value : Json} {members sorted : List (String × Json)}

/-- Members in increasing order of their keys. -/
def Ordered (members : List (String × Json)) : Prop :=
  members.Pairwise fun one other => one.1 < other.1

/-- A value as it is held: its arrays and objects nest at most so deep, and the members of its
objects are in order. -/
inductive Held : Nat → Json → Prop where
  | null {depth : Nat} : Held depth .null
  | bool {depth : Nat} (value : Bool) : Held depth (.bool value)
  | number {depth : Nat} (value : JsonNumber) : Held depth (.number value)
  | string {depth : Nat} (value : String) : Held depth (.string value)
  | array {depth : Nat} {items : List Json} (held : ∀ item ∈ items, Held depth item) :
      Held (depth + 1) (.array items)
  | object {depth : Nat} {members : List (String × Json)} (ordered : Ordered members)
      (held : ∀ member ∈ members, Held depth member.2) : Held (depth + 1) (.object members)

/-- A value without doubles. -/
inductive Exact : Json → Prop where
  | null : Exact .null
  | bool (value : Bool) : Exact (.bool value)
  | natural (value : UInt64) : Exact (.number (.natural value))
  | negative (below : Fin 0x8000000000000000) : Exact (.number (.negative below))
  | string (value : String) : Exact (.string value)
  | array {items : List Json} (exact : ∀ item ∈ items, Exact item) : Exact (.array items)
  | object {members : List (String × Json)} (exact : ∀ member ∈ members, Exact member.2) :
      Exact (.object members)

theorem Held.mono {depth more : Nat} (held : Held depth value) (room : depth ≤ more) :
    Held more value := by
  induction held generalizing more with
  | null => exact .null
  | bool value => exact .bool value
  | number value => exact .number value
  | string value => exact .string value
  | array held ih =>
      obtain ⟨more, rfl⟩ := Nat.exists_eq_add_of_le' room
      exact .array fun item inside => ih item inside (Nat.le_add_left _ _)
  | object ordered held ih =>
      obtain ⟨more, rfl⟩ := Nat.exists_eq_add_of_le' room
      exact .object ordered fun member inside => ih member inside (Nat.le_add_left _ _)

/-! ## Members in their places -/

theorem mem_of_mem_insertMember {member : String × Json}
    (inside : member ∈ insertMember key value members) :
    member = (key, value) ∨ member ∈ members := by
  induction members with
  | nil => exact .inl (List.mem_singleton.mp inside)
  | cons first rest ih =>
      simp only [insertMember] at inside
      split_ifs at inside with before same
      · exact List.mem_cons.mp inside
      · exact (List.mem_cons.mp inside).imp_right (List.mem_cons_of_mem first)
      · rcases List.mem_cons.mp inside with rfl | behind
        · exact .inr List.mem_cons_self
        · exact (ih behind).imp_right (List.mem_cons_of_mem first)

theorem Ordered.insertMember (ordered : Ordered members) (key : String) (value : Json) :
    Ordered (insertMember key value members) := by
  induction members with
  | nil => exact List.pairwise_singleton _ _
  | cons first rest ih =>
      obtain ⟨least, restOrdered⟩ := List.pairwise_cons.mp ordered
      simp only [Json.insertMember]
      split_ifs with before same
      · refine List.pairwise_cons.mpr ⟨?_, ordered⟩
        intro member inside
        rcases List.mem_cons.mp inside with rfl | behind
        · exact before
        · exact before.trans (least member behind)
      · refine List.pairwise_cons.mpr ⟨?_, restOrdered⟩
        intro member inside
        exact same ▸ least member inside
      · refine List.pairwise_cons.mpr ⟨?_, ih restOrdered⟩
        intro member inside
        rcases mem_of_mem_insertMember inside with rfl | behind
        · exact lt_of_le_of_ne (not_lt.mp before) (Ne.symm same)
        · exact least member behind

/-- A member behind all others is put at the end. -/
theorem insertMember_of_last (last : ∀ member ∈ members, member.1 < key) :
    insertMember key value members = members ++ [(key, value)] := by
  induction members with
  | nil => rfl
  | cons first rest ih =>
      have later := last first List.mem_cons_self
      rw [insertMember, if_neg (lt_asymm later), if_neg (ne_of_gt later),
        ih fun member inside => last member (List.mem_cons_of_mem first inside)]
      rfl

/-! ## Objects from their members -/

/-- An object of members in any order has its members in order, and no others. -/
theorem ofMembers_held {depth : Nat} (held : ∀ member ∈ members, Held depth member.2) :
    Held (depth + 1) (ofMembers members) := by
  suffices placed : ∀ sorted, Ordered sorted → (∀ member ∈ sorted, Held depth member.2) →
      Held (depth + 1) (.object
        (members.foldl (fun sorted member => insertMember member.1 member.2 sorted) sorted)) from
    placed [] List.Pairwise.nil (by simp)
  induction members with
  | nil => exact fun sorted ordered sortedHeld => .object ordered sortedHeld
  | cons first rest ih =>
      intro sorted ordered sortedHeld
      refine ih (fun member inside => held member (List.mem_cons_of_mem first inside)) _
        (ordered.insertMember first.1 first.2) ?_
      intro member inside
      rcases mem_of_mem_insertMember inside with rfl | before
      · exact held first List.mem_cons_self
      · exact sortedHeld member before

/-- Members that are in order stay as they are. -/
theorem ofMembers_of_ordered (ordered : Ordered members) : ofMembers members = .object members := by
  suffices placed : ∀ sorted, Ordered (sorted ++ members) →
      members.foldl (fun sorted member => insertMember member.1 member.2 sorted) sorted =
        sorted ++ members from
    congrArg Json.object (placed [] ordered)
  clear ordered
  induction members with
  | nil => simp
  | cons first rest ih =>
      intro sorted ordered
      have last : ∀ member ∈ sorted, member.1 < first.1 := fun member inside =>
        (List.pairwise_append.mp ordered).2.2 member inside first List.mem_cons_self
      rw [List.foldl_cons, insertMember_of_last last, ih _ (by simpa using ordered)]
      simp

end StratumMiner.Json
