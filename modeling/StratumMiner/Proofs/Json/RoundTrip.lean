import Mathlib
import StratumMiner.Proofs.Json.Tokens
import StratumMiner.Proofs.Json.Value

/-!
# Reading back what has been written

A value without doubles that nests no deeper than the reader allows is read back from its text, and
whatever stands behind the text is left.  The proof follows the value: strings and numbers are read
as such, and the loops over items and members go around once for each of them.
-/

namespace StratumMiner.Json

variable {rest : List Char} {limit depth fuel : Nat}

/-! ## Commas -/

/-- The text of a member. -/
def memberChars (member : String × Json) : List Char :=
  stringChars member.1 ++ ':' :: member.2.chars

theorem itemsChars_cons (first : Json) (others : List Json) :
    itemsChars (first :: others) = first.chars ++ others.flatMap fun item => ',' :: item.chars := by
  induction others generalizing first with
  | nil => simp [itemsChars]
  | cons next others ih => simp [itemsChars, ih]

theorem membersChars_cons (first : String × Json) (others : List (String × Json)) :
    membersChars (first :: others) =
      memberChars first ++ others.flatMap fun member => ',' :: memberChars member := by
  induction others generalizing first with
  | nil => simp [membersChars, memberChars]
  | cons next others ih => simp [membersChars, memberChars, ih]

section Commas

variable {Part : Type} {parts : List Part} {part : Part} {text : Part → List Char}

theorem length_le_flatMap_comma (parts : List Part) (text : Part → List Char) :
    parts.length ≤ (parts.flatMap fun part => ',' :: text part).length := by
  induction parts with
  | nil => exact le_refl 0
  | cons first others ih =>
      simp only [List.flatMap_cons, List.length_append, List.length_cons]
      omega

theorem length_text_le_flatMap_comma (inside : part ∈ parts) :
    (text part).length ≤ (parts.flatMap fun part => ',' :: text part).length := by
  induction parts with
  | nil => cases inside
  | cons first others ih =>
      simp only [List.flatMap_cons, List.length_append, List.length_cons]
      rcases List.mem_cons.mp inside with rfl | behind
      · omega
      · have bound := ih behind
        omega

end Commas

/-! ## Arrays and objects -/

/-- A reader takes a value off the front of its text. -/
def ReadsBack (read : List Char → Option (Json × List Char)) (value : Json) : Prop :=
  ∀ rest, Ends rest → read (value.chars ++ rest) = some (value, rest)

theorem readItems_itemsChars {read : List Char → Option (Json × List Char)} {done : List Json}
    {first : Json} {others : List Json} (reads : ∀ item ∈ first :: others, ReadsBack read item)
    (enough : others.length < fuel) :
    readItems read fuel done (itemsChars (first :: others) ++ ']' :: rest) =
      some (done.reverse ++ first :: others, rest) := by
  rw [itemsChars_cons]
  -- The induction is on the items behind the first, one for each round of the loop.
  induction others generalizing first done fuel with
  | nil =>
      obtain ⟨fuel, rfl⟩ := Nat.exists_eq_succ_of_ne_zero (Nat.ne_zero_of_lt enough)
      have readFirst := reads first List.mem_cons_self (']' :: rest) (by simp [Ends])
      simp [readItems, readFirst, skipSpace, isSpace]
  | cons next others ih =>
      obtain ⟨fuel, rfl⟩ := Nat.exists_eq_succ_of_ne_zero (Nat.ne_zero_of_lt enough)
      have behind := @ih fuel (first :: done) next
        (fun item inside => reads item (List.mem_cons_of_mem first inside))
        (Nat.lt_of_succ_lt_succ enough)
      have written : first.chars ++ ((next :: others).flatMap fun item => ',' :: item.chars) ++
          ']' :: rest = first.chars ++ ',' ::
            (next.chars ++ (others.flatMap fun item => ',' :: item.chars) ++ ']' :: rest) := by
        simp
      rw [written, readItems, reads first List.mem_cons_self _ (by simp [Ends])]
      simpa [skipSpace, isSpace] using behind

theorem memberChars_append (member : String × Json) (rest : List Char) :
    memberChars member ++ rest =
      '"' :: (member.1.toList.flatMap escapeChar ++ '"' :: ':' :: (member.2.chars ++ rest)) := by
  simp [memberChars, stringChars]

section Rounds

variable {read : String → List Char → Option (Json × List Char)} {member : String × Json}

/-- Behind a comma the loop goes on. -/
theorem readMembers_comma (done : List (String × Json))
    (readValue : read member.1 (member.2.chars ++ ',' :: rest) = some (member.2, ',' :: rest)) :
    readMembers .kept read (fuel + 1) done (memberChars member ++ ',' :: rest) =
      readMembers .kept read fuel (member :: done) rest := by
  rw [memberChars_append, readMembers, skipSpace_of_visible rfl]
  simp [readString_flatMap, skipSpace, isSpace, readValue]

/-- The closing bracket ends the loop. -/
theorem readMembers_close (done : List (String × Json))
    (readValue :
      read member.1 (member.2.chars ++ '\x7d' :: rest) = some (member.2, '\x7d' :: rest)) :
    readMembers .kept read (fuel + 1) done (memberChars member ++ '\x7d' :: rest) =
      some ((member :: done).reverse, rest) := by
  rw [memberChars_append, readMembers, skipSpace_of_visible rfl]
  simp [readString_flatMap, skipSpace, isSpace, readValue]

end Rounds

theorem readMembers_membersChars {read : String → List Char → Option (Json × List Char)}
    {done : List (String × Json)} {first : String × Json} {others : List (String × Json)}
    (reads : ∀ member ∈ first :: others, ReadsBack (read member.1) member.2)
    (enough : others.length < fuel) :
    readMembers .kept read fuel done (membersChars (first :: others) ++ '\x7d' :: rest) =
      some (done.reverse ++ first :: others, rest) := by
  rw [membersChars_cons]
  induction others generalizing first done fuel with
  | nil =>
      obtain ⟨fuel, rfl⟩ := Nat.exists_eq_succ_of_ne_zero (Nat.ne_zero_of_lt enough)
      have readFirst := reads first List.mem_cons_self ('\x7d' :: rest) (by simp [Ends])
      simp [readMembers_close done readFirst]
  | cons next others ih =>
      obtain ⟨fuel, rfl⟩ := Nat.exists_eq_succ_of_ne_zero (Nat.ne_zero_of_lt enough)
      have behind := @ih fuel (first :: done) next
        (fun member inside => reads member (List.mem_cons_of_mem first inside))
        (Nat.lt_of_succ_lt_succ enough)
      have written : memberChars first ++
          ((next :: others).flatMap fun member => ',' :: memberChars member) ++ '\x7d' :: rest =
            memberChars first ++ ',' :: (memberChars next ++
              (others.flatMap fun member => ',' :: memberChars member) ++ '\x7d' :: rest) := by
        simp
      rw [written, readMembers_comma done (reads first List.mem_cons_self _ (by simp [Ends])),
        behind]
      simp

/-- A number begins with a digit or a minus sign. -/
theorem Exact.number_begins {number : JsonNumber} (exact : Exact (.number number)) :
    ∃ first others, number.chars = first :: others ∧ (first.isDigit = true ∨ first = '-') := by
  cases exact with
  | natural value =>
      obtain ⟨first, others, digits⟩ :=
        List.exists_cons_of_ne_nil (@Nat.toDigits_ne_nil value.toNat 10)
      refine ⟨first, others, digits, .inl ?_⟩
      exact Nat.isDigit_of_mem_toDigits (by decide) (by decide) (digits ▸ List.mem_cons_self)
  | negative below => exact ⟨'-', _, rfl, .inr rfl⟩

/-- What begins a number begins nothing else. -/
theorem number_only {first : Char} (begins : first.isDigit = true ∨ first = '-') :
    isSpace first = false ∧ first ∉ ['n', 't', 'f', '"', '[', ']', '\x7b'] := by
  constructor
  · by_contra space
    simp only [isSpace, Bool.not_eq_false, Bool.or_eq_true, beq_iff_eq] at space
    rcases space with ((rfl | rfl) | rfl) | rfl <;> simp at begins
  · intro inside
    simp only [List.mem_cons, List.not_mem_nil, or_false] at inside
    rcases inside with rfl | rfl | rfl | rfl | rfl | rfl | rfl <;> simp at begins

/-- No value begins with a blank or a closing bracket. -/
theorem Exact.begins {value : Json} (exact : value.Exact) :
    ∃ first others, value.chars = first :: others ∧ isSpace first = false ∧ first ≠ ']' := by
  cases value with
  | null => exact ⟨'n', _, rfl, rfl, by decide⟩
  | bool value =>
      cases value with
      | false => exact ⟨'f', _, rfl, rfl, by decide⟩
      | true => exact ⟨'t', _, rfl, rfl, by decide⟩
  | number value =>
      obtain ⟨first, others, digits, begins⟩ := exact.number_begins
      obtain ⟨visible, only⟩ := number_only begins
      exact ⟨first, others, digits, visible, fun same => only (by simp [same])⟩
  | string value => exact ⟨'"', _, rfl, rfl, by decide⟩
  | array items => exact ⟨'[', _, by rw [chars]; rfl, rfl, by decide⟩
  | object members => exact ⟨'\x7b', _, by rw [chars]; rfl, rfl, by decide⟩

/-- All items of an array are read back. -/
theorem readArray_itemsChars {read : List Char → Option (Json × List Char)} {items : List Json}
    (exact : ∀ item ∈ items, item.Exact) (reads : ∀ item ∈ items, ReadsBack read item)
    (enough : items.length ≤ limit) :
    readArray read limit (itemsChars items ++ ']' :: rest) = some (items, rest) := by
  cases items with
  | nil => rfl
  | cons first others =>
      have loop := @readItems_itemsChars rest limit read [] first others reads enough
      obtain ⟨char, more, begins, visible, noClose⟩ := (exact first List.mem_cons_self).begins
      rw [itemsChars_cons, begins, List.cons_append, List.cons_append] at loop ⊢
      rw [readArray, skipSpace_of_visible visible]
      split
      · next closed => exact absurd (List.cons.inj closed).1 noClose
      · exact loop

/-- All members of an object are read back. -/
theorem readObject_membersChars {read : String → List Char → Option (Json × List Char)}
    {members : List (String × Json)}
    (reads : ∀ member ∈ members, ReadsBack (read member.1) member.2)
    (enough : members.length ≤ limit) :
    readObject .kept read limit (membersChars members ++ '\x7d' :: rest) =
      some (members, rest) := by
  cases members with
  | nil => rfl
  | cons first others =>
      have loop := @readMembers_membersChars rest limit read [] first others reads enough
      rw [membersChars_cons, List.append_assoc, memberChars_append] at loop ⊢
      rw [readObject, skipSpace_of_visible rfl]
      exact loop

/-! ## Values -/

theorem readValue_of_leaf {first : Char} (visible : isSpace first = false)
    (noArray : first ≠ '[') (noObject : first ≠ '\x7b') (others : List Char) :
    readValue .kept limit depth (first :: others) = readLeaf .kept (first :: others) := by
  cases depth with
  | zero => rw [readValue, skipSpace_of_visible visible]
  | succ depth =>
      rw [readValue, skipSpace_of_visible visible]
      split
      · next opens => exact absurd (List.cons.inj opens).1 noArray
      · next opens => exact absurd (List.cons.inj opens).1 noObject
      · rfl

theorem readsBack_string (value : String) :
    ReadsBack (readValue .kept limit depth) (.string value) := by
  intro rest _
  have written : (Json.string value).chars ++ rest =
      '"' :: (value.toList.flatMap escapeChar ++ '"' :: rest) := by
    simp [chars, stringChars]
  rw [written, readValue_of_leaf rfl (by decide) (by decide)]
  simp [readLeaf, readString_flatMap]

theorem readLeaf_of_number {first : Char} (begins : first.isDigit = true ∨ first = '-')
    (others : List Char) :
    readLeaf .kept (first :: others) = readNumber .kept (first :: others) := by
  have only := (number_only begins).2
  simp only [List.mem_cons, List.not_mem_nil, or_false, not_or] at only
  obtain ⟨noNull, noTrue, noFalse, noString, -⟩ := only
  unfold readLeaf
  split
  · next opens => exact absurd (List.cons.inj opens).1 noNull
  · next opens => exact absurd (List.cons.inj opens).1 noTrue
  · next opens => exact absurd (List.cons.inj opens).1 noFalse
  · next opens => exact absurd (List.cons.inj opens).1 noString
  · rfl

theorem readsBack_number {number : JsonNumber} (exact : Exact (.number number)) :
    ReadsBack (readValue .kept limit depth) (.number number) := by
  intro rest ends
  have read : readNumber .kept (number.chars ++ rest) = some (.number number, rest) := by
    cases exact with
    | natural value => exact readNumber_natural value ends
    | negative below => exact readNumber_negative below ends
  obtain ⟨first, others, digits, begins⟩ := exact.number_begins
  obtain ⟨visible, only⟩ := number_only begins
  rw [digits, List.cons_append] at read
  rw [chars, digits, List.cons_append, readValue_of_leaf visible
    (fun same => only (by simp [same])) (fun same => only (by simp [same])),
    readLeaf_of_number begins, read]

theorem length_le_itemsChars (items : List Json) :
    items.length ≤ (itemsChars items).length + 1 := by
  cases items with
  | nil => simp
  | cons first others =>
      have commas := length_le_flatMap_comma others chars
      rw [itemsChars_cons, List.length_append, List.length_cons]
      omega

theorem length_chars_le_itemsChars {item : Json} {items : List Json} (inside : item ∈ items) :
    item.chars.length ≤ (itemsChars items).length := by
  cases items with
  | nil => cases inside
  | cons first others =>
      rw [itemsChars_cons, List.length_append]
      rcases List.mem_cons.mp inside with rfl | behind
      · omega
      · have part := @length_text_le_flatMap_comma _ _ _ chars behind
        omega

theorem length_le_membersChars (members : List (String × Json)) :
    members.length ≤ (membersChars members).length + 1 := by
  cases members with
  | nil => simp
  | cons first others =>
      have commas := length_le_flatMap_comma others memberChars
      rw [membersChars_cons, List.length_append, List.length_cons]
      omega

theorem length_chars_le_membersChars {member : String × Json} {members : List (String × Json)}
    (inside : member ∈ members) : member.2.chars.length ≤ (membersChars members).length := by
  have own : member.2.chars.length ≤ (memberChars member).length := by
    rw [memberChars, List.length_append, List.length_cons]
    omega
  cases members with
  | nil => cases inside
  | cons first others =>
      rw [membersChars_cons, List.length_append]
      rcases List.mem_cons.mp inside with rfl | behind
      · omega
      · have part := @length_text_le_flatMap_comma _ _ _ memberChars behind
        omega

/-- A value is read back by a reader that allows for its depth and for the length of its text. -/
theorem Held.readsBack {value : Json} (held : Held depth value) (exact : value.Exact)
    (enough : value.chars.length ≤ limit) : ReadsBack (readValue .kept limit depth) value := by
  induction held with
  | null =>
      intro rest _
      exact readValue_of_leaf rfl (by decide) (by decide) _
  | bool value =>
      intro rest _
      cases value <;> exact readValue_of_leaf rfl (by decide) (by decide) _
  | number value => exact readsBack_number exact
  | string value => exact readsBack_string value
  | @array depth items held ih =>
      intro rest _
      cases exact with
      | array exact =>
      rw [chars, List.length_append, List.length_cons, List.length_singleton] at enough
      have count := length_le_itemsChars items
      have reads : ∀ item ∈ items, ReadsBack (readValue .kept limit depth) item := by
        intro item inside
        have part := length_chars_le_itemsChars inside
        exact ih item inside (exact item inside) (by omega)
      have read := @readArray_itemsChars rest limit _ items exact reads (by omega)
      simp [chars, readValue, skipSpace, isSpace, read]
  | @object depth members ordered held ih =>
      intro rest _
      cases exact with
      | object exact =>
      rw [chars, List.length_append, List.length_cons, List.length_singleton] at enough
      have count := length_le_membersChars members
      have reads : ∀ member ∈ members, ReadsBack (readValue .kept limit depth) member.2 := by
        intro member inside
        have part := length_chars_le_membersChars inside
        exact ih member inside (exact member inside) (by omega)
      have read := @readObject_membersChars rest limit (fun _ => readValue .kept limit depth)
        members reads (by omega)
      simp [chars, readValue, skipSpace, isSpace, read, ofMembers_of_ordered ordered]

/-! ## Control characters -/

theorem visible_itemsChars {items : List Json}
    (visible : ∀ item ∈ items, ∀ char ∈ item.chars, 32 ≤ char.toNat) :
    ∀ char ∈ itemsChars items, 32 ≤ char.toNat := by
  cases items with
  | nil => simp [itemsChars]
  | cons first others =>
      rw [itemsChars_cons]
      intro char inside
      simp only [List.mem_append, List.mem_flatMap, List.mem_cons] at inside
      rcases inside with inFirst | ⟨item, behind, rfl | inOther⟩
      · exact visible first List.mem_cons_self char inFirst
      · decide
      · exact visible item (List.mem_cons_of_mem first behind) char inOther

theorem visible_membersChars {members : List (String × Json)}
    (visible : ∀ member ∈ members, ∀ char ∈ member.2.chars, 32 ≤ char.toNat) :
    ∀ char ∈ membersChars members, 32 ≤ char.toNat := by
  have whole : ∀ member ∈ members, ∀ char ∈ memberChars member, 32 ≤ char.toNat := by
    intro member inside char written
    simp only [memberChars, List.mem_append, List.mem_cons] at written
    rcases written with inKey | rfl | inValue
    · exact visible_stringChars member.1 char inKey
    · decide
    · exact visible member inside char inValue
  cases members with
  | nil => simp [membersChars]
  | cons first others =>
      rw [membersChars_cons]
      intro char inside
      simp only [List.mem_append, List.mem_flatMap, List.mem_cons] at inside
      rcases inside with inFirst | ⟨member, behind, rfl | inOther⟩
      · exact whole first List.mem_cons_self char inFirst
      · decide
      · exact whole member (List.mem_cons_of_mem first behind) char inOther

/-- No control character is in the text of a value. -/
theorem Exact.visible {value : Json} (exact : value.Exact) :
    ∀ char ∈ value.chars, 32 ≤ char.toNat := by
  induction exact with
  | null => simp [chars]
  | bool value => cases value <;> simp [chars]
  | natural value => exact visible_toDigits value.toNat
  | negative below =>
      intro char inside
      rcases List.mem_cons.mp inside with rfl | digit
      · decide
      · exact visible_toDigits _ char digit
  | string value => exact visible_stringChars value
  | array _ ih =>
      intro char inside
      simp only [chars, List.cons_append, List.mem_cons, List.mem_append, List.not_mem_nil,
        or_false] at inside
      rcases inside with rfl | inItems | rfl
      · decide
      · exact visible_itemsChars ih char inItems
      · decide
  | object _ ih =>
      intro char inside
      simp only [chars, List.cons_append, List.mem_cons, List.mem_append, List.not_mem_nil,
        or_false] at inside
      rcases inside with rfl | inMembers | rfl
      · decide
      · exact visible_membersChars ih char inMembers
      · decide

end StratumMiner.Json
