import CallTrace.Json.Record
import CallTrace.Proofs.Json.Reader

/-!
# Records that are read as they were written

The fields of a record are written in their order, each of them as a member, as a member
that is left out if it is absent, or as one that is null if it is absent.  The fields that
are found among the members are the same, so each of them is read as the value it was
written for, provided that their names differ and that the values themselves are read as
they were written.
-/

namespace CallTrace.Json

variable {α : Type}

/-- A way of writing values of a shape that is undone by a way of reading them, and by
which a value never looks like an absent one. -/
structure ReadsBack (shape : Shape) (write : α → Json) (read : Json → Option α) : Prop where
  read_write (value : α) : read (write value) = some value
  write_ne_null (value : α) : write value ≠ null
  isPlain (value : α) : (write value).IsPlain shape

/-! ## Values of fields -/

section

variable {base bound n : Nat} {shape : Shape}

/-- One more digit is read as it was written. -/
theorem ofDigits?_append_digitChar (hbase : base ≤ 16) (hn : n < base) (digits : List Char) :
    ofDigits? base bound (digits ++ [Nat.digitChar n]) =
      (ofDigits? base bound digits).bind fun total =>
        if total * base + n < bound then some (total * base + n) else none := by
  have hvalue : Hex.digitValue? (Nat.digitChar n) = some n :=
    Hex.digitValue?_digitChar (Nat.lt_of_lt_of_le hn hbase)
  have hunderscore : Nat.digitChar n ≠ '_' := Nat.digitChar_ne '_' (by decide)
  simp [ofDigits?, List.foldlM_append, hunderscore, hvalue, hn]

/-- The digits of a number are read as the number. -/
theorem ofDigits?_toDigits (hpos : 1 < base) (hbase : base ≤ 16) (hn : n < bound) :
    ofDigits? base bound (Nat.toDigits base n) = some n := by
  induction n using Nat.base_induction base hpos with
  | single n hsmall =>
      rw [Nat.toDigits_of_lt_base hsmall, ← List.nil_append [_],
        ofDigits?_append_digitChar hbase hsmall]
      simp [ofDigits?, hn]
  | digit front last hlast hfront ih =>
      have hle : front ≤ base * front := Nat.le_mul_of_pos_left front (by omega)
      rw [← Nat.toDigits_append_toDigits hpos hfront hlast, Nat.toDigits_of_lt_base hlast,
        ofDigits?_append_digitChar hbase hlast, ih (by omega), Option.bind_some,
        Nat.mul_comm front, if_pos hn]

/-- A quantity is read as the number that it was written for. -/
theorem readQuantity_ofNat (hn : n < bound) : readQuantity bound (text (Hex.ofNat n)) = some n := by
  simp only [readQuantity, Hex.ofNat, String.toList_ofList, quantity?]
  exact ofDigits?_toDigits (by decide) (by decide) hn

theorem readsBack_text (shape : Shape) : ReadsBack shape text readText where
  read_write _ := rfl
  write_ne_null _ := Json.noConfusion
  isPlain _ := trivial

theorem readsBack_uint64 (shape : Shape) :
    ReadsBack shape (fun value : UInt64 => natural value.toNat) readUInt64 where
  read_write value := by simp [readUInt64, readNatural, value.toNat_lt_size]
  write_ne_null _ := Json.noConfusion
  isPlain _ := trivial

theorem readsBack_uint32 (shape : Shape) :
    ReadsBack shape (fun value : UInt32 => natural value.toNat) readUInt32 where
  read_write value := by simp [readUInt32, readNatural, value.toNat_lt_size]
  write_ne_null _ := Json.noConfusion
  isPlain _ := trivial

/-- A shape that stays the same behind an item is none of a byte string. -/
theorem isComplete_of_tail_eq (htail : shape.tail = shape) : shape.isComplete = false := by
  cases shape with
  | fixedBytes width =>
      cases width with
      | zero => cases htail
      | succ width => rfl
  | any => rfl
  | list item => rfl
  | record fields => rfl

/-- Arrays are read back if their items are, wherever arrays of any length may stand. -/
theorem readsBack_array {write : α → Json} {read : Json → Option α}
    (hitem : ReadsBack shape.head write read) (htail : shape.tail = shape) :
    ReadsBack shape (fun values => array (values.map write)) (readArray read) where
  read_write values := by
    simp only [readArray]
    induction values with
    | nil => rfl
    | cons value values ih => simp [List.mapM_cons, hitem.read_write, ih]
  write_ne_null _ := Json.noConfusion
  isPlain values := by
    change ItemsArePlain (values.map write) shape
    induction values with
    | nil => exact trivial
    | cons value values ih =>
        refine ⟨hitem.isPlain value, ?_, ?_⟩
        · exact fun _ => htail.symm ▸ isComplete_of_tail_eq htail
        · rw [htail]
          exact ih

end

/-! ## Fields -/

/-- The fields of a record in their order, each with its value if it is written. -/
abbrev Slots := List (String × Option Json)

namespace Slots

/-- The members that are written. -/
def members : Slots → List (Option String × Json)
  | [] => []
  | (name, value?) :: slots => optionalMember name value? ++ members slots

/-- The fields that are found when the members are read. -/
def fields : Slots → Fields
  | [] => []
  | (name, value?) :: slots => (value?.map (name, ·)).toList ++ fields slots

section

variable {slots : Slots} {names : List String} {name : String}

theorem lookup_eq_none (hname : name ∉ slots.map Prod.fst) : slots.lookup name = none := by
  rw [List.lookup_eq_none_iff]
  intro slot hslot
  rw [bne_iff_ne]
  rintro rfl
  exact hname (List.mem_map_of_mem hslot)

/-- A field is found if it was written. -/
theorem lookup_fields (hnodup : (slots.map Prod.fst).Nodup) (name : String) :
    (fields slots).lookup name = (slots.lookup name).join := by
  induction slots with
  | nil => rfl
  | cons slot slots ih =>
      obtain ⟨first, value?⟩ := slot
      obtain ⟨hnew, hrest⟩ := List.nodup_cons.mp hnodup
      by_cases hname : name = first
      · subst hname
        cases value? with
        | none => simp [fields, ih hrest, lookup_eq_none hnew]
        | some value => simp [fields]
      · have hne : (name == first) = false := by simpa using hname
        cases value? with
        | none => simp [fields, List.lookup_cons, hne, ih hrest]
        | some value => simp [fields, List.lookup_cons, hne, ih hrest]

/-- Of known names that differ, all that are written are found. -/
theorem knownMembers_members (hnodup : (slots.map Prod.fst).Nodup)
    (hknown : ∀ slot ∈ slots, slot.1 ∈ names) :
    knownMembers names (members slots) = some (fields slots) := by
  induction slots with
  | nil => rfl
  | cons slot slots ih =>
      obtain ⟨first, value?⟩ := slot
      obtain ⟨hnew, hrest⟩ := List.nodup_cons.mp hnodup
      obtain ⟨hfirst, hothers⟩ := List.forall_mem_cons.mp hknown
      have hslots := ih hrest hothers
      cases value? with
      | none => exact hslots
      | some value =>
          have hmissing : (fields slots).lookup first = none := by
            rw [lookup_fields hrest, lookup_eq_none hnew]
            rfl
          simp [members, fields, optionalMember, member, knownMembers, hslots, hmissing, hfirst]

theorem isPlain_object {shape : Shape}
    (hplain : ∀ slot ∈ slots, ∀ value ∈ slot.2, value.IsPlain (shape.member (some slot.1))) :
    (object (members slots)).IsPlain shape := by
  change MembersArePlain (members slots) shape
  induction slots with
  | nil => exact trivial
  | cons slot slots ih =>
      obtain ⟨first, value?⟩ := slot
      obtain ⟨hfirst, hothers⟩ := List.forall_mem_cons.mp hplain
      cases value? with
      | none => exact ih hothers
      | some value => exact ⟨hfirst value rfl, ih hothers⟩

end

/-- Whether the slots are those of a record with the given layout, in which no name occurs
twice. -/
structure Fill (slots : Slots) (layout : List (String × Shape)) : Prop where
  names_eq : slots.map Prod.fst = layout.map Prod.fst
  nodup : (layout.map Prod.fst).Nodup

namespace Fill

variable {slots : Slots} {layout : List (String × Shape)}

/-- The fields of the object are those that were written for it. -/
theorem fields?_object (hfill : slots.Fill layout) :
    (object slots.members).fields? layout = some slots.fields := by
  apply knownMembers_members (hfill.names_eq ▸ hfill.nodup)
  intro slot hslot
  rw [← hfill.names_eq]
  exact List.mem_map_of_mem hslot

theorem lookup_fields (hfill : slots.Fill layout) (name : String) :
    slots.fields.lookup name = (slots.lookup name).join :=
  Slots.lookup_fields (hfill.names_eq ▸ hfill.nodup) name

end Fill

end Slots

namespace ReadsBack

variable {shape : Shape} {write : α → Json} {read : Json → Option α} {fields : Fields}
  {name : String}

/-- A field that is always written is read. -/
theorem required_eq (hback : ReadsBack shape write read) {value : α}
    (hfield : fields.lookup name = some (write value)) :
    fields.required name read = some value := by
  simp [Fields.required, hfield, hback.read_write]

/-- A field that is written as null, or not at all, is read as absent. -/
theorem optional_eq (hback : ReadsBack shape write read) {value? : Option α}
    (hfield : fields.lookup name = value?.map write ∨
      fields.lookup name = some ((value?.map write).getD null)) :
    fields.optional name read = some value? := by
  unfold Fields.optional
  cases value? with
  | none =>
      rcases hfield with hfield | hfield
      · rw [hfield]
        rfl
      · rw [hfield]
        rfl
  | some value =>
      have hvalue : fields.lookup name = some (write value) := hfield.elim id id
      rw [hvalue]
      split
      · next hnone => cases hnone
      · next hnull => exact absurd (Option.some.inj hnull) (hback.write_ne_null value)
      · next hsome =>
        cases hsome
        rw [hback.read_write]
        rfl

theorem isPlain_some (hback : ReadsBack shape write read) (value : α) :
    ∀ json ∈ some (write value), json.IsPlain shape := by
  rintro _ ⟨⟩
  exact hback.isPlain value

theorem isPlain_map (hback : ReadsBack shape write read) (value? : Option α) :
    ∀ json ∈ value?.map write, json.IsPlain shape := by
  cases value? with
  | none => exact nofun
  | some value => exact hback.isPlain_some value

theorem isPlain_nullable (hback : ReadsBack shape write read) (value? : Option α) :
    ∀ json ∈ some ((value?.map write).getD null), json.IsPlain shape := by
  cases value? with
  | none =>
      rintro _ ⟨⟩
      exact trivial
  | some value => exact hback.isPlain_some value

end ReadsBack

end CallTrace.Json
