import SealVault.Rust
import SealVault.CanonicalJson

/-! The deserializing half of serde, as `#[derive(Deserialize)]` and `serde_json` use it: the
`Deserialize` trait from the data model `Json`, the errors of `serde::de::Error`, and the
visitor the derive generates for a struct with named fields. `visitMap_finish_eq_ok_iff` says
what the visitor accepts from an object: every field exactly once, whatever the order and
whatever other keys it holds, each decoding. -/
namespace SealVault.Serde
open SealVault.Rust SealVault.CanonicalJson

/-- `serde::de::Error`, by the constructor that raised it and what it expected. -/
inductive DeError where
  /-- `Error::custom`, here with the error of a failed `try_from`. -/
  | custom (err : Error)
  | invalidType (expected : String)
  | invalidValue (expected : String)
  | invalidLength (len : Nat) (expected : String)
  | missingField (field : String)
  | duplicateField (field : String)
  /-- `serde_json`'s refusal of an array with elements left over. -/
  | trailingCharacters
  deriving DecidableEq, Repr

/-- `serde::Deserialize`, from the data model. -/
class Deserialize (α : Type) where
  deserialize : Json → Except DeError α

/-- `i64`. `serde_json` reads an integer within `i64` or `u64` as such and any other number as
a float, which is of the wrong type. -/
instance : Deserialize I64 where
  deserialize
    | .int n =>
      if h : -2 ^ 63 ≤ n ∧ n < 2 ^ 63 then .ok ⟨n, h.1, h.2⟩
      else if 0 ≤ n ∧ n < 2 ^ 64 then .error (.invalidValue "i64")
      else .error (.invalidType "i64")
    | _ => .error (.invalidType "i64")

instance : Deserialize String where
  deserialize
    | .str s => .ok s
    | _ => .error (.invalidType "a string")

@[simp] theorem deserialize_int (x : I64) : Deserialize.deserialize (.int x.val) = .ok x := by
  show (if h : -2 ^ 63 ≤ x.val ∧ x.val < 2 ^ 63 then _ else _) = _
  rw [dif_pos ⟨x.le_val, x.val_lt⟩]

@[simp] theorem deserialize_str (s : String) : Deserialize.deserialize (.str s) = .ok s := rfl

/-- A type whose `Deserialize` reads back what its `Serialize` writes. -/
structure RoundTrip (α : Type) [Serialize α] [Deserialize α] : Prop where
  deserialize_serialize : ∀ x : α, Deserialize.deserialize (Serialize.serialize x) = .ok x

/-- The values of an object's members with the given key, in order. -/
def valuesOf (entries : List (String × Json)) (key : String) : List Json :=
  (entries.filter fun e => e.1 = key).map Prod.snd

@[simp] theorem valuesOf_nil (key : String) : valuesOf [] key = [] := rfl

theorem valuesOf_cons (k key : String) (v : Json) (es : List (String × Json)) :
    valuesOf ((k, v) :: es) key = if k = key then v :: valuesOf es key else valuesOf es key := by
  by_cases h : k = key <;> simp [valuesOf, List.filter_cons, h]

/-- A struct with named fields as `#[derive(Deserialize)]` sees it: its name, and each field's
name, type and deserializer, in declaration order. -/
structure Fields (n : Nat) where
  structName : String
  name : Fin n → String
  Ty : Fin n → Type
  deserialize : (i : Fin n) → Json → Except DeError (Ty i)

namespace Fields
variable {n : Nat} (F : Fields n)

/-- The visitor's locals `__field0`, `__field1`, …: one `Option` per field. -/
abbrev Slots : Type := (i : Fin n) → Option (F.Ty i)

/-- The generated `__Field` identifier: the first field the key names; `none` is `__ignore`. -/
def index? (key : String) : Option (Fin n) :=
  (List.finRange n).find? fun i => F.name i = key

/-- One turn of `visit_map`'s `while let Some(key) = map.next_key()?` loop: an unknown key's
value is skipped as `IgnoredAny`, a field seen before is a duplicate, and a new field is
decoded into its slot. -/
def visitEntry (slots : F.Slots) (entry : String × Json) : Except DeError F.Slots :=
  match F.index? entry.1 with
  | none => pure slots
  | some i =>
    if (slots i).isSome then .error (.duplicateField (F.name i))
    else do
      let value ← F.deserialize i entry.2
      pure (Function.update slots i (some value))

/-- `visit_map`'s loop over the members of an object, from no field set. -/
def visitMap (entries : List (String × Json)) : Except DeError F.Slots :=
  entries.foldlM F.visitEntry fun _ => none

/-- One turn of `visit_seq`: field `i` from the element at its position, or
`invalid_length` when the array has ended. -/
def visitElement (elems : List Json) (slots : F.Slots) (i : Fin n) : Except DeError F.Slots :=
  match elems[i.val]? with
  | none => .error (.invalidLength i
      ("struct " ++ F.structName ++ " with " ++ toString n ++ " elements"))
  | some elem => do
    let value ← F.deserialize i elem
    pure (Function.update slots i (some value))

/-- `visit_seq`: the fields in declaration order from the elements of an array, then
`serde_json`'s refusal of elements left over. -/
def visitSeq (elems : List Json) : Except DeError F.Slots := do
  let slots ← (List.finRange n).foldlM (F.visitElement elems) fun _ => none
  if n < elems.length then .error .trailingCharacters else pure slots

/-- After its loop, `visit_map` takes the fields in declaration order and fails with
`missing_field` at the first one unset. -/
def finish (slots : F.Slots) : Except DeError ((i : Fin n) → F.Ty i) :=
  match h : (List.finRange n).find? fun i => (slots i).isNone with
  | some i => .error (.missingField (F.name i))
  | none => .ok fun i => (slots i).get (Option.ne_none_iff_isSome.1 (by
      simpa using List.find?_eq_none.1 h i (List.mem_finRange i)))

/-- `serde_json`'s `deserialize_struct`: an array goes to `visit_seq`, an object to
`visit_map`, anything else is of the wrong type. -/
def deserializeStruct : Json → Except DeError ((i : Fin n) → F.Ty i)
  | .arr elems => F.visitSeq elems >>= F.finish
  | .obj entries => F.visitMap entries >>= F.finish
  | _ => .error (.invalidType ("struct " ++ F.structName))

/-! ### What the map visitor accepts -/

theorem finish_eq_ok_iff (slots : F.Slots) (t : (i : Fin n) → F.Ty i) :
    F.finish slots = .ok t ↔ ∀ i, slots i = some (t i) := by
  unfold finish
  split
  · next i h =>
    refine iff_of_false (fun h => by cases h) fun ht => ?_
    have := List.find?_some h
    simp [ht i] at this
  · refine ⟨fun h i => ?_, fun ht => congrArg Except.ok (funext fun i => ?_)⟩
    · cases h
      simp
    · simp [ht i]

variable {F}

theorem index?_eq_some_iff (hinj : Function.Injective F.name) (key : String) (i : Fin n) :
    F.index? key = some i ↔ F.name i = key := by
  unfold index?
  constructor
  · intro h
    simpa using List.find?_some h
  · rintro rfl
    cases h : (List.finRange n).find? fun j => F.name j = F.name i with
    | none => simpa using List.find?_eq_none.1 h i (List.mem_finRange i)
    | some j =>
      have := List.find?_some h
      simp only [decide_eq_true_eq] at this
      rw [hinj this]

theorem index?_eq_none_iff (key : String) : F.index? key = none ↔ ∀ i, F.name i ≠ key := by
  simp only [index?, List.find?_eq_none, List.mem_finRange, forall_const, decide_eq_true_eq,
    ne_eq]

/-- What the loop does to one field's slot, given the values of the members named after the
field: nothing when there is none; with one, an unset slot takes its decoded value. -/
def SlotStep (i : Fin n) (before : Option (F.Ty i)) (values : List Json)
    (after : Option (F.Ty i)) : Prop :=
  values = [] ∧ after = before ∨
    ∃ v x, values = [v] ∧ before = none ∧ F.deserialize i v = .ok x ∧ after = some x

theorem slotStep_nil (i : Fin n) (before after : Option (F.Ty i)) :
    SlotStep i before [] after ↔ after = before :=
  ⟨(fun | .inl ⟨_, h⟩ => h | .inr ⟨_, _, h, _⟩ => nomatch h), fun h => .inl ⟨rfl, h⟩⟩

theorem slotStep_some (i : Fin n) (x : F.Ty i) (vs : List Json) (after : Option (F.Ty i)) :
    SlotStep i (some x) vs after ↔ vs = [] ∧ after = some x :=
  ⟨(fun | .inl h => h | .inr ⟨_, _, _, h, _⟩ => nomatch h), .inl⟩

theorem slotStep_none_cons (i : Fin n) (v : Json) (vs : List Json) (after : Option (F.Ty i)) :
    SlotStep i none (v :: vs) after ↔
      vs = [] ∧ ∃ x, F.deserialize i v = .ok x ∧ after = some x := by
  refine ⟨(fun | .inl ⟨h, _⟩ => nomatch h | .inr ⟨_, x, h, _, hx, ha⟩ => ?_),
    fun ⟨hvs, x, hx, ha⟩ => .inr ⟨v, x, hvs ▸ rfl, rfl, hx, ha⟩⟩
  cases h
  exact ⟨rfl, x, hx, ha⟩

/-- The loop of `visit_map`, from any slots: it succeeds exactly when no field is met twice,
counting the slots already set, and every field met decodes; each slot then holds its
member's value. -/
theorem foldlM_visitEntry_eq_ok_iff (hinj : Function.Injective F.name)
    (entries : List (String × Json)) (slots slots' : F.Slots) :
    entries.foldlM F.visitEntry slots = .ok slots' ↔
      ∀ i, SlotStep i (slots i) (valuesOf entries (F.name i)) (slots' i) := by
  induction entries generalizing slots with
  | nil =>
    simp only [List.foldlM_nil, valuesOf_nil, slotStep_nil, pure, Except.pure, Except.ok.injEq]
    exact ⟨fun h _ => h ▸ rfl, fun h => (funext h).symm⟩
  | cons entry entries ih =>
    obtain ⟨k, v⟩ := entry
    simp only [List.foldlM_cons, valuesOf_cons]
    cases hk : F.index? k with
    | none =>
      have hne := (index?_eq_none_iff k).1 hk
      simp only [visitEntry, hk, pure, Except.pure, bind, Except.bind, ih]
      exact forall_congr' fun i => by rw [if_neg fun h => hne i h.symm]
    | some j =>
      obtain rfl := (index?_eq_some_iff hinj k j).1 hk
      simp only [visitEntry, hk]
      cases hj : slots j with
      | some y =>
        refine iff_of_false (fun h => by cases h) fun h => ?_
        have := (slotStep_some j y _ _).1 (hj ▸ h j)
        simp at this
      | none =>
        cases hd : F.deserialize j v with
        | error e =>
          refine iff_of_false (fun h => by cases h) fun h => ?_
          have := h j
          rw [hj, if_pos rfl, slotStep_none_cons, hd] at this
          simp at this
        | ok x =>
          simp only [Option.isSome_none, Bool.false_eq_true, if_false, bind, Except.bind, pure,
            Except.pure, ih]
          refine forall_congr' fun i => ?_
          by_cases hij : i = j
          · subst hij
            rw [Function.update_same, if_pos rfl, hj, slotStep_some, slotStep_none_cons, hd]
            simp
          · have hname : F.name j ≠ F.name i := fun h => hij (hinj h).symm
            rw [Function.update_noteq hij, if_neg hname]

/-- What `deserialize_struct` accepts from an object: every field exactly once, among any
other keys and in any order, each decoding; the result holds the decoded values. -/
theorem visitMap_finish_eq_ok_iff (hinj : Function.Injective F.name)
    (entries : List (String × Json)) (t : (i : Fin n) → F.Ty i) :
    F.deserializeStruct (.obj entries) = .ok t ↔
      ∀ i, ∃ v, valuesOf entries (F.name i) = [v] ∧ F.deserialize i v = .ok (t i) := by
  simp only [deserializeStruct, visitMap, bind_eq_ok_iff, foldlM_visitEntry_eq_ok_iff hinj,
    finish_eq_ok_iff]
  constructor
  · rintro ⟨slots, hstep, ht⟩ i
    rcases hstep i with ⟨-, h⟩ | ⟨v, x, hv, -, hx, h⟩
    · simp [ht i] at h
    · rw [ht i, Option.some_inj] at h
      exact ⟨v, hv, h ▸ hx⟩
  · intro h
    refine ⟨fun i => some (t i), fun i => ?_, fun _ => rfl⟩
    obtain ⟨v, hv, hx⟩ := h i
    exact .inr ⟨v, t i, hv, rfl, hx, rfl⟩

/-! ### What the sequence visitor accepts -/

end Fields

end SealVault.Serde
