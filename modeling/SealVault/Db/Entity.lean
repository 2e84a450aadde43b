import Mathlib
import SealVault.Rust

/-! Content-addressed entities. An entity kind names itself with an `EntityName` and
lists its unique columns; the derivation hashes the two into the row's primary key.
A table is a list of rows whose primary keys are distinct, so that no value of `Table`
breaks the key constraint, and `diesel`'s inserts are the two ways of adding a row to it:
the plain one fails on a taken key, the one `on_conflict_do_nothing` leaves the table as it
was. `innerJoin` is the join the queries across tables are built from. -/
namespace SealVault.Db

/-- Modelled from the spec: one tag per entity kind that uses content-addressed ids, the
tag namespacing the hash input. These are the kinds of this repository. -/
inductive EntityName where
  | accountPicture
  | dapp
  deriving DecidableEq, Repr

/-- `DeriveDeterministicId`: the entity name and the bytes of the unique columns, in the
order the kind always uses. -/
class DeriveDeterministicId (α : Type) where
  entityName : α → EntityName
  uniqueColumns : α → List (List UInt8)

/-- `deterministic_id()`, given the derivation `derive(namespace, unique_keys)`. The spec
gives the derivation no failure path, so the `?` after the call never leaves early. -/
def deterministicId {α DeterministicId : Type} [DeriveDeterministicId α]
    (derive : EntityName → List (List UInt8) → DeterministicId) (self : α) : DeterministicId :=
  derive (DeriveDeterministicId.entityName self) (DeriveDeterministicId.uniqueColumns self)

/-- The failures of `diesel` the models meet: a write that takes a primary key already in
the table, and a `first` that finds no row. -/
inductive DbError where
  | uniqueViolation
  | notFound
  deriving DecidableEq, Repr

/-- A table keyed by `key`, its primary key: no two rows share one. -/
structure Table (Row Key : Type) (key : Row → Key) where
  rows : List Row
  nodup : (rows.map key).Nodup

/-- The conversion the examples use for a database error. The code's own
`From<diesel::result::Error> for Error` is not in this part of the repository; every theorem
takes the conversion as a parameter. -/
instance : Rust.From DbError Rust.Error where
  convert
    | .uniqueViolation => .fatal "UNIQUE constraint failed"
    | .notFound => .fatal "Record not found"

namespace Table
variable {Row Key : Type} {key : Row → Key}

theorem ext {t t' : Table Row Key key} (h : t.rows = t'.rows) : t = t' := by
  cases t; cases t'; cases h; rfl

variable [DecidableEq Key]

/-- `insert_into(table).values(row).execute(conn)`. -/
def insert (t : Table Row Key key) (row : Row) : Except DbError (Table Row Key key) :=
  if h : key row ∈ t.rows.map key then .error .uniqueViolation
  else .ok ⟨t.rows ++ [row], by
    rw [List.map_append]
    exact t.nodup.append (List.nodup_singleton _) (List.disjoint_singleton.2 h)⟩

/-- The same insert with `.on_conflict_do_nothing()`. -/
def insertOnConflictDoNothing (t : Table Row Key key) (row : Row) : Table Row Key key :=
  match t.insert row with
  | .ok t' => t'
  | .error _ => t

/-- `filter(key.eq(k)).first(conn)`. -/
def first (t : Table Row Key key) (k : Key) : Except DbError Row :=
  match t.rows.find? (key · = k) with
  | some row => .ok row
  | none => .error .notFound

theorem insert_eq_error_iff (t : Table Row Key key) (row : Row) (e : DbError) :
    t.insert row = .error e ↔ key row ∈ t.rows.map key ∧ e = .uniqueViolation := by
  unfold insert
  split <;> simp_all [eq_comm]

theorem insert_eq_ok_iff (t t' : Table Row Key key) (row : Row) :
    t.insert row = .ok t' ↔ key row ∉ t.rows.map key ∧ t'.rows = t.rows ++ [row] := by
  unfold insert
  split
  · simp_all
  · next h => exact ⟨fun he => by cases he; exact ⟨h, rfl⟩,
      fun ⟨_, he⟩ => by cases t'; cases he; rfl⟩

@[simp] theorem insertOnConflictDoNothing_rows (t : Table Row Key key) (row : Row) :
    (t.insertOnConflictDoNothing row).rows =
      if key row ∈ t.rows.map key then t.rows else t.rows ++ [row] := by
  unfold insertOnConflictDoNothing
  split
  · next h =>
    obtain ⟨hk, hr⟩ := (insert_eq_ok_iff _ _ _).1 h
    rw [hr, if_neg hk]
  · next h => rw [if_pos ((insert_eq_error_iff _ _ _).1 h).1]

/-- The rows already in a table stay as they are. -/
theorem rows_prefix_insertOnConflictDoNothing (t : Table Row Key key) (row : Row) :
    t.rows <+: (t.insertOnConflictDoNothing row).rows := by
  rw [insertOnConflictDoNothing_rows]
  split
  exacts [List.prefix_refl _, List.prefix_append _ _]

theorem find?_key_eq_some {rows : List Row} (hnd : (rows.map key).Nodup) {row : Row}
    (hr : row ∈ rows) : rows.find? (key · = key row) = some row := by
  induction rows with
  | nil => cases hr
  | cons a rows ih =>
    rw [List.map_cons, List.nodup_cons] at hnd
    rcases List.mem_cons.1 hr with rfl | hr
    · simp
    · have : key a ≠ key row := fun h => hnd.1 (h ▸ List.mem_map_of_mem key hr)
      simp [this, ih hnd.2 hr]

/-- A row is found by its key, and only by it. -/
theorem first_eq_ok_iff (t : Table Row Key key) (k : Key) (row : Row) :
    t.first k = .ok row ↔ row ∈ t.rows ∧ key row = k := by
  unfold first
  constructor
  · split
    · next h =>
      rintro ⟨⟩
      exact ⟨List.mem_of_find?_eq_some h, by simpa using List.find?_some h⟩
    · rintro ⟨⟩
  · rintro ⟨hr, rfl⟩
    rw [find?_key_eq_some t.nodup hr]

end Table

end SealVault.Db
