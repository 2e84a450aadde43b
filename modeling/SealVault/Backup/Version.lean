import SealVault.Rust
import SealVault.Serde

/-! `BackupVersion` is an `i64` that is never negative: the database has no unsigned 64-bit
integers. Both ways in, `TryFrom<i64>` and `FromStr`, end in the sign check, so the
invariant is a field of the structure. -/
namespace SealVault.Backup.Version
open SealVault.Rust SealVault.Serde

/-- The backup version from the database. Monotonically increasing integer within a device. -/
structure BackupVersion where
  val : I64
  nonneg : 0 ≤ val.val
  deriving DecidableEq

/-- The derived `Display` writes the inner `i64`. -/
instance : ToString BackupVersion := ⟨fun v => toString v.val⟩

@[simp] theorem toString_backupVersion (v : BackupVersion) : toString v = toString v.val := rfl

/-- `TryFrom<i64>`. -/
def BackupVersion.tryFrom (value : I64) : Except Error BackupVersion :=
  if h : value.val < 0 then .error (.fatal "Negative backup version")
  else .ok ⟨value, by omega⟩

/-- `FromStr`: text that is not an `i64` is a retriable error, a negative one a fatal. -/
def BackupVersion.fromStr (s : String) : Except Error BackupVersion := do
  let value ← (I64.fromStr s).mapError fun err =>
    .retriable s!"Failed to parse str to backup version with error \x27{err}\x27"
  BackupVersion.tryFrom value

instance : FromStr BackupVersion := ⟨Error, BackupVersion.fromStr⟩

/-- `#[serde(try_from = "i64")]`: an `i64`, then `try_from`, its error raised as
`Error::custom`. -/
instance : Deserialize BackupVersion where
  deserialize j := do
    let value : I64 ← Deserialize.deserialize j
    (BackupVersion.tryFrom value).mapError .custom

theorem BackupVersion.ext {v w : BackupVersion} (h : v.val = w.val) : v = w := by
  cases v; cases w; cases h; rfl

theorem tryFrom_eq_ok_iff (value : I64) (v : BackupVersion) :
    BackupVersion.tryFrom value = .ok v ↔ v.val = value := by
  unfold BackupVersion.tryFrom
  split
  · next h => exact iff_of_false (by simp) fun hv => by have := v.nonneg; rw [hv] at this; omega
  · exact ⟨fun h => by cases h; rfl, fun h => congrArg Except.ok (BackupVersion.ext h.symm)⟩

/-- The one error of `try_from` is the fatal one, for a negative value. -/
theorem tryFrom_eq_error_iff (value : I64) (e : Error) :
    BackupVersion.tryFrom value = .error e ↔
      value.val < 0 ∧ e = .fatal "Negative backup version" := by
  unfold BackupVersion.tryFrom
  split <;> simp_all [eq_comm]

/-- What `from_str` does with each outcome of the integer parse. -/
theorem fromStr_eq (s : String) :
    BackupVersion.fromStr s =
      match I64.fromStr s with
      | .error err =>
        .error (.retriable s!"Failed to parse str to backup version with error \x27{err}\x27")
      | .ok value => BackupVersion.tryFrom value := by
  unfold BackupVersion.fromStr
  cases I64.fromStr s <;> rfl

theorem fromStr_eq_ok_iff (s : String) (v : BackupVersion) :
    BackupVersion.fromStr s = .ok v ↔ I64.fromStr s = .ok v.val := by
  rw [fromStr_eq]
  cases I64.fromStr s with
  | error e => simp
  | ok x =>
    show BackupVersion.tryFrom x = .ok v ↔ _
    simp only [tryFrom_eq_ok_iff, Except.ok.injEq]
    exact eq_comm

/-- Every outcome of `from_str`, over every text. It succeeds exactly on the texts that denote
a non-negative `i64`, signed or with leading zeros as `i64::from_str` allows, `-0` among them;
it fails fatally exactly on those that denote a negative `i64`; every other text fails
retriably, with the integer parser's error in the message. -/
theorem fromStr_outcome_iff (s : String) :
    (∀ v : BackupVersion,
      BackupVersion.fromStr s = .ok v ↔ literalValue s.data = some v.val.val) ∧
    (∀ m, BackupVersion.fromStr s = .error (.fatal m) ↔
      m = "Negative backup version" ∧ ∃ n, literalValue s.data = some n ∧ -2 ^ 63 ≤ n ∧ n < 0) ∧
    (∀ m, BackupVersion.fromStr s = .error (.retriable m) ↔
      (∀ n, literalValue s.data = some n → n < -2 ^ 63 ∨ 2 ^ 63 ≤ n) ∧
      ∃ err, I64.fromStr s = .error err ∧
        m = s!"Failed to parse str to backup version with error \x27{err}\x27") := by
  refine ⟨fun v => (fromStr_eq_ok_iff s v).trans (fromStr_eq_ok_iff_literalValue s v.val),
    fun m => ?_, fun m => ?_⟩ <;> rw [fromStr_eq]
  · cases h : I64.fromStr s with
    | error e =>
      have hr := (fromStr_error_iff_literalValue s).1 ⟨e, h⟩
      refine iff_of_false (fun he => by cases he) fun ⟨_, n, hn, hlo, hneg⟩ => ?_
      have := hr n hn
      omega
    | ok x =>
      have hx := (fromStr_eq_ok_iff_literalValue s x).1 h
      have := x.le_val
      show BackupVersion.tryFrom x = _ ↔ _
      rw [tryFrom_eq_error_iff, hx]
      simp only [Error.fatal.injEq, Option.some.injEq, exists_eq_left']
      exact ⟨fun ⟨hneg, hm⟩ => ⟨hm, this, hneg⟩, fun ⟨hm, _, hneg⟩ => ⟨hneg, hm⟩⟩
  · cases h : I64.fromStr s with
    | error e =>
      simp only [Except.error.injEq, Error.retriable.injEq, exists_eq_left']
      exact ⟨fun hm => ⟨(fromStr_error_iff_literalValue s).1 ⟨e, h⟩, hm.symm⟩,
        fun ⟨_, hm⟩ => hm.symm⟩
    | ok x =>
      show BackupVersion.tryFrom x = _ ↔ _
      rw [tryFrom_eq_error_iff]
      simp

/-- `Display` then `from_str` gives the version back. -/
theorem fromStr_toString (v : BackupVersion) :
    BackupVersion.fromStr (toString v) = .ok v := by
  rw [fromStr_eq, toString_backupVersion, fromStr_toString_of_nonneg v.nonneg]
  exact (tryFrom_eq_ok_iff _ _).2 rfl

/-- `#[serde(into = "i64")]` writes the `i64`, which reads back. -/
@[simp] theorem deserialize_backupVersion (v : BackupVersion) :
    Deserialize.deserialize (.int v.val.val) = .ok v := by
  show (Deserialize.deserialize (.int v.val.val) >>= fun value : I64 =>
    (BackupVersion.tryFrom value).mapError DeError.custom) = _
  rw [deserialize_int]
  show (BackupVersion.tryFrom v.val).mapError DeError.custom = _
  rw [(tryFrom_eq_ok_iff v.val v).2 rfl]
  rfl

end SealVault.Backup.Version
