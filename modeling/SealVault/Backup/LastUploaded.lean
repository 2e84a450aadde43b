import SealVault.Backup.Metadata

/-! `last_uploaded_backup`. The resolver reads the backup version and timestamp in one
deferred transaction, rebuilds the name the backup was written under, and trusts the
timestamp only when backup storage reports that exact name uploaded. It is written against
the `CoreResourcesI` interface; `recorded` runs it against fixed collaborators and keeps a
log of each call it makes. -/
namespace SealVault.Backup.LastUploaded
open SealVault.Rust SealVault.Backup.Version SealVault.Backup.FileName SealVault.Backup.Metadata

/-- What `last_uploaded_backup` uses of `CoreResourcesI`: the pool's deferred transaction,
the two local-settings reads made inside it, the device id, and the storage's
`is_uploaded`. -/
structure CoreResourcesI (m : Type → Type) (DeviceIdentifier : Type) where
  deferredTransaction : {α : Type} → m α → m α
  fetchBackupTimestamp : m (Option String)
  fetchBackupVersion : m BackupVersion
  deviceId : DeviceIdentifier
  isUploaded : String → m Bool

section
variable {m : Type → Type} [Monad m] [MonadExceptOf Error m]
  {BackupScheme OperatingSystem DeviceIdentifier DateTime : Type}
  [ToString BackupScheme] [ToString OperatingSystem] [ToString DeviceIdentifier]
  [Inhabited OperatingSystem]

/-- Get the last backup time if any as unix timestamp. Returns `none` if there are no
backups or the last backup hasn't been uploaded yet to cloud storage. `backupSchemeV1` is
`BackupScheme::V1`; `parseRfc3339Timestamp` and `unixSeconds` are `parse_rfc3339_timestamp`
and `DateTime::timestamp`. -/
def lastUploadedBackup (backupSchemeV1 : BackupScheme)
    (parseRfc3339Timestamp : String → Except Error DateTime) (unixSeconds : DateTime → I64)
    (resources : CoreResourcesI m DeviceIdentifier) : m (Option I64) := do
  let (backupVersion, datestamp) ← resources.deferredTransaction do
    let timestamp ← resources.fetchBackupTimestamp
    let backupVersion ← resources.fetchBackupVersion
    pure (backupVersion, timestamp)
  match datestamp with
  | none => pure none
  | some datestamp =>
    let datetime ← liftExcept (parseRfc3339Timestamp datestamp)
    let timestamp := unixSeconds datetime
    let os : OperatingSystem := default
    let backupFileName :=
      getBackupFileName backupSchemeV1 os timestamp resources.deviceId backupVersion
    let isUploaded ← resources.isUploaded backupFileName
    if isUploaded then pure (some timestamp) else pure none

end

/-- The calls the resolver makes on its resources. -/
inductive Call where
  | beginDeferredTransaction
  | fetchBackupTimestamp
  | fetchBackupVersion
  | commit
  | isUploaded (name : String)
  deriving DecidableEq

/-- A run that keeps the calls made so far. -/
abbrev Recorded := StateT (List Call) (Except Error)

def call (c : Call) : Recorded Unit := modify (· ++ [c])

/-- The resources of one run: the stored timestamp and version the transaction reads, the
device id, and the storage's answer for each name. -/
def recorded {DeviceIdentifier : Type} (backupTimestamp : Option String)
    (backupVersion : BackupVersion) (deviceId : DeviceIdentifier) (uploaded : String → Bool) :
    CoreResourcesI Recorded DeviceIdentifier where
  deferredTransaction tx := do
    call .beginDeferredTransaction
    let r ← tx
    call .commit
    pure r
  fetchBackupTimestamp := do call .fetchBackupTimestamp; pure backupTimestamp
  fetchBackupVersion := do call .fetchBackupVersion; pure backupVersion
  deviceId := deviceId
  isUploaded name := do call (.isUploaded name); pure (uploaded name)

/-- The calls of the transaction that reads the version and the timestamp. -/
def transactionCalls : List Call :=
  [.beginDeferredTransaction, .fetchBackupTimestamp, .fetchBackupVersion, .commit]

section
variable {BackupScheme OperatingSystem DeviceIdentifier DeviceName DateTime : Type}
  [ToString BackupScheme] [ToString OperatingSystem] [ToString DeviceIdentifier]
  [Inhabited OperatingSystem]

/-- Every run of the resolver. With no stored timestamp it answers `none` after the
transaction. Otherwise, once the timestamp parses to `t`, it asks storage about one name,
the file name of the metadata with scheme `V1`, the default OS, timestamp `t`, the device id
and the stored version, and answers `some t` exactly when storage confirms that name. -/
theorem lastUploadedBackup_run (backupSchemeV1 : BackupScheme)
    (parseRfc3339Timestamp : String → Except Error DateTime) (unixSeconds : DateTime → I64)
    (backupTimestamp : Option String) (backupVersion : BackupVersion)
    (deviceId : DeviceIdentifier) (uploaded : String → Bool) (deviceName : DeviceName)
    (kdfNonce : String) :
    (@lastUploadedBackup Recorded _ _ BackupScheme OperatingSystem DeviceIdentifier DateTime _ _ _ _
      backupSchemeV1 parseRfc3339Timestamp unixSeconds
      (recorded backupTimestamp backupVersion deviceId uploaded)).run [] =
      match backupTimestamp with
      | none => .ok (none, transactionCalls)
      | some datestamp =>
        match parseRfc3339Timestamp datestamp with
        | .error e => .error e
        | .ok datetime =>
          let metadata : BackupMetadata BackupScheme OperatingSystem DeviceIdentifier DeviceName :=
            ⟨backupSchemeV1, backupVersion, unixSeconds datetime, deviceId, deviceName, default,
              kdfNonce⟩
          .ok (if uploaded metadata.backupFileName then some (unixSeconds datetime) else none,
            transactionCalls ++ [.isUploaded metadata.backupFileName]) := by
  cases backupTimestamp with
  | none => rfl
  | some datestamp =>
    cases h : parseRfc3339Timestamp datestamp with
    | error e =>
      simp only [lastUploadedBackup, recorded, call, bind_pure_comp, Functor.map_map,
        bind_map_left, bind_assoc, liftExcept, h, StateT.run_bind, StateT.run_modify, pure_bind]
      rfl
    | ok datetime =>
      cases hu : uploaded (getBackupFileName backupSchemeV1 (default : OperatingSystem)
        (unixSeconds datetime) deviceId backupVersion) <;>
      simp only [lastUploadedBackup, recorded, call, bind_pure_comp, Functor.map_map,
        bind_map_left, bind_assoc, liftExcept, h, pure_bind, hu, Bool.false_eq_true, ↓reduceIte,
        StateT.run_bind, StateT.run_modify, StateT.run_map, map_pure, List.nil_append,
        List.append_assoc, List.singleton_append, BackupMetadata.backupFileName, transactionCalls,
        List.cons_append] <;> rfl

end

end SealVault.Backup.LastUploaded
