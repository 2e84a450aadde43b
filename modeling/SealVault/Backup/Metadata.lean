import SealVault.Backup.FileName
import SealVault.CanonicalJson
import SealVault.Serde

/-! `BackupMetadata`, the plaintext record saved beside an encrypted backup. Its file name
is derived from five of its fields; the device name and the KDF nonce stay out of it. Its
canonical JSON, the associated data of the backup's encryption, holds all seven, so that
the bytes determine the record (`canonicalJson_injective`). -/
namespace SealVault.Backup.Metadata
open SealVault.Rust SealVault.Utf8 SealVault.Backup.Version SealVault.Backup.FileName
  SealVault.CanonicalJson SealVault.Serde

/-- Saved as a plaintext json file along with the encrypted backup. -/
structure BackupMetadata (BackupScheme OperatingSystem DeviceIdentifier DeviceName : Type) where
  /-- The backup implementation version -/
  backupScheme : BackupScheme
  backupVersion : BackupVersion
  /-- Unix timestamp -/
  timestamp : I64
  deviceId : DeviceIdentifier
  deviceName : DeviceName
  operatingSystem : OperatingSystem
  /-- Base-64 encoded KDF nonce -/
  kdfNonce : String

section
variable {BackupScheme OperatingSystem DeviceIdentifier DeviceName : Type}

/-- The `TypedBuilder` of the record: an unset `timestamp` is `unix_timestamp()` at build
time, an unset `operating_system` its `Default`. -/
def BackupMetadata.build [Inhabited OperatingSystem] (unixTimestamp : I64)
    (backupScheme : BackupScheme) (backupVersion : BackupVersion) (deviceId : DeviceIdentifier)
    (deviceName : DeviceName) (kdfNonce : String) (timestamp : Option I64)
    (operatingSystem : Option OperatingSystem) :
    BackupMetadata BackupScheme OperatingSystem DeviceIdentifier DeviceName :=
  { backupScheme, backupVersion, deviceId, deviceName, kdfNonce,
    timestamp := timestamp.getD unixTimestamp
    operatingSystem := operatingSystem.getD default }

variable [ToString BackupScheme] [ToString OperatingSystem] [ToString DeviceIdentifier]

def BackupMetadata.backupFileName
    (self : BackupMetadata BackupScheme OperatingSystem DeviceIdentifier DeviceName) : String :=
  getBackupFileName self.backupScheme self.operatingSystem self.timestamp self.deviceId
    self.backupVersion

end

section
variable {BackupScheme OperatingSystem DeviceIdentifier DeviceName : Type}
  [Serialize BackupScheme] [Serialize OperatingSystem] [Serialize DeviceIdentifier]
  [Serialize DeviceName]

/-- `#[derive(Serialize)]`: the fields in declaration order, the version `into` an `i64`. -/
instance : Serialize (BackupMetadata BackupScheme OperatingSystem DeviceIdentifier DeviceName) where
  serialize m := .obj
    [("backup_scheme", Serialize.serialize m.backupScheme),
      ("backup_version", .int m.backupVersion.val.val),
      ("timestamp", .int m.timestamp.val),
      ("device_id", Serialize.serialize m.deviceId),
      ("device_name", Serialize.serialize m.deviceName),
      ("operating_system", Serialize.serialize m.operatingSystem),
      ("kdf_nonce", .str m.kdfNonce)]

/-- The canonical bytes do not depend on the order in which the fields are serialized: the
record's members, written in any other order, give the same bytes. -/
theorem canonicalJson_fieldOrder
    (m : BackupMetadata BackupScheme OperatingSystem DeviceIdentifier DeviceName)
    {es : List (String × Json)} (hes : Serialize.serialize m = .obj es)
    {es' : List (String × Json)} (hp : es'.Perm es) :
    writeValue (.obj es') = writeValue (Serialize.serialize m) := by
  obtain rfl := Json.obj.inj hes
  exact writeValue_obj_perm hp ((hp.map Prod.fst).nodup_iff.2 (by simp only [List.map]; decide))

end

/-- The spec's sample record, its version serialized before its scheme. -/
theorem canonicalJson_fieldOrder_sample :
    let m : BackupMetadata Device.BackupScheme Device.OperatingSystem Device.DeviceIdentifier
        Device.DeviceName :=
      ⟨.v1, ⟨⟨3, by omega, by omega⟩, by decide⟩, ⟨1700000000, by omega, by omega⟩, ⟨"dev123"⟩,
        ⟨"iPhone"⟩, .ios, "bm9uY2U="⟩
    Serialize.serialize m = .obj
        [("backup_scheme", .str "v1"), ("backup_version", .int 3), ("timestamp", .int 1700000000),
          ("device_id", .str "dev123"), ("device_name", .str "iPhone"),
          ("operating_system", .str "ios"), ("kdf_nonce", .str "bm9uY2U=")] ∧
      List.Perm
        ([("backup_version", .int 3), ("backup_scheme", .str "v1"), ("timestamp", .int 1700000000),
          ("device_id", .str "dev123"), ("device_name", .str "iPhone"),
          ("operating_system", .str "ios"), ("kdf_nonce", .str "bm9uY2U=")] : List (String × Json))
        [("backup_scheme", .str "v1"), ("backup_version", .int 3), ("timestamp", .int 1700000000),
          ("device_id", .str "dev123"), ("device_name", .str "iPhone"),
          ("operating_system", .str "ios"), ("kdf_nonce", .str "bm9uY2U=")] ∧
      writeValue (.obj
        [("backup_version", .int 3), ("backup_scheme", .str "v1"), ("timestamp", .int 1700000000),
          ("device_id", .str "dev123"), ("device_name", .str "iPhone"),
          ("operating_system", .str "ios"), ("kdf_nonce", .str "bm9uY2U=")]) =
        writeValue (Serialize.serialize m) :=
  ⟨rfl, .swap _ _ _, canonicalJson_fieldOrder _ rfl (.swap _ _ _)⟩

/-! ### Plain serialization

The sidecar is the record's `#[derive(Serialize)]` output, and `#[derive(Deserialize)]` reads
it back through the struct visitor of `SealVault.Serde`. -/

/-- The record's keys in declaration order, the fields' names. -/
def metadataFieldNames : Fin 7 → String :=
  !["backup_scheme", "backup_version", "timestamp", "device_id", "device_name",
    "operating_system", "kdf_nonce"]

theorem metadataFieldNames_injective : Function.Injective metadataFieldNames := by
  decide

section
variable (BackupScheme OperatingSystem DeviceIdentifier DeviceName : Type)
  [Deserialize BackupScheme] [Deserialize OperatingSystem] [Deserialize DeviceIdentifier]
  [Deserialize DeviceName]

/-- The fields of `BackupMetadata` as `#[derive(Deserialize)]` sees them. -/
def metadataFields : Fields 7 where
  structName := "BackupMetadata"
  name := metadataFieldNames
  Ty := ![BackupScheme, BackupVersion, I64, DeviceIdentifier, DeviceName, OperatingSystem,
    String]
  deserialize
    | 0 => (Deserialize.deserialize : Json → Except DeError BackupScheme)
    | 1 => (Deserialize.deserialize : Json → Except DeError BackupVersion)
    | 2 => (Deserialize.deserialize : Json → Except DeError I64)
    | 3 => (Deserialize.deserialize : Json → Except DeError DeviceIdentifier)
    | 4 => (Deserialize.deserialize : Json → Except DeError DeviceName)
    | 5 => (Deserialize.deserialize : Json → Except DeError OperatingSystem)
    | 6 => (Deserialize.deserialize : Json → Except DeError String)

variable {BackupScheme OperatingSystem DeviceIdentifier DeviceName}

/-- `#[derive(Deserialize)]`: the struct visitor over the seven fields, then the record. -/
instance : Deserialize (BackupMetadata BackupScheme OperatingSystem DeviceIdentifier DeviceName)
    where
  deserialize j := do
    let t ← (metadataFields BackupScheme OperatingSystem DeviceIdentifier
      DeviceName).deserializeStruct j
    pure ⟨t 0, t 1, t 2, t 3, t 4, t 5, t 6⟩

/-- The record's fields in declaration order. -/
def BackupMetadata.toFields
    (m : BackupMetadata BackupScheme OperatingSystem DeviceIdentifier DeviceName) :
    (i : Fin 7) → (metadataFields BackupScheme OperatingSystem DeviceIdentifier DeviceName).Ty i
  | 0 => m.backupScheme
  | 1 => m.backupVersion
  | 2 => m.timestamp
  | 3 => m.deviceId
  | 4 => m.deviceName
  | 5 => m.operatingSystem
  | 6 => m.kdfNonce

/-- What a sidecar object must hold to read back as a record: each of the seven fields exactly
once, whatever the order of the members and whatever other members there are, each decoding
to the record's value. -/
theorem deserialize_eq_ok_iff_members (es : List (String × Json))
    (m : BackupMetadata BackupScheme OperatingSystem DeviceIdentifier DeviceName) :
    Deserialize.deserialize (Json.obj es) = .ok m ↔
      (∃ v, valuesOf es "backup_scheme" = [v] ∧
        Deserialize.deserialize v = .ok m.backupScheme) ∧
      (∃ v, valuesOf es "backup_version" = [v] ∧
        Deserialize.deserialize v = .ok m.backupVersion) ∧
      (∃ v, valuesOf es "timestamp" = [v] ∧ Deserialize.deserialize v = .ok m.timestamp) ∧
      (∃ v, valuesOf es "device_id" = [v] ∧ Deserialize.deserialize v = .ok m.deviceId) ∧
      (∃ v, valuesOf es "device_name" = [v] ∧ Deserialize.deserialize v = .ok m.deviceName) ∧
      (∃ v, valuesOf es "operating_system" = [v] ∧
        Deserialize.deserialize v = .ok m.operatingSystem) ∧
      (∃ v, valuesOf es "kdf_nonce" = [v] ∧ Deserialize.deserialize v = .ok m.kdfNonce) := by
  show (metadataFields BackupScheme OperatingSystem DeviceIdentifier DeviceName).deserializeStruct
    (.obj es) >>= _ = _ ↔ _
  have hinj : Function.Injective
      (metadataFields BackupScheme OperatingSystem DeviceIdentifier DeviceName).name :=
    metadataFieldNames_injective
  rw [bind_eq_ok_iff]
  simp only [Fields.visitMap_finish_eq_ok_iff hinj]
  constructor
  · rintro ⟨t, ht, h⟩
    cases h
    exact ⟨ht 0, ht 1, ht 2, ht 3, ht 4, ht 5, ht 6⟩
  · rintro ⟨h0, h1, h2, h3, h4, h5, h6⟩
    refine ⟨m.toFields, fun i => ?_, rfl⟩
    fin_cases i
    exacts [h0, h1, h2, h3, h4, h5, h6]

/-- The sidecar reads back: `#[derive(Deserialize)]` gives the record `#[derive(Serialize)]`
wrote, every field exactly, when the collaborators' own serializations read back. -/
theorem deserialize_serialize_eq_ok [Serialize BackupScheme] [Serialize OperatingSystem]
    [Serialize DeviceIdentifier] [Serialize DeviceName] (hsc : RoundTrip BackupScheme)
    (hos : RoundTrip OperatingSystem) (hdi : RoundTrip DeviceIdentifier)
    (hdn : RoundTrip DeviceName)
    (m : BackupMetadata BackupScheme OperatingSystem DeviceIdentifier DeviceName) :
    Deserialize.deserialize (Serialize.serialize m) = .ok m := by
  show (metadataFields BackupScheme OperatingSystem DeviceIdentifier DeviceName).deserializeStruct
    (Serialize.serialize m) >>= _ = _
  rw [bind_eq_ok_iff]
  refine ⟨m.toFields, (Fields.visitMap_finish_eq_ok_iff metadataFieldNames_injective _ _).2
    fun i => ?_, rfl⟩
  fin_cases i
  exacts [⟨_, rfl, hsc.deserialize_serialize _⟩, ⟨_, rfl, deserialize_backupVersion _⟩,
    ⟨_, rfl, deserialize_int _⟩, ⟨_, rfl, hdi.deserialize_serialize _⟩,
    ⟨_, rfl, hdn.deserialize_serialize _⟩, ⟨_, rfl, hos.deserialize_serialize _⟩,
    ⟨_, rfl, deserialize_str _⟩]

end

/-- The spec's sample record reads back from its sidecar. -/
theorem deserialize_serialize_eq_ok_sample :
    let m : BackupMetadata Device.BackupScheme Device.OperatingSystem Device.DeviceIdentifier
        Device.DeviceName :=
      ⟨.v1, ⟨⟨3, by omega, by omega⟩, by decide⟩, ⟨1700000000, by omega, by omega⟩, ⟨"dev123"⟩,
        ⟨"iPhone"⟩, .ios, "bm9uY2U="⟩
    RoundTrip Device.BackupScheme ∧ RoundTrip Device.OperatingSystem ∧
      RoundTrip Device.DeviceIdentifier ∧ RoundTrip Device.DeviceName ∧
      Deserialize.deserialize (Serialize.serialize m) = .ok m :=
  ⟨Device.roundTrip_backupScheme, Device.roundTrip_operatingSystem,
    Device.roundTrip_deviceIdentifier, Device.roundTrip_deviceName,
    deserialize_serialize_eq_ok Device.roundTrip_backupScheme Device.roundTrip_operatingSystem
      Device.roundTrip_deviceIdentifier Device.roundTrip_deviceName _⟩

end SealVault.Backup.Metadata
