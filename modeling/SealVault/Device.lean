import SealVault.Rust
import SealVault.CanonicalJson
import SealVault.Serde

/-! Modelled from the spec: stand-ins for the collaborator types of `crate::device` and
`crate::backup::backup_scheme`, which the backup code uses and this part of the repository
does not define. They follow the spec's sample name
`sealvault_backup_v1_ios_1700000000_dev123_3.zip`. The backup theorems hold for every
collaborator; these only instantiate them. -/
namespace SealVault.Device
open SealVault.Rust SealVault.CanonicalJson SealVault.Serde

/-- Modelled from the spec: `From<ParseIntError> for Error`, which the code converts a failed
integer parse with. The spec counts a field of a file name that does not parse as a
non-retriable failure. -/
instance : From ParseIntError Error := ⟨fun e => .fatal (toString e)⟩

/-- Modelled from the spec: the backup scheme, whose one supported value `V1` displays as
`v1`. -/
inductive BackupScheme where
  | v1
  deriving DecidableEq

instance : ToString BackupScheme := ⟨fun | .v1 => "v1"⟩

instance : Serialize BackupScheme := ⟨fun | .v1 => .str "v1"⟩

instance : Deserialize BackupScheme where
  deserialize
    | .str s => if s = "v1" then .ok .v1 else .error (.invalidValue "v1")
    | _ => .error (.invalidType "a string")

/-- Modelled from the spec: the operating-system tag. `Ios` displays as `ios`, and an
unrecognized tag fails non-retriably. -/
inductive OperatingSystem where
  | ios
  deriving DecidableEq

instance : ToString OperatingSystem := ⟨fun | .ios => "ios"⟩

instance : Inhabited OperatingSystem := ⟨.ios⟩

instance : Serialize OperatingSystem := ⟨fun | .ios => .str "ios"⟩

instance : Deserialize OperatingSystem where
  deserialize
    | .str s => if s = "ios" then .ok .ios else .error (.invalidValue "ios")
    | _ => .error (.invalidType "a string")

instance : FromStr OperatingSystem :=
  ⟨Error, fun s => if s = "ios" then .ok .ios else .error (.fatal "OS tag unrecognized")⟩

/-- Modelled from the spec: a device identifier, displayed as its text. -/
structure DeviceIdentifier where
  id : String
  deriving DecidableEq

instance : ToString DeviceIdentifier := ⟨DeviceIdentifier.id⟩

instance : FromStr DeviceIdentifier := ⟨Error, fun s => .ok ⟨s⟩⟩

instance : Serialize DeviceIdentifier := ⟨fun d => .str d.id⟩

instance : Deserialize DeviceIdentifier := ⟨fun j => (Deserialize.deserialize j).map .mk⟩

/-- Modelled from the spec: the device's display name. -/
structure DeviceName where
  name : String
  deriving DecidableEq

instance : Serialize DeviceName := ⟨fun n => .str n.name⟩

instance : Deserialize DeviceName := ⟨fun j => (Deserialize.deserialize j).map .mk⟩

theorem roundTrip_backupScheme : RoundTrip BackupScheme := ⟨fun | .v1 => rfl⟩

theorem roundTrip_operatingSystem : RoundTrip OperatingSystem := ⟨fun | .ios => rfl⟩

theorem roundTrip_deviceIdentifier : RoundTrip DeviceIdentifier := ⟨fun ⟨_⟩ => rfl⟩

theorem roundTrip_deviceName : RoundTrip DeviceName := ⟨fun ⟨_⟩ => rfl⟩

end SealVault.Device
