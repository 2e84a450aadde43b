import SealVault.Matcher
import SealVault.Device
import SealVault.Backup.Version

/-! The backup file name, `sealvault_backup_<scheme>_<os>_<timestamp>_<device_id>_<version>.zip`.
`getBackupFileName` writes it with `format!`, and `MetadataFromFileName.fromStr` reads it back
through `BACKUP_FILE_NAME_REGEX` and each field's own `FromStr`. -/
namespace SealVault.Backup.FileName
open SealVault.Rust SealVault.Matcher SealVault.Backup.Version

/-- `[A-Za-z0-9-]` -/
def tokenClass : CharClass := .ranges [('A', 'Z'), ('a', 'z'), ('0', '9'), ('-', '-')]

/-- `BACKUP_FILE_NAME_REGEX`: `^sealvault_backup_(?P<scheme>[A-Za-z0-9-]+)_(?P<os>[A-Za-z0-9-]+)`
`_(?P<timestamp>\d+)_(?P<device_id>[A-Za-z0-9-]+)_(?P<version>\d+)\.zip$` -/
def backupFileNameRegex : Regex :=
  .seq .startText <| .seq (.lit "sealvault_backup_") <|
  .seq (.group "scheme" (.plus tokenClass)) <| .seq (.lit "_") <|
  .seq (.group "os" (.plus tokenClass)) <| .seq (.lit "_") <|
  .seq (.group "timestamp" (.plus .digit)) <| .seq (.lit "_") <|
  .seq (.group "device_id" (.plus tokenClass)) <| .seq (.lit "_") <|
  .seq (.group "version" (.plus .digit)) <| .seq (.lit ".zip") .endText

/-! ### The pattern's language -/

theorem tokenClass_underscore : tokenClass.matches '_' = false := by decide

theorem digit_underscore : CharClass.digit.matches '_' = false := by decide

theorem digit_dot : CharClass.digit.matches '.' = false := by decide

/-- The characters of a backup file name with the given fields. -/
def fileNameData (a o t d v : List Char) : List Char :=
  "sealvault_backup_".data ++ a ++ '_' :: o ++ '_' :: t ++ '_' :: d ++ '_' :: v ++ ".zip".data

/-- The name `format!` spells from five field texts. -/
theorem fileNameData_strings (a o t d v : String) :
    ("sealvault_backup_" ++ a ++ "_" ++ o ++ "_" ++ t ++ "_" ++ d ++ "_" ++ v ++ ".zip").data =
      fileNameData a.data o.data t.data d.data v.data := by
  simp [fileNameData]

/-- What the groups of the pattern capture on a name with the given fields. -/
def fileNameCaptures (a o t d v : List Char) : Captures :=
  [("version", ⟨v⟩), ("device_id", ⟨d⟩), ("timestamp", ⟨t⟩), ("os", ⟨o⟩),
    ("scheme", ⟨a⟩)]

theorem name_fileNameCaptures (a o t d v : List Char) :
    (fileNameCaptures a o t d v).name "os" = some ⟨o⟩ ∧
      (fileNameCaptures a o t d v).name "timestamp" = some ⟨t⟩ ∧
      (fileNameCaptures a o t d v).name "device_id" = some ⟨d⟩ ∧
      (fileNameCaptures a o t d v).name "version" = some ⟨v⟩ := ⟨rfl, rfl, rfl, rfl⟩

/-- `BACKUP_FILE_NAME_REGEX` matches exactly the names that split at their `_`s into five
fields of its classes, and its groups capture those fields. -/
theorem captures_eq_some_iff (s : String) (caps : Captures) :
    backupFileNameRegex.captures s = some caps ↔
      ∃ a o t d v, Field tokenClass a ∧ Field tokenClass o ∧ Field .digit t ∧
        Field tokenClass d ∧ Field .digit v ∧
        s.data = fileNameData a o t d v ∧ caps = fileNameCaptures a o t d v := by
  have sep : "_".data.head? = some '_' := rfl
  have dot : ".zip".data.head? = some '.' := rfl
  rw [backupFileNameRegex, captures_startText]
  simp only [go_seq_lit_eq_some_iff, go_field_eq_some_iff sep tokenClass_underscore,
    go_field_eq_some_iff sep digit_underscore, go_field_eq_some_iff dot digit_dot,
    go_endText_eq_some_iff, Option.some.injEq]
  constructor
  · rintro ⟨_, hs, a, _, ha, rfl, o, _, ho, rfl, t, _, ht, rfl, d, _, hd, rfl, v, _, hv, rfl,
      rfl, rfl⟩
    exact ⟨a, o, t, d, v, ha, ho, ht, hd, hv, by simp [hs, fileNameData], rfl⟩
  · rintro ⟨a, o, t, d, v, ha, ho, ht, hd, hv, hs, rfl⟩
    exact ⟨_, by simpa [fileNameData] using hs, a, _, ha, rfl, o, _, ho, rfl, t, _, ht, rfl,
      d, _, hd, rfl,
      v, _, hv, rfl, rfl, rfl⟩

/-- A non-empty text over `[A-Za-z0-9-]`. -/
def IsToken (s : String) : Prop := Field tokenClass s.data

/-- A non-empty text of ASCII digits. -/
def IsNumeral (s : String) : Prop := s.data ≠ [] ∧ ∀ c ∈ s.data, c.isDigit

instance : DecidablePred IsToken := fun s => inferInstanceAs (Decidable (Field _ s.data))

instance : DecidablePred IsNumeral := fun s => inferInstanceAs (Decidable (s.data ≠ [] ∧ _))

theorem field_digit_iff {t : List Char} (ht : Field .digit t) :
    (∀ c ∈ t.head?, c ≠ '+' ∧ c ≠ '-') := by
  intro c hc
  have : isDecimalDigit c := ht.2 c (List.mem_of_mem_head? hc)
  constructor <;> rintro rfl <;> revert this <;> decide

theorem field_digit_of_isNumeral {t : String} (ht : IsNumeral t) : Field .digit t.data :=
  ⟨ht.1, fun c hc => by
    have h := ht.2 c hc
    rw [CharClass.matches, isDecimalDigit_of_ascii (by have := (isDigit_iff c).1 h; omega), h]⟩

/-- A name splits uniquely at a separator that neither first part contains. -/
theorem append_sep_inj {sep : Char} {u u' r r' : List Char} (hu : sep ∉ u) (hu' : sep ∉ u')
    (h : u ++ sep :: r = u' ++ sep :: r') : u = u' ∧ r = r' := by
  induction u generalizing u' with
  | nil =>
    cases u' with
    | nil => simpa using h
    | cons c' u' =>
      simp only [List.nil_append, List.cons_append, List.cons.injEq] at h
      exact absurd (List.mem_cons.2 (.inl h.1)) hu'
  | cons c u ih =>
    cases u' with
    | nil =>
      simp only [List.nil_append, List.cons_append, List.cons.injEq] at h
      exact absurd (List.mem_cons.2 (.inl h.1.symm)) hu
    | cons c' u' =>
      simp only [List.cons_append, List.cons.injEq, List.mem_cons, not_or] at h hu hu' ⊢
      obtain ⟨rfl, h⟩ := h
      exact ⟨⟨rfl, (ih hu.2 hu'.2 h).1⟩, (ih hu.2 hu'.2 h).2⟩

theorem not_mem_of_field {cls : CharClass} {u : List Char} {c : Char} (h : Field cls u)
    (hc : cls.matches c = false) : c ∉ u := fun hm => by simp [h.2 c hm] at hc

/-- A name splits uniquely into fields that hold no `_`. -/
theorem fileNameData_inj {a o t d v a' o' t' d' v' : List Char} (ha : '_' ∉ a) (ho : '_' ∉ o)
    (ht : '_' ∉ t) (hd : '_' ∉ d) (ha' : '_' ∉ a') (ho' : '_' ∉ o') (ht' : '_' ∉ t')
    (hd' : '_' ∉ d') (h : fileNameData a o t d v = fileNameData a' o' t' d' v') :
    a = a' ∧ o = o' ∧ t = t' ∧ d = d' ∧ v = v' := by
  simp only [fileNameData, List.append_assoc, List.cons_append, List.cons.injEq, true_and,
    List.nil_append] at h
  obtain ⟨rfl, h₁⟩ := append_sep_inj ha ha' h
  obtain ⟨rfl, h₂⟩ := append_sep_inj ho ho' h₁
  obtain ⟨rfl, h₃⟩ := append_sep_inj ht ht' h₂
  obtain ⟨rfl, h₄⟩ := append_sep_inj hd hd' h₃
  exact ⟨rfl, rfl, rfl, rfl, List.append_cancel_right h₄⟩

/-- An `i64` displays in digits and a sign: no `_`. -/
theorem underscore_not_mem_toString (x : I64) : '_' ∉ (toString x).data := fun h =>
  absurd (toString_int_data x.val '_' h) (by decide)

theorem isNumeral_toString {x : I64} (h : 0 ≤ x.val) : IsNumeral (toString x) := by
  rw [IsNumeral, toString_data_of_nonneg h]
  exact ⟨toDigits_ne_nil _, toDigits_isDigit _⟩

theorem decimalValue_toString {x : I64} (h : 0 ≤ x.val) :
    (decimalValue (toString x).data : Int) = x.val := by
  simp [toString_data_of_nonneg h, Int.toNat_of_nonneg h]

/-- A field of the pattern's `\d+` holds no sign, so `i64::from_str` fails on it only at a
digit that is not ASCII or on an overflow. -/
theorem fromStr_digits_error_kind {t : List Char} (ht : Field .digit t) (err : ParseIntError)
    (h : I64.fromStr ⟨t⟩ = .error err) : err.kind = .invalidDigit ∨ err.kind = .posOverflow := by
  obtain ⟨c, cs, rfl⟩ := List.exists_cons_of_ne_nil ht.1
  obtain ⟨hp, hm⟩ := field_digit_iff ht c rfl
  exact fromStr_unsigned_error_kind hp hm cs err h

/-- On a `\d+` field `BackupVersion::from_str` never reaches its negative check: it fails only
where the integer parse does, retriably. -/
theorem version_fromStr_digits_error {v : List Char} (hv : Field .digit v) (e : Error)
    (h : BackupVersion.fromStr ⟨v⟩ = .error e) :
    ∃ err : ParseIntError, (err.kind = .invalidDigit ∨ err.kind = .posOverflow) ∧
      e = .retriable s!"Failed to parse str to backup version with error \x27{err}\x27" := by
  rw [Version.fromStr_eq] at h
  cases hi : I64.fromStr ⟨v⟩ with
  | error err =>
    rw [hi] at h
    cases h
    exact ⟨err, fromStr_digits_error_kind hv err hi, rfl⟩
  | ok x =>
    rw [hi] at h
    obtain ⟨-, -, hx⟩ := (Rust.fromStr_eq_ok_iff (field_digit_iff hv) x).1 hi
    exact absurd ((tryFrom_eq_error_iff x e).1 h).1 (by omega)

structure MetadataFromFileName (OperatingSystem DeviceIdentifier : Type) where
  timestamp : I64
  os : OperatingSystem
  deviceId : DeviceIdentifier
  backupVersion : BackupVersion

def parseFieldFromBackupFileName {α : Type} [FromStr α] [From (FromStr.Err α) Error]
    (captures : Captures) (name : String) : Except Error α := do
  let group ← match captures.name name with
    | some group => pure group
    | none => throw (.fatal s!"No {name} in backup file name")
  (FromStr.fromStr group).mapError From.convert

theorem parseField_eq {α : Type} [FromStr α] [From (FromStr.Err α) Error] {caps : Captures}
    {name group : String} (h : caps.name name = some group) :
    (parseFieldFromBackupFileName caps name : Except Error α) =
      (FromStr.fromStr group).mapError From.convert := by
  simp [parseFieldFromBackupFileName, h]

section
variable {BackupScheme OperatingSystem DeviceIdentifier : Type}
  [ToString BackupScheme] [ToString OperatingSystem] [ToString DeviceIdentifier]

def getBackupFileName (backupScheme : BackupScheme) (os : OperatingSystem) (timestamp : I64)
    (deviceId : DeviceIdentifier) (backupVersion : BackupVersion) : String :=
  s!"sealvault_backup_{backupScheme}_{os}_{timestamp}_{deviceId}_{backupVersion}.zip"

theorem getBackupFileName_data (sc : BackupScheme) (os : OperatingSystem) (t : I64)
    (d : DeviceIdentifier) (v : BackupVersion) :
    (getBackupFileName sc os t d v).data = fileNameData (toString sc).data (toString os).data
      (toString t).data (toString d).data (toString v).data := by
  exact fileNameData_strings _ _ _ _ _

/-- A negative timestamp is written with a `-`, which the timestamp field of the pattern
cannot hold: the name does not match. -/
theorem captures_getBackupFileName_of_neg (sc : BackupScheme) (os : OperatingSystem) {t : I64}
    (d : DeviceIdentifier) (v : BackupVersion) (hsc : IsToken (toString sc))
    (hos : IsToken (toString os)) (hd : IsToken (toString d)) (ht : t.val < 0) :
    backupFileNameRegex.captures (getBackupFileName sc os t d v) = none := by
  obtain ⟨n, hds⟩ := toString_data_of_neg ht
  refine Option.eq_none_iff_forall_not_mem.2 fun caps hcaps => ?_
  obtain ⟨a, o, t', d', _, ha, ho, ht', hd', -, hs, -⟩ := (captures_eq_some_iff _ caps).1 hcaps
  rw [getBackupFileName_data] at hs
  obtain ⟨-, -, hteq, -⟩ := fileNameData_inj (not_mem_of_field hsc tokenClass_underscore)
    (not_mem_of_field hos tokenClass_underscore) (underscore_not_mem_toString t)
    (not_mem_of_field hd tokenClass_underscore)
    (not_mem_of_field ha tokenClass_underscore) (not_mem_of_field ho tokenClass_underscore)
    (not_mem_of_field ht' digit_underscore) (not_mem_of_field hd' tokenClass_underscore) hs
  have := ht'.2 '-' (by rw [← hteq, hds]; exact List.mem_cons_self _ _)
  exact absurd this (by decide)

/-- A backup file name determines the timestamp and the version it was made from, and the
displays of its scheme, OS and device id, whenever those displays hold no `_`: two backups
that differ there never share a name. -/
theorem getBackupFileName_inj {sc sc' : BackupScheme} {os os' : OperatingSystem} {t t' : I64}
    {d d' : DeviceIdentifier} {v v' : BackupVersion} (hsc : '_' ∉ (toString sc).data)
    (hos : '_' ∉ (toString os).data) (hd : '_' ∉ (toString d).data)
    (hsc' : '_' ∉ (toString sc').data) (hos' : '_' ∉ (toString os').data)
    (hd' : '_' ∉ (toString d').data)
    (h : getBackupFileName sc os t d v = getBackupFileName sc' os' t' d' v') :
    toString sc = toString sc' ∧ toString os = toString os' ∧ t = t' ∧
      toString d = toString d' ∧ v = v' := by
  have h := congrArg String.data h
  rw [getBackupFileName_data, getBackupFileName_data] at h
  obtain ⟨hsc, hos, ht, hd, hv⟩ := fileNameData_inj hsc hos (underscore_not_mem_toString t) hd
    hsc' hos' (underscore_not_mem_toString t') hd' h
  exact ⟨String.ext hsc, String.ext hos, I64.ext (@toString_int_inj t.val t'.val (String.ext ht)),
    String.ext hd,
    BackupVersion.ext (I64.ext (@toString_int_inj v.val.val v'.val.val (String.ext hv)))⟩

end

theorem getBackupFileName_inj_sample :
    '_' ∉ (toString Device.BackupScheme.v1).data ∧
      '_' ∉ (toString Device.OperatingSystem.ios).data ∧
      '_' ∉ (toString (Device.DeviceIdentifier.mk "dev123")).data ∧
      (toString Device.BackupScheme.v1 = toString Device.BackupScheme.v1 ∧
        toString Device.OperatingSystem.ios = toString Device.OperatingSystem.ios ∧
        (⟨1700000000, by omega, by omega⟩ : I64) = ⟨1700000000, by omega, by omega⟩ ∧
        toString (Device.DeviceIdentifier.mk "dev123") =
          toString (Device.DeviceIdentifier.mk "dev123") ∧
        (⟨⟨3, by omega, by omega⟩, by decide⟩ : BackupVersion) =
          ⟨⟨3, by omega, by omega⟩, by decide⟩) :=
  ⟨by decide, by decide, by decide, getBackupFileName_inj
    (by decide) (by decide) (by decide) (by decide) (by decide) (by decide) rfl⟩

section
variable {OperatingSystem DeviceIdentifier : Type}
  [FromStr OperatingSystem] [FromStr DeviceIdentifier]
  [From (FromStr.Err OperatingSystem) Error] [From (FromStr.Err DeviceIdentifier) Error]
  [From ParseIntError Error]

def MetadataFromFileName.fromStr (fileName : String) :
    Except Error (MetadataFromFileName OperatingSystem DeviceIdentifier) := do
  let captures ← match backupFileNameRegex.captures fileName with
    | some captures => pure captures
    | none => throw (.fatal s!"Invalid backup file name format: \x27{fileName}\x27")
  let timestamp : I64 ← parseFieldFromBackupFileName captures "timestamp"
  let os : OperatingSystem ← parseFieldFromBackupFileName captures "os"
  let deviceId : DeviceIdentifier ← parseFieldFromBackupFileName captures "device_id"
  let backupVersion : BackupVersion ← parseFieldFromBackupFileName captures "version"
  pure { timestamp, os, deviceId, backupVersion }


/-- Once the pattern matches, `from_str` is the four field parses in order. -/
theorem fromStr_of_captures {s : String} {caps : Captures}
    (h : backupFileNameRegex.captures s = some caps) :
    (MetadataFromFileName.fromStr s :
        Except Error (MetadataFromFileName OperatingSystem DeviceIdentifier)) =
      parseFieldFromBackupFileName caps "timestamp" >>= fun timestamp =>
      parseFieldFromBackupFileName caps "os" >>= fun os =>
      parseFieldFromBackupFileName caps "device_id" >>= fun deviceId =>
      parseFieldFromBackupFileName caps "version" >>= fun backupVersion =>
      pure { timestamp, os, deviceId, backupVersion } := by
  unfold MetadataFromFileName.fromStr
  rw [h]
  rfl

/-- `from_str` succeeds when the pattern matches and each of the four fields parses. -/
theorem fromStr_eq_ok_iff_captures (s : String)
    (r : MetadataFromFileName OperatingSystem DeviceIdentifier) :
    MetadataFromFileName.fromStr s = .ok r ↔
      ∃ caps, backupFileNameRegex.captures s = some caps ∧
      parseFieldFromBackupFileName caps "timestamp" = .ok r.timestamp ∧
      parseFieldFromBackupFileName caps "os" = .ok r.os ∧
      parseFieldFromBackupFileName caps "device_id" = .ok r.deviceId ∧
      parseFieldFromBackupFileName caps "version" = .ok r.backupVersion := by
  unfold MetadataFromFileName.fromStr
  cases backupFileNameRegex.captures s with
  | none => exact iff_of_false (fun h => by cases h) (fun ⟨_, h, _⟩ => by cases h)
  | some caps =>
    simp only [pure, Except.pure, bind_eq_ok_iff, Option.some.injEq, Except.ok.injEq,
      exists_eq_left']
    constructor
    · rintro ⟨t, ht, o, ho, d, hd, v, hv, rfl⟩
      exact ⟨ht, ho, hd, hv⟩
    · rintro ⟨ht, ho, hd, hv⟩
      exact ⟨_, ht, _, ho, _, hd, _, hv, rfl⟩

/-- `from_str` accepts exactly the grammar of backup file names: five `_`-separated fields
between the prefix and `.zip`, the numeric ones in ASCII digits and within `i64`, and the OS
tag and the device id accepted by their own parsers. The result carries those values. -/
theorem fromStr_eq_ok_iff_fields (s : String)
    (r : MetadataFromFileName OperatingSystem DeviceIdentifier) :
    MetadataFromFileName.fromStr s = .ok r ↔
      ∃ a o t d v : String, IsToken a ∧ IsToken o ∧ IsNumeral t ∧ IsToken d ∧
        IsNumeral v ∧ decimalValue t.data < 2 ^ 63 ∧ decimalValue v.data < 2 ^ 63 ∧
        s = "sealvault_backup_" ++ a ++ "_" ++ o ++ "_" ++ t ++ "_" ++ d ++ "_" ++ v ++ ".zip" ∧
        (decimalValue t.data : Int) = r.timestamp.val ∧
        (decimalValue v.data : Int) = r.backupVersion.val.val ∧
        FromStr.fromStr o = .ok r.os ∧ FromStr.fromStr d = .ok r.deviceId := by
  rw [fromStr_eq_ok_iff_captures]
  constructor
  · rintro ⟨caps, hcaps, ht, ho, hd, hv⟩
    obtain ⟨a, o, t, d, v, ha, ho', ht', hd', hv', hs, rfl⟩ :=
      (captures_eq_some_iff s caps).1 hcaps
    obtain ⟨hno, hnt, hnd, hnv⟩ := name_fileNameCaptures a o t d v
    rw [parseField_eq hnt, mapError_eq_ok_iff] at ht
    rw [parseField_eq hno, mapError_eq_ok_iff] at ho
    rw [parseField_eq hnd, mapError_eq_ok_iff] at hd
    rw [parseField_eq hnv, mapError_eq_ok_iff] at hv
    obtain ⟨-, htd, htv⟩ := (Rust.fromStr_eq_ok_iff (field_digit_iff ht') _).1 ht
    obtain ⟨-, hvd, hvv⟩ :=
      (Rust.fromStr_eq_ok_iff (field_digit_iff hv') _).1 ((Version.fromStr_eq_ok_iff _ _).1 hv)
    have := r.timestamp.val_lt
    have := r.backupVersion.val.val_lt
    exact ⟨⟨a⟩, ⟨o⟩, ⟨t⟩, ⟨d⟩, ⟨v⟩, ha, ho', ⟨ht'.1, htd⟩, hd', ⟨hv'.1, hvd⟩,
      show decimalValue t < _ by omega, show decimalValue v < _ by omega,
      String.ext (hs.trans (fileNameData_strings ⟨a⟩ ⟨o⟩ ⟨t⟩ ⟨d⟩ ⟨v⟩).symm), htv, hvv, ho,
      hd⟩
  · rintro ⟨a, o, t, d, v, ha, ho, ht, hd, hv, -, -, rfl, htv, hvv, hos, hds⟩
    refine ⟨_, (captures_eq_some_iff _ _).2 ⟨a.data, o.data, t.data, d.data, v.data, ha, ho,
      field_digit_of_isNumeral ht, hd, field_digit_of_isNumeral hv, fileNameData_strings a o t d v,
      rfl⟩, ?_, ?_, ?_, ?_⟩
    all_goals
      obtain ⟨hno, hnt, hnd, hnv⟩ := name_fileNameCaptures a.data o.data t.data d.data v.data
    · rw [parseField_eq hnt, mapError_eq_ok_iff]
      exact (Rust.fromStr_eq_ok_iff (field_digit_iff (field_digit_of_isNumeral ht)) _).2
        ⟨ht.1, ht.2, htv⟩
    · rwa [parseField_eq hno, mapError_eq_ok_iff]
    · rwa [parseField_eq hnd, mapError_eq_ok_iff]
    · rw [parseField_eq hnv, mapError_eq_ok_iff]
      exact (Version.fromStr_eq_ok_iff _ _).2 <|
        (Rust.fromStr_eq_ok_iff (field_digit_iff (field_digit_of_isNumeral hv)) _).2
          ⟨hv.1, hv.2, hvv⟩

variable {BackupScheme : Type} [ToString BackupScheme] [ToString OperatingSystem]
  [ToString DeviceIdentifier]

/-- `from_str` reads back the fields `get_backup_file_name` wrote when the timestamp is not
negative, and rejects the name as malformed when it is. -/
theorem fromStr_getBackupFileName (sc : BackupScheme) (os : OperatingSystem) (t : I64)
    (d : DeviceIdentifier) (v : BackupVersion) (hsc : IsToken (toString sc))
    (hos : IsToken (toString os)) (hd : IsToken (toString d))
    (hos' : FromStr.fromStr (toString os) = .ok os) (hd' : FromStr.fromStr (toString d) = .ok d) :
    MetadataFromFileName.fromStr (getBackupFileName sc os t d v) =
      if 0 ≤ t.val then .ok ⟨t, os, d, v⟩
      else
        .error (.fatal s!"Invalid backup file name format: \x27{getBackupFileName sc os t d v}\x27") := by
  split
  · next ht =>
    have hv : 0 ≤ v.val.val := v.nonneg
    exact (fromStr_eq_ok_iff_fields _ _).2 ⟨_, _, _, _, _, hsc, hos, isNumeral_toString ht, hd,
      isNumeral_toString hv, by have := decimalValue_toString ht; have := t.val_lt; omega,
      by have := decimalValue_toString hv; have := v.val.val_lt; omega,
      String.ext ((getBackupFileName_data _ _ _ _ _).trans
        (fileNameData_strings _ _ _ _ _).symm), decimalValue_toString ht,
      decimalValue_toString hv,
      hos', hd'⟩
  · next ht =>
    unfold MetadataFromFileName.fromStr
    rw [captures_getBackupFileName_of_neg sc os d v hsc hos hd (by omega)]
    rfl

end

theorem fromStr_getBackupFileName_sample :
    IsToken (toString Device.BackupScheme.v1) ∧ IsToken (toString Device.OperatingSystem.ios) ∧
      IsToken (toString (Device.DeviceIdentifier.mk "dev123")) ∧
      MetadataFromFileName.fromStr (getBackupFileName Device.BackupScheme.v1
        Device.OperatingSystem.ios ⟨1700000000, by omega, by omega⟩
        (Device.DeviceIdentifier.mk "dev123") ⟨⟨3, by omega, by omega⟩, by decide⟩) =
      .ok ⟨⟨1700000000, by omega, by omega⟩, Device.OperatingSystem.ios,
        (Device.DeviceIdentifier.mk "dev123"), ⟨⟨3, by omega, by omega⟩, by decide⟩⟩ :=
  ⟨by decide, by decide, by decide, fromStr_getBackupFileName _ _ _ _ _ (by decide) (by decide)
    (by decide) rfl rfl⟩

/-- The round trip fails for a negative timestamp, which `BackupMetadata` can carry. -/
theorem fromStr_getBackupFileName_neg_one :
    MetadataFromFileName.fromStr (getBackupFileName Device.BackupScheme.v1
        Device.OperatingSystem.ios ⟨-1, by omega, by omega⟩ (Device.DeviceIdentifier.mk "dev123")
        ⟨⟨3, by omega, by omega⟩, by decide⟩) ≠
      .ok ⟨⟨-1, by omega, by omega⟩, Device.OperatingSystem.ios,
        (Device.DeviceIdentifier.mk "dev123"), ⟨⟨3, by omega, by omega⟩, by decide⟩⟩ := by
  unfold MetadataFromFileName.fromStr
  rw [captures_getBackupFileName_of_neg _ _ _ _ (by decide) (by decide) (by decide) (by decide)]
  nofun

section
variable {OperatingSystem DeviceIdentifier : Type}
  [FromStr OperatingSystem] [FromStr DeviceIdentifier]
  [From (FromStr.Err OperatingSystem) Error] [From (FromStr.Err DeviceIdentifier) Error]
  [From ParseIntError Error] [ToString OperatingSystem] [ToString DeviceIdentifier]

/-- A well-formed name whose version token is past `i64::MAX` matches the pattern, and
`BackupVersion::from_str` then fails with its retriable error, which `from_str` passes on. -/
theorem fromStr_version_overflow (os : OperatingSystem) (d : DeviceIdentifier)
    (hos : IsToken (toString os)) (hd : IsToken (toString d))
    (hos' : FromStr.fromStr (toString os) = .ok os) (hd' : FromStr.fromStr (toString d) = .ok d) :
    (MetadataFromFileName.fromStr ("sealvault_backup_v1_" ++ toString os ++ "_1_" ++ toString d ++
        "_9223372036854775808.zip") :
        Except Error (MetadataFromFileName OperatingSystem DeviceIdentifier)) =
      .error (.retriable
        "Failed to parse str to backup version with error \x27number too large to fit in target type\x27") := by
  have hcaps := (captures_eq_some_iff ("sealvault_backup_v1_" ++ toString os ++ "_1_" ++
    toString d ++ "_9223372036854775808.zip") _).2 ⟨"v1".data, (toString os).data, "1".data,
    (toString d).data, "9223372036854775808".data, by decide, hos, by decide, hd, by decide,
    by simp [fileNameData], rfl⟩
  obtain ⟨hno, hnt, hnd, hnv⟩ := name_fileNameCaptures "v1".data (toString os).data "1".data
    (toString d).data "9223372036854775808".data
  rw [fromStr_of_captures hcaps, parseField_eq hnt, parseField_eq hno, parseField_eq hnd,
    parseField_eq hnv, show String.mk (toString os).data = toString os from rfl,
    show String.mk (toString d).data = toString d from rfl, hos', hd']
  rfl

end

theorem fromStr_version_overflow_ios :
    IsToken (toString Device.OperatingSystem.ios) ∧
      IsToken (toString (Device.DeviceIdentifier.mk "dev123")) ∧
      (MetadataFromFileName.fromStr ("sealvault_backup_v1_" ++
        toString Device.OperatingSystem.ios ++ "_1_" ++ toString (Device.DeviceIdentifier.mk "dev123") ++ "_9223372036854775808.zip") :
        Except Error (MetadataFromFileName Device.OperatingSystem Device.DeviceIdentifier)) =
      .error (.retriable
        "Failed to parse str to backup version with error \x27number too large to fit in target type\x27") :=
  ⟨by decide, by decide, fromStr_version_overflow _ _ (by decide) (by decide) rfl rfl⟩

section
variable {OperatingSystem DeviceIdentifier : Type}
  [FromStr OperatingSystem] [FromStr DeviceIdentifier]
  [From (FromStr.Err OperatingSystem) Error] [From (FromStr.Err DeviceIdentifier) Error]
  [From ParseIntError Error]

/-- The ways `from_str` fails, in the order it meets them: a name the pattern rejects, with the
name in the message; then the timestamp, the OS tag and the device id, each with its own
parser's error converted; then the version, retriably. The pattern's `\d+` fields hold no sign,
so the integer parses fail only at a digit that is not ASCII or on an overflow, and the
version's negative check is never reached; every group is captured, so the
`No {name} in backup file name` error never arises. -/
theorem fromStr_error_cases (s : String) (e : Error)
    (h : (MetadataFromFileName.fromStr s :
      Except Error (MetadataFromFileName OperatingSystem DeviceIdentifier)) = .error e) :
    backupFileNameRegex.captures s = none ∧
        e = .fatal s!"Invalid backup file name format: \x27{s}\x27" ∨
      (backupFileNameRegex.captures s).isSome ∧
        ((∃ err : ParseIntError, (err.kind = .invalidDigit ∨ err.kind = .posOverflow) ∧
            e = From.convert err) ∨
          (∃ err : FromStr.Err OperatingSystem, e = From.convert err) ∨
          (∃ err : FromStr.Err DeviceIdentifier, e = From.convert err) ∨
          ∃ err : ParseIntError, (err.kind = .invalidDigit ∨ err.kind = .posOverflow) ∧
            e = .retriable s!"Failed to parse str to backup version with error \x27{err}\x27") := by
  cases hc : backupFileNameRegex.captures s with
  | none =>
    unfold MetadataFromFileName.fromStr at h
    rw [hc] at h
    cases h
    exact .inl ⟨rfl, rfl⟩
  | some caps =>
    refine .inr ⟨rfl, ?_⟩
    obtain ⟨a, o, t, d, v, -, -, ht, -, hv, -, rfl⟩ := (captures_eq_some_iff s caps).1 hc
    obtain ⟨hno, hnt, hnd, hnv⟩ := name_fileNameCaptures a o t d v
    rw [fromStr_of_captures hc, parseField_eq hnt, parseField_eq hno, parseField_eq hnd,
      parseField_eq hnv] at h
    simp only [bind_eq_error_iff, mapError_eq_error_iff] at h
    rcases h with ⟨err, h, rfl⟩ | ⟨_, _, ⟨err, _, rfl⟩ | ⟨_, _, ⟨err, _, rfl⟩ |
      ⟨_, _, ⟨_, h, rfl⟩ | ⟨_, _, h⟩⟩⟩⟩
    · exact .inl ⟨err, fromStr_digits_error_kind ht err h, rfl⟩
    · exact .inr (.inl ⟨err, rfl⟩)
    · exact .inr (.inr (.inl ⟨err, rfl⟩))
    · exact .inr (.inr (.inr (version_fromStr_digits_error hv _ h)))
    · cases h

end

theorem fromStr_error_cases_bad_name :
    backupFileNameRegex.captures "x" = none ∧
        Error.fatal "Invalid backup file name format: \x27x\x27" =
          .fatal "Invalid backup file name format: \x27x\x27" ∨
      (backupFileNameRegex.captures "x").isSome ∧
        ((∃ err : ParseIntError, (err.kind = .invalidDigit ∨ err.kind = .posOverflow) ∧
            Error.fatal "Invalid backup file name format: \x27x\x27" = From.convert err) ∨
          (∃ err : FromStr.Err Device.OperatingSystem,
            Error.fatal "Invalid backup file name format: \x27x\x27" = From.convert err) ∨
          (∃ err : FromStr.Err Device.DeviceIdentifier,
            Error.fatal "Invalid backup file name format: \x27x\x27" = From.convert err) ∨
          ∃ err : ParseIntError, (err.kind = .invalidDigit ∨ err.kind = .posOverflow) ∧
            Error.fatal "Invalid backup file name format: \x27x\x27" =
              .retriable s!"Failed to parse str to backup version with error \x27{err}\x27") :=
  @fromStr_error_cases Device.OperatingSystem Device.DeviceIdentifier _ _ _ _ _ "x" _ rfl

end SealVault.Backup.FileName
