import SealVault.Rust
import SealVault.Db.Entity

/-! `profile_pictures` as the deprecated `AccountPicture` writes it. The id is derived from
the image's hash, as a dapp's is from its identifier, but the insert has no
`on_conflict_do_nothing`: a bundled picture inserted a second time is a unique violation,
where a second `Dapp::create_if_not_exists` returns the id. -/
namespace SealVault.Db
open SealVault.Rust

structure AccountPicture (DeterministicId : Type) where
  deterministicId : DeterministicId
  imageName : Option String
  imageHash : List UInt8
  image : List UInt8
  createdAt : String
  updatedAt : Option String

/-- The `profile_pictures` table, keyed by `deterministic_id`. -/
abbrev ProfilePicturesTable (DeterministicId : Type) :=
  Table (AccountPicture DeterministicId) DeterministicId AccountPicture.deterministicId

structure AccountPictureEntity where
  imageHash : List UInt8

instance : DeriveDeterministicId AccountPictureEntity where
  entityName _ := .accountPicture
  uniqueColumns self := [self.imageHash]

section
variable {DeterministicId : Type} [DecidableEq DeterministicId] [From DbError Error]
  (derive : EntityName → List (List UInt8) → DeterministicId)

/-- Insert an account picture and return its deterministic id. `createdAt` is
`rfc3339_timestamp()` when the call runs. -/
def AccountPictureEntity.create (self : AccountPictureEntity) (createdAt : String)
    (conn : ProfilePicturesTable DeterministicId) (image : List UInt8)
    (imageName : Option String) :
    Except Error (DeterministicId × ProfilePicturesTable DeterministicId) := do
  let deterministicId := deterministicId derive self
  let conn ← (conn.insert
    { imageHash := self.imageHash, deterministicId, image, imageName, createdAt,
      updatedAt := none }).mapError From.convert
  pure (deterministicId, conn)

/-- Insert a bundled account picture into the database and return its deterministic id.
`loadProfilePic` and `blake3Hash` are `assets::load_profile_pic` and `utils::blake3_hash`. -/
def AccountPicture.insertBundled (loadProfilePic : String → Except Error (List UInt8))
    (blake3Hash : List UInt8 → List UInt8) (createdAt : String)
    (conn : ProfilePicturesTable DeterministicId) (imageName : String) :
    Except Error (DeterministicId × ProfilePicturesTable DeterministicId) := do
  let image ← loadProfilePic imageName
  let imageHash := blake3Hash image
  let entity : AccountPictureEntity := { imageHash }
  entity.create derive createdAt conn image (some imageName)

def AccountPicture.fetchImage (conn : ProfilePicturesTable DeterministicId)
    (id : DeterministicId) : Except Error (List UInt8) := do
  let image ← ((conn.first id).map AccountPicture.image).mapError From.convert
  pure image

variable {derive}

/-- The row `insert_bundled` writes for a loaded image. -/
theorem insertBundled_of_load (loadProfilePic : String → Except Error (List UInt8))
    (blake3Hash : List UInt8 → List UInt8) (createdAt : String)
    (conn : ProfilePicturesTable DeterministicId) {imageName : String} {image : List UInt8}
    (hl : loadProfilePic imageName = .ok image) :
    AccountPicture.insertBundled derive loadProfilePic blake3Hash createdAt conn imageName =
      ((conn.insert
        { imageHash := blake3Hash image,
          deterministicId := derive .accountPicture [blake3Hash image],
          image, imageName := some imageName, createdAt, updatedAt := none }).mapError
        From.convert).map (derive .accountPicture [blake3Hash image], ·) := by
  simp only [AccountPicture.insertBundled, AccountPictureEntity.create, hl, bind, Except.bind,
    deterministicId, DeriveDeterministicId.entityName, DeriveDeterministicId.uniqueColumns]
  cases Except.mapError _ _ <;> rfl

theorem insertBundled_eq_ok {loadProfilePic : String → Except Error (List UInt8)}
    {blake3Hash : List UInt8 → List UInt8} {createdAt : String}
    {conn conn' : ProfilePicturesTable DeterministicId} {imageName : String} {id : DeterministicId}
    (h : AccountPicture.insertBundled derive loadProfilePic blake3Hash createdAt conn imageName =
      .ok (id, conn')) :
    ∃ image, loadProfilePic imageName = .ok image ∧
      id = derive .accountPicture [blake3Hash image] ∧
      conn'.rows = conn.rows ++
        [{ imageHash := blake3Hash image, deterministicId := id, image,
           imageName := some imageName, createdAt, updatedAt := none }] := by
  cases hl : loadProfilePic imageName with
  | error e => simp [AccountPicture.insertBundled, hl, bind, Except.bind] at h
  | ok image =>
    rw [insertBundled_of_load _ _ _ _ hl, map_mapError_eq_ok_iff] at h
    obtain ⟨c, hi, hc⟩ := h
    cases hc
    exact ⟨image, rfl, rfl, ((Table.insert_eq_ok_iff _ _ _).1 hi).2⟩

/-- `insert_bundled` is not idempotent: once a picture is in, inserting the same bundled
picture again fails on the primary key, whenever it runs. -/
theorem insertBundled_twice (loadProfilePic : String → Except Error (List UInt8))
    (blake3Hash : List UInt8 → List UInt8) (createdAt createdAt' : String)
    {conn conn' : ProfilePicturesTable DeterministicId} (imageName : String)
    {id : DeterministicId}
    (h : AccountPicture.insertBundled derive loadProfilePic blake3Hash createdAt conn imageName =
      .ok (id, conn')) :
    AccountPicture.insertBundled derive loadProfilePic blake3Hash createdAt' conn' imageName =
      .error (From.convert DbError.uniqueViolation) := by
  obtain ⟨image, hl, rfl, hc⟩ := insertBundled_eq_ok h
  rw [insertBundled_of_load _ _ _ _ hl, (Table.insert_eq_error_iff _ _ _).2 ⟨by simp [hc], rfl⟩]
  rfl

/-- A picture just inserted is fetched back by its id. -/
theorem fetchImage_insertBundled {loadProfilePic : String → Except Error (List UInt8)}
    {blake3Hash : List UInt8 → List UInt8} {createdAt : String}
    {conn conn' : ProfilePicturesTable DeterministicId} {imageName : String} {id : DeterministicId}
    (h : AccountPicture.insertBundled derive loadProfilePic blake3Hash createdAt conn imageName =
      .ok (id, conn')) :
    ∃ image, loadProfilePic imageName = .ok image ∧
      AccountPicture.fetchImage conn' id = .ok image := by
  obtain ⟨image, hl, rfl, hc⟩ := insertBundled_eq_ok h
  refine ⟨image, hl, ?_⟩
  rw [AccountPicture.fetchImage, (conn'.first_eq_ok_iff (derive .accountPicture [blake3Hash image])
    _).2 ⟨hc ▸ List.mem_append_right _ (List.mem_singleton_self _), rfl⟩]
  rfl

end

/-- A bundled picture of three bytes, under a hash that keeps its input, inserted into an
empty table and then once more. -/
theorem insertBundled_twice_sample :
    ∃ (id : EntityName × List (List UInt8)) (conn' : ProfilePicturesTable _),
      AccountPicture.insertBundled Prod.mk (fun _ => .ok [1, 2, 3]) (fun bs => bs)
          "2023-11-14T22:13:20Z" ⟨[], List.nodup_nil⟩ "pfp-1.png" = .ok (id, conn') ∧
        AccountPicture.insertBundled Prod.mk (fun _ => .ok [1, 2, 3]) (fun bs => bs)
          "2023-11-14T22:13:21Z" conn' "pfp-1.png" =
          .error (From.convert DbError.uniqueViolation) :=
  have h : AccountPicture.insertBundled Prod.mk (fun _ => .ok [1, 2, 3]) (fun bs => bs)
      "2023-11-14T22:13:20Z" ⟨[], List.nodup_nil⟩ "pfp-1.png" = .ok (_, _) := rfl
  ⟨_, _, h, insertBundled_twice _ _ _ _ _ h⟩

/-- The same picture fetched back by the id its insert returned. -/
theorem fetchImage_insertBundled_sample :
    ∃ (id : EntityName × List (List UInt8)) (conn' : ProfilePicturesTable _),
      AccountPicture.insertBundled Prod.mk (fun _ => .ok [1, 2, 3]) (fun bs => bs)
          "2023-11-14T22:13:20Z" ⟨[], List.nodup_nil⟩ "pfp-1.png" = .ok (id, conn') ∧
        ∃ image, (fun _ => .ok [1, 2, 3] : String → Except Error (List UInt8)) "pfp-1.png" =
          .ok image ∧ AccountPicture.fetchImage conn' id = .ok image :=
  have h : AccountPicture.insertBundled Prod.mk (fun _ => .ok [1, 2, 3]) (fun bs => bs)
      "2023-11-14T22:13:20Z" ⟨[], List.nodup_nil⟩ "pfp-1.png" = .ok (_, _) := rfl
  ⟨_, _, h, fetchImage_insertBundled h⟩

end SealVault.Db
